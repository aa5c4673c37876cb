import LastOfC.Lib.FreeMap
import LastOfC.Filesystem.Disco

/-!
# The blocks that a file takes (`reservar_bloques`)

* `bits`: the bitmap as a map of cells. `cantidadBloquesLibres_eq`: the count, modulo `2 ^ 32`.
* `EnCurso`: the state of `reservar_bloques` between two bits. `reservarBloques_casos`: it takes the
  lowest free blocks and returns the first one, or it gets to the end of the file.
* The test for the last block comes after a block was assigned, so a request for 0 blocks is one
  for `2 ^ 32` (`cuota`).
-/

namespace LastOfC.Filesystem

open FreeMap

/-! ## Bits -/

/-- The bits of a byte, the lowest first. -/
def bitsDe (byte : Byte) : List Bool := (List.range 8).map byte.getLsbD

/-- The blocks, `true` for one in use. -/
def bits (bitmap : List Byte) : List Bool := bitmap.flatMap bitsDe

section Bits

variable {byte : Byte} {bitmap : List Byte} {i j offset : Nat}

theorem getLsbD_mascara (i j : Nat) :
    ((1 : Byte) <<< i).getLsbD j = (decide (j < 8) && decide (i = j)) := by
  have huno : ∀ k, (1 : Byte).getLsbD k = decide (k = 0) := fun k => by
    show (1#8).getLsbD k = decide (k = 0)
    rw [BitVec.getLsbD_one, decide_eq_true (by decide), Bool.true_and]
  rw [BitVec.getLsbD_shiftLeft, huno]
  by_cases hj : j < 8
  · by_cases hij : i = j
    · simp [hij, hj]
    · have : (j < i ∨ j - i ≠ 0) := by omega
      rcases this with h | h
      · simp [h, hij]
      · simp [h, hij]
  · simp [hj]

theorem bitLibre_eq (hi : i < 8) : bitLibre byte i = !byte.getLsbD i := by
  have hcero : byte &&& (1 : Byte) <<< i = 0 ↔ byte.getLsbD i = false := by
    constructor
    · intro h
      have hbit := congrArg (fun b => BitVec.getLsbD b i) h
      simpa [getLsbD_mascara, hi] using hbit
    · intro h
      apply BitVec.eq_of_getLsbD_eq
      intro j hj
      rw [BitVec.getLsbD_and, getLsbD_mascara]
      by_cases hij : i = j
      · subst hij
        rw [h, Bool.false_and]
        exact BitVec.getLsbD_zero.symm
      · simp [hij]
  unfold bitLibre
  cases hb : byte.getLsbD i with
  | false => exact decide_eq_true (hcero.mpr hb)
  | true => exact decide_eq_false fun h => by simp [hcero.mp h] at hb

theorem ocuparBit_getLsbD (hj : j < 8) :
    (ocuparBit byte i).getLsbD j = (byte.getLsbD j || decide (i = j)) := by
  rw [ocuparBit, BitVec.getLsbD_or, getLsbD_mascara]
  simp [hj]

@[simp] theorem length_bitsDe (byte : Byte) : (bitsDe byte).length = 8 := by
  rw [bitsDe, List.length_map, List.length_range]

theorem length_bits (bitmap : List Byte) : (bits bitmap).length = 8 * bitmap.length := by
  induction bitmap with
  | nil => rfl
  | cons byte bitmap ih =>
    rw [bits] at ih ⊢
    rw [List.flatMap_cons, List.length_append, length_bitsDe, ih, List.length_cons]
    omega

theorem getElem?_bitsDe (hi : i < 8) : (bitsDe byte)[i]? = some (byte.getLsbD i) := by
  rw [bitsDe, List.getElem?_map, List.getElem?_range hi]
  rfl

/-- The bit `i` of the byte at `offset`. -/
theorem getElem?_bits (bitmap : List Byte) (offset : Nat) (hi : i < 8) :
    (bits bitmap)[8 * offset + i]? = bitmap[offset]?.map (·.getLsbD i) := by
  induction bitmap generalizing offset with
  | nil => rfl
  | cons byte bitmap ih =>
    rw [bits] at ih ⊢
    rw [List.flatMap_cons]
    cases offset with
    | zero =>
      rw [List.getElem?_append_left (by rw [length_bitsDe]; omega), Nat.mul_zero, Nat.zero_add,
        getElem?_bitsDe hi]
      rfl
    | succ offset =>
      rw [List.getElem?_append_right (by rw [length_bitsDe]; omega), length_bitsDe,
        List.getElem?_cons_succ, ← ih offset]
      congr 1
      omega

/-- A bit that is set in its byte is set in the bitmap. -/
theorem bits_set (hi : i < 8) (hb : bitmap[offset]? = some byte) :
    bits (bitmap.set offset (ocuparBit byte i)) = (bits bitmap).set (8 * offset + i) true := by
  have hlt : offset < bitmap.length := (List.getElem?_eq_some_iff.mp hb).1
  apply List.ext_getElem?
  intro x
  obtain ⟨o, j, hj, rfl⟩ : ∃ o j, j < 8 ∧ x = 8 * o + j :=
    ⟨x / 8, x % 8, Nat.mod_lt _ (by decide), (Nat.div_add_mod x 8).symm⟩
  rw [getElem?_bits _ _ hj, List.getElem?_set, List.getElem?_set, getElem?_bits _ _ hj,
    length_bits]
  by_cases ho : offset = o
  · subst ho
    rw [if_pos rfl, if_pos hlt, hb, Option.map_some, Option.map_some, ocuparBit_getLsbD hj]
    by_cases hij : i = j
    · subst hij
      rw [if_pos rfl, if_pos (by omega), decide_eq_true rfl, Bool.or_true]
    · rw [if_neg (by omega), decide_eq_false hij, Bool.or_false]
  · rw [if_neg ho, if_neg (by omega)]

/-! ## The count -/

theorem foldl_libres (byte : Byte) (n : Uint32) {is : List Nat} (h : ∀ i ∈ is, i < 8) :
    is.foldl (fun n i => if bitLibre byte i then n + 1 else n) n =
      n + BitVec.ofNat 32 (free (is.map byte.getLsbD)) := by
  induction is generalizing n with
  | nil => exact (BitVec.add_zero n).symm
  | cons i is ih =>
    have ih := fun n => ih n fun j hj => h j (List.mem_cons_of_mem _ hj)
    rw [List.foldl_cons, ih, List.map_cons, bitLibre_eq (h i List.mem_cons_self)]
    cases byte.getLsbD i with
    | false =>
      rw [free_cons_false, Nat.add_comm (free _) 1, BitVec.ofNat_add, ← BitVec.add_assoc]
      rfl
    | true =>
      rw [free_cons_true]
      rfl

theorem contarLibres_eq (n : Uint32) (byte : Byte) :
    contarLibres n byte = n + BitVec.ofNat 32 (free (bitsDe byte)) :=
  foldl_libres byte n fun _ hi => List.mem_range.mp hi

/-- `cantidad_bloques_libres` counts modulo `2 ^ 32`. -/
theorem cantidadBloquesLibres_eq (bitmap : List Byte) :
    cantidadBloquesLibres bitmap = BitVec.ofNat 32 (free (bits bitmap)) := by
  have hfold : ∀ n : Uint32, bitmap.foldl contarLibres n =
      n + BitVec.ofNat 32 (free (bits bitmap)) := by
    induction bitmap with
    | nil => exact fun n => (BitVec.add_zero n).symm
    | cons byte bitmap ih =>
      intro n
      have hbits : bits (byte :: bitmap) = bitsDe byte ++ bits bitmap := List.flatMap_cons ..
      rw [List.foldl_cons, ih, contarLibres_eq, hbits, free_append, BitVec.ofNat_add,
        BitVec.add_assoc]
  rw [cantidadBloquesLibres, hfold]
  exact BitVec.zero_add _

theorem toNat_cantidadBloquesLibres (bitmap : List Byte) :
    (cantidadBloquesLibres bitmap).toNat = free (bits bitmap) % 2 ^ 32 := by
  rw [cantidadBloquesLibres_eq, BitVec.toNat_ofNat]

theorem espacioDisponible_iff {n : Uint32} :
    espacioDisponible bitmap n = true ↔ n.toNat ≤ free (bits bitmap) % 2 ^ 32 := by
  rw [espacioDisponible, decide_eq_true_iff, BitVec.le_def, toNat_cantidadBloquesLibres]

end Bits

/-! ## The loop -/

/-- After how many assignments the test of `reservar_bloques` stops. The test comes after an
assignment, so 0 blocks are `2 ^ 32`. -/
def cuota (n : Uint32) : Nat := if n = 0 then 2 ^ 32 else n.toNat

/-- `reservar_bloques` is between two bits: it has seen `pre` of the blocks `l`. -/
structure EnCurso (l pre post : List Bool) (r : Reserva) : Prop where
  todo : l = pre ++ post
  bitmap : bits r.bitmap = List.replicate pre.length true ++ post
  asignados : r.bloquesAsignados = BitVec.ofNat 32 (free pre)
  primero : l.length < 2 ^ 32 →
    r.primerBloque = if free pre = 0 then -1 else BitVec.ofNat 32 (l.idxOf false)

/-- `reservar_bloques` returned after its last assignment. -/
def Completa (n : Uint32) (l : List Bool) (primerBloque : Uint32) (bitmap : List Byte) : Prop :=
  ∃ pre post, l = pre ++ false :: post ∧ free pre + 1 = cuota n ∧
    bits bitmap = List.replicate (pre.length + 1) true ++ post ∧
    (l.length < 2 ^ 32 → primerBloque = BitVec.ofNat 32 (l.idxOf false))

/-- `reservar_bloques` got to the end of the file. -/
def Agotada (n : Uint32) (l : List Bool) (primerBloque : Uint32) (bitmap : List Byte) : Prop :=
  free l < cuota n ∧ primerBloque = -1 ∧ bits bitmap = List.replicate l.length true

section Reservar

variable {l pre post : List Bool} {r : Reserva} {n : Uint32} {byte : Byte} {offset i k f : Nat}

theorem ofNat_succ_eq_iff (h : f < cuota n) : BitVec.ofNat 32 (f + 1) = n ↔ f + 1 = cuota n := by
  rw [← BitVec.toNat_inj, BitVec.toNat_ofNat]
  have hlt := n.isLt
  unfold cuota at *
  by_cases h0 : n = 0
  · subst h0
    rw [if_pos rfl] at h ⊢
    have hcero : (0 : Uint32).toNat = 0 := rfl
    omega
  · have hne : n.toNat ≠ 0 := fun h => h0 (BitVec.eq_of_toNat_eq h)
    rw [if_neg h0] at h ⊢
    omega

/-- A block in use. -/
theorem EnCurso.ocupado (h : EnCurso l pre (true :: post) r) :
    EnCurso l (pre ++ [true]) post r where
  todo := by rw [h.todo, List.append_assoc]; rfl
  bitmap := by
    rw [h.bitmap, List.length_append, List.length_singleton, List.replicate_succ',
      List.append_assoc]
    rfl
  asignados := by rw [h.asignados, free_append, free_cons_true, free_nil, Nat.add_zero]
  primero hlen := by rw [h.primero hlen, free_append, free_cons_true, free_nil, Nat.add_zero]

/-- A free block. -/
theorem EnCurso.asignar (h : EnCurso l pre (false :: post) r) (hi : i < 8)
    (hpre : pre.length = 8 * offset + i) (hb : r.bitmap[offset]? = some byte) :
    EnCurso l (pre ++ [false]) post (r.asignar offset i (ocuparBit byte i)) where
  todo := by rw [h.todo, List.append_assoc]; rfl
  bitmap := by
    have hcell : (List.replicate pre.length true ++ false :: post).set pre.length true =
        List.replicate pre.length true ++ true :: post := by
      rw [List.set_append_right _ _ (by rw [List.length_replicate]), List.length_replicate,
        Nat.sub_self, List.set_cons_zero]
    rw [Reserva.asignar, bits_set hi hb, h.bitmap, ← hpre, hcell, List.length_append,
      List.length_singleton, List.replicate_succ', List.append_assoc]
    rfl
  asignados := by
    show r.bloquesAsignados + 1 = _
    rw [h.asignados, free_append, free_cons_false, free_nil, Nat.zero_add]
    exact (BitVec.ofNat_add _ _).symm
  primero hlen := by
    have hlibre : free (pre ++ [false]) ≠ 0 := by
      rw [free_append, free_cons_false]
      omega
    rw [Reserva.asignar, h.primero hlen, if_neg hlibre]
    by_cases h0 : free pre = 0
    · -- the first free block is this one
      have hidx : l.idxOf false = pre.length := by
        rw [h.todo, List.idxOf_append_of_notMem (List.count_eq_zero.mp h0), List.idxOf_cons_self]
        rfl
      rw [if_pos h0, if_pos rfl, hidx, hpre, Nat.mul_comm]
    · have hmem : false ∈ l := by
        rw [h.todo]
        exact List.mem_append_right _ List.mem_cons_self
      have hidx := List.idxOf_lt_length_of_mem hmem
      have hne : BitVec.ofNat 32 (l.idxOf false) ≠ -1 := by
        intro heq
        have heq := congrArg BitVec.toNat heq
        rw [BitVec.toNat_ofNat, Nat.mod_eq_of_lt (by omega)] at heq
        have hmenos : (-1 : Uint32).toNat = 2 ^ 32 - 1 := rfl
        have hpost : l.idxOf false < pre.length := by
          rw [h.todo, List.idxOf_append_of_mem (List.count_pos_iff.mp (by rw [← free]; omega))]
          exact List.idxOf_lt_length_of_mem (List.count_pos_iff.mp (by rw [← free]; omega))
        have hsum : l.length = pre.length + (post.length + 1) := by
          rw [h.todo, List.length_append, List.length_cons]
        omega
      rw [if_neg h0, if_neg hne]

theorem EnCurso.completa (h : EnCurso l (pre ++ [false]) post r) (hn : free pre + 1 = cuota n) :
    Completa n l r.primerBloque r.bitmap := by
  refine ⟨pre, post, by rw [h.todo, List.append_assoc]; rfl, hn, ?_, fun hlen => ?_⟩
  · rw [h.bitmap, List.length_append, List.length_singleton]
  · rw [h.primero hlen, if_neg]
    rw [free_append, free_cons_false]
    omega

theorem reservarBits_ocupado (hi : i < 8) (h : byte.getLsbD i = true) :
    reservarBits n offset (k + 1) i byte r = reservarBits n offset k (i + 1) byte r := by
  rw [reservarBits, bitLibre_eq hi, h]
  rfl

theorem reservarBits_libre (hi : i < 8) (h : byte.getLsbD i = false) :
    reservarBits n offset (k + 1) i byte r =
      if (r.asignar offset i (ocuparBit byte i)).bloquesAsignados = n then
        .vuelve (r.asignar offset i (ocuparBit byte i)).primerBloque
          (r.asignar offset i (ocuparBit byte i)).bitmap
      else reservarBits n offset k (i + 1) (ocuparBit byte i)
        (r.asignar offset i (ocuparBit byte i)) := by
  rw [reservarBits, bitLibre_eq hi, h]
  rfl

/-- The bits of one byte. The induction is on the bits that are left. -/
theorem reservarBits_casos (hk : i + k = 8) (hpre : pre.length = 8 * offset + i)
    (hb : r.bitmap[offset]? = some byte) (h : EnCurso l pre post r) (hn : free pre < cuota n) :
    (∃ p bitmap, reservarBits n offset k i byte r = .vuelve p bitmap ∧ Completa n l p bitmap) ∨
    ∃ pre' post' r', reservarBits n offset k i byte r = .sigue r' ∧ EnCurso l pre' post' r' ∧
      pre'.length = 8 * (offset + 1) ∧ free pre' < cuota n := by
  induction k generalizing i byte r pre post with
  | zero => exact .inr ⟨pre, post, r, rfl, h, by omega, hn⟩
  | succ k ih =>
    have hi : i < 8 := by omega
    have hbit : post[0]? = some (byte.getLsbD i) := by
      have hcell := getElem?_bits r.bitmap offset hi
      rw [hb, h.bitmap, ← hpre, List.getElem?_append_right (by rw [List.length_replicate]),
        List.length_replicate, Nat.sub_self] at hcell
      exact hcell
    obtain ⟨b, post, rfl⟩ : ∃ b post', post = b :: post' := by
      cases post with
      | nil => cases hbit
      | cons b post' => exact ⟨b, post', rfl⟩
    rw [List.getElem?_cons_zero, Option.some.injEq] at hbit
    subst hbit
    cases hocupado : byte.getLsbD i with
    | true =>
      rw [hocupado] at h
      rw [reservarBits_ocupado hi hocupado]
      refine ih (by omega) ?_ hb h.ocupado ?_
      · rw [List.length_append, List.length_singleton]
        omega
      · rwa [free_append, free_cons_true, free_nil, Nat.add_zero]
    | false =>
      rw [hocupado] at h
      have hsig := h.asignar hi hpre hb
      have hasig : (r.asignar offset i (ocuparBit byte i)).bloquesAsignados =
          BitVec.ofNat 32 (free pre + 1) := by
        rw [hsig.asignados, free_append, free_cons_false, free_nil]
      rw [reservarBits_libre hi hocupado, hasig]
      by_cases hfin : free pre + 1 = cuota n
      · rw [if_pos ((ofNat_succ_eq_iff hn).mpr hfin)]
        exact .inl ⟨_, _, rfl, hsig.completa hfin⟩
      · rw [if_neg fun heq => hfin ((ofNat_succ_eq_iff hn).mp heq)]
        refine ih (by omega) ?_ ?_ hsig ?_
        · rw [List.length_append, List.length_singleton]
          omega
        · exact List.getElem?_set_self (List.getElem?_eq_some_iff.mp hb).1
        · rw [free_append, free_cons_false, free_nil]
          omega

theorem EnCurso.length (h : EnCurso l pre post r) : l.length = 8 * r.bitmap.length := by
  rw [← length_bits, h.bitmap, h.todo, List.length_append, List.length_append,
    List.length_replicate]

/-- The bytes. The induction is on the bytes that are left. -/
theorem reservarDesde_casos {quedan : Nat} (hq : offset + quedan = r.bitmap.length)
    (hpre : pre.length = 8 * offset) (h : EnCurso l pre post r) (hn : free pre < cuota n) :
    Completa n l (reservarDesde n quedan offset r).1 (reservarDesde n quedan offset r).2 ∨
      Agotada n l (reservarDesde n quedan offset r).1 (reservarDesde n quedan offset r).2 := by
  induction quedan generalizing offset r pre post with
  | zero =>
    have hlen := h.length
    have hpost : post = [] := by
      rw [h.todo, List.length_append] at hlen
      exact List.length_eq_zero_iff.mp (by omega)
    have htodo := h.todo
    rw [hpost, List.append_nil] at htodo
    refine .inr ⟨by rwa [htodo], rfl, ?_⟩
    rw [reservarDesde, h.bitmap, hpost, List.append_nil, htodo]
  | succ quedan ih =>
    obtain ⟨byte, hb⟩ : ∃ byte, r.bitmap[offset]? = some byte :=
      ⟨_, List.getElem?_eq_getElem (by omega)⟩
    rw [reservarDesde, hb]
    rcases reservarBits_casos (Nat.zero_add 8) hpre hb h hn with
      ⟨p, bitmap, heq, hc⟩ | ⟨pre', post', r', heq, h', hpre', hn'⟩
    · simp only [heq]
      exact .inl hc
    · simp only [heq]
      have hlen := h.length
      have hlen' := h'.length
      exact ih (by omega) hpre' h' hn'

/-- What `reservar_bloques` does. -/
theorem reservarBloques_casos (bitmap : List Byte) (n : Uint32) :
    Completa n (bits bitmap) (reservarBloques bitmap n).1 (reservarBloques bitmap n).2 ∨
      Agotada n (bits bitmap) (reservarBloques bitmap n).1 (reservarBloques bitmap n).2 := by
  have hn : free [] < cuota n := by
    have hne : n ≠ 0 → 0 < n.toNat := fun h => Nat.pos_of_ne_zero fun h0 =>
      h (BitVec.eq_of_toNat_eq h0)
    rw [free_nil, cuota]
    split_ifs with h0
    · decide
    · exact hne h0
  exact reservarDesde_casos (Nat.zero_add _) rfl
    { todo := rfl, bitmap := rfl, asignados := rfl, primero := fun _ => rfl } hn

end Reservar

end LastOfC.Filesystem
