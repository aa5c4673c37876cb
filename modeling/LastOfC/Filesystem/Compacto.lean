import LastOfC.Filesystem.Cuenta
import LastOfC.Lib.Trace

/-!
# The blocks in use come first

`escribir_contenido_bloques` writes a file to contiguous blocks, and `reservar_bloques` takes any
free ones. The two agree because no block is ever freed.

* `reservarBloques_filled`: the blocks in use come first again, and the file's come after them.
* `putAll_escriturasDesde`: the writes of a file are one write of its bytes.
  `mem_escriturasDesde`: they stay in its blocks.
* `crearArchivo_casos`: what `crear_archivo` does then. `bloquesTotales` counts the bits, which are
  all zero at the start (`bits_inicializarBitmap`).
* `creados_invariante`: the induction over a run.
-/

namespace LastOfC.Filesystem

open FreeMap PosFile Trace

variable {cfg : ConfigFilesystem} {d : Disco} {a : Archivo} {bitmap : List Byte} {n : Uint32}
  {u v : Nat}

/-- `reservar_bloques` on a bitmap whose blocks in use come first, when there is room. -/
theorem reservarBloques_filled (hb : bits bitmap = filled u v) (huv : u + v < 2 ^ 32)
    (hn : n.toNat ≤ v) :
    if n.toNat = 0 then (reservarBloques bitmap n).1 = -1 ∧
      bits (reservarBloques bitmap n).2 = filled (u + v) 0
    else (reservarBloques bitmap n).1 = BitVec.ofNat 32 u ∧
      bits (reservarBloques bitmap n).2 = filled (u + n.toNat) (v - n.toNat) := by
  rcases reservarBloques_casos bitmap n with ⟨pre, post, hl, hcuota, hbits, hp⟩ | ⟨hfree, hp, hbits⟩
  · rw [hb] at hl hp
    obtain ⟨hpre, hle, hrep⟩ := filled_split hl hcuota
    rw [hrep] at hbits
    split_ifs with h0
    · -- a map of fewer than `2 ^ 32` cells does not have so many free ones
      have hcero : cuota n = 2 ^ 32 := if_pos (BitVec.eq_of_toNat_eq h0)
      omega
    · rw [cuota_of_pos (Nat.pos_of_ne_zero h0)] at hbits
      refine ⟨?_, hbits⟩
      rw [hp (by rw [length_filled]; exact huv), idxOf_filled (by omega)]
  · rw [hb, free_filled] at hfree
    rw [hb, length_filled] at hbits
    split_ifs with h0
    · refine ⟨hp, ?_⟩
      rw [hbits, filled, List.replicate_zero, List.append_nil]
    · rw [cuota_of_pos (Nat.pos_of_ne_zero h0)] at hfree
      omega

/-! ## The writes -/

section Escrituras

variable {contenido : List Byte} {tamanio offset bytesEscritos : Uint32} {f : List Byte} {k : Nat}

/-- The bytes that a turn of `escribir_contenido_bloques` writes. -/
theorem toNat_bytesAEscribir (h : bytesEscritos.toNat ≤ tamanio.toNat) :
    (if cfg.blockSize < tamanio - bytesEscritos then cfg.blockSize
      else tamanio - bytesEscritos).toNat =
      min cfg.blockSize.toNat (tamanio.toNat - bytesEscritos.toNat) := by
  have hresta : (tamanio - bytesEscritos).toNat = tamanio.toNat - bytesEscritos.toNat := by
    have hlt := tamanio.isLt
    rw [BitVec.toNat_sub]
    omega
  split_ifs with hlt
  · rw [BitVec.lt_def, hresta] at hlt
    omega
  · rw [BitVec.lt_def, hresta] at hlt
    rw [hresta]
    omega

/-- The position of the first free block. -/
theorem toNat_posicion (hcap : (u + k) * cfg.blockSize.toNat < 2 ^ 31) :
    (BitVec.ofNat 32 (u * cfg.blockSize.toNat)).toNat = u * cfg.blockSize.toNat := by
  rw [Nat.add_mul] at hcap
  rw [BitVec.toNat_ofNat]
  omega

/-- The writes of the turns that are left are one write of the bytes that are left. The induction is
on the turns: each one but the last writes a whole block. -/
theorem putAll_escriturasDesde (hcabe : tamanio.toNat ≤ contenido.length)
    (hescritos : bytesEscritos.toNat ≤ tamanio.toNat)
    (hk : tamanio.toNat - bytesEscritos.toNat ≤ k * cfg.blockSize.toNat)
    (hexacto : (k - 1) * cfg.blockSize.toNat < tamanio.toNat - bytesEscritos.toNat ∨ k = 0)
    (hoffset : offset.toNat + k * cfg.blockSize.toNat < 2 ^ 32) :
    putAll 0 f (escriturasDesde cfg contenido tamanio k offset bytesEscritos) =
      put 0 f offset.toNat ((contenido.take tamanio.toNat).drop bytesEscritos.toNat) := by
  induction k generalizing f offset bytesEscritos with
  | zero =>
    rw [List.drop_eq_nil_of_le (by rw [List.length_take]; omega), put_nil]
    rfl
  | succ k ih =>
    have hbytes := @toNat_bytesAEscribir cfg tamanio bytesEscritos hescritos
    rw [escriturasDesde, putAll]
    dsimp only
    generalize (if cfg.blockSize < tamanio - bytesEscritos then cfg.blockSize
      else tamanio - bytesEscritos) = m at hbytes ⊢
    rw [Nat.add_mul, Nat.one_mul] at hk hoffset
    have hexacto : k * cfg.blockSize.toNat < tamanio.toNat - bytesEscritos.toNat := by
      rcases hexacto with h | h
      · exact h
      · cases h
    have hlt := tamanio.isLt
    have hsum : (bytesEscritos + m).toNat = bytesEscritos.toNat + m.toNat := by
      rw [BitVec.toNat_add]
      omega
    have htomados : (contenido.drop bytesEscritos.toNat).take m.toNat =
        ((contenido.take tamanio.toNat).drop bytesEscritos.toNat).take m.toNat := by
      rw [List.drop_take, List.take_take, Nat.min_eq_left (by omega)]
    have hresto : (contenido.take tamanio.toNat).drop (bytesEscritos + m).toNat =
        ((contenido.take tamanio.toNat).drop bytesEscritos.toNat).drop m.toNat := by
      rw [List.drop_drop, hsum]
    have hoff : (offset + cfg.blockSize).toNat = offset.toNat + cfg.blockSize.toNat := by
      rw [BitVec.toNat_add]
      omega
    rcases Nat.eq_zero_or_pos k with rfl | hpos
    · -- the last turn
      rw [escriturasDesde, putAll, htomados, List.take_of_length_le]
      rw [List.length_drop, List.length_take]
      omega
    · have hblock : cfg.blockSize.toNat ≤ k * cfg.blockSize.toNat := Nat.le_mul_of_pos_left _ hpos
      have hm : m.toNat = cfg.blockSize.toNat := by omega
      rw [ih (by omega) (by omega) ?_ (by omega), htomados, hresto, hoff]
      · have hlen : (((contenido.take tamanio.toNat).drop bytesEscritos.toNat).take
            m.toNat).length = cfg.blockSize.toNat := by
          rw [List.length_take, List.length_drop, List.length_take]
          omega
        rw [← hlen, put_append, List.take_append_drop]
      · refine .inl ?_
        rw [Nat.sub_mul, Nat.one_mul]
        omega

/-- Each write stays in the blocks of the turns that are left. -/
theorem mem_escriturasDesde (hoffset : offset.toNat + k * cfg.blockSize.toNat < 2 ^ 32)
    {w : Nat × List Byte}
    (hw : w ∈ escriturasDesde cfg contenido tamanio k offset bytesEscritos) :
    w.1 + w.2.length ≤ offset.toNat + k * cfg.blockSize.toNat := by
  induction k generalizing offset bytesEscritos with
  | zero => cases hw
  | succ k ih =>
    rw [Nat.add_mul, Nat.one_mul] at hoffset ⊢
    rcases List.mem_cons.mp hw with rfl | hw
    · dsimp only
      rw [List.length_take]
      have hm : (if cfg.blockSize < tamanio - bytesEscritos then cfg.blockSize
          else tamanio - bytesEscritos).toNat ≤ cfg.blockSize.toNat := by
        split_ifs with hlt
        · exact Nat.le_refl _
        · rw [BitVec.lt_def] at hlt
          omega
      omega
    · have hoff : (offset + cfg.blockSize).toNat = offset.toNat + cfg.blockSize.toNat := by
        rw [BitVec.toNat_add]
        omega
      have hle := ih (by omega) hw
      omega

end Escrituras

/-! ## A new file -/

/-- The bits of the bitmap. -/
def bloquesTotales (cfg : ConfigFilesystem) : Nat := 8 * ((cfg.blockCount.toNat + 7) / 8)

theorem bits_inicializarBitmap (hbs : 0 < cfg.blockSize.toNat)
    (h : bloquesTotales cfg * cfg.blockSize.toNat < 2 ^ 31) :
    bits (inicializarBitmap cfg) = filled 0 (bloquesTotales cfg) := by
  have htotal : bloquesTotales cfg = 8 * ((cfg.blockCount.toNat + 7) / 8) := rfl
  have hle : bloquesTotales cfg ≤ bloquesTotales cfg * cfg.blockSize.toNat :=
    Nat.le_mul_of_pos_right _ hbs
  have hceros : ∀ k, bits (List.replicate k 0) = List.replicate (8 * k) false := by
    intro k
    induction k with
    | zero => rfl
    | succ k ih =>
      rw [bits] at ih ⊢
      rw [List.replicate_succ, List.flatMap_cons, ih, Nat.mul_add, Nat.add_comm, List.replicate_add]
      rfl
  have hsize : ((cfg.blockCount + 7).sdiv 8).toInt.toNat = (cfg.blockCount.toNat + 7) / 8 := by
    have hsiete : (7 : CInt).toNat = 7 := rfl
    have hocho : (8 : CInt).toInt = 8 := rfl
    have hsum : (cfg.blockCount + 7).toInt = (cfg.blockCount.toNat + 7 : Nat) := by
      rw [BitVec.toInt_eq_toNat_of_lt, BitVec.toNat_add, hsiete, Nat.mod_eq_of_lt (by omega)]
      rw [BitVec.toNat_add, hsiete]
      omega
    rw [BitVec.toInt_sdiv, hsum, hocho, Int.tdiv_eq_ediv_of_nonneg (by omega),
      Int.bmod_eq_of_le (by omega) (by omega)]
    omega
  rw [inicializarBitmap, hsize, hceros, filled, List.replicate_zero, List.nil_append]
  rfl

/-- `crear_archivo` on a disk whose blocks in use come first. -/
theorem crearArchivo_casos (hb : bits d.bitmap = filled u v) (huv : u + v < 2 ^ 32)
    (hn : bloquesNecesarios cfg a.tamanio = n) :
    crearArchivo cfg d a = (d, []) ∨
    (n.toNat = 0 ∧ ∃ bitmap, bits bitmap = filled (u + v) 0 ∧
      crearArchivo cfg d a =
        ({ d with bitmap }, [{ primerBloque := -1, archivo := a, escrituras := [] }])) ∨
    (0 < n.toNat ∧ n.toNat ≤ v ∧ ∃ bitmap escrituras,
      bits bitmap = filled (u + n.toNat) (v - n.toNat) ∧
      escrituras = escriturasDesde cfg a.contenido a.tamanio n.toNat
        (BitVec.ofNat 32 (u * cfg.blockSize.toNat)) 0 ∧
      crearArchivo cfg d a = ({ bitmap, bloques := putAll 0 d.bloques escrituras },
        [{ primerBloque := BitVec.ofNat 32 u, archivo := a, escrituras }])) := by
  cases hesp : espacioDisponible d.bitmap (bloquesNecesarios cfg a.tamanio) with
  | false => exact .inl (crearArchivo_rechaza hesp)
  | true =>
    obtain ⟨p, bitmap, escrituras, hres, hesc, heq⟩ := crearArchivo_acepta hesp
    have hle := espacioDisponible_iff.mp hesp
    rw [hb, free_filled, Nat.mod_eq_of_lt (by omega), hn] at hle
    have hbits := reservarBloques_filled hb huv hle
    rw [hn] at hres hesc
    rw [hres] at hbits
    rcases Nat.eq_zero_or_pos n.toNat with h0 | hpos
    · rw [if_pos h0] at hbits
      obtain ⟨hp, hbits⟩ := hbits
      dsimp only at hp
      rw [escribirContenidoBloques, h0, escriturasDesde] at hesc
      refine .inr (.inl ⟨h0, bitmap, hbits, ?_⟩)
      rw [heq, ← hesc, hp]
      rfl
    · rw [if_neg (Nat.pos_iff_ne_zero.mp hpos)] at hbits
      obtain ⟨hp, hbits⟩ := hbits
      dsimp only at hp
      have hoffset : p * cfg.blockSize = BitVec.ofNat 32 (u * cfg.blockSize.toNat) := by
        rw [hp, BitVec.ofNat_mul, BitVec.ofNat_toNat, BitVec.setWidth_eq]
      rw [escribirContenidoBloques, hoffset] at hesc
      exact .inr (.inr ⟨hpos, hle, bitmap, escrituras, hbits, hesc.symm, by rw [heq, hp]⟩)

/-- What each creation keeps holds after any sequence of them. -/
theorem creados_invariante {I : List Creado → Disco → Prop} {archivos : List Archivo} {d₀ : Disco}
    {creados : List Creado} (hrun : run (paso cfg) d₀ archivos = .ok (d, creados)) (h0 : I [] d₀)
    (hstep : ∀ creados d a, a ∈ archivos → I creados d →
      I (creados ++ (crearArchivo cfg d a).2) (crearArchivo cfg d a).1) : I creados d := by
  refine run_invariant hrun h0 fun creados d a d' o ha hI hpaso => ?_
  have hpaso : crearArchivo cfg d a = (d', o) := Except.ok.inj hpaso
  have hI' := hstep creados d a ha hI
  rwa [hpaso] at hI'

end LastOfC.Filesystem
