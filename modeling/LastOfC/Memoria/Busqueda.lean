import LastOfC.Memoria.Pasos

/-!
# What the three searches find

A search only reads the list, and returns an index into it. The candidates are the free partitions
with room, with their indices. The loop of best fit is `List.argmin` over them, and that of worst
fit is `List.argmax`. `busquedas_optimas` says which candidate each search returns.
-/

namespace LastOfC.Memoria

open KeyedList

variable {ps : List Particion} {tam : Uint32} {i j k : Nat} {p q : Particion}

/-- A free partition of the list with room. -/
def Candidata (ps : List Particion) (tam : Uint32) (i : Nat) (p : Particion) : Prop :=
  ps[i]? = some p ∧ p.libre = true ∧ tam ≤ p.tamanio

/-- All of them, in the order of the list. -/
def candidatas (ps : List Particion) (tam : Uint32) (k : Nat) : List (Particion × Nat) :=
  (ps.zipIdx k).filter fun c => c.1.entra tam

theorem mem_candidatas : (p, i) ∈ candidatas ps tam 0 ↔ Candidata ps tam i p := by
  rw [candidatas, List.mem_filter, List.mk_mem_zipIdx_iff_getElem?, Particion.entra_iff, Candidata]

theorem candidatas_cons : candidatas (p :: ps) tam k =
    if p.entra tam then (p, k) :: candidatas ps tam (k + 1) else candidatas ps tam (k + 1) := by
  rw [candidatas, List.zipIdx_cons, List.filter_cons]
  rfl

theorem pairwise_candidatas : (candidatas ps tam k).Pairwise fun c d => c.2 < d.2 := by
  have hsnd : (ps.zipIdx k).Pairwise fun c d => c.2 < d.2 := by
    rw [← List.pairwise_map (f := Prod.snd) (R := (· < ·)), List.zipIdx_map_snd]
    exact List.pairwise_lt_range'
  exact hsnd.filter _

/-- Without candidates. -/
theorem candidatas_eq_nil : candidatas ps tam 0 = [] ↔ ∀ i p, ¬ Candidata ps tam i p := by
  rw [List.eq_nil_iff_forall_not_mem]
  exact ⟨fun h i p hc => h (p, i) (mem_candidatas.mpr hc), fun h c hc => h c.2 c.1
    (mem_candidatas.mp hc)⟩

/-! ## The loop of best and worst fit -/

section Loop

variable {mejor : Uint32 → Uint32 → Bool} {r : Particion × Nat → Particion × Nat → Prop}
  [DecidableRel r]

/-- One turn of the loop. -/
theorem elegirDesde_cons (e : Option (Nat × Particion)) : elegirDesde mejor tam e k (p :: ps) =
    elegirDesde mejor tam
      (if p.entra tam then
        match e with
        | none => some (k, p)
        | some d => if mejor p.tamanio d.2.tamanio then some (k, p) else e
      else e) (k + 1) ps := by
  rfl

/-- The loop keeps the best candidate of the part of the list that it has seen. -/
theorem elegirDesde_eq (hr : ∀ c d, mejor c.1.tamanio d.1.tamanio = true ↔ r c d)
    (e : Option (Particion × Nat)) (k : Nat) :
    elegirDesde mejor tam (e.map Prod.swap) k ps =
      ((candidatas ps tam k).foldl (List.argAux r) e).map Prod.swap := by
  induction ps generalizing e k with
  | nil => rfl
  | cons p ps ih =>
    rw [elegirDesde_cons, candidatas_cons]
    cases hp : p.entra tam with
    | false => exact ih e (k + 1)
    | true =>
      rw [if_pos rfl, if_pos rfl, List.foldl_cons, ← ih]
      congr 1
      cases e with
      | none => rfl
      | some d =>
        show (if mejor p.tamanio d.1.tamanio = true then _ else _) =
          (if r (p, k) d then _ else _ : Option _).map _
        by_cases hrd : r (p, k) d
        · rw [if_pos ((hr (p, k) d).mpr hrd), if_pos hrd]
          rfl
        · rw [if_neg fun h => hrd ((hr (p, k) d).mp h), if_neg hrd]

end Loop

theorem algoritmoBestFit_eq (ps : List Particion) (tam : Uint32) : algoritmoBestFit ps tam =
    ((candidatas ps tam 0).argmin fun c => c.1.tamanio.toNat).map Prod.swap :=
  elegirDesde_eq (fun c d => by rw [decide_eq_true_iff, BitVec.lt_def]) none 0

theorem algoritmoWorstFit_eq (ps : List Particion) (tam : Uint32) : algoritmoWorstFit ps tam =
    ((candidatas ps tam 0).argmax fun c => c.1.tamanio.toNat).map Prod.swap :=
  elegirDesde_eq (fun c d => by rw [decide_eq_true_iff, BitVec.lt_def]) none 0

/-! ## The three searches -/

theorem algoritmoFirstFit_none :
    algoritmoFirstFit ps tam = none ↔ ∀ i p, ¬ Candidata ps tam i p := by
  rw [algoritmoFirstFit, search_eq_none]
  constructor
  · intro h i p hc
    have hp := h p (List.mem_of_getElem? hc.1)
    rw [Particion.entra_iff.mpr hc.2] at hp
    cases hp
  · intro h p hp
    obtain ⟨i, hi⟩ := List.getElem?_of_mem hp
    rw [Bool.eq_false_iff]
    exact fun hentra => h i p ⟨hi, Particion.entra_iff.mp hentra⟩

theorem algoritmoFirstFit_some : algoritmoFirstFit ps tam = some (i, p) ↔
    Candidata ps tam i p ∧ ∀ j q, Candidata ps tam j q → i ≤ j := by
  rw [algoritmoFirstFit, search_eq_some]
  constructor
  · rintro ⟨pre, post, rfl, rfl, hp, hpre⟩
    refine ⟨⟨by simp, Particion.entra_iff.mp hp⟩, fun j q hq => ?_⟩
    by_contra hlt
    rw [Candidata, List.getElem?_append_left (by omega)] at hq
    have hno := hpre q (List.mem_of_getElem? hq.1)
    rw [Particion.entra_iff.mpr hq.2] at hno
    cases hno
  · rintro ⟨⟨hi, hp⟩, hmin⟩
    obtain ⟨pre, post, rfl, rfl⟩ := exists_split hi
    refine ⟨pre, post, rfl, rfl, Particion.entra_iff.mpr hp, fun q hq => ?_⟩
    obtain ⟨j, hj⟩ := List.getElem?_of_mem hq
    have hlt := (List.getElem?_eq_some_iff.mp hj).1
    rw [Bool.eq_false_iff]
    intro hentra
    have hle := hmin j q ⟨by rwa [List.getElem?_append_left hlt], Particion.entra_iff.mp hentra⟩
    omega

/-- An optimum of the candidates, as a partition with its index. -/
theorem map_swap_eq_some {o : Option (Particion × Nat)} :
    o.map Prod.swap = some (i, p) ↔ o = some (p, i) := by
  cases o with
  | none => exact iff_of_false (by simp) (by simp)
  | some c =>
    rw [Option.map_some, Option.some.injEq, Option.some.injEq, Prod.swap_eq_iff_eq_swap]
    rfl

theorem algoritmoBestFit_some : algoritmoBestFit ps tam = some (i, p) ↔
    Candidata ps tam i p ∧ ∀ j q, Candidata ps tam j q →
      p.tamanio < q.tamanio ∨ p.tamanio = q.tamanio ∧ i ≤ j := by
  rw [algoritmoBestFit_eq, map_swap_eq_some, argmin_eq_some_iff_pos pairwise_candidatas,
    mem_candidatas, Prod.forall]
  refine and_congr_right fun _ => ⟨fun h j q hq => ?_, fun h q j hq => ?_⟩
  · simpa only [BitVec.lt_def, BitVec.toNat_inj] using h q j (mem_candidatas.mpr hq)
  · simpa only [BitVec.lt_def, BitVec.toNat_inj] using h j q (mem_candidatas.mp hq)

theorem algoritmoWorstFit_some : algoritmoWorstFit ps tam = some (i, p) ↔
    Candidata ps tam i p ∧ ∀ j q, Candidata ps tam j q →
      q.tamanio < p.tamanio ∨ q.tamanio = p.tamanio ∧ i ≤ j := by
  rw [algoritmoWorstFit_eq, map_swap_eq_some, argmax_eq_some_iff_pos pairwise_candidatas,
    mem_candidatas, Prod.forall]
  refine and_congr_right fun _ => ⟨fun h j q hq => ?_, fun h q j hq => ?_⟩
  · simpa only [BitVec.lt_def, BitVec.toNat_inj] using h q j (mem_candidatas.mpr hq)
  · simpa only [BitVec.lt_def, BitVec.toNat_inj] using h j q (mem_candidatas.mp hq)

theorem algoritmoBestFit_none :
    algoritmoBestFit ps tam = none ↔ ∀ i p, ¬ Candidata ps tam i p := by
  rw [algoritmoBestFit_eq, Option.map_eq_none_iff, List.argmin_eq_none, candidatas_eq_nil]

theorem algoritmoWorstFit_none :
    algoritmoWorstFit ps tam = none ↔ ∀ i p, ¬ Candidata ps tam i p := by
  rw [algoritmoWorstFit_eq, Option.map_eq_none_iff, List.argmax_eq_none, candidatas_eq_nil]

/-- The three searches fail on the same lists, which are those without a free partition with room.
Otherwise first fit returns the first of these, best fit the first of the smallest ones, and worst
fit the first of the largest ones. -/
theorem busquedas_optimas (ps : List Particion) (tam : Uint32) :
    ((algoritmoFirstFit ps tam = none ↔ ∀ i p, ¬ Candidata ps tam i p) ∧
      (algoritmoBestFit ps tam = none ↔ ∀ i p, ¬ Candidata ps tam i p) ∧
      (algoritmoWorstFit ps tam = none ↔ ∀ i p, ¬ Candidata ps tam i p)) ∧
    (∀ i p, algoritmoFirstFit ps tam = some (i, p) ↔
      Candidata ps tam i p ∧ ∀ j q, Candidata ps tam j q → i ≤ j) ∧
    (∀ i p, algoritmoBestFit ps tam = some (i, p) ↔
      Candidata ps tam i p ∧ ∀ j q, Candidata ps tam j q →
        p.tamanio < q.tamanio ∨ p.tamanio = q.tamanio ∧ i ≤ j) ∧
    (∀ i p, algoritmoWorstFit ps tam = some (i, p) ↔
      Candidata ps tam i p ∧ ∀ j q, Candidata ps tam j q →
        q.tamanio < p.tamanio ∨ q.tamanio = p.tamanio ∧ i ≤ j) :=
  ⟨⟨algoritmoFirstFit_none, algoritmoBestFit_none, algoritmoWorstFit_none⟩,
    fun _ _ => algoritmoFirstFit_some, fun _ _ => algoritmoBestFit_some,
    fun _ _ => algoritmoWorstFit_some⟩

end LastOfC.Memoria
