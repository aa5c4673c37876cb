import LastOfC.Lib.Tiling
import LastOfC.Memoria.Pasos

/-!
# The address ranges of the partitions

`rangos ps` is the list of ranges `[base, base + tamanio)`, over the naturals. Each operation on
partitions has its lemma about ranges here, so that the invariants of `DINAMICAS` never look at
32-bit arithmetic again.

* `total_paso`: the sizes of `lista_particiones` sum to the same after any request.
* `noVacias_paso`: no partition is empty, if no process asks for 0 bytes.
-/

namespace LastOfC.Memoria

open Tiling

/-- `[base, base + tamanio)`. -/
def Particion.rango (p : Particion) : Seg := ⟨p.base.toNat, p.tamanio.toNat⟩

def rangos (ps : List Particion) : List Seg := ps.map Particion.rango

@[simp] theorem rangos_nil : rangos [] = [] := rfl

@[simp] theorem rangos_cons (p : Particion) (ps : List Particion) :
    rangos (p :: ps) = p.rango :: rangos ps := rfl

@[simp] theorem rangos_append (ps qs : List Particion) :
    rangos (ps ++ qs) = rangos ps ++ rangos qs := List.map_append

@[simp] theorem mem_rangos {ps : List Particion} {r : Seg} :
    r ∈ rangos ps ↔ ∃ p ∈ ps, p.rango = r := List.mem_map

namespace Particion

@[simp] theorem rango_base (p : Particion) : p.rango.base = p.base.toNat := rfl

@[simp] theorem rango_len (p : Particion) : p.rango.len = p.tamanio.toNat := rfl

@[simp] theorem rango_ocupar (p : Particion) (pid : Uint32) : (p.ocupar pid).rango = p.rango := rfl

@[simp] theorem rango_liberar (p : Particion) : p.liberar.rango = p.rango := rfl

@[simp] theorem rango_recortar (p : Particion) (tam : Uint32) :
    (p.recortar tam).rango = ⟨p.base.toNat, tam.toNat⟩ := rfl

theorem len_resto {p : Particion} {tam : Uint32} (h : tam < p.tamanio) :
    (p.resto tam).rango.len = p.tamanio.toNat - tam.toNat :=
  BitVec.toNat_sub_of_le (BitVec.le_of_lt h)

theorem rango_resto {p : Particion} {tam : Uint32} (h : tam < p.tamanio)
    (hb : p.base.toNat + tam.toNat < 2 ^ 32) :
    (p.resto tam).rango = ⟨p.base.toNat + tam.toNat, p.tamanio.toNat - tam.toNat⟩ := by
  have hlen := len_resto h
  have hbase : (p.resto tam).rango.base = p.base.toNat + tam.toNat :=
    BitVec.toNat_add_of_lt hb
  rw [← hlen, ← hbase]

theorem rango_sumar {a b : Particion} (h : a.tamanio.toNat + b.tamanio.toNat < 2 ^ 32) :
    (a.sumar b).rango = ⟨a.base.toNat, a.tamanio.toNat + b.tamanio.toNat⟩ := by
  simp only [rango, sumar, BitVec.toNat_add_of_lt h]

end Particion

/-- What is left of a merge begins where its first part did, and is as long as all of them. -/
theorem rango_fundir {ant sig : Option Particion} {p : Particion}
    (h : total (rangos ant.toList) + p.rango.len + total (rangos sig.toList) < 2 ^ 32) :
    (fundir ant p sig).rango =
      ⟨(ant.getD p).rango.base,
        total (rangos ant.toList) + p.rango.len + total (rangos sig.toList)⟩ := by
  cases ant with
  | none =>
    cases sig with
    | none => simp [Particion.rango]
    | some b =>
      simp only [Option.toList_none, Option.toList_some, rangos_nil, rangos_cons, total_nil,
        total_cons, Particion.rango_len, Nat.zero_add, Nat.add_zero] at h ⊢
      exact Particion.rango_sumar h
  | some a =>
    cases sig with
    | none =>
      simp only [Option.toList_none, Option.toList_some, rangos_nil, rangos_cons, total_nil,
        total_cons, Particion.rango_len, Nat.add_zero] at h ⊢
      exact Particion.rango_sumar h
    | some b =>
      simp only [Option.toList_some, rangos_nil, rangos_cons, total_nil, total_cons,
        Particion.rango_len, Nat.add_zero] at h ⊢
      have hb := congrArg Seg.len (Particion.rango_sumar (a := p) (b := b) (by omega))
      simp only [Particion.rango_len] at hb
      rw [fundir_some_some, Particion.rango_sumar (by omega), hb, Nat.add_assoc]
      rfl

/-- The partition is freed before it is merged, which its range does not show. -/
@[simp] theorem rango_fundir_liberar (ant sig : Option Particion) (p : Particion) :
    (fundir ant p.liberar sig).rango = (fundir ant p sig).rango := by
  cases ant <;> cases sig <;> rfl

/-! ## Sizes -/

section Total

variable {ent : Entorno} {s s' : Estado} {a : Peticion} {o : List Envio} {T : Nat}
  {cfg : ConfigMemoria} {ps ps' : List Particion}

/-- **The sum of the sizes.** A request takes none and adds none, whatever it asks for. -/
theorem total_paso (hT : T < 2 ^ 32) (h : PasoLista cfg ps a ps') (ht : total (rangos ps) = T) :
    total (rangos ps') = T := by
  cases h with
  | igual => exact ht
  | ocupar d pre p post hps =>
    subst hps
    simpa using ht
  | dividir d pre p post hps he hesq hlt =>
    subst hps
    have hlen := Particion.len_resto hlt
    have hle : d.tamProceso.toNat < p.tamanio.toNat := hlt
    simp only [rangos_append, rangos_cons, rangos_nil, total_append, total_cons, total_nil,
      Particion.rango_recortar, Particion.rango_len] at ht hlen ⊢
    omega
  | liberar pid pre ant q sig post hps =>
    subst hps
    simp only [rangos_append, rangos_cons, total_append, total_cons] at ht ⊢
    rw [rango_fundir_liberar, rango_fundir (by omega)]
    simp only
    omega

/-! ## Empty partitions -/

/-- No partition is empty. The exception is the only partition of a memory of 0 bytes. -/
def NoVacias (ps : List Particion) : Prop := (∀ r ∈ rangos ps, 0 < r.len) ∨ rangos ps = [⟨0, 0⟩]

/-- No process asks for 0 bytes. -/
def PideMemoria (a : Peticion) : Prop := ∀ d, a = .asignarMemoria d → 0 < d.tamProceso

/-- Two partitions are two, so the others are not empty. -/
theorem NoVacias.otras {pre post : List Particion} {p : Particion}
    (h : NoVacias (pre ++ p :: post)) : ∀ r ∈ rangos (pre ++ post), 0 < r.len := by
  intro r hr
  rw [rangos_append, List.mem_append] at hr
  rcases h with h | h
  · apply h
    simp only [rangos_append, rangos_cons, List.mem_append, List.mem_cons]
    exact hr.imp_right .inr
  · have hlen := congrArg List.length h
    simp only [rangos, List.length_map, List.length_append, List.length_cons,
      List.length_nil] at hlen
    obtain rfl : pre = [] := List.eq_nil_iff_length_eq_zero.mpr (by omega)
    obtain rfl : post = [] := List.eq_nil_iff_length_eq_zero.mpr (by omega)
    simp at hr

/-- A merge takes two partitions, so its parts are not empty. -/
theorem NoVacias.fundidas {pre post : List Particion} {ant sig : Option Particion} {q : Particion}
    (h : NoVacias (pre ++ ant.toList ++ q :: (sig.toList ++ post)))
    (hm : ¬ (ant = none ∧ sig = none)) :
    ∀ r ∈ rangos (ant.toList ++ q :: sig.toList), 0 < r.len := by
  rcases h with h | h
  · intro r hr
    apply h r
    simp only [rangos_append, rangos_cons, List.mem_append, List.mem_cons] at hr ⊢
    rcases hr with hr | rfl | hr
    · exact .inl (.inr hr)
    · exact .inr (.inl rfl)
    · exact .inr (.inr (.inl hr))
  · have hlen := congrArg List.length h
    cases ant <;> cases sig <;> simp [rangos] at hlen hm <;> omega

/-- What is left of a merge is longer than its first part. -/
theorem primera_mas_corta {ant sig : Option Particion} {q : Particion}
    (hm : ¬ (ant = none ∧ sig = none))
    (hpos : ∀ r ∈ rangos (ant.toList ++ q :: sig.toList), 0 < r.len) :
    (ant.getD q).rango.len <
      total (rangos ant.toList) + q.rango.len + total (rangos sig.toList) := by
  simp only [rangos_append, rangos_cons, List.mem_append, List.mem_cons] at hpos
  cases ant with
  | none =>
    cases sig with
    | none => exact absurd ⟨rfl, rfl⟩ hm
    | some b =>
      have := hpos b.rango (.inr (.inr (by simp)))
      simp only [Option.getD_none, Option.toList_some, rangos_cons, total_cons]
      omega
  | some a =>
    have := hpos q.rango (.inr (.inl rfl))
    simp only [Option.getD_some, Option.toList_some, rangos_cons, total_cons]
    omega

theorem noVacias_paso (hT : total (rangos ps) < 2 ^ 32) (ha : PideMemoria a)
    (h : PasoLista cfg ps a ps') (hn : NoVacias ps) : NoVacias ps' := by
  cases h with
  | igual => exact hn
  | ocupar d pre p post hps =>
    subst hps
    simpa [NoVacias] using hn
  | dividir d pre p post hps he hesq hlt =>
    subst hps
    have htam : 0 < d.tamProceso.toNat := ha d rfl
    have hlen := Particion.len_resto hlt
    have hle : d.tamProceso.toNat < p.tamanio.toNat := hlt
    have hotras := hn.otras
    refine .inl ?_
    simp only [rangos_append, rangos_cons, rangos_nil, List.mem_append, List.mem_cons,
      List.not_mem_nil, or_false] at hotras ⊢
    rintro r (hr | rfl | hr | rfl)
    · exact hotras r (.inl hr)
    · exact htam
    · exact hotras r (.inr hr)
    · omega
  | liberar pid pre ant q sig post hps =>
    subst hps
    by_cases hsolo : ant = none ∧ sig = none
    · -- Nothing is merged: the ranges are the same.
      obtain ⟨rfl, rfl⟩ := hsolo
      simpa [NoVacias] using hn
    have hlargo := primera_mas_corta hsolo (hn.fundidas hsolo)
    have hotras := hn.otras
    simp only [rangos_append, rangos_cons, total_append, total_cons] at hT
    have hlen : (fundir ant q sig).rango.len = _ := congrArg Seg.len (rango_fundir (by omega))
    simp only at hlen
    refine .inl ?_
    simp only [rangos_append, rangos_cons, rango_fundir_liberar, List.mem_append,
      List.mem_cons] at hotras ⊢
    rintro r (hr | rfl | hr)
    · exact hotras r (.inl (.inl hr))
    · omega
    · exact hotras r (.inr (.inr hr))

end Total

end LastOfC.Memoria
