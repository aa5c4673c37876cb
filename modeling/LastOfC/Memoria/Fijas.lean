import LastOfC.Memoria.Limites
import LastOfC.Memoria.Estabilidad

/-!
# The partitions of `FIJAS`

Under `FIJAS` no request changes `base`, `limite` or `tamanio` of a partition. What
`configurar_particiones` computed holds in every state: `limite` is the absolute last address of
the range, and the range is inside the memory (`encuadradas_corrida`).
-/

namespace LastOfC.Memoria

open KeyedList Tiling Trace

/-- The fields that `FIJAS` never changes. -/
def Particion.geometria (p : Particion) : Uint32 × Uint32 × Uint32 := (p.base, p.limite, p.tamanio)

def geometrias (ps : List Particion) : List (Uint32 × Uint32 × Uint32) :=
  ps.map Particion.geometria

/-- `limite` is the last address of the range, and the range ends at `T` or before. -/
def Encuadrada (T : Nat) (p : Particion) : Prop := LimiteCalculado p ∧ p.rango.stop ≤ T

/-- `base + limite`, which the MMU computes, fits in 32 bits. For the empty partition at address 0
`limite` is the largest word. -/
theorem Encuadrada.sin_desborde {T : Nat} {p : Particion} (h : Encuadrada T p) (hT : T < 2 ^ 31) :
    p.base.toNat + p.limite.toNat < 2 ^ 32 := by
  obtain ⟨hlim, hstop⟩ := h
  have hnat : p.limite.toNat =
      (2 ^ 32 - 1 + (p.base.toNat + p.tamanio.toNat) % 2 ^ 32) % 2 ^ 32 := by
    rw [hlim, BitVec.toNat_sub, BitVec.toNat_add]
    rfl
  simp only [Seg.stop, Particion.rango_base, Particion.rango_len] at hstop
  omega

section Pasos

variable {cfg : ConfigMemoria} {ps ps' : List Particion} {a : Peticion} {T : Nat}

/-- **The partitions of `FIJAS` stay where they are.** -/
theorem geometrias_paso (hesq : cfg.esquema = .fijas) (h : PasoLista cfg ps a ps') :
    geometrias ps' = geometrias ps := by
  cases h with
  | igual => rfl
  | ocupar d pre p post hps =>
    rw [hps]
    simp [geometrias, Particion.geometria, Particion.ocupar]
  | dividir d pre p post _ _ hdin => simp [hesq] at hdin
  | liberar pid pre ant q sig post hps _ hant hsig =>
    simp only [anteriorFundido, siguienteFundido, hesq, reduceCtorEq, if_false] at hant hsig
    subst hant hsig
    rw [hps]
    simp [geometrias, Particion.geometria, Particion.liberar]

theorem encuadrada_geometria {p q : Particion} (h : p.geometria = q.geometria) :
    Encuadrada T p ↔ Encuadrada T q := by
  simp only [Particion.geometria, Prod.mk.injEq] at h
  obtain ⟨hb, hl, ht⟩ := h
  simp only [Encuadrada, LimiteCalculado, Seg.stop, Particion.rango_base, Particion.rango_len, hb,
    hl, ht]

theorem mem_geometrias {g : Uint32 × Uint32 × Uint32} :
    g ∈ geometrias ps ↔ ∃ p ∈ ps, p.geometria = g := List.mem_map

end Pasos

/-! ## The initial list -/

section Inicial

variable {basura : Nat → Uint32} {T : Nat}

/-- The sums are made in 64 bits and cut off, which is the same as adding 32 bits. -/
theorem limite_recortado (inicio : BitVec 64) (t : CInt) :
    (inicio + t.signExtend 64 - 1).setWidth 32 = inicio.setWidth 32 + t - 1 := by
  have hsub : ∀ x : BitVec 64, (x - 1).setWidth 32 = x.setWidth 32 - 1 := by
    intro x
    apply BitVec.eq_of_toNat_eq
    simp only [BitVec.toNat_setWidth, BitVec.toNat_sub, BitVec.ofNat_eq_ofNat, BitVec.toNat_ofNat]
    omega
  have ht : (t.signExtend 64).setWidth 32 = t := by
    apply BitVec.eq_of_getElem_eq
    intro i hi
    simp only [BitVec.getElem_setWidth, BitVec.getLsbD_signExtend, hi, if_true]
    simp only [show i < 64 by omega, decide_true, Bool.true_and]
    exact BitVec.getLsbD_eq_getElem hi
  rw [hsub, BitVec.setWidth_add _ _ (by omega), ht]

/-- The loop keeps `inicio` and the sizes that are left within the memory. -/
theorem configurarFijas_encuadradas (hT : T < 2 ^ 31) {ts : List CInt} {inicio : BitVec 64}
    {k : Nat} (h : inicio.toNat + (ts.map BitVec.toNat).sum ≤ T) :
    ∀ p ∈ configurarFijas basura inicio k ts, Encuadrada T p := by
  induction ts generalizing inicio k with
  | nil => simp [configurarFijas]
  | cons t ts ih =>
    simp only [List.map_cons, List.sum_cons] at h
    rw [configurarFijas, List.forall_mem_cons]
    constructor
    · refine ⟨limite_recortado inicio t, ?_⟩
      have hbase : (inicio.setWidth 32).toNat = inicio.toNat := by
        rw [BitVec.toNat_setWidth]
        omega
      simp only [Seg.stop, Particion.rango_base, Particion.rango_len, hbase]
      omega
    · apply ih
      have hsig : (inicio + t.setWidth 64).toNat = inicio.toNat + t.toNat := by
        rw [BitVec.toNat_add, BitVec.toNat_setWidth]
        omega
      omega

/-- Sizes that sum to `TAM_MEMORIA` lay the partitions out inside the memory. -/
theorem configurarParticiones_encuadradas {cfg : ConfigMemoria} (hesq : cfg.esquema = .fijas)
    (hsuma : (cfg.particiones.map BitVec.toNat).sum = cfg.tamMemoria) :
    ∀ p ∈ configurarParticiones cfg basura, Encuadrada cfg.tamMemoria p := by
  simp only [configurarParticiones, hesq]
  apply configurarFijas_encuadradas cfg.tam_lt
  simp [hsuma]

end Inicial

/-! ## Runs -/

section Corridas

variable {ent : Entorno} {s s' : Estado} {as : List Peticion}

theorem geometrias_corrida (hesq : ent.esquema = .fijas) (h : Reaches (atender ent) s as s') :
    geometrias s'.listaParticiones = geometrias s.listaParticiones :=
  h.keeps (I := fun t => geometrias t.listaParticiones = geometrias s.listaParticiones) rfl
    fun _ _ _ _ _ hI hstep => (geometrias_paso hesq (atender_paso hstep)).trans hI

/-- Every partition of a run under `FIJAS` is inside the memory, with its `limite`. -/
theorem encuadradas_corrida {basura : Nat → Uint32} {memoria : Nat → Byte}
    (hesq : ent.esquema = .fijas)
    (hsuma : (ent.particiones.map BitVec.toNat).sum = ent.tamMemoria)
    (h : Reaches (atender ent) (estadoInicial ent.toConfigMemoria basura memoria) as s) :
    ∀ p ∈ s.listaParticiones, Encuadrada ent.tamMemoria p := by
  intro p hp
  have hmem : p.geometria ∈ geometrias s.listaParticiones := List.mem_map_of_mem hp
  rw [geometrias_corrida hesq h] at hmem
  obtain ⟨q, hq, hgeo⟩ := mem_geometrias.mp hmem
  exact (encuadrada_geometria hgeo).mp (configurarParticiones_encuadradas hesq hsuma q hq)

/-- The bounds of a context are those of a partition of the list. -/
def Ubicado (ps : List Particion) (base limite : Uint32) : Prop :=
  ∃ p ∈ ps, p.base = base ∧ p.limite = limite

theorem ubicado_geometrias {ps ps' : List Particion} {base limite : Uint32}
    (h : geometrias ps' = geometrias ps) (hu : Ubicado ps base limite) :
    Ubicado ps' base limite := by
  obtain ⟨p, hp, rfl, rfl⟩ := hu
  have hmem : p.geometria ∈ geometrias ps := List.mem_map_of_mem hp
  rw [← h] at hmem
  obtain ⟨q, hq, hgeo⟩ := mem_geometrias.mp hmem
  simp only [Particion.geometria, Prod.mk.injEq] at hgeo
  exact ⟨q, hq, hgeo.1, hgeo.2.1⟩

/-- Every context carries the bounds of a partition, which is where it was when the thread was
created. -/
theorem ubicados_corrida (hesq : ent.esquema = .fijas) (h : Reaches (atender ent) s as s')
    (hs : ∀ c ∈ s.listaContextos, Ubicado s.listaParticiones c.base c.limite) :
    ∀ c ∈ s'.listaContextos, Ubicado s'.listaParticiones c.base c.limite := by
  refine h.keeps (I := fun t => ∀ c ∈ t.listaContextos,
    Ubicado t.listaParticiones c.base c.limite) hs ?_
  intro s₁ a s₂ o _ hI hstep c' hc'
  have hgeo := geometrias_paso hesq (atender_paso hstep)
  rcases contexto_origen (atender_contextos hstep) hc' with
    ⟨c, hc, -, hbase, hlim⟩ | ⟨d, p, rfl, hp, rfl⟩
  · rw [hbase, hlim]
    exact ubicado_geometrias hgeo (hI c hc)
  · apply ubicado_geometrias hgeo
    rw [buscarParticionPorPid, Option.map_eq_some_iff] at hp
    obtain ⟨⟨i, q⟩, hq, rfl⟩ := hp
    exact ⟨q, search_mem hq, rfl, rfl⟩

end Corridas

end LastOfC.Memoria
