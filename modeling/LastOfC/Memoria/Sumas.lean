import LastOfC.Memoria.Solapamiento

/-!
# The 32-bit sums of `DINAMICAS`

The sizes of `lista_particiones` always sum to `TAM_MEMORIA`, so the sums of the merges never wrap
(`fundirSinDesborde`). Those of a split wrap if the range of the partition ends past `2 ^ 32`
(`dividirSinDesborde_iff`): merges of partitions that are not contiguous can move a range that far.
-/

namespace LastOfC.Memoria

open Tiling Trace

/-- No operation of `dividir_particion` wraps: `espacio_restante`, the new `base`, and the two sums
and two subtractions of the two `limite`. -/
def DividirSinDesborde (p : Particion) (tam : Uint32) : Prop :=
  p.tamanio.usubOverflow tam = false ∧
    p.base.uaddOverflow tam = false ∧
    (p.base + tam).usubOverflow 1 = false ∧
    (p.base + tam).uaddOverflow (p.tamanio - tam) = false ∧
    (p.base + tam + (p.tamanio - tam)).usubOverflow 1 = false

/-- No sum of `consolidar_particiones_libres` wraps. The second one adds what the first one left. -/
def FundirSinDesborde (ant : Option Particion) (p : Particion) (sig : Option Particion) : Prop :=
  (∀ b, sig = some b → p.tamanio.uaddOverflow b.tamanio = false) ∧
    ∀ a, ant = some a → a.tamanio.uaddOverflow (fundir none p sig).tamanio = false

/-- No operation on partitions that the request causes wraps. -/
def SumasExactas (cfg : ConfigMemoria) (ps : List Particion) : Peticion → Prop
  | .asignarMemoria d => ∀ i p,
      evaluarParticion cfg.algoritmoBusqueda ps d.tamProceso = some (i, p) →
        d.tamProceso < p.tamanio → DividirSinDesborde p d.tamProceso
  | .finalizarProceso pid => ∀ i q, buscarPid ps pid = some (i, q) →
      FundirSinDesborde (vecinoAnterior ps i) q (vecinoSiguiente ps i)
  | _ => True

/-- If the request splits a partition, its range ends below `2 ^ 32`. -/
def DivideDentro (cfg : ConfigMemoria) (ps : List Particion) (a : Peticion) : Prop :=
  ∀ d i p, a = .asignarMemoria d →
    evaluarParticion cfg.algoritmoBusqueda ps d.tamProceso = some (i, p) →
      d.tamProceso < p.tamanio → p.rango.stop < 2 ^ 32

theorem dividirSinDesborde_iff {p : Particion} {tam : Uint32} (h0 : 0 < tam)
    (h : tam < p.tamanio) : DividirSinDesborde p tam ↔ p.rango.stop < 2 ^ 32 := by
  have h0 : 0 < tam.toNat := h0
  have h : tam.toNat < p.tamanio.toNat := h
  have hsub : (p.tamanio - tam).toNat = p.tamanio.toNat - tam.toNat :=
    BitVec.toNat_sub_of_le (by rw [BitVec.le_def]; omega)
  simp only [DividirSinDesborde, BitVec.uaddOverflow, BitVec.usubOverflow, hsub, Seg.stop,
    Particion.rango_base, Particion.rango_len, decide_eq_false_iff_not, BitVec.toNat_add]
  show _ ∧ _ ∧ ¬ _ < 1 ∧ _ ∧ ¬ _ < 1 ↔ _
  omega

theorem fundirSinDesborde {ant sig : Option Particion} {p : Particion}
    (h : total (rangos ant.toList) + p.rango.len + total (rangos sig.toList) < 2 ^ 32) :
    FundirSinDesborde ant p sig := by
  have hactual : (fundir none p sig).rango.len = _ := congrArg Seg.len <| rango_fundir <| by
    simp only [Option.toList_none, rangos_nil, total_nil]
    omega
  simp only [Option.toList_none, rangos_nil, total_nil, Nat.zero_add, Particion.rango_len]
    at hactual h
  simp only [FundirSinDesborde, BitVec.uaddOverflow, decide_eq_false_iff_not, hactual]
  constructor
  · rintro b rfl
    simp at h
    omega
  · rintro a rfl
    simp at h ⊢
    omega

/-- In a list of less than `2 ^ 32` bytes only a split can wrap. -/
theorem sumasExactas_iff {cfg : ConfigMemoria} {ps : List Particion} {a : Peticion}
    (ht : total (rangos ps) < 2 ^ 32) (ha : PideMemoria a) :
    SumasExactas cfg ps a ↔ DivideDentro cfg ps a := by
  unfold DivideDentro
  cases a with
  | asignarMemoria d =>
    constructor
    · intro h d' i p hd he hlt
      cases hd
      exact (dividirSinDesborde_iff (ha d rfl) hlt).mp (h i p he hlt)
    · intro h i p he hlt
      exact (dividirSinDesborde_iff (ha d rfl) hlt).mpr (h d i p rfl he hlt)
  | finalizarProceso pid =>
    refine ⟨fun _ d i p hd => absurd hd (by simp), fun _ i q hb => ?_⟩
    obtain ⟨pre, post, hps, -, -⟩ := liberarPid_split .dinamicas hb
    rw [hps] at ht
    simp only [anteriorFundido, siguienteFundido, if_true, rangos_append, rangos_cons,
      total_append, total_cons] at ht
    exact fundirSinDesborde (by omega)
  | _ => simp [SumasExactas]

section Corridas

variable {ent : Entorno} {basura : Nat → Uint32} {memoria : Nat → Byte}

/-- The sizes sum to `TAM_MEMORIA` in every state, whatever the processes ask for. -/
theorem suma_corrida (hesq : ent.esquema = .dinamicas) (as : List Peticion) :
    EveryState (atender ent) (estadoInicial ent.toConfigMemoria basura memoria) as
      fun _ s => total (rangos s.listaParticiones) = ent.tamMemoria := by
  intro pre s _ hs
  refine hs.keeps (I := fun s => total (rangos s.listaParticiones) = ent.tamMemoria)
    (by rw [rangos_inicial hesq]; simp) ?_
  intro s₁ a s₂ o _ ht h
  have hT := ent.tam_lt
  exact total_paso (by omega) (atender_paso h) ht

/-- **Nothing is lost.** The sizes sum to `TAM_MEMORIA` in every state of every run. The sums wrap
along exactly the runs that split a partition whose range ends past `2 ^ 32`, and these are among
the ones whose merges are not contiguous. -/
theorem memoria_conservada (hesq : ent.esquema = .dinamicas) (as : List Peticion)
    (has : ∀ a ∈ as, PideMemoria a) :
    EveryState (atender ent) (estadoInicial ent.toConfigMemoria basura memoria) as
        (fun _ s => total (rangos s.listaParticiones) = ent.tamMemoria) ∧
      (EveryStep (atender ent) (estadoInicial ent.toConfigMemoria basura memoria) as
          (fun _ s a => SumasExactas ent.toConfigMemoria s.listaParticiones a) ↔
        EveryStep (atender ent) (estadoInicial ent.toConfigMemoria basura memoria) as
          (fun _ s a => DivideDentro ent.toConfigMemoria s.listaParticiones a)) ∧
      (EveryStep (atender ent) (estadoInicial ent.toConfigMemoria basura memoria) as
          (fun _ s a => FusionContigua s.listaParticiones a) →
        EveryStep (atender ent) (estadoInicial ent.toConfigMemoria basura memoria) as
          (fun _ s a => DivideDentro ent.toConfigMemoria s.listaParticiones a)) := by
  have hT := ent.tam_lt
  have hsuma : EveryState (atender ent) (estadoInicial ent.toConfigMemoria basura memoria) as
      fun _ s => total (rangos s.listaParticiones) = ent.tamMemoria := suma_corrida hesq as
  refine ⟨hsuma, ⟨fun h => ?_, fun h => ?_⟩, fun h => ?_⟩
  · refine h.mono hsuma fun _ s a ha ht => ?_
    exact (sumasExactas_iff (by omega) (has a ha)).mp
  · refine h.mono hsuma fun _ s a ha ht => ?_
    exact (sumasExactas_iff (by omega) (has a ha)).mpr
  · -- While merges are contiguous the ranges stay inside the memory.
    refine h.mono (ordenada_corrida hesq has h) ?_
    intro _ s a _ ho _ d i p _ he hlt
    have hp := List.mem_of_getElem? (evaluarParticion_some he).1
    have hlen : d.tamProceso.toNat < p.tamanio.toNat := hlt
    have := ho.teselan.stop_le (mem_rangos.mpr ⟨p, hp, rfl⟩) (Nat.zero_lt_of_lt hlen)
    omega

/-- Two processes start, each with a split, and the second one ends with free memory on both
sides. -/
theorem memoria_conservada_dos_procesos :
    let ent := entornoDinamico 100 (by decide)
    EveryStep (atender ent) (estadoInicial ent.toConfigMemoria (fun _ => 0) fun _ => 0)
      [.asignarMemoria ⟨1, 10⟩, .asignarMemoria ⟨2, 20⟩, .finalizarProceso 1, .finalizarProceso 2]
      fun _ s a => SumasExactas ent.toConfigMemoria s.listaParticiones a := by
  intro ent
  have has : ∀ a ∈ [.asignarMemoria ⟨1, 10⟩, .asignarMemoria ⟨2, 20⟩, .finalizarProceso 1,
      .finalizarProceso 2], PideMemoria a := by
    rintro a ha d rfl
    obtain rfl | rfl : d = ⟨1, 10⟩ ∨ d = ⟨2, 20⟩ := by simpa using ha
    · decide
    · decide
  have h₄ : atender ent procesoDos (.finalizarProceso 2) =
      .ok (estadoSinHilos [⟨0, 9, 100, true, 0⟩], []) := rfl
  refine (memoria_conservada rfl _ has).2.1.mpr ((memoria_conservada rfl _ has).2.2 ?_)
  refine .cons atender_unProceso ?_ (.cons atender_dosProcesos ?_ (.cons atender_procesoDos ?_
    (.cons h₄ ?_ everyStep_nil)))
  · exact fun pid i q ha => absurd ha (by simp)
  · exact fun pid i q ha => absurd ha (by simp)
  · intro pid i q ha hq
    cases ha
    cases hq
    trivial
  · intro pid i q ha hq
    cases ha
    cases hq
    exact .inl ⟨rfl, rfl⟩

end Corridas

/-- The merges of this run move the free range up to the address 4294967290. -/
def pedidosDesbordados : List Peticion :=
  [.asignarMemoria ⟨1, 2147483645⟩, .asignarMemoria ⟨2, 1⟩, .asignarMemoria ⟨3, 1⟩,
    .finalizarProceso 1, .asignarMemoria ⟨4, 1⟩, .finalizarProceso 3,
    .asignarMemoria ⟨5, 2147483644⟩, .asignarMemoria ⟨6, 1⟩, .finalizarProceso 5,
    .asignarMemoria ⟨7, 1⟩, .finalizarProceso 6]

theorem suma_desbordada :
    let ent := entornoDinamico 2147483647 (by decide)
    ∃ s, Reaches (atender ent) (estadoInicial ent.toConfigMemoria (fun _ => 0) fun _ => 0)
        pedidosDesbordados s ∧
      ¬ SumasExactas ent.toConfigMemoria s.listaParticiones (.asignarMemoria ⟨8, 10⟩) := by
  intro ent
  have hrun : (run (atender ent) (estadoInicial ent.toConfigMemoria (fun _ => 0) fun _ => 0)
      pedidosDesbordados).toOption.map (fun r => r.1.listaParticiones) =
        some [⟨0, 0, 1, false, 4⟩, ⟨2147483645, 2147483645, 1, false, 2⟩,
          ⟨2147483646, 2147483646, 1, false, 7⟩,
          ⟨4294967290, 4294967290, 2147483644, true, 0⟩] := by decide
  obtain ⟨s, hs, hl⟩ := reaches_of_map (g := Estado.listaParticiones) hrun
  refine ⟨s, hs, ?_⟩
  rw [hl]
  intro h
  have := h 3 ⟨4294967290, 4294967290, 2147483644, true, 0⟩ (by decide) (by decide)
  exact absurd this.2.1 (by decide)

end LastOfC.Memoria
