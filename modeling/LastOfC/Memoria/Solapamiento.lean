import LastOfC.Memoria.Rangos

/-!
# Overlaps under `DINAMICAS`

`consolidar_particiones_libres` joins neighbours of the list. A split puts the free rest at the end
of the list, so neighbours of the list need not be neighbours in memory, and the join of two that
are not takes addresses of a third.

* `FusionContigua`: the parts of a merge are one after the other in memory. A step is safe exactly
  then: `tiles_paso` and `fusionContigua_of_tiles`.
* `Ordenada`: what a run keeps as long as its merges are contiguous.
* `particiones_disjuntas_iff`: the ranges stay disjoint exactly along those runs.
-/

namespace LastOfC.Memoria

open Tiling Trace

/-! ## Merges -/

/-- The parts of a merge lie one after the other in memory, with `ant` first. -/
def Contigua (ant : Option Particion) (p : Particion) (sig : Option Particion) : Prop :=
  match ant, sig with
  | none, none => True
  | none, some b => b.rango.base = p.rango.stop
  | some a, none => p.rango.base = a.rango.stop
  | some a, some b =>
    (p.rango.base = a.rango.stop ∧ b.rango.base = p.rango.stop) ∨
      (b.rango.base = a.rango.stop ∧ p.rango.base = b.rango.stop)

/-- If the request merges partitions, they are contiguous. -/
def FusionContigua (ps : List Particion) (a : Peticion) : Prop :=
  ∀ pid i q, a = .finalizarProceso pid → buscarPid ps pid = some (i, q) →
    Contigua (vecinoAnterior ps i) q (vecinoSiguiente ps i)

section Fundir

variable {ant sig : Option Particion} {p : Particion}

/-- A contiguous merge covers what its parts did. -/
theorem ind_fundir (hc : Contigua ant p sig)
    (h : total (rangos ant.toList) + p.rango.len + total (rangos sig.toList) < 2 ^ 32) (x : Nat) :
    (fundir ant p sig).rango.ind x =
      cover (rangos ant.toList) x + p.rango.ind x + cover (rangos sig.toList) x := by
  rw [rango_fundir h]
  cases ant with
  | none =>
    cases sig with
    | none => simp [Particion.rango]
    | some b => simpa using Seg.ind_join hc x
  | some a =>
    cases sig with
    | none => simpa using Seg.ind_join hc x
    | some b =>
      rcases hc with ⟨hp, hb⟩ | ⟨hb, hp⟩
      · simpa using Seg.ind_join₃ hp hb x
      · have := Seg.ind_join₃ hb hp x
        simpa [Nat.add_right_comm] using this

/-- A merge that covers what its nonempty parts did is contiguous. -/
theorem contigua_of_ind (hpos : ∀ r ∈ rangos (ant.toList ++ p :: sig.toList), 0 < r.len)
    (h : total (rangos ant.toList) + p.rango.len + total (rangos sig.toList) < 2 ^ 32)
    (hind : ∀ x, (fundir ant p sig).rango.ind x =
      cover (rangos ant.toList) x + p.rango.ind x + cover (rangos sig.toList) x) :
    Contigua ant p sig := by
  rw [rango_fundir h] at hind
  cases ant with
  | none =>
    cases sig with
    | none => trivial
    | some b =>
      simp at hpos hind
      exact join_contiguous hpos.1 hpos.2 hind
  | some a =>
    cases sig with
    | none =>
      simp at hpos hind
      exact join_contiguous hpos.1 hpos.2 hind
    | some b =>
      simp at hpos hind
      exact join₃_contiguous hpos.1 hpos.2.1 hpos.2.2 hind

end Fundir

/-! ## Tilings -/

section Pasos

variable {a : Peticion} {T : Nat} {cfg : ConfigMemoria} {ps ps' : List Particion}

theorem FusionContigua.contigua {pid : Uint32} {i : Nat} {q : Particion}
    {ant sig : Option Particion} (hc : FusionContigua ps (.finalizarProceso pid))
    (hesq : cfg.esquema = .dinamicas) (hb : buscarPid ps pid = some (i, q))
    (hant : ant = anteriorFundido cfg.esquema ps i)
    (hsig : sig = siguienteFundido cfg.esquema ps i) : Contigua ant q sig := by
  simp only [anteriorFundido, siguienteFundido, hesq, if_true] at hant hsig
  rw [hant, hsig]
  exact hc pid i q rfl hb

/-- A step whose merges are contiguous keeps the tiling. -/
theorem tiles_paso (hesq : cfg.esquema = .dinamicas) (hT : T < 2 ^ 32)
    (h : PasoLista cfg ps a ps') (hc : FusionContigua ps a) (ht : total (rangos ps) = T)
    (htil : Tiles T (rangos ps)) : Tiles T (rangos ps') := by
  intro x
  have hx := htil x
  cases h with
  | igual => exact hx
  | ocupar d pre p post hps =>
    subst hps
    simpa using hx
  | dividir d pre p post hps he _ hlt =>
    subst hps
    have hle : d.tamProceso.toNat < p.tamanio.toNat := hlt
    have hstop : p.base.toNat + p.tamanio.toNat ≤ T :=
      htil.stop_le (s := p.rango) (by simp) (by simp only [Particion.rango_len]; omega)
    have hcut := Seg.ind_cut (b := p.base.toNat) x (Nat.le_of_lt hle)
    simp only [rangos_append, rangos_cons, rangos_nil, cover_append, cover_cons, cover_nil,
      Particion.rango_recortar, Particion.rango_resto hlt (by omega)] at hx ⊢
    simp only [Particion.rango, Particion.ocupar] at hx ⊢
    omega
  | liberar pid pre ant q sig post hps hb hant hsig =>
    have hq : Contigua ant q sig := hc.contigua hesq hb hant hsig
    subst hps
    simp only [rangos_append, rangos_cons, total_append, total_cons] at ht
    simp only [rangos_append, rangos_cons, cover_append, cover_cons] at hx ⊢
    rw [rango_fundir_liberar, ind_fundir hq (by omega)]
    omega

/-- A step between two tilings merges only what is contiguous. -/
theorem fusionContigua_of_tiles (hesq : cfg.esquema = .dinamicas) (hT : T < 2 ^ 32)
    (h : PasoLista cfg ps a ps') (ht : total (rangos ps) = T) (hn : NoVacias ps)
    (htil : Tiles T (rangos ps)) (htil' : Tiles T (rangos ps')) : FusionContigua ps a := by
  rintro pid i q rfl hq
  obtain ⟨pre, ant, sig, post, rfl, rfl, -, hant, hsig⟩ := h.liberacion hesq hq
  rw [← hant, ← hsig]
  by_cases hsolo : ant = none ∧ sig = none
  · obtain ⟨rfl, rfl⟩ := hsolo
    trivial
  have hpos := hn.fundidas hsolo
  simp only [rangos_append, rangos_cons, total_append, total_cons] at ht
  refine contigua_of_ind hpos (by omega) ?_
  intro x
  have hx := (htil x).trans (htil' x).symm
  simp only [rangos_append, rangos_cons, cover_append, cover_cons, rango_fundir_liberar] at hx
  omega

end Pasos

/-! ## Runs -/

section Corridas

variable {ent : Entorno} {basura : Nat → Uint32} {memoria : Nat → Byte}

/-- What every run of `DINAMICAS` keeps while its merges are contiguous. -/
structure Ordenada (T : Nat) (ps : List Particion) : Prop where
  suma : total (rangos ps) = T
  noVacias : NoVacias ps
  teselan : Tiles T (rangos ps)

theorem Ordenada.paso {a : Peticion} {T : Nat} {cfg : ConfigMemoria} {ps ps' : List Particion}
    (hesq : cfg.esquema = .dinamicas) (hT : T < 2 ^ 32) (ha : PideMemoria a)
    (h : PasoLista cfg ps a ps') (hc : FusionContigua ps a) (ho : Ordenada T ps) :
    Ordenada T ps' where
  suma := total_paso hT h ho.suma
  noVacias := noVacias_paso (by rw [ho.suma]; exact hT) ha h ho.noVacias
  teselan := tiles_paso hesq hT h hc ho.suma ho.teselan

theorem rangos_inicial (hesq : ent.esquema = .dinamicas) :
    rangos (estadoInicial ent.toConfigMemoria basura memoria).listaParticiones =
      [⟨0, ent.tamMemoria⟩] := by
  have hT : (BitVec.ofNat 32 ent.tamMemoria).toNat = ent.tamMemoria := by
    have := ent.tam_lt
    rw [BitVec.toNat_ofNat, Nat.mod_eq_of_lt (by omega)]
  simp only [estadoInicial, configurarParticiones, hesq, rangos_cons, rangos_nil, Particion.rango,
    hT]
  rfl

theorem ordenada_inicial (hesq : ent.esquema = .dinamicas) :
    Ordenada ent.tamMemoria
      (estadoInicial ent.toConfigMemoria basura memoria).listaParticiones where
  suma := by rw [rangos_inicial hesq]; simp
  noVacias := by
    rw [NoVacias, rangos_inicial hesq]
    rcases Nat.eq_zero_or_pos ent.tamMemoria with h0 | h0
    · exact .inr (by rw [h0])
    · exact .inl (by simpa using h0)
  teselan := by rw [rangos_inicial hesq]; exact tiles_singleton _

theorem ordenada_corrida (hesq : ent.esquema = .dinamicas) {as : List Peticion}
    (has : ∀ a ∈ as, PideMemoria a)
    (hc : EveryStep (atender ent) (estadoInicial ent.toConfigMemoria basura memoria) as
      fun _ s a => FusionContigua s.listaParticiones a) :
    EveryState (atender ent) (estadoInicial ent.toConfigMemoria basura memoria) as
      fun _ s => Ordenada ent.tamMemoria s.listaParticiones := by
  intro pre s hpre hs
  refine hs.invariant (I := fun _ s => Ordenada ent.tamMemoria s.listaParticiones)
    (hc.restrict hpre) (ordenada_inicial hesq) ?_
  intro _ s₁ a s₂ o ha _ ho hca h
  have hT := ent.tam_lt
  exact ho.paso hesq (by omega) (has a (hpre.subset ha)) (atender_paso h) hca

/-- The ranges are pairwise disjoint and inside the memory. -/
def SinSolapar (T : Nat) (ps : List Particion) : Prop :=
  (rangos ps).Pairwise Seg.Disjoint ∧ Inside T (rangos ps)

theorem Ordenada.sinSolapar {T : Nat} {ps : List Particion} (h : Ordenada T ps) :
    SinSolapar T ps := by
  refine ⟨h.teselan.pairwise_disjoint, fun r hr => ?_⟩
  rcases h.noVacias with hn | hn
  · exact h.teselan.stop_le hr (hn r hr)
  · rw [hn] at hr
    obtain rfl := List.mem_singleton.mp hr
    exact Nat.zero_le T

/-- **No overlaps.** The ranges stay disjoint and inside the memory along a run exactly when each
`FINALIZAR_PROCESO` of it merges only partitions that are contiguous. -/
theorem particiones_disjuntas_iff (hesq : ent.esquema = .dinamicas) (as : List Peticion)
    (has : ∀ a ∈ as, PideMemoria a) :
    EveryState (atender ent) (estadoInicial ent.toConfigMemoria basura memoria) as
        (fun _ s => SinSolapar ent.tamMemoria s.listaParticiones) ↔
      EveryStep (atender ent) (estadoInicial ent.toConfigMemoria basura memoria) as
        (fun _ s a => FusionContigua s.listaParticiones a) := by
  have hT : ent.tamMemoria < 2 ^ 32 := by
    have := ent.tam_lt
    omega
  -- The converse needs the tiling before the step and the one after it, and the latter comes from
  -- the disjoint ranges and the sum of the sizes.
  refine everyState_iff_everyStep (I := fun _ s => Ordenada ent.tamMemoria s.listaParticiones)
    (ordenada_inicial hesq) (fun _ _ h => h.sinSolapar) ?_ ?_
  · intro _ s₁ a s₂ o ha ho hc h
    exact ho.paso hesq hT (has a ha) (atender_paso h) hc
  · intro _ s₁ a s₂ o ha ho h hP
    have hpaso := atender_paso h
    have htil := tiles_of_pairwise hP.1 hP.2 (total_paso hT hpaso ho.suma)
    exact fusionContigua_of_tiles hesq hT hpaso ho.suma ho.noVacias ho.teselan htil

/-- One process starts and ends. -/
theorem particiones_disjuntas_un_proceso :
    let ent := entornoDinamico 100 (by decide)
    EveryState (atender ent) (estadoInicial ent.toConfigMemoria (fun _ => 0) fun _ => 0)
      [.asignarMemoria ⟨1, 10⟩, .finalizarProceso 1]
      fun _ s => SinSolapar 100 s.listaParticiones := by
  intro ent
  have h₂ : atender ent unProceso (.finalizarProceso 1) =
      .ok (estadoSinHilos [⟨0, 9, 100, true, 0⟩], []) := rfl
  refine (particiones_disjuntas_iff rfl _ ?_).mpr
    (.cons atender_unProceso ?_ (.cons h₂ ?_ everyStep_nil))
  · rintro a ha d rfl
    obtain rfl : d = ⟨1, 10⟩ := by simpa using ha
    decide
  · exact fun pid i q ha => absurd ha (by simp)
  · intro pid i q ha hq
    cases ha
    cases hq
    show (10 : Nat) = Seg.stop ⟨0, 10⟩
    rfl

end Corridas

/-! ## A run with an overlap -/

/-- When 4 ends, the next element of the list is what 3 left of the hole of 1. It lies before 4 in
memory, so the joined range runs 5 bytes into the free end of the memory. -/
def pedidosSolapados : List Peticion :=
  [.asignarMemoria ⟨1, 10⟩, .asignarMemoria ⟨2, 20⟩, .finalizarProceso 1, .asignarMemoria ⟨3, 5⟩,
    .finalizarProceso 2, .asignarMemoria ⟨4, 50⟩, .finalizarProceso 4]

theorem particiones_solapadas :
    let ent := entornoDinamico 100 (by decide)
    ∃ s, Reaches (atender ent) (estadoInicial ent.toConfigMemoria (fun _ => 0) fun _ => 0)
        pedidosSolapados s ∧
      ¬ (rangos s.listaParticiones).Pairwise Seg.Disjoint := by
  intro ent
  have hrun : (run (atender ent) (estadoInicial ent.toConfigMemoria (fun _ => 0) fun _ => 0)
      pedidosSolapados).toOption.map (fun r => r.1.listaParticiones) =
        some [⟨0, 4, 5, false, 3⟩, ⟨10, 59, 55, true, 0⟩, ⟨60, 99, 40, true, 0⟩] := by decide
  obtain ⟨s, hs, hl⟩ := reaches_of_map (g := Estado.listaParticiones) hrun
  refine ⟨s, hs, ?_⟩
  rw [hl, ← cover_le_one_iff]
  intro h
  exact absurd (h 62) (by decide)

end LastOfC.Memoria
