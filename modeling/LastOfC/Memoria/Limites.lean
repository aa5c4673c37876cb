import LastOfC.Memoria.Solapamiento

/-!
# `limite` under `DINAMICAS`

`configurar_particiones` and `dividir_particion` compute `limite` from `base` and `tamanio`
(`LimiteCalculado`). `consolidar_particiones_libres` adds to `tamanio` only, so after a merge
`limite` is the last address of the first part (`sinFusion_of_limites`).
-/

namespace LastOfC.Memoria

open Tiling Trace

/-- `limite` is the last address of the range. -/
def LimitesCoherentes (ps : List Particion) : Prop :=
  ∀ p ∈ ps, 0 < p.rango.len → p.limite.toNat + 1 = p.rango.stop

/-- A `FINALIZAR_PROCESO` that finds a partition finds no free neighbour to merge it with. -/
def SinFusion (ps : List Particion) (a : Peticion) : Prop :=
  ∀ pid i q, a = .finalizarProceso pid → buscarPid ps pid = some (i, q) →
    vecinoAnterior ps i = none ∧ vecinoSiguiente ps i = none

theorem SinFusion.contigua {ps : List Particion} {a : Peticion} (h : SinFusion ps a) :
    FusionContigua ps a := by
  intro pid i q ha hq
  obtain ⟨hant, hsig⟩ := h pid i q ha hq
  rw [hant, hsig]
  trivial

/-- What `configurar_particiones` and `dividir_particion` compute. -/
def LimiteCalculado (p : Particion) : Prop := p.limite = p.base + p.tamanio - 1

theorem LimiteCalculado.stop {p : Particion} {T : Nat} (h : LimiteCalculado p) (hT : T < 2 ^ 32)
    (hpos : 0 < p.rango.len) (hstop : p.rango.stop ≤ T) : p.limite.toNat + 1 = p.rango.stop := by
  unfold LimiteCalculado at h
  simp only [Seg.stop, Particion.rango_base, Particion.rango_len] at hpos hstop ⊢
  have hadd : (p.base + p.tamanio).toNat = p.base.toNat + p.tamanio.toNat :=
    BitVec.toNat_add_of_lt (by omega)
  have hsub : (p.base + p.tamanio - 1).toNat = (p.base + p.tamanio).toNat - 1 :=
    BitVec.toNat_sub_of_le (by rw [BitVec.le_def, hadd]; show 1 ≤ _; omega)
  rw [h, hsub, hadd]
  omega

theorem fundir_limite (ant : Option Particion) (p : Particion) (sig : Option Particion) :
    (fundir ant p sig).limite = (ant.getD p).limite := by
  cases ant <;> cases sig <;> rfl

section Limites

variable {a : Peticion} {T : Nat} {cfg : ConfigMemoria} {ps ps' : List Particion}

theorem limiteCalculado_paso (hesq : cfg.esquema = .dinamicas) (h : PasoLista cfg ps a ps')
    (hc : SinFusion ps a) (hl : ∀ p ∈ ps, LimiteCalculado p) : ∀ p ∈ ps', LimiteCalculado p := by
  cases h with
  | igual => exact hl
  | ocupar d pre p post hps =>
    subst hps
    simp only [List.mem_append, List.mem_cons] at hl ⊢
    rintro r (hr | rfl | hr)
    · exact hl r (.inl hr)
    · exact hl p (.inr (.inl rfl))
    · exact hl r (.inr (.inr hr))
  | dividir d pre p post hps =>
    subst hps
    simp only [List.mem_append, List.mem_cons, List.not_mem_nil, or_false] at hl ⊢
    rintro r (hr | rfl | hr | rfl)
    · exact hl r (.inl hr)
    · rfl
    · exact hl r (.inr (.inr hr))
    · rfl
  | liberar pid pre ant q sig post hps hb hant hsig =>
    obtain ⟨hant', hsig'⟩ := hc pid _ q rfl hb
    simp only [anteriorFundido, siguienteFundido, hesq, if_true, hant', hsig'] at hant hsig
    subst hant hsig hps
    simp only [List.mem_append, List.mem_cons] at hl ⊢
    rintro r (hr | rfl | hr)
    · exact hl r (.inl (.inl hr))
    · exact hl q (.inr (.inl rfl))
    · exact hl r (.inr (.inr (.inr hr)))

/-- A merge leaves `limite` as it was, so it is wrong afterwards. -/
theorem sinFusion_of_limites (hesq : cfg.esquema = .dinamicas) (hT : T < 2 ^ 32)
    (h : PasoLista cfg ps a ps') (ho : Ordenada T ps) (hl : ∀ p ∈ ps, LimiteCalculado p)
    (hP : LimitesCoherentes ps') : SinFusion ps a := by
  rintro pid i q rfl hq
  obtain ⟨pre, ant, sig, post, rfl, rfl, -, hant, hsig⟩ := h.liberacion hesq hq
  rw [← hant, ← hsig]
  by_contra hm
  have hpos := ho.noVacias.fundidas hm
  have hsuma := ho.suma
  simp only [rangos_append, rangos_cons, total_append, total_cons] at hsuma
  have hfun : (fundir ant q sig).rango = _ := rango_fundir (by omega)
  -- The merge keeps `limite` and `base` of its first part and is longer.
  have hlargo := primera_mas_corta hm hpos
  have hmem : ant.getD q ∈ pre ++ ant.toList ++ q :: (sig.toList ++ post) := by
    cases ant <;> simp
  have hx : (ant.getD q).limite.toNat + 1 = (ant.getD q).rango.stop := by
    have hlen : 0 < (ant.getD q).rango.len := hpos _ (by cases ant <;> simp)
    exact (hl _ hmem).stop hT hlen (ho.teselan.stop_le (mem_rangos.mpr ⟨_, hmem, rfl⟩) hlen)
  have hf := hP (fundir ant q.liberar sig) (by simp)
    (by
      rw [rango_fundir_liberar, hfun]
      show 0 < total (rangos ant.toList) + q.rango.len + total (rangos sig.toList)
      omega)
  rw [rango_fundir_liberar, hfun, fundir_limite] at hf
  have hlim : (ant.getD q.liberar).limite = (ant.getD q).limite := by cases ant <;> rfl
  simp only [Seg.stop, hlim] at hf hx
  omega

variable {ent : Entorno} {basura : Nat → Uint32} {memoria : Nat → Byte}

/-- **Coherent bounds.** `limite` stays the last address of every nonempty range along a run exactly
when no `FINALIZAR_PROCESO` of it merges partitions. -/
theorem limites_coherentes_iff (hesq : ent.esquema = .dinamicas) (as : List Peticion)
    (has : ∀ a ∈ as, PideMemoria a) :
    EveryState (atender ent) (estadoInicial ent.toConfigMemoria basura memoria) as
        (fun _ s => LimitesCoherentes s.listaParticiones) ↔
      EveryStep (atender ent) (estadoInicial ent.toConfigMemoria basura memoria) as
        (fun _ s a => SinFusion s.listaParticiones a) := by
  have hT : ent.tamMemoria < 2 ^ 32 := by
    have := ent.tam_lt
    omega
  refine everyState_iff_everyStep (I := fun _ s => Ordenada ent.tamMemoria s.listaParticiones ∧
    ∀ p ∈ s.listaParticiones, LimiteCalculado p) ⟨ordenada_inicial hesq, ?_⟩ ?_ ?_ ?_
  · simp [estadoInicial, configurarParticiones, hesq, LimiteCalculado]
  · rintro _ s ⟨ho, hl⟩ p hp hpos
    exact (hl p hp).stop hT hpos (ho.teselan.stop_le (mem_rangos.mpr ⟨p, hp, rfl⟩) hpos)
  · rintro _ s₁ a s₂ o ha ⟨ho, hl⟩ hc h
    have hpaso := atender_paso h
    exact ⟨ho.paso hesq hT (has a ha) hpaso hc.contigua, limiteCalculado_paso hesq hpaso hc hl⟩
  · rintro _ s₁ a s₂ o ha ⟨ho, hl⟩ h hP
    exact sinFusion_of_limites hesq hT (atender_paso h) ho hl hP

/-- The first process ends, with the second one next to it. -/
theorem limites_coherentes_sin_fusion :
    let ent := entornoDinamico 100 (by decide)
    EveryState (atender ent) (estadoInicial ent.toConfigMemoria (fun _ => 0) fun _ => 0)
      [.asignarMemoria ⟨1, 10⟩, .asignarMemoria ⟨2, 20⟩, .finalizarProceso 1]
      fun _ s => LimitesCoherentes s.listaParticiones := by
  intro ent
  refine (limites_coherentes_iff rfl _ ?_).mpr
    (.cons atender_unProceso ?_ (.cons atender_dosProcesos ?_
      (.cons atender_procesoDos ?_ everyStep_nil)))
  · rintro a ha d rfl
    obtain rfl | rfl : d = ⟨1, 10⟩ ∨ d = ⟨2, 20⟩ := by simpa using ha
    · decide
    · decide
  · exact fun pid i q ha => absurd ha (by simp)
  · exact fun pid i q ha => absurd ha (by simp)
  · intro pid i q ha hq
    cases ha
    cases hq
    exact ⟨rfl, rfl⟩

/-- The first process ends: its range grows over the rest of the memory, but `limite` stays 9. -/
theorem limite_desactualizado :
    let ent := entornoDinamico 100 (by decide)
    ∃ s, Reaches (atender ent) (estadoInicial ent.toConfigMemoria (fun _ => 0) fun _ => 0)
        [.asignarMemoria ⟨1, 10⟩, .finalizarProceso 1] s ∧
      ¬ LimitesCoherentes s.listaParticiones := by
  intro ent
  have hrun : (run (atender ent) (estadoInicial ent.toConfigMemoria (fun _ => 0) fun _ => 0)
      [.asignarMemoria ⟨1, 10⟩, .finalizarProceso 1]).toOption.map
        (fun r => r.1.listaParticiones) = some [⟨0, 9, 100, true, 0⟩] := by decide
  obtain ⟨s, hs, hl⟩ := reaches_of_map (g := Estado.listaParticiones) hrun
  refine ⟨s, hs, ?_⟩
  rw [hl]
  intro h
  exact absurd (h _ (List.mem_singleton_self _) (by decide)) (by decide)

end Limites

end LastOfC.Memoria
