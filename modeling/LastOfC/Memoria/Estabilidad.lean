import LastOfC.Memoria.Pasos

/-!
# Live partitions do not move

* `ajenas_paso`: a request about one process leaves the occupied partitions of all others as they
  are, in the order they are in. Splits and merges touch free partitions only.
* `Fieles`: the bounds that a context copied at `HILO_READY` are those of the partition of its
  process. `particiones_vivas_estables` is the run lemma. The kernel owes it that it asks for no
  memory for a process with a thread, and `malloc` that no initial partition carries a `pid` that
  is used.
-/

namespace LastOfC.Memoria

open KeyedList Trace

/-- The occupied partitions of the processes other than `pid`, in order. -/
def ajenas (pid : Uint32) (ps : List Particion) : List Particion :=
  ps.filter fun p => !p.libre && decide (p.pid ≠ pid)

section Ajenas

variable {pid : Uint32} {p : Particion} {ps qs : List Particion}

@[simp] theorem ajenas_append : ajenas pid (ps ++ qs) = ajenas pid ps ++ ajenas pid qs :=
  List.filter_append ps qs

theorem ajenas_cons_libre (h : p.libre = true) : ajenas pid (p :: ps) = ajenas pid ps := by
  simp [ajenas, h]

theorem ajenas_cons_propia (h : p.pid = pid) : ajenas pid (p :: ps) = ajenas pid ps := by
  simp [ajenas, h]

theorem ajenas_toList {o : Option Particion} (h : ∀ p, o = some p → p.libre = true) :
    ajenas pid o.toList = [] := by
  cases o with
  | none => rfl
  | some p => exact ajenas_cons_libre (h p rfl)

end Ajenas

section Pasos

variable {cfg : ConfigMemoria} {ps ps' : List Particion} {a : Peticion}

/-- **The frame.** A request does not remove, resize or move the occupied partitions of processes
that it is not about. -/
theorem ajenas_paso (h : PasoLista cfg ps a ps') : ajenas a.pid ps' = ajenas a.pid ps := by
  cases h with
  | igual => rfl
  | ocupar d pre p post hps he =>
    obtain ⟨-, hp⟩ := evaluarParticion_some he
    have hlibre := (Particion.entra_iff.mp hp).1
    have hpropia : (p.ocupar d.pid).pid = d.pid := rfl
    rw [hps, ajenas_append, ajenas_append]
    simp only [Peticion.pid, ajenas_cons_libre hlibre, ajenas_cons_propia hpropia]
  | dividir d pre p post hps he =>
    obtain ⟨-, hp⟩ := evaluarParticion_some he
    have hlibre := (Particion.entra_iff.mp hp).1
    have hpropia : ((p.ocupar d.pid).recortar d.tamProceso).pid = d.pid := rfl
    have hresto : (p.resto d.tamProceso).libre = true := rfl
    rw [hps, ajenas_append, ajenas_append]
    simp only [Peticion.pid, ajenas_cons_libre hlibre, ajenas_cons_propia hpropia, ajenas_append,
      ajenas_cons_libre hresto]
    simp [ajenas]
  | liberar pid pre ant q sig post hps hb hant hsig =>
    have hantl : ∀ a, ant = some a → a.libre = true := fun a ha =>
      anteriorFundido_libre (hant ▸ ha)
    have hsigl : ∀ b, sig = some b → b.libre = true := fun b hb =>
      siguienteFundido_libre (hsig ▸ hb)
    rw [hps]
    simp only [Peticion.pid, ajenas_append, ajenas_cons_libre (fundir_libre hantl),
      ajenas_cons_propia (buscarPid_pid hb), ajenas_toList hantl, ajenas_toList hsigl,
      List.append_nil, List.nil_append]

/-- No free partition carries the `pid` of a request of `as`. -/
def LibresSinUso (as : List Peticion) (ps : List Particion) : Prop :=
  ∀ p ∈ ps, p.libre = true → ∀ a ∈ as, p.pid ≠ a.pid

theorem libresSinUso_paso {as : List Peticion} (has : ∀ a ∈ as, a.pid ≠ 0)
    (h : PasoLista cfg ps a ps') (hl : LibresSinUso as ps) : LibresSinUso as ps' := by
  cases h with
  | igual => exact hl
  | ocupar d pre p post hps =>
    subst hps
    intro r hr hlibre
    simp only [List.mem_append, List.mem_cons] at hr
    rcases hr with hr | rfl | hr
    · exact hl r (by simp [hr]) hlibre
    · cases hlibre
    · exact hl r (by simp [hr]) hlibre
  | dividir d pre p post hps =>
    subst hps
    intro r hr hlibre
    simp only [List.mem_append, List.mem_cons, List.not_mem_nil, or_false] at hr
    rcases hr with hr | rfl | hr | rfl
    · exact hl r (by simp [hr]) hlibre
    · cases hlibre
    · exact hl r (by simp [hr]) hlibre
    · exact fun b hb => (has b hb).symm
  | liberar pid pre ant q sig post hps hb hant hsig =>
    subst hps
    intro r hr hlibre
    simp only [List.mem_append, List.mem_cons] at hr
    rcases hr with hr | rfl | hr
    · exact hl r (by simp [hr]) hlibre
    · -- What is left of a merge carries the `pid` of its first part, or 0.
      cases ant with
      | none =>
        cases sig <;> exact fun b hb => (has b hb).symm
      | some a =>
        have ha := hl a (by simp) (anteriorFundido_libre hant.symm)
        cases sig <;> exact ha
    · exact hl r (by simp [hr]) hlibre

/-- The partition of a process is the same after a request about another one. -/
theorem buscarParticionPorPid_paso {pid : Uint32} (h : PasoLista cfg ps a ps') (hne : pid ≠ a.pid)
    (hl : ∀ p ∈ ps, p.pid = pid → p.libre = false)
    (hl' : ∀ p ∈ ps', p.pid = pid → p.libre = false) :
    buscarParticionPorPid ps' pid = buscarParticionPorPid ps pid := by
  have key : ∀ qs : List Particion, (∀ p ∈ qs, p.pid = pid → p.libre = false) →
      buscarParticionPorPid qs pid = (ajenas a.pid qs).find? fun p => p.pid = pid := by
    intro qs hq
    rw [buscarParticionPorPid, buscarPid, map_snd_search, ajenas, find?_filter]
    intro p hp hpid
    have hpid : p.pid = pid := by simpa using hpid
    simp [hq p hp hpid, hpid, hne]
  rw [key ps' hl', key ps hl, ajenas_paso h]

/-- A context after a request was there before it, with the same process and bounds, or it is the
new one of a `HILO_READY`. -/
theorem contexto_origen {cs cs' : List ContextoEjecucion} {c' : ContextoEjecucion}
    (h : PasoContextos ps cs a cs') (hc : c' ∈ cs') :
    (∃ c ∈ cs, c'.pid = c.pid ∧ c'.base = c.base ∧ c'.limite = c.limite) ∨
      ∃ d p, a = .hiloReady d ∧ buscarParticionPorPid ps d.PID = some p ∧
        c' = nuevoContexto d p := by
  cases h with
  | igual => exact .inl ⟨c', hc, rfl, rfl, rfl⟩
  | agregar d p hp =>
    rcases List.mem_append.mp hc with hc | hc
    · exact .inl ⟨c', hc, rfl, rfl, rfl⟩
    · exact .inr ⟨d, p, rfl, hp, List.mem_singleton.mp hc⟩
  | quitar => exact .inl ⟨c', List.mem_of_mem_eraseIdx hc, rfl, rfl, rfl⟩
  | actualizar d i c hi =>
    rcases List.mem_or_eq_of_mem_set hc with hc | rfl
    · exact .inl ⟨c', hc, rfl, rfl, rfl⟩
    · exact .inl ⟨c, search_mem hi, rfl, rfl, rfl⟩

end Pasos

/-! ## Runs -/

section Corridas

variable {ent : Entorno}

/-- The context has the bounds of the partition of its process. -/
def Fiel (ps : List Particion) (c : ContextoEjecucion) : Prop :=
  ∃ p, buscarParticionPorPid ps c.pid = some p ∧ c.base = p.base ∧ c.limite = p.limite

/-- No memory is asked for a process that has a thread. -/
def AsignaSinHilos (s : Estado) (a : Peticion) : Prop :=
  ∀ d, a = .asignarMemoria d → ∀ c ∈ s.listaContextos, c.pid ≠ d.pid

/-- What the run keeps: the contexts are those of processes of the run, and, until the process is
finished, true to its partition. -/
structure Estables (as pre : List Peticion) (s : Estado) : Prop where
  libres : LibresSinUso as s.listaParticiones
  usados : ∀ c ∈ s.listaContextos, ∃ a ∈ as, c.pid = a.pid
  fieles : ∀ c ∈ s.listaContextos, .finalizarProceso c.pid ∉ pre → Fiel s.listaParticiones c

/-- A request that asks for no memory for a process, and does not finish it, leaves the partition
that its search finds. -/
theorem Estables.buscar {as pre : List Peticion} {s s' : Estado} {a : Peticion} {o : List Envio}
    {pid : Uint32} (hs : Estables as pre s) (has : ∀ b ∈ as, b.pid ≠ 0)
    (hpid : ∃ b ∈ as, pid = b.pid) (hasig : ∀ d, a = .asignarMemoria d → pid ≠ d.pid)
    (hfin : a ≠ .finalizarProceso pid) (h : atender ent s a = .ok (s', o)) :
    buscarParticionPorPid s'.listaParticiones pid =
      buscarParticionPorPid s.listaParticiones pid := by
  by_cases hne : pid = a.pid
  · -- The request is about the process, so it is not one of the two that touch the list.
    rw [atender_lista h]
    · rintro d rfl
      exact hasig d rfl hne
    · rintro pid' rfl
      exact hfin (by rw [hne]; rfl)
  · obtain ⟨b, hb, hpb⟩ := hpid
    have hocupada : ∀ ps, LibresSinUso as ps → ∀ p ∈ ps, p.pid = pid → p.libre = false := by
      intro ps hl p hp hpp
      by_contra hlibre
      exact hl p hp (by simpa using hlibre) b hb (hpp.trans hpb)
    have hpaso := atender_paso h
    have hlibres := libresSinUso_paso has hpaso hs.libres
    exact buscarParticionPorPid_paso hpaso hne (hocupada _ hs.libres) (hocupada _ hlibres)

theorem estables_paso {as pre : List Peticion} {s s' : Estado} {a : Peticion} {o : List Envio}
    (has : ∀ b ∈ as, b.pid ≠ 0) (ha : a ∈ as) (hasig : AsignaSinHilos s a)
    (h : atender ent s a = .ok (s', o)) (hs : Estables as pre s) :
    Estables as (pre ++ [a]) s' := by
  refine ⟨libresSinUso_paso has (atender_paso h) hs.libres, ?_, ?_⟩
  · intro c' hc'
    rcases contexto_origen (atender_contextos h) hc' with ⟨c, hc, hpid, -⟩ | ⟨d, p, rfl, -, rfl⟩
    · rw [hpid]
      exact hs.usados c hc
    · exact ⟨_, ha, rfl⟩
  · intro c' hc' hfin
    rcases contexto_origen (atender_contextos h) hc' with
      ⟨c, hc, hpid, hbase, hlim⟩ | ⟨d, p, rfl, hp, rfl⟩
    · rw [hpid] at hfin
      have hfin' : Peticion.finalizarProceso c.pid ∉ pre ∧ a ≠ .finalizarProceso c.pid := by
        simpa [eq_comm] using hfin
      have hfiel := hs.fieles c hc hfin'.1
      have hsame := hs.buscar has (hs.usados c hc) (fun d hd => hasig d hd c hc) hfin'.2 h
      unfold Fiel at hfiel ⊢
      rw [hpid, hbase, hlim, hsame]
      exact hfiel
    · refine ⟨p, ?_, rfl, rfl⟩
      rw [atender_lista h (by simp) (by simp)]
      exact hp

theorem estables_corrida {basura : Nat → Uint32} {memoria : Nat → Byte} {as : List Peticion}
    (has : ∀ a ∈ as, a.pid ≠ 0)
    (hini : ∀ p ∈ configurarParticiones ent.toConfigMemoria basura, ∀ a ∈ as, p.pid ≠ a.pid)
    (hasig : EveryStep (atender ent) (estadoInicial ent.toConfigMemoria basura memoria) as
      fun _ s a => AsignaSinHilos s a) :
    EveryState (atender ent) (estadoInicial ent.toConfigMemoria basura memoria) as
      (Estables as) := by
  intro pre s hpre hs
  refine hs.invariant (hasig.restrict hpre) ⟨fun p hp _ => hini p hp, ?_, ?_⟩ ?_
  · simp [estadoInicial]
  · simp [estadoInicial]
  · intro q s₁ a s₂ o ha _ hest hca h
    exact estables_paso has (hpre.subset ha) hca h hest

/-- **Live partitions are stable.** Whatever the requests, one about a process leaves the occupied
partitions of the others as they are, and the bounds in `lista_contextos` stay those of the
partition until the process is finished. -/
theorem particiones_vivas_estables (basura : Nat → Uint32) (memoria : Nat → Byte)
    (as : List Peticion) (has : ∀ a ∈ as, a.pid ≠ 0)
    (hini : ∀ p ∈ configurarParticiones ent.toConfigMemoria basura, ∀ a ∈ as, p.pid ≠ a.pid)
    (hasig : EveryStep (atender ent) (estadoInicial ent.toConfigMemoria basura memoria) as
      fun _ s a => AsignaSinHilos s a) :
    EveryStep (atender ent) (estadoInicial ent.toConfigMemoria basura memoria) as
        (fun _ s a => ∀ s' o, atender ent s a = .ok (s', o) →
          ajenas a.pid s'.listaParticiones = ajenas a.pid s.listaParticiones) ∧
      EveryState (atender ent) (estadoInicial ent.toConfigMemoria basura memoria) as
        fun pre s => ∀ c ∈ s.listaContextos, .finalizarProceso c.pid ∉ pre →
          Fiel s.listaParticiones c := by
  constructor
  · intro _ s a _ _ _ _ s' o h
    exact ajenas_paso (atender_paso h)
  · intro pre s hpre hs
    exact (estables_corrida has hini hasig pre s hpre hs).fieles

/-- A process with a thread. -/
theorem particiones_vivas_estables_un_hilo :
    let ent := entornoDinamico 100 (by decide)
    EveryState (atender ent) (estadoInicial ent.toConfigMemoria (fun _ => 0) fun _ => 0)
      [.asignarMemoria ⟨1, 10⟩, .hiloReady ⟨1, 0, 0, []⟩]
      fun pre s => ∀ c ∈ s.listaContextos, .finalizarProceso c.pid ∉ pre →
        Fiel s.listaParticiones c := by
  intro ent
  have h₂ : atender ent unProceso (.hiloReady ⟨1, 0, 0, []⟩) = .ok (_, _) := rfl
  refine (particiones_vivas_estables (fun _ => 0) (fun _ => 0) _ ?_ ?_
    (.cons atender_unProceso ?_ (.cons h₂ ?_ everyStep_nil))).2
  · decide
  · decide
  · exact fun d _ c hc => absurd hc (by simp [estadoInicial])
  · exact fun d hd => absurd hd (by simp)

end Corridas

end LastOfC.Memoria
