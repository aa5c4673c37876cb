import LastOfC.Kernel.Emisores
import LastOfC.Kernel.Mutexes

/-!
# Mutexes and finished threads

The owner of a mutex should be a thread of the process that has not finished, and no finished
thread should wait in a queue. `finalizar_hilo` releases the mutexes of the thread, but leaves its
tid in the queues.

* `ExitBien`: the finished threads are those of `lista_exit`.
* `Propiedad` is the invariant, and `poseidos_corrida` its run lemma: it holds while no thread
  that waits in a queue is finished, and only unfinished threads ask for mutexes.
-/

namespace LastOfC.Kernel

open Imp Trace Planificacion KeyedList

variable {ent : Entorno} {k k' : Estado} {p : Paso} {o : List Paquete}
  {ids : List (Uint32 × Uint32)} {id : Uint32 × Uint32}

/-- The identities of the threads that ended along a run, before the step that ended them. -/
def acabados (ent : Entorno) (s : Estado) (ps : List Paso) : List (Uint32 × Uint32) :=
  history (paso ent) (fun k p _ ids => ids ++ (k.movimiento ent p).terminan.map k.idDe) s ps []

/-- The identity is that of a thread that is not EXIT and did not end, and of none of those that
ended. -/
def Estado.EnVida (k : Estado) (ids : List (Uint32 × Uint32)) (id : Uint32 × Uint32) : Prop :=
  id ∉ ids ∧ ∃ h ∈ k.listaTcbs, h ∉ k.listaExit ∧ k.idDe h = id ∧ (k.tcbs h).estadoHilo ≠ .exit

instance : Decidable (k.EnVida ids id) :=
  inferInstanceAs (Decidable (_ ∧ ∃ h ∈ k.listaTcbs, _ ∧ _ ∧ _ ≠ _))

/-- Each mutex of a live process is free or owned by an unfinished thread of it, and no queue has
the tid of a finished one. -/
def Estado.Poseidos (k : Estado) (ids : List (Uint32 × Uint32)) : Prop :=
  ∀ q ∈ k.listaProcesos, (k.pcbs q).estado ≠ .exit → ∀ m ∈ (k.pcbs q).mutex,
    (m.tid = sinHilo ∨ k.EnVida ids ((k.pcbs q).pid, m.tid)) ∧
      ∀ t ∈ m.bloqueadosMutex, ((k.pcbs q).pid, t) ∉ ids

/-- The identity in a `MUTEX_LOCK`. -/
def Paso.pideMutex : Paso → Option (Uint32 × Uint32)
  | .syscall (.mutexLock d) => some (d.PID, d.TID)
  | _ => none

/-- An unfinished thread asks for a mutex, and no `THREAD_CANCEL` or `THREAD_EXIT` ends a thread
whose tid waits in a queue of its process. -/
def Estado.Cuida (ent : Entorno) (ids : List (Uint32 × Uint32)) (k : Estado) (p : Paso) : Prop :=
  (∀ id ∈ p.pideMutex, k.EnVida ids id) ∧
    (p.terminaUno = true → ∀ h ∈ (k.movimiento ent p).terminan,
      (k.tcbs h).tid ∉ enEspera (k.mutexesDe (k.tcbs h).pid))

instance : Decidable (k.Cuida ent ids p) :=
  have : Decidable (∀ id ∈ p.pideMutex, k.EnVida ids id) := Option.decidableForallMem _
  inferInstanceAs (Decidable (_ ∧ (_ → ∀ h ∈ _, _)))

/-! ## Finished threads -/

/-- The freed threads and those that are EXIT are in `lista_exit`. -/
structure ExitBien (k : Estado) : Prop where
  liberados : k.liberados ⊆ k.listaExit
  estado : ∀ h ∈ k.listaTcbs, (k.tcbs h).estadoHilo = .exit → h ∈ k.listaExit

theorem finalizarHilo_exitBien {h : Dir} (hr : (finalizarHilo ent h).run k = .ok () k')
    (hk : ExitBien k) : ExitBien k' := by
  have hfin : ∀ d ∈ k.listaTcbs, ((k.setEstado h .exit).tcbs d).estadoHilo = .exit →
      d ∈ k.listaExit ++ [h] := by
    intro d hd he
    by_cases hdh : d = h
    · exact List.mem_append_right _ (List.mem_singleton.mpr hdh)
    · refine List.mem_append_left _ (hk.estado d hd ?_)
      simpa [Estado.setEstado, Estado.modTcb, hdh] using he
  rcases finalizarHilo_ok hr with
    ⟨-, m, vs, rfl⟩ | ⟨bs, q, ms, tids, k₁, m, vs, -, -, hdes, -, -, rfl⟩
  · exact ⟨fun d hd => List.mem_append_left _ (hk.liberados hd), hfin⟩
  · have hmarco := hdes.marco
    have hexit : k₁.listaExit = k.listaExit ++ [h] := by
      rw [hmarco]
      rfl
    have hhilos : k₁.listaTcbs = k.listaTcbs := by
      rw [hmarco]
      rfl
    refine ⟨fun d hd => ?_, fun d hd he => ?_⟩
    · show d ∈ k₁.listaExit
      rw [hexit]
      rcases List.mem_cons.mp hd with rfl | hd
      · exact List.mem_append_right _ (List.mem_singleton_self d)
      · exact List.mem_append_left _ (hk.liberados hd)
    · show d ∈ k₁.listaExit
      rw [hexit]
      by_cases hdh : d = h
      · exact List.mem_append_right _ (List.mem_singleton.mpr hdh)
      · have he₁ : (k₁.tcbs d).estadoHilo = .exit := by
          simpa [Estado.modTcb, hdh] using he
        exact hfin d (hhilos ▸ hd) (hdes.estado_de (by decide) d he₁)

theorem finalizarProceso_exitBien {d : Option Dir}
    (hr : (finalizarProceso ent d).run k = .ok () k') (hk : ExitBien k) : ExitBien k' := by
  obtain ⟨q, rfl, ⟨-, rfl⟩ | ⟨k₁, m, vs, m', vs', -, hloop, -, rfl⟩⟩ := finalizarProceso_ok hr
  · exact ⟨hk.liberados, hk.estado⟩
  · have h₁ : ExitBien k₁ := by
      refine each_ok (I := fun _ s => ExitBien s) hloop ⟨hk.liberados, hk.estado⟩ ?_
      intro h rest s₁ s₂ _ hs₁ hh
      rcases finalizarSiEsDe_ok hh with ⟨-, rfl⟩ | ⟨-, hfin⟩
      · exact hs₁
      · exact finalizarHilo_exitBien hfin hs₁
    exact ⟨h₁.liberados, h₁.estado⟩

/-- A movement that ends no thread makes none EXIT. -/
theorem Planificacion.Mueve.estado_exit {s s' : Planificacion} {m : Movimiento} {d : Dir}
    (h : s.Mueve m s') (hfin : ∀ hs e, m ≠ .termina hs e) (hd : d ∈ s'.hilos)
    (he : s'.estado d = .exit) : d ∈ s.hilos ∧ s.estado d = .exit := by
  have hotro : ∀ {e : Dir} {f : EstadoProcesoHilo}, f ≠ .exit →
      Function.update s.estado e f d = .exit → s.estado d = .exit := by
    intro e f hf hup
    by_cases hde : d = e
    · subst hde
      rw [Function.update_self] at hup
      exact absurd hup hf
    · rwa [Function.update_of_ne hde] at hup
  cases h with
  | @nace e n hh =>
    refine ⟨?_, hotro (by decide) he⟩
    rcases List.mem_append.mp hd with hd | hd
    · exact hd
    · obtain rfl := List.mem_singleton.mp hd
      have hready : Function.update s.estado d .ready d = .exit := he
      rw [Function.update_self] at hready
      cases hready
  | termina => exact absurd rfl (hfin _ _)
  | nada => exact ⟨hd, he⟩
  | admite => exact ⟨hd, he⟩
  | gira => exact ⟨hd, he⟩
  | encola => exact ⟨hd, hotro (by decide) he⟩
  | bloquea => exact ⟨hd, hotro (by decide) he⟩
  | duerme => exact ⟨hd, hotro (by decide) he⟩
  | despacha => exact ⟨hd, hotro (by decide) he⟩

theorem paso_exitBien (hp : paso ent k p = .ok (k', o)) (hk : ExitBien k) : ExitBien k' := by
  have hr := paso_ok hp
  by_cases hfin : p.puedeTerminar = true
  · cases p with
    | syscall y =>
      cases y with
      | processExit d =>
        rcases processExit_ok hr with ⟨-, rfl⟩ | ⟨-, m, vs, hf⟩
        · exact hk
        · exact finalizarProceso_exitBien hf ⟨hk.liberados, hk.estado⟩
      | threadCancel d =>
        rcases threadCancel_ok hr with ⟨-, m, vs, rfl⟩ | ⟨h, m, vs, -, -, hf⟩
        · exact ⟨hk.liberados, hk.estado⟩
        · exact finalizarHilo_exitBien hf ⟨hk.liberados, hk.estado⟩
      | threadExit d =>
        rcases threadExit_ok hr with ⟨-, m, vs, rfl⟩ | ⟨h, m, vs, -, hf⟩
        · exact ⟨hk.liberados, hk.estado⟩
        · exact finalizarHilo_exitBien hf ⟨hk.liberados, hk.estado⟩
      | _ => cases hfin
    | _ => cases hfin
  · have hm := paso_mueve hp
    have hno : ∀ hs e, k.movimiento ent p ≠ .termina hs e :=
      movimiento_ne_termina ((Bool.not_eq_true _).mp hfin)
    refine ⟨fun d hd => ?_, fun d hd he => ?_⟩
    · have hlib : k'.liberados = k.liberados := hm.liberados_of_ne hno
      exact hm.exit_subset (hk.liberados (hlib ▸ hd))
    · obtain ⟨hviejo, hexit⟩ := hm.estado_exit hno hd he
      exact hm.exit_subset (hk.estado d hviejo hexit)

theorem Planificacion.Mueve.exit_mem {s s' : Planificacion} {m : Movimiento} {d : Dir}
    (h : s.Mueve m s') (hd : d ∈ s'.exit) : d ∈ s.exit ∨ d ∈ m.terminan := by
  cases h with
  | termina hhs => exact (List.mem_append.mp hd).imp_right (hhs d).mp
  | _ => exact .inl hd

/-! ## The invariant -/

/-- The owners of the mutexes and those that wait are unfinished threads of the process `pid`. -/
def Estado.Atendidos (k : Estado) (ids : List (Uint32 × Uint32)) (pid : Uint32)
    (ms : List TMutex) : Prop :=
  ∀ m ∈ ms, (m.tid = sinHilo ∨ k.EnVida ids (pid, m.tid)) ∧
    ∀ t ∈ m.bloqueadosMutex, k.EnVida ids (pid, t)

/-- The mutexes of each live process are owned by its unfinished threads. -/
structure Propiedad (ids : List (Uint32 × Uint32)) (k : Estado) : Prop where
  asignado : k.Asignado
  exitBien : ExitBien k
  /-- No packet reaches a process with the pid of an older one. -/
  sombra : ∀ q ∈ k.listaProcesos,
    k.buscarProceso (k.pcbs q).pid = some q ∨ (k.pcbs q).mutex = []
  mutexes : ∀ q ∈ k.listaProcesos, (k.pcbs q).estado ≠ .exit →
    k.Atendidos ids (k.pcbs q).pid (k.pcbs q).mutex

theorem Propiedad.poseidos (h : Propiedad ids k) : k.Poseidos ids :=
  fun q hq hvivo m hm =>
    have hm' := h.mutexes q hq hvivo m hm
    ⟨hm'.1, fun t ht => (hm'.2 t ht).1⟩

/-- An unfinished thread that a step does not end is unfinished after it. -/
theorem Estado.EnVida.sigue (h : k.EnVida ids id) (hk : Propiedad ids k)
    (hp : paso ent k p = .ok (k', o)) (hno : id ∉ (k.movimiento ent p).terminan.map k.idDe) :
    k'.EnVida (ids ++ (k.movimiento ent p).terminan.map k.idDe) id := by
  obtain ⟨hids, d, hd, hexit, rfl, -⟩ := h
  have hbien := paso_exitBien hp hk.exitBien
  have hexit' : d ∉ k'.listaExit := fun hd' => by
    rcases (paso_mueve hp).exit_mem hd' with hd' | hd'
    · exact hexit hd'
    · exact hno (List.mem_map_of_mem hd')
  have hd' : d ∈ k'.listaTcbs := (paso_mueve hp).hilos_subset hd
  refine ⟨fun hmem => ?_, d, hd', hexit', ?_, fun he => hexit' (hbien.estado d hd' he)⟩
  · exact (List.mem_append.mp hmem).elim hids hno
  · exact (paso_crea hp).idDe hk.asignado hd fun hl => hexit' (hbien.liberados hl)

namespace Estado.Atendidos

variable {ids' : List (Uint32 × Uint32)} {pid : Uint32} {ms : List TMutex}

theorem mono (h : k.Atendidos ids pid ms)
    (hs : ∀ t, k.EnVida ids (pid, t) → k'.EnVida ids' (pid, t)) : k'.Atendidos ids' pid ms :=
  fun m hm => ⟨(h m hm).1.imp_right (hs m.tid), fun t ht => hs t ((h m hm).2 t ht)⟩

theorem crea (h : k.Atendidos ids pid ms) (recurso : Cadena) :
    k.Atendidos ids pid (ms ++ [⟨recurso, sinHilo, []⟩]) := by
  intro m hm
  rcases List.mem_append.mp hm with hm | hm
  · exact h m hm
  · obtain rfl := List.mem_singleton.mp hm
    exact ⟨.inl rfl, fun t ht => absurd ht List.not_mem_nil⟩

/-- A write to the mutex that a search finds, with an owner and waiters that it had already or that
are unfinished. -/
theorem set (h : k.Atendidos ids pid ms) {recurso : Cadena} {i : Nat} {l n : TMutex}
    (hl : buscarMutex ms recurso = some (i, l))
    (hduenio : n.tid = sinHilo ∨ n.tid = l.tid ∨ k.EnVida ids (pid, n.tid))
    (hcola : ∀ t ∈ n.bloqueadosMutex, t ∈ l.bloqueadosMutex ∨ k.EnVida ids (pid, t)) :
    k.Atendidos ids pid (ms.set i n) := by
  intro m hm
  obtain ⟨hviejo, hespera⟩ := h l (mem_of_buscarMutex hl).2
  rcases List.mem_or_eq_of_mem_set hm with hm | rfl
  · exact h m hm
  · refine ⟨?_, fun t ht => (hcola t ht).elim (hespera t) id⟩
    rcases hduenio with hlibre | hmismo | hnuevo
    · exact .inl hlibre
    · rw [hmismo]
      exact hviejo
    · exact .inr hnuevo

/-- The first waiter becomes the owner. -/
theorem pasa (h : k.Atendidos ids pid ms) {recurso : Cadena} {i : Nat} {l : TMutex} {t : Uint32}
    {resto : List Uint32} (hl : buscarMutex ms recurso = some (i, l))
    (hcola : l.bloqueadosMutex = t :: resto) :
    k.Atendidos ids pid (ms.set i { l with tid := t, bloqueadosMutex := resto }) := by
  have hespera := (h l (mem_of_buscarMutex hl).2).2
  rw [hcola] at hespera
  exact h.set hl (.inr (.inr (hespera t List.mem_cons_self)))
    fun u hu => .inr (hespera u (List.mem_cons_of_mem _ hu))

/-- The end of a thread that waits for none of the mutexes. -/
theorem sin (h : k.Atendidos ids pid ms) {tid : Uint32} (htid : tid ∉ enEspera ms)
    (hs : ∀ t, t ≠ tid → k.EnVida ids (pid, t) → k'.EnVida ids' (pid, t)) :
    k'.Atendidos ids' pid (ms.map fun m => m.sin tid) := by
  intro m' hm'
  obtain ⟨m, hm, rfl⟩ := List.mem_map.mp hm'
  have hcola : ∀ t ∈ m.bloqueadosMutex, k'.EnVida ids' (pid, t) := fun t ht =>
    hs t (fun heq => htid (heq ▸ mem_enEspera hm ht)) ((h m hm).2 t ht)
  unfold TMutex.sin
  by_cases hown : m.tid = tid
  · rw [if_pos hown]
    exact ⟨.inl rfl, hcola⟩
  · rw [if_neg hown]
    exact ⟨(h m hm).1.imp_right (hs m.tid hown), hcola⟩

end Estado.Atendidos

/-- The process `q` that a packet reached, after the step. -/
theorem Propiedad.atendidos (h : Propiedad ids k) (hc : k.Cuida ent ids p)
    (hp : paso ent k p = .ok (k', o)) {q : Dir} (hq : q ∈ k.listaProcesos)
    (hbus : k.buscarProceso (k.pcbs q).pid = some q) (hvivo : (k'.pcbs q).estado ≠ .exit) :
    k'.Atendidos (ids ++ (k.movimiento ent p).terminan.map k.idDe) (k.pcbs q).pid
      (k'.pcbs q).mutex := by
  have hms : k.mutexesDe (k.pcbs q).pid = (k.pcbs q).mutex := mutexesDe_of_buscar hbus
  -- The unfinished threads of the process that the step does not end.
  have hsigue : ∀ t, (∀ d ∈ (k.movimiento ent p).terminan, k.idDe d ≠ ((k.pcbs q).pid, t)) →
      k.EnVida ids ((k.pcbs q).pid, t) →
        k'.EnVida (ids ++ (k.movimiento ent p).terminan.map k.idDe) ((k.pcbs q).pid, t) := by
    intro t hno ht
    refine ht.sigue h hp fun hmem => ?_
    obtain ⟨d, hd, hid⟩ := List.mem_map.mp hmem
    exact hno d hd hid
  have hnadie : p.puedeTerminar = false → ∀ t, k.EnVida ids ((k.pcbs q).pid, t) →
      k'.EnVida (ids ++ (k.movimiento ent p).terminan.map k.idDe) ((k.pcbs q).pid, t) := by
    intro hno t
    refine hsigue t fun d hd => ?_
    rw [terminan_nil hno] at hd
    exact absurd hd List.not_mem_nil
  have hat : (k.pcbs q).estado ≠ .exit → k.Atendidos ids (k.pcbs q).pid (k.pcbs q).mutex :=
    h.mutexes q hq
  cases paso_mutexes h.asignado hq hp with
  | igual hno hm he =>
    rw [hm]
    refine (hat (he ▸ hvivo)).mono fun t => hsigue t fun d hd hid => hno d hd ?_
    have hpid : (k.tcbs d).pid = (k.pcbs q).pid := congrArg Prod.fst hid
    rw [hpid, hbus]
  | cierra _ _ he => exact absurd he hvivo
  | @termina _ _ d _ huno hmov hq' hm he =>
    have hpid : (k.pcbs q).pid = (k.tcbs d).pid := pid_of_buscarProceso hq'
    have hd : d ∈ (k.movimiento ent p).terminan := by
      rw [hmov]
      exact List.mem_singleton_self d
    have htid := hc.2 huno d hd
    rw [← hpid, hms] at htid
    rw [hm]
    refine (hat (he ▸ hvivo)).sin htid fun t ht => hsigue t fun e hmem hid => ?_
    rw [hmov] at hmem
    obtain rfl := List.mem_singleton.mp hmem
    exact ht (congrArg Prod.snd hid).symm
  | crea _ hm he =>
    rw [hm]
    exact ((hat (he ▸ hvivo)).crea _).mono (hnadie rfl)
  | @toma d _ _ _ hq' hl _ hm he =>
    have hpid : (k.pcbs q).pid = d.PID := pid_of_buscarProceso hq'
    have hpide : k.EnVida ids ((k.pcbs q).pid, d.TID) := hpid ▸ hc.1 _ rfl
    rw [hm]
    exact .mono ((hat (he ▸ hvivo)).set hl (.inr (.inr hpide)) fun t ht => .inl ht) (hnadie rfl)
  | @espera d _ _ _ hq' hl _ hm he =>
    have hpid : (k.pcbs q).pid = d.PID := pid_of_buscarProceso hq'
    have hpide : k.EnVida ids ((k.pcbs q).pid, d.TID) := hpid ▸ hc.1 _ rfl
    rw [hm]
    refine .mono ((hat (he ▸ hvivo)).set hl (.inr (.inl rfl)) fun t ht => ?_) (hnadie rfl)
    refine (List.mem_append.mp ht).imp_right fun ht => ?_
    rw [List.mem_singleton.mp ht]
    exact hpide
  | suelta _ hl _ _ hm he =>
    rw [hm]
    exact .mono ((hat (he ▸ hvivo)).set hl (.inl rfl) fun t ht => .inl ht) (hnadie rfl)
  | pasa _ hl _ hcola hm he =>
    rw [hm]
    exact ((hat (he ▸ hvivo)).pasa hl hcola).mono (hnadie rfl)
  | pierde _ hl _ hcola _ hm he =>
    rw [hm]
    refine .mono ((hat (he ▸ hvivo)).set hl (.inr (.inl rfl)) fun u hu => .inl ?_) (hnadie rfl)
    rw [hcola]
    exact List.mem_cons_of_mem _ hu

theorem Propiedad.tras_paso (h : Propiedad ids k) (hc : k.Cuida ent ids p)
    (hp : paso ent k p = .ok (k', o)) :
    Propiedad (ids ++ (k.movimiento ent p).terminan.map k.idDe) k' where
  asignado := (paso_crea hp).asignado h.asignado
  exitBien := paso_exitBien hp h.exitBien
  sombra q hq := by
    rcases paso_procesos h.asignado hp hq with ⟨hviejo, hpid, hbus⟩ | hvacio
    · rw [hpid]
      by_cases hencuentra : k.buscarProceso (k.pcbs q).pid = some q
      · exact .inl (hbus _ hencuentra)
      · refine .inr ?_
        rw [(paso_mutexes h.asignado hviejo hp).hallado hencuentra]
        exact (h.sombra q hviejo).resolve_left hencuentra
    · exact .inr hvacio
  mutexes q hq hvivo := by
    rcases paso_procesos h.asignado hp hq with ⟨hviejo, hpid, -⟩ | hvacio
    · rw [hpid]
      by_cases hencuentra : k.buscarProceso (k.pcbs q).pid = some q
      · exact h.atendidos hc hp hviejo hencuentra hvivo
      · rw [(paso_mutexes h.asignado hviejo hp).hallado hencuentra,
          (h.sombra q hviejo).resolve_left hencuentra]
        exact fun m hm => absurd hm List.not_mem_nil
    · rw [hvacio]
      exact fun m hm => absurd hm List.not_mem_nil

/-! ## The runs -/

section Corridas

variable {tcbs : Dir → TCB} {pcbs : Dir → PCB} {uint32s : Dir → Uint32}

theorem propiedad_inicio : Propiedad [] (estadoInicial tcbs pcbs uint32s) where
  asignado := ⟨fun _ hh => absurd hh List.not_mem_nil, fun _ hq => absurd hq List.not_mem_nil⟩
  exitBien := ⟨List.Subset.refl _, fun _ hh => absurd hh List.not_mem_nil⟩
  sombra _ hq := absurd hq List.not_mem_nil
  mutexes _ hq := absurd hq List.not_mem_nil

/-- Along a run in which only unfinished threads ask for mutexes, and no `THREAD_CANCEL` or
`THREAD_EXIT` ends a thread that waits for one, no finished thread owns a mutex or waits for one. -/
theorem poseidos_corrida (ps : List Paso)
    (h : EveryStep (paso ent) (estadoInicial tcbs pcbs uint32s) ps fun pre k p =>
      k.Cuida ent (acabados ent (estadoInicial tcbs pcbs uint32s) pre) p) :
    EveryState (paso ent) (estadoInicial tcbs pcbs uint32s) ps fun pre k =>
      k.Poseidos (acabados ent (estadoInicial tcbs pcbs uint32s) pre) := by
  intro pre k hpre hk
  have hI : Propiedad (acabados ent (estadoInicial tcbs pcbs uint32s) pre) k := by
    refine hk.invariant (I := fun pre k =>
      Propiedad (acabados ent (estadoInicial tcbs pcbs uint32s) pre) k) (h.restrict hpre)
      propiedad_inicio ?_
    intro q k₁ p k₂ o _ hq hI hC hp
    have hacabados : acabados ent (estadoInicial tcbs pcbs uint32s) (q ++ [p]) =
        acabados ent (estadoInicial tcbs pcbs uint32s) q ++
          (k₁.movimiento ent p).terminan.map k₁.idDe := history_snoc hq hp
    rw [hacabados]
    exact hI.tras_paso hC hp
  exact hI.poseidos

end Corridas

/-- The second thread of the process exits while it owns a mutex. -/
def duenioTermina : List Paso :=
  arranque ++ segundoHilo ++
    [.syscall (.mutexCreate ⟨1, 0, ['m']⟩), .cortoPlazo, .syscall (.mutexLock ⟨1, 1, ['m']⟩),
      .syscall (.threadExit ⟨1, 1⟩)]

theorem poseidos_duenioTermina : EveryState (paso entornoFifo) estadoCero duenioTermina
    fun pre k => k.Poseidos (acabados entornoFifo estadoCero pre) :=
  poseidos_corrida _ (EveryStep.of_checkHistory
    (C := fun ids (k : Estado) p => k.Cuida entornoFifo ids p) (by decide +kernel))

/-- A thread exits while it waits for a mutex. -/
theorem cola_con_terminado : ¬ EveryState (paso entornoFifo) estadoCero
    (unoEspera ++ [.syscall (.threadExit ⟨1, 1⟩)])
      fun pre k => k.Poseidos (acabados entornoFifo estadoCero pre) := by
  intro h
  have hrun : (run (paso entornoFifo) estadoCero
      (unoEspera ++ [.syscall (.threadExit ⟨1, 1⟩)])).toOption.map (fun r =>
        (r.1.listaProcesos, (r.1.pcbs 0).estado, (r.1.pcbs 0).pid, (r.1.pcbs 0).mutex)) =
      some ([0], .new, 1, [⟨['m'], 0, [1]⟩]) := by
    decide +kernel
  obtain ⟨k, hk, hg⟩ := reaches_of_map (g := fun k : Estado =>
    (k.listaProcesos, (k.pcbs 0).estado, (k.pcbs 0).pid, (k.pcbs 0).mutex)) hrun
  simp only [Prod.mk.injEq] at hg
  obtain ⟨hprocesos, hestado, hpid, hmutex⟩ := hg
  have hterminado : (1, 1) ∈ acabados entornoFifo estadoCero
      (unoEspera ++ [.syscall (.threadExit ⟨1, 1⟩)]) := by
    decide +kernel
  have hq : 0 ∈ k.listaProcesos := by
    rw [hprocesos]
    exact List.mem_singleton_self 0
  have hvivo : (k.pcbs 0).estado ≠ .exit := by
    rw [hestado]
    decide
  have hm : ⟨['m'], 0, [1]⟩ ∈ (k.pcbs 0).mutex := by
    rw [hmutex]
    exact List.mem_singleton_self _
  have hlibre := (h _ k (List.prefix_refl _) hk 0 hq hvivo _ hm).2 1 (List.mem_singleton_self 1)
  rw [hpid] at hlibre
  exact hlibre hterminado

end LastOfC.Kernel
