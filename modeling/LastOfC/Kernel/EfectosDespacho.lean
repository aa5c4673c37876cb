import LastOfC.Kernel.Efectos

/-!
# What each syscall, scheduler iteration and message of memoria does when it ends

The `_ok` lemmas of `kernel_escucha_cpu_dispatch.c`, `planificadores.c` and
`kernel_escucha_memoria.c`, from those of the functions they call.
-/

namespace LastOfC.Kernel

open Imp KeyedList

variable {ent : Entorno} {k k' : Estado}

/-! ## Syscalls -/

theorem processExit_ok {d : TDatosEsenciales} (h : (processExit ent d).run k = .ok () k') :
    (d.tidInv ≠ 0 ∧ k' = k) ∨
      d.tidInv = 0 ∧ ∃ m vs, (finalizarProceso ent (k.buscarProceso d.pidInv)).run
        (k.conCerrojo m vs) = .ok () k' := by
  unfold processExit at h
  rcases ite_ok.mp h with ⟨htid, h⟩ | ⟨htid, h⟩
  · obtain ⟨pcb, k₁, hb, h⟩ := bind_ok.mp h
    obtain ⟨rfl, m, vs, rfl⟩ := buscarProceso_ok hb
    exact .inr ⟨htid, m, vs, h⟩
  · obtain ⟨-, rfl⟩ := pure_ok.mp h
    exact .inl ⟨htid, rfl⟩

/-- `THREAD_CREATE` gives the new thread the tid `tid_contador + 1`, and adds 2 to the counter. -/
theorem threadCreate_ok {d : TThreadCreate} (h : (threadCreate d).run k = .ok () k') :
    (k.buscarProceso d.PID = none ∧ ∃ m vs, k' = k.conCerrojo m vs) ∨
      ∃ p tids m vs, k.buscarProceso d.PID = some p ∧ (k.pcbs p).listaTid = some tids ∧
        k' = { (k.modPcb p fun q =>
            { q with
              tidContador := q.tidContador + 1 + 1
              listaTid := some (tids ++ [.bloque k.proximo]) }).nuevoHilo (k.proximo + 1) d.PID
              ((k.pcbs p).tidContador + 1) d.prioridadH d.nombreArchT with
          proximo := k.proximo + 2
          uint32s := Function.update k.uint32s k.proximo ((k.pcbs p).tidContador + 1)
          mutex := m
          valoresMutex := vs } := by
  unfold threadCreate at h
  obtain ⟨pcbBuscado, k₁, hb, h⟩ := bind_ok.mp h
  obtain ⟨hp, m₁, vs₁, rfl⟩ := buscarProceso_ok hb
  cases hbus : k.buscarProceso d.PID with
  | none =>
    simp only [hp, hbus] at h
    obtain ⟨-, rfl⟩ := pure_ok.mp h
    exact .inl ⟨rfl, m₁, vs₁, rfl⟩
  | some p =>
    simp only [hp, hbus] at h
    obtain ⟨_, k₂, hm, h⟩ := bind_ok.mp h
    obtain rfl := modify_ok.mp hm
    obtain ⟨nuevoTid, k₃, hl, h⟩ := bind_ok.mp h
    obtain ⟨rfl, rfl⟩ := leer_ok.mp hl
    obtain ⟨_, k₄, hm', h⟩ := bind_ok.mp h
    obtain rfl := modify_ok.mp hm'
    obtain ⟨tidCopia, k₅, hc, h⟩ := bind_ok.mp h
    obtain ⟨rfl, rfl⟩ := copiarTid_ok hc
    obtain ⟨_, k₆, ha, h⟩ := bind_ok.mp h
    obtain ⟨tids, ht, rfl⟩ := agregarTid_ok ha
    obtain ⟨hilo, k₇, hi, h⟩ := bind_ok.mp h
    obtain ⟨rfl, rfl⟩ := iniciarHilo_ok hi
    obtain ⟨_, k₈, hs, h⟩ := bind_ok.mp h
    obtain ⟨m₂, vs₂, rfl⟩ := semPostMutex_ok hs
    obtain ⟨_, k₉, hm₂, h⟩ := bind_ok.mp h
    obtain rfl := modify_ok.mp hm₂
    obtain ⟨_, k₁₀, hs', h⟩ := bind_ok.mp h
    obtain ⟨m₃, vs₃, rfl⟩ := semPostMutex_ok hs'
    obtain rfl := enviarAMemoria_ok h
    have htids : (k.pcbs p).listaTid = some tids := by
      simpa [Estado.modPcb, Estado.conCerrojo] using ht
    refine .inr ⟨p, tids, m₃, vs₃, rfl, htids, ?_⟩
    simp [Estado.conCerrojo, Estado.modPcb, Estado.agregarTcb, Estado.nuevoHilo]

/-- The thread `h` waits, and stands last in `lista_blocked`. -/
def Estado.bloquear (k : Estado) (h : Dir) : Estado :=
  (k.setEstado h .blocked).agregarBlocked h

/-- `h->tid_que_lo_bloqueo = tid`. -/
def Estado.setTidQueLoBloqueo (k : Estado) (h : Dir) (tid : Uint32) : Estado :=
  k.modTcb h fun t => { t with tidQueLoBloqueo := tid }

/-- The thread `h` is ready, and stands last in `lista_ready`. -/
def Estado.encolar (k : Estado) (h : Dir) : Estado :=
  (k.setEstado h .ready).agregarReady h

theorem threadJoin_ok {d : TThreadJoinYCancel} (hr : (threadJoin d).run k = .ok () k') :
    ∃ h m vs, k.buscarTcbs d.TID d.PID = some h ∧
      ((k.terminado (k.buscarTcbs d.tid d.PID) = true ∧ k' = (k.encolar h).conCerrojo m vs) ∨
        (k.terminado (k.buscarTcbs d.tid d.PID) = false ∧
          k' = ((k.setTidQueLoBloqueo h d.TID).bloquear h).conCerrojo m vs)) := by
  unfold threadJoin at hr
  obtain ⟨a, k₁, ha, hr⟩ := bind_ok.mp hr
  obtain ⟨rfl, m₁, vs₁, rfl⟩ := buscarTcbs_ok ha
  obtain ⟨b, k₂, hb, hr⟩ := bind_ok.mp hr
  obtain ⟨rfl, m₂, vs₂, rfl⟩ := buscarTcbs_ok hb
  obtain ⟨k₃, k₄, hg, hr⟩ := bind_ok.mp hr
  obtain ⟨rfl, rfl⟩ := get_ok.mp hg
  rcases ite_ok.mp hr with ⟨hfin, hr⟩ | ⟨hfin, hr⟩
  · obtain ⟨h, k₅, hd, hr⟩ := bind_ok.mp hr
    obtain ⟨hbus, rfl⟩ := desref_ok.mp hd
    obtain ⟨_, k₆, hm, hr⟩ := bind_ok.mp hr
    obtain rfl := modify_ok.mp hm
    obtain rfl := modify_ok.mp hr
    exact ⟨h, m₂, vs₂, hbus, .inl ⟨hfin, rfl⟩⟩
  · obtain ⟨h, k₅, hd, hr⟩ := bind_ok.mp hr
    obtain ⟨hbus, rfl⟩ := desref_ok.mp hd
    obtain ⟨_, k₆, hm, hr⟩ := bind_ok.mp hr
    obtain rfl := modify_ok.mp hm
    obtain ⟨_, k₇, hm', hr⟩ := bind_ok.mp hr
    obtain rfl := modify_ok.mp hm'
    obtain ⟨m₃, vs₃, m₄, vs₄, rfl⟩ := conMutex_modify_ok hr
    refine ⟨h, m₄, vs₄, hbus, .inr ⟨(Bool.not_eq_true _).mp hfin, ?_⟩⟩
    simp [Estado.bloquear, Estado.setTidQueLoBloqueo, Estado.setEstado, Estado.modTcb,
      Estado.agregarBlocked, Estado.conCerrojo]

/-- A handler that looks a thread up, and leaves if there is none. -/
theorem hallado_ok {tid pid : Uint32} {f : Option Dir → Op Unit} (hnada : f none = pure ())
    (hr : (conMutex (leer (·.buscarTcbs tid pid)) >>= f).run k = .ok () k') :
    (k.buscarTcbs tid pid = none ∧ ∃ m vs, k' = k.conCerrojo m vs) ∨
      ∃ h m vs, k.buscarTcbs tid pid = some h ∧
        (f (some h)).run (k.conCerrojo m vs) = .ok () k' := by
  obtain ⟨a, k₁, ha, hr⟩ := bind_ok.mp hr
  obtain ⟨rfl, m, vs, rfl⟩ := buscarTcbs_ok ha
  cases hb : k.buscarTcbs tid pid with
  | none =>
    rw [hb, hnada] at hr
    obtain ⟨-, rfl⟩ := pure_ok.mp hr
    exact .inl ⟨rfl, m, vs, rfl⟩
  | some h =>
    rw [hb] at hr
    exact .inr ⟨h, m, vs, rfl, hr⟩

theorem threadCancel_ok {d : TThreadJoinYCancel} (hr : (threadCancel ent d).run k = .ok () k') :
    (k.terminado (k.buscarTcbs d.TID d.PID) = true ∧ ∃ m vs, k' = k.conCerrojo m vs) ∨
      ∃ h m vs, k.buscarTcbs d.TID d.PID = some h ∧ (k.tcbs h).estadoHilo ≠ .exit ∧
        (finalizarHilo ent h).run (k.conCerrojo m vs) = .ok () k' := by
  unfold threadCancel at hr
  rcases hallado_ok rfl hr with ⟨hb, m, vs, rfl⟩ | ⟨h, m, vs, hb, hr⟩
  · exact .inl ⟨by rw [hb]; rfl, m, vs, rfl⟩
  · obtain ⟨t, k₂, hl, hr⟩ := bind_ok.mp hr
    obtain ⟨rfl, rfl⟩ := leer_ok.mp hl
    rcases ite_ok.mp hr with ⟨hex, hr⟩ | ⟨hex, hr⟩
    · obtain ⟨-, rfl⟩ := pure_ok.mp hr
      exact .inl ⟨by rw [hb]; exact decide_eq_true hex, m, vs, rfl⟩
    · exact .inr ⟨h, m, vs, hb, hex, hr⟩

theorem threadExit_ok {d : TDatosEsenciales} (hr : (threadExit ent d).run k = .ok () k') :
    (k.buscarTcbs d.tidInv d.pidInv = none ∧ ∃ m vs, k' = k.conCerrojo m vs) ∨
      ∃ h m vs, k.buscarTcbs d.tidInv d.pidInv = some h ∧
        (finalizarHilo ent h).run (k.conCerrojo m vs) = .ok () k' := by
  unfold threadExit at hr
  exact hallado_ok rfl hr

theorem mutexCreate_ok {d : TMutexTodos} (h : (mutexCreate d).run k = .ok () k') :
    ∃ p m vs, k.buscarProceso d.PID = some p ∧
      k' = (k.modPcb p fun q =>
        { q with mutex := q.mutex ++ [⟨d.recurso, sinHilo, []⟩] }).conCerrojo
        m vs := by
  unfold mutexCreate at h
  obtain ⟨a, k₁, hb, h⟩ := bind_ok.mp h
  obtain ⟨hbus, m, vs, rfl⟩ := buscarProceso_ok hb
  obtain ⟨p, k₂, hd, h⟩ := bind_ok.mp h
  obtain ⟨rfl, rfl⟩ := desref_ok.mp hd
  obtain rfl := modify_ok.mp h
  exact ⟨p, m, vs, hbus.symm, rfl⟩

/-- `MUTEX_LOCK`: the mutex at position `i` of the process `p` is free, or the caller waits. -/
theorem mutexLock_ok {d : TMutexTodos} (hr : (mutexLock d).run k = .ok () k') :
    ∃ p i l m vs, k.buscarProceso d.PID = some p ∧
      buscarMutex (k.pcbs p).mutex d.recurso = some (i, l) ∧
      ((l.tid = sinHilo ∧ k' = (k.setMutex p i { l with tid := d.TID }).conCerrojo m vs) ∨
        ∃ h, l.tid ≠ sinHilo ∧ k.buscarTcbs d.TID d.PID = some h ∧
          k' = ((((k.setMutex p i { l with
            bloqueadosMutex := l.bloqueadosMutex ++ [d.TID] }).setTidQueLoBloqueo h d.TID).bloquear
              h).conCerrojo m vs)) := by
  unfold mutexLock at hr
  obtain ⟨a, k₁, ha, hr⟩ := bind_ok.mp hr
  obtain ⟨hbusp, m₁, vs₁, rfl⟩ := buscarProceso_ok ha
  obtain ⟨b, k₂, hb, hr⟩ := bind_ok.mp hr
  obtain ⟨hbust, m₂, vs₂, rfl⟩ := buscarTcbs_ok hb
  obtain ⟨p, k₃, hd, hr⟩ := bind_ok.mp hr
  obtain ⟨rfl, rfl⟩ := desref_ok.mp hd
  obtain ⟨pcb, k₄, hl, hr⟩ := bind_ok.mp hr
  obtain ⟨rfl, rfl⟩ := leer_ok.mp hl
  have hpcb : (((k.conCerrojo m₁ vs₁).conCerrojo m₂ vs₂).pcbs p).mutex = (k.pcbs p).mutex := rfl
  rw [hpcb] at hr
  cases hm : buscarMutex (k.pcbs p).mutex d.recurso with
  | none =>
    simp only [hm] at hr
    exact absurd hr throw_ok
  | some il =>
    obtain ⟨i, l⟩ := il
    simp only [hm] at hr
    rcases ite_ok.mp hr with ⟨hlib, hr⟩ | ⟨hlib, hr⟩
    · obtain rfl := modify_ok.mp hr
      exact ⟨p, i, l, m₂, vs₂, hbusp.symm, hm, .inl ⟨hlib, rfl⟩⟩
    · obtain ⟨_, k₅, hs, hr⟩ := bind_ok.mp hr
      obtain rfl := modify_ok.mp hs
      obtain ⟨h, k₆, hd', hr⟩ := bind_ok.mp hr
      obtain ⟨rfl, rfl⟩ := desref_ok.mp hd'
      obtain ⟨_, k₇, he, hr⟩ := bind_ok.mp hr
      obtain rfl := modify_ok.mp he
      obtain ⟨_, k₈, ht, hr⟩ := bind_ok.mp hr
      obtain rfl := modify_ok.mp ht
      obtain ⟨m₃, vs₃, m₄, vs₄, rfl⟩ := conMutex_modify_ok hr
      refine ⟨p, i, l, m₄, vs₄, hbusp.symm, hm, .inr ⟨h, hlib, hbust.symm, ?_⟩⟩
      simp [Estado.bloquear, Estado.setTidQueLoBloqueo, Estado.setEstado, Estado.modTcb,
        Estado.agregarBlocked, Estado.conCerrojo, Estado.setMutex, Estado.modPcb]

/-- `MUTEX_UNLOCK`: the caller does not own the mutex, or nobody waits, or the first waiter is
unknown, or it gets the mutex. -/
theorem mutexUnlock_ok {d : TMutexTodos} (hr : (mutexUnlock d).run k = .ok () k') :
    ∃ p i l m vs, k.buscarProceso d.PID = some p ∧
      buscarMutex (k.pcbs p).mutex d.recurso = some (i, l) ∧
      ((l.tid ≠ d.TID ∧ k' = k.conCerrojo m vs) ∨
        (l.tid = d.TID ∧ l.bloqueadosMutex = [] ∧
          k' = (k.setMutex p i { l with tid := sinHilo }).conCerrojo m vs) ∨
        ∃ t resto, l.tid = d.TID ∧ l.bloqueadosMutex = t :: resto ∧
          ((k.buscarTcbs t d.PID = none ∧
            k' = (k.setMutex p i { l with bloqueadosMutex := resto }).conCerrojo m vs) ∨
          ∃ h, k.buscarTcbs t d.PID = some h ∧
            k' = ((k.setMutex p i { l with tid := t, bloqueadosMutex := resto }).encolar
              h).conCerrojo m vs)) := by
  unfold mutexUnlock at hr
  obtain ⟨a, k₁, ha, hr⟩ := bind_ok.mp hr
  obtain ⟨hbusp, m₁, vs₁, rfl⟩ := buscarProceso_ok ha
  obtain ⟨p, k₂, hd, hr⟩ := bind_ok.mp hr
  obtain ⟨rfl, rfl⟩ := desref_ok.mp hd
  obtain ⟨pcb, k₃, hl, hr⟩ := bind_ok.mp hr
  obtain ⟨rfl, rfl⟩ := leer_ok.mp hl
  have hpcb : ((k.conCerrojo m₁ vs₁).pcbs p).mutex = (k.pcbs p).mutex := rfl
  rw [hpcb] at hr
  cases hm : buscarMutex (k.pcbs p).mutex d.recurso with
  | none =>
    simp only [hm] at hr
    exact absurd hr throw_ok
  | some il =>
    obtain ⟨i, l⟩ := il
    simp only [hm] at hr
    rcases ite_ok.mp hr with ⟨hown, hr⟩ | ⟨hown, hr⟩
    · cases hq : l.bloqueadosMutex with
      | nil =>
        simp only [hq] at hr
        obtain rfl := modify_ok.mp hr
        exact ⟨p, i, l, m₁, vs₁, hbusp.symm, hm, .inr (.inl ⟨hown, hq, by rw [← hq]; rfl⟩)⟩
      | cons t resto =>
        simp only [hq] at hr
        obtain ⟨_, k₄, hs, hr⟩ := bind_ok.mp hr
        obtain rfl := modify_ok.mp hs
        obtain ⟨b, k₅, hb, hr⟩ := bind_ok.mp hr
        obtain ⟨hbust, m₂, vs₂, rfl⟩ := buscarTcbs_ok hb
        have hbus' : b = k.buscarTcbs t d.PID := hbust
        cases hh : k.buscarTcbs t d.PID with
        | none =>
          simp only [hbus', hh] at hr
          obtain ⟨-, rfl⟩ := pure_ok.mp hr
          exact ⟨p, i, l, m₂, vs₂, hbusp.symm, hm,
            .inr (.inr ⟨t, resto, hown, hq, .inl ⟨hh, rfl⟩⟩)⟩
        | some h =>
          simp only [hbus', hh] at hr
          obtain ⟨_, k₆, he, hr⟩ := bind_ok.mp hr
          obtain rfl := modify_ok.mp he
          obtain ⟨th, k₇, hlt, hr⟩ := bind_ok.mp hr
          obtain ⟨rfl, rfl⟩ := leer_ok.mp hlt
          obtain ⟨_, k₈, hs', hr⟩ := bind_ok.mp hr
          obtain rfl := modify_ok.mp hs'
          obtain rfl := modify_ok.mp hr
          refine ⟨p, i, l, m₂, vs₂, hbusp.symm, hm,
            .inr (.inr ⟨t, resto, hown, hq, .inr ⟨h, hh, ?_⟩⟩)⟩
          have htid := (pid_of_buscarTcbs hh).2
          simp [Estado.encolar, Estado.setEstado, Estado.modTcb, Estado.agregarReady,
            Estado.conCerrojo, Estado.setMutex, Estado.modPcb, htid]
    · obtain ⟨-, rfl⟩ := pure_ok.mp hr
      exact ⟨p, i, l, m₁, vs₁, hbusp.symm, hm, .inl ⟨hown, rfl⟩⟩

theorem dumpMemory_ok {d : TDatosEsenciales} (hr : (dumpMemory d).run k = .ok () k') :
    ∃ h m vs, k.buscarTcbs d.tidInv d.pidInv = some h ∧
      k' = { k.bloquear h with
        enviados := k.enviados ++ [.dumpMemory d]
        mutex := m
        valoresMutex := vs } := by
  unfold dumpMemory at hr
  obtain ⟨_, k₁, he, hr⟩ := bind_ok.mp hr
  obtain rfl := enviarPaquete_ok.mp he
  obtain ⟨a, k₂, ha, hr⟩ := bind_ok.mp hr
  obtain ⟨hbus, m, vs, rfl⟩ := buscarTcbs_ok ha
  obtain ⟨h, k₃, hd, hr⟩ := bind_ok.mp hr
  obtain ⟨rfl, rfl⟩ := desref_ok.mp hd
  obtain ⟨_, k₄, hm, hr⟩ := bind_ok.mp hr
  obtain rfl := modify_ok.mp hm
  obtain ⟨m₁, vs₁, m₂, vs₂, rfl⟩ := conMutex_modify_ok hr
  exact ⟨h, m₂, vs₂, hbus.symm, rfl⟩

/-- `IO`: the thread leaves `lista_blocked` again, and stands last in `lista_ready`. -/
theorem io_ok {d : TIO} (hr : (io d).run k = .ok () k') :
    (k.buscarTcbs d.TID d.PID = none ∧ ∃ m vs, k' = k.conCerrojo m vs) ∨
      ∃ h m vs, k.buscarTcbs d.TID d.PID = some h ∧
        k' = { k.encolar h with
          listaBlocked := (k.listaBlocked ++ [h]).erase h
          mutex := m
          valoresMutex := vs } := by
  unfold io at hr
  rcases hallado_ok rfl hr with hnada | ⟨h, m, vs, hb, hr⟩
  · exact .inl hnada
  · obtain ⟨_, k₂, hm, hr⟩ := bind_ok.mp hr
    obtain rfl := modify_ok.mp hm
    obtain ⟨_, k₃, hc, hr⟩ := bind_ok.mp hr
    obtain ⟨m₁, vs₁, m₂, vs₂, rfl⟩ := conMutex_modify_ok hc
    obtain ⟨_, k₄, he, hr⟩ := bind_ok.mp hr
    obtain rfl := modify_ok.mp he
    obtain ⟨_, k₅, hs, hr⟩ := bind_ok.mp hr
    obtain rfl := modify_ok.mp hs
    obtain rfl := modify_ok.mp hr
    refine .inr ⟨h, m₂, vs₂, hb, ?_⟩
    simp [Estado.encolar, Estado.setEstado, Estado.modTcb, Estado.agregarReady,
      Estado.agregarBlocked, Estado.conCerrojo]

/-! ## The schedulers -/

/-- The thread `h` at position `i` of `lista_ready` gets the CPU. -/
def Estado.despachar (k : Estado) (i : Nat) (h : Dir) : Estado :=
  { k.setEstado h .exec with
    listaReady := k.listaReady.eraseIdx i
    colaExec := k.colaExec ++ [h]
    enviados := k.enviados ++ [.recibirTid (k.tcbs h).pid (k.tcbs h).tid] }

theorem ejecutar_ok {h : Dir} (hr : (ejecutar h).run k = .ok () k') :
    k' = { k.setEstado h .exec with
      colaExec := k.colaExec ++ [h]
      enviados := k.enviados ++ [.recibirTid (k.tcbs h).pid (k.tcbs h).tid] } := by
  unfold ejecutar at hr
  obtain ⟨_, k₁, hm, hr⟩ := bind_ok.mp hr
  obtain rfl := modify_ok.mp hm
  obtain ⟨_, k₂, hc, hr⟩ := bind_ok.mp hr
  obtain rfl := modify_ok.mp hc
  obtain ⟨t, k₃, hl, hr⟩ := bind_ok.mp hr
  obtain ⟨rfl, rfl⟩ := leer_ok.mp hl
  obtain rfl := enviarPaquete_ok.mp hr
  simp [Estado.setEstado, Estado.modTcb]

theorem sacarReady_ok {h : Dir} (hr : sacarReady.run k = .ok (some h) k') :
    k.listaReady[0]? = some h ∧ k' = { k with listaReady := k.listaReady.eraseIdx 0 } := by
  unfold sacarReady at hr
  obtain ⟨k₁, k₂, hg, hr⟩ := bind_ok.mp hr
  obtain ⟨rfl, rfl⟩ := get_ok.mp hg
  cases hl : k.listaReady with
  | nil =>
    simp only [hl] at hr
    obtain ⟨hno, -⟩ := pure_ok.mp hr
    exact absurd hno (by simp)
  | cons a resto =>
    simp only [hl] at hr
    obtain ⟨_, k₃, hm, hr⟩ := bind_ok.mp hr
    obtain rfl := modify_ok.mp hm
    obtain ⟨ha, rfl⟩ := pure_ok.mp hr
    obtain rfl := Option.some.inj ha
    exact ⟨rfl, rfl⟩

/-- The thread `h` at position `i` of `lista_ready` has a smaller number than the thread `b` at
position `j`, or the same number and an earlier position. -/
def Estado.Antecede (k : Estado) (i : Nat) (h : Dir) (j : Nat) (b : Dir) : Prop :=
  (k.tcbs h).prioridad.toInt < (k.tcbs b).prioridad.toInt ∨
    (k.tcbs h).prioridad.toInt = (k.tcbs b).prioridad.toInt ∧ i ≤ j

/-- The number of a thread, which the scan compares. -/
def nroPrioridad (tcbs : Dir → TCB) (h : Dir) : Int := (tcbs h).prioridad.toInt

/-- The first of the threads with the smallest number comes before all those compared. -/
theorem antecede_of_least {h b : Dir} {i j n : Nat}
    (hmenor : Least (nroPrioridad k.tcbs) k.listaReady h i n) (hj : j < n)
    (hb : k.listaReady[j]? = some b) : k.Antecede i h j b := by
  rcases lt_or_eq_of_le (hmenor.least j hj b hb) with hlt | heq
  · exact .inl hlt
  · refine .inr ⟨heq, ?_⟩
    by_contra hji
    exact absurd heq (hmenor.first j (not_le.mp hji) b hb).ne

/-- One comparison changes nothing, and compares one position more. -/
theorem compararPrioridad_ok {menor r : Dir × Nat} {i : Nat}
    (hr : (compararPrioridad menor i).run k = .ok r k')
    (hmenor : Least (nroPrioridad k.tcbs) k.listaReady menor.1 menor.2 i) :
    Least (nroPrioridad k.tcbs) k.listaReady r.1 r.2 (i + 1) ∧ ∃ m vs, k' = k.conCerrojo m vs := by
  unfold compararPrioridad at hr
  obtain ⟨a, k₁, ha, hr⟩ := bind_ok.mp hr
  obtain ⟨m, vs, m', vs', rfl, rfl⟩ := conMutex_leer_ok ha
  obtain ⟨actual, k₂, hd, hr⟩ := bind_ok.mp hr
  obtain ⟨hact, rfl⟩ := desref_ok.mp hd
  obtain ⟨k₃, k₄, hg, hr⟩ := bind_ok.mp hr
  obtain ⟨rfl, rfl⟩ := get_ok.mp hg
  have hactual : k.listaReady[i]? = some actual := hact
  rcases ite_ok.mp hr with ⟨hlt, hr⟩ | ⟨hlt, hr⟩
  · obtain ⟨rfl, rfl⟩ := pure_ok.mp hr
    exact ⟨hmenor.take hactual (BitVec.slt_iff_toInt_lt.mp hlt), m', vs', rfl⟩
  · obtain ⟨rfl, rfl⟩ := pure_ok.mp hr
    have hle : nroPrioridad k.tcbs menor.1 ≤ nroPrioridad k.tcbs actual :=
      not_lt.mp fun h => hlt (BitVec.slt_iff_toInt_lt.mpr h)
    exact ⟨hmenor.keep hactual hle, m', vs', rfl⟩

/-- The whole scan from position `i`, with `n` positions to go. -/
theorem compararTodos_ok {i n : Nat} {menor r : Dir × Nat} {m : Nat} {vs : List Nat}
    (hr : ((List.range' i n).foldlM compararPrioridad menor).run (k.conCerrojo m vs) = .ok r k')
    (hmenor : Least (nroPrioridad k.tcbs) k.listaReady menor.1 menor.2 i) :
    Least (nroPrioridad k.tcbs) k.listaReady r.1 r.2 (i + n) ∧
      ∃ m' vs', k' = k.conCerrojo m' vs' := by
  induction n generalizing i menor m vs with
  | zero =>
    obtain ⟨rfl, rfl⟩ := pure_ok.mp hr
    exact ⟨hmenor, m, vs, rfl⟩
  | succ n ih =>
    rw [List.range'_succ, List.foldlM_cons] at hr
    obtain ⟨menor', k₁, hc, hr⟩ := bind_ok.mp hr
    obtain ⟨hmenor', m', vs', rfl⟩ := compararPrioridad_ok hc hmenor
    have hfin := ih hr hmenor'
    rwa [Nat.add_assoc, Nat.add_comm 1 n] at hfin

/-- The search takes out the first of the threads with the smallest number. -/
theorem buscarHiloMenorNroPrioridad_least {h : Dir}
    (hr : buscarHiloMenorNroPrioridad.run k = .ok (some h) k') :
    ∃ i m vs, Least (nroPrioridad k.tcbs) k.listaReady h i k.listaReady.length ∧
      k' = { k with
        listaReady := k.listaReady.eraseIdx i
        mutex := m
        valoresMutex := vs } := by
  unfold buscarHiloMenorNroPrioridad at hr
  obtain ⟨lista, k₁, hl, hr⟩ := bind_ok.mp hr
  obtain ⟨m, vs, m', vs', rfl, rfl⟩ := conMutex_leer_ok hl
  have hlista : (k.conCerrojo m vs).listaReady = k.listaReady := rfl
  rw [hlista] at hr
  cases hready : k.listaReady with
  | nil =>
    simp only [hready] at hr
    obtain ⟨hno, -⟩ := pure_ok.mp hr
    exact absurd hno (by simp)
  | cons a resto =>
    simp only [hready] at hr
    have hprimero : Least (nroPrioridad k.tcbs) k.listaReady a 0 1 := by
      rw [hready]
      exact Least.head a resto
    obtain ⟨menor, k₂, hf, hr⟩ := bind_ok.mp hr
    obtain ⟨hmenor, m₁, vs₁, rfl⟩ := compararTodos_ok hf hprimero
    obtain ⟨_, k₃, hq, hr⟩ := bind_ok.mp hr
    obtain ⟨m₂, vs₂, m₃, vs₃, rfl⟩ := conMutex_modify_ok hq
    obtain ⟨ha, rfl⟩ := pure_ok.mp hr
    obtain rfl := Option.some.inj ha
    have hlargo : 1 + resto.length = k.listaReady.length := by
      rw [hready, List.length_cons, Nat.add_comm]
    rw [hlargo] at hmenor
    rw [← hready]
    exact ⟨menor.2, m₃, vs₃, hmenor, rfl⟩

theorem buscarHiloMenorNroPrioridad_ok {h : Dir}
    (hr : buscarHiloMenorNroPrioridad.run k = .ok (some h) k') :
    ∃ i m vs, k.listaReady[i]? = some h ∧
      (∀ j b, k.listaReady[j]? = some b → k.Antecede i h j b) ∧
      k' = { k with
        listaReady := k.listaReady.eraseIdx i
        mutex := m
        valoresMutex := vs } := by
  obtain ⟨i, m, vs, hmenor, hk⟩ := buscarHiloMenorNroPrioridad_least hr
  refine ⟨i, m, vs, hmenor.get, fun j b hb => ?_, hk⟩
  exact antecede_of_least hmenor (List.getElem?_eq_some_iff.mp hb).1 hb

/-- The thread `h` at position `i` of `lista_ready` is the one that the algorithm of the
configuration chooses. -/
def Estado.Elige (ent : Entorno) (k : Estado) (i : Nat) (h : Dir) : Prop :=
  k.listaReady[i]? = some h ∧
    match ent.algoritmoPlanificacion with
    | .fifo => i = 0
    | .prioridades => ∀ j b, k.listaReady[j]? = some b → k.Antecede i h j b
    | .otro => False

theorem Estado.Elige.ne_otro {i : Nat} {h : Dir} (he : k.Elige ent i h) :
    ent.algoritmoPlanificacion ≠ .otro := by
  intro hotro
  unfold Estado.Elige at he
  rw [hotro] at he
  exact he.2

/-- An iteration of the short-term scheduler dispatches the thread that the algorithm chooses, or
does nothing but the wait where the configuration names no algorithm. -/
theorem planificadorCortoPlazo_ok (hr : (planificadorCortoPlazo ent).run k = .ok () k') :
    0 < k.tcbAPlanificar ∧
      ((ent.algoritmoPlanificacion = .otro ∧
        k' = { k with tcbAPlanificar := k.tcbAPlanificar - 1 }) ∨
      ∃ i h m vs, k.Elige ent i h ∧
        k' = { k.despachar i h with
          tcbAPlanificar := k.tcbAPlanificar - 1
          mutex := m
          valoresMutex := vs }) := by
  unfold planificadorCortoPlazo at hr
  obtain ⟨k₁, k₂, hg, hr⟩ := bind_ok.mp hr
  obtain ⟨rfl, rfl⟩ := get_ok.mp hg
  rcases ite_ok.mp hr with ⟨-, hr⟩ | ⟨hpos, hr⟩
  · exact absurd hr throw_ok
  refine ⟨Nat.pos_of_ne_zero hpos, ?_⟩
  obtain ⟨_, k₃, hm, hr⟩ := bind_ok.mp hr
  obtain rfl := modify_ok.mp hm
  cases halg : ent.algoritmoPlanificacion with
  | fifo =>
    simp only [halg] at hr
    obtain ⟨o, k₄, hs, hr⟩ := bind_ok.mp hr
    obtain ⟨h, k₅, hd, hr⟩ := bind_ok.mp hr
    obtain ⟨rfl, rfl⟩ := desref_ok.mp hd
    obtain ⟨hready, rfl⟩ := sacarReady_ok hs
    obtain rfl := ejecutar_ok hr
    have helige : k.Elige ent 0 h := by
      unfold Estado.Elige
      rw [halg]
      exact ⟨hready, rfl⟩
    exact .inr ⟨0, h, k.mutex, k.valoresMutex, helige, rfl⟩
  | prioridades =>
    simp only [halg] at hr
    obtain ⟨o, k₄, hs, hr⟩ := bind_ok.mp hr
    obtain ⟨h, k₅, hd, hr⟩ := bind_ok.mp hr
    obtain ⟨rfl, rfl⟩ := desref_ok.mp hd
    obtain ⟨i, m, vs, hready, hant, rfl⟩ := buscarHiloMenorNroPrioridad_ok hs
    obtain rfl := ejecutar_ok hr
    have helige : k.Elige ent i h := by
      unfold Estado.Elige
      rw [halg]
      exact ⟨hready, hant⟩
    exact .inr ⟨i, h, m, vs, helige, rfl⟩
  | otro =>
    simp only [halg] at hr
    obtain ⟨-, rfl⟩ := pure_ok.mp hr
    exact .inl ⟨rfl, rfl⟩

theorem planificadorDeLargoPlazo_ok (hr : planificadorDeLargoPlazo.run k = .ok () k') :
    0 < k.semPlaniLargoPlazo ∧
      k' = { k with
        semPlaniLargoPlazo := k.semPlaniLargoPlazo - 1
        proximo := k.proximo + 1
        enviados := k.enviados ++
          [.asignarMemoria (k.pcbs (k.colaNew.headD k.proximo)).pid
            (k.pcbs (k.colaNew.headD k.proximo)).tamProceso] } := by
  unfold planificadorDeLargoPlazo at hr
  obtain ⟨k₁, k₂, hg, hr⟩ := bind_ok.mp hr
  obtain ⟨rfl, rfl⟩ := get_ok.mp hg
  rcases ite_ok.mp hr with ⟨-, hr⟩ | ⟨hpos, hr⟩
  · exact absurd hr throw_ok
  obtain ⟨_, k₃, hm, hr⟩ := bind_ok.mp hr
  obtain rfl := modify_ok.mp hm
  exact ⟨Nat.pos_of_ne_zero hpos, iniciarProceso_ok hr⟩

/-! ## The listener of memoria -/

theorem confirmarEspacioProceso_ok {d : TAsignoMemoria}
    (hr : (confirmarEspacioProceso d).run k = .ok () k') :
    (d.bitConfirmacion ≠ 1 ∧ k' = k.postPlaniLargoPlazo) ∨
      ∃ k₁, d.bitConfirmacion = 1 ∧ (crearHilo d.pid).run k = .ok () k₁ ∧
        k' = k₁.postPlaniLargoPlazo := by
  unfold confirmarEspacioProceso at hr
  rcases ite_ok.mp hr with ⟨hbit, hr⟩ | ⟨hbit, hr⟩
  · obtain ⟨_, k₁, hc, hr⟩ := bind_ok.mp hr
    obtain rfl := modify_ok.mp hr
    exact .inr ⟨k₁, hbit, hc, rfl⟩
  · obtain rfl := modify_ok.mp hr
    exact .inl ⟨hbit, rfl⟩

/-- `CONFIRMAR_CREACION_HILO`: the semaphore is posted also where the thread is unknown. -/
theorem confirmarCreacionHilo_ok {d : TCreacionHilo}
    (hr : (confirmarCreacionHilo d).run k = .ok () k') :
    (d.bitConfirmacion ≠ 1 ∧ k' = k) ∨
      (d.bitConfirmacion = 1 ∧ k.buscarTcbs d.tid d.pid = none ∧ k' = k.postTcbAPlanificar) ∨
      ∃ h m vs, d.bitConfirmacion = 1 ∧ k.buscarTcbs d.tid d.pid = some h ∧
        k' = (k.agregarReady h).postTcbAPlanificar.conCerrojo m vs := by
  unfold confirmarCreacionHilo at hr
  rcases ite_ok.mp hr with ⟨hbit, hr⟩ | ⟨hbit, hr⟩
  · obtain ⟨_, k₁, hc, hr⟩ := bind_ok.mp hr
    obtain rfl := modify_ok.mp hr
    rcases confirmacionCrearHilo_ok hc with ⟨hb, rfl⟩ | ⟨h, m, vs, hb, rfl⟩
    · exact .inr (.inl ⟨hbit, hb, rfl⟩)
    · exact .inr (.inr ⟨h, m, vs, hbit, hb, rfl⟩)
  · obtain ⟨-, rfl⟩ := pure_ok.mp hr
    exact .inl ⟨hbit, rfl⟩

end LastOfC.Kernel
