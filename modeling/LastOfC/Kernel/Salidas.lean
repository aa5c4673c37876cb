import LastOfC.Kernel.Despacho

/-!
# The packets and `lista_exit`, also where an operation stops

An invariant `I` of the packets sent and of `lista_exit` (`Observa`) does not see most of what the
operations do. Each `_observa` lemma is a walk through a program that shows that it keeps such an
`I`, whether it returns or stops; a program that sends a packet or ends a thread asks that `I`
holds after that too.
-/

namespace LastOfC.Kernel

open Imp

variable {α : Type} {ent : Entorno} {I : Estado → Prop}

/-- `I` looks at the packets sent and at `lista_exit`, and at nothing else. -/
def Observa (I : Estado → Prop) : Prop :=
  ∀ k k' : Estado, k'.enviados = k.enviados → k'.listaExit = k.listaExit → I k → I k'

/-- `I` stays true when a packet with `P` is sent. -/
def TrasEnvio (P : Paquete → Prop) (I : Estado → Prop) : Prop :=
  ∀ (k : Estado) (q : Paquete), P q → I k → I { k with enviados := k.enviados ++ [q] }

/-- `I` stays true when a thread gets into `lista_exit`. -/
def TrasFin (I : Estado → Prop) : Prop := ∀ (k : Estado) (h : Dir), I k → I (k.agregarExit h)

/-! ## Primitives -/

theorem leer_keeps (f : Estado → α) : Keeps I (leer f) := Keeps.get.bind fun k => .pure (f k)

theorem desref_keeps (d : Option Dir) : Keeps I (desref d) := by
  cases d with
  | none => exact .throw _
  | some p => exact .pure p

theorem Observa.modify (hI : Observa I) {f : Estado → Estado}
    (hf : ∀ k, (f k).enviados = k.enviados ∧ (f k).listaExit = k.listaExit) :
    Keeps I (modify f : Op Unit) :=
  Keeps.modify fun k => hI k (f k) (hf k).1 (hf k).2

theorem Observa.semWait (hI : Observa I) : Keeps I semWaitMutex := by
  unfold semWaitMutex
  exact Keeps.get.bind fun k => .ite (.throw _) (hI.modify fun _ => ⟨rfl, rfl⟩)

theorem Observa.semPost (hI : Observa I) : Keeps I semPostMutex :=
  hI.modify fun _ => ⟨rfl, rfl⟩

theorem Observa.conMutex (hI : Observa I) {x : Op α} (hx : Keeps I x) : Keeps I (conMutex x) :=
  hI.semWait.bind fun _ => hx.bind fun a => hI.semPost.bind fun _ => .pure a

theorem Observa.buscar (hI : Observa I) (f : Estado → α) : Keeps I (Kernel.conMutex (leer f)) :=
  hI.conMutex (leer_keeps f)

theorem TrasEnvio.enviar {P : Paquete → Prop} (hE : TrasEnvio P I) {q : Paquete} (hq : P q) :
    Keeps I (enviarPaquete q) :=
  Keeps.modify fun k => hE k q hq

/-! ## The parts of the operations -/

section Partes

theorem copiarTid_observa (hI : Observa I) (n : Uint32) : Keeps I (copiarTid n) := by
  unfold copiarTid
  exact (leer_keeps _).bind fun d => .bind (hI.modify fun _ => ⟨rfl, rfl⟩) fun _ => .pure d

theorem agregarTid_observa (hI : Observa I) (p d : Dir) : Keeps I (agregarTid p d) := by
  unfold agregarTid
  refine (leer_keeps _).bind fun pcb => ?_
  cases pcb.listaTid with
  | none => exact .throw _
  | some tids => exact hI.modify fun _ => ⟨rfl, rfl⟩

theorem iniciarHilo_observa (hI : Observa I) (tid : Uint32) (prioridad : CInt) (pid : Uint32)
    (path : Cadena) : Keeps I (iniciarHilo tid prioridad pid path) := by
  unfold iniciarHilo
  exact (leer_keeps _).bind fun d => .bind (hI.modify fun _ => ⟨rfl, rfl⟩) fun _ => .pure d

theorem popColaNew_observa (hI : Observa I) : Keeps I popColaNew := by
  unfold popColaNew
  refine Keeps.get.bind fun k => ?_
  cases k.colaNew with
  | nil => exact .pure none
  | cons p resto => exact .bind (hI.modify fun _ => ⟨rfl, rfl⟩) fun _ => .pure (some p)

theorem crearProceso_observa (hI : Observa I) (tam : CInt) (path : Cadena) (prioridad : CInt) :
    Keeps I (crearProceso tam path prioridad) := by
  unfold crearProceso
  refine (leer_keeps _).bind fun p => .bind (hI.modify fun _ => ⟨rfl, rfl⟩) fun _ => ?_
  exact hI.conMutex (hI.modify fun _ => ⟨rfl, rfl⟩)

theorem confirmacionCrearHilo_observa (hI : Observa I) (pid tid : Uint32) :
    Keeps I (confirmacionCrearHilo pid tid) := by
  unfold confirmacionCrearHilo
  refine (leer_keeps _).bind fun hilo => ?_
  cases hilo with
  | none => exact .pure ()
  | some h => exact hI.conMutex (hI.modify fun _ => ⟨rfl, rfl⟩)

theorem desbloquearDesde_observa (hI : Observa I) (h : Dir) (n i : Nat) :
    Keeps I (desbloquearDesde h n i) := by
  induction n generalizing i with
  | zero => exact .pure ()
  | succ n ih =>
    unfold desbloquearDesde
    refine Keeps.get.bind fun k => ?_
    cases k.listaBlocked[i]? with
    | none => exact .pure ()
    | some b =>
      refine .ite ?_ (ih (i + 1))
      refine .bind (hI.modify fun _ => ⟨rfl, rfl⟩) fun _ => ?_
      refine .bind (hI.conMutex (hI.modify fun _ => ⟨rfl, rfl⟩)) fun _ => ?_
      exact .bind (hI.modify fun _ => ⟨rfl, rfl⟩) fun _ => ih i

theorem desbloquearHilosPorTid_observa (hI : Observa I) (h : Dir) :
    Keeps I (desbloquearHilosPorTid h) := by
  unfold desbloquearHilosPorTid
  exact (leer_keeps _).bind fun n => desbloquearDesde_observa hI h n 0

theorem Observa.modPcb (hI : Observa I) (k : Estado) (p : Dir) (f : PCB → PCB) (hk : I k) :
    I (k.modPcb p f) :=
  hI k _ rfl rfl hk

/-- `quitarTid` writes to a PCB only. -/
theorem quitarTid_keeps (hI : ∀ k p f, I k → I (k.modPcb p f)) (p : Dir) (tid : Uint32) :
    Keeps I (quitarTid p tid) := by
  unfold quitarTid
  refine (leer_keeps _).bind fun pcb => ?_
  cases pcb.listaTid with
  | none => exact .throw _
  | some tids => exact .modify fun k => hI k p _

/-- The loop over the mutexes writes to a PCB only. -/
theorem liberarMutexs_keeps (hI : ∀ k p f, I k → I (k.modPcb p f)) (p : Dir) (tid : Uint32)
    (is : List Nat) : Keeps I (each (liberarMutex p tid) is) := by
  refine Keeps.each fun i _ => ?_
  unfold liberarMutex
  refine (leer_keeps _).bind fun pcb => ?_
  cases pcb.mutex[i]? with
  | none => exact .pure ()
  | some l =>
    refine .ite ?_ (.pure ())
    cases l.bloqueadosMutex with
    | nil => exact .modify fun k => hI k p _
    | cons t resto => exact .throw _

theorem liberar_observa (hI : Observa I) (h : Dir) : Keeps I (liberar ent h) := by
  unfold liberar
  exact Keeps.get.bind fun k => .ite (.throw _) (hI.modify fun _ => ⟨rfl, rfl⟩)

theorem cerrarPcb_observa (hI : Observa I) (p : Dir) : Keeps I (cerrarPcb p) := by
  unfold cerrarPcb
  refine (leer_keeps _).bind fun pcb => ?_
  cases pcb.listaTid with
  | none => exact .throw _
  | some tids => exact hI.modify fun _ => ⟨rfl, rfl⟩

theorem informarAMemoriaFinHilo_observa {P : Paquete → Prop} (hE : TrasEnvio P I)
    (hP : ∀ b, P (.finalizarHilo b)) (h : Dir) : Keeps I (informarAMemoriaFinHilo h) :=
  (leer_keeps _).bind fun _ => hE.enviar (hP _)

/-- `finalizar_hilo` sends `FINALIZAR_HILO` only. -/
theorem finalizarHilo_observa {P : Paquete → Prop} (hI : Observa I) (hE : TrasEnvio P I)
    (hX : TrasFin I) (hP : ∀ b, P (.finalizarHilo b)) (h : Dir) :
    Keeps I (finalizarHilo ent h) := by
  unfold finalizarHilo
  refine .bind (hI.modify fun _ => ⟨rfl, rfl⟩) fun _ => ?_
  refine .bind (hI.conMutex (Keeps.modify fun k => hX k h)) fun _ => ?_
  refine (leer_keeps _).bind fun t => (hI.buscar _).bind fun proceso => ?_
  cases proceso with
  | none => exact .pure ()
  | some p =>
    refine (quitarTid_keeps hI.modPcb p t.tid).bind fun _ => (leer_keeps _).bind fun n => ?_
    refine (liberarMutexs_keeps hI.modPcb p t.tid _).bind fun _ => ?_
    refine (informarAMemoriaFinHilo_observa hE hP h).bind fun _ => ?_
    exact (desbloquearHilosPorTid_observa hI h).bind fun _ => liberar_observa hI h

theorem crearHilo_observa {P : Paquete → Prop} (hI : Observa I) (hE : TrasEnvio P I)
    (hP : ∀ d, P (.hiloReady d)) (pid : Uint32) : Keeps I (crearHilo pid) := by
  unfold crearHilo
  refine (hI.buscar _).bind fun proceso => (desref_keeps proceso).bind fun p => ?_
  refine (leer_keeps _).bind fun tidMain => (copiarTid_observa hI tidMain).bind fun d => ?_
  refine (hI.conMutex (agregarTid_observa hI p d)).bind fun _ => ?_
  refine (popColaNew_observa hI).bind fun a => (desref_keeps a).bind fun q => ?_
  refine (leer_keeps _).bind fun pcb => (iniciarHilo_observa hI _ _ _ _).bind fun h => ?_
  refine hI.semPost.bind fun _ => .bind (hI.modify fun _ => ⟨rfl, rfl⟩) fun _ => ?_
  exact hI.semPost.bind fun _ => (leer_keeps _).bind fun t => hE.enviar (hP _)

end Partes

/-! ## The syscalls that end no thread -/

section Syscalls

variable {P : Paquete → Prop}

theorem threadCreate_observa (hI : Observa I) (hE : TrasEnvio P I) (hP : ∀ d, P (.hiloReady d))
    (d : TThreadCreate) : Keeps I (threadCreate d) := by
  unfold threadCreate
  refine (hI.buscar _).bind fun proceso => ?_
  cases proceso with
  | none => exact .pure ()
  | some p =>
    refine .bind (hI.modify fun _ => ⟨rfl, rfl⟩) fun _ => (leer_keeps _).bind fun tid => ?_
    refine .bind (hI.modify fun _ => ⟨rfl, rfl⟩) fun _ => ?_
    refine (copiarTid_observa hI tid).bind fun c => (agregarTid_observa hI p c).bind fun _ => ?_
    refine (iniciarHilo_observa hI _ _ _ _).bind fun h => hI.semPost.bind fun _ => ?_
    refine .bind (hI.modify fun _ => ⟨rfl, rfl⟩) fun _ => hI.semPost.bind fun _ => ?_
    exact (leer_keeps _).bind fun t => hE.enviar (hP _)

theorem threadJoin_observa (hI : Observa I) (d : TThreadJoinYCancel) : Keeps I (threadJoin d) := by
  unfold threadJoin
  refine (hI.buscar _).bind fun a => (hI.buscar _).bind fun b => Keeps.get.bind fun k => ?_
  refine .ite ((desref_keeps a).bind fun h => ?_) ((desref_keeps a).bind fun h => ?_)
  · exact .bind (hI.modify fun _ => ⟨rfl, rfl⟩) fun _ => hI.modify fun _ => ⟨rfl, rfl⟩
  · refine .bind (hI.modify fun _ => ⟨rfl, rfl⟩) fun _ => ?_
    refine .bind (hI.modify fun _ => ⟨rfl, rfl⟩) fun _ => ?_
    exact hI.conMutex (hI.modify fun _ => ⟨rfl, rfl⟩)

theorem mutexCreate_observa (hI : Observa I) (d : TMutexTodos) : Keeps I (mutexCreate d) := by
  unfold mutexCreate
  refine (hI.buscar _).bind fun a => (desref_keeps a).bind fun p => ?_
  exact hI.modify fun _ => ⟨rfl, rfl⟩

theorem mutexLock_observa (hI : Observa I) (d : TMutexTodos) : Keeps I (mutexLock d) := by
  unfold mutexLock
  refine (hI.buscar _).bind fun a => (hI.buscar _).bind fun b => ?_
  refine (desref_keeps a).bind fun p => (leer_keeps _).bind fun pcb => ?_
  cases buscarMutex pcb.mutex d.recurso with
  | none => exact .throw _
  | some il =>
    refine .ite (hI.modify fun _ => ⟨rfl, rfl⟩) ?_
    refine .bind (hI.modify fun _ => ⟨rfl, rfl⟩) fun _ => (desref_keeps b).bind fun h => ?_
    refine .bind (hI.modify fun _ => ⟨rfl, rfl⟩) fun _ => ?_
    refine .bind (hI.modify fun _ => ⟨rfl, rfl⟩) fun _ => ?_
    exact hI.conMutex (hI.modify fun _ => ⟨rfl, rfl⟩)

theorem mutexUnlock_observa (hI : Observa I) (d : TMutexTodos) : Keeps I (mutexUnlock d) := by
  unfold mutexUnlock
  refine (hI.buscar _).bind fun a => (desref_keeps a).bind fun p => ?_
  refine (leer_keeps _).bind fun pcb => ?_
  cases buscarMutex pcb.mutex d.recurso with
  | none => exact .throw _
  | some il =>
    obtain ⟨i, l⟩ := il
    refine .ite ?_ (.pure ())
    cases l.bloqueadosMutex with
    | nil => exact hI.modify fun _ => ⟨rfl, rfl⟩
    | cons t resto =>
      refine .bind (hI.modify fun _ => ⟨rfl, rfl⟩) fun _ => (hI.buscar _).bind fun b => ?_
      cases b with
      | none => exact .pure ()
      | some h =>
        refine .bind (hI.modify fun _ => ⟨rfl, rfl⟩) fun _ => (leer_keeps _).bind fun th => ?_
        refine .bind (hI.modify fun _ => ⟨rfl, rfl⟩) fun _ => ?_
        exact hI.modify fun _ => ⟨rfl, rfl⟩

theorem dumpMemory_observa (hI : Observa I) (hE : TrasEnvio P I) (hP : ∀ d, P (.dumpMemory d))
    (d : TDatosEsenciales) : Keeps I (dumpMemory d) := by
  unfold dumpMemory
  refine (hE.enviar (hP d)).bind fun _ => (hI.buscar _).bind fun a => ?_
  refine (desref_keeps a).bind fun h => .bind (hI.modify fun _ => ⟨rfl, rfl⟩) fun _ => ?_
  exact hI.conMutex (hI.modify fun _ => ⟨rfl, rfl⟩)

theorem io_observa (hI : Observa I) (d : TIO) : Keeps I (io d) := by
  unfold io
  refine (hI.buscar _).bind fun a => ?_
  cases a with
  | none => exact .pure ()
  | some h =>
    refine .bind (hI.modify fun _ => ⟨rfl, rfl⟩) fun _ => ?_
    refine .bind (hI.conMutex (hI.modify fun _ => ⟨rfl, rfl⟩)) fun _ => ?_
    refine .bind (hI.modify fun _ => ⟨rfl, rfl⟩) fun _ => ?_
    refine .bind (hI.modify fun _ => ⟨rfl, rfl⟩) fun _ => ?_
    exact hI.modify fun _ => ⟨rfl, rfl⟩

/-- A syscall other than the three that end threads. -/
theorem syscall_observa (hI : Observa I) (hE : TrasEnvio P I) (hready : ∀ d, P (.hiloReady d))
    (hdump : ∀ d, P (.dumpMemory d)) {y : Syscall} (hexit : ∀ d, y ≠ .processExit d)
    (hcancel : ∀ d, y ≠ .threadCancel d) (hfin : ∀ d, y ≠ .threadExit d) :
    Keeps I (kernelEscuchaCpuDispatch ent y) := by
  cases y with
  | processCreate d => exact crearProceso_observa hI _ _ _
  | processExit d => exact absurd rfl (hexit d)
  | threadCreate d => exact threadCreate_observa hI hE hready d
  | threadJoin d => exact threadJoin_observa hI d
  | threadCancel d => exact absurd rfl (hcancel d)
  | threadExit d => exact absurd rfl (hfin d)
  | mutexCreate d => exact mutexCreate_observa hI d
  | mutexLock d => exact mutexLock_observa hI d
  | mutexUnlock d => exact mutexUnlock_observa hI d
  | dumpMemory d => exact dumpMemory_observa hI hE hdump d
  | io d => exact io_observa hI d

end Syscalls

/-! ## The syscalls that end one thread -/

section Finales

theorem threadCancel_observa (hI : Observa I) (d : TThreadJoinYCancel)
    (hF : ∀ h, Keeps I (finalizarHilo ent h)) : Keeps I (threadCancel ent d) := by
  unfold threadCancel
  refine (hI.buscar _).bind fun a => ?_
  cases a with
  | none => exact .pure ()
  | some h => exact (leer_keeps _).bind fun t => .ite (.pure ()) (hF h)

theorem threadExit_observa (hI : Observa I) (d : TDatosEsenciales)
    (hF : ∀ h, Keeps I (finalizarHilo ent h)) : Keeps I (threadExit ent d) := by
  unfold threadExit
  refine (hI.buscar _).bind fun a => ?_
  cases a with
  | none => exact .pure ()
  | some h => exact hF h

end Finales

/-! ## The schedulers and the listener of memoria -/

section Otros

variable {P : Paquete → Prop}

theorem sacarReady_observa (hI : Observa I) : Keeps I sacarReady := by
  unfold sacarReady
  refine Keeps.get.bind fun k => ?_
  cases k.listaReady with
  | nil => exact .pure none
  | cons h resto => exact .bind (hI.modify fun _ => ⟨rfl, rfl⟩) fun _ => .pure (some h)

theorem compararTodos_observa (hI : Observa I) (is : List Nat) (menor : Dir × Nat) :
    Keeps I (is.foldlM compararPrioridad menor) := by
  induction is generalizing menor with
  | nil => exact .pure menor
  | cons i is ih =>
    have hcomp : Keeps I (compararPrioridad menor i) :=
      (hI.buscar _).bind fun a => (desref_keeps a).bind fun actual =>
        Keeps.get.bind fun k => .ite (.pure _) (.pure _)
    exact hcomp.bind fun menor' => ih menor'

theorem buscarHiloMenorNroPrioridad_observa (hI : Observa I) :
    Keeps I buscarHiloMenorNroPrioridad := by
  unfold buscarHiloMenorNroPrioridad
  refine (hI.buscar _).bind fun lista => ?_
  cases lista with
  | nil => exact .pure none
  | cons h resto =>
    refine (compararTodos_observa hI _ _).bind fun menor => ?_
    exact .bind (hI.conMutex (hI.modify fun _ => ⟨rfl, rfl⟩)) fun _ => .pure _

theorem planificadorCortoPlazo_observa (hI : Observa I) (hE : TrasEnvio P I)
    (hP : ∀ pid tid, P (.recibirTid pid tid)) : Keeps I (planificadorCortoPlazo ent) := by
  have hejec : ∀ h, Keeps I (ejecutar h) := fun h => by
    unfold ejecutar
    refine .bind (hI.modify fun _ => ⟨rfl, rfl⟩) fun _ => ?_
    refine .bind (hI.modify fun _ => ⟨rfl, rfl⟩) fun _ => ?_
    exact (leer_keeps _).bind fun t => hE.enviar (hP _ _)
  unfold planificadorCortoPlazo
  refine Keeps.get.bind fun k => .ite (.throw _) ?_
  refine .bind (hI.modify fun _ => ⟨rfl, rfl⟩) fun _ => ?_
  cases ent.algoritmoPlanificacion with
  | fifo => exact (sacarReady_observa hI).bind fun a => (desref_keeps a).bind fun h => hejec h
  | prioridades =>
    exact (buscarHiloMenorNroPrioridad_observa hI).bind fun a =>
      (desref_keeps a).bind fun h => hejec h
  | otro => exact .pure ()

theorem iniciarProceso_observa (hI : Observa I) (hE : TrasEnvio P I)
    (hP : ∀ pid tam, P (.asignarMemoria pid tam)) : Keeps I iniciarProceso := by
  unfold iniciarProceso
  refine Keeps.get.bind fun k => .bind (hI.modify fun _ => ⟨rfl, rfl⟩) fun _ => ?_
  exact (leer_keeps _).bind fun pcb => hE.enviar (hP _ _)

theorem planificadorDeLargoPlazo_observa (hI : Observa I) (hE : TrasEnvio P I)
    (hP : ∀ pid tam, P (.asignarMemoria pid tam)) : Keeps I planificadorDeLargoPlazo := by
  unfold planificadorDeLargoPlazo
  refine Keeps.get.bind fun k => .ite (.throw _) ?_
  exact .bind (hI.modify fun _ => ⟨rfl, rfl⟩) fun _ => iniciarProceso_observa hI hE hP

theorem kernelEscuchaMemoria_observa (hI : Observa I) (hE : TrasEnvio P I)
    (hP : ∀ d, P (.hiloReady d)) (m : MensajeMemoria) : Keeps I (kernelEscuchaMemoria m) := by
  cases m with
  | confirmarEspacioProceso d =>
    refine .ite (.bind (crearHilo_observa hI hE hP d.pid) fun _ => ?_) ?_
    · exact hI.modify fun _ => ⟨rfl, rfl⟩
    · exact hI.modify fun _ => ⟨rfl, rfl⟩
  | confirmarCreacionHilo d =>
    refine .ite (.bind (confirmacionCrearHilo_observa hI d.pid d.tid) fun _ => ?_) (.pure ())
    exact hI.modify fun _ => ⟨rfl, rfl⟩
  | confirmarDumpMemory => exact .pure ()

end Otros

end LastOfC.Kernel
