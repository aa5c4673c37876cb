import LastOfC.Lib.Trace
import LastOfC.Kernel.Operaciones

/-!
# The threads of the kernel (`kernel_escucha_cpu_dispatch.c`, `planificadores.c`,
`kernel_escucha_memoria.c`)

* `Syscall`: a decoded packet of the CPU. `kernelEscuchaCpuDispatch` is the `switch` of the
  dispatch listener, one definition for each case that is not a single call.
* `planificadorCortoPlazo` and `planificadorDeLargoPlazo`: one iteration of each scheduler.
* `MensajeMemoria` and `kernelEscuchaMemoria`: the `switch` of the listener of memoria, without
  the call of `planificador_corto_plazo` that ends the case `CONFIRMAR_CREACION_HILO`, whose
  iterations are steps of their own, and without the log of that case, which reads through the
  uninitialised `datos_proceso_memoria`, as if that read returned. `Sistema.Oyente` has both.
* `Paso` and `paso`: the atomic steps, and `estadoInicial`, the state after `inicializar_kernel`.
  `main` then calls `crear_proceso`, which is also all that `PROCESS_CREATE` does.
-/

namespace LastOfC.Kernel

/-! ## Syscalls -/

inductive Syscall where
  | processCreate (d : TProcessCreate)
  | processExit (d : TDatosEsenciales)
  | threadCreate (d : TThreadCreate)
  | threadJoin (d : TThreadJoinYCancel)
  | threadCancel (d : TThreadJoinYCancel)
  | threadExit (d : TDatosEsenciales)
  | mutexCreate (d : TMutexTodos)
  | mutexLock (d : TMutexTodos)
  | mutexUnlock (d : TMutexTodos)
  | dumpMemory (d : TDatosEsenciales)
  | io (d : TIO)
  deriving DecidableEq, Repr

/-- `case PROCESS_EXIT`. -/
def processExit (ent : Entorno) (d : TDatosEsenciales) : Op Unit :=
  if d.tidInv = 0 then do
    let pcbAfuera ← conMutex (leer (·.buscarProceso d.pidInv))
    finalizarProceso ent pcbAfuera
  else pure ()

/-- `case THREAD_CREATE`. -/
def threadCreate (d : TThreadCreate) : Op Unit := do
  let pcbBuscado ← conMutex (leer (·.buscarProceso d.PID))
  match pcbBuscado with
  | none => pure ()
  | some p =>
    -- `tid_contador++`, and then `nuevo_tid = tid_contador++`.
    modify fun k => k.modPcb p fun q => { q with tidContador := q.tidContador + 1 }
    let nuevoTid ← leer fun k => (k.pcbs p).tidContador
    modify fun k => k.modPcb p fun q => { q with tidContador := q.tidContador + 1 }
    let tidCopia ← copiarTid nuevoTid
    agregarTid p tidCopia
    let h ← iniciarHilo nuevoTid d.prioridadH d.PID d.nombreArchT
    semPostMutex
    modify (·.agregarTcb h)
    semPostMutex
    enviarAMemoria h

/-- `tcb_buscado == NULL || tcb_buscado->estadoHilo == EXIT`. -/
def Estado.terminado (k : Estado) : Option Dir → Bool
  | none => true
  | some h => (k.tcbs h).estadoHilo = .exit

/-- `case THREAD_JOIN`. -/
def threadJoin (d : TThreadJoinYCancel) : Op Unit := do
  let tcbABloquear ← conMutex (leer (·.buscarTcbs d.TID d.PID))
  let tcbBuscado ← conMutex (leer (·.buscarTcbs d.tid d.PID))
  let k ← get
  if k.terminado tcbBuscado then
    let h ← desref tcbABloquear
    modify (·.setEstado h .ready)
    modify (·.agregarReady h)
  else
    let h ← desref tcbABloquear
    modify (·.setEstado h .blocked)
    modify fun k => k.modTcb h fun t => { t with tidQueLoBloqueo := d.TID }
    conMutex (modify (·.agregarBlocked h))

/-- `case THREAD_CANCEL`. It looks up `TID`, not `tid`. -/
def threadCancel (ent : Entorno) (d : TThreadJoinYCancel) : Op Unit := do
  let tcbAExit ← conMutex (leer (·.buscarTcbs d.TID d.PID))
  match tcbAExit with
  | none => pure ()
  | some h => do
    let t ← leer (·.tcbs h)
    if t.estadoHilo = .exit then pure ()
    else finalizarHilo ent h

/-- `case THREAD_EXIT`. -/
def threadExit (ent : Entorno) (d : TDatosEsenciales) : Op Unit := do
  let hiloAFinalizar ← conMutex (leer (·.buscarTcbs d.tidInv d.pidInv))
  match hiloAFinalizar with
  | none => pure ()
  | some h => finalizarHilo ent h

/-- `case MUTEX_CREATE`. -/
def mutexCreate (d : TMutexTodos) : Op Unit := do
  let pcbBuscado ← conMutex (leer (·.buscarProceso d.PID))
  let p ← desref pcbBuscado
  modify fun k => k.modPcb p fun q =>
    { q with mutex := q.mutex ++ [{ recurso := d.recurso, tid := sinHilo, bloqueadosMutex := [] }] }

/-- `case MUTEX_LOCK`. -/
def mutexLock (d : TMutexTodos) : Op Unit := do
  let pcbBuscado ← conMutex (leer (·.buscarProceso d.PID))
  let hiloBlockMutex ← conMutex (leer (·.buscarTcbs d.TID d.PID))
  let p ← desref pcbBuscado
  let pcb ← leer (·.pcbs p)
  match buscarMutex pcb.mutex d.recurso with
  | none => throw .punteroNulo
  | some (i, lockeado) =>
    if lockeado.tid = sinHilo then
      modify (·.setMutex p i { lockeado with tid := d.TID })
    else
      modify (·.setMutex p i
        { lockeado with bloqueadosMutex := lockeado.bloqueadosMutex ++ [d.TID] })
      let h ← desref hiloBlockMutex
      modify (·.setEstado h .blocked)
      modify fun k => k.modTcb h fun t => { t with tidQueLoBloqueo := d.TID }
      conMutex (modify (·.agregarBlocked h))

/-- `case MUTEX_UNLOCK`. -/
def mutexUnlock (d : TMutexTodos) : Op Unit := do
  let pcbBuscado ← conMutex (leer (·.buscarProceso d.PID))
  let p ← desref pcbBuscado
  let pcb ← leer (·.pcbs p)
  match buscarMutex pcb.mutex d.recurso with
  | none => throw .punteroNulo
  | some (i, unlock) =>
    if unlock.tid = d.TID then
      match unlock.bloqueadosMutex with
      | [] => modify (·.setMutex p i { unlock with tid := sinHilo })
      | tidCola :: resto =>
        modify (·.setMutex p i { unlock with bloqueadosMutex := resto })
        let hiloAReady ← conMutex (leer (·.buscarTcbs tidCola d.PID))
        match hiloAReady with
        | none => pure ()
        | some h =>
          modify (·.setEstado h .ready)
          let t ← leer (·.tcbs h)
          modify (·.setMutex p i { unlock with tid := t.tid, bloqueadosMutex := resto })
          modify (·.agregarReady h)
    else pure ()

/-- `case DUMP_MEMORY`. -/
def dumpMemory (d : TDatosEsenciales) : Op Unit := do
  enviarPaquete (.dumpMemory d)
  let tcbBlocDump ← conMutex (leer (·.buscarTcbs d.tidInv d.pidInv))
  let h ← desref tcbBlocDump
  modify (·.setEstado h .blocked)
  conMutex (modify (·.agregarBlocked h))

/-- `case IO`, without the `usleep`. -/
def io (d : TIO) : Op Unit := do
  let hiloADormir ← conMutex (leer (·.buscarTcbs d.TID d.PID))
  match hiloADormir with
  | none => pure ()
  | some h =>
    modify (·.setEstado h .blocked)
    conMutex (modify (·.agregarBlocked h))
    modify fun k => { k with listaBlocked := k.listaBlocked.erase h }
    modify (·.setEstado h .ready)
    modify (·.agregarReady h)

/-- One iteration of `kernel_escucha_cpu_dispatch`. -/
def kernelEscuchaCpuDispatch (ent : Entorno) : Syscall → Op Unit
  | .processCreate d => crearProceso d.tamProceso d.nomArchP d.prioridadHM
  | .processExit d => processExit ent d
  | .threadCreate d => threadCreate d
  | .threadJoin d => threadJoin d
  | .threadCancel d => threadCancel ent d
  | .threadExit d => threadExit ent d
  | .mutexCreate d => mutexCreate d
  | .mutexLock d => mutexLock d
  | .mutexUnlock d => mutexUnlock d
  | .dumpMemory d => dumpMemory d
  | .io d => io d

/-! ## The schedulers -/

/-- `h->estadoHilo = EXEC; queue_push(cola_exec, h)`, and the packet `RECIBIR_TID`. -/
def ejecutar (h : Dir) : Op Unit := do
  modify (·.setEstado h .exec)
  modify fun k => { k with colaExec := k.colaExec ++ [h] }
  let t ← leer (·.tcbs h)
  enviarPaquete (.recibirTid t.pid t.tid)

/-- `list_remove(lista_ready, 0)`. -/
def sacarReady : Op (Option Dir) := do
  let k ← get
  match k.listaReady with
  | [] => pure none
  | h :: resto =>
    modify fun k => { k with listaReady := resto }
    pure (some h)

/-- One iteration of `planificador_corto_plazo`. -/
def planificadorCortoPlazo (ent : Entorno) : Op Unit := do
  let k ← get
  if k.tcbAPlanificar = 0 then throw .espera
  else
    modify fun k => { k with tcbAPlanificar := k.tcbAPlanificar - 1 }
    match ent.algoritmoPlanificacion with
    | .fifo =>
      let hiloExec ← sacarReady
      let h ← desref hiloExec
      ejecutar h
    | .prioridades =>
      let hiloMayorPrioridad ← buscarHiloMenorNroPrioridad
      let h ← desref hiloMayorPrioridad
      ejecutar h
    | .otro => pure ()

/-- `sem_post(&TCBaPlanificar)`. -/
def Estado.postTcbAPlanificar (k : Estado) : Estado :=
  { k with tcbAPlanificar := k.tcbAPlanificar + 1 }

/-- `sem_post(&sem_plani_largo_plazo)`. -/
def Estado.postPlaniLargoPlazo (k : Estado) : Estado :=
  { k with semPlaniLargoPlazo := k.semPlaniLargoPlazo + 1 }

/-- One iteration of `planificador_de_largo_plazo`. -/
def planificadorDeLargoPlazo : Op Unit := do
  let k ← get
  if k.semPlaniLargoPlazo = 0 then throw .espera
  else
    modify fun k => { k with semPlaniLargoPlazo := k.semPlaniLargoPlazo - 1 }
    iniciarProceso

/-! ## The listener of memoria -/

inductive MensajeMemoria where
  | confirmarEspacioProceso (d : TAsignoMemoria)
  | confirmarCreacionHilo (d : TCreacionHilo)
  | confirmarDumpMemory
  deriving DecidableEq, Repr

/-- `case CONFIRMAR_ESPACIO_PROCESO`. -/
def confirmarEspacioProceso (d : TAsignoMemoria) : Op Unit :=
  if d.bitConfirmacion = 1 then do
    crearHilo d.pid
    modify (·.postPlaniLargoPlazo)
  else modify (·.postPlaniLargoPlazo)

/-- `case CONFIRMAR_CREACION_HILO`, up to `sem_post(&TCBaPlanificar)`. -/
def confirmarCreacionHilo (d : TCreacionHilo) : Op Unit :=
  if d.bitConfirmacion = 1 then do
    confirmacionCrearHilo d.pid d.tid
    modify (·.postTcbAPlanificar)
  else pure ()

/-- One iteration of `kernel_escucha_memoria`, after its packet is decoded. -/
def kernelEscuchaMemoria : MensajeMemoria → Op Unit
  | .confirmarEspacioProceso d => confirmarEspacioProceso d
  | .confirmarCreacionHilo d => confirmarCreacionHilo d
  | .confirmarDumpMemory => pure ()

/-! ## Steps -/

/-- An atomic step of one of the threads of the kernel. -/
inductive Paso where
  | syscall (s : Syscall)
  | memoria (m : MensajeMemoria)
  | cortoPlazo
  | largoPlazo
  deriving DecidableEq, Repr

def Paso.programa (ent : Entorno) : Paso → Op Unit
  | .syscall s => kernelEscuchaCpuDispatch ent s
  | .memoria m => kernelEscuchaMemoria m
  | .cortoPlazo => planificadorCortoPlazo ent
  | .largoPlazo => planificadorDeLargoPlazo

/-- A step that ends: the state after it, and the packets it sent. -/
def paso (ent : Entorno) (k : Estado) (p : Paso) : Except Falla (Estado × List Paquete) :=
  match (p.programa ent).run k with
  | .ok _ k' => .ok (k', k'.enviados.drop k.enviados.length)
  | .error f _ => .error f

theorem paso_ok {ent : Entorno} {k k' : Estado} {p : Paso} {o : List Paquete}
    (h : paso ent k p = .ok (k', o)) : (p.programa ent).run k = .ok () k' := by
  unfold paso at h
  cases hr : (p.programa ent).run k with
  | ok u k₁ =>
    rw [hr] at h
    cases h
    rfl
  | error f k₁ =>
    rw [hr] at h
    cases h

theorem paso_of_run {ent : Entorno} {k k' : Estado} {p : Paso}
    (h : (p.programa ent).run k = .ok () k') : ∃ o, paso ent k p = .ok (k', o) := by
  unfold paso
  rw [h]
  exact ⟨_, rfl⟩

theorem paso_salida {ent : Entorno} {k k' : Estado} {p : Paso} {o : List Paquete}
    (h : paso ent k p = .ok (k', o)) : o = k'.enviados.drop k.enviados.length := by
  unfold paso at h
  cases hr : (p.programa ent).run k with
  | ok u k₁ =>
    rw [hr] at h
    cases h
    rfl
  | error f k₁ =>
    rw [hr] at h
    cases h

/-- The state after `inicializar_kernel`. `malloc` finds the rest in memory. -/
def estadoInicial (tcbs : Dir → TCB) (pcbs : Dir → PCB) (uint32s : Dir → Uint32) : Estado :=
  { pid := 0
    listaProcesos := []
    listaTcbs := []
    listaReady := []
    listaBlocked := []
    listaExit := []
    colaNew := []
    colaExec := []
    tcbs
    pcbs
    uint32s
    proximo := 0
    liberados := []
    mutex := 1
    semPlaniLargoPlazo := 1
    tcbAPlanificar := 0
    valoresMutex := []
    enviados := [] }

end LastOfC.Kernel
