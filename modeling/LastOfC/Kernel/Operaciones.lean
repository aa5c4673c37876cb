import LastOfC.Kernel.Estado
import LastOfC.Lib.KeyedList

/-!
# Processes and threads (`k_conexiones.c`)

One definition for each function of the source, in its order, as a program over the globals.

* The searches `buscarProceso`, `buscarTcbs` and `buscarMutex` return the first match.
* `crearProceso`, `iniciarProceso`, `crearHilo`, `confirmacionCrearHilo`: from a `PROCESS_CREATE`
  to a thread in `lista_ready`.
* `finalizarHilo` with `desbloquearHilosPorTid`, and `finalizarProceso`, which calls it while it
  holds `mutex`.
* `buscarHiloMenorNroPrioridad`: the search of the short-term scheduler.

An element of a list or queue that is read by its position is read through `[i]?`, and `NULL` is
`none`.
-/

namespace LastOfC.Kernel

open KeyedList

/-! ## Searches -/

/-- `buscar_proceso(lista_procesos, pid)`. -/
def Estado.buscarProceso (k : Estado) (pid : Uint32) : Option Dir :=
  k.listaProcesos.find? fun p => (k.pcbs p).pid = pid

/-- `buscar_tcbs`. -/
def Estado.buscarTcbs (k : Estado) (tid pid : Uint32) : Option Dir :=
  k.listaTcbs.find? fun h => (k.tcbs h).pid = pid ∧ (k.tcbs h).tid = tid

/-- `buscar_mutex`: the position of the mutex in the list, which is its pointer, and its value. -/
def buscarMutex (listaMutex : List TMutex) (recurso : Cadena) : Option (Nat × TMutex) :=
  search (fun m => m.recurso = recurso) listaMutex

/-- A write to the `t_mutex` at position `i` of the list of the process `p`. -/
def Estado.setMutex (k : Estado) (p : Dir) (i : Nat) (m : TMutex) : Estado :=
  k.modPcb p fun pcb => { pcb with mutex := pcb.mutex.set i m }

/-! ## Appends -/

/-- `list_add(lista_ready, h)`. -/
def Estado.agregarReady (k : Estado) (h : Dir) : Estado :=
  { k with listaReady := k.listaReady ++ [h] }

/-- `list_add(lista_blocked, h)`. -/
def Estado.agregarBlocked (k : Estado) (h : Dir) : Estado :=
  { k with listaBlocked := k.listaBlocked ++ [h] }

/-- `list_add(lista_exit, h)`. -/
def Estado.agregarExit (k : Estado) (h : Dir) : Estado :=
  { k with listaExit := k.listaExit ++ [h] }

/-- `list_add(lista_tcbs, h)`. -/
def Estado.agregarTcb (k : Estado) (h : Dir) : Estado :=
  { k with listaTcbs := k.listaTcbs ++ [h] }

/-! ## Creation -/

/-- `enviar_a_memoria`. -/
def enviarAMemoria (h : Dir) : Op Unit := do
  let t ← leer (·.tcbs h)
  enviarPaquete (.hiloReady
    { PID := t.pid, TID := t.tid, prioridad := t.prioridad, path := t.path })

/-- `asignar_espacio_memoria`. -/
def asignarEspacioMemoria (pid : Uint32) (tamProceso : CInt) : Op Unit :=
  enviarPaquete (.asignarMemoria pid tamProceso)

/-- `tid_copia = malloc(sizeof(uint32_t)); *tid_copia = n`. -/
def copiarTid (n : Uint32) : Op Dir := do
  let d ← leer (·.proximo)
  modify fun k => { k with
    proximo := k.proximo + 1
    uint32s := Function.update k.uint32s d n }
  pure d

/-- `list_add(p->lista_tid, dir)`. -/
def agregarTid (p dir : Dir) : Op Unit := do
  let pcb ← leer (·.pcbs p)
  match pcb.listaTid with
  | some tids =>
    modify fun k => k.modPcb p fun q => { q with listaTid := some (tids ++ [.bloque dir]) }
  | none => throw .listaDestruida

/-- `iniciar_hilo`. -/
def iniciarHilo (tid : Uint32) (prioridad : CInt) (pid : Uint32) (path : Cadena) : Op Dir := do
  let h ← leer (·.proximo)
  modify fun k => { k with
    proximo := k.proximo + 1
    tcbs := Function.update k.tcbs h
      { pid, tid, tidQueLoBloqueo := sinHilo, prioridad, path, estadoHilo := .ready } }
  pure h

/-- `queue_pop(cola_new)`. -/
def popColaNew : Op (Option Dir) := do
  let k ← get
  match k.colaNew with
  | [] => pure none
  | p :: resto =>
    modify fun k => { k with colaNew := resto }
    pure (some p)

/-- `crear_hilo`. -/
def crearHilo (pidConfirmado : Uint32) : Op Unit := do
  let proceso ← conMutex (leer (·.buscarProceso pidConfirmado))
  -- The log reads `tid_contador` before the check of the pointer.
  let p ← desref proceso
  let tidMain ← leer fun k => (k.pcbs p).tidContador
  let tidCopia ← copiarTid tidMain
  conMutex (agregarTid p tidCopia)
  let pcbFueraNew ← popColaNew
  let q ← desref pcbFueraNew
  let pcb ← leer (·.pcbs q)
  let h ← iniciarHilo pcb.tidContador pcb.prioridadMain pcb.pid pcb.pathMain
  semPostMutex
  modify (·.agregarTcb h)
  semPostMutex
  enviarAMemoria h

/-- `confirmacion_crear_hilo`. -/
def confirmacionCrearHilo (pidHilo tidHilo : Uint32) : Op Unit := do
  let hilo ← leer (·.buscarTcbs tidHilo pidHilo)
  match hilo with
  | none => pure ()
  | some h => conMutex (modify (·.agregarReady h))

/-- `iniciar_proceso`. With `cola_new` empty, `proceso_new` is the new block as `malloc` left it. -/
def iniciarProceso : Op Unit := do
  let k ← get
  modify fun k => { k with proximo := k.proximo + 1 }
  let pcb ← leer (·.pcbs (k.colaNew.headD k.proximo))
  asignarEspacioMemoria pcb.pid pcb.tamProceso

/-- `crear_proceso`. -/
def crearProceso (tamanioProceso : CInt) (path : Cadena) (prioridadMain : CInt) : Op Unit := do
  let p ← leer (·.proximo)
  modify fun k => { k with
    proximo := k.proximo + 1
    pid := k.pid + 1
    pcbs := Function.update k.pcbs p
      { pid := k.pid + 1
        listaTid := some []
        mutex := []
        tidContador := 0
        estado := .new
        tamProceso := tamanioProceso
        prioridadMain
        pathMain := path }
    colaNew := k.colaNew ++ [p] }
  conMutex (modify fun k => { k with listaProcesos := k.listaProcesos ++ [p] })

/-! ## The end of a thread -/

/-- The loop of `desbloquear_hilos_por_tid` at position `i` of `lista_blocked`. An iteration goes
to the next position or shortens the list, so it runs `list_size(lista_blocked) - i` times. -/
def desbloquearDesde (h : Dir) : Nat → Nat → Op Unit
  | 0, _ => pure ()
  | restantes + 1, i => do
    let k ← get
    match k.listaBlocked[i]? with
    | none => pure ()
    | some b =>
      if (k.tcbs b).pid = (k.tcbs h).pid ∧ (k.tcbs b).tidQueLoBloqueo = (k.tcbs h).tid then
        modify fun k => k.modTcb b fun t =>
          { t with estadoHilo := .ready, tidQueLoBloqueo := sinHilo }
        conMutex (modify (·.agregarReady b))
        modify fun k => { k with listaBlocked := k.listaBlocked.eraseIdx i }
        desbloquearDesde h restantes i
      else desbloquearDesde h restantes (i + 1)

/-- `desbloquear_hilos_por_tid`. -/
def desbloquearHilosPorTid (h : Dir) : Op Unit := do
  let n ← leer (·.listaBlocked.length)
  desbloquearDesde h n 0

/-- `informar_a_memoria_fin_hilo`, without `recibir_mensajeV2`: the answer only changes the log. -/
def informarAMemoriaFinHilo (h : Dir) : Op Unit := do
  let t ← leer (·.tcbs h)
  enviarPaquete (.finalizarHilo (serializarFinalizarHilo t.pid t.tid))

/-- `list_remove_element(p->lista_tid, (void*)tid)`. -/
def quitarTid (p : Dir) (tid : Uint32) : Op Unit := do
  let pcb ← leer (·.pcbs p)
  match pcb.listaTid with
  | some tids =>
    modify fun k => k.modPcb p fun q => { q with listaTid := some (tids.erase (.entero tid)) }
  | none => throw .listaDestruida

/-- One iteration of the loop of `finalizar_hilo` over `p->mutex`, at position `i`. -/
def liberarMutex (p : Dir) (tid : Uint32) (i : Nat) : Op Unit := do
  let pcb ← leer (·.pcbs p)
  match pcb.mutex[i]? with
  | none => pure ()
  | some m =>
    if m.tid = tid then
      match m.bloqueadosMutex with
      -- The queue holds tids, and `sgte_hilo->estadoHilo` is written through the popped one.
      | _ :: _ => throw .punteroInvalido
      | [] => modify (·.setMutex p i { m with tid := sinHilo })
    else pure ()

/-- `free(h)`. -/
def liberar (ent : Entorno) (h : Dir) : Op Unit := do
  let k ← get
  if h ∈ k.liberados then throw .dobleFree
  else
    modify fun k => { k.modTcb h ent.residuo with liberados := h :: k.liberados }

/-- `finalizar_hilo`. -/
def finalizarHilo (ent : Entorno) (h : Dir) : Op Unit := do
  modify (·.setEstado h .exit)
  conMutex (modify (·.agregarExit h))
  let t ← leer (·.tcbs h)
  let proceso ← conMutex (leer (·.buscarProceso t.pid))
  match proceso with
  | none => pure ()
  | some p =>
    quitarTid p t.tid
    let n ← leer fun k => (k.pcbs p).mutex.length
    Imp.each (liberarMutex p t.tid) (List.range n)
    informarAMemoriaFinHilo h
    desbloquearHilosPorTid h
    liberar ent h

/-! ## The end of a process -/

/-- `informar_a_memoria_fin_proceso`, without the wait for the answer. -/
def informarAMemoriaFinProceso (pid : Uint32) : Op Unit :=
  enviarPaquete (.finalizarProceso pid)

/-- One iteration of the loop of `finalizar_proceso` over `lista_tcbs`. -/
def finalizarSiEsDe (ent : Entorno) (p : Dir) (h : Dir) : Op Unit := do
  let k ← get
  if (k.tcbs h).pid = (k.pcbs p).pid then finalizarHilo ent h
  else pure ()

/-- `list_destroy(p->lista_tid)`, and the fields of the PCB that are set after it. -/
def cerrarPcb (p : Dir) : Op Unit := do
  let pcb ← leer (·.pcbs p)
  match pcb.listaTid with
  | some _ =>
    modify fun k => k.modPcb p fun q =>
      { q with listaTid := none, estado := .exit, tidContador := -1, prioridadMain := -1 }
  | none => throw .listaDestruida

/-- `finalizar_proceso`. -/
def finalizarProceso (ent : Entorno) (pcbAfuera : Option Dir) : Op Unit := do
  let p ← desref pcbAfuera
  let pid ← leer fun k => (k.pcbs p).pid
  informarAMemoriaFinProceso pid
  if ent.mensajeFinProceso = ['O', 'K'] then do
    semWaitMutex
    let tcbs ← leer (·.listaTcbs)
    Imp.each (finalizarSiEsDe ent p) tcbs
    semPostMutex
    cerrarPcb p
    iniciarProceso
  else pure ()

/-! ## The search of the scheduler -/

/-- One iteration of the loop of `buscar_hilo_menorNro_prioridad`: the thread with the smallest
number so far, and its position. -/
def compararPrioridad (menor : Dir × Nat) (i : Nat) : Op (Dir × Nat) := do
  let actual ← conMutex (leer (·.listaReady[i]?))
  let actual ← desref actual
  let k ← get
  if (k.tcbs actual).prioridad.slt (k.tcbs menor.1).prioridad then pure (actual, i)
  else pure menor

/-- `buscar_hilo_menorNro_prioridad`. It takes the thread it returns out of `lista_ready`. -/
def buscarHiloMenorNroPrioridad : Op (Option Dir) := do
  let lista ← conMutex (leer (·.listaReady))
  match lista with
  | [] => pure none
  | h :: resto =>
    let menor ← (List.range' 1 resto.length).foldlM compararPrioridad (h, 0)
    conMutex (modify fun k => { k with listaReady := k.listaReady.eraseIdx menor.2 })
    pure (some menor.1)

end LastOfC.Kernel
