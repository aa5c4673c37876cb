import Mathlib.Logic.Function.Basic
import LastOfC.Lib.Imp
import LastOfC.Utils.Serializar

/-!
# State of the kernel (`k_conexiones.c`, `utils.h`)

The globals of the kernel. A `t_list` or `t_queue` of pointers is the list of the addresses, and
`tcbs`, `pcbs` and `uint32s` give the contents of the block at an address: of a block that
`malloc` has not handed out, whatever is there; of a TCB that was freed, what `free` left of it.
`malloc` hands out a new address each time (`proximo`), so an address is the identity of a TCB. It
never hands out a block that was freed, though `lista_tcbs`, `lista_ready` and `cola_exec` keep
pointers to freed TCBs: the runs in which the block of a thread that ended is used again are left
out.

A program `Op α` runs over these globals and stops with a `Falla` where the source dereferences
`NULL` or an integer, uses a destroyed list, frees twice, or waits on `mutex` at 0 for ever.
`valoresMutex` and `enviados` record what others see of a run: the values that `mutex` took, and
the packets sent.
-/

namespace LastOfC.Kernel

/-- The address of a block from `malloc`. -/
abbrev Dir := Nat

/-- A `void*`: the address of a block, or an integer cast to a pointer. -/
inductive Puntero where
  | bloque (dir : Dir)
  | entero (n : Uint32)
  deriving DecidableEq, Repr

/-- `estado_proceso_hilo`. -/
inductive EstadoProcesoHilo where
  | new
  | blocked
  | ready
  | exit
  | exec
  deriving DecidableEq, Repr

structure TCB where
  pid : Uint32
  tid : Uint32
  tidQueLoBloqueo : Uint32
  prioridad : CInt
  path : Cadena
  estadoHilo : EstadoProcesoHilo
  deriving DecidableEq, Repr

/-- `t_mutex`. -/
structure TMutex where
  recurso : Cadena
  tid : Uint32
  /-- The elements are tids, cast to pointers. -/
  bloqueadosMutex : List Uint32
  deriving DecidableEq, Repr

structure PCB where
  pid : Uint32
  /-- The addresses of the copies of the tids, or none after `list_destroy`. -/
  listaTid : Option (List Puntero)
  mutex : List TMutex
  tidContador : Uint32
  estado : EstadoProcesoHilo
  tamProceso : CInt
  prioridadMain : CInt
  pathMain : Cadena
  deriving DecidableEq, Repr

/-- `-1` in a `uint32_t` field: no thread. -/
def sinHilo : Uint32 := -1

/-- A packet that the kernel sends, to memoria or (the last) to the CPU. -/
inductive Paquete where
  | asignarMemoria (pid : Uint32) (tamProceso : CInt)
  | hiloReady (datos : TCrearHilo)
  | finalizarProceso (pid : Uint32)
  /-- With the payload that `serializar_finalizar_hilo` built. -/
  | finalizarHilo (buffer : List Byte)
  | dumpMemory (datos : TDatosEsenciales)
  | recibirTid (pid tid : Uint32)
  deriving DecidableEq, Repr

structure Estado where
  /-- The last pid given. -/
  pid : Uint32
  listaProcesos : List Dir
  listaTcbs : List Dir
  listaReady : List Dir
  listaBlocked : List Dir
  listaExit : List Dir
  colaNew : List Dir
  colaExec : List Dir
  tcbs : Dir → TCB
  pcbs : Dir → PCB
  uint32s : Dir → Uint32
  /-- The next address that `malloc` returns. -/
  proximo : Dir
  /-- The TCBs that were freed. -/
  liberados : List Dir
  mutex : Nat
  semPlaniLargoPlazo : Nat
  tcbAPlanificar : Nat
  /-- The values of `mutex` after each `sem_wait` and `sem_post`, in order. -/
  valoresMutex : List Nat
  /-- The packets sent, in order. -/
  enviados : List Paquete

/-- `ALGORITMO_PLANIFICACION`; `otro` is a string that no `strcmp` matches. -/
inductive AlgoritmoPlanificacion where
  | fifo
  | prioridades
  | otro
  deriving DecidableEq, Repr

/-- What the kernel finds around it. -/
structure Entorno where
  algoritmoPlanificacion : AlgoritmoPlanificacion
  /-- What `recibir_mensajeV2` returns for the answer to `FINALIZAR_PROCESO`. -/
  mensajeFinProceso : Cadena
  /-- What `free` leaves of the contents of a TCB. -/
  residuo : TCB → TCB

/-- Why an operation of the kernel does not end. -/
inductive Falla where
  /-- It reads a field through a `NULL` pointer. -/
  | punteroNulo
  /-- It uses an integer as the address of a TCB. -/
  | punteroInvalido
  /-- It uses `lista_tid` after `list_destroy`. -/
  | listaDestruida
  /-- It frees a TCB for the second time. -/
  | dobleFree
  /-- It waits on a semaphore at 0. -/
  | espera
  deriving DecidableEq, Repr

/-- A program over the globals of the kernel. -/
abbrev Op (α : Type) := EStateM Falla Estado α

/-! ## The blocks -/

/-- A write to a field of the TCB at `h`. -/
def Estado.modTcb (k : Estado) (h : Dir) (f : TCB → TCB) : Estado :=
  { k with tcbs := Function.update k.tcbs h (f (k.tcbs h)) }

/-- A write to a field of the PCB at `p`. -/
def Estado.modPcb (k : Estado) (p : Dir) (f : PCB → PCB) : Estado :=
  { k with pcbs := Function.update k.pcbs p (f (k.pcbs p)) }

/-- `h->estadoHilo = e`. -/
def Estado.setEstado (k : Estado) (h : Dir) (e : EstadoProcesoHilo) : Estado :=
  k.modTcb h fun t => { t with estadoHilo := e }

/-- Another value and history of the lock, and nothing else. -/
def Estado.conCerrojo (k : Estado) (mutex : Nat) (valores : List Nat) : Estado :=
  { k with mutex := mutex, valoresMutex := valores }

/-! ## The lock `mutex` -/

/-- `sem_wait(&mutex)`. -/
def semWaitMutex : Op Unit := do
  let k ← get
  if k.mutex = 0 then throw .espera
  else
    modify fun k => k.conCerrojo (k.mutex - 1) (k.valoresMutex ++ [k.mutex - 1])

/-- `sem_post(&mutex)`. -/
def semPostMutex : Op Unit :=
  modify fun k => k.conCerrojo (k.mutex + 1) (k.valoresMutex ++ [k.mutex + 1])

/-- `sem_wait(&mutex); x; sem_post(&mutex)`. -/
def conMutex {α : Type} (x : Op α) : Op α := do
  semWaitMutex
  let a ← x
  semPostMutex
  pure a

/-- A read of the globals. -/
def leer {α : Type} (f : Estado → α) : Op α := do
  let k ← get
  pure (f k)

/-- A pointer that is dereferenced. -/
def desref : Option Dir → Op Dir
  | some d => pure d
  | none => throw .punteroNulo

/-- `enviar_paquete`. -/
def enviarPaquete (p : Paquete) : Op Unit :=
  modify fun k => { k with enviados := k.enviados ++ [p] }

end LastOfC.Kernel
