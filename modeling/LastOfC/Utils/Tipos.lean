import Mathlib.Algebra.Order.Ring.Nat

/-!
# Types shared by the modules (`utils.h`, `serializar.h`)

The C types and the structures that the decoders of `serializar.c` hand to the message handlers.
Field names are the source's. Only what a modelled function reads is here: `op_code` values, the
buffers and the framing of packets are not part of these types.
-/

namespace LastOfC

/-- `uint32_t`. -/
abbrev Uint32 := BitVec 32

/-- `int`, as its 32-bit pattern. Where the source compares an `int` with a `uint32_t` it converts
the `int`, so `<` and `≤` on these are the unsigned ones. -/
abbrev CInt := BitVec 32

abbrev Byte := BitVec 8

/-- A C string: the characters before the terminator. -/
abbrev Cadena := List Char

structure RegistrosCPU where
  AX : Uint32
  BX : Uint32
  CX : Uint32
  DX : Uint32
  EX : Uint32
  FX : Uint32
  GX : Uint32
  HX : Uint32
  deriving DecidableEq, Repr

/-- `memset(&registros, 0, sizeof(RegistrosCPU))`. -/
def RegistrosCPU.cero : RegistrosCPU := ⟨0, 0, 0, 0, 0, 0, 0, 0⟩

/-- `t_contextoEjecucion`, the context as it travels between memoria and CPU. -/
structure TContextoEjecucion where
  TID : Uint32
  RegistrosCPU : RegistrosCPU
  PC : Uint32
  base : Uint32
  limite : Uint32
  pid : Uint32
  deriving DecidableEq, Repr

/-- `t_asignar_memoria`. -/
structure TAsignarMemoria where
  pid : Uint32
  tamProceso : CInt
  deriving DecidableEq, Repr

/-- `t_crear_hilo`. -/
structure TCrearHilo where
  PID : Uint32
  TID : Uint32
  prioridad : CInt
  path : Cadena
  deriving DecidableEq, Repr

/-- `t_datos_esenciales`. -/
structure TDatosEsenciales where
  pidInv : Uint32
  tidInv : Uint32
  deriving DecidableEq, Repr

/-- `t_enviar_contexto`. -/
structure TEnviarContexto where
  PID : Uint32
  TID : Uint32
  deriving DecidableEq, Repr

/-- `t_obtener_instruccion`. -/
structure TObtenerInstruccion where
  PC : Uint32
  TID : Uint32
  PID : Uint32
  deriving DecidableEq, Repr

/-- `t_datos_write_mem`. -/
structure TDatosWriteMem where
  dirFis : Uint32
  valor : Uint32
  pidHilo : Uint32
  tidHilo : Uint32
  deriving DecidableEq, Repr

/-- `t_datos_read_mem`. -/
structure TDatosReadMem where
  dirFis : Uint32
  pidHilo : Uint32
  tidHilo : Uint32
  deriving DecidableEq, Repr

/-- `t_process_create`. -/
structure TProcessCreate where
  PID : Uint32
  TID : Uint32
  nomArchP : Cadena
  tamProceso : Uint32
  prioridadHM : Uint32
  deriving DecidableEq, Repr

/-- `t_thread_create`. -/
structure TThreadCreate where
  PID : Uint32
  TID : Uint32
  nombreArchT : Cadena
  prioridadH : Uint32
  deriving DecidableEq, Repr

/-- `t_IO`. -/
structure TIO where
  PID : Uint32
  TID : Uint32
  tiempo : CInt
  deriving DecidableEq, Repr

/-- `t_thread_join_y_cancel`: `TID` is the caller and `tid` the thread it names. -/
structure TThreadJoinYCancel where
  PID : Uint32
  TID : Uint32
  tid : Uint32
  deriving DecidableEq, Repr

/-- `t_mutex_todos`. -/
structure TMutexTodos where
  PID : Uint32
  TID : Uint32
  recurso : Cadena
  deriving DecidableEq, Repr

/-- `t_asigno_memoria`. -/
structure TAsignoMemoria where
  pid : Uint32
  bitConfirmacion : Uint32
  deriving DecidableEq, Repr

/-- `t_creacion_hilo`. -/
structure TCreacionHilo where
  pid : Uint32
  tid : Uint32
  bitConfirmacion : Uint32
  deriving DecidableEq, Repr

end LastOfC
