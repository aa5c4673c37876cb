import LastOfC.Cpu.Lectura
import LastOfC.Lib.Libc

/-!
# The instruction cycle (`ciclo_de_instruccion.c`, `c_conexiones.c` of cpu)

* `TInstruccion` and `decode`: the text of an instruction, taken apart by `strtok`.
* `execute`: what an instruction does up to the first wait, as an `Accion`. A syscall waits on
  `sem_syscall`, and `READ_MEM` in its `recv`.
* `executeSyscall`: the packet to the kernel.

`decode` and `MMU` read the globals `PidHilo`, `TidHilo` and `parteActual`.
-/

namespace LastOfC.Cpu

open Libc

/-! ## Decode -/

/-- `t_instruccion`. The strings that only a syscall has may be `NULL`. -/
structure TInstruccion where
  operacion : Cadena
  operando1 : Cadena
  operando2 : Cadena
  operando3 : Cadena
  esSyscall : Bool
  archivo : Option Cadena
  tamanio : Uint32
  prioridad : Uint32
  tiempo : CInt
  recurso : Option Cadena
  tid : Uint32
  PID : Uint32
  TID : Uint32
  deriving DecidableEq, Repr

/-- `token ? strdup(token) : strdup("")`. -/
def tokenODefecto (token : Option Cadena) : Cadena := token.getD []

/-- `decode`, up to the chain of `strcmp`s. -/
def separar (instruccionActual : Cadena) (PidHilo TidHilo : Uint32) : TInstruccion :=
  let (operacion, resto) := strtok ' ' instruccionActual
  let (operando1, resto) := strtok ' ' resto
  let (operando2, resto) := strtok ' ' resto
  let (operando3, _) := strtok ' ' resto
  { operacion := tokenODefecto operacion
    operando1 := tokenODefecto operando1
    operando2 := tokenODefecto operando2
    operando3 := tokenODefecto operando3
    esSyscall := false
    archivo := none
    tamanio := 0
    prioridad := 0
    tiempo := 0
    recurso := none
    tid := 0
    PID := PidHilo
    TID := TidHilo }

/-- The chain of `strcmp`s of `decode`. -/
def clasificar (i : TInstruccion) : TInstruccion :=
  if i.operacion = "THREAD_CREATE".toList then
    { i with
      esSyscall := true
      archivo := some i.operando1
      prioridad := atoi i.operando2 }
  else if i.operacion = "PROCESS_CREATE".toList then
    { i with
      esSyscall := true
      archivo := some i.operando1
      tamanio := atoi i.operando2
      prioridad := atoi i.operando3 }
  else if i.operacion = "IO".toList then { i with esSyscall := true, tiempo := atoi i.operando1 }
  else if i.operacion = "MUTEX_CREATE".toList ∨ i.operacion = "MUTEX_LOCK".toList ∨
      i.operacion = "MUTEX_UNLOCK".toList then
    { i with esSyscall := true, recurso := some i.operando1 }
  else if i.operacion = "THREAD_JOIN".toList ∨ i.operacion = "TRHEAD_CANCEL".toList then
    { i with esSyscall := true, tid := atoi i.operando1 }
  else i

/-- `decode`. -/
def decode (instruccionActual : Cadena) (PidHilo TidHilo : Uint32) : TInstruccion :=
  clasificar (separar instruccionActual PidHilo TidHilo)

/-- `decode` takes the thread from the globals. -/
theorem decode_PID_TID (instruccionActual : Cadena) (PidHilo TidHilo : Uint32) :
    (decode instruccionActual PidHilo TidHilo).PID = PidHilo ∧
      (decode instruccionActual PidHilo TidHilo).TID = TidHilo := by
  have hclasificar : ∀ i, (clasificar i).PID = i.PID ∧ (clasificar i).TID = i.TID := by
    intro i
    unfold clasificar
    split_ifs <;> exact ⟨rfl, rfl⟩
  exact hclasificar _

/-! ## Execute -/

/-- Why the CPU crashes. -/
inductive Falla where
  | punteroNulo
  /-- It writes through an integer. -/
  | punteroInvalido
  deriving DecidableEq, Repr

/-- `set_registro`. -/
def setRegistro (registro valor : Cadena) (registros : RegistrosCPU) : RegistrosCPU :=
  match obtenerRegistro registro with
  | some reg => reg.asignar registros (atoi valor)
  | none => registros

/-- `sum_registro` and `sub_registro`, which differ in `op`. -/
def operarRegistros (op : Uint32 → Uint32 → Uint32) (destino origen : Cadena)
    (registros : RegistrosCPU) : RegistrosCPU :=
  match obtenerRegistro destino, obtenerRegistro origen with
  | some regDes, some regOri =>
    regDes.asignar registros (op (regDes.valor registros) (regOri.valor registros))
  | _, _ => registros

/-- `sum_registro`. -/
def sumRegistro : Cadena → Cadena → RegistrosCPU → RegistrosCPU := operarRegistros (· + ·)

/-- `sub_registro`. -/
def subRegistro : Cadena → Cadena → RegistrosCPU → RegistrosCPU := operarRegistros (· - ·)

/-- `jnz_registro`. Its parameter `pc` is a pointer, and `execute` passes the number `contexto->PC`,
so the assignment writes to the address `PC`. -/
def jnzRegistro (registro : Cadena) : Except Falla Unit :=
  match obtenerRegistro registro with
  | some _ => .error .punteroInvalido
  | none => .ok ()

/-- `log_registro`. -/
def logRegistro (registro : Cadena) : Except Falla Unit :=
  match obtenerRegistro registro with
  | some _ => .ok ()
  | none => .error .punteroNulo

/-- `if(strcmp(instruccion->operando2,"PC")!=0) contexto->PC++`. -/
def TInstruccion.avanzarPc (i : TInstruccion) (contexto : TContextoEjecucion) :
    TContextoEjecucion :=
  if i.operando2 ≠ "PC".toList then { contexto with PC := contexto.PC + 1 } else contexto

/-- What `execute` does up to the first wait. -/
inductive Accion where
  /-- It returns, after these packets. -/
  | sigue (contexto : TContextoEjecucion) (envios : List Envio)
  /-- It sends the context to memoria, and waits on `sem_syscall`. -/
  | syscall (contexto : TContextoEjecucion)
  /-- It sends `READ_MEM`, and waits in `recv` for the word for the register. -/
  | lee (registro : Registro) (datos : TDatosReadMem)
  /-- `exit(EXIT_FAILURE)`, after these packets. -/
  | sale (envios : List Envio)
  | cae (falla : Falla)
  deriving DecidableEq, Repr

/-- `execute`. -/
def execute (parteActual : ParticionMemoria) (PidHilo : Uint32) (i : TInstruccion)
    (contexto : TContextoEjecucion) : Accion :=
  if i.esSyscall then .syscall { contexto with PC := contexto.PC + 1 }
  else if i.operacion = "SET".toList then
    .sigue (i.avanzarPc { contexto with
      RegistrosCPU := setRegistro i.operando1 i.operando2 contexto.RegistrosCPU }) []
  else if i.operacion = "SUM".toList then
    .sigue (i.avanzarPc { contexto with
      RegistrosCPU := sumRegistro i.operando1 i.operando2 contexto.RegistrosCPU }) []
  else if i.operacion = "SUB".toList then
    .sigue (i.avanzarPc { contexto with
      RegistrosCPU := subRegistro i.operando1 i.operando2 contexto.RegistrosCPU }) []
  else if i.operacion = "JNZ".toList then
    match jnzRegistro i.operando1 with
    | .ok _ => .sigue contexto []
    | .error falla => .cae falla
  else if i.operacion = "LOG".toList then
    match logRegistro i.operando1 with
    | .ok _ => .sigue (i.avanzarPc contexto) []
    | .error falla => .cae falla
  else if i.operacion = "WRITE_MEM".toList then
    match writeMem parteActual PidHilo i.operando1 i.operando2 contexto with
    | .ok envios => .sigue (i.avanzarPc contexto) envios
    | .error envios => .sale envios
  else if i.operacion = "READ_MEM".toList then
    match readMem parteActual PidHilo i.operando1 i.operando2 contexto with
    | .ok (some (registro, datos)) => .lee registro datos
    | .ok none => .sigue (i.avanzarPc contexto) []
    | .error envios => .sale envios
  -- `INSTRUCCION DESCONOCIDA`.
  else .sigue contexto []

/-- `execute` of `READ_MEM` after its `recv`. -/
def trasLeer (i : TInstruccion) (registro : Registro) (dato : Uint32)
    (contexto : TContextoEjecucion) : TContextoEjecucion :=
  i.avanzarPc { contexto with RegistrosCPU := registro.asignar contexto.RegistrosCPU dato }

/-! ## Syscalls -/

/-- A packet that the CPU sends to the kernel. -/
inductive PaqueteSyscall where
  | processCreate (d : TProcessCreate)
  | processExit (d : TDatosEsenciales)
  | threadCreate (d : TThreadCreate)
  | threadJoin (d : TThreadJoinYCancel)
  | threadCancel (d : TThreadJoinYCancel)
  | threadExit (d : TDatosEsenciales)
  | mutexCreate (d : TMutexTodos)
  | mutexLock (d : TMutexTodos)
  | mutexUnlock (d : TMutexTodos)
  | dumpMemory (d : TDatosEsenciales)
  | io (d : TIO)
  deriving DecidableEq, Repr

/-- The thread that a packet says it is from: its pid and its tid. -/
def PaqueteSyscall.de : PaqueteSyscall → Uint32 × Uint32
  | .processCreate d => (d.PID, d.TID)
  | .threadCreate d => (d.PID, d.TID)
  | .io d => (d.PID, d.TID)
  | .threadJoin d | .threadCancel d => (d.PID, d.TID)
  | .mutexCreate d | .mutexLock d | .mutexUnlock d => (d.PID, d.TID)
  | .dumpMemory d | .threadExit d | .processExit d => (d.pidInv, d.tidInv)

/-- A string that is read through its pointer. -/
def leerPuntero : Option Cadena → Except Falla Cadena
  | some s => .ok s
  | none => .error .punteroNulo

/-- `execute_syscall`: the packet, or none if no `strcmp` matches. -/
def executeSyscall (i : TInstruccion) : Except Falla (Option PaqueteSyscall) :=
  if i.operacion = "PROCESS_CREATE".toList then do
    let archivo ← leerPuntero i.archivo
    pure (some (.processCreate ⟨i.PID, i.TID, archivo, i.tamanio, i.prioridad⟩))
  else if i.operacion = "IO".toList then pure (some (.io ⟨i.PID, i.TID, i.tiempo⟩))
  else if i.operacion = "THREAD_CREATE".toList then do
    let archivo ← leerPuntero i.archivo
    pure (some (.threadCreate ⟨i.PID, i.TID, archivo, i.prioridad⟩))
  else if i.operacion = "THREAD_JOIN".toList then
    pure (some (.threadJoin ⟨i.PID, i.TID, i.tid⟩))
  else if i.operacion = "THREAD_CANCEL".toList then
    pure (some (.threadCancel ⟨i.PID, i.TID, i.tid⟩))
  else if i.operacion = "MUTEX_CREATE".toList then do
    let recurso ← leerPuntero i.recurso
    pure (some (.mutexCreate ⟨i.PID, i.TID, recurso⟩))
  else if i.operacion = "MUTEX_LOCK".toList then do
    let recurso ← leerPuntero i.recurso
    pure (some (.mutexLock ⟨i.PID, i.TID, recurso⟩))
  else if i.operacion = "MUTEX_UNLOCK".toList then do
    let recurso ← leerPuntero i.recurso
    pure (some (.mutexUnlock ⟨i.PID, i.TID, recurso⟩))
  else if i.operacion = "DUMP_MEMORY".toList then pure (some (.dumpMemory ⟨i.PID, i.TID⟩))
  else if i.operacion = "THREAD_EXIT".toList then pure (some (.threadExit ⟨i.PID, i.TID⟩))
  else if i.operacion = "PROCESS_EXIT".toList then pure (some (.processExit ⟨i.PID, i.TID⟩))
  else pure none

/-- A packet that `x` sends carries the thread of the instruction. -/
def EnviaDe (i : TInstruccion) (x : Except Falla (Option PaqueteSyscall)) : Prop :=
  ∀ p, x = .ok (some p) → p.de = (i.PID, i.TID)

theorem EnviaDe.ite {i : TInstruccion} {c : Prop} [Decidable c]
    {x y : Except Falla (Option PaqueteSyscall)} (hx : EnviaDe i x) (hy : EnviaDe i y) :
    EnviaDe i (if c then x else y) := by
  split
  · exact hx
  · exact hy

theorem EnviaDe.uno {i : TInstruccion} {p : PaqueteSyscall} (h : p.de = (i.PID, i.TID)) :
    EnviaDe i (.ok (some p)) := by
  intro q hq
  cases hq
  exact h

theorem EnviaDe.leer {i : TInstruccion} {f : Cadena → PaqueteSyscall} (o : Option Cadena)
    (h : ∀ s, (f s).de = (i.PID, i.TID)) :
    EnviaDe i (do let s ← leerPuntero o; pure (some (f s))) := by
  cases o with
  | none =>
    intro q hq
    cases hq
  | some s => exact .uno (h s)

/-- The packet carries the thread of the instruction. -/
theorem executeSyscall_de (i : TInstruccion) : EnviaDe i (executeSyscall i) := by
  unfold executeSyscall
  refine .ite (.leer _ fun _ => rfl) (.ite (.uno rfl) (.ite (.leer _ fun _ => rfl)
    (.ite (.uno rfl) (.ite (.uno rfl) (.ite (.leer _ fun _ => rfl) (.ite (.leer _ fun _ => rfl)
      (.ite (.leer _ fun _ => rfl) (.ite (.uno rfl) (.ite (.uno rfl) (.ite (.uno rfl) ?_))))))))))
  intro p hp
  cases hp

end LastOfC.Cpu
