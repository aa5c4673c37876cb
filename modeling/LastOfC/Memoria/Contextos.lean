import LastOfC.Memoria.Particiones

/-!
# Execution contexts (`escuchar_kernel.c`, `escuchar_cpu.c`)

* `crearHilo` (`HILO_READY`) appends a context with the bounds of the process's partition and
  registers and PC 0; `finalizarHilo` (`FINALIZAR_HILO`) removes the first context with the tid and
  the pid.
* `devolverContextoEjecucion` (`OBTENER_CONTEXTO`) and `actualizarContextoDeEjecucion`
  (`ACTUALIZAR_CONTEXTO`) are the CPU's read and write of a context.
* `obtenerInstruccion` (`OBTENER_INSTRUCCION`) reads line `PC` of the context's file.

A handler that finds nothing returns without a reply, whatever `bit_confirmacion` holds.
-/

namespace LastOfC.Memoria

open KeyedList

/-- The key of a context. -/
def ContextoEjecucion.clave (c : ContextoEjecucion) : Uint32 × Uint32 := (c.pid, c.tid)

/-- `buscar_contexto_por_tid`, and the loop of `finalizar_hilo`. -/
def buscarContextoPorTid (cs : List ContextoEjecucion) (tidBuscado pid : Uint32) :
    Option (Nat × ContextoEjecucion) :=
  search (fun c => c.clave = (pid, tidBuscado)) cs

/-! ## `HILO_READY` and `FINALIZAR_HILO` -/

def nuevoContexto (datos : TCrearHilo) (p : Particion) : ContextoEjecucion :=
  { pid := datos.PID
    tid := datos.TID
    base := p.base
    limite := p.limite
    registros := .cero
    pc := 0
    instrucciones := datos.path
    prioridad := datos.prioridad }

/-- `crear_hilo`, the handler of `HILO_READY`. -/
def crearHilo (s : Estado) (datos : TCrearHilo) : Manejo :=
  match buscarParticionPorPid s.listaParticiones datos.PID with
  | some p =>
    .ok ({ s with listaContextos := s.listaContextos ++ [nuevoContexto datos p] },
      [⟨.kernel, .confirmarCreacionHilo datos.PID datos.TID 1⟩])
  -- `particion->base` is read without a check.
  | none => .error .punteroNulo

/-- `finalizar_hilo` of memoria, the handler of `FINALIZAR_HILO`. It sends nothing. -/
def finalizarHilo (s : Estado) (datos : TDatosEsenciales) : Manejo :=
  match buscarContextoPorTid s.listaContextos datos.tidInv datos.pidInv with
  | some (i, _) => .ok ({ s with listaContextos := s.listaContextos.eraseIdx i }, [])
  | none => .ok (s, [])

/-! ## `OBTENER_CONTEXTO` and `ACTUALIZAR_CONTEXTO` -/

/-- The packet that `devolver_contexto_ejecucion` fills from a context. -/
def ContextoEjecucion.paraCpu (c : ContextoEjecucion) : TContextoEjecucion :=
  { TID := c.tid
    RegistrosCPU := c.registros
    PC := c.pc
    base := c.base
    limite := c.limite
    pid := c.pid }

/-- `devolver_contexto_ejecucion`, the handler of `OBTENER_CONTEXTO`. -/
def devolverContextoEjecucion (s : Estado) (datos : TEnviarContexto) : Manejo :=
  match buscarContextoPorTid s.listaContextos datos.TID datos.PID with
  | some (_, c) => .ok (s, [⟨.cpu, .enviarContexto c.paraCpu⟩])
  | none => .ok (s, [])

/-- `contexto->registros = *(datos_contexto->RegistrosCPU); contexto->pc = datos_contexto->PC`. -/
def ContextoEjecucion.actualizar (datos : TContextoEjecucion) (c : ContextoEjecucion) :
    ContextoEjecucion :=
  { c with registros := datos.RegistrosCPU, pc := datos.PC }

/-- `actualizar_contexto_de_ejecucion`, the handler of `ACTUALIZAR_CONTEXTO`. -/
def actualizarContextoDeEjecucion (s : Estado) (datos : TContextoEjecucion) : Manejo :=
  match buscarContextoPorTid s.listaContextos datos.TID datos.pid with
  | some (i, c) =>
    .ok ({ s with listaContextos := s.listaContextos.set i (c.actualizar datos) },
      [⟨.cpu, .confirmarContextoActualizado 1⟩])
  -- `bit_confirmacion = -1` is followed by `return`, before the packet.
  | none => .ok (s, [])

/-! ## `OBTENER_INSTRUCCION` -/

/-- The lines that the `getline` loop reads: each ends after a `'\n'` or at the end of the file,
and an empty rest is no line. The `'\n'` is cut off. -/
def lineas : Cadena → List Cadena
  | [] => []
  | c :: cs =>
    if c = '\n' then [] :: lineas cs
    else
      match lineas cs with
      | [] => [[c]]
      | l :: ls => (c :: l) :: ls

/-- `strdup` of a line stops at its first NUL. -/
def strdup (linea : Cadena) : Cadena := linea.takeWhile fun c => c ≠ '\x00'

/-- `path_completo`: a `/` goes between the two parts if the first does not end in one. -/
def pathCompleto (cfg : ConfigMemoria) (path : Cadena) : Cadena :=
  if cfg.pathInstrucciones.getLast cfg.path_ne ≠ '/' then
    cfg.pathInstrucciones ++ '/' :: path
  else cfg.pathInstrucciones ++ path

/-- The loop over the file, and the check of the PC against `num_lineas`. -/
def obtenerInstruccionPorPc (ent : Entorno) (pc : Uint32) (path : Cadena) : Option Cadena :=
  match ent.archivos (pathCompleto ent.toConfigMemoria path) with
  | some archivo => ((lineas archivo).map strdup)[pc.toNat]?
  | none => none

/-- The handler of `OBTENER_INSTRUCCION`. -/
def obtenerInstruccion (ent : Entorno) (s : Estado) (datos : TObtenerInstruccion) : Manejo :=
  match buscarContextoPorTid s.listaContextos datos.TID datos.PID with
  | none => .ok (s, [])
  | some (_, c) =>
    match obtenerInstruccionPorPc ent datos.PC c.instrucciones with
    | none => .ok (s, [])
    | some instruccion => .ok (s, [⟨.cpu, .enviarInstruccion instruccion⟩])

end LastOfC.Memoria
