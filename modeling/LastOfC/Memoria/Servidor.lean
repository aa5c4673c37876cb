import LastOfC.Lib.Trace
import LastOfC.Memoria.Contextos

/-!
# The byte array and the two listeners (`escuchar_kernel.c`, `escuchar_cpu.c`)

* `writeMem` and `readMem`: the accesses to `memoria`, 4 bytes at a time, little endian. Both
  refuse an address `dir_fis` with `dir_fis + 4 >= tamanio_memoria` by returning without a reply.
* `Peticion`: a decoded packet. `atender` is the `switch` of `escuchar_kernel` and `escuchar_cpu`.
  `DUMP_MEMORY` is a conversation with the file system and is not one of these steps.
* `estadoInicial`: the state after `inicializar_memoria`.

Each handler runs to its end before the next one starts. A run of the module is a `Trace.run` of
`atender`, with the requests of both listeners in the order they are handled.
-/

namespace LastOfC.Memoria

/-! ## `WRITE_MEM` and `READ_MEM` -/

/-- `dir_fis + sizeof(uint32_t) < tamanio_memoria`, a comparison of `size_t`s. -/
def direccionAceptada (cfg : ConfigMemoria) (dirFis : Uint32) : Bool :=
  dirFis.toNat + 4 < cfg.tamMemoria

/-- Byte `k` of a word in memory. -/
def byteDe (valor : Uint32) (k : Nat) : Byte := valor.extractLsb' (8 * k) 8

/-- `memcpy(memoria + dir, &valor, 4)`. -/
def escribirPalabra (m : Nat → Byte) (dir : Nat) (valor : Uint32) (x : Nat) : Byte :=
  if dir ≤ x ∧ x < dir + 4 then byteDe valor (x - dir) else m x

/-- `memcpy(&valor, memoria + dir, 4)`. -/
def leerPalabra (m : Nat → Byte) (dir : Nat) : Uint32 :=
  m (dir + 3) ++ m (dir + 2) ++ m (dir + 1) ++ m dir

/-- `write_mem` of memoria, the handler of `WRITE_MEM`. -/
def writeMem (cfg : ConfigMemoria) (s : Estado) (datos : TDatosWriteMem) : Manejo :=
  if direccionAceptada cfg datos.dirFis then
    .ok ({ s with memoria := escribirPalabra s.memoria datos.dirFis.toNat datos.valor },
      [⟨.cpu, .confirmarWriteMem 1⟩])
  else .ok (s, [])

/-- `read_mem` of memoria, the handler of `READ_MEM`. -/
def readMem (cfg : ConfigMemoria) (s : Estado) (datos : TDatosReadMem) : Manejo :=
  if direccionAceptada cfg datos.dirFis then
    .ok (s, [⟨.cpu, .enviarReadMem (leerPalabra s.memoria datos.dirFis.toNat)⟩])
  else .ok (s, [])

/-! ## The listeners -/

inductive Peticion where
  | asignarMemoria (datos : TAsignarMemoria)
  | finalizarProceso (pid : Uint32)
  | hiloReady (datos : TCrearHilo)
  | finalizarHilo (datos : TDatosEsenciales)
  | obtenerContexto (datos : TEnviarContexto)
  | actualizarContexto (datos : TContextoEjecucion)
  | obtenerInstruccion (datos : TObtenerInstruccion)
  | writeMem (datos : TDatosWriteMem)
  | readMem (datos : TDatosReadMem)
  deriving DecidableEq, Repr

/-- The peer that sent the request, and waits for the reply. -/
def Peticion.origen : Peticion → Fd
  | .asignarMemoria _ | .finalizarProceso _ | .hiloReady _ | .finalizarHilo _ => .kernel
  | .obtenerContexto _ | .actualizarContexto _ | .obtenerInstruccion _ | .writeMem _
  | .readMem _ => .cpu

/-- The process the request is about. -/
def Peticion.pid : Peticion → Uint32
  | .asignarMemoria d => d.pid
  | .finalizarProceso pid => pid
  | .hiloReady d => d.PID
  | .finalizarHilo d => d.pidInv
  | .obtenerContexto d => d.PID
  | .actualizarContexto d => d.pid
  | .obtenerInstruccion d => d.PID
  | .writeMem d => d.pidHilo
  | .readMem d => d.pidHilo

/-- One iteration of `escuchar_kernel` or `escuchar_cpu`. -/
def atender (ent : Entorno) (s : Estado) : Peticion → Manejo
  | .asignarMemoria d => crearProceso ent.toConfigMemoria s d
  | .finalizarProceso pid => finalizarProceso ent.toConfigMemoria s pid
  | .hiloReady d => crearHilo s d
  | .finalizarHilo d => finalizarHilo s d
  | .obtenerContexto d => devolverContextoEjecucion s d
  | .actualizarContexto d => actualizarContextoDeEjecucion s d
  | .obtenerInstruccion d => obtenerInstruccion ent s d
  | .writeMem d => Memoria.writeMem ent.toConfigMemoria s d
  | .readMem d => Memoria.readMem ent.toConfigMemoria s d

/-- The state after `inicializar_memoria`. `malloc` chose `basura`, the `pid` fields of the initial
partitions, and `memoria`, the bytes of the user memory. -/
def estadoInicial (cfg : ConfigMemoria) (basura : Nat → Uint32) (memoria : Nat → Byte) : Estado :=
  { listaParticiones := configurarParticiones cfg basura
    listaContextos := []
    memoria }

/-- `DINAMICAS` and first fit, for runs on fixed inputs. -/
def entornoDinamico (tamMemoria : Nat) (h : tamMemoria < 2 ^ 31) : Entorno :=
  { tamMemoria
    tam_lt := h
    pathInstrucciones := ['/']
    path_ne := by simp
    esquema := .dinamicas
    algoritmoBusqueda := .first
    particiones := []
    archivos := fun _ => none }

theorem cien_lt : 100 < 2 ^ 31 := by decide

/-- A state without threads, for the same runs. -/
def estadoSinHilos (listaParticiones : List Particion) : Estado :=
  { listaParticiones
    listaContextos := []
    memoria := fun _ => 0 }

/-- The first 10 of 100 bytes belong to process 1. -/
def unProceso : Estado := estadoSinHilos [⟨0, 9, 10, false, 1⟩, ⟨10, 99, 90, true, 0⟩]

theorem atender_unProceso :
    let ent := entornoDinamico 100 (by decide)
    atender ent (estadoInicial ent.toConfigMemoria (fun _ => 0) fun _ => 0)
      (.asignarMemoria ⟨1, 10⟩) = .ok (unProceso, [confirmarEspacio 1 1]) := by
  rfl

/-- The next 20 bytes belong to process 2. -/
def dosProcesos : Estado :=
  estadoSinHilos [⟨0, 9, 10, false, 1⟩, ⟨10, 29, 20, false, 2⟩, ⟨30, 99, 70, true, 0⟩]

theorem atender_dosProcesos :
    atender (entornoDinamico 100 (by decide)) unProceso (.asignarMemoria ⟨2, 20⟩) =
      .ok (dosProcesos, [confirmarEspacio 2 1]) := by
  rfl

/-- The first process ended before the second one. -/
def procesoDos : Estado :=
  estadoSinHilos [⟨0, 9, 10, true, 0⟩, ⟨10, 29, 20, false, 2⟩, ⟨30, 99, 70, true, 0⟩]

theorem atender_procesoDos :
    atender (entornoDinamico 100 (by decide)) dosProcesos (.finalizarProceso 1) =
      .ok (procesoDos, []) := by
  rfl

end LastOfC.Memoria
