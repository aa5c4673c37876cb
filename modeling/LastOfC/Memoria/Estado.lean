import LastOfC.Utils.Tipos

/-!
# State of the memory module (`m_conexiones.h`)

The globals of memoria that its handlers share: `lista_particiones`, `lista_contextos` and the
byte array `memoria`. A `t_list` of `malloc`ed elements is a `List` of their values, and a pointer
to an element is its index. The locks are not modelled: a handler is one step.

The configuration is the part of `t_config_memoria` that a handler reads, after `atoi` and after
the `strcmp` chains; `otro` is a string that matches no branch of its chain.
-/

namespace LastOfC.Memoria

structure Particion where
  base : Uint32
  limite : Uint32
  tamanio : Uint32
  libre : Bool
  pid : Uint32
  deriving DecidableEq, Repr

structure ContextoEjecucion where
  pid : Uint32
  tid : Uint32
  base : Uint32
  limite : Uint32
  registros : RegistrosCPU
  pc : Uint32
  instrucciones : Cadena
  prioridad : CInt
  deriving DecidableEq, Repr

/-- `ESQUEMA`. -/
inductive Esquema where
  | fijas
  | dinamicas
  | otro
  deriving DecidableEq, Repr

/-- `ALGORITMO_BUSQUEDA`. -/
inductive AlgoritmoBusqueda where
  | first
  | best
  | worst
  | otro
  deriving DecidableEq, Repr

structure ConfigMemoria where
  /-- `atoi` of `TAM_MEMORIA`, which is also the global `tamanio_memoria`. A negative value does
  not get past the `malloc` of `inicializar_memoria`. -/
  tamMemoria : Nat
  tam_lt : tamMemoria < 2 ^ 31
  /-- Nonempty: `obtener_instruccion_por_pc` reads its last character. -/
  pathInstrucciones : Cadena
  path_ne : pathInstrucciones ≠ []
  esquema : Esquema
  algoritmoBusqueda : AlgoritmoBusqueda
  /-- `atoi` of each element of `PARTICIONES`. -/
  particiones : List CInt

/-- What a handler finds around it: the configuration and the instruction files. -/
structure Entorno extends ConfigMemoria where
  /-- The text of the file that `fopen(path, "r")` opens, or none if it fails. -/
  archivos : Cadena → Option Cadena

structure Estado where
  listaParticiones : List Particion
  listaContextos : List ContextoEjecucion
  /-- Only the addresses below `tamMemoria` exist. -/
  memoria : Nat → Byte

/-- The socket a reply is sent to. -/
inductive Fd where
  | kernel
  | cpu
  deriving DecidableEq, Repr

/-- The packets that memoria sends. -/
inductive Respuesta where
  | confirmarEspacioProceso (pid bitConfirmacion : Uint32)
  | confirmarCreacionHilo (pid tid bitConfirmacion : Uint32)
  | enviarContexto (contexto : TContextoEjecucion)
  | confirmarContextoActualizado (bitConfirmacion : CInt)
  | enviarInstruccion (instruccion : Cadena)
  | confirmarWriteMem (bitConfirmacion : CInt)
  | enviarReadMem (valor : CInt)
  deriving DecidableEq, Repr

/-- `enviar_paquete(paquete, fd)`. -/
structure Envio where
  fd : Fd
  paquete : Respuesta
  deriving DecidableEq, Repr

/-- Why a handler does not return. -/
inductive Falla where
  /-- It reads a field through a `NULL` pointer. -/
  | punteroNulo
  deriving DecidableEq, Repr

/-- The outcome of a handler: the next state and the packets sent, or the crash of the module. -/
abbrev Manejo := Except Falla (Estado × List Envio)

end LastOfC.Memoria
