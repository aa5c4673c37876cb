import LastOfC.Lib.KeyedList
import LastOfC.Memoria.Estado

/-!
# Partitions (`configurar_particiones` of `m_conexiones.c`, `escuchar_kernel.c`)

* `configurarParticiones`: the initial list. The `pid` field of a new partition is never written,
  so it is what `malloc` left there: `basura k` for the `k`-th partition.
* `evaluarParticion`: the search of `ALGORITMO_BUSQUEDA`. The result is the partition found with
  its index, or none for `NULL`.
* `crearProceso` (`ASIGNAR_MEMORIA`) and `finalizarProceso` (`FINALIZAR_PROCESO`), the only two
  handlers that change `lista_particiones`, with the split and the merges they do.

`finalizar_proceso` also logs the fields of the partition it freed, after the merges may have
released it. The log is not modelled.
-/

namespace LastOfC.Memoria

open KeyedList

/-! ## The initial list -/

/-- The loop of `configurar_particiones` over `PARTICIONES`. `inicio` is a `size_t`; a field gets
its low 32 bits. -/
def configurarFijas (basura : Nat → Uint32) (inicio : BitVec 64) (k : Nat) :
    List CInt → List Particion
  | [] => []
  | t :: ts =>
    { base := inicio.setWidth 32
      limite := (inicio + t.signExtend 64 - 1).setWidth 32
      tamanio := t
      libre := true
      pid := basura k } :: configurarFijas basura (inicio + t.setWidth 64) (k + 1) ts

def configurarParticiones (cfg : ConfigMemoria) (basura : Nat → Uint32) : List Particion :=
  match cfg.esquema with
  | .fijas => configurarFijas basura 0 0 cfg.particiones
  | .dinamicas =>
    [{ base := 0
       limite := BitVec.ofNat 32 cfg.tamMemoria - 1
       tamanio := BitVec.ofNat 32 cfg.tamMemoria
       libre := true
       pid := basura 0 }]
  | .otro => []

theorem configurarFijas_libre {basura : Nat → Uint32} {inicio : BitVec 64} {k : Nat}
    {ts : List CInt} : ∀ p ∈ configurarFijas basura inicio k ts, p.libre = true := by
  induction ts generalizing inicio k with
  | nil => simp [configurarFijas]
  | cons t ts ih =>
    rw [configurarFijas, List.forall_mem_cons]
    exact ⟨rfl, ih⟩

/-- All partitions are free at the start. -/
theorem configurarParticiones_libre {cfg : ConfigMemoria} {basura : Nat → Uint32} :
    ∀ p ∈ configurarParticiones cfg basura, p.libre = true := by
  unfold configurarParticiones
  split
  · exact configurarFijas_libre
  · simp
  · simp

/-! ## The search -/

/-- The test of the three searches. -/
def Particion.entra (tamanioProceso : Uint32) (p : Particion) : Bool :=
  p.libre && tamanioProceso ≤ p.tamanio

def algoritmoFirstFit (ps : List Particion) (tamanioProceso : Uint32) : Option (Nat × Particion) :=
  search (Particion.entra tamanioProceso) ps

/-- The loop of `algoritmo_best_fit` and `algoritmo_worst_fit`, from index `i` on: `elegida` is
`particion_elegida`, and a later partition replaces it if it is `mejor`. -/
def elegirDesde (mejor : Uint32 → Uint32 → Bool) (tamanioProceso : Uint32)
    (elegida : Option (Nat × Particion)) (i : Nat) : List Particion → Option (Nat × Particion)
  | [] => elegida
  | p :: ps =>
    let elegida' :=
      if p.entra tamanioProceso then
        match elegida with
        | none => some (i, p)
        | some e => if mejor p.tamanio e.2.tamanio then some (i, p) else elegida
      else elegida
    elegirDesde mejor tamanioProceso elegida' (i + 1) ps

def algoritmoBestFit (ps : List Particion) (tamanioProceso : Uint32) : Option (Nat × Particion) :=
  elegirDesde (fun a b => a < b) tamanioProceso none 0 ps

def algoritmoWorstFit (ps : List Particion) (tamanioProceso : Uint32) : Option (Nat × Particion) :=
  elegirDesde (fun a b => b < a) tamanioProceso none 0 ps

def evaluarParticion (alg : AlgoritmoBusqueda) (ps : List Particion) (tamanio : CInt) :
    Option (Nat × Particion) :=
  match alg with
  | .first => algoritmoFirstFit ps tamanio
  | .best => algoritmoBestFit ps tamanio
  | .worst => algoritmoWorstFit ps tamanio
  | .otro => none

/-! ## `ASIGNAR_MEMORIA` -/

/-- `bit_confirmacion` of a reply that confirms nothing. -/
def sinConfirmar : Uint32 := -1

/-- `libre = false; pid = datos_asignar_memoria->pid`. -/
def Particion.ocupar (pid : Uint32) (p : Particion) : Particion := { p with libre := false, pid }

/-- The first partition of a split: the old one, cut down to the size asked for. -/
def Particion.recortar (tamanioProceso : Uint32) (p : Particion) : Particion :=
  { p with
    tamanio := tamanioProceso
    libre := false
    limite := p.base + tamanioProceso - 1 }

/-- The second partition of a split: the new free one. -/
def Particion.resto (tamanioProceso : Uint32) (p : Particion) : Particion :=
  let espacioRestante := p.tamanio - tamanioProceso
  let base := p.base + tamanioProceso
  { tamanio := espacioRestante
    libre := true
    pid := 0
    base
    limite := base + espacioRestante - 1 }

/-- `dividir_particion` of the partition `p` at index `i`: the new free partition goes to the end
of the list. -/
def dividirParticion (ps : List Particion) (i : Nat) (p : Particion) (tamanioProceso : Uint32) :
    List Particion :=
  ps.set i (p.recortar tamanioProceso) ++ [p.resto tamanioProceso]

def confirmarEspacio (pid bitConfirmacion : Uint32) : Envio :=
  ⟨.kernel, .confirmarEspacioProceso pid bitConfirmacion⟩

def asignarParticionesFijas (cfg : ConfigMemoria) (s : Estado) (datos : TAsignarMemoria) : Manejo :=
  match evaluarParticion cfg.algoritmoBusqueda s.listaParticiones datos.tamProceso with
  | some (i, p) =>
    .ok ({ s with listaParticiones := s.listaParticiones.set i (p.ocupar datos.pid) },
      [confirmarEspacio datos.pid 1])
  -- The second `log_info` is outside the `if`: it reads `particion_asignada->base`.
  | none => .error .punteroNulo

def asignarParticionesDinamicas (cfg : ConfigMemoria) (s : Estado) (datos : TAsignarMemoria) :
    Manejo :=
  match evaluarParticion cfg.algoritmoBusqueda s.listaParticiones datos.tamProceso with
  | some (i, p) =>
    let ps := s.listaParticiones.set i (p.ocupar datos.pid)
    if datos.tamProceso < p.tamanio then
      .ok ({ s with
        listaParticiones := dividirParticion ps i (p.ocupar datos.pid) datos.tamProceso },
        [confirmarEspacio datos.pid 1])
    else
      -- An exact fit is occupied, but `bit_confirmacion` keeps its initial `-1`.
      .ok ({ s with listaParticiones := ps }, [confirmarEspacio datos.pid sinConfirmar])
  -- The packet is built inside the `if`: without a partition there is no reply.
  | none => .ok (s, [])

/-- `crear_proceso`, the handler of `ASIGNAR_MEMORIA`. -/
def crearProceso (cfg : ConfigMemoria) (s : Estado) (datos : TAsignarMemoria) : Manejo :=
  match cfg.esquema with
  | .fijas => asignarParticionesFijas cfg s datos
  | .dinamicas => asignarParticionesDinamicas cfg s datos
  | .otro => .ok (s, [])

/-! ## `FINALIZAR_PROCESO` -/

/-- `libre = true; pid = 0`. -/
def Particion.liberar (p : Particion) : Particion := { p with libre := true, pid := 0 }

/-- The partition at index `k + 1` is added to the one at index `k` and taken off the list. Only
`tamanio` is updated. -/
def absorber (ps : List Particion) (k : Nat) (a b : Particion) : List Particion :=
  (ps.set k { a with tamanio := a.tamanio + b.tamanio }).eraseIdx (k + 1)

/-- The first half of `consolidar_particiones_libres`: the next element, if it is free. -/
def consolidarSiguiente (ps : List Particion) (indice : Nat) : List Particion :=
  match ps[indice]?, ps[indice + 1]? with
  | some actual, some siguiente =>
    if siguiente.libre then absorber ps indice actual siguiente else ps
  | _, _ => ps

/-- The second half: the previous element, if it is free. -/
def consolidarAnterior (ps : List Particion) : Nat → List Particion
  | 0 => ps
  | k + 1 =>
    match ps[k]?, ps[k + 1]? with
    | some anterior, some actual => if anterior.libre then absorber ps k anterior actual else ps
    | _, _ => ps

def consolidarParticionesLibres (ps : List Particion) (indice : Nat) : List Particion :=
  consolidarAnterior (consolidarSiguiente ps indice) indice

/-- The element of `lista_particiones` that a request about `pid` is about: the first one that
carries it. -/
def buscarPid (ps : List Particion) (pid : Uint32) : Option (Nat × Particion) :=
  search (fun p => p.pid = pid) ps

def buscarParticionPorPid (ps : List Particion) (pid : Uint32) : Option Particion :=
  (buscarPid ps pid).map Prod.snd

/-- `finalizar_proceso` on the list. -/
def liberarPid (esquema : Esquema) (ps : List Particion) (pid : Uint32) : List Particion :=
  match buscarPid ps pid with
  | some (i, p) =>
    let ps := ps.set i p.liberar
    if esquema = .dinamicas then consolidarParticionesLibres ps i else ps
  | none => ps

/-- `finalizar_proceso`, the handler of `FINALIZAR_PROCESO`. It sends nothing. -/
def finalizarProceso (cfg : ConfigMemoria) (s : Estado) (pid : Uint32) : Manejo :=
  .ok ({ s with listaParticiones := liberarPid cfg.esquema s.listaParticiones pid }, [])

end LastOfC.Memoria
