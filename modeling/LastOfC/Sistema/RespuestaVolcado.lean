import LastOfC.Kernel.Oyente
import LastOfC.Sistema.FinHilo
import LastOfC.Sistema.Volcado
import LastOfC.Utils.Mensajes

/-!
# The outcome of a dump on its way to the thread (`escuchar_kernel.c`, `kernel_escucha_memoria.c`)

`envio_datos_a_FS` forwards the answer of the file system with `send`: 4 bytes, and not a packet.
On the other side `recibir_paquete` reads whole packets, and the case `CONFIRMAR_DUMP_MEMORY`
wakes no one.

* `Modulos`: the kernel, memoria, and the connection between them. `escrito` is all that memoria
  wrote to it, of which the threads of the kernel took the first `leidos` bytes.
* `pasoModulos`: a step of a thread of the kernel, or of a listener of memoria. What the file
  system answers, and how many bytes `recibir_mensajeV2` takes, is up to the run.
* `Alineado`: calls of `recibir_paquete` read what memoria wrote as whole packets, with each reply
  as it was sent.
* `Resuelta`: what the handling of an answer does for the thread that asked.
* `respuesta_iff`: both hold along a run exactly when memoria forwards no answer in it.
-/

namespace LastOfC.Sistema

open Trace

/-! ## Replies of memoria -/

/-- `CONFIRMAR_ESPACIO_PROCESO`. -/
def CONFIRMAR_ESPACIO_PROCESO : CInt := 2

/-- `CONFIRMAR_CREACION_HILO`. -/
def CONFIRMAR_CREACION_HILO : CInt := 3

/-- `CONFIRMAR_DUMP_MEMORY`. -/
def CONFIRMAR_DUMP_MEMORY : CInt := 29

/-- The reply that `crear_proceso` or `crear_hilo` of memoria sends to the kernel. -/
def respuestaKernel : Memoria.Envio → Option Kernel.MensajeMemoria
  | ⟨.kernel, .confirmarEspacioProceso pid bitConfirmacion⟩ =>
    some (.confirmarEspacioProceso { pid, bitConfirmacion })
  | ⟨.kernel, .confirmarCreacionHilo pid tid bitConfirmacion⟩ =>
    some (.confirmarCreacionHilo { pid, tid, bitConfirmacion })
  | _ => none

/-- The bytes of a reply. Memoria has no code that sends a `CONFIRMAR_DUMP_MEMORY`. -/
def enviarRespuesta (malloc : Malloc) : Kernel.MensajeMemoria → Option (List Byte)
  | .confirmarEspacioProceso d => do
    let buffer ← serializarProcesoMemoria (crearBuffer malloc.offset) d malloc.stream
    enviarPaquete malloc.magic { codigoOperacion := CONFIRMAR_ESPACIO_PROCESO, buffer }
  | .confirmarCreacionHilo d => do
    let buffer ← serializarHiloMemoria (crearBuffer malloc.offset) d malloc.stream
    enviarPaquete malloc.magic { codigoOperacion := CONFIRMAR_CREACION_HILO, buffer }
  | .confirmarDumpMemory => none

/-- What the `switch` of `kernel_escucha_memoria` reads from a packet, if a case takes it. -/
def mensajeDe (p : TPaquete) : Option Kernel.MensajeMemoria :=
  if p.codigoOperacion = CONFIRMAR_ESPACIO_PROCESO then
    (deserializarProcesoMemoria p.buffer).map .confirmarEspacioProceso
  else if p.codigoOperacion = CONFIRMAR_CREACION_HILO then
    (deserializarCreacionHiloMemoria p.buffer).map .confirmarCreacionHilo
  else if p.codigoOperacion = CONFIRMAR_DUMP_MEMORY then some .confirmarDumpMemory
  else none

/-! ## The machine -/

/-- An answer of the file system that memoria forwarded, for the request of `datos`. -/
structure RespuestaDump where
  datos : TDatosEsenciales
  valor : CInt
  /-- Where its last byte is in `escrito`. -/
  fin : Nat
  deriving DecidableEq, Repr

structure Modulos where
  kernel : Kernel.Estado
  memoria : Memoria.Estado
  /-- The packets of the kernel that memoria has not read, in order. -/
  pedidos : List Kernel.Paquete
  /-- The bytes that memoria wrote to `fd_kernel`, in order. -/
  escrito : List Byte
  /-- The replies that memoria sent as packets. -/
  enviadas : List Kernel.MensajeMemoria
  /-- The answers that memoria forwarded. -/
  respuestas : List RespuestaDump
  /-- How many bytes of `escrito` were read. -/
  leidos : Nat
  /-- `kernel_escucha_memoria` is in `planificador_corto_plazo`. -/
  planificando : Bool
  /-- The answers of which the last step of the listener read the end. -/
  atendidas : List RespuestaDump

inductive Suceso where
  /-- `kernel_escucha_cpu_dispatch`. -/
  | syscall (y : Kernel.Syscall)
  | cortoPlazo
  | largoPlazo
  /-- `recibir_mensajeV2` takes the next `n` bytes from the listener. -/
  | recibirMensaje (n : Nat)
  /-- `kernel_escucha_memoria`. -/
  | kernelEscucha (basura : Basura)
  /-- `escuchar_kernel` of memoria, with a request other than `DUMP_MEMORY`. -/
  | memoriaAtiende (malloc : Malloc)
  /-- `envio_datos_a_FS`, where `recv` leaves `valorAEnviar`. -/
  | memoriaVuelca (tm : Tm) (malloc : Malloc) (valorAEnviar : CInt)
  /-- `escuchar_cpu` of memoria. -/
  | memoriaCpu (q : Memoria.Peticion)

/-- Why a step does not end. -/
inductive FallaModulos where
  | kernel (f : Kernel.Falla)
  | memoria (f : Memoria.Falla)
  /-- It waits for bytes, or for a packet. -/
  | espera
  /-- It reads outside of the payload. -/
  | lectura
  deriving DecidableEq, Repr

/-- The outcome of a step, with the packets that the kernel sent. -/
abbrev PasoModulos := Except FallaModulos (Modulos × List Kernel.Paquete)

/-- The packet goes to memoria. -/
def paraEscucharKernel : Kernel.Paquete → Bool
  | .recibirTid _ _ => false
  | _ => true

namespace Modulos

/-- A step of a thread of the kernel. -/
def enKernel (s : Modulos) (ent : Kernel.Entorno) (p : Kernel.Paso) : PasoModulos :=
  match Kernel.paso ent s.kernel p with
  | .ok (k', o) =>
    .ok ({ s with kernel := k', pedidos := s.pedidos ++ o.filter paraEscucharKernel }, o)
  | .error f => .error (.kernel f)

/-- The listener read up to `socket`, the rest of the stream. -/
def leyo (s : Modulos) (socket : List Byte) : Modulos :=
  let leidos := s.escrito.length - socket.length
  { s with
    leidos
    atendidas := s.respuestas.filter fun r => s.leidos < r.fin ∧ r.fin ≤ leidos }

/-- A step of `kernel_escucha_memoria`: an iteration of the loop it is in. -/
def escuchar (s : Modulos) (ent : Kernel.Entorno) (basura : Basura) : PasoModulos :=
  if s.planificando then s.enKernel ent .cortoPlazo
  else match esperarPaquete basura (s.escrito.drop s.leidos) with
    | none => .error .espera
    | some (none, socket) => .ok (s.leyo socket, [])
    | some (some p, socket) =>
      match mensajeDe p with
      | some m =>
        ({ s.leyo socket with planificando := m.planifica } : Modulos).enKernel ent (.memoria m)
      | none =>
        -- The other cases check what they read, and an unknown operation reads nothing.
        if p.codigoOperacion = CONFIRMAR_ESPACIO_PROCESO then .error .lectura
        else .ok (s.leyo socket, [])

/-- `escuchar_kernel` of memoria takes a request other than `DUMP_MEMORY`. -/
def atender (s : Modulos) (ent : Memoria.Entorno) (malloc : Malloc) : PasoModulos :=
  match s.pedidos with
  | [] => .error .espera
  | .dumpMemory _ :: _ => .error .espera
  | p :: resto =>
    match peticion p with
    | none => .error .lectura
    | some q =>
      match Memoria.atender ent s.memoria q with
      | .error f => .error (.memoria f)
      | .ok (m', o) =>
        match enviarTodos (enviarRespuesta malloc) (o.filterMap respuestaKernel) with
        | none => .error .lectura
        | some bytes =>
          .ok ({ s with
            memoria := m'
            pedidos := resto
            escrito := s.escrito ++ bytes
            enviadas := s.enviadas ++ o.filterMap respuestaKernel }, [])

/-- `escuchar_kernel` of memoria takes a `DUMP_MEMORY`. -/
def volcar (s : Modulos) (tm : Tm) (malloc : Malloc) (valorAEnviar : CInt) : PasoModulos :=
  match s.pedidos with
  | .dumpMemory d :: resto =>
    match envioDatosAFS s.memoria d tm malloc.offset malloc.magic with
    | .error f => .error (.memoria f)
    | .ok _ =>
      -- `send(fd_kernel, &valor_a_enviar, sizeof(valor_a_enviar), 0)`.
      .ok ({ s with
        pedidos := resto
        escrito := s.escrito ++ bytesDe valorAEnviar
        respuestas := s.respuestas ++ [⟨d, valorAEnviar, s.escrito.length + 4⟩] }, [])
  | _ => .error .espera

/-- `escuchar_cpu` of memoria. -/
def atenderCpu (s : Modulos) (ent : Memoria.Entorno) (q : Memoria.Peticion) : PasoModulos :=
  if q.origen = .cpu then
    match Memoria.atender ent s.memoria q with
    | .error f => .error (.memoria f)
    | .ok (m', _) => .ok ({ s with memoria := m' }, [])
  else .error .espera

/-- `recibir_mensajeV2(fd_memoria)` takes `n` bytes. -/
def recibirMensaje (s : Modulos) (n : Nat) : PasoModulos :=
  if s.leidos + n ≤ s.escrito.length then .ok ({ s with leidos := s.leidos + n }, [])
  else .error .espera

/-- The modules are connected, and nothing was sent. -/
def nuevos (k : Kernel.Estado) (m : Memoria.Estado) : Modulos :=
  { kernel := k
    memoria := m
    pedidos := []
    escrito := []
    enviadas := []
    respuestas := []
    leidos := 0
    planificando := false
    atendidas := [] }

/-- Before a step, no answer was read in it. -/
def sinAtendidas (s : Modulos) : Modulos := { s with atendidas := [] }

end Modulos

def pasoModulos (entK : Kernel.Entorno) (entM : Memoria.Entorno) (s : Modulos) :
    Suceso → PasoModulos
  | .syscall y => s.sinAtendidas.enKernel entK (.syscall y)
  | .cortoPlazo => s.sinAtendidas.enKernel entK .cortoPlazo
  | .largoPlazo => s.sinAtendidas.enKernel entK .largoPlazo
  | .recibirMensaje n => s.sinAtendidas.recibirMensaje n
  | .kernelEscucha basura => s.sinAtendidas.escuchar entK basura
  | .memoriaAtiende malloc => s.sinAtendidas.atender entM malloc
  | .memoriaVuelca tm malloc valorAEnviar => s.sinAtendidas.volcar tm malloc valorAEnviar
  | .memoriaCpu q => s.sinAtendidas.atenderCpu entM q

/-! ## What should hold -/

/-- One call of `recibir_paquete` for each message of memoria reads all that it wrote, as packets,
and the replies among them are those that it sent. -/
def Alineado (s : Modulos) : Prop :=
  ∀ bs : List Basura, bs.length = s.enviadas.length + s.respuestas.length →
    ∃ ps : List TPaquete, esperarPaquetes bs s.escrito = some (ps.map some, []) ∧
      (ps.filterMap mensajeDe).filter (· ≠ .confirmarDumpMemory) = s.enviadas

/-- The TCB at `h` is of the thread that asked for the dump. -/
def EsDe (k : Kernel.Estado) (r : RespuestaDump) (h : Kernel.Dir) : Prop :=
  (k.tcbs h).pid = r.datos.pidInv ∧ (k.tcbs h).tid = r.datos.tidInv

/-- The thread that asked is not blocked: it is ready after a success, and has ended after an
error. -/
structure Resuelta (exito : CInt → Bool) (k : Kernel.Estado) (r : RespuestaDump) : Prop where
  suelta : ∀ h ∈ k.listaBlocked, ¬ EsDe k r h
  lista : exito r.valor = true → ∃ h ∈ k.listaReady, EsDe k r h ∧ (k.tcbs h).estadoHilo = .ready
  termina : exito r.valor = false →
    k.terminado (k.buscarTcbs r.datos.tidInv r.datos.pidInv) = true

/-- The stream is whole packets, and each answer that was handled has reached its thread. -/
def LlegaRespuesta (exito : CInt → Bool) (s : Modulos) : Prop :=
  Alineado s ∧ ∀ r ∈ s.atendidas, Resuelta exito s.kernel r

/-- The step forwards an answer. -/
def Suceso.reenvia : Suceso → Bool
  | .memoriaVuelca _ _ _ => true
  | _ => false

/-! ## Packets of memoria -/

section Respuestas

variable {malloc : Malloc} {m : Kernel.MensajeMemoria} {ms : List Kernel.MensajeMemoria}
  {bytes : List Byte}

/-- The packet of a reply. -/
def mensajeRespuesta : Kernel.MensajeMemoria → Mensaje
  | .confirmarEspacioProceso d =>
    ⟨CONFIRMAR_ESPACIO_PROCESO, bytesDe d.pid ++ bytesDe d.bitConfirmacion, by decide, by simp⟩
  | .confirmarCreacionHilo d =>
    ⟨CONFIRMAR_CREACION_HILO, bytesDe d.pid ++ (bytesDe d.tid ++ bytesDe d.bitConfirmacion),
      by decide, by simp⟩
  | .confirmarDumpMemory => ⟨CONFIRMAR_DUMP_MEMORY, [], by decide, by simp⟩

/-- The stream of some replies. -/
def flujoRespuestas (ms : List Kernel.MensajeMemoria) : List Byte :=
  (ms.map mensajeRespuesta).flatMap Mensaje.trama

/-- A reply is written as its packet, whatever `malloc` returned. -/
theorem enviarRespuesta_eq (h : enviarRespuesta malloc m = some bytes) :
    bytes = (mensajeRespuesta m).trama ∧ m ≠ .confirmarDumpMemory := by
  cases m with
  | confirmarEspacioProceso d =>
    have hbuffer : serializarProcesoMemoria (crearBuffer malloc.offset) d malloc.stream =
        some ⟨8, malloc.offset, bytesDe d.pid ++ bytesDe d.bitConfirmacion⟩ :=
      rellenarBuffer_eq _ _ (by simp [Block.Fills])
    simp only [enviarRespuesta, hbuffer, Option.bind_eq_bind, Option.bind_some] at h
    have hbytes := enviarPaquete_mensaje (mensajeRespuesta (.confirmarEspacioProceso d))
      malloc.magic malloc.offset
    exact ⟨Option.some.inj (h.symm.trans hbytes), by simp⟩
  | confirmarCreacionHilo d =>
    have hbuffer : serializarHiloMemoria (crearBuffer malloc.offset) d malloc.stream =
        some ⟨12, malloc.offset, bytesDe d.pid ++ (bytesDe d.tid ++ bytesDe d.bitConfirmacion)⟩ :=
      rellenarBuffer_eq _ _ (by simp [Block.Fills])
    simp only [enviarRespuesta, hbuffer, Option.bind_eq_bind, Option.bind_some] at h
    have hbytes := enviarPaquete_mensaje (mensajeRespuesta (.confirmarCreacionHilo d))
      malloc.magic malloc.offset
    exact ⟨Option.some.inj (h.symm.trans hbytes), by simp⟩
  | confirmarDumpMemory => cases h

theorem enviarRespuestas_eq (h : enviarTodos (enviarRespuesta malloc) ms = some bytes) :
    bytes = flujoRespuestas ms ∧ Kernel.MensajeMemoria.confirmarDumpMemory ∉ ms := by
  induction ms generalizing bytes with
  | nil =>
    cases h
    exact ⟨rfl, List.not_mem_nil⟩
  | cons m ms ih =>
    obtain ⟨b₁, h₁, h⟩ := Option.bind_eq_some_iff.mp h
    obtain ⟨b₂, h₂, h⟩ := Option.bind_eq_some_iff.mp h
    cases h
    obtain ⟨rfl, hm⟩ := enviarRespuesta_eq h₁
    obtain ⟨rfl, hms⟩ := ih h₂
    exact ⟨rfl, fun hmem => (List.mem_cons.mp hmem).elim hm.symm hms⟩

/-- The listener reads a reply as it was sent. -/
theorem mensajeDe_recibido (m : Kernel.MensajeMemoria) (basura : Basura) :
    mensajeDe ((mensajeRespuesta m).recibido basura) = some m := by
  cases m with
  | confirmarEspacioProceso d =>
    show (deserializarProcesoMemoria
      ⟨8, basura.offset, bytesDe d.pid ++ bytesDe d.bitConfirmacion⟩).map _ = _
    have hresto : bytesDe d.bitConfirmacion = bytesDe d.bitConfirmacion ++ [] := by simp
    unfold deserializarProcesoMemoria
    rw [hresto]
    simp only [leer_bytesDe, Option.bind_eq_bind, Option.bind_some, Option.map_some]
  | confirmarCreacionHilo d =>
    show (deserializarCreacionHiloMemoria ⟨12, basura.offset,
      bytesDe d.pid ++ (bytesDe d.tid ++ bytesDe d.bitConfirmacion)⟩).map _ = _
    have hresto : bytesDe d.bitConfirmacion = bytesDe d.bitConfirmacion ++ [] := by simp
    have hsize : ¬ (12 : CInt).slt 12 := by decide
    unfold deserializarCreacionHiloMemoria
    rw [if_neg hsize, hresto]
    simp only [leer_bytesDe, Option.bind_eq_bind, Option.bind_some, Option.map_some]
  | confirmarDumpMemory => rfl

/-- The packets that the calls of `recibir_paquete` return. -/
theorem recibidos_eq {bs : List Basura} (h : bs.length = ms.length) :
    ∃ ps : List TPaquete, List.zipWith (fun m b => some (Mensaje.recibido m b))
        (ms.map mensajeRespuesta) bs = ps.map some ∧ ps.filterMap mensajeDe = ms := by
  induction ms generalizing bs with
  | nil => exact ⟨[], by simp, rfl⟩
  | cons m ms ih =>
    cases bs with
    | nil => cases h
    | cons b bs =>
      obtain ⟨ps, hps, hms⟩ := ih (Nat.succ.inj h)
      refine ⟨(mensajeRespuesta m).recibido b :: ps, ?_, ?_⟩
      · rw [List.map_cons, List.zipWith_cons_cons, hps, List.map_cons]
      · rw [List.filterMap_cons_some (mensajeDe_recibido m b), hms]

end Respuestas

/-! ## Runs -/

section Corridas

variable {entK : Kernel.Entorno} {entM : Memoria.Entorno} {exito : CInt → Bool} {s s' : Modulos}
  {a : Suceso} {o : List Kernel.Paquete}

/-- Memoria has sent replies, and no answer of the file system. -/
structure Entero (s : Modulos) : Prop where
  escrito : s.escrito = flujoRespuestas s.enviadas
  enviadas : Kernel.MensajeMemoria.confirmarDumpMemory ∉ s.enviadas
  respuestas : s.respuestas = []
  atendidas : s.atendidas = []

theorem Entero.alineado (h : Entero s) : Alineado s := by
  intro bs hbs
  rw [h.respuestas, List.length_nil, Nat.add_zero] at hbs
  obtain ⟨ps, hps, hms⟩ := recibidos_eq hbs
  have hlen : bs.length = (s.enviadas.map mensajeRespuesta).length := by rw [List.length_map, hbs]
  have hleer := esperarPaquetes_tramas hlen []
  refine ⟨ps, ?_, ?_⟩
  · rw [← hps, ← hleer, List.append_nil, h.escrito]
    rfl
  · rw [hms]
    refine List.filter_eq_self.mpr fun m hm => ?_
    exact decide_eq_true fun heq => h.enviadas (heq ▸ hm)

theorem Entero.sinAtendidas (h : Entero s) : Entero s.sinAtendidas :=
  ⟨h.escrito, h.enviadas, h.respuestas, rfl⟩

theorem enKernel_modulos {p : Kernel.Paso} (h : s.enKernel entK p = .ok (s', o)) :
    ∃ k', Kernel.paso entK s.kernel p = .ok (k', o) ∧ s' = { s with
      kernel := k', pedidos := s.pedidos ++ o.filter paraEscucharKernel } := by
  unfold Modulos.enKernel at h
  cases hp : Kernel.paso entK s.kernel p with
  | error f =>
    rw [hp] at h
    cases h
  | ok r =>
    rw [hp] at h
    cases h
    exact ⟨r.1, rfl, rfl⟩

theorem Entero.enKernel {p : Kernel.Paso} (hs : Entero s) (h : s.enKernel entK p = .ok (s', o)) :
    Entero s' := by
  obtain ⟨k', -, rfl⟩ := enKernel_modulos h
  exact ⟨hs.escrito, hs.enviadas, hs.respuestas, hs.atendidas⟩

theorem Entero.leyo (h : Entero s) (socket : List Byte) : Entero (s.leyo socket) := by
  refine ⟨h.escrito, h.enviadas, h.respuestas, ?_⟩
  unfold Modulos.leyo
  rw [h.respuestas]
  rfl

theorem Entero.escuchar {basura : Basura} (hs : Entero s)
    (h : s.escuchar entK basura = .ok (s', o)) : Entero s' := by
  unfold Modulos.escuchar at h
  split at h
  · exact hs.enKernel h
  · split at h
    · cases h
    · cases h
      exact hs.leyo _
    · split at h
      · refine Entero.enKernel (s := { s.leyo _ with planificando := _ }) ?_ h
        have hleyo := hs.leyo (by assumption)
        exact ⟨hleyo.escrito, hleyo.enviadas, hleyo.respuestas, hleyo.atendidas⟩
      · split at h
        · cases h
        · cases h
          exact hs.leyo _

theorem Entero.atender {malloc : Malloc} (hs : Entero s)
    (h : s.atender entM malloc = .ok (s', o)) : Entero s' := by
  unfold Modulos.atender at h
  split at h
  · cases h
  · cases h
  · split at h
    · cases h
    · split at h
      · cases h
      · split at h
        · cases h
        · rename_i hbytes
          cases h
          obtain ⟨rfl, hno⟩ := enviarRespuestas_eq hbytes
          refine ⟨?_, ?_, hs.respuestas, hs.atendidas⟩
          · rw [hs.escrito]
            unfold flujoRespuestas
            rw [List.map_append, List.flatMap_append]
          · exact fun hmem => (List.mem_append.mp hmem).elim hs.enviadas hno

/-- A step that forwards no answer. -/
theorem Entero.paso (hs : Entero s) (ha : a.reenvia = false)
    (h : pasoModulos entK entM s a = .ok (s', o)) : Entero s' := by
  have hs₀ := hs.sinAtendidas
  cases a with
  | syscall y => exact hs₀.enKernel h
  | cortoPlazo => exact hs₀.enKernel h
  | largoPlazo => exact hs₀.enKernel h
  | recibirMensaje n =>
    replace h : s.sinAtendidas.recibirMensaje n = .ok (s', o) := h
    unfold Modulos.recibirMensaje at h
    split at h
    · cases h
      exact ⟨hs.escrito, hs.enviadas, hs.respuestas, rfl⟩
    · cases h
  | kernelEscucha basura => exact hs₀.escuchar h
  | memoriaAtiende malloc => exact hs₀.atender h
  | memoriaVuelca tm malloc valorAEnviar => cases ha
  | memoriaCpu q =>
    replace h : s.sinAtendidas.atenderCpu entM q = .ok (s', o) := h
    unfold Modulos.atenderCpu at h
    split at h
    · split at h
      · cases h
      · cases h
        exact ⟨hs.escrito, hs.enviadas, hs.respuestas, rfl⟩
    · cases h

/-- After an answer, 4 bytes are left, and they are not a packet. -/
theorem volcar_no_alineado {tm : Tm} {malloc : Malloc} {valorAEnviar : CInt} (hs : Entero s)
    (h : s.volcar tm malloc valorAEnviar = .ok (s', o)) : ¬ Alineado s' := by
  intro hal
  unfold Modulos.volcar at h
  split at h
  · split at h
    · cases h
    · cases h
      let b : Basura := ⟨0, 0, 0, fun _ => 0⟩
      have hlen : (List.replicate s.enviadas.length b).length =
          (s.enviadas.map mensajeRespuesta).length := by simp
      obtain ⟨ps, hps, -⟩ := hal (List.replicate s.enviadas.length b ++ [b])
        (by simp [hs.respuestas])
      have hleer := esperarPaquetes_tramas_append hlen [b] (bytesDe valorAEnviar)
      replace hps : esperarPaquetes (List.replicate s.enviadas.length b ++ [b])
          (s.escrito ++ bytesDe valorAEnviar) = some (ps.map some, []) := hps
      rw [hs.escrito, flujoRespuestas, hleer] at hps
      obtain ⟨r, hr, heq⟩ := Option.map_eq_some_iff.mp hps
      obtain ⟨q, socket, hq, hr⟩ : ∃ q socket,
          esperarPaquete b (bytesDe valorAEnviar) = some (q, socket) ∧ r = ([q], socket) := by
        unfold esperarPaquetes at hr
        split at hr
        · cases hr
        · rename_i q socket hq
          exact ⟨q, socket, hq, (Option.some.inj hr).symm⟩
      have hpaquetes := (Prod.mk.inj heq).1
      rw [hr] at hpaquetes
      have hmem : q ∈ ps.map some := by
        rw [← hpaquetes]
        exact List.mem_append_right _ (List.mem_singleton_self q)
      obtain ⟨p, -, rfl⟩ := List.mem_map.mp hmem
      have hcabe := length_esperarPaquete hq
      rw [length_bytesDe, Option.isSome_some, if_pos rfl] at hcabe
      omega
  · cases h

/-- The handlers of the packets of memoria take no thread out of `lista_blocked`. -/
theorem kernelEscuchaMemoria_bloqueados {k k' : Kernel.Estado} {m : Kernel.MensajeMemoria}
    (h : (Kernel.kernelEscuchaMemoria m).run k = .ok () k') :
    k'.listaBlocked = k.listaBlocked := by
  cases m with
  | confirmarEspacioProceso d =>
    rcases Kernel.confirmarEspacioProceso_ok h with ⟨-, rfl⟩ | ⟨k₁, -, hc, rfl⟩
    · rfl
    · obtain ⟨p, q, resto, tids, m, vs, -, -, -, rfl⟩ := Kernel.crearHilo_ok hc
      rfl
  | confirmarCreacionHilo d =>
    rcases Kernel.confirmarCreacionHilo_ok h with
      ⟨-, rfl⟩ | ⟨-, -, rfl⟩ | ⟨h, m, vs, -, -, rfl⟩
    · rfl
    · rfl
    · rfl
  | confirmarDumpMemory =>
    obtain ⟨-, rfl⟩ := Imp.pure_ok.mp h
    rfl

/-- Whatever the listener reads, the threads that are blocked stay blocked. -/
theorem escucha_bloqueados {basura : Basura}
    (h : pasoModulos entK entM s (.kernelEscucha basura) = .ok (s', o)) :
    s'.kernel.listaBlocked = s.kernel.listaBlocked := by
  replace h : s.sinAtendidas.escuchar entK basura = .ok (s', o) := h
  unfold Modulos.escuchar at h
  split at h
  · obtain ⟨k', hk, rfl⟩ := enKernel_modulos h
    obtain ⟨-, ⟨-, rfl⟩ | ⟨i, t, m, vs, -, rfl⟩⟩ :=
      Kernel.planificadorCortoPlazo_ok (Kernel.paso_ok hk)
    · rfl
    · rfl
  · split at h
    · cases h
    · cases h
      rfl
    · split at h
      · obtain ⟨k', hk, rfl⟩ := enKernel_modulos h
        exact kernelEscuchaMemoria_bloqueados (Kernel.paso_ok hk)
      · split at h
        · cases h
        · cases h
          rfl

theorem entero_nuevos (k : Kernel.Estado) (m : Memoria.Estado) : Entero (.nuevos k m) :=
  ⟨rfl, List.not_mem_nil, rfl, rfl⟩

end Corridas

/-- **The outcome of a dump does not reach the thread.** The stream is whole packets, and each
answer wakes its thread, along a run exactly when memoria forwards no answer in it. No step of the
listener takes a thread out of `lista_blocked`. -/
theorem respuesta_iff (entK : Kernel.Entorno) (entM : Memoria.Entorno) (exito : CInt → Bool) :
    (∀ (k : Kernel.Estado) (m : Memoria.Estado) (as : List Suceso),
        EveryState (pasoModulos entK entM) (.nuevos k m) as (fun _ s => LlegaRespuesta exito s) ↔
          EveryStep (pasoModulos entK entM) (.nuevos k m) as fun _ _ a => a.reenvia = false) ∧
      ∀ (s s' : Modulos) (basura : Basura) (o : List Kernel.Paquete),
        pasoModulos entK entM s (.kernelEscucha basura) = .ok (s', o) →
        s'.kernel.listaBlocked = s.kernel.listaBlocked := by
  constructor
  · intro k m as
    refine everyState_iff_everyStep (I := fun _ => Entero) (entero_nuevos k m) ?_ ?_ ?_
    · intro pre s hs
      refine ⟨hs.alineado, fun r hr => ?_⟩
      rw [hs.atendidas] at hr
      cases hr
    · exact fun pre s a s' o _ hs ha h => hs.paso ha h
    · intro pre s a s' o _ hs h hP
      cases a with
      | memoriaVuelca tm malloc valorAEnviar =>
        exact absurd hP.1 (volcar_no_alineado hs.sinAtendidas h)
      | _ => rfl
  · exact fun s s' basura o h => escucha_bloqueados h

/-! ## A dump of the first thread -/

/-- The blocks of `malloc` are zero. -/
def mallocCero : Malloc := ⟨0, fun _ => 0, fun _ => 0⟩

def basuraCero : Basura := ⟨0, 0, 0, fun _ => 0⟩

/-- The kernel and memoria at their start, with 100 bytes of memory. -/
def modulosCero : Modulos :=
  .nuevos Kernel.estadoCero (Memoria.estadoInicial
    (Memoria.entornoDinamico 100 Memoria.cien_lt).toConfigMemoria (fun _ => 0) fun _ => 0)

/-- The first process starts, and its main thread gets the CPU and asks for a dump. -/
def primerVolcado : List Suceso :=
  [.syscall (.processCreate ⟨0, 0, ['a'], 32, 0⟩), .largoPlazo, .memoriaAtiende mallocCero,
    .kernelEscucha basuraCero, .memoriaAtiende mallocCero, .kernelEscucha basuraCero,
    .kernelEscucha basuraCero, .syscall (.dumpMemory ⟨1, 0⟩)]

theorem primerVolcado_sinReenvio : ∀ a ∈ primerVolcado, a.reenvia = false := by
  simp [primerVolcado, Suceso.reenvia]

/-- A packet `CONFIRMAR_DUMP_MEMORY` has arrived, and the thread at 3 is blocked. -/
def dumpConfirmado : Modulos :=
  { modulosCero with
    kernel := { Kernel.estadoCero with listaBlocked := [3] }
    escrito := serializarPaquete CONFIRMAR_DUMP_MEMORY [] }

/-- Up to the request all is well, and a confirmation in a packet would not wake the thread. -/
theorem respuesta_primerVolcado :
    EveryState (pasoModulos Kernel.entornoFifo (Memoria.entornoDinamico 100 (by decide)))
        modulosCero primerVolcado (fun _ s => LlegaRespuesta (fun v => v = 1) s) ∧
      ∃ s' o, pasoModulos Kernel.entornoFifo (Memoria.entornoDinamico 100 (by decide))
          dumpConfirmado (.kernelEscucha basuraCero) = .ok (s', o) ∧
        s'.leidos = 8 ∧ s'.kernel.listaBlocked = [3] := by
  have hley := respuesta_iff Kernel.entornoFifo (Memoria.entornoDinamico 100 (by decide))
    fun v => v = 1
  constructor
  · refine (hley.1 _ _ primerVolcado).mpr fun pre s a _ hpre _ _ => ?_
    exact primerVolcado_sinReenvio a (hpre.subset (by simp))
  · exact ⟨_, _, rfl, rfl, hley.2 dumpConfirmado _ basuraCero _ rfl⟩

theorem reaches_primerVolcado : ∃ s, Reaches
    (pasoModulos Kernel.entornoFifo (Memoria.entornoDinamico 100 (by decide))) modulosCero
    (primerVolcado ++ [.memoriaVuelca ⟨0, 0, 0, 1, 0, 124⟩ mallocCero 0]) s :=
  ⟨_, _, rfl⟩

/-- The file system answers the dump with 0. -/
theorem respuesta_suelta : ¬ ∀ (entK : Kernel.Entorno) (entM : Memoria.Entorno)
    (exito : CInt → Bool) (k : Kernel.Estado) (m : Memoria.Estado) (as : List Suceso),
    EveryState (pasoModulos entK entM) (.nuevos k m) as fun _ s => LlegaRespuesta exito s := by
  intro h
  obtain ⟨s', hs'⟩ := reaches_primerVolcado
  obtain ⟨s, hs, hvuelca⟩ := reaches_append.mp hs'
  obtain ⟨o, hvuelca⟩ := reaches_singleton.mp hvuelca
  have hentero : Entero s := hs.keeps (I := Entero) (entero_nuevos _ _)
    fun s₁ a s₂ o ha hs₁ h => hs₁.paso (primerVolcado_sinReenvio a ha) h
  have hfinal := h _ _ (fun v => v = 1) _ _ _ _ s' (List.prefix_refl _) hs'
  exact volcar_no_alineado hentero.sinAtendidas hvuelca hfinal.1

end LastOfC.Sistema
