import LastOfC.Cpu.Lectura
import LastOfC.Utils.Espera
import LastOfC.Utils.Mensajes

/-!
# The replies of memoria to the CPU (`escuchar_cpu.c`, `cpu_escucha_memoria.c`)

* `enviarACpu`: the bytes that memoria writes to `fd_cpu` for a reply.
* `Llegada` and `leerLlegada`: what the `switch` of `cpu_escucha_memoria` reads from a packet.
* `Flujo`: a stream that is whole packets, with what they are for the listener. Memoria appends
  to it (`Flujo.agrega`), and the byte that completes a packet brings the first of them
  (`Flujo.llega`).
-/

namespace LastOfC.Cpu

/-- `ENVIAR_CONTEXTO`. -/
def ENVIAR_CONTEXTO : CInt := 7

/-- `ENVIAR_INSTRUCCION`. -/
def ENVIAR_INSTRUCCION : CInt := 8

/-- `CONFIRMAR_CONTEXTO_ACTUALIZADO`. -/
def CONFIRMAR_CONTEXTO_ACTUALIZADO : CInt := 28

/-- `CONFIRMAR_WRITE_MEM`. -/
def CONFIRMAR_WRITE_MEM : CInt := 32

/-! ## Memoria -/

/-- `serializar_int` on the buffer of `crear_paquete`. -/
def bufferInt (offset : Uint32) (numero : CInt) : TBuffer :=
  { size := 4, offset, stream := serializarInt numero }

/-- The bytes of a reply with an `int`. -/
def enviarInt (malloc : Malloc) (codigoOperacion numero : CInt) : Option (List Byte) :=
  enviarPaquete malloc.magic { codigoOperacion, buffer := bufferInt malloc.offset numero }

/-- The bytes of an instruction. A text that is no string of bytes has none. -/
def enviarInstruccion (malloc : Malloc) (instruccion : Cadena) : Option (List Byte) :=
  if h : EsCString instruccion then do
    let buffer ← serializarEnviarInstruccion (crearBuffer malloc.offset) ⟨instruccion, h⟩
      malloc.stream
    enviarPaquete malloc.magic { codigoOperacion := ENVIAR_INSTRUCCION, buffer }
  else none

/-- The bytes of a reply. -/
def enviarACpu (malloc : Malloc) : Memoria.Respuesta → Option (List Byte)
  | .enviarContexto c => do
    let buffer ← serializarEnviarContextoCpu
      { TID := c.TID, RegistrosCPU := some c.RegistrosCPU, PC := c.PC
        base := c.base, limite := c.limite, pid := c.pid } malloc.stream
    enviarPaquete malloc.magic { codigoOperacion := ENVIAR_CONTEXTO, buffer }
  | .enviarInstruccion instruccion => enviarInstruccion malloc instruccion
  | .confirmarContextoActualizado bitConfirmacion =>
    enviarInt malloc CONFIRMAR_CONTEXTO_ACTUALIZADO bitConfirmacion
  | .confirmarWriteMem bitConfirmacion => enviarInt malloc CONFIRMAR_WRITE_MEM bitConfirmacion
  | .enviarReadMem valor => enviarInt malloc ENVIAR_READ_MEM valor
  -- These go to the kernel.
  | .confirmarEspacioProceso _ _ | .confirmarCreacionHilo _ _ _ => none

/-! ## The listener -/

/-- What a packet is for `cpu_escucha_memoria`. -/
inductive Llegada where
  | contexto (contexto : TContextoEjecucion)
  | instruccion (instruccion : Cadena)
  | contextoActualizado (bitConfirmacion : CInt)
  /-- Its case does nothing. -/
  | nada
  deriving DecidableEq, Repr

/-- `deserializar_int`. -/
def deserializarInt (buffer : TBuffer) : Option CInt :=
  (leerBufferUint32 buffer.stream).map Prod.fst

/-- The `switch` of `cpu_escucha_memoria`, or none if it reads outside of the payload. -/
def leerLlegada (p : TPaquete) : Option Llegada :=
  if p.codigoOperacion = ENVIAR_CONTEXTO then
    (deserializarEnviarContextoCpu p.buffer).map .contexto
  else if p.codigoOperacion = ENVIAR_INSTRUCCION then
    (deserializarEnviarInstruccion p.buffer).map fun i => .instruccion i.1
  else if p.codigoOperacion = CONFIRMAR_CONTEXTO_ACTUALIZADO then
    (deserializarInt p.buffer).map .contextoActualizado
  else some .nada

theorem leerLlegada_contexto {p : TPaquete} {c : TContextoEjecucion}
    (h : leerLlegada p = some (.contexto c)) : p.codigoOperacion = ENVIAR_CONTEXTO := by
  by_contra hne
  unfold leerLlegada at h
  rw [if_neg hne] at h
  split_ifs at h
  · obtain ⟨i, -, hi⟩ := Option.map_eq_some_iff.mp h
    cases hi
  · obtain ⟨i, -, hi⟩ := Option.map_eq_some_iff.mp h
    cases hi
  · cases h

/-- What a reply of memoria should be for the listener. -/
def llegadaDe : Memoria.Respuesta → Llegada
  | .enviarContexto c => .contexto c
  | .enviarInstruccion i => .instruccion i
  | .confirmarContextoActualizado bitConfirmacion => .contextoActualizado bitConfirmacion
  | _ => .nada

/-- The packet is `l` for the listener, whatever it finds in memory. -/
def Porta (m : Mensaje) (l : Llegada) : Prop :=
  ∀ basura, leerLlegada (m.recibido basura) = some l

/-- The reply fits in a packet. -/
def Corta : Memoria.Respuesta → Prop
  | .enviarInstruccion i => i.length + 14 ≤ 2 ^ 31
  | _ => True

section Tramas

variable {malloc : Malloc} {r : Memoria.Respuesta} {bytes : List Byte}

/-- A buffer whose size is that of its stream is sent as a packet. -/
theorem enviarPaquete_trama {m : Mensaje} {buffer : TBuffer} (hstream : m.contenido = buffer.stream)
    (hsize : buffer.size.toNat = buffer.stream.length)
    (h : enviarPaquete malloc.magic { codigoOperacion := m.codigoOperacion, buffer } =
      some bytes) : bytes = m.trama := by
  have hpaquete : m.paquete buffer.offset = { codigoOperacion := m.codigoOperacion, buffer } := by
    have hs : m.size = buffer.size := by
      rw [Mensaje.size, hstream, ← hsize, BitVec.ofNat_toNat, BitVec.setWidth_eq]
    rw [Mensaje.paquete, hs, hstream]
  have heq := enviarPaquete_mensaje m malloc.magic buffer.offset
  rw [hpaquete] at heq
  exact Option.some.inj (h.symm.trans heq)

theorem enviarInt_trama (codigo numero : CInt) (hne : codigo ≠ -1)
    (h : enviarInt malloc codigo numero = some bytes) :
    bytes = (Mensaje.mk codigo (bytesDe numero) hne (by simp)).trama := by
  unfold enviarInt at h
  exact enviarPaquete_trama (m := ⟨codigo, bytesDe numero, hne, _⟩) rfl rfl h

theorem enviarInstruccion_trama {i : Cadena} (h : enviarInstruccion malloc i = some bytes)
    (hcorta : i.length + 14 ≤ 2 ^ 31) :
    ∃ m : Mensaje, bytes = m.trama ∧ Porta m (.instruccion i) := by
  unfold enviarInstruccion at h
  split at h
  · rename_i hcadena
    simp only [Option.bind_eq_bind, Option.bind_eq_some_iff] at h
    obtain ⟨buffer, hb, h⟩ := h
    have hcabe : i.length + 5 < 2 ^ 31 := by omega
    obtain ⟨contenido, hc⟩ :=
      enviarInstruccion_idaYVuelta (crearBuffer malloc.offset) ⟨i, hcadena⟩ hcabe
    obtain ⟨b, hb', rfl, hsize, hleer⟩ := hc malloc.stream
    rw [hb] at hb'
    cases hb'
    have hlong := (toNat_longitud_uint32 (n := i.length + 1) (by omega)).2
    have hlargo : buffer.stream.length ≤ 2 ^ 31 - 9 := by
      rw [← hsize, llenarBuffer_size hb, hlong]
      omega
    refine ⟨⟨ENVIAR_INSTRUCCION, buffer.stream, by decide, hlargo⟩,
      enviarPaquete_trama rfl hsize h, fun basura => ?_⟩
    show (deserializarEnviarInstruccion buffer).map _ = _
    rw [hleer]
    rfl
  · cases h

/-- A reply is one packet, and the listener reads it as it was sent. -/
theorem enviarACpu_trama (h : enviarACpu malloc r = some bytes) (hcorta : Corta r) :
    ∃ m : Mensaje, bytes = m.trama ∧ Porta m (llegadaDe r) := by
  cases r with
  | confirmarEspacioProceso pid bit => cases h
  | confirmarCreacionHilo pid tid bit => cases h
  | enviarContexto c =>
    simp only [enviarACpu, Option.bind_eq_bind, Option.bind_eq_some_iff] at h
    obtain ⟨buffer, hb, h⟩ := h
    obtain ⟨contenido, hc⟩ := enviarContextoCpu_idaYVuelta
      { TID := c.TID, RegistrosCPU := some c.RegistrosCPU, PC := c.PC
        base := c.base, limite := c.limite, pid := c.pid }
    obtain ⟨b, hb', rfl, hsize, hleer⟩ := hc malloc.stream
    rw [hb] at hb'
    cases hb'
    have h52 : buffer.size = 52 := llenarBuffer_size hb
    have hlargo : buffer.stream.length ≤ 2 ^ 31 - 9 := by
      rw [← hsize, h52]
      decide
    refine ⟨⟨ENVIAR_CONTEXTO, buffer.stream, by decide, hlargo⟩,
      enviarPaquete_trama rfl hsize h, fun basura => ?_⟩
    show (deserializarEnviarContextoCpu buffer).map _ = _
    rw [hleer]
    rfl
  | enviarInstruccion i => exact enviarInstruccion_trama h hcorta
  | confirmarContextoActualizado bit =>
    refine ⟨_, enviarInt_trama CONFIRMAR_CONTEXTO_ACTUALIZADO bit (by decide) h, fun basura => ?_⟩
    show (deserializarInt ⟨4, basura.offset, bytesDe bit ++ []⟩).map _ = _
    unfold deserializarInt
    rw [leer_bytesDe]
    rfl
  | confirmarWriteMem bit =>
    exact ⟨_, enviarInt_trama CONFIRMAR_WRITE_MEM bit (by decide) h, fun basura => rfl⟩
  | enviarReadMem valor =>
    exact ⟨_, enviarInt_trama ENVIAR_READ_MEM valor (by decide) h, fun basura => rfl⟩

end Tramas

/-! ## The stream -/

/-- The stream is whole packets, which are `ls` for the listener. -/
def Flujo (bytes : List Byte) (ls : List Llegada) : Prop :=
  ∃ ms : List Mensaje, bytes = ms.flatMap Mensaje.trama ∧ List.Forall₂ Porta ms ls

/-- Some packet of the stream, which has up to `n` of them, is an `ENVIAR_CONTEXTO`. -/
def traeAlgunContexto : Nat → List Byte → Bool
  | 0, _ => false
  | n + 1, bytes =>
    match esperarPaquete ⟨0, 0, 0, fun _ => 0⟩ bytes with
    | some (some p, resto) => p.codigoOperacion = ENVIAR_CONTEXTO || traeAlgunContexto n resto
    | _ => false

namespace Flujo

variable {bytes leido resto socket : List Byte} {ls : List Llegada} {basura : Basura}
  {q : Option TPaquete}

theorem vacio : Flujo [] [] := ⟨[], rfl, .nil⟩

/-- Replies that memoria appends. -/
theorem agrega {malloc : Malloc} {rs : List Memoria.Respuesta} {nuevos : List Byte}
    (h : Flujo bytes ls) (henvia : enviarTodos (enviarACpu malloc) rs = some nuevos)
    (hcorta : ∀ r ∈ rs, Corta r) : Flujo (bytes ++ nuevos) (ls ++ rs.map llegadaDe) := by
  induction rs generalizing bytes ls nuevos with
  | nil =>
    cases henvia
    simpa using h
  | cons r rs ih =>
    obtain ⟨b₁, h₁, henvia⟩ := Option.bind_eq_some_iff.mp henvia
    obtain ⟨b₂, h₂, heq⟩ := Option.bind_eq_some_iff.mp henvia
    cases heq
    obtain ⟨m, rfl, hporta⟩ := enviarACpu_trama h₁ (hcorta r List.mem_cons_self)
    obtain ⟨ms, rfl, hms⟩ := h
    have hprimero : Flujo (ms.flatMap Mensaje.trama ++ m.trama) (ls ++ [llegadaDe r]) := by
      refine ⟨ms ++ [m], by simp, ?_⟩
      exact List.rel_append hms (.cons hporta .nil)
    have hresto := ih hprimero h₂ fun r' hr' => hcorta r' (List.mem_cons_of_mem _ hr')
    rwa [List.append_assoc, List.append_assoc, List.singleton_append] at hresto

/-- The bytes that complete a packet bring the first one of the stream. -/
theorem llega (h : Flujo (leido ++ resto) ls) (hne : leido ≠ [])
    (hp : esperarPaquete basura leido = some (q, socket)) :
    ∃ p l ls', q = some p ∧ leerLlegada p = some l ∧ ls = l :: ls' ∧
      Flujo (socket ++ resto) ls' := by
  obtain ⟨ms, hbytes, hms⟩ := h
  cases hms with
  | nil =>
    rw [List.flatMap_nil] at hbytes
    exact absurd (List.append_eq_nil_iff.mp hbytes).1 hne
  | @cons m l ms ls' hporta hms =>
    have hextra := esperarPaquete_append hp resto
    rw [hbytes, List.flatMap_cons, esperarPaquete_trama] at hextra
    obtain ⟨rfl, hsocket⟩ := Prod.mk.inj (Option.some.inj hextra)
    exact ⟨_, l, ls', rfl, hporta basura, rfl, ms, hsocket.symm, hms⟩

/-- A stream without the packet `ENVIAR_CONTEXTO` brings no context. -/
theorem sinContextos {n : Nat} (h : Flujo bytes ls) (hn : bytes.length ≤ n)
    (hno : traeAlgunContexto n bytes = false) (c : TContextoEjecucion) : .contexto c ∉ ls := by
  obtain ⟨ms, rfl, hms⟩ := h
  induction hms generalizing n with
  | nil => exact List.not_mem_nil
  | @cons m l ms ls hporta hms ih =>
    have hlargo : 0 < m.trama.length := by
      rw [m.trama_eq]
      simp
    rw [List.flatMap_cons, List.length_append] at hn
    obtain ⟨n, rfl⟩ : ∃ n', n = n' + 1 := ⟨n - 1, by omega⟩
    unfold traeAlgunContexto at hno
    rw [List.flatMap_cons, esperarPaquete_trama] at hno
    obtain ⟨hcodigo, hresto⟩ := Bool.or_eq_false_iff.mp hno
    intro hmem
    rcases List.mem_cons.mp hmem with rfl | hmem
    · exact of_decide_eq_false hcodigo (leerLlegada_contexto (hporta _))
    · exact ih (by omega) hresto hmem

end Flujo

end LastOfC.Cpu
