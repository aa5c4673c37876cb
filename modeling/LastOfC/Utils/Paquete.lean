import LastOfC.Utils.Campos

/-!
# Packets on a stream (`serializar.c`, `utils.c`)

A stream is the list of the bytes that come before its end. `recv` with `MSG_WAITALL` returns the
bytes that it was asked for, or those before the end.

* `enviarPaquete`: the bytes that it sends. `enviarPaquete_mensaje`: a header of 8 bytes and the
  payload, whatever `malloc` returned.
* `recibirOperacion`, `recibirBuffer` and `recibirPaquete`. `Basura` is what a call finds in its
  uninitialized variables and in the blocks that `malloc` returns.
* `tramas_ida_y_vuelta`: any sequence of packets, sent and received.
* `inicio_iff`: the buffers of `crear_paquete` and `recibir_paquete` start at their first byte
  exactly when `malloc` leaves 0 in `offset`.
-/

namespace LastOfC

/-- `t_paquete`. -/
structure TPaquete where
  codigoOperacion : CInt
  buffer : TBuffer
  deriving DecidableEq, Repr

/-! ## Sending -/

/-- `enviar_paquete`: what `serializar_paquete` writes to the block of `malloc(bytes_totales)`,
which holds `basura`. -/
def enviarPaquete (basura : Nat → Byte) (paquete : TPaquete) : Option (List Byte) :=
  let size := paquete.buffer.size
  let bytesTotales : CInt := (size.signExtend 64 + 8).setWidth 32
  let magic := Block.grow [] (bytesTotales.signExtend 64).toNat basura
  match Block.read paquete.buffer.stream 0 (size.signExtend 64).toNat with
  | some contenido =>
    Block.writeAll magic 0 [(bytesDe paquete.codigoOperacion, 4), (bytesDe size, 4),
      (contenido, contenido.length)]
  | none => none

/-! ## Receiving -/

/-- What a call of `recibir_paquete` finds in memory that it does not initialize. -/
structure Basura where
  codOp : CInt
  size : CInt
  offset : Uint32
  stream : Nat → Byte

/-- A word of which only the first bytes were received. -/
def palabraSobre (basura : Uint32) (bytes : List Byte) : Uint32 :=
  match leerBufferUint32 (bytes ++ (bytesDe basura).drop bytes.length) with
  | some (valor, _) => valor
  | none => basura

/-- `recibir_operacion`, and the rest of the stream. -/
def recibirOperacion (basura : CInt) (socket : List Byte) : CInt × List Byte :=
  let bytes := socket.take 4
  (if 0 < bytes.length then palabraSobre basura bytes else -1, socket.drop 4)

/-- `recibir_buffer`: the size, the block, and the rest of the stream. `malloc` has no block of a
negative size, and then the second `recv` takes nothing. -/
def recibirBuffer (basura : Basura) (socket : List Byte) : CInt × List Byte × List Byte :=
  let size := palabraSobre basura.size (socket.take 4)
  let socket := socket.drop 4
  if size.msb then (size, [], socket)
  else (size, Block.grow (socket.take size.toNat) size.toNat basura.stream, socket.drop size.toNat)

/-- `recibir_paquete`, and the rest of the stream. -/
def recibirPaquete (basura : Basura) (socket : List Byte) : Option TPaquete × List Byte :=
  let (codigoOperacion, socket) := recibirOperacion basura.codOp socket
  if codigoOperacion = -1 then (none, socket)
  else
    let (size, stream, socket) := recibirBuffer basura socket
    (some { codigoOperacion, buffer := { size, offset := basura.offset, stream } }, socket)

/-- One call of `recibir_paquete` after the other. -/
def recibirPaquetes : List Basura → List Byte → List (Option TPaquete) × List Byte
  | [], socket => ([], socket)
  | b :: bs, socket =>
    let (paquete, socket) := recibirPaquete b socket
    let (paquetes, socket) := recibirPaquetes bs socket
    (paquete :: paquetes, socket)

/-! ## One packet -/

/-- A packet that `enviar_paquete` can send: its bytes fit in an `int`. -/
structure Mensaje where
  codigoOperacion : CInt
  contenido : List Byte
  codigo_ne : codigoOperacion ≠ -1
  largo : contenido.length ≤ 2 ^ 31 - 9

namespace Mensaje

variable (m : Mensaje)

def size : CInt := BitVec.ofNat 32 m.contenido.length

/-- The `t_paquete` of the message. -/
def paquete (offset : Uint32) : TPaquete :=
  { codigoOperacion := m.codigoOperacion
    buffer := { size := m.size, offset, stream := m.contenido } }

/-- The bytes of the message on a stream. -/
def trama : List Byte := serializarPaquete m.codigoOperacion m.contenido

theorem toNat_size : m.size.toNat = m.contenido.length := by
  have h := m.largo
  rw [size, BitVec.toNat_ofNat]
  exact Nat.mod_eq_of_lt (by omega)

theorem size_lt : m.size.toNat < 2 ^ 31 := by
  have h := m.largo
  rw [m.toNat_size]
  omega

theorem toNat_size_t : (m.size.signExtend 64).toNat = m.contenido.length := by
  rw [LastOfC.toNat_size_t m.size_lt, m.toNat_size]

theorem trama_eq : m.trama = bytesDe m.codigoOperacion ++ (bytesDe m.size ++ m.contenido) :=
  List.append_assoc _ _ _

end Mensaje

theorem palabraSobre_bytesDe (basura valor : Uint32) :
    palabraSobre basura (bytesDe valor) = valor := by
  unfold palabraSobre
  rw [leer_bytesDe]

/-- `enviar_paquete` sends the header and the payload, and nothing that `malloc` returned. -/
theorem enviarPaquete_mensaje (m : Mensaje) (basura : Nat → Byte) (offset : Uint32) :
    enviarPaquete basura (m.paquete offset) = some m.trama := by
  have hlargo := m.largo
  have hread : Block.read m.contenido 0 m.contenido.length = some m.contenido := by
    simpa using Block.read_append [] m.contenido []
  have htotal : (((m.size.signExtend 64 + 8).setWidth 32).signExtend 64).toNat =
      m.contenido.length + 8 := by
    have h8 : (8 : BitVec 64).toNat = 8 := rfl
    have hnat : ((m.size.signExtend 64 + 8).setWidth 32).toNat = m.contenido.length + 8 := by
      rw [BitVec.toNat_setWidth, BitVec.toNat_add, m.toNat_size_t, h8]
      omega
    rw [LastOfC.toNat_size_t (by rw [hnat]; omega), hnat]
  have hfills : Block.Fills (Block.grow [] (m.contenido.length + 8) basura).length
      [(bytesDe m.codigoOperacion, 4), (bytesDe m.size, 4), (m.contenido, m.contenido.length)] := by
    simp only [Block.grow_length, Block.Fills, length_bytesDe]
    omega
  unfold enviarPaquete
  simp only [Mensaje.paquete, m.toNat_size_t, hread, htotal, Block.writeAll_eq hfills]
  rw [m.trama_eq]
  simp [Block.written, bytesDe]

/-- What `recibir_paquete` returns for a message. -/
def Mensaje.recibido (m : Mensaje) (basura : Basura) : TPaquete := m.paquete basura.offset

/-- `recibir_paquete` at the first byte of a message takes the message and nothing after it. -/
theorem recibirPaquete_trama (m : Mensaje) (basura : Basura) (resto : List Byte) :
    recibirPaquete basura (m.trama ++ resto) = (some (m.recibido basura), resto) := by
  have hop : recibirOperacion basura.codOp (m.trama ++ resto) =
      (m.codigoOperacion, bytesDe m.size ++ (m.contenido ++ resto)) := by
    rw [m.trama_eq, List.append_assoc, List.append_assoc]
    exact congrArg (·, _) (palabraSobre_bytesDe basura.codOp m.codigoOperacion)
  have hbuf : recibirBuffer basura (bytesDe m.size ++ (m.contenido ++ resto)) =
      (m.size, m.contenido, resto) := by
    have hsize : palabraSobre basura.size ((bytesDe m.size ++ (m.contenido ++ resto)).take 4) =
        m.size := palabraSobre_bytesDe basura.size m.size
    have hdrop : (bytesDe m.size ++ (m.contenido ++ resto)).drop 4 = m.contenido ++ resto := rfl
    unfold recibirBuffer
    simp only [hsize, hdrop, msb_of_lt m.size_lt, m.toNat_size, Bool.false_eq_true, if_false,
      List.take_left, List.drop_left]
    rw [Block.grow, List.take_length, Nat.sub_self, List.range'_zero, List.map_nil, List.append_nil]
  unfold recibirPaquete
  simp only [hop, hbuf, if_neg m.codigo_ne]
  rfl

/-! ## A sequence of packets -/

/-- A message, with what its sender and its receiver find in memory. -/
structure Viaje where
  mensaje : Mensaje
  /-- The `offset` of the packet, which `enviar_paquete` does not read. -/
  offset : Uint32
  alEnviar : Nat → Byte
  alRecibir : Basura

/-- **The stream stays in step.** The packets of a sequence are sent, and each call of
`recibir_paquete` returns the next one and leaves the bytes of the others. -/
theorem tramas_ida_y_vuelta (vs : List Viaje) (resto : List Byte) :
    (∀ v ∈ vs, enviarPaquete v.alEnviar (v.mensaje.paquete v.offset) = some v.mensaje.trama) ∧
    ∀ k ≤ vs.length,
      recibirPaquetes ((vs.take k).map Viaje.alRecibir)
          ((vs.flatMap fun v => v.mensaje.trama) ++ resto) =
        ((vs.take k).map fun v => some (v.mensaje.recibido v.alRecibir),
          ((vs.drop k).flatMap fun v => v.mensaje.trama) ++ resto) := by
  refine ⟨fun v _ => enviarPaquete_mensaje v.mensaje v.alEnviar v.offset, ?_⟩
  induction vs with
  | nil =>
    intro k _
    rw [List.take_nil, List.drop_nil]
    rfl
  | cons v vs ih =>
    intro k hk
    cases k with
    | zero => rfl
    | succ k =>
      have ih := ih k (Nat.le_of_succ_le_succ hk)
      rw [List.flatMap_cons, List.append_assoc]
      simp only [List.take_succ_cons, List.map_cons, List.drop_succ_cons, recibirPaquetes,
        recibirPaquete_trama, ih]

/-! ## Where a buffer starts -/

/-- Whatever fields are added to a buffer of `crear_paquete`, each write is inside the block and
`offset` is `size` after it, as long as the bytes fit in `size`. -/
def CreaBien (offset : Uint32) : Prop :=
  ∀ as, (codificados as).length < 2 ^ 31 → ∃ b, (crearBuffer offset).agregarCampos as = some b ∧
    b.offset.toNat = b.size.toNat

/-- The first call of `leer_buffer_*` on a packet of `recibir_paquete` reads its payload from byte
0. -/
def RecibeBien (offset : Uint32) : Prop :=
  ∀ (m : Mensaje) (basura : Basura) (resto : List Byte), basura.offset = offset →
    ∃ p, (recibirPaquete basura (m.trama ++ resto)).1 = some p ∧
      ∀ t, (p.buffer.leerCampo t).map Prod.fst =
        (({ size := m.size, offset := 0, stream := m.contenido } : TBuffer).leerCampo t).map
          Prod.fst

/-- Fields that are added to a packet of `crear_paquete`, sent, received and read come back. -/
def ViajaBien (offset offset' : Uint32) : Prop :=
  ∀ (op : CInt) (as : List Agregado) (alEnviar : Nat → Byte) (basura : Basura) (resto : List Byte),
    op ≠ -1 → (codificados as).length ≤ 2 ^ 31 - 9 → basura.offset = offset' →
      ∃ b trama p b', (crearBuffer offset).agregarCampos as = some b ∧
        enviarPaquete alEnviar ⟨op, b⟩ = some trama ∧
        recibirPaquete basura (trama ++ resto) = (some p, resto) ∧
        p.codigoOperacion = op ∧
        p.buffer.leerCampos (as.map fun a => a.campo.tipo) = some (as.map fun a => a.campo, b')

/-- Buffers start at their first byte, where `malloc` leaves `offset` in the one of `crear_paquete`
and `offset'` in the one of `recibir_paquete`. -/
structure InicioBien (offset offset' : Uint32) : Prop where
  crea : CreaBien offset
  recibe : RecibeBien offset'
  viaja : ViajaBien offset offset'

theorem creaBien_cero : CreaBien 0 := by
  intro as h
  obtain ⟨b, hb, hlleno⟩ := TBuffer.Lleno.crear.agregarCampos as
    (show 0 + (codificados as).length < _ by omega)
  exact ⟨b, hb, by rw [hlleno.offset, hlleno.size]⟩

theorem recibeBien_cero : RecibeBien 0 := by
  intro m basura resto h0
  rw [recibirPaquete_trama]
  refine ⟨_, rfl, fun t => ?_⟩
  rw [Mensaje.recibido, h0]
  rfl

theorem viajaBien_cero : ViajaBien 0 0 := by
  intro op as alEnviar basura resto hop hlargo h0
  obtain ⟨b, hb, hlleno⟩ := TBuffer.Lleno.crear.agregarCampos as
    (show 0 + (codificados as).length < _ by omega)
  rw [List.nil_append] at hlleno
  let m : Mensaje := ⟨op, codificados as, hop, hlargo⟩
  have hsize : b.size = m.size := by
    apply BitVec.eq_of_toNat_eq
    rw [hlleno.size, m.toNat_size]
  have hpaquete : (⟨op, b⟩ : TPaquete) = m.paquete b.offset := by
    have hstream : m.contenido = b.stream := hlleno.stream.symm
    rw [Mensaje.paquete, ← hsize, hstream]
  have hstream : (m.recibido basura).buffer.stream = [] ++ (codificados as ++ []) := by
    simp [Mensaje.recibido, Mensaje.paquete, m]
  have hleer := leerCampos_codificados hstream (by rw [Mensaje.recibido, h0]; rfl)
    (show (codificados as).length < 2 ^ 31 by omega)
  exact ⟨b, m.trama, m.recibido basura, _, hb,
    hpaquete ▸ enviarPaquete_mensaje m alEnviar b.offset, recibirPaquete_trama m basura resto, rfl,
    hleer⟩

/-- No fields yet: `offset` is what `malloc` left, and `size` is 0. -/
theorem CreaBien.cero {offset : Uint32} (h : CreaBien offset) : offset = 0 := by
  obtain ⟨b, hb, hoff⟩ := h [] (show 0 < 2 ^ 31 by decide)
  cases hb
  exact BitVec.eq_of_toNat_eq hoff

/-- A payload of one word is read only from byte 0. -/
theorem RecibeBien.cero {offset : Uint32} (h : RecibeBien offset) : offset = 0 := by
  let m : Mensaje := ⟨0, bytesDe 0, by decide, by decide⟩
  obtain ⟨p, hp, hleer⟩ := h m ⟨0, 0, offset, fun _ => 0⟩ [] rfl
  rw [recibirPaquete_trama] at hp
  cases hp
  have hleer := hleer .uint32
  by_contra hne
  have hpos : 0 < offset.toNat :=
    Nat.pos_of_ne_zero fun h0 => hne (BitVec.eq_of_toNat_eq h0)
  have hfuera : Block.read (bytesDe 0) offset.toNat 4 = none :=
    Block.read_eq_none (by rw [length_bytesDe]; omega)
  simp only [Mensaje.recibido, Mensaje.paquete, m, TBuffer.leerCampo, TBuffer.leerBufferUint32,
    hfuera] at hleer
  exact absurd hleer (by decide)

/-- `crear_buffer` and `recibir_paquete` do not set `offset`: buffers start at their first byte
exactly when `malloc` left 0 there. -/
theorem inicio_iff (offset offset' : Uint32) :
    InicioBien offset offset' ↔ offset = 0 ∧ offset' = 0 := by
  constructor
  · intro h
    exact ⟨h.crea.cero, h.recibe.cero⟩
  · rintro ⟨rfl, rfl⟩
    exact ⟨creaBien_cero, recibeBien_cero, viajaBien_cero⟩

/-- `malloc` left 4 in `offset`: the first word is written past the end of its block. -/
theorem inicio_fuera : ¬ ∀ offset offset', InicioBien offset offset' := by
  intro h
  obtain ⟨b, hb, -⟩ := (h 4 0).crea [⟨.uint32 1, fun _ => 0⟩] (by decide)
  have hnone : (crearBuffer 4).agregarCampos [⟨.uint32 1, fun _ => 0⟩] = none := by decide
  rw [hnone] at hb
  cases hb

end LastOfC
