import LastOfC.Utils.Tipos

/-!
# Buffers and packets as bytes (`serializar.c`)

A `t_buffer` that is written is its stream so far, and one that is read is what is left of its
stream: `agregar_buffer_*` write at the end and `leer_buffer_*` read at the front. `crear_buffer`
and `recibir_paquete` leave `offset` to `malloc`; here it starts at 0.

* `bytesDe` and `palabraDe`: a 32-bit word as `memcpy` copies it, little endian.
* `agregarBufferUint32` and `leerBufferUint32`: a word at the end and at the front of a stream.
* `serializarFinalizarHilo` and `deserializarFinalizarHilo`: the payload of `FINALIZAR_HILO`.
* `serializarReadMem` and `deserializarReadMem`: the payload of `READ_MEM`.
* `serializarInt`, and `serializarPaquete`: what `enviar_paquete` writes to the socket.
-/

namespace LastOfC

/-- `memcpy(stream, &valor, 4)`. -/
def bytesDe (valor : Uint32) : List Byte :=
  [valor.extractLsb' 0 8, valor.extractLsb' 8 8, valor.extractLsb' 16 8, valor.extractLsb' 24 8]

/-- `memcpy(&valor, stream, 4)`. -/
def palabraDe (b₀ b₁ b₂ b₃ : Byte) : Uint32 := b₃ ++ b₂ ++ b₁ ++ b₀

theorem palabraDe_bytesDe (valor : Uint32) :
    palabraDe (valor.extractLsb' 0 8) (valor.extractLsb' 8 8) (valor.extractLsb' 16 8)
      (valor.extractLsb' 24 8) = valor := by
  apply BitVec.eq_of_getLsbD_eq
  intro i hi
  simp only [palabraDe, BitVec.getLsbD_append, BitVec.getLsbD_extractLsb']
  -- Bit `i` is bit `i % 8` of byte `i / 8`.
  rcases (by omega : i < 8 ∨ 8 ≤ i ∧ i < 16 ∨ 16 ≤ i ∧ i < 24 ∨ 24 ≤ i ∧ i < 32) with
    h | ⟨h, h'⟩ | ⟨h, h'⟩ | ⟨h, h'⟩
  all_goals grind

/-! ## Fields of a payload -/

/-- `agregar_buffer_Uint32`. -/
def agregarBufferUint32 (buffer : List Byte) (entero : Uint32) : List Byte :=
  buffer ++ bytesDe entero

/-- `leer_buffer_Uint32`, or none if it reads past the end of the stream. -/
def leerBufferUint32 : List Byte → Option (Uint32 × List Byte)
  | b₀ :: b₁ :: b₂ :: b₃ :: buffer => some (palabraDe b₀ b₁ b₂ b₃, buffer)
  | _ => none

/-- A word that starts a payload is read back. -/
theorem leer_bytesDe (entero : Uint32) (buffer : List Byte) :
    leerBufferUint32 (bytesDe entero ++ buffer) = some (entero, buffer) := by
  show some (palabraDe _ _ _ _, buffer) = _
  rw [palabraDe_bytesDe]

/-- `serializar_finalizar_hilo`. The source adds `pid` twice. -/
def serializarFinalizarHilo (pid _tid : Uint32) : List Byte :=
  agregarBufferUint32 (agregarBufferUint32 [] pid) pid

/-- `deserializar_finalizar_hilo`. -/
def deserializarFinalizarHilo (buffer : List Byte) : Option TDatosEsenciales :=
  match leerBufferUint32 buffer with
  | some (pidInv, resto) =>
    match leerBufferUint32 resto with
    | some (tidInv, _) => some { pidInv, tidInv }
    | none => none
  | none => none

/-- What memoria reads from the payload of `FINALIZAR_HILO`. -/
theorem deserializar_serializarFinalizarHilo (pid tid : Uint32) :
    deserializarFinalizarHilo (serializarFinalizarHilo pid tid) = some ⟨pid, pid⟩ := by
  have h₁ : serializarFinalizarHilo pid tid = bytesDe pid ++ (bytesDe pid ++ []) := by
    simp [serializarFinalizarHilo, agregarBufferUint32]
  simp only [deserializarFinalizarHilo, h₁, leer_bytesDe]

/-- `serializar_read_mem`. -/
def serializarReadMem (dirFis pidHilo tidHilo : Uint32) : List Byte :=
  agregarBufferUint32 (agregarBufferUint32 (agregarBufferUint32 [] dirFis) pidHilo) tidHilo

/-- `deserializar_read_mem`. -/
def deserializarReadMem (buffer : List Byte) : Option TDatosReadMem :=
  match leerBufferUint32 buffer with
  | some (dirFis, resto) =>
    match leerBufferUint32 resto with
    | some (pidHilo, resto) =>
      match leerBufferUint32 resto with
      | some (tidHilo, _) => some { dirFis, pidHilo, tidHilo }
      | none => none
    | none => none
  | none => none

theorem deserializar_serializarReadMem (dirFis pidHilo tidHilo : Uint32) :
    deserializarReadMem (serializarReadMem dirFis pidHilo tidHilo) =
      some ⟨dirFis, pidHilo, tidHilo⟩ := by
  have h₁ : serializarReadMem dirFis pidHilo tidHilo =
      bytesDe dirFis ++ (bytesDe pidHilo ++ (bytesDe tidHilo ++ [])) := by
    simp [serializarReadMem, agregarBufferUint32]
  simp only [deserializarReadMem, h₁, leer_bytesDe]

/-! ## Packets -/

/-- `serializar_int`: it replaces the payload. -/
def serializarInt (numero : CInt) : List Byte := bytesDe numero

/-- `serializar_paquete`, the bytes that `enviar_paquete` sends. -/
def serializarPaquete (codigoOperacion : CInt) (stream : List Byte) : List Byte :=
  bytesDe codigoOperacion ++ bytesDe (BitVec.ofNat 32 stream.length) ++ stream

end LastOfC
