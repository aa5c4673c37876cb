import Mathlib.Data.List.TakeWhile
import LastOfC.Lib.Block
import LastOfC.Utils.Serializar

/-!
# `t_buffer` in memory (`serializar.c`)

Here a `t_buffer` has all its fields, and its stream is the block that `malloc` or `realloc`
returned. An access outside the block has no result.

* `CString`: the contents of a `char*`. `bytesDeCadena` and `cadenaDe`: its bytes, and back.
* `agregarBufferUint32`, `agregarBufferInt` and `agregarBufferString`: what `realloc` finds in the
  new bytes is a parameter.
* `leerBufferUint32`, `leerBufferInt` and `leerBufferString`.
* `Campo`: a field of a message. `agregarCampos` and `leerCampos` are sequences of these calls.
-/

namespace LastOfC

/-! ## Strings -/

/-- Each character is a `char` other than the terminator. -/
def EsCString (s : Cadena) : Prop := ∀ c ∈ s, 0 < c.toNat ∧ c.toNat < 256

instance (s : Cadena) : Decidable (EsCString s) := List.decidableBAll _ s

/-- What a `char*` points to, up to the terminator. -/
abbrev CString := { s : Cadena // EsCString s }

/-- The bytes of a string, with the terminator. -/
def bytesDeCadena (s : Cadena) : List Byte :=
  s.map (fun c => BitVec.ofNat 8 c.toNat) ++ [0]

/-- The string at the front of a block. -/
def cadenaDe (bs : List Byte) : Cadena :=
  (bs.takeWhile fun b => b ≠ 0).map fun b => Char.ofNat b.toNat

@[simp] theorem length_bytesDeCadena (s : Cadena) : (bytesDeCadena s).length = s.length + 1 := by
  rw [bytesDeCadena, List.length_append, List.length_map, List.length_singleton]

theorem toNat_charOfByte (b : Byte) : (Char.ofNat b.toNat).toNat = b.toNat := by
  have hlt := b.isLt
  have hvalid : b.toNat.isValidChar := .inl (by omega)
  rw [Char.ofNat, dif_pos hvalid]
  rfl

theorem byteDeChar_ne {c : Char} (h : 0 < c.toNat ∧ c.toNat < 256) :
    (BitVec.ofNat 8 c.toNat) ≠ 0 := by
  intro h0
  have h1 := congrArg BitVec.toNat h0
  rw [BitVec.toNat_ofNat, Nat.mod_eq_of_lt h.2] at h1
  exact absurd h1 (Nat.pos_iff_ne_zero.mp h.1)

theorem esCString_cadenaDe (bs : List Byte) : EsCString (cadenaDe bs) := by
  intro c hc
  obtain ⟨b, hb, rfl⟩ := List.mem_map.mp hc
  have hne : b ≠ 0 := by simpa using List.mem_takeWhile_imp hb
  rw [toNat_charOfByte]
  refine ⟨Nat.pos_of_ne_zero fun h0 => hne ?_, b.isLt⟩
  exact BitVec.eq_of_toNat_eq h0

/-- The bytes of a string read as a string, whatever comes after the terminator. -/
theorem cadenaDe_bytesDeCadena {s : Cadena} (h : EsCString s) (resto : List Byte) :
    cadenaDe (bytesDeCadena s ++ resto) = s := by
  induction s with
  | nil => rfl
  | cons c s ih =>
    have hc := h c List.mem_cons_self
    have hs : EsCString s := fun d hd => h d (List.mem_cons_of_mem _ hd)
    have hback : Char.ofNat (BitVec.ofNat 8 c.toNat).toNat = c := by
      rw [BitVec.toNat_ofNat, Nat.mod_eq_of_lt hc.2, Char.ofNat_toNat]
    have hcons : bytesDeCadena (c :: s) ++ resto =
        BitVec.ofNat 8 c.toNat :: (bytesDeCadena s ++ resto) := rfl
    have ih := ih hs
    unfold cadenaDe at ih ⊢
    rw [hcons, List.takeWhile_cons_of_pos (by simpa using byteDeChar_ne hc), List.map_cons, ih,
      hback]

/-! ## The buffer -/

/-- `t_buffer`. -/
structure TBuffer where
  size : CInt
  offset : Uint32
  stream : List Byte
  deriving DecidableEq, Repr

/-- `crear_buffer`. `offset` is what `malloc` left in the field. -/
def crearBuffer (offset : Uint32) : TBuffer := { size := 0, offset, stream := [] }

namespace TBuffer

/-- `agregar_buffer_Uint32`. The size is a `size_t` in the call of `realloc`. -/
def agregarBufferUint32 (basura : Nat → Byte) (buffer : TBuffer) (entero : Uint32) :
    Option TBuffer :=
  let stream := Block.grow buffer.stream (buffer.size.signExtend 64 + 4).toNat basura
  match Block.write stream buffer.offset.toNat (bytesDe entero) with
  | some stream => some { size := buffer.size + 4, offset := buffer.offset + 4, stream }
  | none => none

/-- `agregar_buffer_int`, which has the body of `agregar_buffer_Uint32`. -/
def agregarBufferInt (basura : Nat → Byte) (buffer : TBuffer) (entero : CInt) : Option TBuffer :=
  buffer.agregarBufferUint32 basura entero

/-- `agregar_buffer_string`. -/
def agregarBufferString (basura : Nat → Byte) (buffer : TBuffer) (args : Cadena) :
    Option TBuffer :=
  let tamanio : Uint32 := BitVec.ofNat 32 (args.length + 1)
  match buffer.agregarBufferUint32 basura tamanio with
  | some buffer =>
    -- `size + tamanio` is a `uint32_t`.
    let stream := Block.grow buffer.stream (buffer.size + tamanio).toNat basura
    match Block.write stream buffer.offset.toNat ((bytesDeCadena args).take tamanio.toNat) with
    | some stream =>
      some { size := buffer.size + tamanio, offset := buffer.offset + tamanio, stream }
    | none => none
  | none => none

/-- `leer_buffer_Uint32`. -/
def leerBufferUint32 (buffer : TBuffer) : Option (Uint32 × TBuffer) :=
  match Block.read buffer.stream buffer.offset.toNat 4 with
  | some bytes =>
    match LastOfC.leerBufferUint32 bytes with
    | some (entero, _) => some (entero, { buffer with offset := buffer.offset + 4 })
    | none => none
  | none => none

/-- `leer_buffer_int`, which returns the `int` as a `uint32_t`. -/
def leerBufferInt (buffer : TBuffer) : Option (Uint32 × TBuffer) := buffer.leerBufferUint32

/-- `leer_buffer_string`. It puts a terminator after the bytes. -/
def leerBufferString (buffer : TBuffer) : Option (CString × TBuffer) :=
  match buffer.leerBufferUint32 with
  | some (tamanio, buffer) =>
    match Block.read buffer.stream buffer.offset.toNat tamanio.toNat with
    | some bytes =>
      some (⟨cadenaDe (bytes ++ [0]), esCString_cadenaDe _⟩,
        { buffer with offset := buffer.offset + tamanio })
    | none => none
  | none => none

end TBuffer

/-! ## Sequences of fields -/

/-- A field and its value. -/
inductive Campo where
  | uint32 (entero : Uint32)
  | int (entero : CInt)
  | string (args : CString)
  deriving DecidableEq

/-- The type of a field. -/
inductive Campo.Tipo where
  | uint32
  | int
  | string
  deriving DecidableEq, Repr

def Campo.tipo : Campo → Campo.Tipo
  | .uint32 _ => .uint32
  | .int _ => .int
  | .string _ => .string

/-- The bytes of a field. -/
def Campo.codificado : Campo → List Byte
  | .uint32 entero => bytesDe entero
  | .int entero => bytesDe entero
  | .string args => bytesDe (BitVec.ofNat 32 (args.1.length + 1)) ++ bytesDeCadena args.1

/-- A call of `agregar_buffer_*`, and what its calls of `realloc` find in the new bytes. -/
structure Agregado where
  campo : Campo
  basura : Nat → Byte

def TBuffer.agregarCampo (buffer : TBuffer) (a : Agregado) : Option TBuffer :=
  match a.campo with
  | .uint32 entero => buffer.agregarBufferUint32 a.basura entero
  | .int entero => buffer.agregarBufferInt a.basura entero
  | .string args => buffer.agregarBufferString a.basura args.1

def TBuffer.leerCampo (buffer : TBuffer) : Campo.Tipo → Option (Campo × TBuffer)
  | .uint32 => buffer.leerBufferUint32.map fun r => (.uint32 r.1, r.2)
  | .int => buffer.leerBufferInt.map fun r => (.int r.1, r.2)
  | .string => buffer.leerBufferString.map fun r => (.string r.1, r.2)

/-- The calls of `agregar_buffer_*` of an encoder. -/
def TBuffer.agregarCampos (buffer : TBuffer) : List Agregado → Option TBuffer
  | [] => some buffer
  | a :: as =>
    match buffer.agregarCampo a with
    | some buffer => buffer.agregarCampos as
    | none => none

/-- The calls of `leer_buffer_*` of a decoder. -/
def TBuffer.leerCampos (buffer : TBuffer) : List Campo.Tipo → Option (List Campo × TBuffer)
  | [] => some ([], buffer)
  | t :: ts =>
    match buffer.leerCampo t with
    | some (campo, buffer) =>
      match buffer.leerCampos ts with
      | some (campos, buffer) => some (campo :: campos, buffer)
      | none => none
    | none => none

/-- The bytes of a sequence of fields. -/
def codificados (as : List Agregado) : List Byte := as.flatMap fun a => a.campo.codificado

end LastOfC
