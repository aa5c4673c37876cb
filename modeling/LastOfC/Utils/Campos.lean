import LastOfC.Utils.Buffer

/-!
# Round trip of the fields of a message

* `Lleno`: a buffer whose stream, `size` and `offset` all end at the same byte. Each call of
  `agregar_buffer_*` keeps it and appends the bytes of its field (`Lleno.agregarCampo`), so what
  `realloc` finds in memory is never read.
* `leerCampo_codificado`: a call of `leer_buffer_*` at the first byte of a field reads the field.
* `campos_ida_y_vuelta`: any sequence of fields, written and read back.
-/

namespace LastOfC

/-! ## Sizes -/

theorem msb_of_lt {size : CInt} (h : size.toNat < 2 ^ 31) : size.msb = false := by
  rw [BitVec.msb_eq_decide]
  exact decide_eq_false (Nat.not_le.mpr h)

/-- A size below `2 ^ 31` is the same as a `size_t`. -/
theorem toNat_size_t {size : CInt} (h : size.toNat < 2 ^ 31) :
    (size.signExtend 64).toNat = size.toNat := by
  rw [BitVec.toNat_signExtend, msb_of_lt h, BitVec.toNat_setWidth]
  simp only [Bool.false_eq_true, if_false]
  omega

theorem toNat_size_t_add {size : CInt} (h : size.toNat < 2 ^ 31) :
    (size.signExtend 64 + 4).toNat = size.toNat + 4 := by
  have h4 : (4 : BitVec 64).toNat = 4 := rfl
  rw [BitVec.toNat_add, toNat_size_t h, h4]
  exact Nat.mod_eq_of_lt (by omega)

@[simp] theorem length_bytesDe (valor : Uint32) : (bytesDe valor).length = 4 := rfl

theorem length_codificado_string (args : CString) :
    (Campo.string args).codificado.length = args.1.length + 5 := by
  rw [Campo.codificado, List.length_append, length_bytesDe, length_bytesDeCadena]
  omega

/-! ## Writing -/

/-- The buffer holds `bs`, and its fields say so. -/
structure TBuffer.Lleno (buffer : TBuffer) (bs : List Byte) : Prop where
  stream : buffer.stream = bs
  size : buffer.size.toNat = bs.length
  offset : buffer.offset.toNat = bs.length

namespace TBuffer.Lleno

variable {buffer : TBuffer} {bs : List Byte} {basura : Nat → Byte}

theorem crear : (crearBuffer 0).Lleno [] := ⟨rfl, rfl, rfl⟩

theorem agregarBufferUint32 (h : buffer.Lleno bs) (basura : Nat → Byte) (entero : Uint32)
    (hlt : bs.length + 4 < 2 ^ 31) :
    ∃ b', buffer.agregarBufferUint32 basura entero = some b' ∧ b'.Lleno (bs ++ bytesDe entero) := by
  have hgrow : (buffer.size.signExtend 64 + 4).toNat = bs.length + (bytesDe entero).length := by
    rw [toNat_size_t_add (by rw [h.size]; omega), h.size, length_bytesDe]
  unfold TBuffer.agregarBufferUint32
  rw [h.stream, h.offset]
  simp only [Block.write_grow hgrow]
  refine ⟨_, rfl, rfl, ?_, ?_⟩
  · show (buffer.size + 4).toNat = _
    rw [BitVec.toNat_add, h.size, List.length_append, length_bytesDe]
    exact Nat.mod_eq_of_lt (by simp; omega)
  · show (buffer.offset + 4).toNat = _
    rw [BitVec.toNat_add, h.offset, List.length_append, length_bytesDe]
    exact Nat.mod_eq_of_lt (by simp; omega)

theorem agregarBufferString (h : buffer.Lleno bs) (args : CString)
    (hlt : bs.length + (Campo.string args).codificado.length < 2 ^ 31) :
    ∃ b', buffer.agregarBufferString basura args.1 = some b' ∧
      b'.Lleno (bs ++ (Campo.string args).codificado) := by
  rw [length_codificado_string] at hlt
  have htam : (BitVec.ofNat 32 (args.1.length + 1)).toNat = args.1.length + 1 := by
    rw [BitVec.toNat_ofNat]
    exact Nat.mod_eq_of_lt (by omega)
  obtain ⟨b₁, h₁, hb₁⟩ := h.agregarBufferUint32 basura
    (BitVec.ofNat 32 (args.1.length + 1)) (by omega)
  have hlen := hb₁.size
  rw [List.length_append, length_bytesDe] at hlen
  have hsuma : (b₁.size + BitVec.ofNat 32 (args.1.length + 1)).toNat =
      b₁.size.toNat + (args.1.length + 1) := by
    rw [BitVec.toNat_add, htam]
    exact Nat.mod_eq_of_lt (by omega)
  have htake : (bytesDeCadena args.1).take (args.1.length + 1) = bytesDeCadena args.1 :=
    List.take_of_length_le (by rw [length_bytesDeCadena])
  have hwrite : Block.write (Block.grow b₁.stream (b₁.size.toNat + (args.1.length + 1)) basura)
      b₁.offset.toNat (bytesDeCadena args.1) = some (b₁.stream ++ bytesDeCadena args.1) := by
    rw [hb₁.offset, hb₁.size, ← hb₁.stream]
    exact Block.write_grow (by rw [length_bytesDeCadena])
  unfold TBuffer.agregarBufferString
  simp only [h₁, hsuma, htam, htake, hwrite]
  refine ⟨_, rfl, ?_, ?_, ?_⟩
  · show b₁.stream ++ bytesDeCadena args.1 = _
    rw [hb₁.stream, List.append_assoc]
    rfl
  · show (b₁.size + BitVec.ofNat 32 (args.1.length + 1)).toNat = _
    rw [hsuma, hlen, List.length_append, length_codificado_string]
    omega
  · show (b₁.offset + BitVec.ofNat 32 (args.1.length + 1)).toNat = _
    rw [BitVec.toNat_add, htam, hb₁.offset, ← hb₁.size, hlen, List.length_append,
      length_codificado_string]
    rw [Nat.mod_eq_of_lt (by omega)]
    omega

/-- A call of `agregar_buffer_*` appends the bytes of its field. -/
theorem agregarCampo (h : buffer.Lleno bs) (a : Agregado)
    (hlt : bs.length + a.campo.codificado.length < 2 ^ 31) :
    ∃ b', buffer.agregarCampo a = some b' ∧ b'.Lleno (bs ++ a.campo.codificado) := by
  obtain ⟨campo, basura⟩ := a
  cases campo with
  | uint32 entero => exact h.agregarBufferUint32 _ entero hlt
  | int entero => exact h.agregarBufferUint32 _ entero hlt
  | string args => exact h.agregarBufferString args hlt

theorem agregarCampos (h : buffer.Lleno bs) (as : List Agregado)
    (hlt : bs.length + (codificados as).length < 2 ^ 31) :
    ∃ b', buffer.agregarCampos as = some b' ∧ b'.Lleno (bs ++ codificados as) := by
  induction as generalizing buffer bs with
  | nil => exact ⟨buffer, rfl, by rwa [codificados, List.flatMap_nil, List.append_nil]⟩
  | cons a as ih =>
    have hcons : codificados (a :: as) = a.campo.codificado ++ codificados as := List.flatMap_cons
    rw [hcons] at hlt ⊢
    rw [List.length_append] at hlt
    obtain ⟨b₁, h₁, hb₁⟩ := h.agregarCampo a (by omega)
    obtain ⟨b₂, h₂, hb₂⟩ := ih hb₁ (by rw [List.length_append]; omega)
    refine ⟨b₂, ?_, by rwa [← List.append_assoc]⟩
    simp only [TBuffer.agregarCampos, h₁, h₂]

end TBuffer.Lleno

/-! ## Reading -/

section Lectura

variable {buffer : TBuffer} {pre resto : List Byte}

/-- The buffer with its offset after `n` bytes more. -/
def TBuffer.avanzado (buffer : TBuffer) (n : Nat) : TBuffer :=
  { buffer with offset := buffer.offset + BitVec.ofNat 32 n }

theorem TBuffer.avanzado_avanzado (n m : Nat) :
    (buffer.avanzado n).avanzado m = buffer.avanzado (n + m) := by
  simp only [TBuffer.avanzado, BitVec.add_assoc, BitVec.ofNat_add]

theorem TBuffer.toNat_offset_avanzado {n m : Nat} (h : buffer.offset.toNat = m)
    (hlt : m + n < 2 ^ 32) : (buffer.avanzado n).offset.toNat = m + n := by
  show (buffer.offset + BitVec.ofNat 32 n).toNat = _
  rw [BitVec.toNat_add, BitVec.toNat_ofNat, h, Nat.mod_eq_of_lt (show n < 2 ^ 32 by omega),
    Nat.mod_eq_of_lt hlt]

theorem leerBufferUint32_bytesDe {entero : Uint32}
    (hs : buffer.stream = pre ++ (bytesDe entero ++ resto))
    (ho : buffer.offset.toNat = pre.length) :
    buffer.leerBufferUint32 = some (entero, buffer.avanzado 4) := by
  have hread : Block.read buffer.stream buffer.offset.toNat 4 = some (bytesDe entero) := by
    rw [hs, ho]
    exact Block.read_append pre (bytesDe entero) resto
  have hleer : LastOfC.leerBufferUint32 (bytesDe entero) = some (entero, []) := by
    simpa using leer_bytesDe entero []
  unfold TBuffer.leerBufferUint32
  simp only [hread, hleer]
  rfl

theorem leerBufferString_codificado {args : CString}
    (hs : buffer.stream = pre ++ ((Campo.string args).codificado ++ resto))
    (ho : buffer.offset.toNat = pre.length) (hlt : buffer.stream.length < 2 ^ 31) :
    buffer.leerBufferString =
      some (args, buffer.avanzado (Campo.string args).codificado.length) := by
  have hlen := hlt
  rw [hs, List.length_append, List.length_append, length_codificado_string] at hlen
  have htam : (BitVec.ofNat 32 (args.1.length + 1)).toNat = (bytesDeCadena args.1).length := by
    rw [BitVec.toNat_ofNat, length_bytesDeCadena]
    exact Nat.mod_eq_of_lt (by omega)
  have hs' : buffer.stream =
      pre ++
        (bytesDe (BitVec.ofNat 32 (args.1.length + 1)) ++ (bytesDeCadena args.1 ++ resto)) := by
    rw [hs, Campo.codificado, List.append_assoc]
  have hoff := TBuffer.toNat_offset_avanzado (n := 4) ho (by omega)
  have hread : Block.read buffer.stream (buffer.avanzado 4).offset.toNat
      (bytesDeCadena args.1).length = some (bytesDeCadena args.1) := by
    have h := Block.read_append (pre ++ bytesDe (BitVec.ofNat 32 (args.1.length + 1)))
      (bytesDeCadena args.1) resto
    rwa [List.append_assoc, ← hs', List.length_append, length_bytesDe, ← hoff] at h
  unfold TBuffer.leerBufferString
  simp only [leerBufferUint32_bytesDe hs' ho, htam]
  rw [show (buffer.avanzado 4).stream = buffer.stream from rfl, hread]
  have hfin : (buffer.avanzado 4).avanzado (args.1.length + 1) =
      buffer.avanzado (Campo.string args).codificado.length := by
    rw [TBuffer.avanzado_avanzado, length_codificado_string]
    congr 1
    omega
  simp only [cadenaDe_bytesDeCadena args.2, ← hfin]
  rfl

/-- A call of `leer_buffer_*` at the first byte of a field reads the field. -/
theorem leerCampo_codificado {campo : Campo}
    (hs : buffer.stream = pre ++ (campo.codificado ++ resto))
    (ho : buffer.offset.toNat = pre.length) (hlt : buffer.stream.length < 2 ^ 31) :
    buffer.leerCampo campo.tipo = some (campo, buffer.avanzado campo.codificado.length) := by
  cases campo with
  | uint32 entero =>
    simp only [Campo.tipo, TBuffer.leerCampo, leerBufferUint32_bytesDe hs ho, Option.map_some]
    rfl
  | int entero =>
    simp only [Campo.tipo, TBuffer.leerCampo, TBuffer.leerBufferInt,
      leerBufferUint32_bytesDe hs ho, Option.map_some]
    rfl
  | string args =>
    simp only [Campo.tipo, TBuffer.leerCampo, leerBufferString_codificado hs ho hlt,
      Option.map_some]

/-- The calls of a decoder at the first byte of a sequence of fields. -/
theorem leerCampos_codificados {as : List Agregado}
    (hs : buffer.stream = pre ++ (codificados as ++ resto))
    (ho : buffer.offset.toNat = pre.length) (hlt : buffer.stream.length < 2 ^ 31) :
    buffer.leerCampos (as.map fun a => a.campo.tipo) =
      some (as.map fun a => a.campo, buffer.avanzado (codificados as).length) := by
  induction as generalizing buffer pre with
  | nil =>
    simp [TBuffer.leerCampos, TBuffer.avanzado, codificados]
  | cons a as ih =>
    have hcons : codificados (a :: as) = a.campo.codificado ++ codificados as := List.flatMap_cons
    rw [hcons, List.append_assoc] at hs
    have hlen := congrArg List.length hs
    simp only [List.length_append] at hlen
    have hs' : (buffer.avanzado a.campo.codificado.length).stream =
        (pre ++ a.campo.codificado) ++ (codificados as ++ resto) := by
      rw [List.append_assoc]
      exact hs
    have ho' : (buffer.avanzado a.campo.codificado.length).offset.toNat =
        (pre ++ a.campo.codificado).length := by
      rw [List.length_append]
      exact TBuffer.toNat_offset_avanzado ho (by omega)
    have hrest := ih hs' ho' hlt
    simp only [List.map_cons, TBuffer.leerCampos, leerCampo_codificado hs ho hlt, hrest,
      TBuffer.avanzado_avanzado, hcons, List.length_append]

end Lectura

/-! ## Both -/

/-- What `malloc` left in a `t_buffer` that starts at 0 does not matter for a sequence of fields:
each write is inside the block, which is `size` bytes long, and reading the block from its first
byte gives back the fields and ends at `size`. -/
theorem campos_ida_y_vuelta (as : List Agregado) (h : (codificados as).length < 2 ^ 31) :
    (∀ as', as' <+: as → ∃ b, (crearBuffer 0).agregarCampos as' = some b ∧
      b.stream.length = b.size.toNat ∧ b.offset.toNat = b.size.toNat) ∧
    ∃ b, (crearBuffer 0).agregarCampos as = some b ∧
      ∃ b', ({ b with offset := 0 } : TBuffer).leerCampos (as.map fun a => a.campo.tipo) =
          some (as.map fun a => a.campo, b') ∧
        b'.offset.toNat = b.size.toNat := by
  constructor
  · rintro as' ⟨resto, rfl⟩
    rw [codificados, List.flatMap_append, List.length_append] at h
    obtain ⟨b, hb, hlleno⟩ := TBuffer.Lleno.crear.agregarCampos as'
      (show 0 + (as'.flatMap _).length < _ by omega)
    exact ⟨b, hb, by rw [hlleno.stream, hlleno.size], by rw [hlleno.offset, hlleno.size]⟩
  · obtain ⟨b, hb, hlleno⟩ := TBuffer.Lleno.crear.agregarCampos as
      (show 0 + (codificados as).length < _ by omega)
    rw [List.nil_append] at hlleno
    have hstream : ({ b with offset := 0 } : TBuffer).stream = [] ++ (codificados as ++ []) := by
      rw [List.nil_append, List.append_nil]
      exact hlleno.stream
    have hleer := leerCampos_codificados hstream rfl
      (show b.stream.length < 2 ^ 31 by rwa [hlleno.stream])
    refine ⟨b, hb, _, hleer, ?_⟩
    rw [TBuffer.toNat_offset_avanzado (m := 0) rfl (by omega), hlleno.size, Nat.zero_add]

/-- The fields of a `PROCESS_CREATE`. -/
def camposProcessCreate : List Agregado :=
  [⟨.uint32 1, fun _ => 7⟩, ⟨.uint32 0, fun _ => 7⟩, ⟨.string ⟨['a'], by decide⟩, fun _ => 7⟩,
    ⟨.uint32 32, fun _ => 7⟩, ⟨.uint32 1, fun _ => 7⟩]

theorem campos_processCreate : ∃ b, (crearBuffer 0).agregarCampos camposProcessCreate = some b ∧
    ∃ b', ({ b with offset := 0 } : TBuffer).leerCampos
        (camposProcessCreate.map fun a => a.campo.tipo) =
        some (camposProcessCreate.map fun a => a.campo, b') ∧
      b'.offset.toNat = b.size.toNat :=
  (campos_ida_y_vuelta camposProcessCreate (by decide)).2

end LastOfC
