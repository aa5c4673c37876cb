import LastOfC.Utils.Paquete

/-!
# Readers of a connection that stays open (`serializar.c`, `utils.c`)

`recv` with `MSG_WAITALL` waits until it has the bytes that it was asked for. Here a reader has no
result while it waits, and `leerBufferUint32` is a `recv` of one word.

* `esperarPaquete`: `recibir_paquete`. `recibirPaquete_of_espera`: if it does not wait it is the
  one of a stream that ends.
* `esperarPaquetes`: one call after the other. `esperarPaquetes_tramas`: whole packets are read as
  they were sent, and `esperarPaquetes_tramas_append`: the calls after them.
* `enviarTodos`: the bytes of several messages, where `Malloc` is what the calls of `malloc` find.
-/

namespace LastOfC

/-- `recibir_paquete`, and the rest of the stream. -/
def esperarPaquete (basura : Basura) (socket : List Byte) :
    Option (Option TPaquete × List Byte) :=
  match leerBufferUint32 socket with
  | none => none
  | some (codigoOperacion, socket) =>
    if codigoOperacion = -1 then some (none, socket)
    else
      match leerBufferUint32 socket with
      | none => none
      | some (size, socket) =>
        -- `malloc` has no block of a negative size, and then the second `recv` takes nothing.
        let n := if size.msb then 0 else size.toNat
        if n ≤ socket.length then
          some (some { codigoOperacion
                       buffer := { size, offset := basura.offset, stream := socket.take n } },
            socket.drop n)
        else none

/-- One call of `recibir_paquete` after the other. -/
def esperarPaquetes : List Basura → List Byte → Option (List (Option TPaquete) × List Byte)
  | [], socket => some ([], socket)
  | b :: bs, socket =>
    match esperarPaquete b socket with
    | none => none
    | some (paquete, socket) =>
      (esperarPaquetes bs socket).map fun r => (paquete :: r.1, r.2)

/-- What `crear_paquete`, the encoder and `enviar_paquete` find in their blocks. -/
structure Malloc where
  offset : Uint32
  stream : Nat → Byte
  magic : Nat → Byte

/-- The bytes of several messages, each written by `enviar`. -/
def enviarTodos {α : Type} (enviar : α → Option (List Byte)) : List α → Option (List Byte)
  | [] => some []
  | a :: as => do
    let bytes ← enviar a
    let resto ← enviarTodos enviar as
    some (bytes ++ resto)

section Esperas

variable {basura : Basura} {socket resto : List Byte} {p : Option TPaquete} {entero : Uint32}

/-- A word that was waited for is a word that was received. -/
theorem leerBufferUint32_eq (b : Uint32) (h : leerBufferUint32 socket = some (entero, resto)) :
    palabraSobre b (socket.take 4) = entero ∧ socket.drop 4 = resto ∧
      socket.length = resto.length + 4 := by
  unfold leerBufferUint32 at h
  split at h
  · cases h
    exact ⟨rfl, rfl, rfl⟩
  · cases h

/-- A call that does not wait is the call of a stream that ends after these bytes. -/
theorem recibirPaquete_of_espera (h : esperarPaquete basura socket = some (p, resto)) :
    recibirPaquete basura socket = (p, resto) := by
  unfold esperarPaquete at h
  cases hop : leerBufferUint32 socket with
  | none =>
    rw [hop] at h
    cases h
  | some r =>
    obtain ⟨codigo, socket₁⟩ := r
    obtain ⟨hpal, hdrop, hlen⟩ := leerBufferUint32_eq basura.codOp hop
    have hrecibir : recibirOperacion basura.codOp socket = (codigo, socket₁) := by
      unfold recibirOperacion
      simp only [hpal, hdrop, List.length_take]
      rw [if_pos (by omega)]
    simp only [hop] at h
    unfold recibirPaquete
    simp only [hrecibir]
    by_cases hmenos : codigo = -1
    · rw [if_pos hmenos] at h ⊢
      exact Option.some.inj h
    · rw [if_neg hmenos] at h ⊢
      cases hsz : leerBufferUint32 socket₁ with
      | none =>
        rw [hsz] at h
        cases h
      | some r =>
        obtain ⟨size, socket₂⟩ := r
        obtain ⟨hpal', hdrop', -⟩ := leerBufferUint32_eq basura.size hsz
        simp only [hsz, Option.ite_none_right_eq_some, Option.some.injEq] at h
        obtain ⟨hn, h⟩ := h
        rw [← h]
        unfold recibirBuffer
        simp only [hpal', hdrop']
        cases hmsb : size.msb with
        | true => rfl
        | false =>
          simp only [hmsb, Bool.false_eq_true, if_false] at hn
          simp only [Bool.false_eq_true, if_false, Block.grow, List.length_take,
            Nat.min_eq_left hn, Nat.sub_self, List.range'_zero, List.map_nil, List.append_nil,
            List.take_take, Nat.min_self]

/-- A word is read in the same way when more bytes follow. -/
theorem leerBufferUint32_append (h : leerBufferUint32 socket = some (entero, resto))
    (bytes : List Byte) : leerBufferUint32 (socket ++ bytes) = some (entero, resto ++ bytes) := by
  unfold leerBufferUint32 at h
  split at h
  · cases h
    rfl
  · cases h

/-- A call that does not wait takes the same bytes when more follow. -/
theorem esperarPaquete_append (h : esperarPaquete basura socket = some (p, resto))
    (bytes : List Byte) : esperarPaquete basura (socket ++ bytes) = some (p, resto ++ bytes) := by
  unfold esperarPaquete at h ⊢
  split at h
  · cases h
  · rename_i codigo socket₁ hop
    simp only [leerBufferUint32_append hop bytes]
    split at h
    · rename_i hmenos
      cases h
      rw [if_pos hmenos]
    · rename_i hmenos
      rw [if_neg hmenos]
      split at h
      · cases h
      · rename_i size socket₂ hsz
        simp only [leerBufferUint32_append hsz bytes]
        simp only [Option.ite_none_right_eq_some, Option.some.injEq, Prod.mk.injEq] at h
        obtain ⟨hn, rfl, rfl⟩ := h
        rw [if_pos (by rw [List.length_append]; omega), List.take_append_of_le_length hn,
          List.drop_append_of_le_length hn]

/-- A packet has a header of 8 bytes, and the end of the connection is seen in 4. -/
theorem length_esperarPaquete (h : esperarPaquete basura socket = some (p, resto)) :
    resto.length + (if p.isSome then 8 else 4) ≤ socket.length := by
  unfold esperarPaquete at h
  split at h
  · cases h
  · rename_i codigo socket₁ hop
    obtain ⟨-, -, hlen⟩ := leerBufferUint32_eq 0 hop
    split at h
    · cases h
      simp only [Option.isSome_none, Bool.false_eq_true, if_false]
      omega
    · split at h
      · cases h
      · rename_i size socket₂ hsz
        obtain ⟨-, -, hlen'⟩ := leerBufferUint32_eq 0 hsz
        simp only [Option.ite_none_right_eq_some, Option.some.injEq, Prod.mk.injEq] at h
        obtain ⟨-, rfl, rfl⟩ := h
        simp only [Option.isSome_some, if_true, List.length_drop]
        omega

/-- A whole packet at the front of the stream is read, and nothing after it. -/
theorem esperarPaquete_trama (m : Mensaje) (basura : Basura) (resto : List Byte) :
    esperarPaquete basura (m.trama ++ resto) = some (some (m.recibido basura), resto) := by
  have htrama : m.trama ++ resto =
      bytesDe m.codigoOperacion ++ (bytesDe m.size ++ (m.contenido ++ resto)) := by
    rw [m.trama_eq, List.append_assoc, List.append_assoc]
  unfold esperarPaquete
  rw [htrama]
  simp only [leer_bytesDe, if_neg m.codigo_ne, msb_of_lt m.size_lt, m.toNat_size,
    Bool.false_eq_true, if_false, List.take_left, List.drop_left, List.length_append]
  rw [if_pos (Nat.le_add_right _ _)]
  rfl

/-- The calls that come after whole packets. -/
theorem esperarPaquetes_tramas_append {ms : List Mensaje} {bs : List Basura}
    (h : bs.length = ms.length) (bs' : List Basura) (resto : List Byte) :
    esperarPaquetes (bs ++ bs') ((ms.flatMap Mensaje.trama) ++ resto) =
      (esperarPaquetes bs' resto).map fun r =>
        (List.zipWith (fun m b => some (Mensaje.recibido m b)) ms bs ++ r.1, r.2) := by
  induction ms generalizing bs with
  | nil =>
    obtain rfl := List.eq_nil_of_length_eq_zero h
    simp only [List.nil_append, List.flatMap_nil, List.zipWith_nil_left]
    exact Option.map_id'.symm
  | cons m ms ih =>
    cases bs with
    | nil => cases h
    | cons b bs =>
      rw [List.flatMap_cons, List.append_assoc, List.cons_append, esperarPaquetes]
      simp only [esperarPaquete_trama, ih (Nat.succ.inj h), Option.map_map,
        List.zipWith_cons_cons]
      rfl

/-- Whole packets are read as they were sent. -/
theorem esperarPaquetes_tramas {ms : List Mensaje} {bs : List Basura} (h : bs.length = ms.length)
    (resto : List Byte) :
    esperarPaquetes bs ((ms.flatMap Mensaje.trama) ++ resto) =
      some (List.zipWith (fun m b => some (Mensaje.recibido m b)) ms bs, resto) := by
  have happ := esperarPaquetes_tramas_append h [] resto
  simpa only [List.append_nil, esperarPaquetes, Option.map_some] using happ

end Esperas

end LastOfC
