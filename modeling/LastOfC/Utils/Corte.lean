import LastOfC.Utils.Paquete

/-!
# A stream that ends inside a packet

`recibir_operacion` takes any bytes at all for an operation code, and nobody looks at what the other
two calls of `recv` return. `corte_iff`: the piece of a packet is delivered as a packet, unless its
bytes, with those that `cod_op` happened to hold, are the `-1` of the end.
-/

namespace LastOfC

section Corte

variable {bs : List Basura} {b : Basura} {t : List Byte} {m : Mensaje}

/-! ## Words -/

theorem bytesDe_palabraDe (b₀ b₁ b₂ b₃ : Byte) :
    bytesDe (palabraDe b₀ b₁ b₂ b₃) = [b₀, b₁, b₂, b₃] := by
  have hbyte : ∀ (k : Nat) (b : Byte),
      (∀ i < 8, (palabraDe b₀ b₁ b₂ b₃).getLsbD (k + i) = b.getLsbD i) →
        (palabraDe b₀ b₁ b₂ b₃).extractLsb' k 8 = b := by
    intro k b h
    apply BitVec.eq_of_getLsbD_eq
    intro i hi
    rw [BitVec.getLsbD_extractLsb', decide_eq_true hi, Bool.true_and, h i hi]
  rw [bytesDe, hbyte 0 b₀, hbyte 8 b₁, hbyte 16 b₂, hbyte 24 b₃]
  all_goals
    intro i hi
    simp only [palabraDe, BitVec.getLsbD_append]
    grind

/-- The word that ends a conversation. -/
theorem palabraDe_eq_fin {b₀ b₁ b₂ b₃ : Byte} :
    palabraDe b₀ b₁ b₂ b₃ = -1 ↔ ∀ x ∈ [b₀, b₁, b₂, b₃], x = 255 := by
  constructor
  · intro h
    rw [← bytesDe_palabraDe, h]
    decide
  · intro h
    simp only [List.forall_mem_cons] at h
    obtain ⟨rfl, rfl, rfl, rfl, -⟩ := h
    decide

/-- A word of which some bytes were received is that one if all its bytes are 255. -/
theorem palabraSobre_eq_fin {basura : Uint32} (h : t.length < 4) :
    palabraSobre basura t = -1 ↔
      (∀ x ∈ t, x = 255) ∧ ∀ x ∈ (bytesDe basura).drop t.length, x = 255 := by
  rw [← List.forall_mem_append]
  have hlen : (t ++ (bytesDe basura).drop t.length).length = 4 := by
    rw [List.length_append, List.length_drop, length_bytesDe]
    omega
  unfold palabraSobre
  generalize t ++ (bytesDe basura).drop t.length = bytes at hlen
  match bytes, hlen with
  | [b₀, b₁, b₂, b₃], _ => exact palabraDe_eq_fin

/-! ## The calls -/

/-- Whole packets, and then `resto`. -/
theorem recibirPaquetes_append (vs : List (Mensaje × Basura)) (bs : List Basura)
    (resto : List Byte) :
    (recibirPaquetes (vs.map Prod.snd ++ bs) ((vs.flatMap fun v => v.1.trama) ++ resto)).1 =
      (vs.map fun v => some (v.1.recibido v.2)) ++ (recibirPaquetes bs resto).1 := by
  induction vs with
  | nil => rfl
  | cons v vs ih =>
    rw [List.flatMap_cons, List.append_assoc, List.map_cons, List.cons_append, recibirPaquetes,
      recibirPaquete_trama, List.map_cons, List.cons_append, ← ih]

/-- At the end of the stream each call returns `NULL`. -/
theorem recibirPaquetes_vacio (bs : List Basura) :
    (recibirPaquetes bs []).1 = List.replicate bs.length none := by
  induction bs with
  | nil => rfl
  | cons b bs ih =>
    have hnone : recibirPaquete b [] = (none, []) := rfl
    rw [recibirPaquetes, hnone, List.length_cons, List.replicate_succ, ← ih]

/-- The call that gets a piece of the operation code and returns `NULL`. -/
theorem recibirPaquete_fin (h0 : t ≠ []) (h4 : t.length < 4)
    (h : palabraSobre b.codOp t = -1) : recibirPaquete b t = (none, []) := by
  have htake : t.take 4 = t := List.take_of_length_le (Nat.le_of_lt h4)
  have hdrop : t.drop 4 = [] := List.drop_of_length_le (Nat.le_of_lt h4)
  have hpos : 0 < t.length := List.length_pos_iff.mpr h0
  have hop : recibirOperacion b.codOp t = (-1, []) := by
    unfold recibirOperacion
    dsimp only
    rw [htake, if_pos hpos, h, hdrop]
  unfold recibirPaquete
  rw [hop]
  rfl

/-- A call whose operation code is another one returns a packet. -/
theorem recibirPaquete_ne_none (h0 : t ≠ []) (h : palabraSobre b.codOp (t.take 4) ≠ -1) :
    (recibirPaquete b t).1 ≠ none := by
  have hpos : 0 < (t.take 4).length := by
    have hlen := List.length_pos_iff.mpr h0
    rw [List.length_take]
    omega
  have hop : recibirOperacion b.codOp t = (palabraSobre b.codOp (t.take 4), t.drop 4) := by
    unfold recibirOperacion
    dsimp only
    rw [if_pos hpos]
  unfold recibirPaquete
  rw [hop]
  dsimp only
  rw [if_neg h]
  exact Option.some_ne_none _

/-- The first word of a message is its operation code. -/
theorem take_prefijo (hpre : t <+: m.trama) (h4 : 4 ≤ t.length) :
    t.take 4 = bytesDe m.codigoOperacion := by
  obtain ⟨resto, hresto⟩ := hpre
  have htake : t.take 4 = m.trama.take 4 := by
    rw [← hresto, List.take_append_of_le_length h4]
  rw [htake, m.trama_eq]
  rfl

/-- The calls of `recibir_paquete` on whole packets and a piece `t` of another one: they return the
whole packets, and `NULL` from there on. -/
def CorteBien (vs : List (Mensaje × Basura)) (t : List Byte) (b : Basura) (bs : List Basura) :
    Prop :=
  (recibirPaquetes (vs.map Prod.snd ++ b :: bs) ((vs.flatMap fun v => v.1.trama) ++ t)).1 =
    (vs.map fun v => some (v.1.recibido v.2)) ++ List.replicate (bs.length + 1) none

/-- A stream ends inside a packet. The piece is not delivered exactly when it is shorter than an
operation code, and its bytes and those that were in the rest of `cod_op` are all 255. -/
theorem corte_iff (vs : List (Mensaje × Basura)) (m : Mensaje) (t : List Byte) (b : Basura)
    (bs : List Basura) (hpre : t <+: m.trama) (h0 : t ≠ []) :
    CorteBien vs t b bs ↔
      t.length < 4 ∧ (∀ x ∈ t, x = 255) ∧ ∀ x ∈ (bytesDe b.codOp).drop t.length, x = 255 := by
  rw [CorteBien, recibirPaquetes_append, List.append_cancel_left_eq, recibirPaquetes,
    List.replicate_succ]
  constructor
  · intro h
    have hnone : (recibirPaquete b t).1 = none := (List.cons.inj h).1
    have h4 : t.length < 4 := by
      by_contra h4
      refine recibirPaquete_ne_none h0 ?_ hnone
      rw [take_prefijo hpre (by omega), palabraSobre_bytesDe]
      exact m.codigo_ne
    refine ⟨h4, (palabraSobre_eq_fin h4).mp ?_⟩
    by_contra hne
    refine recibirPaquete_ne_none h0 ?_ hnone
    rwa [List.take_of_length_le (Nat.le_of_lt h4)]
  · rintro ⟨h4, hfin⟩
    rw [recibirPaquete_fin h0 h4 ((palabraSobre_eq_fin h4).mpr hfin)]
    exact congrArg (none :: ·) (recibirPaquetes_vacio bs)

/-- A packet whose operation code ends in 255, cut after that byte, where `cod_op` was `-1`. -/
theorem corte_fin : CorteBien [] [255] ⟨-1, 0, 0, fun _ => 0⟩ [] :=
  (corte_iff [] ⟨255, [], by decide, by decide⟩ [255] ⟨-1, 0, 0, fun _ => 0⟩ [] (by decide)
    (by decide)).mpr (by decide)

/-- The first byte of an operation code, where `cod_op` was 0, is delivered as a packet. -/
theorem corte_entregado : ¬ CorteBien [] [1] ⟨0, 0, 0, fun _ => 0⟩ [] := by
  intro h
  exact absurd (List.cons.inj h).1 (by decide)

end Corte

end LastOfC
