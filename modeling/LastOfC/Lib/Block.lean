import Mathlib.Data.List.Basic

/-!
# Blocks of memory

A block is the list of its cells. An access outside the block has no result. Nothing here depends
on what the cells hold.

* `read` and `write`: the cells from a position on.
* `grow`: a block made longer, as `realloc` does. What the new cells hold is a parameter.
* `writeAll`: writes one after the other through a pointer that moves forward. A write may be
  longer than the move after it, and then the next write covers the rest. `writeAll_eq`: if the
  moves fill the block, the result does not depend on what the block held.
-/

namespace Block

variable {α : Type*}

/-- The `n` cells from position `i` on. -/
def read (m : List α) (i n : Nat) : Option (List α) :=
  if i + n ≤ m.length then some ((m.drop i).take n) else none

/-- The cells from position `i` on become `xs`. -/
def write (m : List α) (i : Nat) (xs : List α) : Option (List α) :=
  if i + xs.length ≤ m.length then some (m.take i ++ xs ++ m.drop (i + xs.length)) else none

/-- A block of `n` cells that begins with those of `m`. -/
def grow (m : List α) (n : Nat) (fresh : Nat → α) : List α :=
  m.take n ++ (List.range' m.length (n - m.length)).map fresh

variable {m m' pre xs rest : List α} {i n : Nat} {fresh : Nat → α}

/-! ## Reads -/

/-- The middle of a block. -/
theorem read_append (pre xs rest : List α) :
    read (pre ++ (xs ++ rest)) pre.length xs.length = some xs := by
  unfold read
  rw [if_pos (by simp only [List.length_append]; omega), List.drop_left, List.take_left]

theorem read_eq_none (h : m.length < i + n) : read m i n = none :=
  if_neg (Nat.not_le.mpr h)

/-! ## Writes -/

/-- A write after the part `pre`. -/
theorem write_append (h : xs.length ≤ rest.length) :
    write (pre ++ rest) pre.length xs = some (pre ++ xs ++ rest.drop xs.length) := by
  unfold write
  rw [if_pos (by rw [List.length_append]; omega), List.take_left, List.drop_append]
  have hpre : pre.drop (pre.length + xs.length) = [] := List.drop_of_length_le (by omega)
  rw [hpre, List.nil_append, Nat.add_sub_cancel_left]

/-! ## Longer blocks -/

theorem grow_length : (grow m n fresh).length = n := by
  simp only [grow, List.length_append, List.length_take, List.length_map, List.length_range']
  omega

/-- The old cells stay, and the new ones are at the end. -/
theorem grow_eq (fresh : Nat → α) (h : m.length ≤ n) :
    ∃ new, new.length = n - m.length ∧ grow m n fresh = m ++ new := by
  refine ⟨(List.range' m.length (n - m.length)).map fresh, ?_, ?_⟩
  · rw [List.length_map, List.length_range']
  · rw [grow, List.take_of_length_le h]

/-- An append through `grow`: the new cells are all written, so what they held is lost. -/
theorem write_grow (h : n = m.length + xs.length) :
    write (grow m n fresh) m.length xs = some (m ++ xs) := by
  obtain ⟨new, hnew, hgrow⟩ := grow_eq (m := m) (n := n) fresh (by omega)
  rw [hgrow, write_append (by omega), List.drop_of_length_le (by omega), List.append_nil]

/-! ## Writes through a pointer -/

/-- For each `(xs, k)`: a write of `xs` at the pointer, and then the pointer moves by `k`. -/
def writeAll (m : List α) (i : Nat) : List (List α × Nat) → Option (List α)
  | [] => some m
  | (xs, k) :: ps =>
    match write m i xs with
    | some m' => writeAll m' (i + k) ps
    | none => none

/-- The writes stay within `n` cells and the moves fill them. No move is longer than its write. -/
def Fills : Nat → List (List α × Nat) → Prop
  | n, [] => n = 0
  | n, (xs, k) :: ps => k ≤ xs.length ∧ xs.length ≤ n ∧ Fills (n - k) ps

/-- What is left of each write. -/
def written (ps : List (List α × Nat)) : List α :=
  ps.flatMap fun p => p.1.take p.2

theorem written_length {ps : List (List α × Nat)} (h : Fills n ps) : (written ps).length = n := by
  induction ps generalizing n with
  | nil => exact h.symm
  | cons p ps ih =>
    obtain ⟨xs, k⟩ := p
    obtain ⟨hk, hxs, hps⟩ := h
    have hrest := ih hps
    rw [written] at hrest ⊢
    rw [List.flatMap_cons, List.length_append, hrest, List.length_take, Nat.min_eq_left hk]
    omega

/-- Writes that fill what comes after the part `pre`. -/
theorem writeAll_append {ps : List (List α × Nat)} (h : Fills rest.length ps) :
    writeAll (pre ++ rest) pre.length ps = some (pre ++ written ps) := by
  induction ps generalizing pre rest with
  | nil =>
    obtain rfl := List.eq_nil_of_length_eq_zero h
    rfl
  | cons p ps ih =>
    obtain ⟨xs, k⟩ := p
    obtain ⟨hk, hxs, hps⟩ := h
    -- The last `xs.length - k` cells of the write are for the next one.
    have hsplit : pre ++ xs ++ rest.drop xs.length =
        (pre ++ xs.take k) ++ (xs.drop k ++ rest.drop xs.length) := by
      rw [List.append_assoc pre (xs.take k), ← List.append_assoc (xs.take k), List.take_append_drop,
        List.append_assoc]
    have hlen : (pre ++ xs.take k).length = pre.length + k := by
      rw [List.length_append, List.length_take, Nat.min_eq_left hk]
    have hrest : (xs.drop k ++ rest.drop xs.length).length = rest.length - k := by
      rw [List.length_append, List.length_drop, List.length_drop]
      omega
    simp only [writeAll, write_append hxs]
    rw [hsplit, ← hlen, ih (hrest ▸ hps), List.append_assoc]
    rfl

/-- Writes that fill a block. -/
theorem writeAll_eq {ps : List (List α × Nat)} (h : Fills m.length ps) :
    writeAll m 0 ps = some (written ps) :=
  @writeAll_append _ [] _ _ h

end Block
