import LastOfC.Lib.Block

/-!
# Files with positional writes

A file is the list of its cells. A write past its end makes it longer, and the gap is `zero`.
Nothing here depends on what the cells hold.

* `put`: the cells from a position on become `xs`. `getElem?_put` says what each cell holds.
* `read_put`, `read_put_of_apart`: what `Block.read` finds where the write was, and elsewhere.
* `putAll`: several writes. `put_append`: contiguous writes are one write.
-/

namespace PosFile

open Block

variable {α : Type*} {zero : α} {f xs ys : List α} {i j n : Nat}

/-- The cells from position `i` on become `xs`. To write nothing does not make the file longer. -/
def put (zero : α) (f : List α) (i : Nat) (xs : List α) : List α :=
  if xs = [] then f
  else f.take i ++ List.replicate (i - f.length) zero ++ xs ++ f.drop (i + xs.length)

@[simp] theorem put_nil : put zero f i [] = f := if_pos rfl

theorem put_of_ne (h : xs ≠ []) : put zero f i xs =
    f.take i ++ List.replicate (i - f.length) zero ++ xs ++ f.drop (i + xs.length) := if_neg h

theorem length_before : (f.take i ++ List.replicate (i - f.length) zero).length = i := by
  rw [List.length_append, List.length_take, List.length_replicate]
  omega

theorem length_put (h : xs ≠ []) : (put zero f i xs).length = max f.length (i + xs.length) := by
  rw [put_of_ne h, List.length_append, List.length_append, length_before, List.length_drop]
  omega

/-- Each cell after a write. -/
theorem getElem?_put (h : xs ≠ []) (x : Nat) : (put zero f i xs)[x]? =
    if x < i then some (f[x]?.getD zero)
    else if x < i + xs.length then xs[x - i]? else f[x]? := by
  rw [put_of_ne h, List.append_assoc]
  have hlen : (f.take i ++ List.replicate (i - f.length) zero).length = i := length_before
  split_ifs with hi hx
  · rw [List.getElem?_append_left (by omega)]
    by_cases hf : x < f.length
    · rw [List.getElem?_append_left (by rw [List.length_take]; omega), List.getElem?_take_of_lt hi,
        List.getElem?_eq_getElem hf]
      rfl
    · have htake : f.take i = f := List.take_of_length_le (by omega)
      rw [htake, List.getElem?_append_right (by omega), List.getElem?_replicate,
        if_pos (by omega), List.getElem?_eq_none (by omega)]
      rfl
  · rw [List.getElem?_append_right (by omega), hlen, List.getElem?_append_left (by omega)]
  · rw [List.getElem?_append_right (by omega), hlen, List.getElem?_append_right (by omega),
      List.getElem?_drop]
    congr 1
    omega

/-! ## Reads -/

/-- A read, cell by cell. -/
theorem read_eq_some_iff : read f i n = some ys ↔
    ys.length = n ∧ i + n ≤ f.length ∧ ∀ k < n, f[i + k]? = ys[k]? := by
  unfold Block.read
  constructor
  · intro h
    obtain ⟨hle, rfl⟩ : i + n ≤ f.length ∧ (f.drop i).take n = ys := by
      simpa [Option.ite_none_right_eq_some] using h
    refine ⟨by rw [List.length_take, List.length_drop]; omega, hle, fun k hk => ?_⟩
    rw [List.getElem?_take_of_lt hk, List.getElem?_drop]
  · rintro ⟨hlen, hle, hcells⟩
    rw [if_pos hle, Option.some.injEq]
    apply List.ext_getElem?
    intro k
    by_cases hk : k < n
    · rw [List.getElem?_take_of_lt hk, List.getElem?_drop, hcells k hk]
    · rw [List.getElem?_eq_none (by rw [List.length_take]; omega), List.getElem?_eq_none (by omega)]

/-- What was written is read back. -/
theorem read_put (h : xs ≠ []) : read (put zero f i xs) i xs.length = some xs := by
  refine read_eq_some_iff.mpr ⟨rfl, by rw [length_put h]; omega, fun k hk => ?_⟩
  rw [getElem?_put h, if_neg (by omega), if_pos (by omega), Nat.add_sub_cancel_left]

/-- A write elsewhere. -/
theorem read_put_of_apart (hr : read f j n = some ys) (h : j + n ≤ i ∨ i + xs.length ≤ j) :
    read (put zero f i xs) j n = some ys := by
  by_cases hxs : xs = []
  · rwa [hxs, put_nil]
  obtain ⟨hlen, hle, hcells⟩ := read_eq_some_iff.mp hr
  refine read_eq_some_iff.mpr ⟨hlen, by rw [length_put hxs]; omega, fun k hk => ?_⟩
  rw [← hcells k hk, getElem?_put hxs]
  split_ifs with hi hx
  · rw [List.getElem?_eq_getElem (by omega)]
    rfl
  · omega
  · rfl

/-! ## Several writes -/

/-- For each `(i, xs)`: a write of `xs` at position `i`. -/
def putAll (zero : α) (f : List α) : List (Nat × List α) → List α
  | [] => f
  | w :: ws => putAll zero (put zero f w.1 w.2) ws

/-- A write that begins where the last one stopped. -/
theorem put_append : put zero (put zero f i xs) (i + xs.length) ys = put zero f i (xs ++ ys) := by
  by_cases hxs : xs = []
  · rw [hxs, put_nil, List.nil_append, List.length_nil, Nat.add_zero]
  by_cases hys : ys = []
  · rw [hys, put_nil, List.append_nil]
  have hne : xs ++ ys ≠ [] := by simp [hxs]
  apply List.ext_getElem?
  intro x
  rw [getElem?_put hys, getElem?_put hxs, getElem?_put hne, List.length_append]
  rcases Nat.lt_or_ge x i with hi | hi
  · rw [if_pos (by omega), if_pos hi, if_pos hi]
    rfl
  rw [if_neg (Nat.not_lt.mpr hi), if_neg (Nat.not_lt.mpr hi)]
  rcases Nat.lt_or_ge x (i + xs.length) with hx | hx
  · rw [if_pos hx, if_pos hx, if_pos (by omega), List.getElem?_append_left (by omega),
      List.getElem?_eq_getElem (by omega)]
    rfl
  · rw [if_neg (Nat.not_lt.mpr hx), if_neg (Nat.not_lt.mpr hx),
      List.getElem?_append_right (by omega), Nat.add_assoc, Nat.sub_sub]

end PosFile
