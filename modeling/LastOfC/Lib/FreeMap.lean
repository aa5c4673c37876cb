import Mathlib.Data.List.Basic
import Mathlib.Data.List.Count

/-!
# Maps of free cells

A map has one `Bool` for each cell, `true` for a cell in use. `free` counts the others. Nothing
here depends on what the cells are.

* `Takes n l l'`: `l'` is `l` after its `n` lowest free cells were taken, and no other cell changed.
  `takes_split` builds it from the map that a scan from the front leaves.
* `filled u v`: a map whose cells in use come first. `filled_split`: the scan of such a map.
-/

namespace FreeMap

variable {l l' pre post : List Bool} {n m u v : Nat}

/-- How many cells are free. -/
def free (l : List Bool) : Nat := l.count false

@[simp] theorem free_nil : free [] = 0 := rfl

@[simp] theorem free_append (l l' : List Bool) : free (l ++ l') = free l + free l' :=
  List.count_append

@[simp] theorem free_cons_false (l : List Bool) : free (false :: l) = free l + 1 :=
  List.count_cons_self

@[simp] theorem free_cons_true (l : List Bool) : free (true :: l) = free l :=
  List.count_cons_of_ne (by decide)

@[simp] theorem free_replicate_true (n : Nat) : free (List.replicate n true) = 0 := by
  rw [free, List.count_replicate]
  rfl

@[simp] theorem free_replicate_false (n : Nat) : free (List.replicate n false) = n :=
  List.count_replicate_self

/-- A map with no free cell. -/
theorem eq_replicate_of_free (h : free l = 0) : l = List.replicate l.length true := by
  refine List.eq_replicate_iff.mpr ⟨rfl, fun b hb => ?_⟩
  cases b with
  | true => rfl
  | false => exact absurd hb (List.count_eq_zero.mp h)

/-- `l'` is `l` after its `n` lowest free cells were taken. -/
structure Takes (n : Nat) (l l' : List Bool) : Prop where
  length : l'.length = l.length
  count : free l' + n = free l
  /-- A cell in use stays in use. -/
  keeps : ∀ i : Nat, l[i]? = some true → l'[i]? = some true
  /-- No free cell is left below a cell that was taken. -/
  lowest : ∀ i j : Nat, l[i]? = some false → l'[i]? = some true → j < i → l'[j]? = some true

theorem Takes.refl (l : List Bool) : Takes 0 l l :=
  ⟨rfl, rfl, fun _ h => h, fun i j hi hi' => by rw [hi] at hi'; cases hi'⟩

/-- Nothing was taken from a map that did not change. -/
theorem Takes.eq_zero (h : Takes n l l) : n = 0 := by
  have hcount := h.count
  omega

/-- A scan from the front that stopped at the cell after `pre`, and took it. -/
theorem takes_split (pre post : List Bool) :
    Takes (free pre + 1) (pre ++ false :: post)
      (List.replicate (pre.length + 1) true ++ post) where
  length := by simp only [List.length_append, List.length_replicate, List.length_cons]; omega
  count := by simp only [free_append, free_replicate_true, free_cons_false]; omega
  keeps i hi := by
    rw [List.getElem?_append, List.length_replicate]
    split_ifs with hlt
    · exact List.getElem?_replicate_of_lt hlt
    · rw [List.getElem?_append_right (by omega), List.getElem?_cons,
        if_neg (by omega)] at hi
      rwa [Nat.sub_add_eq]
  lowest i j hi hi' hj := by
    have hlt : i < pre.length + 1 := by
      by_contra hge
      rw [List.getElem?_append_right (by omega), List.getElem?_cons, if_neg (by omega)] at hi
      rw [List.getElem?_append_right (by rw [List.length_replicate]; omega),
        List.length_replicate, Nat.sub_add_eq, hi] at hi'
      cases hi'
    rw [List.getElem?_append_left (by rw [List.length_replicate]; omega)]
    exact List.getElem?_replicate_of_lt (by omega)

/-- The cells in use come first. -/
def filled (u v : Nat) : List Bool := List.replicate u true ++ List.replicate v false

@[simp] theorem length_filled : (filled u v).length = u + v := by
  rw [filled, List.length_append, List.length_replicate, List.length_replicate]

@[simp] theorem free_filled : free (filled u v) = v := by
  rw [filled, free_append, free_replicate_true, free_replicate_false, Nat.zero_add]

theorem getElem?_filled (i : Nat) : (filled u v)[i]? =
    if i < u then some true else if i < u + v then some false else none := by
  rw [filled, List.getElem?_append, List.length_replicate, List.getElem?_replicate,
    List.getElem?_replicate]
  split_ifs <;> first | rfl | omega

theorem idxOf_filled (h : 0 < v) : (filled u v).idxOf false = u := by
  obtain ⟨v, rfl⟩ : ∃ w, v = w + 1 := ⟨v - 1, by omega⟩
  rw [filled, List.idxOf_append_of_notMem (by simp), List.replicate_succ, List.idxOf_cons_self,
    List.length_replicate]
  rfl

/-- The free cells of a part. -/
theorem free_take_filled (h : m ≤ u + v) : free ((filled u v).take m) = m - u := by
  have htake : (filled u v).take m = filled (min m u) (m - u) := by
    rw [filled, List.take_append, List.take_replicate, List.take_replicate, List.length_replicate,
      filled, Nat.min_eq_left (show m - u ≤ v by omega)]
  rw [htake, free_filled]

/-- A free cell of a filled map, with the free cells before it. The cells up to it are in use after
a scan that takes it. -/
theorem filled_split (h : filled u v = pre ++ false :: post) (hn : free pre + 1 = n) :
    pre.length + 1 = u + n ∧ n ≤ v ∧
      List.replicate (pre.length + 1) true ++ post = filled (u + n) (v - n) := by
  have hlen : u + v = pre.length + (post.length + 1) := by
    have hlen := congrArg List.length h
    simpa using hlen
  have hcell : (filled u v)[pre.length]? = some false := by
    rw [h, List.getElem?_append_right (Nat.le_refl _), Nat.sub_self]
    rfl
  have hu : u ≤ pre.length := by
    by_contra hlt
    rw [getElem?_filled, if_pos (by omega)] at hcell
    cases hcell
  have hpre : free pre = pre.length - u := by
    have htake : (filled u v).take pre.length = pre := by rw [h, List.take_left]
    rw [← htake, free_take_filled (by omega), htake]
  have hpost : post = List.replicate (v - n) false := by
    have hdrop : (filled u v).drop (pre.length + 1) = post := by
      rw [h, ← List.drop_drop, List.drop_left]
      rfl
    rw [← hdrop, filled, List.drop_append, List.drop_replicate, List.drop_replicate,
      List.length_replicate, Nat.sub_eq_zero_of_le (show u ≤ pre.length + 1 by omega),
      List.replicate_zero, List.nil_append]
    congr 1
    omega
  have hsum : pre.length + 1 = u + n := by omega
  refine ⟨hsum, by omega, ?_⟩
  rw [hsum, hpost, filled]

end FreeMap
