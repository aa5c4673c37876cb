import LastOfC.Lib.PosFile

/-!
# An append-only log on a file

Each entry of a log takes contiguous units of a file, after those of the entries before it. Nothing
here depends on what the entries and the cells are.

* `Log`: the entries with the unit where each one begins. They are apart, and inside the units in
  use.
* `Log.add`: one more entry, which takes `n` units.
* `Log.cell`: the cell of the file at a position, if an entry has it. `Log.Holds`: what the file
  holds. `Log.Holds.add`: to write the cells of a new entry after the units in use adds it.
-/

namespace Extents

variable {α β : Type*}

/-- A log in a file of `cap` units. The entry `a` needs `size a` of them. -/
structure Log (α : Type*) (size : α → Nat) (cap : Nat) where
  used : Nat
  entries : List (Nat × α)
  used_le : used ≤ cap
  inside : ∀ e ∈ entries, e.1 + size e.2 ≤ used
  apart : entries.Pairwise fun e e' => e.1 + size e.2 ≤ e'.1

namespace Log

variable {size : α → Nat} {cap n x : Nat} {l : Log α size cap} {a : α} {unit : Nat}
  {cells : α → List β} {zero : β} {f : List β}

def empty : Log α size cap where
  used := 0
  entries := []
  used_le := Nat.zero_le cap
  inside := by simp
  apart := .nil

/-- The entry `a` takes the next `n` units. -/
def add (l : Log α size cap) (a : α) (n : Nat) (hsize : size a ≤ n) (hcap : l.used + n ≤ cap) :
    Log α size cap where
  used := l.used + n
  entries := l.entries ++ [(l.used, a)]
  used_le := hcap
  inside e he := by
    rcases List.mem_append.mp he with he | he
    · exact Nat.le_add_right_of_le (l.inside e he)
    · rw [List.mem_singleton.mp he]
      exact Nat.add_le_add_left hsize _
  apart := List.pairwise_append.mpr ⟨l.apart, List.pairwise_singleton _ _, fun e he e' he' => by
    rw [List.mem_singleton.mp he']
    exact l.inside e he⟩

/-! ## The file -/

/-- The cell at `x` of an entry that begins at the unit `e.1`. -/
def cellOf (unit : Nat) (cells : α → List β) (x : Nat) (e : Nat × α) : Option β :=
  if e.1 * unit ≤ x then (cells e.2)[x - e.1 * unit]? else none

/-- The cell at `x`, if an entry has it. -/
def cell (l : Log α size cap) (unit : Nat) (cells : α → List β) (x : Nat) : Option β :=
  l.entries.findSome? (cellOf unit cells x)

/-- The file holds the cells of the entries, and `zero` elsewhere. -/
def Holds (l : Log α size cap) (unit : Nat) (cells : α → List β) (zero : β) (f : List β) : Prop :=
  ∀ x, f[x]?.getD zero = (l.cell unit cells x).getD zero

/-- No entry has a cell after the units in use. -/
theorem cell_of_used_le (hcells : ∀ a, (cells a).length ≤ size a * unit)
    (hx : l.used * unit ≤ x) : l.cell unit cells x = none := by
  refine List.findSome?_eq_none_iff.mpr fun e he => ?_
  have hfin : (e.1 + size e.2) * unit ≤ x :=
    Nat.le_trans (Nat.mul_le_mul_right unit (l.inside e he)) hx
  have hlen := hcells e.2
  rw [Nat.add_mul] at hfin
  rw [cellOf, if_pos (by omega)]
  exact List.getElem?_eq_none (by omega)

theorem cell_add {hsize : size a ≤ n} {hcap : l.used + n ≤ cap} :
    (l.add a n hsize hcap).cell unit cells x =
      (l.cell unit cells x).or (cellOf unit cells x (l.used, a)) := by
  show (l.entries ++ [(l.used, a)]).findSome? _ = _
  rw [List.findSome?_append]
  congr 1
  rw [List.findSome?_singleton]

/-- A file that holds `zero` everywhere holds no entries. -/
theorem holds_empty (hf : ∀ b ∈ f, b = zero) :
    (empty : Log α size cap).Holds unit cells zero f := by
  intro x
  cases hx : f[x]? with
  | none => rfl
  | some b =>
    rw [hf b (List.mem_of_getElem? hx)]
    rfl

/-- **The cells of a new entry are written after those in use.** -/
theorem Holds.add (h : l.Holds unit cells zero f) (hcells : ∀ a, (cells a).length ≤ size a * unit)
    (hsize : size a ≤ n) (hcap : l.used + n ≤ cap) :
    (l.add a n hsize hcap).Holds unit cells zero
      (PosFile.put zero f (l.used * unit) (cells a)) := by
  intro x
  have hx := h x
  rw [cell_add, cellOf]
  dsimp only
  by_cases hne : cells a = []
  · rw [hne, PosFile.put_nil, List.getElem?_nil, ite_self, Option.or_none]
    exact hx
  rw [PosFile.getElem?_put hne]
  rcases Nat.lt_or_ge x (l.used * unit) with hlt | hge
  · rw [if_pos hlt, if_neg (Nat.not_le.mpr hlt), Option.or_none, ← hx, Option.getD_some]
  · rw [if_neg (Nat.not_lt.mpr hge), if_pos hge, cell_of_used_le hcells hge, Option.none_or]
    split_ifs with hin
    · rfl
    · rw [hx, cell_of_used_le hcells hge, List.getElem?_eq_none (by omega)]

end Log

end Extents
