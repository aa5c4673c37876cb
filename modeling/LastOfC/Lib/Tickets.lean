import Mathlib.Data.List.Basic
import Mathlib.Data.List.InsertIdx
import Mathlib.Data.List.Range
import Mathlib.Data.List.Sort

/-!
# A line with numbered tickets

A list that grows at its end, and out of which elements are taken at any position. Each element
draws a ticket (0, 1, 2, …) when it comes, so that the same element can come more than once.
Nothing here depends on what the elements are, or on who is served next.

* `waiting`: the tickets that are drawn and not served, in the order in which they were drawn.
* `line`: the elements of these tickets. `draw` puts an element at its end (`line_draw`), and
  `serve` takes one out at its position (`line_serve`).
* `waiting_mono`: the positions in the line are in the order of the tickets.
* `waiting_zero_of_served`: if the tickets were served in order, the first that waits is next.
-/

structure Tickets (τ : Type*) where
  /-- What drew each ticket. -/
  drawn : List τ
  /-- The tickets that were served, in the order in which they were. -/
  served : List Nat
  nodup : served.Nodup
  bound : ∀ t ∈ served, t < drawn.length

namespace Tickets

variable {τ : Type*} {l : Tickets τ} {i j t u : Nat} {x : τ}

/-- The elements `xs` wait, and nobody was served. -/
def start (xs : List τ) : Tickets τ where
  drawn := xs
  served := []
  nodup := List.nodup_nil
  bound _ ht := absurd ht List.not_mem_nil

def waiting (l : Tickets τ) : List Nat := (List.range l.drawn.length).filter (· ∉ l.served)

/-- The elements that wait. -/
def line (l : Tickets τ) : List τ := l.waiting.filterMap (l.drawn[·]?)

theorem mem_waiting : t ∈ l.waiting ↔ t < l.drawn.length ∧ t ∉ l.served := by
  simp [waiting]

theorem waiting_sorted (l : Tickets τ) : l.waiting.Pairwise (· < ·) :=
  List.pairwise_lt_range.filter _

/-- The positions are in the order of the tickets. -/
theorem waiting_mono (hi : l.waiting[i]? = some t) (hj : l.waiting[j]? = some u) (hij : i ≤ j) :
    t ≤ u := by
  obtain ⟨hi', rfl⟩ := List.getElem?_eq_some_iff.mp hi
  obtain ⟨hj', rfl⟩ := List.getElem?_eq_some_iff.mp hj
  rcases Nat.eq_or_lt_of_le hij with rfl | hlt
  · exact Nat.le_refl _
  · exact Nat.le_of_lt (List.pairwise_iff_getElem.mp l.waiting_sorted i j hi' hj' hlt)

/-! ## The line -/

/-- Each ticket that waits has its element. -/
theorem line_map_some (l : Tickets τ) : l.line.map some = l.waiting.map (l.drawn[·]?) := by
  have hall : ∀ ts : List Nat, (∀ t ∈ ts, t < l.drawn.length) →
      (ts.filterMap (l.drawn[·]?)).map some = ts.map (l.drawn[·]?) := by
    intro ts hts
    induction ts with
    | nil => rfl
    | cons t ts ih =>
      have ht : l.drawn[t]? = some (l.drawn.get ⟨t, hts t List.mem_cons_self⟩) :=
        List.getElem?_eq_getElem _
      rw [List.filterMap_cons_some ht, List.map_cons, List.map_cons, ht,
        ih fun u hu => hts u (List.mem_cons_of_mem _ hu)]
  exact hall l.waiting fun t ht => (mem_waiting.mp ht).1

/-- The element at a position of the line has the ticket at that position. -/
theorem line_getElem? :
    l.line[i]? = some x ↔ ∃ t, l.waiting[i]? = some t ∧ l.drawn[t]? = some x := by
  have hmap := congrArg (fun ys => ys[i]?) l.line_map_some
  simp only [List.getElem?_map] at hmap
  constructor
  · intro hx
    rw [hx, Option.map_some] at hmap
    obtain ⟨t, ht, hd⟩ := Option.map_eq_some_iff.mp hmap.symm
    exact ⟨t, ht, hd⟩
  · rintro ⟨t, ht, hd⟩
    rw [ht, Option.map_some, hd] at hmap
    obtain ⟨y, hy, hxy⟩ := Option.map_eq_some_iff.mp hmap
    rw [hy, Option.some.inj hxy]

@[simp] theorem line_start (xs : List τ) : (start xs).line = xs := by
  apply List.map_injective_iff.mpr (Option.some_injective τ)
  rw [line_map_some]
  apply List.ext_getElem?
  intro i
  simp only [waiting, start, List.not_mem_nil, not_false_eq_true, decide_true, List.filter_true,
    List.getElem?_map]
  by_cases hi : i < xs.length
  · simp [hi]
  · simp [Nat.not_lt.mp hi]

/-! ## Draw -/

/-- The element `x` comes. -/
def draw (l : Tickets τ) (x : τ) : Tickets τ where
  drawn := l.drawn ++ [x]
  served := l.served
  nodup := l.nodup
  bound t ht := by
    rw [List.length_append]
    exact Nat.lt_add_right 1 (l.bound t ht)

theorem waiting_draw (x : τ) : (l.draw x).waiting = l.waiting ++ [l.drawn.length] := by
  have hnew : l.drawn.length ∉ l.served := fun h => Nat.lt_irrefl _ (l.bound _ h)
  show (List.range (l.drawn ++ [x]).length).filter (· ∉ l.served) = _
  rw [List.length_append, List.length_singleton, List.range_succ, List.filter_append,
    List.filter_singleton, decide_eq_true hnew]
  rfl

@[simp] theorem line_draw (x : τ) : (l.draw x).line = l.line ++ [x] := by
  have hold : l.waiting.filterMap ((l.drawn ++ [x])[·]?) = l.line := by
    apply List.filterMap_congr
    intro t ht
    exact List.getElem?_append_left (mem_waiting.mp ht).1
  show (l.draw x).waiting.filterMap ((l.drawn ++ [x])[·]?) = _
  rw [waiting_draw, List.filterMap_append, hold]
  simp

/-! ## Serve -/

/-- The ticket `t` is served. -/
def serve (l : Tickets τ) (t : Nat) (h : t ∈ l.waiting) : Tickets τ where
  drawn := l.drawn
  served := l.served ++ [t]
  nodup := l.nodup.append (List.nodup_singleton t) (by
    simpa using (mem_waiting.mp h).2)
  bound u hu := by
    rcases List.mem_append.mp hu with hu | hu
    · exact l.bound u hu
    · rw [List.mem_singleton.mp hu]
      exact (mem_waiting.mp h).1

theorem waiting_serve (h : t ∈ l.waiting) (hi : l.waiting[i]? = some t) :
    (l.serve t h).waiting = l.waiting.eraseIdx i := by
  obtain ⟨hlt, rfl⟩ := List.getElem?_eq_some_iff.mp hi
  have hnodup : l.waiting.Nodup := l.waiting_sorted.imp fun hab => Nat.ne_of_lt hab
  have hfilter : (l.serve l.waiting[i] h).waiting = l.waiting.filter (· != l.waiting[i]) := by
    generalize l.waiting[i] = t at *
    simp only [waiting, serve, List.filter_filter]
    apply List.filter_congr
    intro u _
    rw [Bool.eq_iff_iff]
    simp [and_comm]
  rw [hfilter, ← hnodup.erase_eq_filter, ← List.eraseIdx_idxOf_eq_erase,
    hnodup.idxOf_getElem i hlt]

@[simp] theorem line_serve (h : t ∈ l.waiting) (hi : l.waiting[i]? = some t) :
    (l.serve t h).line = l.line.eraseIdx i := by
  apply List.map_injective_iff.mpr (Option.some_injective τ)
  rw [line_map_some, waiting_serve h hi, ← List.eraseIdx_map, ← List.eraseIdx_map, line_map_some]
  rfl

/-- If the tickets were served in order, the first that waits is the next one. -/
theorem waiting_zero_of_served {n : Nat} (h : l.served = List.range n)
    (h₀ : l.waiting[0]? = some t) : t = n := by
  have ht : t ∈ l.waiting := List.mem_of_getElem? h₀
  obtain ⟨htd, hts⟩ := mem_waiting.mp ht
  have hnt : n ≤ t := by simpa [h] using hts
  have hn : n ∈ l.waiting := mem_waiting.mpr ⟨Nat.lt_of_le_of_lt hnt htd, by simp [h]⟩
  obtain ⟨j, hj⟩ := List.getElem?_of_mem hn
  exact Nat.le_antisymm (waiting_mono h₀ hj (Nat.zero_le j)) hnt

end Tickets
