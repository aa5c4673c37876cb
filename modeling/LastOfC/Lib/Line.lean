import Mathlib.Data.List.Count
import LastOfC.Lib.KeyedList

/-!
# A line that is served by the least key

New elements go to the end of a list, and each service takes out the first of those with the least
key. A constant key makes it a queue.

* `ahead`: how many are served before an element if nobody comes.
* `ahead_append`: one who comes is served before it exactly if its key is smaller.
* `serve`: a service takes one of those ahead, or the element if nobody is ahead.
* `Waits`: an element of the line, while the line is served and grows. `Waits.arrive` and
  `Waits.serve`: the services so far and those ahead are those ahead at the start and the smaller
  keys that came.
-/

namespace Line

open KeyedList

variable {α β : Type*} [LinearOrder β] {key : α → β} {pre post line ys : List α} {x y : α}
  {i n : Nat}

/-- Those between the start of the line and the end of it that are served before `x`, which stands
between `pre` and `post`. -/
def ahead (key : α → β) (pre : List α) (x : α) (post : List α) : Nat :=
  pre.countP (fun y => key y ≤ key x) + post.countP (fun y => key y < key x)

theorem ahead_append (key : α → β) (pre post ys : List α) (x : α) :
    ahead key pre x (post ++ ys) =
      ahead key pre x post + ys.countP (fun y => key y < key x) := by
  unfold ahead
  rw [List.countP_append, Nat.add_assoc]

/-- In a queue, those before it. -/
theorem ahead_const (c : β) (pre post : List α) (x : α) :
    ahead (fun _ => c) pre x post = pre.length := by
  simp [ahead]

/-- The keys that count are those of the line. -/
theorem ahead_congr {key' : α → β} (h : ∀ y ∈ pre ++ x :: post, key' y = key y) :
    ahead key' pre x post = ahead key pre x post := by
  have hx : key' x = key x := h x (by simp)
  unfold ahead
  rw [hx]
  refine congrArg₂ (· + ·) (List.countP_congr fun y hy => ?_) (List.countP_congr fun y hy => ?_)
  · rw [h y (List.mem_append_left _ hy)]
  · rw [h y (by simp [hy])]

/-- **One service.** It takes the element if nobody is ahead of it, and else one of those ahead. -/
theorem serve (h : Least key (pre ++ x :: post) y i (pre ++ x :: post).length) :
    (i = pre.length ∧ y = x ∧ ahead key pre x post = 0) ∨
      ∃ pre' post', (pre ++ x :: post).eraseIdx i = pre' ++ x :: post' ∧
        ahead key pre' x post' + 1 = ahead key pre x post := by
  have hx : (pre ++ x :: post)[pre.length]? = some x := by simp
  have hxl : pre.length < (pre ++ x :: post).length := by simp
  rcases Nat.lt_trichotomy i pre.length with hi | rfl | hi
  · -- One before it, with no larger key.
    have hy : pre[i]? = some y := by rw [← h.get, List.getElem?_append_left hi]
    obtain ⟨p₁, p₂, rfl, rfl⟩ := exists_split hy
    have hle : key y ≤ key x := h.least _ hxl x hx
    refine .inr ⟨p₁ ++ p₂, post, ?_, ?_⟩
    · rw [List.append_assoc, List.cons_append, eraseIdx_split, List.append_assoc]
    · simp only [ahead, List.countP_append, List.countP_cons, decide_eq_true hle, if_true]
      omega
  · obtain rfl : y = x := Option.some.inj (h.get.symm.trans hx)
    refine .inl ⟨rfl, rfl, Nat.add_eq_zero_iff.mpr ⟨?_, ?_⟩⟩
    · refine List.countP_eq_zero.mpr fun z hz => ?_
      obtain ⟨j, hj, rfl⟩ := List.mem_iff_getElem.mp hz
      have hget : (pre ++ y :: post)[j]? = some pre[j] := by
        rw [List.getElem?_append_left hj, List.getElem?_eq_getElem hj]
      simpa using h.first j hj _ hget
    · refine List.countP_eq_zero.mpr fun z hz => ?_
      obtain ⟨j, hj, hget⟩ := List.mem_iff_getElem.mp (List.mem_append_right pre
        (List.mem_cons_of_mem y hz))
      have hle := h.least j hj z (List.getElem?_eq_some_iff.mpr ⟨hj, hget⟩)
      simpa using hle
  · -- One after it, with a smaller key.
    obtain ⟨k, rfl⟩ : ∃ k, i = pre.length + 1 + k := ⟨i - (pre.length + 1), by omega⟩
    have hsplit : pre ++ x :: post = (pre ++ [x]) ++ post := by simp
    have hlen : (pre ++ [x]).length = pre.length + 1 := by simp
    have hy : post[k]? = some y := by
      rw [← h.get, hsplit, ← hlen, List.getElem?_append_right (Nat.le_add_right _ _),
        Nat.add_sub_cancel_left]
    obtain ⟨q₁, q₂, rfl, rfl⟩ := exists_split hy
    have hlt : key y < key x :=
      lt_of_not_ge fun hge => absurd (h.first _ hi x hx) (not_lt.mpr hge)
    refine .inr ⟨pre, q₁ ++ q₂, ?_, ?_⟩
    · rw [hsplit, ← hlen, List.eraseIdx_append_of_length_le (Nat.le_add_right _ _),
        Nat.add_sub_cancel_left, eraseIdx_split]
      simp
    · simp only [ahead, List.countP_append, List.countP_cons, decide_eq_true hlt, if_true]
      omega

/-- The element `x` of the line after `n` services, if `m` were ahead of it at the start. -/
def Waits (key : α → β) (x : α) (m n : Nat) (line : List α) : Prop :=
  ∃ pre post, line = pre ++ x :: post ∧ n + ahead key pre x post = m

theorem Waits.congr {key' : α → β} {m : Nat} (h : Waits key x m n line)
    (hkey : ∀ y ∈ line, key' y = key y) : Waits key' x m n line := by
  obtain ⟨pre, post, rfl, rfl⟩ := h
  exact ⟨pre, post, rfl, congrArg (n + ·) (ahead_congr hkey)⟩

/-- Elements come. -/
theorem Waits.arrive {m : Nat} (h : Waits key x m n line) (ys : List α) :
    Waits key x (m + ys.countP (fun y => key y < key x)) n (line ++ ys) := by
  obtain ⟨pre, post, rfl, rfl⟩ := h
  refine ⟨pre, post ++ ys, by simp, ?_⟩
  rw [ahead_append, Nat.add_assoc]

/-- Another element is served, or this one, after as many services as were ahead of it. -/
theorem Waits.serve {m : Nat} (h : Waits key x m n line) (hy : Least key line y i line.length) :
    Waits key x m (n + 1) (line.eraseIdx i) ∨ y = x ∧ n = m := by
  obtain ⟨pre, post, rfl, rfl⟩ := h
  rcases Line.serve hy with ⟨-, hyx, hcero⟩ | ⟨pre', post', hline, hcuenta⟩
  · exact .inr ⟨hyx, by rw [hcero, Nat.add_zero]⟩
  · refine .inl ⟨pre', post', hline, ?_⟩
    omega

end Line
