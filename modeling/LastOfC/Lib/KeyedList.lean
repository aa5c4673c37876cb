import Mathlib.Data.List.MinMax
import Mathlib.Data.List.Nodup
import Mathlib.Logic.Function.Iterate

/-!
# Lists searched from the front, as maps

Linear lists with first-match lookup, in-place update and removal, as C code keeps them.

* `search p l`: the loop that stops at the first element with `p`. It returns the element with its
  index, which is what a pointer into the list is here.
* `List.argmin` and `List.argmax` are the loops that keep the best element seen.
  `argmin_eq_some_iff_pos`: it is the first of the best.
* `Least`: what such a loop has after `n` positions, when it indexes a list that others append to.
* `List.eraseP` is the loop that removes the first match. `iterate_eraseP_none_iff` is what several
  of these removals leave.
* `List.replaceF` is the update of the first match. With a removal or an append of other elements
  it can be done in either order (`replaceF_eraseP`, `replaceF_append_of_none`).
* `toMap key l`: the map that first-match lookup by `key` computes. When no key repeats, an update
  of the element found, its removal and an append at the end are `Function.update`s of this map
  (`toMap_set`, `toMap_eraseIdx`, `toMap_append`), and all three keep the keys distinct.
-/

namespace KeyedList

variable {α κ : Type*}

/-- An element of a list splits it. -/
theorem exists_split {l : List α} {i : Nat} {a : α} (h : l[i]? = some a) :
    ∃ pre post, l = pre ++ a :: post ∧ pre.length = i := by
  obtain ⟨hi, rfl⟩ := List.getElem?_eq_some_iff.mp h
  refine ⟨l.take i, l.drop (i + 1), ?_, by simp; omega⟩
  rw [← List.drop_eq_getElem_cons hi, List.take_append_drop]

@[simp] theorem set_split (pre post : List α) (a b : α) :
    (pre ++ a :: post).set pre.length b = pre ++ b :: post := by
  rw [List.set_append_right _ _ (Nat.le_refl _), Nat.sub_self, List.set_cons_zero]

@[simp] theorem eraseIdx_split (pre post : List α) (a : α) :
    (pre ++ a :: post).eraseIdx pre.length = pre ++ post := by
  rw [List.eraseIdx_append_of_length_le (Nat.le_refl _), Nat.sub_self, List.eraseIdx_cons_zero]

theorem getElem?_split_ne {pre post : List α} {a b : α} {j : Nat} (h : j ≠ pre.length) :
    (pre ++ a :: post)[j]? = (pre ++ b :: post)[j]? := by
  rw [← set_split pre post b a, List.getElem?_set_ne (Ne.symm h)]

/-- The other elements of a split list. -/
theorem mem_others {pre post : List α} {a x : α} :
    x ∈ pre ++ post ↔ ∃ j, j ≠ pre.length ∧ (pre ++ a :: post)[j]? = some x := by
  rw [← eraseIdx_split pre post a]
  exact List.mem_eraseIdx_iff_getElem?

/-- The first element with `p`, and its index. -/
def search (p : α → Bool) : List α → Option (Nat × α)
  | [] => none
  | a :: l => if p a then some (0, a) else (search p l).map fun r => (r.1 + 1, r.2)

theorem search_eq_some {p : α → Bool} {l : List α} {i : Nat} {a : α} :
    search p l = some (i, a) ↔
      ∃ pre post, l = pre ++ a :: post ∧ pre.length = i ∧ p a = true ∧ ∀ x ∈ pre, p x = false := by
  induction l generalizing i with
  | nil => simp [search]
  | cons b l ih =>
    rw [search]
    split
    · rename_i hb
      constructor
      · intro h
        cases h
        exact ⟨[], l, rfl, rfl, hb, by simp⟩
      · rintro ⟨pre, post, hl, rfl, ha, hpre⟩
        cases pre with
        | nil =>
          cases hl
          rfl
        | cons c pre =>
          cases hl
          exact absurd hb (by simp [hpre b])
    · rename_i hb
      constructor
      · intro h
        obtain ⟨⟨j, a'⟩, hj, he⟩ := Option.map_eq_some_iff.mp h
        cases he
        obtain ⟨pre, post, rfl, rfl, ha, hpre⟩ := ih.mp hj
        refine ⟨b :: pre, post, rfl, rfl, ha, ?_⟩
        simpa [hb] using hpre
      · rintro ⟨pre, post, hl, rfl, ha, hpre⟩
        cases pre with
        | nil =>
          cases hl
          exact absurd ha hb
        | cons c pre =>
          cases hl
          have hs : search p (pre ++ a :: post) = some (pre.length, a) :=
            ih.mpr ⟨pre, post, rfl, rfl, ha, fun x hx => hpre x (by simp [hx])⟩
          exact Option.map_eq_some_iff.mpr ⟨_, hs, rfl⟩

theorem search_eq_none {p : α → Bool} {l : List α} :
    search p l = none ↔ ∀ x ∈ l, p x = false := by
  induction l with
  | nil => simp [search]
  | cons b l ih =>
    rw [search]
    split <;> simp_all

/-- What `search` finds is what `List.find?` finds. -/
theorem map_snd_search (p : α → Bool) (l : List α) : (search p l).map Prod.snd = l.find? p := by
  induction l with
  | nil => rfl
  | cons b l ih =>
    rw [search, List.find?_cons]
    cases hb : p b with
    | true => rfl
    | false => simp [← ih, Function.comp_def]

theorem search_getElem? {p : α → Bool} {l : List α} {i : Nat} {a : α}
    (h : search p l = some (i, a)) : l[i]? = some a := by
  obtain ⟨pre, post, rfl, rfl, -, -⟩ := search_eq_some.mp h
  simp

theorem search_mem {p : α → Bool} {l : List α} {i : Nat} {a : α} (h : search p l = some (i, a)) :
    a ∈ l := List.mem_of_getElem? (search_getElem? h)

theorem search_pos {p : α → Bool} {l : List α} {i : Nat} {a : α} (h : search p l = some (i, a)) :
    p a = true := by
  obtain ⟨pre, post, -, -, ha, -⟩ := search_eq_some.mp h
  exact ha

/-- The first match does not depend on elements that `p` and the filter `q` agree to leave out. -/
theorem find?_filter {p q : α → Bool} {l : List α} (h : ∀ x ∈ l, p x = true → q x = true) :
    (l.filter q).find? p = l.find? p := by
  induction l with
  | nil => rfl
  | cons b l ih =>
    have ih := ih fun x hx => h x (List.mem_cons_of_mem _ hx)
    cases hp : p b with
    | true => simp [h b (by simp) hp, hp]
    | false =>
      rw [List.find?_cons, hp, ← ih, List.filter_cons]
      split
      · rw [List.find?_cons, hp]
      · rfl

/-! ## The first of the best elements -/

section Best

variable {β : Type*} [LinearOrder κ] [LinearOrder β] {pos : α → κ} {f : α → β} {l : List α}
  {a b m : α}

/-- Where the keys grow, the positions grow with them. -/
theorem idxOf_le_iff [DecidableEq α] (h : l.Pairwise fun x y => pos x < pos y) (ha : a ∈ l)
    (hb : b ∈ l) : l.idxOf a ≤ l.idxOf b ↔ pos a ≤ pos b := by
  induction l with
  | nil => cases ha
  | cons c l ih =>
    obtain ⟨hc, hl⟩ := List.pairwise_cons.mp h
    rw [List.idxOf_cons, List.idxOf_cons]
    rcases List.mem_cons.mp ha with rfl | ha'
    · rw [beq_self_eq_true]
      refine iff_of_true (Nat.zero_le _) ?_
      rcases List.mem_cons.mp hb with rfl | hb'
      · exact le_refl _
      · exact le_of_lt (hc b hb')
    · have hca : c ≠ a := fun he => lt_irrefl (pos a) (he ▸ hc a ha')
      rw [beq_false_of_ne hca]
      rcases List.mem_cons.mp hb with rfl | hb'
      · rw [beq_self_eq_true]
        exact iff_of_false (Nat.not_succ_le_zero _) (not_le_of_gt (hc a ha'))
      · have hcb : c ≠ b := fun he => lt_irrefl (pos b) (he ▸ hc b hb')
        rw [beq_false_of_ne hcb]
        exact Nat.succ_le_succ_iff.trans (ih hl ha' hb')

/-- The loop that keeps the least element seen, in a list in the order of `pos`. -/
theorem argmin_eq_some_iff_pos (h : l.Pairwise fun x y => pos x < pos y) :
    l.argmin f = some m ↔ m ∈ l ∧ ∀ a ∈ l, f m < f a ∨ f m = f a ∧ pos m ≤ pos a := by
  classical
  rw [List.argmin_eq_some_iff]
  refine and_congr_right fun hm => ⟨fun ⟨hmin, hidx⟩ a ha => ?_, fun hbest => ⟨?_, ?_⟩⟩
  · rcases lt_or_eq_of_le (hmin a ha) with hlt | heq
    · exact .inl hlt
    · exact .inr ⟨heq, (idxOf_le_iff h hm ha).mp (hidx a ha heq.ge)⟩
  · intro a ha
    rcases hbest a ha with hlt | ⟨heq, -⟩
    · exact hlt.le
    · exact heq.le
  · intro a ha hle
    rcases hbest a ha with hlt | ⟨-, hpos⟩
    · exact absurd hlt (not_lt_of_ge hle)
    · exact (idxOf_le_iff h hm ha).mpr hpos

/-- The loop that keeps the greatest one. -/
theorem argmax_eq_some_iff_pos (h : l.Pairwise fun x y => pos x < pos y) :
    l.argmax f = some m ↔ m ∈ l ∧ ∀ a ∈ l, f a < f m ∨ f a = f m ∧ pos m ≤ pos a := by
  have hdual : l.argmax f = l.argmin (OrderDual.toDual ∘ f) := rfl
  rw [hdual, argmin_eq_some_iff_pos h]
  simp only [Function.comp_apply, OrderDual.toDual_lt_toDual, OrderDual.toDual_inj, eq_comm]

end Best

/-! ## A scan of a list that grows -/

/-- `a`, at position `i` of the list, is the first of the elements with the least key among the
first `n`. A loop that compares one position after the other keeps this, also while elements are
added at the end. -/
structure Least {β : Type*} [LinearOrder β] (key : α → β) (l : List α) (a : α) (i n : Nat) :
    Prop where
  get : l[i]? = some a
  lt : i < n
  le_length : n ≤ l.length
  least : ∀ j < n, ∀ b, l[j]? = some b → key a ≤ key b
  first : ∀ j < i, ∀ b, l[j]? = some b → key a < key b

namespace Least

variable {β : Type*} [LinearOrder β] {key : α → β} {l : List α} {a b : α} {i j n : Nat}

/-- Before the first comparison. -/
theorem head (a : α) (l : List α) : Least key (a :: l) a 0 1 where
  get := rfl
  lt := Nat.zero_lt_one
  le_length := Nat.succ_le_succ (Nat.zero_le _)
  least j hj b hb := by
    obtain rfl := Nat.lt_one_iff.mp hj
    obtain rfl := Option.some.inj hb
    exact le_refl _
  first j hj := absurd hj (Nat.not_lt_zero j)

/-- Elements added at the end. -/
theorem append (h : Least key l a i n) (l' : List α) : Least key (l ++ l') a i n := by
  have hant : ∀ j < n, (l ++ l')[j]? = l[j]? :=
    fun j hj => List.getElem?_append_left (Nat.lt_of_lt_of_le hj h.le_length)
  refine ⟨(hant i h.lt).trans h.get, h.lt, ?_, fun j hj b hb => ?_, fun j hj b hb => ?_⟩
  · rw [List.length_append]
    exact Nat.le_add_right_of_le h.le_length
  · exact h.least j hj b (hant j hj ▸ hb)
  · exact h.first j hj b (hant j (hj.trans h.lt) ▸ hb)

/-- The element at position `n` is no better. -/
theorem keep (h : Least key l a i n) (hb : l[n]? = some b) (hle : key a ≤ key b) :
    Least key l a i (n + 1) where
  get := h.get
  lt := Nat.lt_succ_of_lt h.lt
  le_length := (List.getElem?_eq_some_iff.mp hb).1
  least j hj c hc := by
    rcases Nat.lt_succ_iff_lt_or_eq.mp hj with hj | rfl
    · exact h.least j hj c hc
    · obtain rfl := Option.some.inj (hb.symm.trans hc)
      exact hle
  first := h.first

/-- The element at position `n` is better. -/
theorem take (h : Least key l a i n) (hb : l[n]? = some b) (hlt : key b < key a) :
    Least key l b n (n + 1) where
  get := hb
  lt := Nat.lt_succ_self n
  le_length := (List.getElem?_eq_some_iff.mp hb).1
  least j hj c hc := by
    rcases Nat.lt_succ_iff_lt_or_eq.mp hj with hj | rfl
    · exact hlt.le.trans (h.least j hj c hc)
    · obtain rfl := Option.some.inj (hb.symm.trans hc)
      exact le_refl _
  first j hj c hc := hlt.trans_le (h.least j hj c hc)

/-- The elements that were in the list from the start. -/
theorem le_of_mem {l' : List α} (h : Least key (l ++ l') a i n) (hn : l.length ≤ n) (hb : b ∈ l) :
    key a ≤ key b := by
  obtain ⟨j, hj, hget⟩ := List.mem_iff_getElem.mp hb
  refine h.least j (hj.trans_le hn) b ?_
  rw [List.getElem?_append_left hj, List.getElem?_eq_getElem hj, hget]

/-- There is one such position. -/
theorem index_unique (h : Least key l a i n) (h' : Least key l b j n) : i = j := by
  rcases Nat.lt_trichotomy i j with hij | hij | hij
  · exact absurd (h'.first i hij a h.get) (not_lt.mpr (h.least j h'.lt b h'.get))
  · exact hij
  · exact absurd (h.first j hij b h'.get) (not_lt.mpr (h'.least i h.lt a h.get))

end Least

/-! ## Removal of the first match -/

theorem eraseIdx_of_search {p : α → Bool} {l : List α} {i : Nat} {a : α}
    (h : search p l = some (i, a)) : l.eraseIdx i = l.eraseP p := by
  obtain ⟨pre, post, rfl, rfl, ha, hpre⟩ := search_eq_some.mp h
  have hno : ∀ b ∈ pre, ¬ p b = true := fun b hb => by simp [hpre b hb]
  rw [eraseIdx_split, List.eraseP_append_right _ hno, List.eraseP_cons_of_pos ha]

/-- A removal is not seen by the elements that cannot match. -/
theorem countP_eraseP_of_disjoint {p q : α → Bool} {l : List α}
    (h : ∀ a, p a = true → q a = false) :
    (l.eraseP p).countP q = l.countP q := by
  rcases List.exists_or_eq_self_of_eraseP p l with heq | ⟨a, pre, post, -, ha, rfl, he⟩
  · rw [heq]
  · rw [he]
    simp [List.countP_append, h a ha]

/-- `n` removals leave no element with `q`, of which those with `p` are a part, exactly when all
elements with `q` have `p`, and they are at most `n`. -/
theorem iterate_eraseP_none_iff {p q : α → Bool} (hpq : ∀ a, p a = true → q a = true) (n : Nat)
    (l : List α) : (∀ a ∈ (List.eraseP p)^[n] l, q a = false) ↔
      (∀ a ∈ l, q a = true → p a = true) ∧ l.countP q ≤ n := by
  induction n generalizing l with
  | zero =>
    rw [Function.iterate_zero, id, Nat.le_zero, List.countP_eq_zero]
    constructor
    · intro h
      exact ⟨fun a ha hq => absurd hq (by simp [h a ha]), fun a ha => by simp [h a ha]⟩
    · intro h a ha
      simpa using h.2 a ha
  | succ n ih =>
    rw [Function.iterate_succ_apply, ih]
    rcases List.exists_or_eq_self_of_eraseP p l with heq | ⟨b, pre, post, -, hb, rfl, he⟩
    · -- Nothing matches, so there is no element with `q` on either side.
      rw [heq]
      have hno := List.eraseP_eq_self_iff.mp heq
      refine and_congr_right fun hall => ?_
      have hcero : l.countP q = 0 :=
        List.countP_eq_zero.mpr fun a ha hq => hno a ha (hall a ha hq)
      omega
    · rw [he]
      have hcount : (pre ++ b :: post).countP q = (pre ++ post).countP q + 1 := by
        simp only [List.countP_append, List.countP_cons, hpq b hb, if_true]
        omega
      rw [hcount, Nat.add_le_add_iff_right]
      refine and_congr_left fun _ => ⟨fun h a ha hq => ?_, fun h a ha => h a ?_⟩
      · rcases List.mem_append.mp ha with ha | ha
        · exact h a (List.mem_append_left _ ha) hq
        · rcases List.mem_cons.mp ha with rfl | ha
          · exact hb
          · exact h a (List.mem_append_right _ ha) hq
      · rcases List.mem_append.mp ha with ha | ha
        · exact List.mem_append_left _ ha
        · exact List.mem_append_right _ (List.mem_cons_of_mem b ha)

/-! ## Updates of the first match, among other changes -/

/-- The update of the element that the search found. -/
theorem set_of_search {p : α → Bool} {g : α → α} {l : List α} {i : Nat} {a : α}
    (h : search p l = some (i, a)) :
    l.set i (g a) = l.replaceF fun b => if p b then some (g b) else none := by
  obtain ⟨pre, post, rfl, rfl, ha, hpre⟩ := search_eq_some.mp h
  rw [set_split]
  clear h
  induction pre with
  | nil => exact (List.replaceF_cons_of_some _ (by simp [ha])).symm
  | cons b pre ih =>
    have hb : p b = false := hpre b List.mem_cons_self
    rw [List.cons_append, List.cons_append, List.replaceF_cons_of_none _ (by simp [hb]),
      ih fun x hx => hpre x (List.mem_cons_of_mem _ hx)]

theorem replaceF_append_of_none {f : α → Option α} {l : List α} {b : α} (h : f b = none) :
    (l ++ [b]).replaceF f = l.replaceF f ++ [b] := by
  induction l with
  | nil => exact List.replaceF_cons_of_none f h
  | cons a l ih =>
    rw [List.cons_append]
    cases hf : f a with
    | none => rw [List.replaceF_cons_of_none f hf, List.replaceF_cons_of_none f hf, ih]; rfl
    | some c => rw [List.replaceF_cons_of_some f hf, List.replaceF_cons_of_some f hf]; rfl

/-- An update and a removal of elements that are not the same. -/
theorem replaceF_eraseP {p : α → Bool} {f : α → Option α}
    (hf : ∀ a b, f a = some b → p a = false ∧ p b = false) (l : List α) :
    (l.eraseP p).replaceF f = (l.replaceF f).eraseP p := by
  induction l with
  | nil => rfl
  | cons a l ih =>
    cases ha : f a with
    | some b =>
      obtain ⟨hpa, hpb⟩ := hf a b ha
      rw [List.eraseP_cons_of_neg (by simp [hpa]), List.replaceF_cons_of_some f ha,
        List.replaceF_cons_of_some f ha, List.eraseP_cons_of_neg (by simp [hpb])]
    | none =>
      rw [List.replaceF_cons_of_none f ha]
      cases hp : p a with
      | true => rw [List.eraseP_cons_of_pos hp, List.eraseP_cons_of_pos hp]
      | false =>
        rw [List.eraseP_cons_of_neg (by simp [hp]), List.eraseP_cons_of_neg (by simp [hp]),
          List.replaceF_cons_of_none f ha, ih]

/-- A removal is not seen by a search for other elements. -/
theorem find?_eraseP {p q : α → Bool} (h : ∀ a, p a = true → q a = false) (l : List α) :
    (l.eraseP p).find? q = l.find? q := by
  rcases List.exists_or_eq_self_of_eraseP p l with heq | ⟨a, pre, post, -, ha, rfl, he⟩
  · rw [heq]
  · rw [he, List.find?_append, List.find?_append, List.find?_cons_of_neg (by simp [h a ha])]

section Map

variable [DecidableEq κ] (key : α → κ)

/-- First-match lookup by key. -/
def toMap (l : List α) (k : κ) : Option α := l.find? fun a => key a = k

variable {key}

theorem toMap_eq_none {l : List α} {k : κ} : toMap key l k = none ↔ k ∉ l.map key := by
  simp [toMap, List.find?_eq_none, List.mem_map]

/-- Where no key repeats, a lookup by the key of an element finds the element. -/
theorem toMap_of_mem {l : List α} {a : α} (hn : (l.map key).Nodup) (ha : a ∈ l) :
    toMap key l (key a) = some a := by
  obtain ⟨pre, post, rfl⟩ := List.append_of_mem ha
  rw [List.map_append, List.map_cons, List.nodup_append] at hn
  have hno : pre.find? (fun b => key b = key a) = none := by
    refine List.find?_eq_none.mpr fun b hb => ?_
    have hne := hn.2.2 (key b) (List.mem_map_of_mem hb) (key a) List.mem_cons_self
    simpa using hne
  simp [toMap, List.find?_append, hno]

theorem search_toMap {l : List α} {k : κ} {i : Nat} {a : α}
    (h : search (fun a => key a = k) l = some (i, a)) : toMap key l k = some a := by
  rw [toMap, ← map_snd_search, h]
  rfl

/-- An in-place update of the element with key `k`, when it keeps its key. -/
theorem toMap_set {l : List α} {k : κ} {i : Nat} {a b : α}
    (h : search (fun a => key a = k) l = some (i, a)) (hb : key b = k) :
    toMap key (l.set i b) = Function.update (toMap key l) k (some b) := by
  obtain ⟨pre, post, rfl, rfl, ha, hpre⟩ := search_eq_some.mp h
  have ha : key a = k := by simpa using ha
  funext k'
  rw [set_split]
  simp only [toMap, List.find?_append, List.find?_cons, Function.update_apply]
  by_cases hk : k' = k
  · subst hk
    have : pre.find? (fun a => key a = k') = none := List.find?_eq_none.mpr fun x hx => by
      simpa using hpre x hx
    simp [this, hb]
  · simp [ha, hb, Ne.symm hk, hk]

/-- An in-place update or a removal at key `k` is not seen at another key. -/
theorem toMap_eraseIdx_of_ne {l : List α} {k k' : κ} {i : Nat} {a : α}
    (h : search (fun a => key a = k) l = some (i, a)) (hk : k' ≠ k) :
    toMap key (l.eraseIdx i) k' = toMap key l k' := by
  obtain ⟨pre, post, rfl, rfl, ha, -⟩ := search_eq_some.mp h
  have ha : key a = k := by simpa using ha
  rw [eraseIdx_split]
  simp [toMap, List.find?_append, ha, Ne.symm hk]

/-- The removal of the only element with key `k`. -/
theorem toMap_eraseIdx {l : List α} {k : κ} {i : Nat} {a : α}
    (h : search (fun a => key a = k) l = some (i, a)) (hn : (l.map key).Nodup) :
    toMap key (l.eraseIdx i) = Function.update (toMap key l) k none := by
  funext k'
  by_cases hk : k' = k
  · subst hk
    rw [Function.update_self, toMap_eq_none]
    obtain ⟨pre, post, rfl, rfl, ha, hpre⟩ := search_eq_some.mp h
    have ha : key a = k' := by simpa using ha
    rw [eraseIdx_split, List.map_append, List.mem_append]
    rw [List.map_append, List.map_cons, List.nodup_append] at hn
    rintro (hm | hm)
    · obtain ⟨x, hx, hxk⟩ := List.mem_map.mp hm
      have := hpre x hx
      simp [hxk] at this
    · exact (List.nodup_cons.mp hn.2.1).1 (ha ▸ hm)
  · rw [Function.update_of_ne hk, toMap_eraseIdx_of_ne h hk]

/-- An append of an element whose key is new. -/
theorem toMap_append {l : List α} {a : α} (h : key a ∉ l.map key) :
    toMap key (l ++ [a]) = Function.update (toMap key l) (key a) (some a) := by
  funext k'
  simp only [toMap, List.find?_append, Function.update_apply]
  by_cases hk : k' = key a
  · subst hk
    have : l.find? (fun x => key x = key a) = none := toMap_eq_none.mpr h
    simp [this]
  · simp [Ne.symm hk, hk]

theorem toMap_append_of_ne {l : List α} {a : α} {k : κ} (h : k ≠ key a) :
    toMap key (l ++ [a]) k = toMap key l k := by
  simp [toMap, List.find?_append, Ne.symm h]

theorem map_key_set {l : List α} {k : κ} {i : Nat} {a b : α}
    (h : search (fun a => key a = k) l = some (i, a)) (hb : key b = k) :
    (l.set i b).map key = l.map key := by
  obtain ⟨pre, post, rfl, rfl, ha, -⟩ := search_eq_some.mp h
  have ha : key a = k := by simpa using ha
  simp [ha, hb]

omit [DecidableEq κ] in
theorem nodup_eraseIdx {l : List α} (hn : (l.map key).Nodup) (i : Nat) :
    ((l.eraseIdx i).map key).Nodup :=
  hn.sublist ((List.eraseIdx_sublist l i).map key)

omit [DecidableEq κ] in
theorem nodup_append {l : List α} {a : α} (hn : (l.map key).Nodup) (h : key a ∉ l.map key) :
    ((l ++ [a]).map key).Nodup := by
  rw [List.map_append, List.map_singleton, List.nodup_append]
  refine ⟨hn, List.nodup_singleton _, ?_⟩
  intro x hx y hy
  obtain rfl := List.mem_singleton.mp hy
  rintro rfl
  exact h hx

end Map

end KeyedList
