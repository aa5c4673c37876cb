import Mathlib.Data.Set.Finite.Lattice
import Mathlib.Logic.Relation
import Mathlib.Order.Preorder.Finite

/-!
# Who waits for whom

Threads wait for resources that others own.

* `Blocks`: a thread waits for a resource of another one.
* `Knot`: each thread of a set waits for a resource of one of the set.
* `Step`: the ways in which an allocator of resources with one owner moves. Only a thread that
  does not wait takes or releases something. So a knot is for ever (`Knot.step`).
* `Ordered`: a thread waits for a resource above all that it owns. An allocator keeps this if its
  requests do (`Ordered.step`). Then there is no knot (`Ordered.no_knot`), and a chain of owners
  leads from each thread to one that does not wait (`Ordered.exists_free`).
-/

structure WaitFor (τ ρ : Type*) where
  waits : τ → ρ → Prop
  owns : τ → ρ → Prop

namespace WaitFor

variable {τ ρ α : Type*} {w w' : WaitFor τ ρ} {D : Set τ} {q : Option (τ × ρ)}

/-- `t` waits for a resource of `u`. -/
def Blocks (w : WaitFor τ ρ) (t u : τ) : Prop := ∃ r, w.waits t r ∧ w.owns u r

def Idle (w : WaitFor τ ρ) (t : τ) : Prop := ∀ r, ¬ w.waits t r

/-- Each thread of `D` waits for a resource of a thread of `D`. -/
def Knot (w : WaitFor τ ρ) (D : Set τ) : Prop := ∀ t ∈ D, ∃ u ∈ D, w.Blocks t u

/-- A resource has one owner at most. -/
def Exclusive (w : WaitFor τ ρ) : Prop := ∀ t u r, w.owns t r → w.owns u r → t = u

/-- A step of an allocator, with the request that has to wait. -/
inductive Step (w w' : WaitFor τ ρ) : Option (τ × ρ) → Prop
  | skip (hw : ∀ t r, w'.waits t r ↔ w.waits t r) (ho : ∀ t r, w'.owns t r ↔ w.owns t r) :
      Step w w' none
  | request (t : τ) (r : ρ) (hw : ∀ u s, w'.waits u s ↔ w.waits u s ∨ (u = t ∧ s = r))
      (ho : ∀ u s, w'.owns u s ↔ w.owns u s) : Step w w' (some (t, r))
  | acquire (t : τ) (r : ρ) (ht : w.Idle t) (hw : ∀ u s, w'.waits u s ↔ w.waits u s)
      (ho : ∀ u s, w'.owns u s ↔ w.owns u s ∨ (u = t ∧ s = r)) : Step w w' none
  | release (t : τ) (r : ρ) (ht : w.Idle t) (hw : ∀ u s, w'.waits u s ↔ w.waits u s)
      (ho : ∀ u s, w'.owns u s ↔ w.owns u s ∧ ¬ (u = t ∧ s = r)) : Step w w' none
  /-- `t` gives `r` to `v`, which waits for nothing else. -/
  | pass (t v : τ) (r : ρ) (ht : w.Idle t) (hr : w.owns t r) (hv : ∀ s, w.waits v s → s = r)
      (hw : ∀ u s, w'.waits u s ↔ w.waits u s ∧ u ≠ v)
      (ho : ∀ u s, w'.owns u s ↔ (w.owns u s ∧ s ≠ r) ∨ (u = v ∧ s = r)) : Step w w' none

/-! ## Knots -/

theorem Knot.not_idle (h : w.Knot D) {t : τ} (ht : t ∈ D) : ¬ w.Idle t := by
  obtain ⟨-, -, r, hr, -⟩ := h t ht
  exact fun hidle => hidle r hr

/-- A knot stays while its threads wait for what they waited for, and own what they owned. -/
theorem Knot.mono (h : w.Knot D) (hw : ∀ t ∈ D, ∀ r, w.waits t r → (∃ u ∈ D, w.owns u r) →
    w'.waits t r) (ho : ∀ u ∈ D, ∀ r, w.owns u r → w'.owns u r) : w'.Knot D := by
  intro t ht
  obtain ⟨u, hu, r, hwait, hown⟩ := h t ht
  exact ⟨u, hu, r, hw t ht r hwait ⟨u, hu, hown⟩, ho u hu r hown⟩

/-- Nobody in a knot takes a step, and nobody else has what they wait for. -/
theorem Knot.step (h : w.Knot D) (hx : w.Exclusive) (hs : w.Step w' q) : w'.Knot D := by
  cases hs with
  | skip hw ho => exact h.mono (fun t _ r hr _ => (hw t r).mpr hr) fun u _ r => (ho u r).mpr
  | request t r hw ho =>
    exact h.mono (fun u _ s hs _ => (hw u s).mpr (.inl hs)) fun u _ s => (ho u s).mpr
  | acquire t r ht hw ho =>
    exact h.mono (fun u _ s hs _ => (hw u s).mpr hs) fun u _ s hs => (ho u s).mpr (.inl hs)
  | release t r ht hw ho =>
    refine h.mono (fun u _ s hs _ => (hw u s).mpr hs) fun u hu s hs => (ho u s).mpr ⟨hs, ?_⟩
    rintro ⟨rfl, -⟩
    exact h.not_idle hu ht
  | pass t v r ht hr hv hw ho =>
    have hno : t ∉ D := fun hmem => h.not_idle hmem ht
    refine h.mono (fun u hu s hs hown => (hw u s).mpr ⟨hs, ?_⟩) fun u hu s hs =>
      (ho u s).mpr (.inl ⟨hs, ?_⟩)
    · rintro rfl
      obtain rfl := hv s hs
      obtain ⟨x, hx', hown⟩ := hown
      exact hno (hx x t s hown hr ▸ hx')
    · rintro rfl
      exact hno (hx u t s hs hr ▸ hu)

/-! ## An order on the resources -/

variable [Preorder α] {rank : ρ → α}

/-- A thread waits for resources above those that it owns. -/
def Ordered (w : WaitFor τ ρ) (rank : ρ → α) : Prop :=
  ∀ t r s, w.waits t r → w.owns t s → rank s < rank r

theorem Ordered.step (h : w.Ordered rank) (hs : w.Step w' q)
    (hq : ∀ t r, q = some (t, r) → ∀ s, w.owns t s → rank s < rank r) : w'.Ordered rank := by
  intro u a b hwait hown
  cases hs with
  | skip hw ho => exact h u a b ((hw u a).mp hwait) ((ho u b).mp hown)
  | request t r hw ho =>
    rcases (hw u a).mp hwait with hwait | ⟨rfl, rfl⟩
    · exact h u a b hwait ((ho u b).mp hown)
    · exact hq u a rfl b ((ho u b).mp hown)
  | acquire t r ht hw ho =>
    have hwait := (hw u a).mp hwait
    rcases (ho u b).mp hown with hown | ⟨rfl, -⟩
    · exact h u a b hwait hown
    · exact absurd hwait (ht a)
  | release t r ht hw ho => exact h u a b ((hw u a).mp hwait) ((ho u b).mp hown).1
  | pass t v r ht hr hv hw ho =>
    obtain ⟨hwait, hne⟩ := (hw u a).mp hwait
    rcases (ho u b).mp hown with ⟨hown, -⟩ | ⟨rfl, -⟩
    · exact h u a b hwait hown
    · exact absurd rfl hne

/-- The owner of a highest resource that a thread of a knot waits for waits for a higher one. -/
theorem Ordered.no_knot (h : w.Ordered rank) (hfin : {r | ∃ t, w.waits t r}.Finite)
    (hk : w.Knot D) : D = ∅ := by
  by_contra hne
  obtain ⟨t, ht⟩ := Set.nonempty_iff_ne_empty.mpr hne
  have hfin' : {r | ∃ t ∈ D, ∃ u ∈ D, w.waits t r ∧ w.owns u r}.Finite :=
    hfin.subset fun r ⟨t, _, _, _, hw, _⟩ => ⟨t, hw⟩
  obtain ⟨u, hu, r, hw, ho⟩ := hk t ht
  obtain ⟨m, ⟨x, hx, y, hy, hxm, hym⟩, hmax⟩ :=
    Set.Finite.exists_maximalFor rank _ hfin' ⟨r, t, ht, u, hu, hw, ho⟩
  obtain ⟨z, hz, s, hys, hzs⟩ := hk y hy
  have hlt : rank m < rank s := h y s m hys hym
  exact (hmax ⟨y, hy, z, hz, hys, hzs⟩ hlt.le).not_gt hlt

/-- From each thread a chain of owners leads to one that does not wait. -/
theorem Ordered.exists_free (h : w.Ordered rank) (hfin : {r | ∃ t, w.waits t r}.Finite)
    (hown : ∀ t r, w.waits t r → ∃ u, w.owns u r) (t : τ) :
    ∃ u, Relation.ReflTransGen w.Blocks t u ∧ w.Idle u := by
  by_contra hno
  push Not at hno
  have hk : w.Knot {u | Relation.ReflTransGen w.Blocks t u} := by
    intro u hu
    obtain ⟨r, hr⟩ : ∃ r, w.waits u r := by simpa [Idle] using hno u hu
    obtain ⟨v, hv⟩ := hown u r hr
    exact ⟨v, Relation.ReflTransGen.tail hu ⟨r, hr, hv⟩, r, hr, hv⟩
  have hmem : t ∈ {u | Relation.ReflTransGen w.Blocks t u} := Relation.ReflTransGen.refl
  rw [h.no_knot hfin hk] at hmem
  exact hmem

end WaitFor
