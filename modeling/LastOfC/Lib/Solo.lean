import Mathlib.Data.List.Basic
import Mathlib.Logic.Function.Iterate

/-!
# A machine on its own

What a thread does if no other one runs: in each state it does one thing, and goes on or stops.

* `after`, `trace`: the state after `n` steps, and what the steps do.
* `Follows f s₀ bs s`: from `s₀` the machine does `bs` and is in `s`. A thread of a system is
  transparent to the others if this holds of what it did, whatever they did in between.
* `Follows.snoc`: one more step. `Follows.stop`: the last one. `after_keeps`: an invariant.
* `trace_get`: step `j` is done in the state after `j` steps. `after_view`: the machine seen through
  a function, if that moves on its own.
-/

namespace Solo

variable {σ β : Type*}

/-- What the machine does in a state, and its next state, or none if it stops. -/
abbrev Machine (σ β : Type*) := σ → Option (β × Option σ)

/-- The state after `n` steps. -/
def after (f : Machine σ β) : Nat → σ → Option σ
  | 0, s => some s
  | n + 1, s => (f s).bind fun r => r.2.bind (after f n)

/-- What the first `n` steps do. -/
def trace (f : Machine σ β) : Nat → σ → List β
  | 0, _ => []
  | n + 1, s =>
    match f s with
    | some (b, some s') => b :: trace f n s'
    | some (b, none) => [b]
    | none => []

variable {f : Machine σ β} {s₀ s : σ} {n : Nat} {b : β} {r : Option σ} {bs : List β}

/-- The last step comes last. -/
theorem after_succ (h : after f n s₀ = some s) (hs : f s = some (b, r)) :
    after f (n + 1) s₀ = r := by
  induction n generalizing s₀ with
  | zero =>
    cases h
    cases r with
    | none => simp [after, hs]
    | some s' => simp [after, hs]
  | succ n ih =>
    obtain ⟨⟨b', r'⟩, hf, hr⟩ := Option.bind_eq_some_iff.mp h
    obtain ⟨s', rfl, hs'⟩ := Option.bind_eq_some_iff.mp hr
    rw [after, hf]
    exact ih hs'

theorem trace_succ (h : after f n s₀ = some s) (hs : f s = some (b, r)) :
    trace f (n + 1) s₀ = trace f n s₀ ++ [b] := by
  induction n generalizing s₀ with
  | zero =>
    cases h
    cases r with
    | none => simp [trace, hs]
    | some s' => simp [trace, hs]
  | succ n ih =>
    obtain ⟨⟨b', r'⟩, hf, hr⟩ := Option.bind_eq_some_iff.mp h
    obtain ⟨s', rfl, hs'⟩ := Option.bind_eq_some_iff.mp hr
    rw [trace, hf, trace, hf, List.cons_append]
    exact congrArg _ (ih hs')

/-- What step `j` does, it does in the state after `j` steps. -/
theorem trace_get {j : Nat} (h : (trace f n s₀)[j]? = some b) :
    ∃ s r, after f j s₀ = some s ∧ f s = some (b, r) := by
  induction n generalizing s₀ j with
  | zero => simp [trace] at h
  | succ n ih =>
    unfold trace at h
    split at h
    · rename_i b' s' hf
      cases j with
      | zero =>
        obtain rfl : b' = b := Option.some.inj h
        exact ⟨s₀, some s', rfl, hf⟩
      | succ j =>
        obtain ⟨s, r, hs, hb⟩ := ih h
        refine ⟨s, r, ?_, hb⟩
        rw [after, hf]
        exact hs
    · rename_i b' hf
      cases j with
      | zero =>
        obtain rfl : b' = b := Option.some.inj h
        exact ⟨s₀, none, rfl, hf⟩
      | succ j => simp at h
    · simp at h

/-- An invariant. -/
theorem after_keeps {I : σ → Prop} (h : after f n s₀ = some s) (h0 : I s₀)
    (hstep : ∀ s b s', f s = some (b, some s') → I s → I s') : I s := by
  induction n generalizing s₀ with
  | zero =>
    cases h
    exact h0
  | succ n ih =>
    obtain ⟨⟨b, r⟩, hf, hr⟩ := Option.bind_eq_some_iff.mp h
    obtain ⟨s', rfl, hs'⟩ := Option.bind_eq_some_iff.mp hr
    exact ih hs' (hstep s₀ b s' hf h0)

/-- A view of the states that moves on its own. -/
theorem after_view {γ : Type*} {view : σ → γ} {next : γ → γ}
    (hnext : ∀ s b s', f s = some (b, some s') → view s' = next (view s))
    (h : after f n s₀ = some s) : view s = next^[n] (view s₀) := by
  induction n generalizing s₀ with
  | zero =>
    cases h
    rfl
  | succ n ih =>
    obtain ⟨⟨b, r⟩, hf, hr⟩ := Option.bind_eq_some_iff.mp h
    obtain ⟨s', rfl, hs'⟩ := Option.bind_eq_some_iff.mp hr
    rw [Function.iterate_succ_apply, ← hnext s₀ b s' hf]
    exact ih hs'

/-- From `s₀` the machine does `bs`, and is in `s`. -/
structure Follows (f : Machine σ β) (s₀ : σ) (bs : List β) (s : σ) : Prop where
  after : after f bs.length s₀ = some s
  trace : bs = trace f bs.length s₀

namespace Follows

theorem nil : Follows f s₀ [] s₀ := ⟨rfl, rfl⟩

/-- Also the step after which the machine stops is its own. -/
theorem stop (h : Follows f s₀ bs s) (hs : f s = some (b, r)) :
    bs ++ [b] = Solo.trace f (bs ++ [b]).length s₀ := by
  rw [List.length_append, List.length_singleton, trace_succ h.after hs, ← h.trace]

theorem snoc {s' : σ} (h : Follows f s₀ bs s) (hs : f s = some (b, some s')) :
    Follows f s₀ (bs ++ [b]) s' := by
  refine ⟨?_, h.stop hs⟩
  rw [List.length_append, List.length_singleton, after_succ h.after hs]

/-- What each step keeps holds after all of them. -/
theorem keeps {I : σ → Prop} (h : Follows f s₀ bs s) (h0 : I s₀)
    (hstep : ∀ s b s', f s = some (b, some s') → I s → I s') : I s :=
  after_keeps h.after h0 hstep

end Follows

end Solo
