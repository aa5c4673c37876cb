import Mathlib.Data.List.Basic
import Mathlib.Data.List.Induction

/-!
# Runs of a deterministic machine

A machine takes one label at a time: `f s a` is the next state with the outputs of the step, or
the error that ends the run. Nothing here depends on what the states, labels and outputs are.

* `run f s as`: the labels `as` one after the other, with all outputs in order.
* `Reaches f s as s'`: the run along `as` ends in `s'`.
* `EveryState` and `EveryStep`: a property of each state, and of each completed step, of the run
  along `as`. Both are about prefixes, so they see the history of the run as well as its state.
* `EveryTry`: like `EveryStep`, and also of the step that ends the run with an error.
* `Happened`: a step with a property is part of the run.
* `history`: a variable that records the run, and no step reads.
* `concat_prefix_unique`: a label that a run has once has one part of the run before it.
* `Reaches.invariant` is the induction rule: an invariant that each step keeps under the condition
  `C` holds wherever a run whose steps meet `C` goes. `Reaches.along` has no such condition, and
  `run_invariant` is for an invariant about the outputs. `everyState_iff_everyStep` is the exact
  form: a step from a good state is good if and only if it meets `C`. `exists_reaches` is for a
  machine that takes every label.
-/

namespace Trace

variable {σ α β ε : Type*} {f : σ → α → Except ε (σ × List β)}

/-- The run along `as` from `s`: the last state, and the outputs of all steps. -/
def run (f : σ → α → Except ε (σ × List β)) (s : σ) : List α → Except ε (σ × List β)
  | [] => .ok (s, [])
  | a :: as =>
    match f s a with
    | .error e => .error e
    | .ok (s₁, o₁) =>
      match run f s₁ as with
      | .error e => .error e
      | .ok (s₂, o₂) => .ok (s₂, o₁ ++ o₂)

/-- The run along `as` from `s` ends in `s'`. -/
def Reaches (f : σ → α → Except ε (σ × List β)) (s : σ) (as : List α) (s' : σ) : Prop :=
  ∃ o, run f s as = .ok (s', o)

@[simp] theorem run_nil (s : σ) : run f s [] = .ok (s, []) := rfl

/-- The run along `a :: as` takes the step `a` first. -/
theorem run_cons_ok {s s' : σ} {a : α} {as : List α} {o : List β} :
    run f s (a :: as) = .ok (s', o) ↔
      ∃ s₁ o₁ o₂, f s a = .ok (s₁, o₁) ∧ run f s₁ as = .ok (s', o₂) ∧ o = o₁ ++ o₂ := by
  simp only [run]
  constructor
  · intro h
    cases hf : f s a with
    | error e =>
      rw [hf] at h
      cases h
    | ok r =>
      obtain ⟨s₁, o₁⟩ := r
      simp only [hf] at h
      cases hr : run f s₁ as with
      | error e =>
        rw [hr] at h
        cases h
      | ok r =>
        obtain ⟨s₂, o₂⟩ := r
        rw [hr] at h
        cases h
        exact ⟨s₁, o₁, o₂, rfl, hr, rfl⟩
  · rintro ⟨s₁, o₁, o₂, h₁, h₂, rfl⟩
    simp only [h₁, h₂]

/-- A run along `as ++ bs` is a run along `as` and then one along `bs`. -/
theorem run_append_ok {s s' : σ} {as bs : List α} {o : List β} :
    run f s (as ++ bs) = .ok (s', o) ↔
      ∃ s₁ o₁ o₂, run f s as = .ok (s₁, o₁) ∧ run f s₁ bs = .ok (s', o₂) ∧ o = o₁ ++ o₂ := by
  induction as generalizing s o with
  | nil =>
    constructor
    · intro h
      exact ⟨s, [], o, rfl, h, rfl⟩
    · rintro ⟨s₁, o₁, o₂, h, h', rfl⟩
      cases h
      exact h'
  | cons a as ih =>
    simp only [List.cons_append, run_cons_ok, ih]
    constructor
    · rintro ⟨s₁, o₁, o₂, ha, ⟨s₂, p₁, p₂, h₁, h₂, rfl⟩, rfl⟩
      exact ⟨s₂, o₁ ++ p₁, p₂, ⟨s₁, o₁, p₁, ha, h₁, rfl⟩, h₂, by rw [List.append_assoc]⟩
    · rintro ⟨s₂, q₁, p₂, ⟨s₁, o₁, p₁, ha, h₁, rfl⟩, h₂, rfl⟩
      exact ⟨s₁, o₁, p₁ ++ p₂, ha, ⟨s₂, p₁, p₂, h₁, h₂, rfl⟩, by rw [List.append_assoc]⟩

@[simp] theorem reaches_nil {s s' : σ} : Reaches f s [] s' ↔ s' = s := by
  constructor
  · rintro ⟨o, h⟩
    cases h
    rfl
  · rintro rfl
    exact ⟨[], rfl⟩

theorem reaches_append {s s' : σ} {as bs : List α} :
    Reaches f s (as ++ bs) s' ↔ ∃ s₁, Reaches f s as s₁ ∧ Reaches f s₁ bs s' := by
  constructor
  · rintro ⟨o, h⟩
    obtain ⟨s₁, o₁, o₂, h₁, h₂, -⟩ := run_append_ok.mp h
    exact ⟨s₁, ⟨o₁, h₁⟩, ⟨o₂, h₂⟩⟩
  · rintro ⟨s₁, ⟨o₁, h₁⟩, ⟨o₂, h₂⟩⟩
    exact ⟨o₁ ++ o₂, run_append_ok.mpr ⟨s₁, o₁, o₂, h₁, h₂, rfl⟩⟩

theorem reaches_singleton {s s' : σ} {a : α} : Reaches f s [a] s' ↔ ∃ o, f s a = .ok (s', o) := by
  constructor
  · rintro ⟨o, h⟩
    obtain ⟨s₁, o₁, o₂, h₁, h₂, -⟩ := run_cons_ok.mp h
    cases h₂
    exact ⟨o₁, h₁⟩
  · rintro ⟨o, h⟩
    exact ⟨o ++ [], run_cons_ok.mpr ⟨s', o, [], h, rfl, rfl⟩⟩

theorem Reaches.snoc {s s₁ s' : σ} {as : List α} {a : α} {o : List β} (h : Reaches f s as s₁)
    (ha : f s₁ a = .ok (s', o)) : Reaches f s (as ++ [a]) s' :=
  reaches_append.mpr ⟨s₁, h, reaches_singleton.mpr ⟨o, ha⟩⟩

/-- A machine is deterministic. -/
theorem Reaches.unique {s s₁ s₂ : σ} {as : List α} (h₁ : Reaches f s as s₁)
    (h₂ : Reaches f s as s₂) : s₁ = s₂ := by
  obtain ⟨o₁, h₁⟩ := h₁
  obtain ⟨o₂, h₂⟩ := h₂
  rw [h₁] at h₂
  cases h₂
  rfl

/-- The outputs of the run up to the last step, and those of the last step. -/
theorem run_snoc_of {s s₁ s' : σ} {as : List α} {a : α} {o : List β} (h : Reaches f s as s₁)
    (hr : run f s (as ++ [a]) = .ok (s', o)) :
    ∃ o₁ o₂, run f s as = .ok (s₁, o₁) ∧ f s₁ a = .ok (s', o₂) ∧ o = o₁ ++ o₂ := by
  obtain ⟨s₂, o₁, o₂, hpre, hlast, rfl⟩ := run_append_ok.mp hr
  obtain rfl : s₂ = s₁ := Reaches.unique ⟨o₁, hpre⟩ h
  obtain ⟨s₃, o₃, o₄, ha, hnil, rfl⟩ := run_cons_ok.mp hlast
  cases hnil
  exact ⟨o₁, o₃, hpre, ha, by rw [List.append_nil]⟩

/-- A run that shows something that can be compared, evaluated. -/
theorem run_of_map {γ : Type*} {g : σ × List β → γ} {c : γ} {s : σ} {as : List α}
    (h : (run f s as).toOption.map g = some c) :
    ∃ s' o, run f s as = .ok (s', o) ∧ g (s', o) = c := by
  cases hr : run f s as with
  | error e =>
    rw [hr] at h
    cases h
  | ok r =>
    rw [hr] at h
    exact ⟨r.1, r.2, rfl, Option.some.inj h⟩

/-- A run whose last state has a part that can be compared, evaluated. -/
theorem reaches_of_map {γ : Type*} {g : σ → γ} {c : γ} {s : σ} {as : List α}
    (h : (run f s as).toOption.map (fun r => g r.1) = some c) :
    ∃ s', Reaches f s as s' ∧ g s' = c := by
  cases hr : run f s as with
  | error e =>
    rw [hr] at h
    cases h
  | ok r =>
    rw [hr] at h
    cases h
    exact ⟨r.1, ⟨r.2, hr⟩, rfl⟩

/-- `P` holds of the history and the state at each point of the run along `as`. -/
def EveryState (f : σ → α → Except ε (σ × List β)) (s : σ) (as : List α) (P : List α → σ → Prop) :
    Prop :=
  ∀ pre s', pre <+: as → Reaches f s pre s' → P pre s'

/-- `C` holds of the history, the state and the label before each completed step of the run. -/
def EveryStep (f : σ → α → Except ε (σ × List β)) (s : σ) (as : List α)
    (C : List α → σ → α → Prop) : Prop :=
  ∀ pre s' a r, pre ++ [a] <+: as → Reaches f s pre s' → f s' a = .ok r → C pre s' a

theorem EveryStep.restrict {s : σ} {as bs : List α} {C : List α → σ → α → Prop}
    (h : EveryStep f s as C) (hp : bs <+: as) : EveryStep f s bs C :=
  fun pre s' a r hpre => h pre s' a r (hpre.trans hp)

/-- What holds in each state holds before each step. -/
theorem EveryState.everyStep {s : σ} {as : List α} {P : List α → σ → Prop}
    (h : EveryState f s as P) : EveryStep f s as fun pre s' _ => P pre s' :=
  fun pre s' a _ hpre hs _ => h pre s' ((List.prefix_append pre [a]).trans hpre) hs

/-- A condition on steps follows from another one in the states that have `P`. -/
theorem EveryStep.mono {s : σ} {as : List α} {P : List α → σ → Prop}
    {C D : List α → σ → α → Prop} (h : EveryStep f s as C) (hP : EveryState f s as P)
    (hCD : ∀ pre s' a, a ∈ as → P pre s' → C pre s' a → D pre s' a) : EveryStep f s as D := by
  intro pre s' a r hpre hs ha
  have hpre' : pre <+: as := (List.prefix_append _ _).trans hpre
  exact hCD pre s' a (hpre.subset (by simp)) (hP pre s' hpre' hs) (h pre s' a r hpre hs ha)

theorem EveryStep.and {s : σ} {as : List α} {C D : List α → σ → α → Prop}
    (h : EveryStep f s as C) (h' : EveryStep f s as D) :
    EveryStep f s as fun pre s' a => C pre s' a ∧ D pre s' a :=
  fun pre s' a r hpre hs ha => ⟨h pre s' a r hpre hs ha, h' pre s' a r hpre hs ha⟩

/-- The last step of a run along `as ++ [a]`. -/
theorem EveryStep.last {s s' : σ} {as : List α} {a : α} {r : σ × List β}
    {C : List α → σ → α → Prop} (h : EveryStep f s (as ++ [a]) C) (hs : Reaches f s as s')
    (ha : f s' a = .ok r) : C as s' a :=
  h as s' a r (List.prefix_refl _) hs ha

/-- A condition that does not see the history, one step at a time from the front. -/
theorem EveryStep.cons {s s₁ : σ} {a : α} {as : List α} {o : List β} {C : σ → α → Prop}
    (ha : f s a = .ok (s₁, o)) (hC : C s a) (h : EveryStep f s₁ as fun _ => C) :
    EveryStep f s (a :: as) fun _ => C := by
  intro pre s' b r hpre hs hb
  cases pre with
  | nil =>
    obtain rfl : b = a := by simpa using hpre
    obtain rfl := reaches_nil.mp hs
    exact hC
  | cons c pre =>
    obtain ⟨rfl, hpre'⟩ : c = a ∧ pre ++ [b] <+: as := by simpa using hpre
    rw [← List.singleton_append] at hs
    obtain ⟨s₂, hc, hs⟩ := reaches_append.mp hs
    obtain rfl := hc.unique (reaches_singleton.mpr ⟨o, ha⟩)
    exact h pre s' b r hpre' hs hb

/-- The steps of a run and one more. -/
theorem everyStep_concat {s : σ} {as : List α} {a : α} {C : List α → σ → α → Prop} :
    EveryStep f s (as ++ [a]) C ↔
      EveryStep f s as C ∧ ∀ s' r, Reaches f s as s' → f s' a = .ok r → C as s' a := by
  constructor
  · intro h
    exact ⟨h.restrict (List.prefix_append _ _), fun s' r hs ha => h.last hs ha⟩
  · rintro ⟨h, hlast⟩ pre s' b r hpre hs hb
    rcases List.prefix_concat_iff.mp hpre with heq | hpre
    · obtain ⟨rfl, rfl⟩ : pre = as ∧ b = a := by simpa using List.append_inj' heq rfl
      exact hlast s' r hs hb
    · exact h pre s' b r hpre hs hb

theorem everyStep_nil {s : σ} {C : List α → σ → α → Prop} : EveryStep f s [] C :=
  fun pre s' a r hpre => absurd hpre (by simp)

/-- The states of a run and the one after one more step. -/
theorem everyState_concat {s : σ} {as : List α} {a : α} {P : List α → σ → Prop} :
    EveryState f s (as ++ [a]) P ↔
      EveryState f s as P ∧ ∀ s', Reaches f s (as ++ [a]) s' → P (as ++ [a]) s' := by
  constructor
  · intro h
    exact ⟨fun pre s' hpre => h pre s' (hpre.trans (List.prefix_append _ _)),
      fun s' => h _ s' (List.prefix_refl _)⟩
  · rintro ⟨h, hlast⟩ pre s' hpre hs
    rcases List.prefix_concat_iff.mp hpre with rfl | hpre
    · exact hlast s' hs
    · exact h pre s' hpre hs

/-- A run that stops at once takes no step. -/
theorem everyStep_of_error {s : σ} {a : α} {as : List α} {e : ε} {C : List α → σ → α → Prop}
    (h : f s a = .error e) : EveryStep f s (a :: as) C := by
  intro pre s' b r hpre hs hb
  cases pre with
  | nil =>
    obtain rfl : b = a := by simpa using hpre
    obtain rfl := reaches_nil.mp hs
    rw [h] at hb
    cases hb
  | cons c pre =>
    obtain ⟨rfl, -⟩ : c = a ∧ pre ++ [b] <+: as := by simpa using hpre
    obtain ⟨o, hs⟩ := hs
    obtain ⟨s₁, o₁, o₂, hc, -⟩ := run_cons_ok.mp hs
    rw [h] at hc
    cases hc

/-- The steps of a run, checked by evaluation. -/
def checkSteps (f : σ → α → Except ε (σ × List β)) (C : σ → α → Bool) (s : σ) : List α → Bool
  | [] => true
  | a :: as =>
    match f s a with
    | .error _ => true
    | .ok (s₁, _) => C s a && checkSteps f C s₁ as

theorem EveryStep.of_check {s : σ} {as : List α} {C : σ → α → Prop}
    [∀ s a, Decidable (C s a)] (h : checkSteps f (fun s a => decide (C s a)) s as = true) :
    EveryStep f s as fun _ => C := by
  induction as generalizing s with
  | nil => exact everyStep_nil
  | cons a as ih =>
    unfold checkSteps at h
    cases hf : f s a with
    | error e => exact everyStep_of_error hf
    | ok r =>
      simp only [hf, Bool.and_eq_true, decide_eq_true_eq] at h
      exact EveryStep.cons hf h.1 (ih h.2)

/-- The states of a run, checked by evaluation. -/
def checkStates (f : σ → α → Except ε (σ × List β)) (P : σ → Bool) (s : σ) : List α → Bool
  | [] => P s
  | a :: as =>
    P s &&
      match f s a with
      | .error _ => true
      | .ok (s₁, _) => checkStates f P s₁ as

theorem EveryState.of_check {s : σ} {as : List α} {P : σ → Prop} [DecidablePred P]
    (h : checkStates f (fun s => decide (P s)) s as = true) : EveryState f s as fun _ => P := by
  intro pre s' hpre hs
  induction as generalizing s pre with
  | nil =>
    obtain rfl := List.prefix_nil.mp hpre
    obtain rfl := reaches_nil.mp hs
    simpa [checkStates] using h
  | cons a as ih =>
    simp only [checkStates, Bool.and_eq_true, decide_eq_true_eq] at h
    cases pre with
    | nil =>
      obtain rfl := reaches_nil.mp hs
      exact h.1
    | cons b pre =>
      obtain ⟨rfl, hpre'⟩ := List.cons_prefix_cons.mp hpre
      obtain ⟨o, hs⟩ := hs
      obtain ⟨s₁, o₁, o₂, hb, hr, -⟩ := run_cons_ok.mp hs
      simp only [hb] at h
      exact ih h.2 pre hpre' ⟨o₂, hr⟩

/-- Some step of the run along `as` was one with `E`, seen from the state before it. -/
def Happened (f : σ → α → Except ε (σ × List β)) (s : σ) (as : List α) (E : σ → α → Prop) : Prop :=
  ∃ pre a s', pre ++ [a] <+: as ∧ Reaches f s pre s' ∧ E s' a

theorem not_happened_nil {s : σ} {E : σ → α → Prop} : ¬ Happened f s [] E := by
  rintro ⟨pre, a, s', hpre, -⟩
  simp at hpre

/-- Something happened along a run and one more step if it did before, or in that step. -/
theorem happened_snoc {s s' : σ} {as : List α} {a : α} {E : σ → α → Prop}
    (h : Reaches f s as s') : Happened f s (as ++ [a]) E ↔ Happened f s as E ∨ E s' a := by
  constructor
  · rintro ⟨pre, b, s₁, hpre, hs, hE⟩
    rcases List.prefix_concat_iff.mp hpre with heq | hpre
    · obtain ⟨rfl, rfl⟩ : pre = as ∧ b = a := by simpa using List.append_inj' heq rfl
      exact .inr (h.unique hs ▸ hE)
    · exact .inl ⟨pre, b, s₁, hpre, hs, hE⟩
  · rintro (⟨pre, b, s₁, hpre, hs, hE⟩ | hE)
    · exact ⟨pre, b, s₁, hpre.trans (List.prefix_append _ _), hs, hE⟩
    · exact ⟨as, a, s', List.prefix_refl _, h, hE⟩

theorem Happened.mono {s : σ} {as : List α} {E F : σ → α → Prop} (h : Happened f s as E)
    (hEF : ∀ s' a, E s' a → F s' a) : Happened f s as F := by
  obtain ⟨pre, a, s', hpre, hs, hE⟩ := h
  exact ⟨pre, a, s', hpre, hs, hEF s' a hE⟩

/-- **The induction rule.** `I` holds at the start, and each step that meets `C` keeps it. -/
theorem Reaches.invariant {s s' : σ} {as : List α} {C : List α → σ → α → Prop}
    {I : List α → σ → Prop} (h : Reaches f s as s') (hC : EveryStep f s as C) (h0 : I [] s)
    (hstep : ∀ pre s₁ a s₂ o, a ∈ as → Reaches f s pre s₁ → I pre s₁ → C pre s₁ a →
      f s₁ a = .ok (s₂, o) → I (pre ++ [a]) s₂) : I as s' := by
  induction as using List.reverseRecOn generalizing s' with
  | nil =>
    rw [reaches_nil] at h
    exact h ▸ h0
  | append_singleton as a ih =>
    obtain ⟨s₁, h₁, ha⟩ := reaches_append.mp h
    obtain ⟨o, ha⟩ := reaches_singleton.mp ha
    have hI : I as s₁ := ih h₁ (hC.restrict (List.prefix_append _ _))
      fun pre s₁ b s₂ o hb => hstep pre s₁ b s₂ o (List.mem_append_left _ hb)
    exact hstep as s₁ a s' o (by simp) h₁ hI (hC.last h₁ ha) ha

/-- An invariant that every step of the run keeps. -/
theorem Reaches.along {s s' : σ} {as : List α} {I : List α → σ → Prop} (h : Reaches f s as s')
    (h0 : I [] s) (hstep : ∀ pre s₁ a s₂ o, pre ++ [a] <+: as → Reaches f s pre s₁ → I pre s₁ →
      f s₁ a = .ok (s₂, o) → I (pre ++ [a]) s₂) : I as s' :=
  h.invariant (C := fun pre _ a => pre ++ [a] <+: as) (fun _ _ _ _ hpre _ _ => hpre) h0
    fun pre s₁ a s₂ o _ hs₁ hI hpre hf => hstep pre s₁ a s₂ o hpre hs₁ hI hf

/-- An invariant of the states alone. -/
theorem Reaches.keeps {s s' : σ} {as : List α} {I : σ → Prop} (h : Reaches f s as s') (h0 : I s)
    (hstep : ∀ s₁ a s₂ o, a ∈ as → I s₁ → f s₁ a = .ok (s₂, o) → I s₂) : I s' :=
  h.along (I := fun _ => I) h0 fun _ s₁ a s₂ o hpre _ hI hf =>
    hstep s₁ a s₂ o (hpre.subset (by simp)) hI hf

/-- Where no step from a state with the invariant is an error, every run goes to its end. -/
theorem exists_reaches {s : σ} {I : List α → σ → Prop} (h0 : I [] s)
    (hstep : ∀ pre s₁ a, I pre s₁ → ∃ s₂ o, f s₁ a = .ok (s₂, o) ∧ I (pre ++ [a]) s₂)
    (as : List α) : ∃ s', Reaches f s as s' ∧ I as s' := by
  induction as using List.reverseRecOn with
  | nil => exact ⟨s, reaches_nil.mpr rfl, h0⟩
  | append_singleton as a ih =>
    obtain ⟨s₁, h₁, hI⟩ := ih
    obtain ⟨s₂, o, ha, hI'⟩ := hstep as s₁ a hI
    exact ⟨s₂, h₁.snoc ha, hI'⟩

/-- An invariant that also sees the outputs of the run. -/
theorem run_invariant {s s' : σ} {as : List α} {o : List β} {I : List β → σ → Prop}
    (h : run f s as = .ok (s', o)) (h0 : I [] s)
    (hstep : ∀ os s₁ a s₂ o₁, a ∈ as → I os s₁ → f s₁ a = .ok (s₂, o₁) → I (os ++ o₁) s₂) :
    I o s' := by
  induction as using List.reverseRecOn generalizing s' o with
  | nil =>
    cases h
    exact h0
  | append_singleton as a ih =>
    obtain ⟨s₁, o₁, o₂, h₁, h₂, rfl⟩ := run_append_ok.mp h
    obtain ⟨s₂, o₃, o₄, h₃, h₄, rfl⟩ := run_cons_ok.mp h₂
    cases h₄
    rw [List.append_nil]
    have hI := ih h₁ fun os s₁ b s₂ o₁ hb => hstep os s₁ b s₂ o₁ (List.mem_append_left _ hb)
    exact hstep o₁ s₁ a s' o₃ (List.mem_append_right _ List.mem_cons_self) hI h₃

/-- **The exact rule**, for a run whose steps all meet `D`. From a state with the invariant `I`, a
step keeps `I` if it meets `C`, and if the state after it satisfies `P` then it did meet `C`. Then
`P` holds along the whole run exactly when every step meets `C`. -/
theorem everyState_iff_everyStep_of {s : σ} {as : List α} {C D : List α → σ → α → Prop}
    {I P : List α → σ → Prop} (hD : EveryStep f s as D) (h0 : I [] s)
    (hP : ∀ pre s', I pre s' → P pre s')
    (hstep : ∀ pre s₁ a s₂ o, a ∈ as → D pre s₁ a → Reaches f s pre s₁ → I pre s₁ → C pre s₁ a →
      f s₁ a = .ok (s₂, o) → I (pre ++ [a]) s₂)
    (hconv : ∀ pre s₁ a s₂ o, a ∈ as → D pre s₁ a → I pre s₁ → f s₁ a = .ok (s₂, o) →
      P (pre ++ [a]) s₂ → C pre s₁ a) :
    EveryState f s as P ↔ EveryStep f s as C := by
  -- Along a part of the run whose steps meet `C`, the invariant holds.
  have hI : ∀ pre s', pre <+: as → EveryStep f s pre C → Reaches f s pre s' → I pre s' := by
    intro pre s' hpre hC hs
    refine hs.invariant (hC.and (hD.restrict hpre)) h0 ?_
    rintro q s₁ a s₂ o ha hq hI ⟨hCa, hDa⟩ hf
    exact hstep q s₁ a s₂ o (hpre.subset ha) hDa hq hI hCa hf
  constructor
  · intro h
    -- Induction on the history: the steps before the last one meet `C`, so its state has `I`.
    have key : ∀ pre, pre <+: as → EveryStep f s pre C := by
      intro pre
      induction pre using List.reverseRecOn with
      | nil => exact fun _ => everyStep_nil
      | append_singleton pre a ih =>
        intro hpre
        have hlt := (List.prefix_append pre [a]).trans hpre
        refine everyStep_concat.mpr ⟨ih hlt, fun s₁ r hs ha => ?_⟩
        exact hconv pre s₁ a r.1 r.2 (hpre.subset (by simp)) (hD pre s₁ a r hpre hs ha)
          (hI pre s₁ hlt (ih hlt) hs) ha (h _ _ hpre (hs.snoc ha))
    exact key as (List.prefix_refl _)
  · intro h pre s' hpre hs
    exact hP pre s' (hI pre s' hpre (h.restrict hpre) hs)

/-- The exact rule for any run. -/
theorem everyState_iff_everyStep {s : σ} {as : List α} {C : List α → σ → α → Prop}
    {I P : List α → σ → Prop} (h0 : I [] s) (hP : ∀ pre s', I pre s' → P pre s')
    (hstep : ∀ pre s₁ a s₂ o, a ∈ as → I pre s₁ → C pre s₁ a → f s₁ a = .ok (s₂, o) →
      I (pre ++ [a]) s₂)
    (hconv : ∀ pre s₁ a s₂ o, a ∈ as → I pre s₁ → f s₁ a = .ok (s₂, o) → P (pre ++ [a]) s₂ →
      C pre s₁ a) :
    EveryState f s as P ↔ EveryStep f s as C :=
  everyState_iff_everyStep_of (D := fun _ _ _ => True) (fun _ _ _ _ _ _ _ => trivial) h0 hP
    (fun pre s₁ a s₂ o ha _ _ => hstep pre s₁ a s₂ o ha)
    fun pre s₁ a s₂ o ha _ => hconv pre s₁ a s₂ o ha

/-- `C` holds of the history, the state and the label before each step of the run, also before one
that ends it with an error. -/
def EveryTry (f : σ → α → Except ε (σ × List β)) (s : σ) (as : List α)
    (C : List α → σ → α → Prop) : Prop :=
  ∀ pre s' a, pre ++ [a] <+: as → Reaches f s pre s' → C pre s' a

theorem EveryTry.everyStep {s : σ} {as : List α} {C : List α → σ → α → Prop}
    (h : EveryTry f s as C) : EveryStep f s as C :=
  fun pre s' a _ hpre hs _ => h pre s' a hpre hs

/-- The induction rule along a run whose completed steps all meet `D`. -/
theorem EveryTry.invariant {s : σ} {as : List α} {C D : List α → σ → α → Prop}
    {I : List α → σ → Prop} (hC : EveryTry f s as C) (hD : EveryStep f s as D) (h0 : I [] s)
    (hstep : ∀ pre s₁ a s₂ o, D pre s₁ a → I pre s₁ → C pre s₁ a → f s₁ a = .ok (s₂, o) →
      I (pre ++ [a]) s₂) : EveryState f s as I := by
  intro pre s' hpre hs
  refine hs.invariant ((hC.everyStep.and hD).restrict hpre) h0 ?_
  rintro q s₁ a s₂ o - - hI ⟨hCa, hDa⟩ hf
  exact hstep q s₁ a s₂ o hDa hI hCa hf

/-- A history variable: `upd` at each completed step of the run along `as`, from the value `c`. -/
def history {γ : Type*} (f : σ → α → Except ε (σ × List β)) (upd : σ → α → σ → γ → γ) (s : σ) :
    List α → γ → γ
  | [], c => c
  | a :: as, c =>
    match f s a with
    | .error _ => c
    | .ok (s₁, _) => history f upd s₁ as (upd s a s₁ c)

/-- The last step of a run updates the history variable last. -/
theorem history_snoc {γ : Type*} {upd : σ → α → σ → γ → γ} {s s₁ s₂ : σ} {as : List α} {a : α}
    {o : List β} {c : γ} (h : Reaches f s as s₁) (ha : f s₁ a = .ok (s₂, o)) :
    history f upd s (as ++ [a]) c = upd s₁ a s₂ (history f upd s as c) := by
  induction as generalizing s c with
  | nil =>
    obtain rfl := reaches_nil.mp h
    simp only [List.nil_append, history, ha]
  | cons b as ih =>
    obtain ⟨p, hp⟩ := h
    obtain ⟨s₃, o₁, o₂, hb, hr, -⟩ := run_cons_ok.mp hp
    simp only [List.cons_append, history, hb]
    exact ih ⟨o₂, hr⟩

/-- A condition that sees a history variable, checked by evaluation. -/
def checkHistory {γ : Type*} (f : σ → α → Except ε (σ × List β)) (upd : σ → α → σ → γ → γ)
    (C : γ → σ → α → Bool) (s : σ) : List α → γ → Bool
  | [], _ => true
  | a :: as, c =>
    match f s a with
    | .error _ => true
    | .ok (s₁, _) => C c s a && checkHistory f upd C s₁ as (upd s a s₁ c)

theorem EveryStep.of_checkHistory {γ : Type*} {upd : σ → α → σ → γ → γ} {C : γ → σ → α → Prop}
    [∀ c s a, Decidable (C c s a)] {s : σ} {as : List α} {c : γ}
    (h : checkHistory f upd (fun c s a => decide (C c s a)) s as c = true) :
    EveryStep f s as fun pre s' a => C (history f upd s pre c) s' a := by
  intro pre s' b r hpre hs hb
  induction as generalizing s c pre with
  | nil => exact absurd hpre (by simp)
  | cons a as ih =>
    unfold checkHistory at h
    cases pre with
    | nil =>
      obtain rfl : b = a := by simpa using hpre
      obtain rfl := reaches_nil.mp hs
      simp only [hb, Bool.and_eq_true, decide_eq_true_eq] at h
      exact h.1
    | cons d pre =>
      obtain ⟨rfl, hpre'⟩ : d = a ∧ pre ++ [b] <+: as := by simpa using hpre
      obtain ⟨o, hs⟩ := hs
      obtain ⟨s₁, o₁, o₂, hd, hr, -⟩ := run_cons_ok.mp hs
      simp only [hd, Bool.and_eq_true, decide_eq_true_eq] at h
      have hC := ih h.2 pre hpre' ⟨o₂, hr⟩
      simpa only [history, hd] using hC

/-- Two conditions that agree where the invariant holds, and one of which keeps it. -/
theorem everyTry_iff {s : σ} {as : List α} {C D P : List α → σ → α → Prop}
    {I : List α → σ → Prop} (hD : EveryStep f s as D) (h0 : I [] s)
    (hstep : ∀ pre s₁ a s₂ o, D pre s₁ a → I pre s₁ → C pre s₁ a → f s₁ a = .ok (s₂, o) →
      I (pre ++ [a]) s₂)
    (hiff : ∀ pre s₁ a, I pre s₁ → (P pre s₁ a ↔ C pre s₁ a)) :
    EveryTry f s as P ↔ EveryTry f s as C := by
  constructor
  · intro h pre s' a hpre hs
    have hI := h.invariant hD h0 fun q s₁ b s₂ o hDb hI hP =>
      hstep q s₁ b s₂ o hDb hI ((hiff q s₁ b hI).mp hP)
    exact (hiff pre s' a (hI pre s' ((List.prefix_append _ _).trans hpre) hs)).mp
      (h pre s' a hpre hs)
  · intro h pre s' a hpre hs
    have hI := h.invariant hD h0 hstep
    exact (hiff pre s' a (hI pre s' ((List.prefix_append _ _).trans hpre) hs)).mpr
      (h pre s' a hpre hs)

/-- Labels with distinct keys: one with a given key comes after one prefix. -/
theorem concat_prefix_unique {κ : Type*} {key : α → Option κ} {as xs ys : List α} {a b : α} {k : κ}
    (hn : (as.filterMap key).Nodup) (hx : xs ++ [a] <+: as) (hy : ys ++ [b] <+: as)
    (ha : key a = some k) (hb : key b = some k) : xs = ys ∧ a = b := by
  -- The shorter one would have the key twice.
  have hno : ∀ {us vs : List α} {c d : α}, us ++ [c] <+: vs → vs ++ [d] <+: as →
      key c = some k → key d = some k → False := by
    intro us vs c d hu hv hc hd
    have hnv : ((vs ++ [d]).filterMap key).Nodup := hn.sublist (hv.sublist.filterMap _)
    rw [List.filterMap_append, List.filterMap_cons_some hd, List.filterMap_nil,
      List.nodup_append] at hnv
    have hmem : k ∈ vs.filterMap key :=
      List.mem_filterMap.mpr ⟨c, hu.subset (by simp), hc⟩
    exact hnv.2.2 k hmem k (by simp) rfl
  rcases List.prefix_or_prefix_of_prefix hx hy with h | h
  · rcases List.prefix_concat_iff.mp h with h | h
    · exact List.append_inj' h rfl |>.imp_right (List.singleton_injective ·)
    · exact (hno h hy ha hb).elim
  · rcases List.prefix_concat_iff.mp h with h | h
    · obtain ⟨hxy, hab⟩ := List.append_inj' h rfl
      exact ⟨hxy.symm, (List.singleton_injective hab).symm⟩
    · exact (hno h hx hb ha).elim

end Trace
