import Mathlib.Data.List.Basic

/-!
# Imperative programs with errors

`EStateM ε σ α` is a program over global variables `σ` that returns an `α` or stops with an error,
and in both cases leaves a state. Nothing here depends on what the variables and errors are.

* The `_ok` lemmas take apart a run that returned: `bind_ok` at a `;`, and one lemma for each
  primitive. A proof about a program cites the `_ok` lemma of each callee and unfolds no callee.
* `each`: a loop over the elements of a list. `each_ok` is its invariant rule.
* `Triple P x Q E`: from a state with `P`, the program `x` returns in a state with `Q`, or stops in
  a state with `E`. The rules are those of a Hoare logic with an exceptional postcondition.
* `Keeps I x`: the triple of an invariant, also where `x` stops. `final x s` is the state where the
  run of `x` ends.
-/

namespace Imp

variable {ε σ α β : Type}

/-- The loop `for b in bs { f b }`. -/
def each (f : β → EStateM ε σ Unit) : List β → EStateM ε σ Unit
  | [] => pure ()
  | b :: bs => do
    f b
    each f bs

/-! ## Runs that return -/

section Ok

variable {s s' : σ}

/-- A sequence returns if its first part does, and then its second. -/
theorem bind_ok {x : EStateM ε σ α} {f : α → EStateM ε σ β} {b : β} :
    (x >>= f).run s = .ok b s' ↔ ∃ a s₁, x.run s = .ok a s₁ ∧ (f a).run s₁ = .ok b s' := by
  show (match x.run s with
    | .ok a s₁ => (f a).run s₁
    | .error e s₁ => .error e s₁) = .ok b s' ↔ _
  cases hx : x.run s with
  | ok a s₁ =>
    constructor
    · intro h
      exact ⟨a, s₁, rfl, h⟩
    · rintro ⟨a', s₂, h, h'⟩
      cases h
      exact h'
  | error e s₁ =>
    constructor
    · intro h
      cases h
    · rintro ⟨a, s₂, h, -⟩
      cases h

/-- A sequence after a first part that returned. -/
theorem bind_run {x : EStateM ε σ α} {f : α → EStateM ε σ β} {a : α} (h : x.run s = .ok a s') :
    (x >>= f).run s = (f a).run s' := by
  show (match x.run s with
    | .ok a s₁ => (f a).run s₁
    | .error e s₁ => .error e s₁) = _
  rw [h]

theorem exists_bind_run {x : EStateM ε σ α} {f : α → EStateM ε σ β} {a : α} {b : β}
    (h : x.run s = .ok a s') (hf : ∃ t, (f a).run s' = .ok b t) :
    ∃ t, (x >>= f).run s = .ok b t := by
  rw [bind_run h]
  exact hf

/-- A sequence whose first part stops. -/
theorem bind_error {x : EStateM ε σ α} {f : α → EStateM ε σ β} {e : ε}
    (h : x.run s = .error e s') : (x >>= f).run s = .error e s' := by
  show (match x.run s with
    | .ok a s₁ => (f a).run s₁
    | .error e s₁ => .error e s₁) = _
  rw [h]

/-- A sequence whose first part runs as another program does. -/
theorem bind_congr_run {x y : EStateM ε σ α} {f : α → EStateM ε σ β} (h : x.run s = y.run s) :
    (x >>= f).run s = (y >>= f).run s := by
  cases hy : y.run s with
  | ok a s' => rw [bind_run hy, bind_run (h.trans hy)]
  | error e s' => rw [bind_error hy, bind_error (h.trans hy)]

@[simp] theorem pure_ok {a b : α} :
    (pure a : EStateM ε σ α).run s = .ok b s' ↔ a = b ∧ s = s' := by
  show EStateM.Result.ok a s = .ok b s' ↔ _
  rw [EStateM.Result.ok.injEq]

@[simp] theorem get_ok {s₁ : σ} :
    (get : EStateM ε σ σ).run s = .ok s₁ s' ↔ s = s₁ ∧ s = s' :=
  pure_ok

@[simp] theorem modify_ok {f : σ → σ} {u : Unit} :
    (modify f : EStateM ε σ Unit).run s = .ok u s' ↔ f s = s' := by
  show EStateM.Result.ok () (f s) = .ok u s' ↔ _
  rw [EStateM.Result.ok.injEq]
  exact ⟨fun h => h.2, fun h => ⟨rfl, h⟩⟩

theorem modify_run (f : σ → σ) : (modify f : EStateM ε σ Unit).run s = .ok () (f s) := rfl

@[simp] theorem throw_ok {e : ε} {a : α} : ¬ (throw e : EStateM ε σ α).run s = .ok a s' := by
  intro h
  cases h

/-- A conditional returns if the branch taken does. -/
theorem ite_ok {c : Prop} [Decidable c] {x y : EStateM ε σ α} {a : α} :
    (if c then x else y).run s = .ok a s' ↔
      (c ∧ x.run s = .ok a s') ∨ (¬ c ∧ y.run s = .ok a s') := by
  by_cases h : c
  · simp only [h, if_true, true_and, not_true, false_and, or_false]
  · simp only [h, if_false, false_and, not_false_iff, true_and, false_or]

/-- A loop that returned: `I rest` holds when the elements `rest` are left. -/
theorem each_ok {f : β → EStateM ε σ Unit} {I : List β → σ → Prop} {bs : List β} {u : Unit}
    (h : (each f bs).run s = .ok u s') (h0 : I bs s)
    (hstep : ∀ b rest s₁ s₂, b ∈ bs → I (b :: rest) s₁ → (f b).run s₁ = .ok () s₂ → I rest s₂) :
    I [] s' := by
  induction bs generalizing s with
  | nil =>
    obtain ⟨-, rfl⟩ := pure_ok.mp h
    exact h0
  | cons b rest ih =>
    obtain ⟨v, s₁, hb, hrest⟩ := bind_ok.mp h
    exact ih hrest (hstep b rest s s₁ List.mem_cons_self h0 hb)
      fun c rest' s₂ s₃ hc => hstep c rest' s₂ s₃ (List.mem_cons_of_mem _ hc)

end Ok

/-! ## Triples -/

/-- From a state with `P`, `x` returns in a state with `Q` or stops in a state with `E`. -/
def Triple (P : σ → Prop) (x : EStateM ε σ α) (Q : α → σ → Prop) (E : ε → σ → Prop) : Prop :=
  ∀ s, P s →
    match x.run s with
    | .ok a s' => Q a s'
    | .error e s' => E e s'

namespace Triple

variable {P : σ → Prop} {Q : α → σ → Prop} {E : ε → σ → Prop}

theorem pure {a : α} (h : ∀ s, P s → Q a s) : Triple P (pure a : EStateM ε σ α) Q E :=
  fun s hs => h s hs

theorem throw {e : ε} (h : ∀ s, P s → E e s) : Triple P (throw e : EStateM ε σ α) Q E :=
  fun s hs => h s hs

theorem modify {f : σ → σ} {R : Unit → σ → Prop} (h : ∀ s, P s → R () (f s)) :
    Triple P (modify f : EStateM ε σ Unit) R E :=
  fun s hs => h s hs

theorem bind {x : EStateM ε σ α} {f : α → EStateM ε σ β} {R : β → σ → Prop}
    (hx : Triple P x Q E) (hf : ∀ a, Triple (Q a) (f a) R E) : Triple P (x >>= f) R E := by
  intro s hs
  have h := hx s hs
  show match (match x.run s with
    | .ok a s₁ => (f a).run s₁
    | .error e s₁ => .error e s₁) with
    | .ok b s' => R b s'
    | .error e s' => E e s'
  cases hxs : x.run s with
  | ok a s₁ =>
    rw [hxs] at h
    exact hf a s₁ h
  | error e s₁ =>
    rw [hxs] at h
    exact h

/-- Each branch, under its condition. -/
theorem ite {c : Prop} [Decidable c] {x y : EStateM ε σ α} (hx : c → Triple P x Q E)
    (hy : ¬ c → Triple P y Q E) : Triple P (if c then x else y) Q E := by
  by_cases h : c
  · rw [if_pos h]
    exact hx h
  · rw [if_neg h]
    exact hy h

/-- A read of the variables: the rest of the program is run in the state it read. -/
theorem get_bind {f : σ → EStateM ε σ β} {R : β → σ → Prop}
    (h : ∀ s, P s → Triple (fun s' => s' = s) (f s) R E) :
    Triple P ((get : EStateM ε σ σ) >>= f) R E :=
  fun s hs => h s hs s rfl

theorem weaken {P' : σ → Prop} {Q' : α → σ → Prop} {E' : ε → σ → Prop} {x : EStateM ε σ α}
    (h : Triple P x Q E) (hP : ∀ s, P' s → P s) (hQ : ∀ a s, Q a s → Q' a s)
    (hE : ∀ e s, E e s → E' e s) : Triple P' x Q' E' := by
  intro s hs
  have hr := h s (hP s hs)
  cases hx : x.run s with
  | ok a s' =>
    rw [hx] at hr
    exact hQ a s' hr
  | error e s' =>
    rw [hx] at hr
    exact hE e s' hr

/-- The postcondition of a run that returned. -/
theorem of_ok {x : EStateM ε σ α} (h : Triple P x Q E) {a : α} {s s' : σ} (hs : P s)
    (hr : x.run s = .ok a s') : Q a s' := by
  have hq := h s hs
  rw [hr] at hq
  exact hq

/-- An invariant of the body is an invariant of the loop. -/
theorem each {f : β → EStateM ε σ Unit} {I : σ → Prop} {bs : List β}
    (h : ∀ b ∈ bs, Triple I (f b) (fun _ => I) E) : Triple I (Imp.each f bs) (fun _ => I) E := by
  induction bs with
  | nil => exact Triple.pure fun s hs => hs
  | cons b rest ih =>
    exact Triple.bind (h b List.mem_cons_self) fun _ =>
      ih fun c hc => h c (List.mem_cons_of_mem _ hc)

end Triple

/-! ## Invariants of programs -/

/-- `x` keeps `I`, whether it returns or stops. -/
def Keeps (I : σ → Prop) (x : EStateM ε σ α) : Prop := Triple I x (fun _ => I) fun _ => I

namespace Keeps

variable {I : σ → Prop}

theorem pure (a : α) : Keeps I (pure a : EStateM ε σ α) := Triple.pure fun _ h => h

theorem throw (e : ε) : Keeps I (throw e : EStateM ε σ α) := Triple.throw fun _ h => h

theorem get : Keeps I (get : EStateM ε σ σ) := fun _ h => h

theorem modify {f : σ → σ} (h : ∀ s, I s → I (f s)) : Keeps I (modify f : EStateM ε σ Unit) :=
  Triple.modify h

theorem bind {x : EStateM ε σ α} {f : α → EStateM ε σ β} (hx : Keeps I x)
    (hf : ∀ a, Keeps I (f a)) : Keeps I (x >>= f) :=
  Triple.bind hx hf

theorem ite {c : Prop} [Decidable c] {x y : EStateM ε σ α} (hx : Keeps I x) (hy : Keeps I y) :
    Keeps I (if c then x else y) :=
  Triple.ite (fun _ => hx) fun _ => hy

theorem each {f : β → EStateM ε σ Unit} {bs : List β} (h : ∀ b ∈ bs, Keeps I (f b)) :
    Keeps I (Imp.each f bs) :=
  Triple.each h

end Keeps

/-- The variables where the run of `x` ends, by a return or not. -/
def final (x : EStateM ε σ α) (s : σ) : σ :=
  match x.run s with
  | .ok _ s' => s'
  | .error _ s' => s'

theorem final_of_ok {x : EStateM ε σ α} {a : α} {s s' : σ} (h : x.run s = .ok a s') :
    final x s = s' := by
  unfold final
  rw [h]

theorem final_of_error {x : EStateM ε σ α} {e : ε} {s s' : σ} (h : x.run s = .error e s') :
    final x s = s' := by
  unfold final
  rw [h]

/-- A sequence ends where its second part does, if its first part returned. -/
theorem final_bind {x : EStateM ε σ α} {f : α → EStateM ε σ β} {a : α} {s s' : σ}
    (h : x.run s = .ok a s') : final (x >>= f) s = final (f a) s' := by
  unfold final
  rw [bind_run h]

/-- A sequence ends where its first part stopped. -/
theorem final_bind_error {x : EStateM ε σ α} {f : α → EStateM ε σ β} {e : ε} {s s' : σ}
    (h : x.run s = .error e s') : final (x >>= f) s = s' :=
  final_of_error (bind_error h)

theorem Triple.final {P R : σ → Prop} {x : EStateM ε σ α} (h : Triple P x (fun _ => R) fun _ => R)
    {s : σ} (hs : P s) : R (final x s) := by
  have hr := h s hs
  unfold Imp.final
  cases hx : x.run s with
  | ok a s' =>
    rw [hx] at hr
    exact hr
  | error e s' =>
    rw [hx] at hr
    exact hr

/-- Where `x` does not return, only the exceptional postcondition is needed. -/
theorem Triple.final_of_stop {P R : σ → Prop} {Q : α → σ → Prop} {x : EStateM ε σ α}
    (h : Triple P x Q fun _ => R) {s : σ} (hs : P s) (hno : ∀ a s', x.run s ≠ .ok a s') :
    R (Imp.final x s) := by
  have hr := h s hs
  unfold Imp.final
  cases hx : x.run s with
  | ok a s' => exact absurd hx (hno a s')
  | error e s' =>
    rw [hx] at hr
    exact hr

theorem Keeps.final {I : σ → Prop} {x : EStateM ε σ α} (h : Keeps I x) {s : σ} (hs : I s) :
    I (final x s) :=
  Triple.final h hs

/-- `I` holds where a sequence ends if it holds where the first part ends, and the rest keeps it. -/
theorem Keeps.final_bind {I : σ → Prop} {x : EStateM ε σ α} {f : α → EStateM ε σ β}
    (hf : ∀ a, Keeps I (f a)) {s : σ} (hx : I (Imp.final x s)) : I (Imp.final (x >>= f) s) := by
  cases hr : x.run s with
  | ok a s' =>
    rw [final_of_ok hr] at hx
    rw [Imp.final_bind hr]
    exact (hf a).final hx
  | error e s' =>
    rw [final_of_error hr] at hx
    rw [final_bind_error hr]
    exact hx

end Imp
