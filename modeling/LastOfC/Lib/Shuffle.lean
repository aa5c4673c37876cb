import LastOfC.Lib.Trace

/-!
# Two agents of one machine

The labels of a run come from two agents, each of which gives its own in order. Nothing here depends
on what the states, labels and outputs are.

* `Shuffle as bs cs`: `cs` is `as` and `bs`, one between the other.
* `Swaps f a b`: `a` and then `b` can also be taken the other way round, with the same outputs of
  each and the same state after both.
* `run_of_shuffle` and `run_shuffle`: where the labels of one agent swap with those of the other, a
  run along `cs` is one along `as` and then one along `bs`, and back. `run_shuffle_congr`: so all
  orders lead to the same state, and each agent sees the same outputs.
-/

namespace Trace

variable {σ α β ε : Type*} {f : σ → α → Except ε (σ × List β)}

/-- The elements of `cs` are those of `as` and those of `bs`, each in their order. -/
inductive Shuffle : List α → List α → List α → Prop where
  | nil : Shuffle [] [] []
  | left {a : α} {as bs cs : List α} (h : Shuffle as bs cs) : Shuffle (a :: as) bs (a :: cs)
  | right {b : α} {as bs cs : List α} (h : Shuffle as bs cs) : Shuffle as (b :: bs) (b :: cs)

namespace Shuffle

variable {as bs cs as' bs' cs' : List α}

theorem append (h : Shuffle as bs cs) (h' : Shuffle as' bs' cs') :
    Shuffle (as ++ as') (bs ++ bs') (cs ++ cs') := by
  induction h with
  | nil => exact h'
  | left _ ih => exact ih.left
  | right _ ih => exact ih.right

theorem only_left (as : List α) : Shuffle as [] as := by
  induction as with
  | nil => exact .nil
  | cons a as ih => exact ih.left

theorem only_right (bs : List α) : Shuffle [] bs bs := by
  induction bs with
  | nil => exact .nil
  | cons b bs ih => exact ih.right

/-- What belongs to the first agent, taken out again. -/
theorem filter_left {p : α → Bool} (h : Shuffle as bs cs) (has : ∀ a ∈ as, p a = true)
    (hbs : ∀ b ∈ bs, p b = false) : cs.filter p = as := by
  induction h with
  | nil => rfl
  | left _ ih =>
    rw [List.filter_cons_of_pos (has _ List.mem_cons_self),
      ih (fun a ha => has a (List.mem_cons_of_mem _ ha)) hbs]
  | right _ ih =>
    rw [List.filter_cons_of_neg (by simp [hbs _ List.mem_cons_self]),
      ih has fun b hb => hbs b (List.mem_cons_of_mem _ hb)]

theorem symm (h : Shuffle as bs cs) : Shuffle bs as cs := by
  induction h with
  | nil => exact .nil
  | left _ ih => exact ih.right
  | right _ ih => exact ih.left

end Shuffle

/-- `a` and then `b` is also `b` and then `a`, from every state. -/
def Swaps (f : σ → α → Except ε (σ × List β)) (a b : α) : Prop :=
  ∀ s s₁ s₂ oa ob, f s a = .ok (s₁, oa) → f s₁ b = .ok (s₂, ob) →
    ∃ s₁', f s b = .ok (s₁', ob) ∧ f s₁' a = .ok (s₂, oa)

section Runs

variable {s s₁ s' : σ} {as bs cs ds : List α} {a b : α} {oa ob o : List β}

/-- A step goes behind the steps that it swaps with. -/
theorem run_after (hswap : ∀ a ∈ as, Swaps f b a) (hb : f s b = .ok (s₁, ob))
    (h : run f s₁ as = .ok (s', oa)) :
    ∃ s₂, run f s as = .ok (s₂, oa) ∧ f s₂ b = .ok (s', ob) := by
  induction as generalizing s s₁ oa with
  | nil =>
    cases h
    exact ⟨s, rfl, hb⟩
  | cons a as ih =>
    obtain ⟨s₂, o₁, o₂, ha, hr, rfl⟩ := run_cons_ok.mp h
    obtain ⟨s₃, ha', hb'⟩ := hswap a List.mem_cons_self s s₁ s₂ ob o₁ hb ha
    obtain ⟨s₄, hrun, hlast⟩ := ih (fun a ha => hswap a (List.mem_cons_of_mem _ ha)) hb' hr
    exact ⟨s₄, run_cons_ok.mpr ⟨s₃, o₁, o₂, ha', hrun, rfl⟩, hlast⟩

/-- A step goes before the steps that swap with it. -/
theorem run_before (hswap : ∀ a ∈ as, Swaps f a b) (h : run f s as = .ok (s₁, oa))
    (hb : f s₁ b = .ok (s', ob)) :
    ∃ s₂, f s b = .ok (s₂, ob) ∧ run f s₂ as = .ok (s', oa) := by
  induction as generalizing s oa with
  | nil =>
    cases h
    exact ⟨s', hb, rfl⟩
  | cons a as ih =>
    obtain ⟨s₂, o₁, o₂, ha, hr, rfl⟩ := run_cons_ok.mp h
    obtain ⟨s₃, hb', hrun⟩ := ih (fun a ha => hswap a (List.mem_cons_of_mem _ ha)) hr
    obtain ⟨s₄, hb'', ha'⟩ := hswap a List.mem_cons_self s s₂ s₃ o₁ ob ha hb'
    exact ⟨s₄, hb'', run_cons_ok.mpr ⟨s₃, o₁, o₂, ha', hrun, rfl⟩⟩

/-- One agent after the other. -/
theorem run_of_shuffle (hc : Shuffle as bs cs) (hswap : ∀ a ∈ as, ∀ b ∈ bs, Swaps f b a)
    (h : run f s cs = .ok (s', o)) :
    ∃ s₁ oa ob, run f s as = .ok (s₁, oa) ∧ run f s₁ bs = .ok (s', ob) ∧ Shuffle oa ob o := by
  induction hc generalizing s o with
  | nil =>
    cases h
    exact ⟨_, [], [], rfl, rfl, .nil⟩
  | @left a as bs cs _ ih =>
    obtain ⟨s₁, o₁, o₂, ha, hr, rfl⟩ := run_cons_ok.mp h
    obtain ⟨s₂, oa, ob, h₁, h₂, ho⟩ := ih (fun a ha => hswap a (List.mem_cons_of_mem _ ha)) hr
    exact ⟨s₂, o₁ ++ oa, ob, run_cons_ok.mpr ⟨s₁, o₁, oa, ha, h₁, rfl⟩, h₂,
      (Shuffle.only_left o₁).append ho⟩
  | @right b as bs cs _ ih =>
    obtain ⟨s₁, o₁, o₂, hb, hr, rfl⟩ := run_cons_ok.mp h
    obtain ⟨s₂, oa, ob, h₁, h₂, ho⟩ :=
      ih (fun a ha c hc => hswap a ha c (List.mem_cons_of_mem _ hc)) hr
    -- The first step of the second agent goes behind all those of the first one.
    obtain ⟨s₃, h₁, hb⟩ := run_after (fun a ha => hswap a ha b List.mem_cons_self) hb h₁
    exact ⟨s₃, oa, o₁ ++ ob, h₁, run_cons_ok.mpr ⟨s₂, o₁, ob, hb, h₂, rfl⟩,
      (Shuffle.only_right o₁).append ho⟩

/-- One agent between the steps of the other. -/
theorem run_shuffle (hc : Shuffle as bs cs) (hswap : ∀ a ∈ as, ∀ b ∈ bs, Swaps f a b)
    (ha : run f s as = .ok (s₁, oa)) (hb : run f s₁ bs = .ok (s', ob)) :
    ∃ o, run f s cs = .ok (s', o) ∧ Shuffle oa ob o := by
  induction hc generalizing s s₁ oa ob with
  | nil =>
    cases ha
    cases hb
    exact ⟨[], rfl, .nil⟩
  | @left a as bs cs _ ih =>
    obtain ⟨s₂, o₁, o₂, h₁, hr, rfl⟩ := run_cons_ok.mp ha
    obtain ⟨o, h, ho⟩ := ih (fun a ha => hswap a (List.mem_cons_of_mem _ ha)) hr hb
    exact ⟨o₁ ++ o, run_cons_ok.mpr ⟨s₂, o₁, o, h₁, h, rfl⟩, (Shuffle.only_left o₁).append ho⟩
  | @right b as bs cs _ ih =>
    obtain ⟨s₂, o₁, o₂, h₁, hr, rfl⟩ := run_cons_ok.mp hb
    -- The first step of the second agent goes before all those of the first one.
    obtain ⟨s₃, h₁, ha'⟩ := run_before (fun a ha => hswap a ha b List.mem_cons_self) ha h₁
    obtain ⟨o, h, ho⟩ := ih (fun a ha c hc => hswap a ha c (List.mem_cons_of_mem _ hc)) ha' hr
    exact ⟨o₁ ++ o, run_cons_ok.mpr ⟨s₃, o₁, o, h₁, h, rfl⟩, (Shuffle.only_right o₁).append ho⟩

/-- **Confluence.** Two orders of the same labels of two agents: if one run goes to its end then so
does the other, with the same last state, and each agent sees the same outputs. -/
theorem run_shuffle_congr (hc : Shuffle as bs cs) (hd : Shuffle as bs ds)
    (hswap : ∀ a ∈ as, ∀ b ∈ bs, Swaps f a b ∧ Swaps f b a) (h : run f s cs = .ok (s', o)) :
    ∃ s₁ oa ob o', run f s as = .ok (s₁, oa) ∧ run f s₁ bs = .ok (s', ob) ∧ Shuffle oa ob o ∧
      run f s ds = .ok (s', o') ∧ Shuffle oa ob o' := by
  obtain ⟨s₁, oa, ob, h₁, h₂, ho⟩ := run_of_shuffle hc (fun a ha b hb => (hswap a ha b hb).2) h
  obtain ⟨o', h', ho'⟩ := run_shuffle hd (fun a ha b hb => (hswap a ha b hb).1) h₁ h₂
  exact ⟨s₁, oa, ob, o', h₁, h₂, ho, h', ho'⟩

end Runs

end Trace
