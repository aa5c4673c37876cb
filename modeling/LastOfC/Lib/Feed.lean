import LastOfC.Lib.Trace

/-!
# A machine that feeds another one

What the first machine puts out is what the second one is fed with, at once and in the same order.
The second machine also takes labels of its own, at any time. Nothing here depends on what the
machines are.

* `out` and `fed`: what an output of the first machine feeds, and what a label of the second is fed
  with.
* `step`: a step of the first machine with the labels that the second takes for its outputs, or a
  label of the second one.
* `run_split`: a run of both is a run of each, and the second one is fed with all that the first put
  out, in order.
-/

namespace Feed

open Trace

variable {σ τ α β γ δ ε ε' μ : Type*}

section Step

variable [DecidableEq μ]

/-- One step. There is no error of its own: a step happens or does not. -/
def step (f : σ → α → Except ε (σ × List β)) (g : τ → γ → Except ε' (τ × List δ))
    (out : β → Option μ) (fed : γ → Option μ) (s : σ × τ) :
    (α × List γ) ⊕ γ → Except Unit ((σ × τ) × List (β ⊕ δ))
  | .inl (a, cs) =>
    match f s.1 a with
    | .error _ => .error ()
    | .ok (s₁, bs) =>
      if cs.map fed = (bs.filterMap out).map some then
        match run g s.2 cs with
        | .error _ => .error ()
        | .ok (t₁, ds) => .ok ((s₁, t₁), bs.map .inl ++ ds.map .inr)
      else .error ()
  | .inr c =>
    match fed c, g s.2 c with
    | none, .ok (t₁, ds) => .ok ((s.1, t₁), ds.map .inr)
    | _, _ => .error ()

end Step

/-- The labels of the first machine. -/
def producer (ls : List ((α × List γ) ⊕ γ)) : List α :=
  ls.filterMap fun l => l.getLeft?.map Prod.fst

/-- The labels of the second machine. -/
def consumer (ls : List ((α × List γ) ⊕ γ)) : List γ :=
  ls.flatMap (Sum.elim Prod.snd ([·]))

variable {f : σ → α → Except ε (σ × List β)} {g : τ → γ → Except ε' (τ × List δ)}
  {out : β → Option μ} {fed : γ → Option μ} {s s' : σ} {t t' : τ} {o : List (β ⊕ δ)}

theorem filterMap_of_map {cs : List γ} {ms : List μ} (h : cs.map fed = ms.map some) :
    cs.filterMap fed = ms := by
  have hfed : cs.filterMap fed = (cs.map fed).filterMap id := by
    rw [List.filterMap_map]
    rfl
  rw [hfed, h, List.filterMap_map]
  exact List.filterMap_some

variable [DecidableEq μ]

/-- **One step is one of each machine.** -/
theorem step_ok {l : (α × List γ) ⊕ γ} (h : step f g out fed (s, t) l = .ok ((s', t'), o)) :
    run f s (producer [l]) = .ok (s', o.filterMap Sum.getLeft?) ∧
      run g t (consumer [l]) = .ok (t', o.filterMap Sum.getRight?) ∧
      (consumer [l]).filterMap fed = (o.filterMap Sum.getLeft?).filterMap out := by
  have hizq (bs : List β) (ds : List δ) :
      (bs.map .inl ++ ds.map .inr : List (β ⊕ δ)).filterMap Sum.getLeft? = bs := by
    simp [List.filterMap_append, List.filterMap_map, Function.comp_def]
  have hder (bs : List β) (ds : List δ) :
      (bs.map .inl ++ ds.map .inr : List (β ⊕ δ)).filterMap Sum.getRight? = ds := by
    simp [List.filterMap_append, List.filterMap_map, Function.comp_def]
  cases l with
  | inl l =>
    obtain ⟨a, cs⟩ := l
    unfold step at h
    dsimp only at h
    split at h
    · cases h
    · rename_i s₁ bs hf
      split_ifs at h with hcs
      split at h
      · cases h
      · rename_i t₁ ds hg
        cases h
        have hcons : consumer [(.inl (a, cs) : (α × List γ) ⊕ γ)] = cs := List.append_nil cs
        rw [hizq, hder, hcons]
        exact ⟨run_cons_ok.mpr ⟨_, bs, [], hf, rfl, (List.append_nil bs).symm⟩, hg,
          filterMap_of_map hcs⟩
  | inr c =>
    unfold step at h
    dsimp only at h
    split at h
    · rename_i t₁ ds hfed hg
      cases h
      have hizq₀ := hizq [] ds
      have hder₀ := hder [] ds
      rw [List.map_nil, List.nil_append] at hizq₀ hder₀
      rw [hizq₀, hder₀]
      refine ⟨rfl, run_cons_ok.mpr ⟨_, ds, [], hg, rfl, (List.append_nil ds).symm⟩, ?_⟩
      show List.filterMap fed [c] = []
      rw [List.filterMap_cons, hfed]
      rfl
    · cases h

/-- **A run of both machines is one of each.** -/
theorem run_split {ls : List ((α × List γ) ⊕ γ)}
    (h : run (step f g out fed) (s, t) ls = .ok ((s', t'), o)) :
    run f s (producer ls) = .ok (s', o.filterMap Sum.getLeft?) ∧
      run g t (consumer ls) = .ok (t', o.filterMap Sum.getRight?) ∧
      (consumer ls).filterMap fed = (o.filterMap Sum.getLeft?).filterMap out := by
  induction ls generalizing s t o with
  | nil =>
    cases h
    exact ⟨rfl, rfl, rfl⟩
  | cons l ls ih =>
    obtain ⟨⟨s₁, t₁⟩, o₁, o₂, hl, hls, rfl⟩ := run_cons_ok.mp h
    obtain ⟨hf, hg, hfed⟩ := step_ok hl
    obtain ⟨hf', hg', hfed'⟩ := ih hls
    have hprod : producer (l :: ls) = producer [l] ++ producer ls := by
      unfold producer
      rw [← List.filterMap_append, List.singleton_append]
    have hcons : consumer (l :: ls) = consumer [l] ++ consumer ls := by
      unfold consumer
      rw [← List.flatMap_append, List.singleton_append]
    simp only [hprod, hcons, List.filterMap_append]
    exact ⟨run_append_ok.mpr ⟨s₁, _, _, hf, hf', rfl⟩, run_append_ok.mpr ⟨t₁, _, _, hg, hg', rfl⟩,
      congrArg₂ _ hfed hfed'⟩

end Feed
