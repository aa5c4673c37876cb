import Mathlib.Data.List.Forall2
import Mathlib.Logic.Function.Basic
import LastOfC.Lib.Trace

/-!
# A machine that takes its labels from connections

The labels of a machine come over connections, as bytes: who sends a message writes its bytes, some
of them arrive at a time, and the machine decodes the first message of those that have arrived.
Nothing here depends on what the states, labels, messages and bytes are.

* `Format`: how messages are written and read, and what they mean. `Format.Lawful`: a message is
  read back, whatever the two sides find in memory and whatever comes after it, and what can be
  read stays so when more bytes arrive.
* `Net` and `step`: the machine with its connections. `Event` is what can happen next.
* `Carries`: the bytes of a connection are these labels, one after the other.
* `run_sound`: a run of the net is a run of the machine, with the labels of each connection in the
  order they were sent. None is lost, made up, or taken twice. `run_complete`: each such run of the
  machine is one of the net, after `run_sends`.
-/

namespace Wire

open Trace

variable {σ α β ε ι μ τ γ κ ω : Type*}

/-- How the messages `μ` are written as bytes `τ` on the connections `ι`, where `γ` and `κ` are what
the two sides find in memory, and the labels `ω` that come over no connection. -/
structure Format (ι μ τ γ κ ω α : Type*) where
  encode : ι → γ → μ → Option (List τ)
  /-- The first message and the bytes after it, or none if it waits. -/
  decode : ι → κ → List τ → Option (α × List τ)
  meaning : μ → α
  own : ω → α

structure Format.Lawful (F : Format ι μ τ γ κ ω α) : Prop where
  decode_nil (i : ι) (k : κ) : F.decode i k [] = none
  decode_append {i : ι} {k : κ} {bytes rest : List τ} {a : α}
    (h : F.decode i k bytes = some (a, rest)) (more : List τ) :
    F.decode i k (bytes ++ more) = some (a, rest ++ more)
  decode_encode {i : ι} {g : γ} {m : μ} {bytes : List τ} (h : F.encode i g m = some bytes) (k : κ)
    (rest : List τ) : F.decode i k (bytes ++ rest) = some (F.meaning m, rest)

/-! ## The net -/

/-- The bytes of a connection that were not read: those that have arrived come first. -/
structure Chan (τ : Type*) where
  arrived : List τ
  sent : List τ

structure Net (σ ι τ : Type*) where
  state : σ
  chans : ι → Chan τ

/-- What happens next. -/
inductive Event (ι μ γ κ ω : Type*) where
  /-- The machine takes a label that comes over no connection. -/
  | own (w : ω)
  | send (i : ι) (g : γ) (m : μ)
  /-- Up to `n` more bytes arrive. -/
  | arrive (i : ι) (n : Nat)
  /-- The machine takes a label from the connection. -/
  | take (i : ι) (k : κ)

/-- Where the label comes from, if the machine takes one. -/
def Event.agent : Event ι μ γ κ ω → Option (ω ⊕ ι)
  | .own w => some (.inl w)
  | .take i _ => some (.inr i)
  | .send _ _ _ | .arrive _ _ => none

/-- The label of the machine, for one that it took. -/
def Format.label (F : Format ι μ τ γ κ ω α) : ω ⊕ ι × α → α := Sum.elim F.own Prod.snd

section Step

variable [DecidableEq ι]

/-- The meaning of what is sent on the connection `i`. -/
def Event.sentOn (F : Format ι μ τ γ κ ω α) (i : ι) : Event ι μ γ κ ω → Option α
  | .send j _ m => if j = i then some (F.meaning m) else none
  | _ => none

/-- Another contents of the connection `i`. -/
def Net.withChan (n : Net σ ι τ) (i : ι) (c : Chan τ) : Net σ ι τ :=
  { n with chans := Function.update n.chans i c }

/-- One step of the net. The error is that of the machine, or none if the event cannot happen. -/
def step (f : σ → α → Except ε (σ × List β)) (F : Format ι μ τ γ κ ω α) (n : Net σ ι τ) :
    Event ι μ γ κ ω → Except (Option ε) (Net σ ι τ × List β)
  | .own w =>
    match f n.state (F.own w) with
    | .ok (s, o) => .ok ({ n with state := s }, o)
    | .error e => .error (some e)
  | .send i g m =>
    match F.encode i g m with
    | some bytes => .ok (n.withChan i { n.chans i with sent := (n.chans i).sent ++ bytes }, [])
    | none => .error none
  | .arrive i k =>
    .ok (n.withChan i
      { arrived := (n.chans i).arrived ++ (n.chans i).sent.take k
        sent := (n.chans i).sent.drop k }, [])
  | .take i k =>
    match F.decode i k (n.chans i).arrived with
    | none => .error none
    | some (a, rest) =>
      match f n.state a with
      | .ok (s, o) => .ok ({ n.withChan i { n.chans i with arrived := rest } with state := s }, o)
      | .error e => .error (some e)

end Step

/-! ## What a connection carries -/

/-- The bytes of the connection are those of the labels `as`, in order. -/
def Carries (F : Format ι μ τ γ κ ω α) (i : ι) (c : Chan τ) (as : List α) : Prop :=
  ∃ chunks : List (List τ), c.arrived ++ c.sent = chunks.flatten ∧
    List.Forall₂ (fun chunk a => ∀ k rest, F.decode i k (chunk ++ rest) = some (a, rest)) chunks as

namespace Carries

variable {F : Format ι μ τ γ κ ω α} {i : ι} {c : Chan τ} {as : List α} {a : α}

theorem nil (F : Format ι μ τ γ κ ω α) (i : ι) : Carries F i ⟨[], []⟩ [] := ⟨[], rfl, .nil⟩

/-- Nothing is carried by no bytes. -/
theorem eq_nil (hF : F.Lawful) (k : κ) (h : Carries F i ⟨[], []⟩ as) : as = [] := by
  obtain ⟨chunks, hc, hall⟩ := h
  cases hall with
  | nil => rfl
  | @cons chunk a chunks as hchunk hall =>
    have hnil : chunk = [] := (List.append_eq_nil_iff.mp hc.symm).1
    have hdecode := hchunk k []
    rw [hnil, List.append_nil, hF.decode_nil] at hdecode
    cases hdecode

theorem send (hF : F.Lawful) {g : γ} {m : μ} {bytes : List τ} (h : Carries F i c as)
    (hm : F.encode i g m = some bytes) :
    Carries F i { c with sent := c.sent ++ bytes } (as ++ [F.meaning m]) := by
  obtain ⟨chunks, hc, hall⟩ := h
  refine ⟨chunks ++ [bytes], ?_, List.rel_append hall (.cons (hF.decode_encode hm) .nil)⟩
  simp only [← List.append_assoc, hc, List.flatten_append, List.flatten_singleton]

theorem arrive (h : Carries F i c as) (n : Nat) :
    Carries F i ⟨c.arrived ++ c.sent.take n, c.sent.drop n⟩ as := by
  obtain ⟨chunks, hc, hall⟩ := h
  exact ⟨chunks, by rw [List.append_assoc, List.take_append_drop, hc], hall⟩

/-- What the reader takes is the first label. -/
theorem take (hF : F.Lawful) {k : κ} {rest : List τ} (h : Carries F i c as)
    (hd : F.decode i k c.arrived = some (a, rest)) :
    ∃ as', as = a :: as' ∧ Carries F i { c with arrived := rest } as' := by
  obtain ⟨chunks, hc, hall⟩ := h
  have hmore := hF.decode_append hd c.sent
  rw [hc] at hmore
  cases hall with
  | nil =>
    rw [List.flatten_nil, hF.decode_nil] at hmore
    cases hmore
  | @cons chunk a' chunks as' hchunk hall =>
    rw [List.flatten_cons, hchunk] at hmore
    obtain ⟨rfl, hrest⟩ := Prod.mk.inj (Option.some.inj hmore)
    exact ⟨as', rfl, chunks, hrest.symm, hall⟩

/-- The reader takes the first label when all bytes have arrived. -/
theorem ready (h : Carries F i c (a :: as)) (k : κ) :
    ∃ rest, F.decode i k (c.arrived ++ c.sent) = some (a, rest) ∧ Carries F i ⟨rest, []⟩ as := by
  obtain ⟨chunks, hc, hall⟩ := h
  cases hall with
  | @cons chunk _ chunks _ hchunk hall =>
    exact ⟨chunks.flatten, by rw [hc, List.flatten_cons, hchunk], chunks, by simp, hall⟩

end Carries

/-! ## Runs -/

section Runs

variable [DecidableEq ι] {f : σ → α → Except ε (σ × List β)} {F : Format ι μ τ γ κ ω α}
  {n n' : Net σ ι τ} {qs : ι → List α} {o : List β} {ls : List (Event ι μ γ κ ω)}

/-- The labels of the connection `i` among those that the machine took. -/
def takenFrom (i : ι) (as : List (ω ⊕ ι × α)) : List α :=
  as.filterMap (Sum.elim (fun _ => none) fun a => if a.1 = i then some a.2 else none)

theorem filterMap_cons_toList {δ ζ : Type*} (g : δ → Option ζ) (d : δ) (ds : List δ) :
    (d :: ds).filterMap g = (g d).toList ++ ds.filterMap g := by
  cases h : g d with
  | none => rw [List.filterMap_cons_none h, Option.toList_none, List.nil_append]
  | some z => rw [List.filterMap_cons_some h, Option.toList_some, List.singleton_append]

/-- The labels that the net holds. -/
def NetCarries (F : Format ι μ τ γ κ ω α) (n : Net σ ι τ) (qs : ι → List α) : Prop :=
  ∀ i, Carries F i (n.chans i) (qs i)

theorem NetCarries.update (h : NetCarries F n qs) {i : ι} {c : Chan τ} {as : List α}
    (hc : Carries F i c as) (s : σ) :
    NetCarries F { n.withChan i c with state := s } (Function.update qs i as) := by
  intro j
  by_cases hj : j = i
  · subst hj
    simpa [Net.withChan] using hc
  · simpa [Net.withChan, hj] using h j

/-- One step of the net is one of the machine, or none. -/
theorem step_sound (hF : F.Lawful) (hqs : NetCarries F n qs) {l : Event ι μ γ κ ω}
    (h : step f F n l = .ok (n', o)) :
    ∃ (as : List (ω ⊕ ι × α)) (qs' : ι → List α),
      run f n.state (as.map F.label) = .ok (n'.state, o) ∧
      as.map (Sum.map id Prod.fst) = l.agent.toList ∧ NetCarries F n' qs' ∧
      ∀ i, takenFrom i as ++ qs' i = qs i ++ (l.sentOn F i).toList := by
  cases l with
  | own w =>
    simp only [step] at h
    cases hf : f n.state (F.own w) with
    | error e =>
      rw [hf] at h
      cases h
    | ok r =>
      rw [hf] at h
      cases h
      refine ⟨[.inl w], qs, ?_, rfl, hqs, fun i => ?_⟩
      · exact run_cons_ok.mpr ⟨r.1, r.2, [], hf, rfl, (List.append_nil _).symm⟩
      · simp [takenFrom, Event.sentOn]
  | send i g m =>
    simp only [step] at h
    cases hm : F.encode i g m with
    | none =>
      rw [hm] at h
      cases h
    | some bytes =>
      rw [hm] at h
      cases h
      refine ⟨[], _, rfl, rfl, hqs.update ((hqs i).send hF hm) n.state, fun j => ?_⟩
      by_cases hj : j = i
      · subst hj
        simp [takenFrom, Event.sentOn]
      · simp [takenFrom, Event.sentOn, hj, Ne.symm hj]
  | arrive i k =>
    cases h
    refine ⟨[], qs, rfl, rfl, ?_, fun j => by simp [takenFrom, Event.sentOn]⟩
    have hnew := hqs.update ((hqs i).arrive k) n.state
    rwa [Function.update_eq_self] at hnew
  | take i k =>
    simp only [step] at h
    cases hd : F.decode i k (n.chans i).arrived with
    | none =>
      rw [hd] at h
      cases h
    | some r =>
      obtain ⟨a, rest⟩ := r
      simp only [hd] at h
      cases hf : f n.state a with
      | error e =>
        rw [hf] at h
        cases h
      | ok r =>
        rw [hf] at h
        cases h
        obtain ⟨as', has, hcarries⟩ := (hqs i).take hF hd
        refine ⟨[.inr (i, a)], _, ?_, rfl, hqs.update hcarries r.1, fun j => ?_⟩
        · exact run_cons_ok.mpr ⟨r.1, r.2, [], hf, rfl, (List.append_nil _).symm⟩
        · by_cases hj : j = i
          · subst hj
            simp [takenFrom, Event.sentOn, has]
          · simp [takenFrom, Event.sentOn, hj, Ne.symm hj]

/-- **Soundness.** A run of the net is a run of the machine, with the labels of each connection in
the order they were sent: those taken, and then those that the net still carries. -/
theorem run_sound (hF : F.Lawful) (hqs : NetCarries F n qs)
    (h : run (step f F) n ls = .ok (n', o)) :
    ∃ (as : List (ω ⊕ ι × α)) (qs' : ι → List α),
      run f n.state (as.map F.label) = .ok (n'.state, o) ∧
      as.map (Sum.map id Prod.fst) = ls.filterMap Event.agent ∧ NetCarries F n' qs' ∧
      ∀ i, takenFrom i as ++ qs' i = qs i ++ ls.filterMap (Event.sentOn F i) := by
  induction ls generalizing n qs o with
  | nil =>
    cases h
    exact ⟨[], qs, rfl, rfl, hqs, fun i => by simp [takenFrom]⟩
  | cons l ls ih =>
    obtain ⟨n₁, o₁, o₂, hl, hr, rfl⟩ := run_cons_ok.mp h
    obtain ⟨as₁, qs₁, hrun₁, hag₁, hqs₁, heq₁⟩ := step_sound hF hqs hl
    obtain ⟨as₂, qs₂, hrun₂, hag₂, hqs₂, heq₂⟩ := ih hqs₁ hr
    refine ⟨as₁ ++ as₂, qs₂, ?_, ?_, hqs₂, fun i => ?_⟩
    · rw [List.map_append]
      exact run_append_ok.mpr ⟨_, _, _, hrun₁, hrun₂, rfl⟩
    · rw [List.map_append, hag₁, hag₂, filterMap_cons_toList]
    · have htaken : takenFrom i (as₁ ++ as₂) = takenFrom i as₁ ++ takenFrom i as₂ :=
        List.filterMap_append
      rw [htaken, List.append_assoc, heq₂, ← List.append_assoc, heq₁, List.append_assoc,
        filterMap_cons_toList]

/-- Messages that can be written are sent. -/
theorem run_sends (hF : F.Lawful) (hqs : NetCarries F n qs) (ms : List (ι × γ × μ))
    (henc : ∀ m ∈ ms, ∃ bytes, F.encode m.1 m.2.1 m.2.2 = some bytes) :
    ∃ n', run (step f F) n (ms.map fun m => .send m.1 m.2.1 m.2.2) = .ok (n', []) ∧
      n'.state = n.state ∧ NetCarries F n' fun i =>
        qs i ++ (ms.filter (·.1 = i)).map fun m => F.meaning m.2.2 := by
  induction ms generalizing n qs with
  | nil => exact ⟨n, rfl, rfl, by simpa using hqs⟩
  | cons m ms ih =>
    obtain ⟨i, g, m⟩ := m
    obtain ⟨bytes, hm⟩ := henc _ List.mem_cons_self
    have hnew := hqs.update ((hqs i).send hF hm) n.state
    obtain ⟨n', hrun, hs, hcarries⟩ := ih hnew fun m' hm' => henc m' (List.mem_cons_of_mem _ hm')
    refine ⟨n', run_cons_ok.mpr ⟨_, [], [], ?_, hrun, rfl⟩, hs, fun j => ?_⟩
    · simp only [step, hm]
      rfl
    · have hj := hcarries j
      by_cases hij : j = i
      · subst hij
        simpa using hj
      · simpa [hij, Ne.symm hij] using hj

/-- **Completeness.** A run of the machine whose labels the net carries is one of the net. -/
theorem run_complete (k : κ) {as : List (ω ⊕ ι × α)} {s' : σ} (hqs : NetCarries F n qs)
    (hpre : ∀ i, takenFrom i as <+: qs i) (h : run f n.state (as.map F.label) = .ok (s', o)) :
    ∃ (ls : List (Event ι μ γ κ ω)) (n' : Net σ ι τ), run (step f F) n ls = .ok (n', o) ∧
      n'.state = s' ∧ ls.filterMap Event.agent = as.map (Sum.map id Prod.fst) := by
  induction as generalizing n qs o with
  | nil =>
    cases h
    exact ⟨[], n, rfl, rfl, rfl⟩
  | cons a as ih =>
    obtain ⟨s₁, o₁, o₂, hf, hr, rfl⟩ := run_cons_ok.mp h
    cases a with
    | inl w =>
      have hf : f n.state (F.own w) = .ok (s₁, o₁) := hf
      obtain ⟨ls, n', hrun, hs, hag⟩ := ih (n := { n with state := s₁ }) hqs hpre hr
      refine ⟨.own w :: ls, n', run_cons_ok.mpr ⟨_, o₁, o₂, ?_, hrun, rfl⟩, hs, ?_⟩
      · simp only [step, hf]
      · rw [filterMap_cons_toList, hag]
        rfl
    | inr a =>
      obtain ⟨i, a⟩ := a
      have hf : f n.state a = .ok (s₁, o₁) := hf
      -- All bytes of the connection arrive, and then the machine takes the label.
      have hcons : ∀ j, takenFrom j (Sum.inr (i, a) :: as : List (ω ⊕ ι × α)) =
          (if i = j then some a else none).toList ++ takenFrom j as :=
        fun j => filterMap_cons_toList _ _ _
      obtain ⟨more, hmore⟩ := hpre i
      rw [hcons, if_pos rfl, List.append_assoc, Option.toList_some, List.singleton_append] at hmore
      have hi := hqs i
      rw [← hmore] at hi
      obtain ⟨rest, hd, hcarries⟩ := hi.ready k
      have hpre' : ∀ j, takenFrom j as <+:
          Function.update qs i (takenFrom i as ++ more) j := fun j => by
        by_cases hj : j = i
        · subst hj
          simp
        · simpa [hcons, hj, Ne.symm hj] using hpre j
      obtain ⟨ls, n', hrun, hs, hag⟩ := ih (hqs.update hcarries s₁) hpre' hr
      refine ⟨.arrive i (n.chans i).sent.length :: .take i k :: ls, n', ?_, hs, ?_⟩
      · refine run_cons_ok.mpr ⟨_, [], o₁ ++ o₂, rfl,
          run_cons_ok.mpr ⟨_, o₁, o₂, ?_, hrun, rfl⟩, rfl⟩
        have harrived : ((n.withChan i ⟨(n.chans i).arrived ++
            (n.chans i).sent.take (n.chans i).sent.length,
            (n.chans i).sent.drop (n.chans i).sent.length⟩).chans i).arrived =
              (n.chans i).arrived ++ (n.chans i).sent := by
          simp [Net.withChan]
        simp only [step, harrived, hd]
        simp [Net.withChan, hf]
      · rw [filterMap_cons_toList, filterMap_cons_toList, hag]
        rfl

end Runs

end Wire
