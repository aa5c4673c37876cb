import Mathlib.Data.List.Chain

/-!
# A queue whose head is asked for before it is taken

A client looks at the head of a queue and sends a request for it, and the head stays in the queue.
Later the requests are answered in the order in which they were sent. One that is granted takes
whatever is then the head. Nothing here depends on what the keys are; neighbours in the queue
differ.

* `Peek`: the queue, the requests in flight, and what was granted. A request is stale if another
  one was granted after it was sent.
* `InOrder`: each granted request took the key that it asked for. A fresh request asks for the head,
  and a stale one for the last key taken.
* The operations keep `InOrder`, the grant if the request is fresh. `InOrder.head_iff`: the head
  is what the next request asks for exactly when the request is fresh.
-/

namespace PeekQueue

variable {α : Type*}

structure Request (α : Type*) where
  key : α
  stale : Bool
  deriving DecidableEq, Repr

/-- The request after another one was granted. -/
def Request.age (r : Request α) : Request α :=
  { r with stale := true }

structure Peek (α : Type*) where
  waiting : List α
  /-- The requests in flight, oldest first. -/
  asked : List (Request α)
  /-- For each request granted, what it asked for and what it took. -/
  taken : List (α × α)

namespace Peek

/-- All keys, in the order in which they came. -/
def order (s : Peek α) : List α :=
  s.taken.map Prod.snd ++ s.waiting

def push (s : Peek α) (a : α) : Peek α :=
  { s with waiting := s.waiting ++ [a] }

def ask (s : Peek α) (a : α) : Peek α :=
  { s with asked := s.asked ++ [⟨a, false⟩] }

/-- A refused request: `rest` are the others. -/
def deny (s : Peek α) (rest : List (Request α)) : Peek α :=
  { s with asked := rest }

/-- A granted request takes the head `a` of the queue. -/
def grant (s : Peek α) (r : Request α) (rest : List (Request α)) (a : α) (ws : List α) : Peek α :=
  { waiting := ws
    asked := rest.map Request.age
    taken := s.taken ++ [(r.key, a)] }

structure InOrder (s : Peek α) : Prop where
  apart : s.order.IsChain (· ≠ ·)
  matched : ∀ t ∈ s.taken, t.2 = t.1
  fresh : ∀ r ∈ s.asked, r.stale = false → s.waiting.head? = some r.key
  stale : ∀ r ∈ s.asked, r.stale = true → ∃ t, s.taken.getLast? = some t ∧ t.2 = r.key
  /-- A request sent before a stale one is stale. -/
  older : s.asked.Pairwise fun r q => q.stale = true → r.stale = true

variable {s : Peek α} {r : Request α} {rest : List (Request α)} {a : α} {ws : List α}

namespace InOrder

theorem push (h : s.InOrder) (ha : ∀ b, s.order.getLast? = some b → b ≠ a) :
    (s.push a).InOrder where
  apart := by
    show (s.taken.map Prod.snd ++ (s.waiting ++ [a])).IsChain (· ≠ ·)
    rw [← List.append_assoc, List.isChain_append]
    refine ⟨h.apart, List.isChain_singleton a, fun b hb c hc => ?_⟩
    obtain rfl : a = c := by simpa using hc
    exact ha b hb
  matched := h.matched
  fresh r hr hf := by
    have hhead := h.fresh r hr hf
    show (s.waiting ++ [a]).head? = some r.key
    rw [List.head?_append, hhead]
    rfl
  stale := h.stale
  older := h.older

theorem ask (h : s.InOrder) (ha : s.waiting.head? = some a) : (s.ask a).InOrder where
  apart := h.apart
  matched := h.matched
  fresh r hr hf := by
    rcases List.mem_append.mp hr with hr | hr
    · exact h.fresh r hr hf
    · obtain rfl := List.mem_singleton.mp hr
      exact ha
  stale r hr hs := by
    rcases List.mem_append.mp hr with hr | hr
    · exact h.stale r hr hs
    · obtain rfl := List.mem_singleton.mp hr
      cases hs
  older := by
    refine List.pairwise_append.mpr ⟨h.older, List.pairwise_singleton _ _, ?_⟩
    intro r _ q hq hs
    obtain rfl := List.mem_singleton.mp hq
    cases hs

theorem deny (h : s.InOrder) (hr : s.asked = r :: rest) : (s.deny rest).InOrder where
  apart := h.apart
  matched := h.matched
  fresh q hq := h.fresh q (hr ▸ List.mem_cons_of_mem r hq)
  stale q hq := h.stale q (hr ▸ List.mem_cons_of_mem r hq)
  older := (List.pairwise_cons.mp (hr ▸ h.older)).2

/-- A fresh request takes what it asked for, and what was in flight with it is stale. -/
theorem grant (h : s.InOrder) (hr : s.asked = r :: rest) (hw : s.waiting = a :: ws)
    (hf : r.stale = false) : (s.grant r rest a ws).InOrder := by
  have hfresh := h.fresh r (hr ▸ List.mem_cons_self) hf
  rw [hw] at hfresh
  have hkey : a = r.key := Option.some.inj hfresh
  have holder : ∀ q ∈ rest, q.stale = true → r.stale = true :=
    (List.pairwise_cons.mp (hr ▸ h.older)).1
  refine ⟨?_, ?_, ?_, ?_, ?_⟩
  · have hsame : (s.grant r rest a ws).order = s.order := by
      unfold Peek.grant Peek.order
      rw [hw, List.map_append, List.append_assoc]
      rfl
    rw [hsame]
    exact h.apart
  · intro t ht
    rcases List.mem_append.mp ht with ht | ht
    · exact h.matched t ht
    · obtain rfl := List.mem_singleton.mp ht
      exact hkey
  · intro q hq hf'
    obtain ⟨q, -, rfl⟩ := List.mem_map.mp hq
    cases hf'
  · intro q' hq' _
    obtain ⟨q, hq, rfl⟩ := List.mem_map.mp hq'
    refine ⟨(r.key, a), List.getLast?_concat, ?_⟩
    -- The request was fresh, as `r` is, so it asked for the same head.
    have hqf : q.stale = false := by
      by_contra hs
      have hrs := holder q hq (by simpa using hs)
      rw [hf] at hrs
      cases hrs
    have hhead := h.fresh q (hr ▸ List.mem_cons_of_mem r hq) hqf
    rw [hw] at hhead
    exact Option.some.inj hhead
  · exact List.pairwise_map.mpr (List.pairwise_of_forall fun _ _ _ => rfl)

/-- The head is what the next request asks for exactly when the request is fresh. -/
theorem head_iff (h : s.InOrder) (hr : s.asked = r :: rest) :
    s.waiting.head? = some r.key ↔ r.stale = false := by
  have hmem : r ∈ s.asked := hr ▸ List.mem_cons_self
  refine ⟨fun hhead => ?_, h.fresh r hmem⟩
  by_contra hs
  obtain ⟨t, ht, hkey⟩ := h.stale r hmem (by simpa using hs)
  have hlast : (s.taken.map Prod.snd).getLast? = some t.2 := by
    rw [List.getLast?_map, ht]
    rfl
  obtain ⟨-, -, hne⟩ := List.isChain_append.mp h.apart
  exact hne t.2 hlast r.key hhead hkey

end InOrder

end Peek

end PeekQueue
