import Mathlib.Data.List.Basic

/-!
# A lock with a queue

A lock that serves its requests in order, with the history of its requests and grants. A value
carries the two invariants: nobody waits at a free lock, and the requests are the grants followed
by those that wait. Nothing here depends on who asks, or on what the lock protects.

* `take` and `wait`: a request, to a lock that is free or taken.
* `free` and `pass`: the owner leaves, and nobody or somebody waits.
* `order`: grants come in the order of the requests.
-/

structure FifoLock (τ : Type*) where
  owner : Option τ
  queue : List τ
  requests : List τ
  grants : List τ
  idle : owner = none → queue = []
  order : requests = grants ++ queue

namespace FifoLock

variable {τ : Type*} {l : FifoLock τ}

/-- A new lock. -/
def empty : FifoLock τ where
  owner := none
  queue := []
  requests := []
  grants := []
  idle _ := rfl
  order := rfl

/-- A request to a free lock is granted. -/
def take (l : FifoLock τ) (t : τ) (h : l.owner = none) : FifoLock τ where
  owner := some t
  queue := l.queue
  requests := l.requests ++ [t]
  grants := l.grants ++ [t]
  idle hno := absurd hno (Option.some_ne_none t)
  order := by rw [l.order, l.idle h, List.append_nil, List.append_nil]

/-- A request to a lock that is taken waits. -/
def wait (l : FifoLock τ) (t : τ) (h : l.owner ≠ none) : FifoLock τ where
  owner := l.owner
  queue := l.queue ++ [t]
  requests := l.requests ++ [t]
  grants := l.grants
  idle hno := absurd hno h
  order := by rw [l.order, List.append_assoc]

/-- The owner leaves, and nobody waits. -/
def free (l : FifoLock τ) (h : l.queue = []) : FifoLock τ where
  owner := none
  queue := l.queue
  requests := l.requests
  grants := l.grants
  idle _ := h
  order := l.order

/-- The owner leaves, and the first that waits gets the lock. -/
def pass (l : FifoLock τ) {t : τ} {rest : List τ} (h : l.queue = t :: rest) : FifoLock τ where
  owner := some t
  queue := rest
  requests := l.requests
  grants := l.grants ++ [t]
  idle hno := absurd hno (Option.some_ne_none t)
  order := by rw [l.order, h, List.append_assoc, List.singleton_append]

end FifoLock
