/-
Listeners waiting for the engine.

A registry hands out increasing numbers and keeps the listeners it was given in order:

* `push` — queues a listener under a new number;
* `remove` — forgets one registration; whether it was still queued is the answer;
* `live`, `emptied` — a drain hands over the registrations whose listener is still alive, oldest
  first, and leaves the registry empty.

Design notes: the registry does not keep a listener alive. Who is alive is known elsewhere and is
passed in as a predicate, so dropping a listener does not touch the registry at all. One listener
may be registered many times; registrations are told apart by number, listeners are not.
-/

namespace LazyEngine

/-- Number of a registration. -/
abbrev RegistrationId := Nat

/-- Outcome of asking to be told when the engine has started. -/
inductive Registration where
  /-- The engine was already running; the listener has been told. -/
  | notified
  /-- Queued until startup completes. -/
  | pending (id : RegistrationId)
deriving DecidableEq, Repr

def Registration.id? : Registration → Option RegistrationId
  | notified => none
  | pending id => some id

/-- Registrations in the order in which they were made. -/
structure Registry (L : Type) where
  /-- The last number handed out; numbers start at one. -/
  issued : Nat := 0
  entries : List (RegistrationId × L) := []

namespace Registry

variable {L : Type}

/-- Queue a listener; its number is `issued` of the result. -/
def push (r : Registry L) (listener : L) : Registry L :=
  { issued := r.issued + 1, entries := r.entries ++ [(r.issued + 1, listener)] }

/-- Whether a number has ever been handed out. -/
def knows (r : Registry L) (id : RegistrationId) : Bool :=
  decide (1 ≤ id ∧ id ≤ r.issued)

/-- Whether a registration is still queued. -/
def contains (r : Registry L) (id : RegistrationId) : Bool :=
  r.entries.any (·.1 == id)

/-- Forget one registration. -/
def remove (r : Registry L) (id : RegistrationId) : Registry L :=
  { r with entries := r.entries.filter (·.1 != id) }

/-- Queued registrations, whether or not their listener is still alive. -/
def size (r : Registry L) : Nat :=
  r.entries.length

/-- Queued registrations whose listener is still alive. -/
def liveCount (r : Registry L) (alive : L → Bool) : Nat :=
  (r.entries.filter fun e => alive e.2).length

/-- The registrations to serve, oldest first. -/
def live (r : Registry L) (alive : L → Bool) : List (RegistrationId × L) :=
  r.entries.filter fun e => alive e.2

/-- The registry after its listeners have been handed over. -/
def emptied (r : Registry L) : Registry L :=
  { r with entries := [] }

@[simp] theorem issued_push (r : Registry L) (l : L) : (r.push l).issued = r.issued + 1 := rfl

@[simp] theorem entries_push (r : Registry L) (l : L) :
    (r.push l).entries = r.entries ++ [(r.issued + 1, l)] := rfl

@[simp] theorem issued_remove (r : Registry L) (id : RegistrationId) :
    (r.remove id).issued = r.issued := rfl

@[simp] theorem entries_emptied (r : Registry L) : r.emptied.entries = [] := rfl

@[simp] theorem issued_emptied (r : Registry L) : r.emptied.issued = r.issued := rfl

theorem length_live (r : Registry L) (alive : L → Bool) :
    (r.live alive).length = r.liveCount alive := by
  simp [live, liveCount]

end Registry

end LazyEngine
