/-
The life of the engine.

An engine is not started, starting or started, and a phase only ever gives way to a later one:

* `Phase.advance` — moves to the wanted phase if it lies ahead and stays otherwise;
* `Phase.rank_le_advance`, `Phase.advance_started` — no move goes back, and nothing leaves
  `started`.

Design notes: the phase is one field of the coordinator among several; which of the other fields
go with which phase is a theorem about the coordinator, not part of this type.
-/

namespace LazyEngine

/-- Where the one engine of a process is in its life. -/
inductive Phase where
  | notStarted
  | starting
  | started
deriving DecidableEq, Repr

namespace Phase

/-- Position in the order of life. -/
def rank : Phase → Nat
  | notStarted => 0
  | starting => 1
  | started => 2

/-- Whether the wanted phase lies ahead. -/
def canAdvance (current wanted : Phase) : Bool :=
  decide (current.rank < wanted.rank)

/-- Move to the wanted phase if it lies ahead; a backward or same-phase move changes nothing. -/
def advance (current wanted : Phase) : Phase :=
  if current.canAdvance wanted then wanted else current

/-- The phase in words. -/
def text : Phase → String
  | notStarted => "not started"
  | starting => "starting"
  | started => "started"

def isStarted (p : Phase) : Bool :=
  p == started

theorem rank_le_advance (p q : Phase) : p.rank ≤ (p.advance q).rank := by
  cases p <;> cases q <;> decide

theorem advance_started (q : Phase) : started.advance q = started := by
  cases q <;> rfl

@[simp] theorem advance_notStarted (q : Phase) : notStarted.advance q = q := by
  cases q <;> rfl

@[simp] theorem advance_eq_started_of_wanted (p : Phase) : p.advance started = started := by
  cases p <;> rfl

@[simp] theorem isStarted_iff {p : Phase} : p.isStarted = true ↔ p = started := by
  cases p <;> decide

end Phase

end LazyEngine
