/-
Views of the engine.

A view is told when the engine has started, and is attached from then on.
-/

namespace LazyEngine

/-- A view counts how often it has been told; the first time attaches it. -/
structure View where
  attached : Bool := false
  attachCount : Nat := 0
deriving DecidableEq, Repr

namespace View

/-- A view that has not been told yet. -/
def fresh : View := {}

/-- Tell the view that the engine has started. -/
def told (v : View) : View :=
  { attached := true, attachCount := v.attachCount + 1 }

/-- The version of the random identifiers that views carry. -/
def identifierVersion : Nat := 4

/-- The view after so many notifications. -/
def afterTold : Nat → View
  | 0 => fresh
  | n + 1 => (afterTold n).told

theorem attachCount_afterTold (n : Nat) : (afterTold n).attachCount = n := by
  induction n with
  | zero => rfl
  | succ n ih => simp [afterTold, told, ih]

theorem attached_afterTold (n : Nat) : (afterTold n).attached = decide (0 < n) := by
  cases n with
  | zero => rfl
  | succ n => simp [afterTold, told]

end View

end LazyEngine
