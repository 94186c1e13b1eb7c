/-
Why a startup call is refused.

Every refusal is one of five causes, and its wording is in one place, `StartupError.message`.
Posting a task has refusals of its own, `DispatchRefusal`; they reach callers inside
`StartupError.dispatch`.
-/

namespace LazyEngine

/-- What a call that needs the engine, or its owner thread, can answer instead of a result. -/
inductive StartupError where
  /-- An owner-only operation was asked for on another thread. -/
  | notOwnerContext (operation : String)
  /-- The initializer failed in this very call. -/
  | init (reason : String)
  /-- The initializer failed earlier; the engine will never start. -/
  | poisoned (reason : String)
  /-- A task could not be handed to the owner thread. -/
  | dispatch (reason : String)
  /-- The operation needs a started engine. -/
  | notStarted (operation : String)
deriving DecidableEq, Repr

/-- The error in words. -/
def StartupError.message : StartupError → String
  | .notOwnerContext operation => operation ++ " must be called on the owner thread"
  | .init reason => "Error initializing engine: " ++ reason
  | .poisoned reason => "Engine startup previously failed: " ++ reason
  | .dispatch reason => "Failed to dispatch to owner thread: " ++ reason
  | .notStarted operation => operation ++ " requires the engine to be started"

/-- Why a task did not reach the owner thread, or did not finish there. -/
inductive DispatchRefusal where
  | queueClosed
  | loopShutDown
  | loopExited
  | taskDropped
deriving DecidableEq, Repr

def DispatchRefusal.message : DispatchRefusal → String
  | .queueClosed => "owner queue is closed"
  | .loopShutDown => "owner loop is shut down"
  | .loopExited => "owner loop has exited"
  | .taskDropped => "owner thread dropped the task"

/-- The refusal as callers see it. -/
def DispatchRefusal.error (r : DispatchRefusal) : StartupError :=
  .dispatch r.message

end LazyEngine
