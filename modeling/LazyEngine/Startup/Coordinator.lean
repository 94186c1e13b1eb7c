/-
The startup coordinator.

The coordinator starts one engine, once, on its owner thread. All it knows is kept under one lock,
and every public operation is one critical section or a few of them; each section is a function
here, and a section is the unit in which threads interleave:

* `Coordinator.enter` — the first section of a call that needs the engine and has not found it
  published;
* `Coordinator.recheck` — the section that a waiting call runs whenever it wakes up;
* `Coordinator.perform` — runs the initializer; part of `enter` on the owner thread, and a section
  of its own when a posted startup task executes;
* `Coordinator.background`, `Coordinator.register`, `Coordinator.unregister`.

Main facts: `perform_ran_iff` says exactly when the initializer runs, `perform_poisoned` that a
failed coordinator stays failed, `enter_of_started` that a section of a started coordinator answers
with the published engine.

Design notes: the published engine is also read without the lock, before `enter`; that read is a
step of its own and the machine's business (`Startup/Machine`), as is the telling of listeners: a
section that ends by telling listeners only returns them. A section that decides startup wakes
those who wait, and says so in what it returns. The dispatcher is a parameter: a state and a way to
post the startup task that may refuse at any time.
-/
import LazyEngine.Startup.Error
import LazyEngine.Startup.Owner
import LazyEngine.Startup.Phase
import LazyEngine.Startup.Registry

namespace LazyEngine

/-- What a panic carries. -/
inductive Payload where
  | text (message : String)
  /-- Something that is not text. -/
  | other
deriving DecidableEq, Repr

def Payload.message : Payload → String
  | text m => m
  | other => "unknown panic"

/-- What running the initializer came to. -/
inductive InitOutcome (E : Type) where
  | engine (e : E)
  /-- An error with its contexts, outermost first. -/
  | failed (contexts : List String)
  | panicked (payload : Payload)

/-- The engine, or the reason why there will never be one. -/
def InitOutcome.verdict {E : Type} : InitOutcome E → Except String E
  | engine e => .ok e
  | failed contexts => .error (": ".intercalate contexts)
  | panicked payload => .error ("initializer panicked: " ++ payload.message)

/-- The initializer acts on the state `σ` of the host it runs in. -/
abbrev Initializer (σ E : Type) := σ → InitOutcome E × σ

/-- Everything the coordinator keeps under its lock, and the published engine. -/
structure Coordinator (σ E L : Type) where
  phase : Phase := .notStarted
  /-- Recorded at the first attempt to start. -/
  owner : Option Owner := none
  /-- Taken out by the one run. -/
  initializer : Option (Initializer σ E)
  registrants : Registry L := {}
  failure : Option String := none
  engine : Option E := none

namespace Coordinator

variable {σ E L D : Type}

/-- A coordinator before the first attempt. -/
def create (initializer : Initializer σ E) : Coordinator σ E L :=
  { initializer := some initializer }

/-- The engine, for a call that has seen startup complete. -/
def published (c : Coordinator σ E L) : Except StartupError E :=
  match c.engine with
  | some e => .ok e
  | none => .error (.notStarted "ensure_started")

/-- Record the owner, unless one is recorded already. -/
def bindOwner (c : Coordinator σ E L) (owner : Owner) : Coordinator σ E L :=
  { c with owner := c.owner.or (some owner) }

/-- The recorded owner, or the one that would be recorded now. -/
def ownerOr (c : Coordinator σ E L) (owner : Owner) : Owner :=
  c.owner.getD owner

/-- What `perform` leaves behind. -/
structure Attempt (σ E L : Type) where
  /-- The registrations to serve once the lock is free, or why startup did not happen. -/
  result : Except StartupError (List (RegistrationId × L))
  coordinator : Coordinator σ E L
  host : σ
  /-- Whether the initializer ran. -/
  ran : Bool
  /-- Whether those who wait for startup are woken. -/
  wakes : Bool

/-- Start the engine on the owner thread, unless that has been done or has failed.

The initializer is taken out before it runs, so no later attempt can run it again. -/
def perform (c : Coordinator σ E L) (alive : L → Bool) (host : σ) : Attempt σ E L :=
  if c.phase.isStarted then
    ⟨.ok [], c, host, false, false⟩
  else match c.failure with
    | some reason => ⟨.error (.poisoned reason), c, host, false, false⟩
    | none =>
      let begun := { c with phase := c.phase.advance .starting, initializer := none }
      match c.initializer with
      | none =>
        let reason := "initialization did not complete"
        ⟨.error (.poisoned reason), { begun with failure := some reason }, host, false, true⟩
      | some initializer =>
        let (outcome, host) := initializer host
        match outcome.verdict with
        | .ok engine =>
          ⟨.ok (c.registrants.live alive),
            { begun with
              phase := begun.phase.advance .started
              engine := c.engine.or (some engine)
              registrants := c.registrants.emptied },
            host, true, true⟩
        | .error reason =>
          ⟨.error (.init reason), { begun with failure := some reason }, host, true, true⟩

/-- How a call goes on after its first section. -/
inductive Next (E L : Type) where
  /-- It returns. -/
  | answer (result : Except StartupError E)
  /-- It completed startup: it tells these, then returns the engine. -/
  | tell (listeners : List (RegistrationId × L))
  /-- It waits for the owner thread. -/
  | wait

/-- How a call goes on that has run startup itself. -/
def Attempt.next (a : Attempt σ E L) : Next E L :=
  match a.result with
  | .ok listeners => .tell listeners
  | .error e => .answer (.error e)

/-- What `enter` leaves behind. -/
structure Entered (σ E L D : Type) where
  next : Next E L
  coordinator : Coordinator σ E L
  host : σ
  dispatcher : D
  ran : Bool := false
  wakes : Bool := false

/-- First section of a call that needs the engine and has not found it published.

`claim` asserts that the caller is the owner thread. On the owner thread startup happens here and
now; anywhere else it is posted, once, and the call waits. The phase moves only after the
dispatcher has accepted the task, so a refusal leaves the engine not started. -/
def enter (c : Coordinator σ E L) (owner : Owner) (post : D → Except StartupError D)
    (alive : L → Bool) (caller : ThreadId) (claim : Bool) (host : σ) (dispatcher : D) :
    Entered σ E L D :=
  if c.phase.isStarted then
    { next := .answer c.published, coordinator := c, host, dispatcher }
  else match c.failure with
    | some reason =>
      { next := .answer (.error (.poisoned reason)), coordinator := c, host, dispatcher }
    | none =>
      let bound := c.bindOwner owner
      if (c.ownerOr owner).isCurrent caller then
        let attempt := bound.perform alive host
        { next := attempt.next
          coordinator := attempt.coordinator
          host := attempt.host
          dispatcher
          ran := attempt.ran
          wakes := attempt.wakes }
      else if claim then
        { next := .answer (.error (.notOwnerContext "ensure_started"))
          coordinator := bound, host, dispatcher }
      else if c.phase = .notStarted then
        match post dispatcher with
        | .error e => { next := .answer (.error e), coordinator := bound, host, dispatcher }
        | .ok dispatcher =>
          { next := .wait
            coordinator := { bound with phase := c.phase.advance .starting }
            host, dispatcher }
      else
        { next := .wait, coordinator := bound, host, dispatcher }

/-- What a waiting call finds when it looks again; `none` if it goes on waiting. -/
def recheck (c : Coordinator σ E L) : Option (Except StartupError E) :=
  if c.phase.isStarted then some c.published
  else c.failure.map fun reason => .error (.poisoned reason)

/-- Post startup without waiting for it; nothing to do once startup is under way. -/
def background (c : Coordinator σ E L) (owner : Owner) (post : D → Except StartupError D)
    (dispatcher : D) : Except StartupError Unit × Coordinator σ E L × D :=
  if c.phase = .notStarted then
    let bound := c.bindOwner owner
    match post dispatcher with
    | .error e => (.error e, bound, dispatcher)
    | .ok dispatcher =>
      (.ok (), { bound with phase := c.phase.advance .starting }, dispatcher)
  else
    (.ok (), c, dispatcher)

/-- Queue a listener; `notified` means that it is to be told at once, outside the lock. -/
def register (c : Coordinator σ E L) (listener : L) : Registration × Coordinator σ E L :=
  if c.phase.isStarted then (.notified, c)
  else
    let registrants := c.registrants.push listener
    (.pending registrants.issued, { c with registrants })

/-- Forget a pending registration; whether it was still queued, `none` for a number that no
registration has. -/
def unregister (c : Coordinator σ E L) (id : RegistrationId) : Option Bool × Coordinator σ E L :=
  if c.registrants.knows id then
    (some (c.registrants.contains id), { c with registrants := c.registrants.remove id })
  else
    (none, c)

def hasStarted (c : Coordinator σ E L) : Bool :=
  c.engine.isSome

/-! ### First facts -/

theorem enter_of_started {c : Coordinator σ E L} (h : c.phase = .started)
    (owner : Owner) (post : D → Except StartupError D) (alive : L → Bool) (caller : ThreadId)
    (claim : Bool) (host : σ) (dispatcher : D) :
    c.enter owner post alive caller claim host dispatcher
      = { next := .answer c.published, coordinator := c, host, dispatcher } := by
  simp [enter, h]

theorem perform_poisoned {c : Coordinator σ E L} {reason : String} (hp : c.phase ≠ .started)
    (hf : c.failure = some reason) (alive : L → Bool) (host : σ) :
    c.perform alive host = ⟨.error (.poisoned reason), c, host, false, false⟩ := by
  have : c.phase.isStarted = false := by
    cases h : c.phase <;> simp_all [Phase.isStarted]
  simp [perform, this, hf]

/-- The initializer runs exactly when startup is neither done nor failed and it is still there. -/
theorem perform_ran_iff (c : Coordinator σ E L) (alive : L → Bool) (host : σ) :
    (c.perform alive host).ran = true ↔
      c.phase ≠ .started ∧ c.failure = none ∧ c.initializer.isSome := by
  by_cases hs : c.phase = .started
  · simp [perform, hs, Phase.isStarted]
  have hs' : c.phase.isStarted = false := by
    cases h : c.phase <;> simp_all [Phase.isStarted]
  cases hf : c.failure with
  | some reason => simp [perform, hs', hf]
  | none =>
    cases hi : c.initializer with
    | none => simp [perform, hs', hf, hi]
    | some initializer =>
      cases hv : (initializer host).1.verdict <;> simp [perform, hs, hs', hf, hi, hv]

end Coordinator

end LazyEngine
