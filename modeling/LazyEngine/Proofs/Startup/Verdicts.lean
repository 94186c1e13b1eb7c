/-
What is left to do once startup is decided.

The owner thread decides startup in a call of its own, or in a task that has been posted. The step
that does it runs the initializer; if there is an engine, the listeners that wait are then told.

* `Coordinator.decided` — the coordinator after a verdict;
* `Launch.passes` — the passage that decides startup is the same, whether a call or a task makes it;
* `Aftermath` — what is left to do then comes to an end in the call and in the task, with the same
  events on the way (`Calm.aftermath`, `aftermath_of_failure`).

Design notes: the call and the task go on differently when all listeners have been told, and differ
in nothing else. So the listeners are told once, on top of frames that are left open
(`Calm.leads_telling`), and both are made from that.
-/
import LazyEngine.Proofs.Startup.Calm
import LazyEngine.Proofs.Startup.Decision

namespace LazyEngine

namespace Coordinator

variable {σ E L : Type} {c : Coordinator σ E L} {owner : Owner}

/-- The coordinator after its initializer has come to a verdict. -/
def decided (c : Coordinator σ E L) : Except String E → Coordinator σ E L
  | .ok engine => c.succeeded engine
  | .error reason => c.failed reason

/-- What a waiting call finds after the decision. -/
theorem recheck_decided {c : Coordinator σ E Listener} (he : c.engine = none)
    (hp : c.phase ≠ .started) (verdict : Except String E) :
    (c.decided verdict).recheck = some (verdict.mapError .poisoned) := by
  cases verdict with
  | ok engine =>
    show some (published _) = _
    rw [published, show (c.decided (.ok engine)).engine = c.engine.or (some engine) from rfl, he]
    rfl
  | error reason =>
    have hp' : (c.failed reason).phase.isStarted = false :=
      isStarted_eq_false (by rw [Machine.phase_failed hp]; decide)
    show (c.failed reason).recheck = _
    rw [recheck, hp']
    rfl

/-- A request for startup, and the owner recorded with it, make no difference to the decision. -/
theorem decided_requested (hp : c.phase = .notStarted) (owner : Owner)
    (verdict : Except String E) :
    (c.requested owner).decided verdict = (c.bindOwner owner).decided verdict := by
  cases verdict with
  | ok engine => rfl
  | error reason =>
    show { (c.requested owner).begun with failure := some reason }
      = ({ (c.bindOwner owner).begun with failure := some reason } : Coordinator σ E L)
    rw [begun, begun, show (c.bindOwner owner).phase = .notStarted from hp]
    rfl

theorem bindOwner_requested (c : Coordinator σ E L) (owner : Owner) :
    (c.requested owner).bindOwner owner = c.requested owner := by
  cases c with
  | mk _ o _ _ _ _ => cases o <;> rfl

theorem OwnedBy.ownerOr_eq (h : c.OwnedBy owner) : c.ownerOr owner = owner := by
  rcases h with h | h <;> rw [ownerOr, h] <;> rfl

end Coordinator

namespace Machine

variable {σ E : Type} {m n x : Machine σ E} {t w : ThreadId} {f : Initializer σ E}

/-! ### The decision -/

/-- The machine after startup has been decided, where `c` is the coordinator that runs it. -/
def decision (m : Machine σ E) (c : Coordinator σ E Listener) (f : Initializer σ E) :
    Machine σ E :=
  { m with
    coordinator := c.decided (f m.host).1.verdict
    host := (f m.host).2
    sleepers := [] }

/-- What is left to do after the decision: if there is an engine, the listeners that wait are
told. -/
def opened (m : Machine σ E) (sequel : Sequel) : Except String E → List Frame
  | .ok _ => [.telling (queue (m.coordinator.registrants.live m.alive)) sequel]
  | .error _ => []

/-- What happens in the decision: the initializer runs, and a failure is reported. -/
def decisionEvents (t : ThreadId) (sequel : Sequel) : Except String E → List (Event E)
  | .ok _ => [.initialized t]
  | .error reason => [failureEvent t reason sequel, .initialized t]

theorem Launch.passes {g : Frame} {c : Coordinator σ E Listener} {sequel : Sequel}
    (hl : Launch m t g c sequel) (hu : m.coordinator.Undecided)
    (hi : m.coordinator.initializer = some f) :
    Passes t m [g] (decisionEvents t sequel (f m.host).1.verdict)
      (m.opened sequel (f m.host).1.verdict) (m.decision c f) := by
  have hj : g.joins = false := by cases hl <;> rfl
  unfold decision
  cases hv : (f m.host).1.verdict with
  | ok engine =>
    rw [opened, ← hl.registrants_eq]
    exact Acts.passes (.started hl hu hi (InitOutcome.verdict_eq_ok_iff.1 hv)) hj
  | error reason => exact Acts.passes (.failed hl hu hi hv) hj

/-- After a verdict for the engine, the machine is calm if the tasks are. -/
theorem calm_decision {c : Coordinator σ E Listener} {engine : E}
    (hv : (f m.host).1.verdict = .ok engine) (hqueue : m.dispatcher.isLoop = false)
    (howner : m.dispatcher.owner.isCurrent t = true) (he : c.engine = none)
    (htasks : ∀ task ∈ m.dispatcher.tasks, task.isCalm = true) : Calm t (m.decision c f) := by
  refine ⟨hqueue, howner, ?_, ⟨engine, ?_⟩, ?_, htasks⟩
  all_goals rw [decision, hv]
  · rfl
  · show c.engine.or (some engine) = some engine
    rw [he, Option.none_or]
  · rfl

/-- Posting startup first makes no difference to the decision. -/
theorem decision_requested (hp : m.coordinator.phase = .notStarted) (sleepers : List ThreadId)
    (owner : Owner) :
    ({ m with coordinator := m.coordinator.requested owner, sleepers } : Machine σ E).decision
        (m.coordinator.requested owner) f
      = m.decision (m.coordinator.bindOwner owner) f := by
  rw [decision, decision, Coordinator.decided_requested hp]

/-- Nothing happens on a thread that waits when the owner thread decides a startup that has been
posted. -/
theorem isOn_decisionEvents (hw : w ≠ t) (verdict : Except String E) :
    ∀ e ∈ decisionEvents t .finished verdict, e.isOn w = false := by
  have hinit : (Event.initialized t : Event E).isOn w = false :=
    Event.isOn_eq_false (beq_self_eq_true _) hw
  intro e he
  cases verdict with
  | ok engine => exact List.mem_singleton.mp he ▸ hinit
  | error reason =>
    rcases List.mem_cons.mp he with rfl | he
    · rfl
    · exact List.mem_singleton.mp he ▸ hinit

/-! ### What comes after the decision -/

theorem leads_script_nil (m : Machine σ E) (origin : Origin) :
    Leads t m [.script origin []] [] [] m := .aside .ended rfl

/-- What the fatal hook is given when a posted startup comes to a verdict. -/
def fatals : Except String E → List (Event E)
  | .ok _ => []
  | .error reason => [.fatal (.init reason)]

/-- What is left to do after the decision, in a call that has made it and in a pump: both come to
an end, with the same `events` on the way. Tasks that listeners post are left by the call; the pump
takes them, and `later` is what happens then. -/
structure Aftermath (t : ThreadId) (m d : Machine σ E) (verdict : Except String E)
    (events : List (Event E)) (n : Machine σ E) : Prop where
  isOn : ∀ e ∈ events, e.isOn t = true
  called : ∃ own, Leads t d (m.opened (.engine .caller) verdict ++ [.script .caller []]) own [] n ∧
    own ++ decisionEvents t (.engine .caller) verdict
      = .answered t .caller (.engine (verdict.mapError .init)) :: events
  pumped : ∃ own taken later n', Leads t d
      (m.opened .finished verdict ++ [.pumping 1 .caller, .script .caller []]) own [] n' ∧
    own ++ decisionEvents t .finished verdict
      = .answered t .caller (.pumped (.ok taken)) :: later ++ fatals verdict ++ events ∧
    (∀ e ∈ later, e.isOn t = true) ∧ (n.dispatcher.tasks = [] → taken = 1 ∧ later = [])

/-- The engine is there: the listeners that wait are told. -/
theorem Calm.aftermath {d : Machine σ E} {engine : E} (h : Calm t d)
    (he : d.coordinator.engine = some engine)
    (hlisteners : ∀ l ∈ Machine.queue (m.coordinator.registrants.live m.alive), l.2.isCalm = true) :
    ∃ events n, Aftermath t m d (.ok engine) events n := by
  -- The listeners are told alike in the call and in the task; only what follows is different.
  obtain ⟨told, n, hn, htold⟩ := h.leads_telling hlisteners
  obtain ⟨taken, later, n', hpumping, hleft⟩ := hn.leads_pumping 1 .caller
  have hon := (htold .finished).isOn
  have hpublished : n.coordinator.published = .ok engine := by
    rw [Coordinator.published, (htold .finished).coordinator_eq, he]
  have hreturns : Leads t n [.telling [] (.engine .caller)]
      [.answered t .caller (.engine (.ok engine))] [] n := by
    rw [← hpublished]
    exact .aside .told rfl
  have hfinished : Leads t n [.telling [] .finished] [] [] n := .aside .told rfl
  have hcalled := ((htold (.engine .caller)).above [.script .caller []]).trans
    ((hreturns.above [.script .caller []]).trans (leads_script_nil n .caller))
  have hpumped := ((htold .finished).above [.pumping 1 .caller, .script .caller []]).trans
    ((hfinished.above [.pumping 1 .caller, .script .caller []]).trans
      ((hpumping.above [.script .caller []]).trans (leads_script_nil n' .caller)))
  refine ⟨told ++ [.initialized t], n, fun e hmem => ?_, ⟨_, hcalled, rfl⟩,
    ⟨_, taken, later, n', hpumped, ?_, fun e he => hpumping.isOn e (List.mem_cons_of_mem _ he),
      hleft⟩⟩
  · rcases List.mem_append.mp hmem with hmem | hmem
    · exact hon e hmem
    · rw [List.mem_singleton.mp hmem]
      exact beq_self_eq_true _
  · simp [decisionEvents, fatals]

/-- There will be no engine: nobody is told. -/
theorem aftermath_of_failure {d : Machine σ E} (hd : d.dispatcher.tasks = []) (reason : String) :
    Aftermath t m d (.error reason) [.initialized t] d := by
  have hreturns : Leads t d [.pumping 1 .caller] _ [] d :=
    .aside (.drained hd) rfl
  have hpumped := (hreturns.above [.script .caller []]).trans (leads_script_nil d .caller)
  exact ⟨by simp [Event.isOn, Event.thread?], ⟨[], leads_script_nil d .caller, rfl⟩,
    ⟨_, 1, [], d, hpumped, rfl, List.forall_mem_nil _, fun _ => ⟨rfl, rfl⟩⟩⟩

end Machine

end LazyEngine
