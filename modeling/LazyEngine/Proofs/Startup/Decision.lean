/-
The step that decides startup.

Startup is decided when the initializer runs, and the step that runs it does everything else as
well: it publishes the engine or records the failure, wakes those who wait and, if there is an
engine, takes the waiting listeners out of the registry.

* `Decides` — such a step, with what the initializer made of it and how its thread goes on;
* `Sound.decides` — a step is such a step, or leaves the engine, the failure, the initializer and
  its host alone;
* `decides_of_started`, `decides_of_invokes` — the engine appears in such a step only, and the
  initializer runs in such a step only.

Design notes: a run that ends in another stage than it started in has been through such a step, so
proofs about what comes after the decision begin with one of these lemmas and know the machine that
the step left.
-/
import LazyEngine.Proofs.Startup.Agreement
import LazyEngine.Proofs.Startup.Deliveries

namespace LazyEngine

namespace Machine

variable {σ E : Type} {m m' : Machine σ E} {t : ThreadId} {initializer : Initializer σ E}
  {owner : Owner}

/-- A step that runs the initializer: what the outcome is, what the thread does next, and what lies
below the frame that ran it. -/
inductive Decides (m : Machine σ E) (t : ThreadId) (initializer : Initializer σ E) :
    Frame → List Frame → InitOutcome E → Machine σ E → Prop where
  | started {f : Frame} {c : Coordinator σ E Listener} {sequel : Sequel} {below : List Frame}
      {engine : E} :
      m.stack t = f :: below → Launch m t f c sequel → m.coordinator.Undecided →
      (initializer m.host).1 = .engine engine →
      Decides m t initializer f below (.engine engine) ({ m with
        coordinator := c.succeeded engine
        host := (initializer m.host).2
        sleepers := []
        log := .initialized t :: m.log }.withStack t
          (.telling (queue (m.coordinator.registrants.live m.alive)) sequel :: below))
  | failed {f : Frame} {c : Coordinator σ E Listener} {sequel : Sequel} {below : List Frame}
      {outcome : InitOutcome E} {reason : String} :
      m.stack t = f :: below → Launch m t f c sequel → m.coordinator.Undecided →
      (initializer m.host).1 = outcome → outcome.verdict = .error reason →
      Decides m t initializer f below outcome ({ m with
        coordinator := c.failed reason
        host := (initializer m.host).2
        sleepers := []
        log := failureEvent t reason sequel :: .initialized t :: m.log }.withStack t below)

/-- Startup is where it was: nothing of what running the initializer changes has changed. -/
structure Suspended (m m' : Machine σ E) : Prop where
  initializer : m'.coordinator.initializer = m.coordinator.initializer
  engine : m'.coordinator.engine = m.coordinator.engine
  failure : m'.coordinator.failure = m.coordinator.failure
  started : m'.coordinator.phase = .started ↔ m.coordinator.phase = .started
  host : m'.host = m.host

theorem Suspended.undecided_iff (h : Suspended m m') :
    m'.coordinator.Undecided ↔ m.coordinator.Undecided := by
  rw [Coordinator.Undecided, Coordinator.Undecided, h.failure, ne_eq, h.started]

/-- A coordinator that only its owner, or its registry, tells from another. -/
theorem Suspended.of_fields {c : Coordinator σ E Listener}
    (hc : m'.coordinator = c) (hhost : m'.host = m.host)
    (hi : c.initializer = m.coordinator.initializer) (he : c.engine = m.coordinator.engine)
    (hf : c.failure = m.coordinator.failure)
    (hp : c.phase = .started ↔ m.coordinator.phase = .started) : Suspended m m' := by
  subst hc
  exact ⟨hi, he, hf, hp, hhost⟩

theorem Suspended.of_eq (hc : m'.coordinator = m.coordinator) (hhost : m'.host = m.host) :
    Suspended m m' :=
  .of_fields hc hhost rfl rfl rfl Iff.rfl

/-- Every step decides startup, or leaves it where it was, if the initializer is there until it has
been used. -/
theorem Turn.decides (ht : Turn m t m')
    (hthere : m.coordinator.Undecided → m.coordinator.initializer ≠ none) :
    (∃ initializer f below outcome, m.coordinator.initializer = some initializer ∧
      Decides m t initializer f below outcome m') ∨ Suspended m m' := by
  cases ht with
  | quiet hq =>
    obtain ⟨n, stack, ha, rfl⟩ := hq.alike
    exact .inr (.of_eq ha.coordinator ha.host)
  | died _ _ ha => exact .inr (.of_eq ha.coordinator ha.host)
  | stuck hu hn => exact absurd hn (hthere hu)
  | @started f c sequel below initializer engine hs hl hu hi hv =>
    rw [hl.registrants_eq]
    exact .inl ⟨initializer, f, below, _, hi, .started hs hl hu hv⟩
  | @failed f c sequel below initializer reason hs hl hu hi hv =>
    exact .inl ⟨initializer, f, below, _, hi, .failed hs hl hu rfl hv⟩
  -- A startup that is asked for is still undecided; only its phase has moved, and not to started.
  | posted _ hu hn =>
    refine .inr (.of_fields rfl rfl rfl rfl rfl ?_)
    exact ⟨nofun, fun hp => absurd hp hu.1⟩
  | background _ _ hb =>
    right
    cases hb with
    | underway | refused => exact .of_fields rfl rfl rfl rfl rfl Iff.rfl
    | posted hn =>
      refine .of_fields rfl rfl rfl rfl rfl ⟨nofun, fun hp => ?_⟩
      rw [hn] at hp
      cases hp
  | @unregister origin id =>
    obtain ⟨r, hr⟩ := Coordinator.unregister_eq m.coordinator id
    exact .inr (.of_fields hr rfl rfl rfl rfl Iff.rfl)
  | _ => exact .inr (.of_fields rfl rfl rfl rfl rfl Iff.rfl)

/-- Every step of a run decides startup, or leaves it where it was. -/
theorem Sound.decides (h : Sound initializer owner m) (ht : Turn m t m') :
    (∃ f below outcome, Decides m t initializer f below outcome m') ∨ Suspended m m' := by
  rcases ht.decides h.initializer_ne_none with ⟨f', f, below, outcome, hi, hd⟩ | hsuspended
  · obtain rfl := h.initializer_eq hi
    exact .inl ⟨f, below, outcome, hd⟩
  · exact .inr hsuspended

theorem Decides.undecided {f : Frame} {below : List Frame} {outcome : InitOutcome E}
    (h : Decides m t initializer f below outcome m') : m.coordinator.Undecided := by
  cases h with
  | started _ _ hu | failed _ _ hu => exact hu

theorem Decides.outcome_eq {f : Frame} {below : List Frame} {outcome : InitOutcome E}
    (h : Decides m t initializer f below outcome m') : (initializer m.host).1 = outcome := by
  cases h with
  | started _ _ _ hv => exact hv
  | failed _ _ _ hv => exact hv

theorem Decides.eq_owner {f : Frame} {below : List Frame} {outcome : InitOutcome E}
    (h : Decides m t initializer f below outcome m') (hs : Sound initializer owner m) :
    t = owner.thread := by
  cases h with
  | started hstack hl | failed hstack hl => exact hs.isCurrent_of_launch hstack hl

theorem Decides.invokes {f : Frame} {below : List Frame} {outcome : InitOutcome E}
    (h : Decides m t initializer f below outcome m') (hstep : m.step t = some m') :
    m.Invokes t initializer outcome := by
  cases h with
  | started _ _ _ hv => exact ⟨_, [], hstep, rfl, hv⟩
  | failed _ _ _ hv => exact ⟨_, [_], hstep, rfl, hv⟩

/-- After the step that decides it, startup is decided. -/
theorem Decides.decided {f : Frame} {below : List Frame} {outcome : InitOutcome E}
    (h : Decides m t initializer f below outcome m') : ¬m'.coordinator.Undecided := by
  cases h with
  | started => exact fun hu => hu.1 rfl
  | failed => exact fun hu => absurd hu.2 nofun

/-- A failure leaves the phase where a request for startup leads. -/
theorem phase_failed {c : Coordinator σ E Listener} (hp : c.phase ≠ .started) (reason : String) :
    (c.failed reason).phase = .starting := by
  show c.phase.advance .starting = .starting
  cases h : c.phase with
  | started => exact absurd h hp
  | notStarted | starting => rfl

theorem Launch.phase_eq {f : Frame} {c : Coordinator σ E Listener} {sequel : Sequel}
    (h : Launch m t f c sequel) : c.phase = m.coordinator.phase := by
  cases h <;> rfl

/-- The engine is there after a step and was not before it: the step has made it. -/
theorem Sound.decides_of_started (h : Sound initializer owner m) (hstep : m.step t = some m')
    (hp : m.coordinator.phase ≠ .started) (hp' : m'.coordinator.phase = .started) :
    ∃ f c sequel below engine, m.stack t = f :: below ∧ Launch m t f c sequel ∧
      m.coordinator.Undecided ∧ (initializer m.host).1 = .engine engine ∧
      m' = { m with
        coordinator := c.succeeded engine
        host := (initializer m.host).2
        sleepers := []
        log := .initialized t :: m.log }.withStack t
          (.telling (queue (m.coordinator.registrants.live m.alive)) sequel :: below) := by
  rcases h.decides (turn_of_step hstep) with ⟨f, below, outcome, hd⟩ | hsuspended
  · cases hd with
    | @started c sequel below engine hs hl hu hv =>
      exact ⟨f, c, sequel, below, engine, hs, hl, hu, hv, rfl⟩
    | @failed c sequel below outcome reason hs hl hu =>
      have hphase : (c.failed reason).phase = .starting :=
        phase_failed (hl.phase_eq ▸ hu.1) reason
      exact absurd (hphase.symm.trans hp') nofun
  · exact absurd (hsuspended.started.1 hp') hp

/-- The initializer runs in no other steps. -/
theorem Sound.decides_of_invokes (h : Sound initializer owner m) {outcome : InitOutcome E}
    (hi : m.Invokes t initializer outcome) :
    ∃ f below m', m.step t = some m' ∧ Decides m t initializer f below outcome m' := by
  obtain ⟨m', events, hstep, hlog, houtcome⟩ := hi
  have ht := turn_of_step hstep
  rcases h.decides ht with ⟨f, below, outcome', hd⟩ | hsuspended
  · have heq : outcome' = outcome := hd.outcome_eq.symm.trans houtcome
    exact ⟨f, below, m', hstep, heq ▸ hd⟩
  · -- a step that writes the event takes the initializer out
    obtain ⟨events', hlog', -, hinit⟩ := h.logged ht
    have hmem : .initialized t ∈ events' := by
      rw [hlog', List.append_cons] at hlog
      rw [List.append_cancel_right hlog]
      exact List.mem_append_right _ List.mem_cons_self
    rcases hinit with hnone | ⟨-, -, hsome, hgone⟩
    · exact absurd hmem (hnone t)
    · exact absurd (hsuspended.initializer.symm.trans hgone) hsome

/-- Until startup is decided, the host is what it was in the beginning. -/
theorem host_eq_of_undecided (s : Setup σ E) (schedule : List ThreadId)
    (h : (s.machine.run schedule).coordinator.Undecided) :
    (s.machine.run schedule).host = s.host := by
  refine run_invariant (P := fun m => m.coordinator.Undecided → m.host = s.host) s (fun _ => rfl)
    ?_ schedule h
  intro m t m' hsound ht hhost hu
  rcases hsound.decides ht with ⟨f, below, outcome, hd⟩ | hsuspended
  · exact absurd hu hd.decided
  · rw [hsuspended.host]
    exact hhost (hsuspended.undecided_iff.mp hu)

end Machine

end LazyEngine
