/-
One run of the initializer, and one engine for all.

However the threads of a run interleave, and whether startup happens inline, as a posted task or is
asked for both ways:

* `invokedOnce_run` — the initializer runs at most once, and on the owner thread;
* `engine_invoked` — a published engine is what that one run produced;
* `ensureStarted_agrees` — all calls that get an engine get that one, and once somebody has got it
  everybody does.

Design notes: `Report` says which result a call can be given at which moment, for all the places
where a call can return: before its section, in it, after telling listeners and after a wait. The
run of the initializer is found again in the schedule, so that the engine is tied to the one step
that made it and not just to some value of the initializer.
-/
import LazyEngine.Proofs.Startup.Runs

namespace LazyEngine

/-- Whether the event is a run of the initializer. -/
def Event.isInitialization {E : Type} : Event E → Bool
  | .initialized _ => true
  | _ => false

namespace Machine

variable {σ E : Type} {m m' : Machine σ E} {t : ThreadId} {initializer : Initializer σ E}
  {owner : Owner}

/-- What a call that needs the engine can be told by a step from one machine to another. -/
inductive Report (m m' : Machine σ E) : Except StartupError E → Prop where
  | engine {e : E} : m.coordinator.phase = .started → m.coordinator.engine = some e →
      Report m m' (.ok e)
  | poisoned {reason : String} : m.coordinator.phase ≠ .started →
      m.coordinator.failure = some reason → Report m m' (.error (.poisoned reason))
  | init {reason : String} : m.coordinator.Undecided →
      m'.coordinator.failure = some reason → Report m m' (.error (.init reason))
  | notOwner : m.coordinator.Undecided →
      Report m m' (.error (.notOwnerContext "ensure_started"))
  | dispatch {reason : String} : m.coordinator.Undecided → Report m m' (.error (.dispatch reason))

/-- What a step writes into the log about the initializer and to calls that need the engine. -/
structure Logged (m : Machine σ E) (owner : Owner) (m' : Machine σ E)
    (events : List (Event E)) : Prop where
  log : m'.log = events ++ m.log
  report : ∀ u origin result, .answered u origin (.engine result) ∈ events → Report m m' result
  /-- Only the owner thread runs the initializer, and only if it is still there. -/
  initialized : (∀ u, .initialized u ∉ events) ∨
    events.countP Event.isInitialization = 1 ∧ (∀ u, .initialized u ∈ events → u = owner.thread) ∧
      m.coordinator.initializer ≠ none ∧ m'.coordinator.initializer = none

/-- A step that runs no initializer and reports to one call at most. -/
theorem logged_of_report {events : List (Event E)} (hlog : m'.log = events ++ m.log)
    (hr : ∀ e ∈ events, (∃ u origin result, e = .answered u origin (.engine result) ∧
      Report m m' result) ∨ ((∀ u, e ≠ .initialized u) ∧
        ∀ u origin result, e ≠ .answered u origin (.engine result))) :
    Logged m owner m' events where
  log := hlog
  report u origin result h := by
    rcases hr _ h with ⟨_, _, _, he, hr⟩ | ⟨-, he⟩
    · cases he
      exact hr
    · exact absurd rfl (he u origin result)
  initialized := by
    refine .inl fun u h => ?_
    rcases hr _ h with ⟨_, _, _, he, -⟩ | ⟨he, -⟩
    · cases he
    · exact he u rfl

theorem not_initialized_of_isPlain {e : Event E} (h : e.isPlain = true) :
    (∀ u, e ≠ .initialized u) ∧ ∀ u origin result, e ≠ .answered u origin (.engine result) := by
  refine ⟨fun u he => ?_, fun u origin result he => ?_⟩ <;> subst he <;> cases h

theorem Alike.logged {n : Machine σ E} (h : Alike m n) (stack : List Frame) :
    ∃ events, Logged m owner (n.withStack t stack) events := by
  obtain ⟨events, hlog, hplain⟩ := h.log
  exact ⟨events, logged_of_report hlog fun e he => .inr (not_initialized_of_isPlain (hplain e he))⟩

namespace Sound

theorem published_eq (h : Sound initializer owner m) (hp : m.coordinator.phase = .started) :
    ∃ e, m.coordinator.engine = some e ∧ m.coordinator.published = .ok e := by
  obtain ⟨e, he⟩ := h.started_iff.1 hp
  exact ⟨e, he, by rw [Coordinator.published, he]⟩

theorem logged (h : Sound initializer owner m) (ht : Turn m t m') :
    ∃ events, Logged m owner m' events := by
  -- a step that writes one result of a call that needs the engine
  have one {n : Machine σ E} (u : ThreadId) (origin : Origin) {result : Except StartupError E}
      (hlog : n.log = .answered u origin (.engine result) :: m.log) (hr : Report m n result) :
      ∃ events, Logged m owner n events := by
    refine ⟨[_], logged_of_report hlog ?_⟩
    intro e he
    exact .inl ⟨u, origin, result, List.mem_singleton.1 he, hr⟩
  -- a step that writes something else, or nothing
  have other {n : Machine σ E} (events : List (Event E)) (hlog : n.log = events ++ m.log)
      (he : ∀ e ∈ events, (∀ u, e ≠ .initialized u) ∧
        ∀ u origin result, e ≠ .answered u origin (.engine result)) :
      ∃ events, Logged m owner n events :=
    ⟨events, logged_of_report hlog fun e h => .inr (he e h)⟩
  cases ht with
  | quiet hq =>
    obtain ⟨n, stack, ha, rfl⟩ := hq.alike
    exact ha.logged stack
  | died _ _ ha => exact ha.logged []
  | stuck hu hn => exact absurd hn (h.initializer_ne_none hu)
  | glanced hs he => exact one t _ rfl (.engine (h.started_iff.2 ⟨_, he⟩) he)
  | late hs hp =>
    obtain ⟨e, he, hpub⟩ := h.published_eq hp
    rw [hpub]
    exact one t _ rfl (.engine hp he)
  | poisoned hs hp hf => exact one t _ rfl (.poisoned hp hf)
  | refused hs hu he =>
    rcases he with rfl | ⟨r, -, -, rfl⟩
    · exact one t _ rfl (.notOwner hu)
    · exact one t _ rfl (.dispatch hu)
  | woken hs hw hr =>
    by_cases hp : m.coordinator.phase = .started
    · obtain ⟨e, he, hpub⟩ := h.published_eq hp
      simp only [Coordinator.recheck, Phase.isStarted_iff.2 hp, if_true, Option.some.injEq,
        hpub] at hr
      subst hr
      exact one t _ rfl (.engine hp he)
    · simp only [Coordinator.recheck, Coordinator.isStarted_eq_false hp, Bool.false_eq_true,
        if_false, Option.map_eq_some_iff] at hr
      obtain ⟨reason, hf, rfl⟩ := hr
      exact one t _ rfl (.poisoned hp hf)
  | @told sequel below hs =>
    have hp := h.started_of_telling (hs ▸ List.mem_cons_self)
    cases sequel with
    | engine origin =>
      obtain ⟨e, he, hpub⟩ := h.published_eq hp
      exact one t origin (by rw [goOnEvents, hpub]; rfl) (.engine hp he)
    | notified origin number => exact other [_] rfl (by simp)
    | finished => exact other [] rfl (by simp)
  | started hs hl hu hi hv =>
    have ho := h.isCurrent_of_launch hs hl
    refine ⟨[_], rfl, by simp, .inr ⟨rfl, by simp [ho], by simp [hi], ?_⟩⟩
    cases hl <;> rfl
  | @failed f c sequel below f' reason hs hl hu hi hv =>
    have ho := h.isCurrent_of_launch hs hl
    have hc : (c.failed reason).failure = some reason := rfl
    refine ⟨[_, _], rfl, ?_, .inr ⟨?_, ?_, by simp [hi], ?_⟩⟩
    · intro u origin result hmem
      cases sequel <;> simp [failureEvent] at hmem
      obtain ⟨-, -, rfl⟩ := hmem
      exact .init hu hc
    · cases sequel <;> simp [failureEvent, Event.isInitialization]
    · cases sequel <;> simp [failureEvent, ho]
    · cases hl <;> rfl
  | background => exact other [_] rfl (by simp)
  | registerEarly => exact other [_] rfl (by simp)
  | unregister => exact other [_] rfl (by simp)
  | tell => exact other [_] rfl (by simp)
  | _ => exact other [] rfl (by simp)

end Sound

/-! ### The initializer runs once -/

/-- The step of a thread runs the initializer, which comes to an outcome. -/
def Invokes (m : Machine σ E) (t : ThreadId) (initializer : Initializer σ E)
    (outcome : InitOutcome E) : Prop :=
  ∃ m' events, m.step t = some m' ∧ m'.log = events ++ .initialized t :: m.log ∧
    (initializer m.host).1 = outcome

/-- The initializer is still there, or has run exactly once on the owner thread. -/
structure InvokedOnce (owner : Owner) (m : Machine σ E) : Prop where
  count : m.log.countP Event.isInitialization ≤ 1
  absent : m.coordinator.initializer ≠ none → m.log.countP Event.isInitialization = 0
  onOwner : ∀ u, .initialized u ∈ m.log → u = owner.thread

/-- An initializer that has been taken out never comes back. -/
theorem initializer_eq_none_of_change {c c' : Coordinator σ E Listener}
    (h : c.Change owner c') (hi : c.initializer = none) : c'.initializer = none := by
  cases h with
  | stick hb | succeed hb | fail hb => cases hb <;> rfl
  | _ => exact hi

theorem InvokedOnce.step (ho : InvokedOnce owner m) (h : Sound initializer owner m)
    (ht : Turn m t m') : InvokedOnce owner m' := by
  obtain ⟨events, hlog, -, hinit⟩ := h.logged ht
  have hcount : m'.log.countP Event.isInitialization
      = events.countP Event.isInitialization + m.log.countP Event.isInitialization := by
    rw [hlog, List.countP_append]
  -- The step does not run the initializer, or it runs it once and takes it away.
  rcases hinit with hnone | ⟨hone, hown, hsome, hgone⟩
  · have hzero : events.countP Event.isInitialization = 0 := by
      rw [List.countP_eq_zero]
      intro e he hinit
      cases e with
      | initialized u => exact hnone u he
      | _ => cases hinit
    refine ⟨by rw [hcount, hzero, Nat.zero_add]; exact ho.count, fun hi => ?_, fun u hu => ?_⟩
    · rw [hcount, hzero, Nat.zero_add]
      exact ho.absent fun hnil => hi (initializer_eq_none_of_change (h.change ht) hnil)
    · rw [hlog] at hu
      rcases List.mem_append.1 hu with hu | hu
      · exact absurd hu (hnone u)
      · exact ho.onOwner u hu
  · have heq : m'.log.countP Event.isInitialization = 1 := by
      rw [hcount, hone, ho.absent hsome]
    refine ⟨Nat.le_of_eq heq, fun hi => absurd hgone hi, fun u hu => ?_⟩
    rw [hlog] at hu
    rcases List.mem_append.1 hu with hu | hu
    · exact hown u hu
    · exact ho.onOwner u hu

theorem invokedOnce_run (s : Setup σ E) (schedule : List ThreadId) :
    InvokedOnce s.owner (s.machine.run schedule) := by
  refine run_invariant s (P := InvokedOnce s.owner) ?_ (fun _ _ _ h ht ho => ho.step h ht) schedule
  exact ⟨by simp [Setup.machine], fun _ => rfl, by simp [Setup.machine]⟩

/-- The engine appears in a step of the owner thread that runs the initializer. -/
theorem invokes_of_engine (h : Sound initializer owner m) (hs : m.step t = some m')
    (hnone : m.coordinator.engine = none) {e : E} (he : m'.coordinator.engine = some e) :
    t = owner.thread ∧ m.Invokes t initializer (.engine e) := by
  -- a step that leaves the engine alone is not the one
  have alike {c : Coordinator σ E Listener} (hc : c.engine = m.coordinator.engine)
      (he : c.engine = some e) : t = owner.thread ∧ m.Invokes t initializer (.engine e) := by
    rw [hc, hnone] at he
    cases he
  have ht := turn_of_step hs
  cases ht with
  | quiet hq =>
    obtain ⟨n, stack, ha, rfl⟩ := hq.alike
    exact alike (congrArg _ ha.coordinator) he
  | died _ _ ha => exact alike (congrArg _ ha.coordinator) he
  | stuck hu hn => exact absurd hn (h.initializer_ne_none hu)
  | @started f c sequel below f' engine hstack hl hu hi hv =>
    have hc : c.engine = none := by cases hl <;> exact hnone
    have hee : engine = e := by
      have : (c.succeeded engine).engine = some e := he
      simpa [Coordinator.succeeded, hc] using this
    obtain rfl := h.initializer_eq hi
    exact ⟨h.isCurrent_of_launch hstack hl, _, [], hs, rfl, hee ▸ hv⟩
  | @failed f c sequel below f' reason hstack hl =>
    refine alike (c := c.failed reason) ?_ he
    cases hl <;> rfl
  | background _ _ hb =>
    refine alike ?_ he
    cases hb <;> rfl
  | @unregister origin id =>
    obtain ⟨r, hr⟩ := Coordinator.unregister_eq m.coordinator id
    refine alike ?_ he
    show (m.coordinator.unregister id).2.engine = m.coordinator.engine
    rw [hr]
  | _ => exact alike rfl he

/-- A published engine is what the initializer made of it in one step of the owner thread. -/
theorem engine_invoked (s : Setup σ E) {schedule : List ThreadId} {e : E}
    (he : (s.machine.run schedule).coordinator.engine = some e) :
    ∃ before after, schedule = before ++ s.owner.thread :: after ∧
      (s.machine.run before).Invokes s.owner.thread s.initializer (.engine e) := by
  have hstart : ¬ s.machine.coordinator.engine = some e := by
    intro h
    cases h
  obtain ⟨before, t, after, m', rfl, hnot, hs, he'⟩ :=
    run_crossing (P := fun m => m.coordinator.engine = some e) hstart he
  have hsound := sound_run s before
  have hnone : (s.machine.run before).coordinator.engine = none := by
    cases hb : (s.machine.run before).coordinator.engine with
    | none => rfl
    | some e₀ =>
      -- an engine that is there already stays
      have := (hsound.change (turn_of_step hs)).engine_mono hb
      rw [he'] at this
      cases this
      exact absurd hb hnot
  obtain ⟨rfl, hinv⟩ := invokes_of_engine hsound hs hnone he'
  exact ⟨before, after, rfl, hinv⟩

/-! ### One engine for all -/

/-- A call that finds the engine published returns it in its first step. -/
theorem step_ensureStarted {e : E} (he : m.coordinator.engine = some e) {origin : Origin}
    {claim : Claim} {calls : List Call} {below : List Frame}
    (hs : m.stack t = .script origin (.ensureStarted claim :: calls) :: below) :
    m.step t = some ((m.answer t origin (.engine (.ok e))).withStack t
      (.script origin calls :: below)) :=
  step_of_acts hs (.aside (.glanced he))

theorem Report.eq_ok {result : Except StartupError E} {e : E} (hr : Report m m' result)
    (hp : m.coordinator.phase = .started) (he : m.coordinator.engine = some e) :
    result = .ok e := by
  cases hr with
  | engine _ he' =>
    rw [he] at he'
    cases he'
    rfl
  | poisoned hn => exact absurd hp hn
  | init hu => exact absurd hp hu.1
  | notOwner hu => exact absurd hp hu.1
  | dispatch hu => exact absurd hp hu.1

/-- The answers that calls for the engine have been given. -/
structure Answered (m : Machine σ E) : Prop where
  ok : ∀ u origin e, .answered u origin (.engine (.ok e)) ∈ m.log →
    m.coordinator.engine = some e
  error : ∀ u origin what, .answered u origin (.engine (.error (.notStarted what))) ∉ m.log

theorem Answered.step (ha : Answered m) (h : Sound initializer owner m) (ht : Turn m t m') :
    Answered m' := by
  obtain ⟨events, hlog, hreport, -⟩ := h.logged ht
  refine ⟨fun u origin e hmem => ?_, fun u origin what hmem => ?_⟩
  · rw [hlog] at hmem
    rcases List.mem_append.1 hmem with hmem | hmem
    · cases hreport u origin _ hmem with
      | engine _ he => exact (h.change ht).engine_mono he
    · exact (h.change ht).engine_mono (ha.ok u origin e hmem)
  · rw [hlog] at hmem
    rcases List.mem_append.1 hmem with hmem | hmem
    · cases hreport u origin _ hmem
    · exact ha.error u origin what hmem

theorem answered_run (s : Setup σ E) (schedule : List ThreadId) :
    Answered (s.machine.run schedule) := by
  refine run_invariant s (P := Answered) ?_ (fun _ _ _ h ht ha => ha.step h ht) schedule
  exact ⟨by simp [Setup.machine], by simp [Setup.machine]⟩

/-- The engine is running, and whatever calls have been told since is that it is. -/
structure Settled (e : E) (before m : Machine σ E) : Prop where
  phase : m.coordinator.phase = .started
  engine : m.coordinator.engine = some e
  news : ∃ news, m.log = news ++ before.log ∧
    ∀ u origin result, .answered u origin (.engine result) ∈ news → result = .ok e

theorem Settled.step {before : Machine σ E} {e : E} (hd : Settled e before m)
    (h : Sound initializer owner m) (ht : Turn m t m') : Settled e before m' := by
  obtain ⟨events, hlog, hreport, -⟩ := h.logged ht
  obtain ⟨news, hnews, hok⟩ := hd.news
  refine ⟨h.started_mono ht hd.phase, (h.change ht).engine_mono hd.engine, events ++ news, ?_,
    fun u origin result hmem => ?_⟩
  · rw [hlog, hnews, List.append_assoc]
  · rcases List.mem_append.1 hmem with hmem | hmem
    · exact (hreport u origin result hmem).eq_ok hd.phase hd.engine
    · exact hok u origin result hmem

/-- **The initializer runs at most once, and all agree on its engine.** In every run:

* the initializer runs at most once, and on the owner thread;
* a call that returns an engine returns the one that is published, in the phase `started`, and that
  one is what the initializer produced in one step of the owner thread;
* no call returns `notStarted`;
* once a call has returned an engine or an engine is published, the phase is and remains `started`,
  the engine remains the same, every further call returns it in its first step, and so does every
  call that is under way. -/
theorem ensureStarted_agrees (s : Setup σ E) (schedule : List ThreadId) :
    let m := s.machine.run schedule
    (m.log.countP Event.isInitialization ≤ 1 ∧
      ∀ u, .initialized u ∈ m.log → u = s.owner.thread) ∧
    (∀ u origin e, .answered u origin (.engine (.ok e)) ∈ m.log →
      m.coordinator.phase = .started ∧ m.coordinator.engine = some e ∧
      ∃ before after, schedule = before ++ s.owner.thread :: after ∧
        (s.machine.run before).Invokes s.owner.thread s.initializer (.engine e)) ∧
    (∀ u origin what, .answered u origin (.engine (.error (.notStarted what))) ∉ m.log) ∧
    ∀ e, ((∃ u origin, .answered u origin (.engine (.ok e)) ∈ m.log) ∨
        m.coordinator.engine = some e) →
      ∀ later,
        let m' := m.run later
        Settled e m m' ∧
        ∀ t origin claim calls below,
          m'.stack t = .script origin (.ensureStarted claim :: calls) :: below →
          m'.step t = some ((m'.answer t origin (.engine (.ok e))).withStack t
            (.script origin calls :: below)) := by
  intro m
  have hsound : Sound s.initializer s.owner m := sound_run s schedule
  have honce : InvokedOnce s.owner m := invokedOnce_run s schedule
  -- Each of these three is kept by every step: one run of the initializer at most, on the owner
  -- thread, and no answer but the engine published or an error that is not `notStarted`.
  have hanswered : Answered m := answered_run s schedule
  refine ⟨⟨honce.count, honce.onOwner⟩, ?_, hanswered.error, ?_⟩
  · intro u origin e hmem
    have he := hanswered.ok u origin e hmem
    exact ⟨hsound.started_iff.2 ⟨e, he⟩, he, engine_invoked s he⟩
  · intro e hknown later m'
    -- Whoever knows the engine knows the one that is published, and it stays.
    have he : m.coordinator.engine = some e := by
      rcases hknown with ⟨u, origin, hmem⟩ | he
      · exact hanswered.ok u origin e hmem
      · exact he
    have hsettled : Settled e m m' := by
      refine sound_invariant (P := Settled e m) hsound ?_ (fun _ _ _ h ht hd => hd.step h ht) later
      exact ⟨hsound.started_iff.2 ⟨e, he⟩, he, [], rfl, by simp⟩
    refine ⟨hsettled, fun t origin claim calls below hs => ?_⟩
    exact step_ensureStarted hsettled.engine hs

end Machine

end LazyEngine
