/-
Attempts to start the engine that are turned down.

A call for startup is turned down when it claims to be the owner and is not, when its post is
refused, or when startup has failed before. The checks, the recording of the owner, the post and
the move of the phase are one section, and an attempt that is turned down must not have come half
through it:

* `Untouched` — the coordinator, the dispatcher and the host are as before, but that the owner may
  have been recorded;
* `Sound.attempt` — a step of a call for startup runs the initializer, posts startup, or leaves all
  this untouched;
* `Sound.notOwner_answered_iff` — when a call is told that it is not on the owner thread;
* `rejected_attempts_atomic` — both of these in every run, and that an attempt made after any number
  of rejections still runs the initializer and tells those who are still registered.

Design notes: what a dispatcher accepts is its own business, and it may refuse now and accept later.
So the dispatcher of a run may be replaced by any other of the same owner before the attempts begin.
-/
import LazyEngine.Proofs.Startup.Decision
import Mathlib.Data.List.Induction

namespace LazyEngine

namespace Coordinator

variable {σ E L : Type} {c c' c'' : Coordinator σ E L} {owner : Owner}

/-- Nothing has changed, but that the owner may have been recorded. -/
def Untouched (owner : Owner) (c c' : Coordinator σ E L) : Prop :=
  c' = c ∨ c.owner = none ∧ c' = { c with owner := some owner }

theorem untouched_bindOwner (owner : Owner) (c : Coordinator σ E L) :
    c.Untouched owner (c.bindOwner owner) := by
  cases ho : c.owner with
  | none => exact .inr ⟨ho, by rw [bindOwner, ho]; rfl⟩
  | some o =>
    left
    rw [bindOwner, ho, Option.some_or, ← ho]

theorem Untouched.trans (h : c.Untouched owner c') (h' : c'.Untouched owner c'') :
    c.Untouched owner c'' := by
  rcases h with rfl | ⟨hnone, rfl⟩
  · exact h'
  · rcases h' with rfl | ⟨hnone', -⟩
    · exact .inr ⟨hnone, rfl⟩
    · -- the owner has been recorded, and nobody records it again
      cases hnone'

theorem Untouched.undecided_iff (h : c.Untouched owner c') : c'.Undecided ↔ c.Undecided := by
  rcases h with rfl | ⟨-, rfl⟩
  · exact Iff.rfl
  · exact Iff.rfl

theorem Untouched.registrants_eq (h : c.Untouched owner c') : c'.registrants = c.registrants := by
  rcases h with rfl | ⟨-, rfl⟩
  · rfl
  · rfl

end Coordinator

/-- Frames that belong to a call for startup. -/
def Frame.asks : Frame → Bool
  | script _ (.ensureStarted _ :: _) | script _ (.startInBackground :: _) => true
  | entering _ _ _ | requesting _ | awaitingStartup _ => true
  | _ => false

namespace Machine

variable {σ E : Type} {m m' m'' : Machine σ E} {t u : ThreadId} {initializer : Initializer σ E}
  {owner : Owner} {claim admitted : Bool} {origin : Origin} {below : List Frame}

/-- What startup depends on is as before, but that the owner may have been recorded. -/
structure Untouched (m m' : Machine σ E) : Prop where
  coordinator : m.coordinator.Untouched m.dispatcher.owner m'.coordinator
  dispatcher : m'.dispatcher = m.dispatcher
  host : m'.host = m.host
  held : m'.held = m.held

namespace Untouched

theorem of_eq (hc : m'.coordinator = m.coordinator) (hd : m'.dispatcher = m.dispatcher)
    (hhost : m'.host = m.host) (hheld : m'.held = m.held) : Untouched m m' :=
  ⟨.inl hc, hd, hhost, hheld⟩

theorem of_bindOwner (hc : m'.coordinator = m.coordinator.bindOwner m.dispatcher.owner)
    (hd : m'.dispatcher = m.dispatcher) (hhost : m'.host = m.host) (hheld : m'.held = m.held) :
    Untouched m m' :=
  ⟨hc ▸ Coordinator.untouched_bindOwner .., hd, hhost, hheld⟩

theorem refl (m : Machine σ E) : Untouched m m :=
  of_eq rfl rfl rfl rfl

theorem trans (h : Untouched m m') (h' : Untouched m' m'') : Untouched m m'' where
  coordinator := by
    have hc := h'.coordinator
    rw [h.dispatcher] at hc
    exact h.coordinator.trans hc
  dispatcher := h'.dispatcher.trans h.dispatcher
  host := h'.host.trans h.host
  held := h'.held.trans h.held

theorem undecided_iff (h : Untouched m m') :
    m'.coordinator.Undecided ↔ m.coordinator.Undecided :=
  h.coordinator.undecided_iff

/-- Those who would be told are the same. -/
theorem live_eq (h : Untouched m m') :
    m'.coordinator.registrants.live m'.alive = m.coordinator.registrants.live m.alive := by
  have halive : m'.alive = m.alive := by
    funext l
    rw [alive, alive, h.held]
  rw [h.coordinator.registrants_eq, halive]

end Untouched

/-- Every step of a part of a schedule leaves startup untouched. -/
def Rejecting (m : Machine σ E) (schedule : List ThreadId) : Prop :=
  ∀ part u, part ++ [u] <+: schedule → Untouched (m.run part) (m.run (part ++ [u]))

/-- Any number of steps that leave startup untouched leave it untouched together. -/
theorem Rejecting.untouched {schedule : List ThreadId} (h : m.Rejecting schedule) :
    Untouched m (m.run schedule) := by
  induction schedule using List.reverseRecOn with
  | nil => exact .refl m
  | append_singleton schedule u ih =>
    have hfirst : Untouched m (m.run schedule) :=
      ih fun part v hpart => h part v (hpart.trans (List.prefix_append ..))
    exact hfirst.trans (h schedule u (List.prefix_refl _))

/-- Startup has been posted, and will be run with the same initializer for the same listeners. -/
structure Accepted (m m' : Machine σ E) : Prop where
  posted : m'.dispatcher = m.dispatcher.push .startup
  phase : m'.coordinator.phase = .starting
  failure : m'.coordinator.failure = none
  initializer : m'.coordinator.initializer = m.coordinator.initializer
  registrants : m'.coordinator.registrants = m.coordinator.registrants
  host : m'.host = m.host
  held : m'.held = m.held

theorem Accepted.queued (h : Accepted m m') : .startup ∈ m'.dispatcher.tasks := by
  rw [h.posted, Dispatcher.tasks_push]
  exact List.mem_append_right _ List.mem_cons_self

theorem accepted_of_requested (hd : m'.dispatcher = m.dispatcher.push .startup)
    (hf : m.coordinator.failure = none)
    (hc : m'.coordinator = m.coordinator.requested m.dispatcher.owner) (hhost : m'.host = m.host)
    (hheld : m'.held = m.held) : Accepted m m' where
  posted := hd
  phase := congrArg (·.phase) hc
  failure := (congrArg (·.failure) hc).trans hf
  initializer := congrArg (·.initializer) hc
  registrants := congrArg (·.registrants) hc
  host := hhost
  held := hheld

theorem rejecting_nil (m : Machine σ E) : m.Rejecting [] := by
  intro part u hpart
  exact absurd (List.prefix_nil.1 hpart) (by simp)

theorem rejecting_cons {rest : List ThreadId} (h : Untouched m (m.run [u]))
    (hrest : (m.run [u]).Rejecting rest) : m.Rejecting (u :: rest) := by
  intro part v hpart
  cases part with
  | nil =>
    obtain ⟨rfl, -⟩ := List.cons_prefix_cons.1 hpart
    exact h
  | cons w part =>
    obtain ⟨rfl, hrestpart⟩ := List.cons_prefix_cons.1 hpart
    exact hrest part v hrestpart

/-! ### The section of a call -/

/-- A thread that is not the owner claims to be, while startup is neither done nor known to have
failed. -/
def FalseClaim (m : Machine σ E) (owner : Owner) (t : ThreadId) (claim : Bool) : Prop :=
  claim = true ∧ t ≠ owner.thread ∧ m.coordinator.Undecided

theorem Sound.untouched (h : Sound initializer owner m) (hp : m.coordinator.phase = .notStarted) :
    m.coordinator.InStage initializer owner .untouched := by
  obtain ⟨s, hs⟩ := h.stage
  cases s with
  | untouched => exact hs
  | _ => cases hs.1.symm.trans hp

theorem Sound.isCurrent_eq (h : Sound initializer owner m) :
    (m.coordinator.ownerOr m.dispatcher.owner).isCurrent t = owner.isCurrent t := by
  rcases h.ownedBy with ho | ho
  · rw [Coordinator.ownerOr, ho, Option.getD_none, h.owner_eq]
  · rw [Coordinator.ownerOr, ho, Option.getD_some]

/-- How the section of a call goes: it answers, or it runs the initializer, or it goes on without an
answer, having posted startup or having left startup untouched. -/
theorem Sound.enter_cases (h : Sound initializer owner m)
    (hs : m.stack t = .entering claim origin admitted :: below) (hstep : m.step t = some m') :
    (∃ result, Untouched m m' ∧ m'.log = .answered t origin (.engine result) :: m.log ∧
      ∀ what, result = .error (.notOwnerContext what) ↔
        what = "ensure_started" ∧ m.FalseClaim owner t claim) ∨
    (¬ m.FalseClaim owner t claim ∧ ∃ outcome, m.Invokes t initializer outcome) ∨
    ¬ m.FalseClaim owner t claim ∧ m'.log = m.log ∧ (Untouched m m' ∨ Accepted m m') := by
  obtain ⟨pushed, events, n, ha, rfl⟩ := acts_of_step hs rfl hstep
  -- An unclaimed call has claimed nothing.
  have claims : ¬ m.FalseClaim owner t false := fun hfalse => nomatch hfalse.1
  cases ha with
  | aside ha =>
    cases ha with
    | late hp =>
      obtain ⟨engine, -, hpub⟩ := h.published_eq hp
      refine .inl ⟨_, .of_eq rfl rfl rfl rfl, rfl, fun what => ?_⟩
      rw [hpub]
      exact ⟨nofun, fun hfalse => absurd hp hfalse.2.2.2.1⟩
    | poisoned hp hf =>
      refine .inl ⟨_, .of_eq rfl rfl rfl rfl, rfl, fun what => ?_⟩
      exact ⟨nofun, fun hfalse => absurd (hf.symm.trans hfalse.2.2.2.2) nofun⟩
    | underway hf => cases hf
  -- The one error that speaks of the owner comes of a false claim.
  | notOwner hu ho =>
    refine .inl ⟨_, .of_bindOwner rfl rfl rfl rfl, rfl, fun what => ?_⟩
    rw [h.isCurrent_eq, Bool.eq_false_iff, ne_eq, Owner.isCurrent_iff] at ho
    constructor
    · intro heq
      cases heq
      exact ⟨rfl, rfl, ho, hu⟩
    · rintro ⟨rfl, -⟩
      rfl
  | @refused _ r =>
    refine .inl ⟨_, .of_bindOwner rfl rfl rfl rfl, rfl, fun what => ?_⟩
    refine ⟨fun heq => ?_, fun hfalse => absurd hfalse.2 claims⟩
    -- A dispatcher that refuses says so, and never that the thread is not the owner.
    cases r <;> cases heq
  | looked => exact .inr (.inr ⟨claims, rfl, .inl (.of_eq rfl rfl rfl rfl)⟩)
  | posted hu => exact .inr (.inr ⟨claims, rfl, .inr (accepted_of_requested rfl hu.2 rfl rfl rfl)⟩)
  | joined => exact .inr (.inr ⟨claims, rfl, .inl (.of_bindOwner rfl rfl rfl rfl)⟩)
  | started hl hu hi hv =>
    cases hl with
    | inline ho =>
      rw [h.isCurrent_eq, Owner.isCurrent_iff] at ho
      obtain rfl := h.initializer_eq hi
      exact .inr (.inl ⟨fun hfalse => hfalse.2.1 ho, _, _, [], hstep, rfl, hv⟩)
  | failed hl hu hi hv =>
    cases hl with
    | inline ho =>
      rw [h.isCurrent_eq, Owner.isCurrent_iff] at ho
      obtain rfl := h.initializer_eq hi
      exact .inr (.inl ⟨fun hfalse => hfalse.2.1 ho, _, _, [_], hstep, rfl, rfl⟩)
  | stuck _ hu hi => exact absurd hi (h.initializer_ne_none hu)
  -- The others are not the section of a call.
  | postRefused hp | postLooked hp | jobAccepted hp | closureAccepted hp => cases hp
  | requestRefused hf | requestLooked hf | requested hf => cases hf
  | took hf => cases hf

/-- A section never has to wait. -/
theorem step_entering (hs : m.stack t = .entering claim origin admitted :: below) :
    ∃ m', m.step t = some m' := by
  rw [step, hs]
  exact ⟨_, rfl⟩

/-! ### The other steps of a call -/

variable {claimed : Claim} {calls : List Call}

/-- A step of a call that asks for startup without waiting. Only a refusal is an error. -/
theorem Sound.request_cases (h : Sound initializer owner m) {f : Frame} {rest : List Frame}
    (hs : m.stack t = f :: below) (hf : Requests f admitted origin rest)
    (hstep : m.step t = some m') :
    (∃ r : DispatchRefusal, Untouched m m' ∧
      m'.log = .answered t origin (.begun (.error r.error)) :: m.log) ∨
    (Untouched m m' ∨ Accepted m m') ∧
      (m'.log = m.log ∨ m'.log = .answered t origin (.begun (.ok ())) :: m.log) := by
  have hdrops : f.drops = false := by cases hf <;> rfl
  obtain ⟨pushed, events, n, ha, rfl⟩ := acts_of_step hs hdrops hstep
  cases ha with
  | aside ha =>
    cases ha with
    | underway hf' =>
      obtain ⟨rfl, rfl, rfl⟩ := hf.unique hf'
      exact .inr ⟨.inl (.of_eq rfl rfl rfl rfl), .inr rfl⟩
    | _ => cases hf
  | requestRefused hf' =>
    obtain ⟨-, rfl, rfl⟩ := hf.unique hf'
    exact .inl ⟨_, .of_bindOwner rfl rfl rfl rfl, rfl⟩
  | requestLooked => exact .inr ⟨.inl (.of_eq rfl rfl rfl rfl), .inl rfl⟩
  | requested hf' hn =>
    obtain ⟨rfl, rfl, rfl⟩ := hf.unique hf'
    -- Nothing has been decided where startup has not been asked for.
    have hfailure := (h.untouched hn).2.2.2
    exact .inr ⟨.inr (accepted_of_requested rfl hfailure rfl rfl rfl), .inr rfl⟩
  | postRefused hp | postLooked hp | jobAccepted hp | closureAccepted hp => cases hp <;> cases hf
  | started hl | failed hl | stuck hl => cases hl <;> cases hf
  | took hf' => cases hf' <;> cases hf
  | _ => cases hf

/-- A step of a call for startup runs the initializer, posts startup, or leaves startup
untouched. -/
theorem Sound.attempt (h : Sound initializer owner m) {f : Frame} (hs : m.stack t = f :: below)
    (hf : f.asks = true) (hstep : m.step t = some m') :
    Untouched m m' ∨ (∃ outcome, m.Invokes t initializer outcome) ∨ Accepted m m' := by
  have asked {f : Frame} {admitted : Bool} {origin : Origin} {rest : List Frame}
      (hs : m.stack t = f :: below) (hf : Requests f admitted origin rest) :
      Untouched m m' ∨ (∃ outcome, m.Invokes t initializer outcome) ∨ Accepted m m' := by
    rcases h.request_cases hs hf hstep with ⟨_, huntouched, -⟩ | ⟨huntouched | haccepted, -⟩
    · exact .inl huntouched
    · exact .inl huntouched
    · exact .inr (.inr haccepted)
  cases f with
  | script origin calls =>
    cases calls with
    | nil => cases hf
    | cons c calls =>
      cases c with
      -- The first look of a call reads, whether an engine is there or not.
      | ensureStarted claimed =>
        left
        cases he : m.coordinator.engine with
        | some e =>
          cases (step_of_acts hs (.aside (.glanced he))).symm.trans hstep
          exact .of_eq rfl rfl rfl rfl
        | none =>
          cases (step_of_acts hs (.aside (.missed he))).symm.trans hstep
          exact .of_eq rfl rfl rfl rfl
      | startInBackground => exact asked hs .call
      | _ => cases hf
  | entering claim origin admitted =>
    rcases h.enter_cases hs hstep with
      ⟨_, huntouched, -⟩ | ⟨-, hinvokes⟩ | ⟨-, -, huntouched | haccepted⟩
    · exact .inl huntouched
    · exact .inr (.inl hinvokes)
    · exact .inl huntouched
    · exact .inr (.inr haccepted)
  | requesting origin => exact asked hs .requesting
  | awaitingStartup origin =>
    obtain ⟨pushed, events, n, ha, rfl⟩ := acts_of_step hs rfl hstep
    cases ha with
    | aside => exact .inl (.of_eq rfl rfl rfl rfl)
    | postRefused hp | postLooked hp | jobAccepted hp | closureAccepted hp => cases hp
    | requestRefused hf | requestLooked hf | requested hf => cases hf
    | started hl | failed hl | stuck hl => cases hl
    | took hf => cases hf
  | _ => cases hf

/-! ### Who is told not to be on the owner thread -/

/-- An error is answered to a call in its section, or to one that has waited and finds that startup
has failed. -/
theorem Sound.frame_of_error (h : Sound initializer owner m) (ht : Turn m t m') {e : StartupError}
    (hlog : m'.log = .answered u origin (.engine (.error e)) :: m.log) :
    u = t ∧ ((∃ claim admitted below, m.stack t = .entering claim origin admitted :: below) ∨
      ∃ reason, e = .poisoned reason) := by
  -- the events that the step writes are this one and no others
  have only (events : List (Event E)) (hevents : m'.log = events ++ m.log) :
      events = [.answered u origin (.engine (.error e))] := by
    rw [hlog, ← List.singleton_append] at hevents
    exact (List.append_cancel_right hevents).symm
  have plain {n : Machine σ E} (ha : Alike m n) (hn : m'.log = n.log) : False := by
    obtain ⟨events, hevents, hplain⟩ := ha.log
    rw [only events (hn.trans hevents)] at hplain
    exact absurd (hplain _ List.mem_cons_self) nofun
  have published (hp : m.coordinator.phase = .started) {v : ThreadId} {o : Origin}
      (hn : m'.log = .answered v o (.engine m.coordinator.published) :: m.log) : False := by
    obtain ⟨engine, -, hpub⟩ := h.published_eq hp
    rw [hpub] at hn
    cases only [_] hn
  cases ht with
  | quiet hq =>
    obtain ⟨n, stack, ha, rfl⟩ := hq.alike
    exact (plain ha rfl).elim
  | died _ _ ha => exact (plain ha rfl).elim
  | stuck hu hn => exact absurd hn (h.initializer_ne_none hu)
  | poisoned hs =>
    cases only [_] rfl
    exact ⟨rfl, .inl ⟨_, _, _, hs⟩⟩
  | refused hs =>
    cases only [_] rfl
    exact ⟨rfl, .inl ⟨_, _, _, hs⟩⟩
  | late _ hp => exact (published hp rfl).elim
  | @told sequel below hs =>
    cases sequel with
    | engine o => exact (published (h.started_of_telling (hs ▸ List.mem_cons_self)) rfl).elim
    | notified => cases only [_] rfl
    | finished => cases only [] rfl
  | woken _ _ hr =>
    cases only [_] rfl
    refine ⟨rfl, .inr ?_⟩
    by_cases hp : m.coordinator.phase = .started
    · obtain ⟨engine, -, hpub⟩ := h.published_eq hp
      rw [Coordinator.recheck, if_pos (Phase.isStarted_iff.2 hp), hpub] at hr
      cases hr
    · rw [Coordinator.recheck, Coordinator.isStarted_eq_false hp] at hr
      obtain ⟨reason, -, heq⟩ := Option.map_eq_some_iff.1 hr
      cases heq
      exact ⟨reason, rfl⟩
  | failed => exact absurd (congrArg List.length (only [_, _] rfl)) (by simp)
  | missed | looked | posted | joined | inspected | spared | skipped | registerLate | took =>
    cases only [] rfl
  | glanced | started | background | registerEarly | unregister | tell => cases only [_] rfl

/-- A step that runs the initializer writes that into the log. -/
theorem Invokes.log_ne {outcome : InitOutcome E} (h : m.Invokes t initializer outcome)
    (hstep : m.step t = some m') {e : Event E} (he : e ≠ .initialized t) :
    m'.log ≠ e :: m.log := by
  obtain ⟨n, events, hn, hlog, -⟩ := h
  obtain rfl : m' = n := Option.some.inj (hstep.symm.trans hn)
  intro hone
  rw [hone, List.append_cons, ← List.singleton_append] at hlog
  have hlast := congrArg List.getLast? (List.append_cancel_right hlog)
  rw [List.getLast?_singleton, List.getLast?_concat] at hlast
  exact he (Option.some.inj hlast)

/-- A call is told that it is not on the owner thread exactly when it claims to be and is not, while
startup is neither done nor known to have failed. -/
theorem Sound.notOwner_answered_iff (h : Sound initializer owner m) (hstep : m.step t = some m')
    (u : ThreadId) (origin : Origin) (what : String) :
    m'.log = .answered u origin (.engine (.error (.notOwnerContext what))) :: m.log ↔
      u = t ∧ what = "ensure_started" ∧
        ∃ claim admitted below, m.stack t = .entering claim origin admitted :: below ∧
          m.FalseClaim owner t claim := by
  constructor
  · intro hlog
    obtain ⟨rfl, ⟨claim, admitted, below, hs⟩ | ⟨reason, heq⟩⟩ :=
      h.frame_of_error (turn_of_step hstep) hlog
    · rcases h.enter_cases hs hstep with
        ⟨result, -, hlog', hresult⟩ | ⟨-, outcome, hinvokes⟩ | ⟨-, hlog', -⟩
      · rw [hlog] at hlog'
        cases hlog'
        obtain ⟨hwhat, hfalse⟩ := (hresult what).1 rfl
        exact ⟨rfl, hwhat, claim, admitted, below, hs, hfalse⟩
      · exact absurd hlog (hinvokes.log_ne hstep nofun)
      · exact absurd (hlog'.symm.trans hlog) (List.cons_ne_self _ _).symm
    · cases heq
  · rintro ⟨rfl, rfl, claim, admitted, below, hs, hfalse⟩
    rcases h.enter_cases hs hstep with ⟨result, -, hlog, hresult⟩ | ⟨hnot, -⟩ | ⟨hnot, -⟩
    · rw [hlog, (hresult "ensure_started").2 ⟨rfl, hfalse⟩]
    · exact absurd hfalse hnot
    · exact absurd hfalse hnot

/-! ### Attempts that are not turned down -/

/-- While startup is undecided, a call on the owner thread and a startup task run the
initializer. -/
theorem Sound.decides_of_launch (h : Sound initializer owner m) (hu : m.coordinator.Undecided)
    {f : Frame} {c : Coordinator σ E Listener} {sequel : Sequel} (hs : m.stack t = f :: below)
    (hl : Launch m t f c sequel) :
    ∃ outcome m', m.step t = some m' ∧ Decides m t initializer f below outcome m' := by
  cases hi : m.coordinator.initializer with
  | none => exact absurd hi (h.initializer_ne_none hu)
  | some g =>
    obtain rfl := h.initializer_eq hi
    cases hv : (g m.host).1.verdict with
    | ok engine =>
      have hengine := InitOutcome.verdict_eq_ok_iff.1 hv
      have hstep := step_of_acts hs (.started hl hu hi hengine)
      rw [hl.registrants_eq] at hstep
      exact ⟨_, _, hstep, .started hs hl hu hengine⟩
    | error reason =>
      exact ⟨_, _, step_of_acts hs (.failed hl hu hi hv), .failed hs hl hu rfl hv⟩

/-- A post of startup that is not refused: it has been accepted, or the queue has been found open
and nothing has changed, but that the thread has still to push the task. -/
def LetIn (m : Machine σ E) (t : ThreadId) (admitted : Bool) (next : List Frame)
    (m' : Machine σ E) : Prop :=
  Accepted m m' ∨ admitted = false ∧ m.dispatcher.isLoop = false ∧ m' = m.withStack t next

/-- A call on another thread, before the first accepted post: if the dispatcher does not refuse,
startup is on its way. -/
theorem Sound.letIn_of_entering (h : Sound initializer owner m)
    (hs : m.stack t = .entering false origin admitted :: below) (ht : t ≠ owner.thread)
    (hu : m.coordinator.Undecided) (hn : m.coordinator.phase = .notStarted)
    (ha : admitted = true ∨ m.dispatcher.refusal? = none) :
    ∃ m', m.step t = some m' ∧ LetIn m t admitted (.entering false origin true :: below) m' := by
  have ho : (m.coordinator.ownerOr m.dispatcher.owner).isCurrent t = false := by
    rw [h.isCurrent_eq, Bool.eq_false_iff, ne_eq, Owner.isCurrent_iff]
    exact ht
  by_cases hp : m.dispatcher.Accepts admitted
  · exact ⟨_, step_of_acts hs (.posted hu ho hn hp),
      .inl (accepted_of_requested rfl hu.2 rfl rfl rfl)⟩
  · obtain ⟨rfl, hr, hl⟩ := Dispatcher.open_of_not_accepts hp ha
    exact ⟨_, step_of_acts hs (.looked hu ho hn hr hl), .inr ⟨rfl, hl, rfl⟩⟩

/-- The same for a request that does not wait, on any thread. -/
theorem letIn_of_requests {f : Frame} {rest : List Frame} (hs : m.stack t = f :: below)
    (hf : Requests f admitted origin rest) (hu : m.coordinator.Undecided)
    (hn : m.coordinator.phase = .notStarted)
    (ha : admitted = true ∨ m.dispatcher.refusal? = none) :
    ∃ m', m.step t = some m' ∧ LetIn m t admitted (.requesting origin :: (rest ++ below)) m' := by
  by_cases hp : m.dispatcher.Accepts admitted
  · exact ⟨_, step_of_acts hs (.requested hf hn hp),
      .inl (accepted_of_requested rfl hu.2 rfl rfl rfl)⟩
  · obtain ⟨rfl, hr, hl⟩ := Dispatcher.open_of_not_accepts hp ha
    exact ⟨_, step_of_acts hs (.requestLooked hf hn hr hl), .inr ⟨rfl, hl, rfl⟩⟩

/-! ### A whole call -/

theorem run_cons_of_step (hstep : m.step t = some m') (rest : List ThreadId) :
    m.run (t :: rest) = m'.run rest := by
  show ((m.step t).getD m).run rest = m'.run rest
  rw [hstep, Option.getD_some]

/-- The log only grows. -/
theorem Sound.log_run (h : Sound initializer owner m) (schedule : List ThreadId) :
    ∃ events, (m.run schedule).log = events ++ m.log := by
  refine sound_invariant (P := fun n => ∃ events, n.log = events ++ m.log) h ⟨[], rfl⟩ ?_ schedule
  rintro n u n' hn ht ⟨events, hevents⟩
  obtain ⟨news, hnews, -⟩ := hn.logged ht
  exact ⟨news ++ events, by rw [hnews, hevents, List.append_assoc]⟩

/-- A call that is made without interference and returns an error, but has not run the initializer,
leaves startup untouched. -/
theorem Sound.rejected_alone (h : Sound initializer owner m) {e : StartupError}
    (hs : m.stack t = .script origin (.ensureStarted claimed :: calls) :: below)
    (hlog : (m.run [t, t]).log = .answered t origin (.engine (.error e)) :: m.log) :
    Untouched m (m.run [t, t]) := by
  cases he : m.coordinator.engine with
  | some engine =>
    -- the call returns the engine in its first step
    exfalso
    have hfirst := step_of_acts hs (.aside (.glanced he))
    rw [run_cons_of_step hfirst] at hlog
    obtain ⟨events, hevents⟩ := (h.step (turn_of_step hfirst)).log_run [t]
    rw [hlog, ← List.singleton_append] at hevents
    have hnew := hevents.trans (List.append_cons events _ m.log)
    have hlast := congrArg List.getLast? (List.append_cancel_right hnew)
    rw [List.getLast?_singleton, List.getLast?_concat] at hlast
    cases hlast
  | none =>
    have hfirst := step_of_acts hs (.aside (.missed he))
    rw [run_cons_of_step hfirst] at hlog ⊢
    have hsound := h.step (turn_of_step hfirst)
    have hstack : (m.after t [] ([.entering (claimed.asserted (m.dispatcher.owner.isCurrent t))
        origin false, .script origin calls] ++ below)).stack t = _ :=
      stack_withStack_self rfl hs _
    have hglance : Untouched m (m.after t []
        ([.entering (claimed.asserted (m.dispatcher.owner.isCurrent t)) origin false,
          .script origin calls] ++ below)) := .of_eq rfl rfl rfl rfl
    obtain ⟨n, hsecond⟩ := step_entering hstack
    rw [run_cons_of_step hsecond] at hlog ⊢
    rcases hsound.enter_cases hstack hsecond with
      ⟨_, huntouched, -⟩ | ⟨-, _, hinvokes⟩ | ⟨-, hsame, -⟩
    · exact hglance.trans huntouched
    · exact absurd hlog (hinvokes.log_ne hsecond nofun)
    · exact absurd (hsame.symm.trans hlog) (List.cons_ne_self _ _).symm

/-! ### All of it -/

/-- The same machine over another dispatcher. -/
def facing (m : Machine σ E) (d : Dispatcher Task) : Machine σ E :=
  { m with dispatcher := d }

theorem Sound.facing (h : Sound initializer owner m) {d : Dispatcher Task}
    (howner : d.owner = owner) (hloop : d.isLoop = m.dispatcher.isLoop) :
    Sound initializer owner (m.facing d) where
  owner_eq := howner
  ownedBy := h.ownedBy
  stage := h.stage
  innermost := h.innermost
  ownerOnly := h.ownerOnly
  fits t f hf := (fits_congr (m := m) (n := m.facing d) rfl hloop).2 (h.fits t f hf)

theorem isLoop_run (s : Setup σ E) (schedule : List ThreadId) :
    (s.machine.run schedule).dispatcher.isLoop = s.loops := by
  refine run_invariant s (P := fun m => m.dispatcher.isLoop = s.loops) s.isLoop_dispatcher ?_
    schedule
  exact fun _ _ _ h ht hloop => (h.isLoop_eq ht).trans hloop

/-- **Attempts that are turned down leave no trace.** Take any machine of any run, over any
dispatcher of its owner, whatever that one accepts:

* a step of a call for startup that neither runs the initializer nor posts startup leaves phase,
  engine, initializer, registrations, failure and queue as they are, and records at most the
  dispatcher's owner; so does a whole call that is made alone and returns an error without having
  run the initializer, and so does a request that is refused;
* a call is told that it is not on the owner thread exactly when it claims to be and is not, while
  the engine is neither started nor failed; a request is never told so;
* after any number of steps that leave startup untouched, while the engine is neither started nor
  failed, and over any dispatcher again, a call on the owner thread and a startup task run the
  initializer the machine was made with, and if it succeeds they tell the listeners that are still
  registered and held; and a post that is not refused queues such a task, at once or after a look at
  the queue. -/
theorem rejected_attempts_atomic (s : Setup σ E) (schedule : List ThreadId)
    (d : Dispatcher Task) (howner : d.owner = s.owner) (hloop : d.isLoop = s.loops) :
    let m := (s.machine.run schedule).facing d
    ((∀ t m' f below, m.stack t = f :: below → f.asks = true → m.step t = some m' →
        Untouched m m' ∨ (∃ outcome, m.Invokes t s.initializer outcome) ∨ Accepted m m') ∧
      (∀ t origin claimed calls below e,
        m.stack t = .script origin (.ensureStarted claimed :: calls) :: below →
        (m.run [t, t]).log = .answered t origin (.engine (.error e)) :: m.log →
        Untouched m (m.run [t, t])) ∧
      ∀ t f admitted origin rest below m' e,
        m.stack t = f :: below → Requests f admitted origin rest →
        m.step t = some m' → m'.log = .answered t origin (.begun (.error e)) :: m.log →
        Untouched m m' ∧ ∃ reason, e = .dispatch reason) ∧
    (∀ t m' u origin what, m.step t = some m' →
      (m'.log = .answered u origin (.engine (.error (.notOwnerContext what))) :: m.log ↔
        u = t ∧ what = "ensure_started" ∧
          ∃ claim admitted below, m.stack t = .entering claim origin admitted :: below ∧
            m.FalseClaim s.owner t claim)) ∧
    ∀ later d', m.Rejecting later → m.coordinator.Undecided →
      d'.owner = s.owner → d'.isLoop = s.loops →
      let n := (m.run later).facing d'
      n.coordinator.Undecided ∧
      n.coordinator.registrants.live n.alive = m.coordinator.registrants.live m.alive ∧
      (∀ claim origin admitted below,
        n.stack s.owner.thread = .entering claim origin admitted :: below →
        ∃ outcome n', n.step s.owner.thread = some n' ∧
          Decides n s.owner.thread s.initializer (.entering claim origin admitted) below outcome
            n') ∧
      (∀ t below, n.stack t = .startup :: below →
        ∃ outcome n', n.step t = some n' ∧
          Decides n t s.initializer .startup below outcome n') ∧
      (∀ t origin admitted below, n.stack t = .entering false origin admitted :: below →
        t ≠ s.owner.thread → n.coordinator.phase = .notStarted →
        admitted = true ∨ n.dispatcher.refusal? = none →
        ∃ n', n.step t = some n' ∧ LetIn n t admitted (.entering false origin true :: below) n') ∧
      ∀ t f admitted origin rest below, n.stack t = f :: below →
        Requests f admitted origin rest → n.coordinator.phase = .notStarted →
        admitted = true ∨ n.dispatcher.refusal? = none →
        ∃ n', n.step t = some n' ∧
          LetIn n t admitted (.requesting origin :: (rest ++ below)) n' := by
  intro m
  have h : Sound s.initializer s.owner m :=
    (sound_run s schedule).facing howner (hloop.trans (isLoop_run s schedule).symm)
  refine ⟨⟨?_, ?_, ?_⟩, ?_, ?_⟩
  · intro t m' f below hs hf hstep
    exact h.attempt hs hf hstep
  · intro t origin claimed calls below e hs hlog
    exact h.rejected_alone hs hlog
  · intro t f admitted origin rest below m' e hs hf hstep hlog
    rcases h.request_cases hs hf hstep with ⟨r, huntouched, hlog'⟩ | ⟨-, hlog' | hlog'⟩
    · cases hlog.symm.trans hlog'
      exact ⟨huntouched, by cases r <;> exact ⟨_, rfl⟩⟩
    · exact absurd (hlog.symm.trans hlog') (List.cons_ne_self _ _)
    · cases hlog.symm.trans hlog'
  · intro t m' u origin what hstep
    exact h.notOwner_answered_iff hstep u origin what
  · intro later d' hrejecting hu howner' hloop' n
    have huntouched : Untouched m (m.run later) := hrejecting.untouched
    have hrun : Sound s.initializer s.owner (m.run later) :=
      run_induction (fun _ _ _ h hs => h.step (turn_of_step hs)) h later
    -- what is left untouched includes the dispatcher, which is of the same kind still
    have hn : Sound s.initializer s.owner n := by
      refine hrun.facing howner' (hloop'.trans ?_)
      rw [huntouched.dispatcher]
      exact hloop.symm
    have hundecided : n.coordinator.Undecided := huntouched.undecided_iff.2 hu
    refine ⟨hundecided, huntouched.live_eq, ?_, ?_, ?_, ?_⟩
    · intro claim origin admitted below hs
      refine hn.decides_of_launch hundecided hs (.inline ?_)
      rw [hn.isCurrent_eq, Owner.isCurrent_iff]
    · intro t below hs
      exact hn.decides_of_launch hundecided hs .posted
    · intro t origin admitted below hs ht hp ha
      exact hn.letIn_of_entering hs ht hundecided hp ha
    · intro t f admitted origin rest below hs hf hp ha
      exact letIn_of_requests hs hf hundecided hp ha

/-- A listener waits, and the queue has been closed. A thread claims falsely to be the owner, and
another asks for startup twice. -/
def turnedDown : Setup Unit Nat where
  initializer host := (.engine 7, host)
  host := ()
  owner := ⟨0, none⟩
  held := [1]
  scripts := [[.register (.mk 1 "first" []), .close, .ensureStarted .none],
    [.ensureStarted .owner], [.startInBackground, .startInBackground]]

/-- The claim and the first request are turned down. Then the queue is open again: the owner can
start the engine, and the second request is let in. -/
theorem rejected_attempts_then_startup :
    let closed : Dispatcher Task := .queue ⟨0, none⟩ { closed := true }
    let m := (turnedDown.machine.run [0, 0]).facing closed
    let later := [1, 1, 2, 0]
    let n := (m.run later).facing (.queue ⟨0, none⟩ {})
    m.Rejecting later ∧ m.coordinator.Undecided ∧
    (∃ begun, n.log = .answered 2 .caller (.begun (.error DispatchRefusal.queueClosed.error)) ::
      .answered 1 .caller (.engine (.error (.notOwnerContext "ensure_started"))) :: begun) ∧
    n.coordinator.registrants.entries.map (·.1) = [1] ∧
    (∃ outcome n', n.step 0 = some n' ∧
      Decides n 0 turnedDown.initializer (.entering false .caller false) [.script .caller []]
        outcome n') ∧
    ∃ n', n.step 2 = some n' ∧
      LetIn n 2 false [.requesting .caller, .script .caller []] n' := by
  intro closed m later n
  have hundecided : m.coordinator.Undecided := ⟨by decide +kernel, by cbv⟩
  have h := rejected_attempts_atomic turnedDown [0, 0] closed rfl rfl
  -- Two of the four steps are rejections, and each leaves startup as it was.
  have hrejecting : m.Rejecting later :=
    rejecting_cons (.of_eq (by cbv) (by cbv) (by cbv) (by cbv))
      (rejecting_cons (.of_bindOwner (by cbv) (by cbv) (by cbv) (by cbv))
        (rejecting_cons (.of_bindOwner (by cbv) (by cbv) (by cbv) (by cbv))
          (rejecting_cons (.of_eq (by cbv) (by cbv) (by cbv) (by cbv)) (rejecting_nil _))))
  have howner : n.stack 0 = [.entering false .caller false, .script .caller []] := by cbv
  have hasker : n.stack 2 = [.script .caller [.startInBackground]] := by cbv
  obtain ⟨-, -, hinline, -, -, hrequest⟩ :=
    h.2.2 later (.queue ⟨0, none⟩ {}) hrejecting hundecided rfl rfl
  refine ⟨hrejecting, hundecided, ⟨_, by cbv⟩, by cbv, ?_, ?_⟩
  · exact hinline false .caller false [.script .caller []] howner
  · exact hrequest 2 _ false .caller [.script .caller []] [] hasker .call (by cbv) (.inr (by cbv))

end Machine

end LazyEngine
