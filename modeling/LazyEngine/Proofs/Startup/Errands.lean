/-
Errands over a loop.

Threads that start the engine, send closures to the owner thread and wait for each other run
errands: nothing in what they do can panic, shut the loop down or register a listener, and no two of
them wait for each other.

* `Machine.Orderly` — a loop's machine in which all that is left to do are errands, and whose
  initializer has produced an engine or is going to;
* `Machine.Proceeds` — the eight kinds of steps that such a machine can take;
* `Orderly.proceeds` — it takes no others.

Design notes: the owner thread and the others run different frames (`Frame.isInside`,
`Frame.isOutside`): only the others wait, for startup, for a reply or for a thread of a higher
number, so that the owner thread never does and there is no circle.
-/
import LazyEngine.Proofs.Startup.Loops
import LazyEngine.Proofs.Startup.Verdicts

namespace LazyEngine

/-- Whether a call does no more than to start the engine or to leave a note. -/
def Call.isBrief : Call → Bool
  | ensureStarted _ | note _ => true
  | _ => false

/-- Whether the owner thread may be asked to make the call. -/
def Call.isInside : Call → Bool
  | catching calls => calls.all isBrief
  | c => c.isBrief

theorem Call.isInside_of_isBrief {c : Call} (h : c.isBrief = true) : c.isInside = true := by
  cases c <;> first | exact h | cases h

/-- Whether the call is an errand of another thread, `u`. -/
def Call.isOutside (owner u : ThreadId) : Call → Bool
  | ensureStarted claim => claim = .none
  | runOnOwner calls _ => calls.all isInside
  | join w => w ≠ owner ∧ u < w
  | _ => false

/-- Whether a task is an errand for the owner thread. -/
def Task.isInside : Task → Bool
  | startup => true
  | job calls | reply _ _ _ calls => calls.all Call.isInside

namespace Frame

/-- Whether the owner thread has such a frame above the one that serves the loop. -/
def isInside : Frame → Bool
  | script _ calls => calls.all Call.isInside
  | telling listeners _ => listeners.all (·.2.script.isEmpty)
  | entering _ _ _ | startup | sending _ _ | guard => true
  | _ => false

/-- Whether another thread, `u`, has such a frame. -/
def isOutside (owner u : ThreadId) : Frame → Bool
  | script _ calls => calls.all (Call.isOutside owner u)
  | entering claim _ _ => !claim
  | awaitingStartup _ | awaitingReply _ _ => true
  | _ => false

/-- Whether thread `u` may have the frame, above the one that serves the loop if it is the owner
thread. -/
def suits (owner u : ThreadId) (f : Frame) : Bool :=
  if u = owner then f.isInside else f.isOutside owner u

theorem suits_of_eq {owner u : ThreadId} (h : u = owner) (f : Frame) :
    f.suits owner u = f.isInside :=
  if_pos h

theorem suits_of_ne {owner u : ThreadId} (h : u ≠ owner) (f : Frame) :
    f.suits owner u = f.isOutside owner u :=
  if_neg h

theorem isInside_of_suits {owner u : ThreadId} {f : Frame} (h : f.suits owner u = true)
    (hf : f.isOutside owner u = false) : u = owner ∧ f.isInside = true := by
  unfold suits at h
  split at h
  · rename_i hu
    exact ⟨hu, h⟩
  · rw [hf] at h
    cases h

theorem isOutside_of_suits {owner u : ThreadId} {f : Frame} (h : f.suits owner u = true)
    (hf : f.isInside = false) : u ≠ owner ∧ f.isOutside owner u = true := by
  unfold suits at h
  split at h
  · rw [hf] at h
    cases h
  · rename_i hu
    exact ⟨hu, h⟩

/-- Whether an uneventful step may leave the frame behind. -/
def isFresh : Frame → Bool
  | script _ _ | entering _ _ _ | guard | telling [] _ => true
  | _ => false

/-- Whether an uneventful step may take the frame away, before or after startup. -/
def isSpent (started : Bool) : Frame → Bool
  | entering _ _ _ | awaitingStartup _ | startup => started
  | sending _ _ | serving | telling (_ :: _) _ => false
  | _ => true

theorem isInside_script_cons {origin : Origin} {c : Call} {calls : List Call} :
    (script origin (c :: calls)).isInside = true ↔
      c.isInside = true ∧ (script origin calls).isInside = true := by
  simp [isInside]

theorem isInside_telling_cons {ticket : Ticket} {l : Listener}
    {listeners : List (Ticket × Listener)} {sequel : Sequel} :
    (telling ((ticket, l) :: listeners) sequel).isInside = true ↔
      l.script = [] ∧ (telling listeners sequel).isInside = true := by
  simp [isInside]

theorem isOutside_script_cons {owner u : ThreadId} {origin : Origin} {c : Call}
    {calls : List Call} :
    (script origin (c :: calls)).isOutside owner u = true ↔
      c.isOutside owner u = true ∧ (script origin calls).isOutside owner u = true := by
  simp [isOutside]

/-- Whoever may have a script may go on with the rest of it. -/
theorem suits_script_tail {owner u : ThreadId} {origin : Origin} {c : Call} {calls : List Call}
    (h : (script origin (c :: calls)).suits owner u = true) :
    (script origin calls).suits owner u = true := by
  unfold suits at h ⊢
  split at h
  · rename_i hu
    exact (suits_of_eq hu _).trans (isInside_script_cons.1 h).2
  · rename_i hu
    exact (suits_of_ne hu _).trans (isOutside_script_cons.1 h).2

theorem dues_of_isSpent {f : Frame} {started : Bool} (h : f.isSpent started = true) :
    f.dues = [] := by
  cases f with
  | telling listeners _ =>
    cases listeners with
    | nil => rfl
    | cons => cases h
  | _ => rfl

end Frame

/-- Whether the event tells of no error and no panic. -/
def Event.isSmooth {E : Type} : Event E → Bool
  | answered _ _ a => a.error?.isNone
  | fatal _ | panicked _ _ => false
  | _ => true

theorem Task.isInside_frames {task : Task} (h : task.isInside = true) :
    ∀ f ∈ task.frames, f.isInside = true := by
  cases task with
  | startup => simp [frames, Frame.isInside]
  | job calls => simpa [frames, Frame.isInside, isInside] using h
  | reply id value origin calls => simpa [frames, Frame.isInside, isInside] using h

namespace Machine

variable {σ E : Type} {m m' n : Machine σ E} {t u : ThreadId} {initializer : Initializer σ E}
  {owner : Owner} {engine : E}

/-- The owner thread owes a value to somebody: the closure is queued, or has been taken and is not
over. -/
def Owes (m : Machine σ E) (owner : Owner) (id : ReplyId) : Prop :=
  (∃ value origin calls, .reply id value origin calls ∈ m.dispatcher.tasks) ∨
    ∃ value, .sending id value ∈ m.stack owner.thread

/-- A machine over a live loop in which only errands are left to do. -/
structure Orderly (initializer : Initializer σ E) (owner : Owner) (engine : E)
    (m : Machine σ E) : Prop where
  sound : Sound initializer owner m
  promised : Promised owner m
  isLoop : m.dispatcher.isLoop = true
  accepts : m.dispatcher.refusal? = none
  serves : ∃ above, m.stack owner.thread = above ++ [.serving] ∧ ∀ f ∈ above, f.isInside = true
  outside : ∀ u, u ≠ owner.thread → ∀ f ∈ m.stack u, f.isOutside owner.thread u = true
  tasks : ∀ task ∈ m.dispatcher.tasks, task.isInside = true
  listeners : ∀ entry ∈ m.coordinator.registrants.entries, entry.2.script = []
  /-- The initializer has not failed and is not going to. -/
  failure : m.coordinator.failure = none
  succeeds : m.coordinator.phase ≠ .started → (initializer m.host).1 = .engine engine
  published : m.coordinator.phase = .started → m.coordinator.engine = some engine
  replies : ∀ id, id < m.replies.length → (∃ value, m.replies[id]? = some (.sent value)) ∨
    m.replies[id]? = some .awaited ∧ m.Owes owner id
  owed : ∀ id, m.Owes owner id → id < m.replies.length
  awaited : ∀ u id origin, .awaitingReply id origin ∈ m.stack u → id < m.replies.length
  smooth : ∀ e ∈ m.log, e.isSmooth = true

/-- What a step of thread `t` of an orderly machine can be: it puts the frames `pushed` in the place
of the innermost frame and makes `n` of what the threads share. -/
inductive Proceeds (initializer : Initializer σ E) (owner : Owner) (engine : E) (m : Machine σ E)
    (t : ThreadId) : Frame → List Frame → Machine σ E → Prop where
  /-- Nothing changes but what the thread has to do and the log. -/
  | stays {f : Frame} {pushed : List Frame} (events : List (Event E)) :
      f.isSpent m.coordinator.phase.isStarted = true → (∀ g ∈ pushed, g.isFresh = true) →
      (∀ g ∈ pushed, g.suits owner.thread t = true) →
      (∀ e ∈ events, e.isSmooth = true ∧ e.delivery? = none) →
      Proceeds initializer owner engine m t f pushed { m with log := events ++ m.log }
  | tells {ticket : Ticket} {l : Listener} {listeners : List (Ticket × Listener)}
      {sequel : Sequel} : t = owner.thread → l.script = [] →
      Proceeds initializer owner engine m t (.telling ((ticket, l) :: listeners) sequel)
        [.script .callback l.script, .telling listeners sequel]
        (m.record (.told ticket l.key l.name m.coordinator.phase t))
  /-- The owner thread starts the engine. -/
  | starts {f : Frame} {c : Coordinator σ E Listener} {sequel : Sequel} : t = owner.thread →
      Launch m t f c sequel → m.coordinator.phase ≠ .started →
      Proceeds initializer owner engine m t f
        [.telling (queue (m.coordinator.registrants.live m.alive)) sequel]
        { m with
          coordinator := c.succeeded engine
          host := (initializer m.host).2
          sleepers := []
          log := .initialized t :: m.log }
  | requests {origin : Origin} {admitted : Bool} : t ≠ owner.thread →
      m.coordinator.phase = .notStarted →
      Proceeds initializer owner engine m t (.entering false origin admitted)
        [.awaitingStartup origin]
        { m with
          coordinator := m.coordinator.requested owner
          dispatcher := m.dispatcher.push .startup
          sleepers := t :: m.sleepers }
  | waits {origin : Origin} {admitted : Bool} : t ≠ owner.thread →
      m.coordinator.phase = .starting →
      Proceeds initializer owner engine m t (.entering false origin admitted)
        [.awaitingStartup origin]
        { m with coordinator := m.coordinator.bindOwner owner, sleepers := t :: m.sleepers }
  | sends {origin : Origin} {closure calls : List Call} {value : String} : t ≠ owner.thread →
      Proceeds initializer owner engine m t (.script origin (.runOnOwner closure value :: calls))
        [.awaitingReply m.replies.length origin, .script origin calls]
        { m with
          dispatcher := m.dispatcher.push (.reply m.replies.length value origin closure)
          replies := m.replies ++ [Reply.awaited] }
  | takes {task : Task} {d : Dispatcher Task} : t = owner.thread →
      m.dispatcher.take? = some (task, d) →
      Proceeds initializer owner engine m t .serving (task.frames ++ [.serving])
        { m with dispatcher := d }
  | replies {id : ReplyId} {value : String} : t = owner.thread →
      Proceeds initializer owner engine m t (.sending id value) []
        { m with replies := m.replies.set id (.sent value) }

theorem Proceeds.threads_eq {f : Frame} {pushed : List Frame}
    (h : Proceeds initializer owner engine m t f pushed n) : n.threads = m.threads := by
  cases h <;> rfl

namespace Orderly

/-! ### What a step can be -/

theorem isCurrent_iff (h : Orderly initializer owner engine m) :
    m.dispatcher.owner.isCurrent t = true ↔ t = owner.thread := by
  rw [h.sound.owner_eq, Owner.isCurrent_iff]

theorem ownerOr_isCurrent (h : Orderly initializer owner engine m) :
    (m.coordinator.ownerOr m.dispatcher.owner).isCurrent t = true ↔ t = owner.thread := by
  rw [h.sound.owner_eq, h.sound.ownedBy.ownerOr_eq, Owner.isCurrent_iff]

theorem undecided (h : Orderly initializer owner engine m)
    (hp : m.coordinator.phase ≠ .started) : m.coordinator.Undecided :=
  ⟨hp, h.failure⟩

theorem published_eq (h : Orderly initializer owner engine m)
    (hp : m.coordinator.phase = .started) : m.coordinator.published = .ok engine := by
  rw [Coordinator.published, h.published hp]

/-- The owner thread has something to do, and only the frame at the bottom takes tasks. -/
theorem inside (h : Orderly initializer owner engine m) {f : Frame} {below : List Frame}
    (hs : m.stack owner.thread = f :: below) :
    f = .serving ∧ below = [] ∨
      f.isInside = true ∧
        ∃ above, below = above ++ [.serving] ∧ ∀ g ∈ above, g.isInside = true := by
  obtain ⟨above, habove, hinside⟩ := h.serves
  rw [hs] at habove
  cases above with
  | nil => exact .inl ⟨(List.cons.inj habove).1, (List.cons.inj habove).2⟩
  | cons g above =>
    obtain ⟨rfl, rfl⟩ := List.cons.inj habove
    exact .inr ⟨hinside f List.mem_cons_self, above, rfl,
      fun g hg => hinside g (List.mem_cons_of_mem _ hg)⟩

end Orderly

theorem isSmooth_answered {origin : Origin} {a : Answer E} (ha : a.error? = none) :
    ∀ e ∈ [Event.answered t origin a], e.isSmooth = true ∧ e.delivery? = none := by
  simp [Event.isSmooth, ha, Event.delivery?]

/-- A call that posts over a loop makes a script go on. -/
theorem Posts.isOutside {f : Frame} {admitted : Bool} {posting : Posting} {origin : Origin}
    {rest : List Frame} (h : Posts m t f admitted posting origin rest)
    (hf : f.suits owner.thread t = true) : t ≠ owner.thread ∧ admitted = false ∧
      ∃ closure value calls, posting = .closure closure value ∧
        f = .script origin (.runOnOwner closure value :: calls) ∧
        rest = [.script origin calls] := by
  have hne := (Frame.isOutside_of_suits hf (by cases h <;> rfl))
  cases h with
  | closure => exact ⟨hne.1, rfl, _, _, _, rfl, rfl, rfl⟩
  | job | pushing => cases hne.2

theorem Requests.not_suits {f : Frame} {admitted : Bool} {origin : Origin} {rest : List Frame}
    (h : Requests f admitted origin rest) : f.suits owner.thread t = false := by
  unfold Frame.suits
  cases h <;> split <;> rfl

/-- The frame that serves a loop takes a task. -/
theorem Acts.of_serving {pushed : List Frame} {events : List (Event E)}
    (h : Acts m t .serving pushed events n) :
    ∃ task d, m.dispatcher.take? = some (task, d) ∧ pushed = task.frames ++ [.serving] ∧
      events = [] ∧ n = { m with dispatcher := d } := by
  cases h with
  | aside h =>
    cases h with
    | underway hf => cases hf
  | postRefused hp | postLooked hp | jobAccepted hp | closureAccepted hp => cases hp
  | requestRefused hf | requestLooked hf | requested hf => cases hf
  | started hl | failed hl | stuck hl => cases hl
  | took hf htake =>
    cases hf
    exact ⟨_, _, htake, rfl, rfl, rfl⟩

namespace Orderly

/-- Whose frames are innermost. -/
theorem serves_or_suits (h : Orderly initializer owner engine m) {f : Frame} {below : List Frame}
    (hs : m.stack t = f :: below) :
    t = owner.thread ∧ f = .serving ∨ f.suits owner.thread t = true := by
  by_cases ht : t = owner.thread
  · rcases h.inside (ht ▸ hs) with ⟨rfl, -⟩ | ⟨hf, -⟩
    · exact .inl ⟨ht, rfl⟩
    · exact .inr ((Frame.suits_of_eq ht f).trans hf)
  · exact .inr ((Frame.suits_of_ne ht f).trans (h.outside t ht f (hs ▸ List.mem_cons_self)))

/-- Steps that leave alone all that threads share. -/
theorem proceeds_of_aside (h : Orderly initializer owner engine m) {f : Frame}
    {below pushed : List Frame} {events : List (Event E)} (hs : m.stack t = f :: below)
    (hf : f.suits owner.thread t = true) (ha : Aside m t f pushed events) :
    Proceeds initializer owner engine m t f pushed { m with log := events ++ m.log } := by
  have silent : ∀ e ∈ ([] : List (Event E)), e.isSmooth = true ∧ e.delivery? = none :=
    List.forall_mem_nil _
  -- the frame is over, or goes on with the rest of its script
  have spent {events : List (Event E)} (hspent : f.isSpent m.coordinator.phase.isStarted = true)
      (he : ∀ e ∈ events, e.isSmooth = true ∧ e.delivery? = none) :
      Proceeds initializer owner engine m t f [] { m with log := events ++ m.log } :=
    .stays events hspent (List.forall_mem_nil _) (List.forall_mem_nil _) he
  have rest {origin : Origin} {c : Call} {calls : List Call} {events : List (Event E)}
      (heq : f = .script origin (c :: calls))
      (he : ∀ e ∈ events, e.isSmooth = true ∧ e.delivery? = none) :
      Proceeds initializer owner engine m t f [.script origin calls]
        { m with log := events ++ m.log } := by
    subst heq
    exact .stays events rfl (List.forall_mem_singleton.2 rfl)
      (List.forall_mem_singleton.2 (Frame.suits_script_tail hf)) he
  have started (hp : m.coordinator.phase = .started) : m.coordinator.phase.isStarted = true :=
    Phase.isStarted_iff.2 hp
  cases ha with
  | ended | guard => exact spent rfl silent
  | @catching origin inner calls =>
    have hrest := Frame.suits_script_tail hf
    obtain ⟨ht, hinside⟩ := Frame.isInside_of_suits hf rfl
    have hbrief := (Frame.isInside_script_cons.1 hinside).1
    have hinner : inner.all Call.isInside = true :=
      List.all_eq_true.2 fun c hmem => Call.isInside_of_isBrief (List.all_eq_true.1 hbrief c hmem)
    refine .stays [] rfl (by simp [Frame.isFresh]) ?_ silent
    simp only [List.forall_mem_cons, List.not_mem_nil, false_implies, implies_true, and_true]
    exact ⟨(Frame.suits_of_eq ht _).trans hinner, Frame.suits_of_eq ht _, hrest⟩
  | inline ho =>
    exact absurd (h.isCurrent_iff.1 ho) (Frame.isOutside_of_suits hf rfl).1
  | @note origin note calls =>
    exact rest rfl (List.forall_mem_singleton.2 ⟨rfl, rfl⟩)
  | join => exact rest rfl (isSmooth_answered rfl)
  | @received _ origin value =>
    exact spent rfl (isSmooth_answered (a := .returned (.ok value)) rfl)
  | @dropped id origin hr =>
    -- a reply has come or is on its way
    rcases h.replies id (h.awaited t id origin (hs ▸ List.mem_cons_self)) with
      ⟨value, hsent⟩ | ⟨hawaited, -⟩
    · rw [hr] at hsent
      cases hsent
    · rw [hr] at hawaited
      cases hawaited
  | glanced => exact rest rfl (isSmooth_answered rfl)
  | @missed origin claim calls =>
    refine .stays [] rfl (by simp [Frame.isFresh]) ?_ silent
    have hrest := Frame.suits_script_tail hf
    refine List.forall_mem_cons.2 ⟨?_, List.forall_mem_singleton.2 hrest⟩
    unfold Frame.suits at hf ⊢
    split at hf
    · rename_i ht
      exact if_pos ht
    · rename_i ht
      rw [if_neg ht]
      have hclaim : claim = .none := of_decide_eq_true (Frame.isOutside_script_cons.1 hf).1
      subst hclaim
      rfl
  | late hp =>
    rw [h.published_eq hp]
    exact spent (started hp) (isSmooth_answered (a := .engine (.ok engine)) rfl)
  | poisoned _ hfailed | skipped _ hfailed =>
    rw [h.failure] at hfailed
    cases hfailed
  | woken _ hr =>
    rw [Coordinator.recheck] at hr
    split at hr
    · rename_i hp
      rw [h.published_eq (Phase.isStarted_iff.1 hp)] at hr
      cases hr
      exact spent hp (isSmooth_answered (a := .engine (.ok engine)) rfl)
    · -- startup has not failed, so there is nothing else to be told
      rw [h.failure] at hr
      cases hr
  | underway hrequests =>
    rw [hrequests.not_suits] at hf
    cases hf
  | spared hp =>
    obtain ⟨ht, -⟩ := Frame.isInside_of_suits hf rfl
    exact .stays [] (started hp) (List.forall_mem_singleton.2 rfl)
      (List.forall_mem_singleton.2 (Frame.suits_of_eq ht _)) silent
  | @tell ticket l listeners sequel =>
    obtain ⟨ht, hinside⟩ := Frame.isInside_of_suits hf rfl
    exact .tells ht (Frame.isInside_telling_cons.1 hinside).1
  | @told sequel =>
    refine spent rfl ?_
    cases sequel with
    | engine origin =>
      have hp := h.sound.started_of_telling (hs ▸ List.mem_cons_self)
      rw [goOnEvents, h.published_eq hp]
      exact isSmooth_answered (a := .engine (.ok engine)) rfl
    | notified origin number => exact isSmooth_answered (a := .registered .notified) rfl
    | finished => exact silent
  | pump | pumpLoop | pumpElsewhere | drained | returned | joinedLoop =>
    -- no errand
    unfold Frame.suits at hf
    split at hf <;> cases hf

/-- What a frame of an orderly machine can do. -/
theorem proceeds_of_acts (h : Orderly initializer owner engine m) {f : Frame}
    {below pushed : List Frame} {events : List (Event E)} (hs : m.stack t = f :: below)
    (hf : f.suits owner.thread t = true) (ha : Acts m t f pushed events n) :
    Proceeds initializer owner engine m t f pushed { n with log := events ++ n.log } := by
  -- only another thread posts, and it is never refused
  have other (ho : (m.coordinator.ownerOr m.dispatcher.owner).isCurrent t = false) :
      t ≠ owner.thread := fun ht => by
    rw [h.ownerOr_isCurrent.2 ht] at ho
    cases ho
  have refuses {r : DispatchRefusal} (hr : m.dispatcher.refusal? = some r) : False := by
    rw [h.accepts] at hr
    cases hr
  have queues (hl : m.dispatcher.isLoop = false) : False := by
    rw [h.isLoop] at hl
    cases hl
  cases ha with
  | aside ha => exact h.proceeds_of_aside hs hf ha
  | postRefused _ hr | refused _ _ _ hr => exact (refuses hr).elim
  | postLooked _ _ hl | looked _ _ _ _ hl => exact (queues hl).elim
  | jobAccepted hp =>
    obtain ⟨-, -, _, _, _, heq, -⟩ := hp.isOutside hf
    cases heq
  | closureAccepted hp =>
    obtain ⟨hne, -, _, _, _, heq, rfl, rfl⟩ := hp.isOutside hf
    cases heq
    exact .sends hne
  | requestRefused hrequests | requestLooked hrequests | requested hrequests =>
    rw [hrequests.not_suits] at hf
    cases hf
  | notOwner _ ho =>
    rw [Frame.suits_of_ne (other ho)] at hf
    cases hf
  | posted _ ho hn =>
    rw [h.sound.owner_eq]
    exact .requests (other ho) hn
  | joined _ ho hp =>
    rw [h.sound.owner_eq]
    exact .waits (other ho) hp
  | started hl hu hi hv =>
    have ht : t = owner.thread := h.sound.isCurrent_of_launch hs hl
    rw [h.sound.initializer_eq hi] at hv ⊢
    rw [h.succeeds hu.1] at hv
    cases hv
    rw [hl.registrants_eq]
    exact .starts ht hl hu.1
  | failed _ hu hi hv =>
    rw [h.sound.initializer_eq hi, h.succeeds hu.1] at hv
    cases hv
  | stuck _ hu hi => exact absurd hi (h.sound.initializer_ne_none hu)
  | took htakes =>
    cases htakes <;> (unfold Frame.suits at hf; split at hf <;> cases hf)
  | sent =>
    exact .replies (Frame.isInside_of_suits hf rfl).1
  | registerLate | registerEarly | unregister | forget | close | shutdown | claimed | unclaimed =>
    -- no errand
    unfold Frame.suits at hf
    split at hf <;> cases hf

/-- **What a step can be.** Every step of an orderly machine is one of these. -/
theorem proceeds (h : Orderly initializer owner engine m) (hstep : m.step t = some m') :
    ∃ f below pushed n, m.stack t = f :: below ∧
      Proceeds initializer owner engine m t f pushed n ∧
      m' = n.withStack t (pushed ++ below) := by
  cases stepped_of_step hstep with
  | acted hs ha =>
    refine ⟨_, _, _, _, hs, ?_, rfl⟩
    rcases h.serves_or_suits hs with ⟨ht, rfl⟩ | hf
    · obtain ⟨task, d, htake, rfl, rfl, rfl⟩ := ha.of_serving
      exact .takes ht htake
    · exact h.proceeds_of_acts hs hf ha
  | panicked hs =>
    rcases h.serves_or_suits hs with ⟨-, hf⟩ | hf
    · cases hf
    · -- a panic is no errand
      unfold Frame.suits at hf
      split at hf <;> cases hf
  | ended _ _ hending => exact absurd h.accepts (Dispatcher.refusal?_of_ending hending)

end Orderly

end Machine

end LazyEngine
