/-
What one step of a thread can do.

`Machine.frame` and `Machine.call` say what a step does, branch by branch. They are turned inside
out here, once and in both directions, and what holds of every step is read off what steps there
are:

* `Machine.Aside` — the steps that leave alone all that threads share, but for the log;
* `Machine.Acts` — all that the step of a frame can do, unless it takes away what lies below;
* `Machine.Stepped`, `stepped_of_step` — every step is one of these, or a panic, or the end of a
  loop's thread;
* `Acts.frame_eq` — conversely, a frame does what it can do, whatever lies below.

Design notes: `Acts` names the frames that take the place of the innermost one, what is written into
the log, newest first, and the machine as it is left otherwise. A post can go on in three ways
(`Dispatcher.Offered`), and so each call that posts has three constructors; `Posts` and `Requests`
say which calls these are, and whether the look at the queue lies behind them. Running the
initializer looks the same whether a call does it inline or a posted task does it; `Launch` says
which of the two it is.
-/
import LazyEngine.Proofs.Startup.Sections
import LazyEngine.Startup.Machine

namespace LazyEngine

/-- What executing a task puts onto the stack. -/
def Task.frames : Task → List Frame
  | startup => [.startup]
  | job calls => [.script .job calls]
  | reply id value origin calls => [.script origin calls, .sending id value]

/-- The frame that has taken a task goes on as another. -/
inductive Frame.Takes : Frame → Frame → Prop where
  | pumping {taken : Nat} {origin : Origin} :
      Takes (.pumping taken origin) (.pumping (taken + 1) origin)
  | serving : Takes .serving .serving

/-- Whether a step of the frame can take away what lies below it: a panic, and the end of the
loop. -/
def Frame.drops : Frame → Bool
  | script _ (.panic _ :: _) | serving => true
  | _ => false

theorem Frame.eq_of_drops {f : Frame} (h : f.drops = true) :
    f = .serving ∨ ∃ origin message calls, f = .script origin (.panic message :: calls) := by
  unfold drops at h
  split at h
  · exact .inr ⟨_, _, _, rfl⟩
  · exact .inl rfl
  · cases h

namespace Dispatcher

variable {T : Type} {d d' : Dispatcher T} {task : T}

theorem take?_eq (h : d.take? = some (task, d')) : d' = d.withTasks d'.tasks := by
  unfold take? at h
  split at h <;> cases h
  rw [tasks_withTasks]

theorem take?_eq_none_iff : d.take? = none ↔ d.tasks = [] := by
  unfold take?
  split <;> simp_all

theorem owner_takeHandle (d : Dispatcher T) : d.takeHandle.2.owner = d.owner := by
  cases d <;> rfl

/-- A task that has been admitted is pushed. -/
theorem offer_of_accepts {admitted : Bool} (h : d.Accepts admitted) (task : T) :
    d.offer admitted task = .ok { dispatcher := d.push task } := by
  rcases h with rfl | ⟨hl, hr⟩
  · rfl
  · cases admitted with
    | true => rfl
    | false => simp [offer, hl, hr]

theorem offer_of_open (hr : d.refusal? = none) (hl : d.isLoop = false) (task : T) :
    d.offer false task = .ok { dispatcher := d, pending := true } := by
  simp [offer, hl, hr]

/-- A step of a post that neither is refused nor pushes the task looks at an open queue. -/
theorem open_of_not_accepts {admitted : Bool} (hn : ¬ d.Accepts admitted)
    (h : admitted = true ∨ d.refusal? = none) :
    admitted = false ∧ d.refusal? = none ∧ d.isLoop = false := by
  rcases h with ha | hr
  · exact absurd (.inl ha) hn
  · refine ⟨?_, hr, ?_⟩
    · exact Bool.eq_false_iff.2 fun ha => hn (.inl ha)
    · exact Bool.eq_false_iff.2 fun hl => hn (.inr ⟨hl, hr⟩)

theorem offer_of_refusal? {r : DispatchRefusal} (hr : d.refusal? = some r) (task : T) :
    d.offer false task = .error r.error := by
  simp [offer, hr]

end Dispatcher

namespace Machine

variable {σ E : Type} {m m' n : Machine σ E} {t : ThreadId}

/-! ### The steps of frames -/

/-- How startup comes to be run: by a call on the owner thread, which has recorded the owner, or by
a posted task. -/
inductive Launch (m : Machine σ E) (t : ThreadId) :
    Frame → Coordinator σ E Listener → Sequel → Prop where
  | inline {claim admitted : Bool} {origin : Origin} :
      (m.coordinator.ownerOr m.dispatcher.owner).isCurrent t = true →
      Launch m t (.entering claim origin admitted) (m.coordinator.bindOwner m.dispatcher.owner)
        (.engine origin)
  | posted : Launch m t .startup m.coordinator .finished

/-- Who is given the error of a failed startup: the caller, or the fatal hook. -/
def failureEvent (t : ThreadId) (reason : String) : Sequel → Event E
  | .engine origin => .answered t origin (.engine (.error (.init reason)))
  | _ => .fatal (.init reason)

/-- Who is told that startup has no initializer: the caller, if there is one. -/
def stuckEvents (t : ThreadId) : Sequel → List (Event E)
  | .engine origin =>
    [.answered t origin (.engine (.error (.poisoned Coordinator.stuckReason)))]
  | _ => []

/-- What `goOn` writes into the log. -/
def goOnEvents (m : Machine σ E) (t : ThreadId) : Sequel → List (Event E)
  | .engine origin => [.answered t origin (.engine m.coordinator.published)]
  | .notified origin _ => [.answered t origin (.registered .notified)]
  | .finished => []

/-- A frame posts for a call, and these frames are left when the caller has been told. A post may
have been `admitted` in an earlier step. -/
inductive Posts (m : Machine σ E) (t : ThreadId) :
    Frame → Bool → Posting → Origin → List Frame → Prop where
  | job {origin : Origin} {posted calls : List Call} :
      Posts m t (.script origin (.post posted :: calls)) false (.job posted) origin
        [.script origin calls]
  | closure {origin : Origin} {closure calls : List Call} {value : String} :
      m.dispatcher.owner.isCurrent t = false →
      Posts m t (.script origin (.runOnOwner closure value :: calls)) false
        (.closure closure value) origin [.script origin calls]
  | pushing {origin : Origin} {posting : Posting} :
      Posts m t (.pushing posting origin) true posting origin []

/-- A frame asks for startup without waiting. -/
inductive Requests : Frame → Bool → Origin → List Frame → Prop where
  | call {origin : Origin} {calls : List Call} :
      Requests (.script origin (.startInBackground :: calls)) false origin [.script origin calls]
  | requesting {origin : Origin} : Requests (.requesting origin) true origin []

theorem Requests.unique {f : Frame} {admitted admitted' : Bool} {origin origin' : Origin}
    {rest rest' : List Frame} (h : Requests f admitted origin rest)
    (h' : Requests f admitted' origin' rest') :
    admitted' = admitted ∧ origin' = origin ∧ rest' = rest := by
  cases h <;> cases h' <;> exact ⟨rfl, rfl, rfl⟩

/-- What the step of a frame does that leaves alone all that threads share. -/
inductive Aside (m : Machine σ E) (t : ThreadId) :
    Frame → List Frame → List (Event E) → Prop where
  | ended {origin : Origin} : Aside m t (.script origin []) [] []
  | catching {origin : Origin} {inner calls : List Call} :
      Aside m t (.script origin (.catching inner :: calls))
        [.script origin inner, .guard, .script origin calls] []
  /-- A closure is run at once, on the owner thread. -/
  | inline {origin : Origin} {closure calls : List Call} {value : String} :
      m.dispatcher.owner.isCurrent t = true →
      Aside m t (.script origin (.runOnOwner closure value :: calls))
        [.script origin closure, .returning value origin, .script origin calls] []
  | pump {origin : Origin} {calls : List Call} : m.dispatcher.isLoop = false →
      m.dispatcher.owner.isCurrent t = true →
      Aside m t (.script origin (.pump :: calls)) [.pumping 0 origin, .script origin calls] []
  | pumpLoop {origin : Origin} {calls : List Call} : m.dispatcher.isLoop = true →
      Aside m t (.script origin (.pump :: calls)) [.script origin calls]
        [.answered t origin (.pumped (.ok 0))]
  | pumpElsewhere {origin : Origin} {calls : List Call} : m.dispatcher.isLoop = false →
      m.dispatcher.owner.isCurrent t = false →
      Aside m t (.script origin (.pump :: calls)) [.script origin calls]
        [.answered t origin (.pumped (.error (.notOwnerContext "QueueDispatcher::run_pending")))]
  | note {origin : Origin} {note : Note} {calls : List Call} :
      Aside m t (.script origin (.note note :: calls)) [.script origin calls] [.noted note t]
  | join {origin : Origin} {u : ThreadId} {calls : List Call} : (m.stack u).isEmpty = true →
      Aside m t (.script origin (.join u :: calls)) [.script origin calls]
        [.answered t origin .done]
  | drained {origin : Origin} {taken : Nat} : m.dispatcher.tasks = [] →
      Aside m t (.pumping taken origin) [] [.answered t origin (.pumped (.ok taken))]
  | received {id : ReplyId} {origin : Origin} {value : String} :
      m.replies[id]? = some (.sent value) →
      Aside m t (.awaitingReply id origin) [] [.answered t origin (.returned (.ok value))]
  | dropped {id : ReplyId} {origin : Origin} : m.replies[id]? = some .dropped →
      Aside m t (.awaitingReply id origin) []
        [.answered t origin (.returned (.error DispatchRefusal.taskDropped.error))]
  | returned {origin : Origin} {value : String} :
      Aside m t (.returning value origin) [] [.answered t origin (.returned (.ok value))]
  | joinedLoop {origin : Origin} : m.dispatcher.stopped = true →
      Aside m t (.joiningLoop origin) [] [.answered t origin .done]
  | guard : Aside m t .guard [] []
  /-- A call finds the engine published. -/
  | glanced {origin : Origin} {claim : Claim} {calls : List Call} {e : E} :
      m.coordinator.engine = some e →
      Aside m t (.script origin (.ensureStarted claim :: calls)) [.script origin calls]
        [.answered t origin (.engine (.ok e))]
  /-- A call finds no engine published. -/
  | missed {origin : Origin} {claim : Claim} {calls : List Call} : m.coordinator.engine = none →
      Aside m t (.script origin (.ensureStarted claim :: calls))
        [.entering (claim.asserted (m.dispatcher.owner.isCurrent t)) origin false,
          .script origin calls] []
  /-- A call finds in its section that the engine has started meanwhile. -/
  | late {origin : Origin} {claim admitted : Bool} : m.coordinator.phase = .started →
      Aside m t (.entering claim origin admitted) []
        [.answered t origin (.engine m.coordinator.published)]
  | poisoned {origin : Origin} {claim admitted : Bool} {reason : String} :
      m.coordinator.phase ≠ .started → m.coordinator.failure = some reason →
      Aside m t (.entering claim origin admitted) []
        [.answered t origin (.engine (.error (.poisoned reason)))]
  /-- A waiting call that has been woken returns. -/
  | woken {origin : Origin} {result : Except StartupError E} : t ∉ m.sleepers →
      m.coordinator.recheck = some result →
      Aside m t (.awaitingStartup origin) [] [.answered t origin (.engine result)]
  /-- Startup is under way, so there is nothing to ask for. -/
  | underway {f : Frame} {admitted : Bool} {origin : Origin} {rest : List Frame} :
      Requests f admitted origin rest → m.coordinator.phase ≠ .notStarted →
      Aside m t f rest [.answered t origin (.begun (.ok ()))]
  /-- A startup task finds the engine started. -/
  | spared : m.coordinator.phase = .started → Aside m t .startup [.telling [] .finished] []
  /-- A startup task finds that startup has failed. -/
  | skipped {reason : String} : m.coordinator.phase ≠ .started →
      m.coordinator.failure = some reason → Aside m t .startup [] []
  | tell {ticket : Ticket} {l : Listener} {listeners : List (Ticket × Listener)}
      {sequel : Sequel} :
      Aside m t (.telling ((ticket, l) :: listeners) sequel)
        [.script .callback l.script, .telling listeners sequel]
        [.told ticket l.key l.name m.coordinator.phase t]
  /-- All listeners have been told. -/
  | told {sequel : Sequel} : Aside m t (.telling [] sequel) [] (m.goOnEvents t sequel)

/-- What the step of a frame can do that leaves what lies below: the frames that it puts into its
place, what it writes into the log, and the machine as it is left otherwise. -/
inductive Acts (m : Machine σ E) (t : ThreadId) :
    Frame → List Frame → List (Event E) → Machine σ E → Prop where
  | aside {f : Frame} {pushed : List Frame} {events : List (Event E)} :
      Aside m t f pushed events → Acts m t f pushed events m
  -- posts of calls
  | postRefused {f : Frame} {posting : Posting} {origin : Origin} {rest : List Frame}
      {r : DispatchRefusal} : Posts m t f false posting origin rest →
      m.dispatcher.refusal? = some r →
      Acts m t f rest [.answered t origin (posting.refused r.error)] m
  | postLooked {f : Frame} {posting : Posting} {origin : Origin} {rest : List Frame} :
      Posts m t f false posting origin rest → m.dispatcher.refusal? = none →
      m.dispatcher.isLoop = false → Acts m t f (.pushing posting origin :: rest) [] m
  | jobAccepted {f : Frame} {admitted : Bool} {calls : List Call} {origin : Origin}
      {rest : List Frame} : Posts m t f admitted (.job calls) origin rest →
      m.dispatcher.Accepts admitted →
      Acts m t f rest [.answered t origin (.posted (.ok ()))]
        { m with dispatcher := m.dispatcher.push (.job calls) }
  | closureAccepted {f : Frame} {admitted : Bool} {calls : List Call} {value : String}
      {origin : Origin} {rest : List Frame} :
      Posts m t f admitted (.closure calls value) origin rest → m.dispatcher.Accepts admitted →
      Acts m t f (.awaitingReply m.replies.length origin :: rest) []
        { m with
          dispatcher := m.dispatcher.push (.reply m.replies.length value origin calls)
          replies := m.replies ++ [.awaited] }
  -- startup that is asked for without waiting
  | requestRefused {f : Frame} {origin : Origin} {rest : List Frame} {r : DispatchRefusal} :
      Requests f false origin rest → m.coordinator.phase = .notStarted →
      m.dispatcher.refusal? = some r →
      Acts m t f rest [.answered t origin (.begun (.error r.error))]
        { m with coordinator := m.coordinator.bindOwner m.dispatcher.owner }
  | requestLooked {f : Frame} {origin : Origin} {rest : List Frame} :
      Requests f false origin rest → m.coordinator.phase = .notStarted →
      m.dispatcher.refusal? = none → m.dispatcher.isLoop = false →
      Acts m t f (.requesting origin :: rest) [] m
  | requested {f : Frame} {admitted : Bool} {origin : Origin} {rest : List Frame} :
      Requests f admitted origin rest → m.coordinator.phase = .notStarted →
      m.dispatcher.Accepts admitted →
      Acts m t f rest [.answered t origin (.begun (.ok ()))]
        { m with
          coordinator := m.coordinator.requested m.dispatcher.owner
          dispatcher := m.dispatcher.push .startup }
  -- sections of calls that need the engine
  | notOwner {origin : Origin} {admitted : Bool} : m.coordinator.Undecided →
      (m.coordinator.ownerOr m.dispatcher.owner).isCurrent t = false →
      Acts m t (.entering true origin admitted) []
        [.answered t origin (.engine (.error (.notOwnerContext "ensure_started")))]
        { m with coordinator := m.coordinator.bindOwner m.dispatcher.owner }
  | refused {origin : Origin} {r : DispatchRefusal} : m.coordinator.Undecided →
      (m.coordinator.ownerOr m.dispatcher.owner).isCurrent t = false →
      m.coordinator.phase = .notStarted → m.dispatcher.refusal? = some r →
      Acts m t (.entering false origin false) []
        [.answered t origin (.engine (.error r.error))]
        { m with coordinator := m.coordinator.bindOwner m.dispatcher.owner }
  | looked {origin : Origin} : m.coordinator.Undecided →
      (m.coordinator.ownerOr m.dispatcher.owner).isCurrent t = false →
      m.coordinator.phase = .notStarted → m.dispatcher.refusal? = none →
      m.dispatcher.isLoop = false →
      Acts m t (.entering false origin false) [.entering false origin true] [] m
  /-- A call posts startup and waits. -/
  | posted {origin : Origin} {admitted : Bool} : m.coordinator.Undecided →
      (m.coordinator.ownerOr m.dispatcher.owner).isCurrent t = false →
      m.coordinator.phase = .notStarted → m.dispatcher.Accepts admitted →
      Acts m t (.entering false origin admitted) [.awaitingStartup origin] []
        { m with
          coordinator := m.coordinator.requested m.dispatcher.owner
          dispatcher := m.dispatcher.push .startup
          sleepers := t :: m.sleepers }
  /-- A call waits for a startup that others have posted. -/
  | joined {origin : Origin} {admitted : Bool} : m.coordinator.Undecided →
      (m.coordinator.ownerOr m.dispatcher.owner).isCurrent t = false →
      m.coordinator.phase = .starting →
      Acts m t (.entering false origin admitted) [.awaitingStartup origin] []
        { m with
          coordinator := m.coordinator.bindOwner m.dispatcher.owner
          sleepers := t :: m.sleepers }
  -- running the initializer
  | started {f : Frame} {c : Coordinator σ E Listener} {sequel : Sequel}
      {initializer : Initializer σ E} {engine : E} : Launch m t f c sequel →
      m.coordinator.Undecided → m.coordinator.initializer = some initializer →
      (initializer m.host).1 = .engine engine →
      Acts m t f [.telling (queue (c.registrants.live m.alive)) sequel] [.initialized t]
        { m with
          coordinator := c.succeeded engine
          host := (initializer m.host).2
          sleepers := [] }
  | failed {f : Frame} {c : Coordinator σ E Listener} {sequel : Sequel}
      {initializer : Initializer σ E} {reason : String} : Launch m t f c sequel →
      m.coordinator.Undecided → m.coordinator.initializer = some initializer →
      (initializer m.host).1.verdict = .error reason →
      Acts m t f [] [failureEvent t reason sequel, .initialized t]
        { m with
          coordinator := c.failed reason
          host := (initializer m.host).2
          sleepers := [] }
  /-- The initializer is gone, though startup is not decided. No run gets there. -/
  | stuck {f : Frame} {c : Coordinator σ E Listener} {sequel : Sequel} : Launch m t f c sequel →
      m.coordinator.Undecided → m.coordinator.initializer = none →
      Acts m t f [] (stuckEvents t sequel)
        { m with coordinator := c.failed Coordinator.stuckReason, sleepers := [] }
  -- registrations
  | registerLate {origin : Origin} {listener : Listener} {calls : List Call} :
      m.coordinator.phase = .started →
      Acts m t (.script origin (.register listener :: calls))
        [.telling [(.immediate m.served, listener)] (.notified origin m.served),
          .script origin calls] []
        { m with served := m.served + 1 }
  | registerEarly {origin : Origin} {listener : Listener} {calls : List Call} :
      m.coordinator.phase ≠ .started →
      Acts m t (.script origin (.register listener :: calls)) [.script origin calls]
        [.answered t origin (.registered (.pending (m.coordinator.registrants.issued + 1)))]
        { m with coordinator := { m.coordinator with
          registrants := m.coordinator.registrants.push listener } }
  | unregister {origin : Origin} {id : RegistrationId} {calls : List Call} :
      Acts m t (.script origin (.unregister id :: calls)) [.script origin calls]
        [.answered t origin (.unregistered (m.coordinator.unregister id).1)]
        { m with coordinator := (m.coordinator.unregister id).2 }
  | forget {origin : Origin} {key : Nat} {calls : List Call} :
      Acts m t (.script origin (.forget key :: calls)) [.script origin calls]
        [.answered t origin .done] { m with held := m.held.filter (· != key) }
  -- the dispatcher
  | took {f g : Frame} {task : Task} {d : Dispatcher Task} : f.Takes g →
      m.dispatcher.take? = some (task, d) →
      Acts m t f (task.frames ++ [g]) [] { m with dispatcher := d }
  | close {origin : Origin} {calls : List Call} :
      Acts m t (.script origin (.close :: calls)) [.script origin calls]
        [.answered t origin .done] { m with dispatcher := m.dispatcher.close }
  | shutdown {origin : Origin} {calls : List Call} :
      Acts m t (.script origin (.shutdown :: calls)) [.takingHandle origin, .script origin calls]
        [] { m with dispatcher := m.dispatcher.giveUpSending }
  /-- A shutdown takes the handle of the loop's thread, which it is going to join. -/
  | claimed {origin : Origin} : m.dispatcher.takeHandle.1 = true →
      m.dispatcher.owner.isCurrent t = false →
      Acts m t (.takingHandle origin) [.joiningLoop origin] []
        { m with dispatcher := m.dispatcher.takeHandle.2 }
  /-- A shutdown finds no handle, or that of its own thread. -/
  | unclaimed {origin : Origin} :
      m.dispatcher.takeHandle.1 = false ∨ m.dispatcher.owner.isCurrent t = true →
      Acts m t (.takingHandle origin) [] [.answered t origin .done]
        { m with dispatcher := m.dispatcher.takeHandle.2 }
  | sent {id : ReplyId} {value : String} :
      Acts m t (.sending id value) [] []
        { m with replies := m.replies.set id (.sent value) }

/-- A machine in which a thread has gone on with another stack and has written something into the
log. -/
def after (n : Machine σ E) (t : ThreadId) (events : List (Event E)) (stack : List Frame) :
    Machine σ E :=
  { n with log := events ++ n.log }.withStack t stack

theorem Acts.threads {f : Frame} {pushed : List Frame} {events : List (Event E)}
    (h : Acts m t f pushed events n) : n.threads = m.threads := by
  cases h <;> rfl

theorem Acts.log {f : Frame} {pushed : List Frame} {events : List (Event E)}
    (h : Acts m t f pushed events n) : n.log = m.log := by
  cases h <;> rfl

/-- The loop is served by what has always served it. -/
theorem Acts.eq_serving {f : Frame} {pushed : List Frame} {events : List (Event E)}
    (h : Acts m t f pushed events n) (hmem : .serving ∈ pushed) : f = .serving := by
  cases h with
  | aside h =>
    cases h with
    | underway hf => cases hf <;> simp at hmem
    | _ => simp at hmem
  | postRefused hp | postLooked hp | jobAccepted hp | closureAccepted hp =>
    cases hp <;> simp at hmem
  | requestRefused hf | requestLooked hf | requested hf => cases hf <;> simp at hmem
  | @took _ _ task _ hf =>
    cases hf with
    | serving => rfl
    | pumping => cases task <;> simp [Task.frames] at hmem
  | _ => simp at hmem

/-- What a step of a thread can do. -/
inductive Stepped (m : Machine σ E) (t : ThreadId) : Machine σ E → Prop where
  | acted {f : Frame} {below pushed : List Frame} {events : List (Event E)} {n : Machine σ E} :
      m.stack t = f :: below → Acts m t f pushed events n →
      Stepped m t (n.after t events (pushed ++ below))
  | panicked {origin : Origin} {message : String} {calls : List Call} {below : List Frame} :
      m.stack t = .script origin (.panic message :: calls) :: below →
      Stepped m t (m.panic t message (.script origin calls :: below))
  /-- The thread of a loop ends because nothing is left to do. -/
  | ended {below : List Frame} : m.stack t = .serving :: below → m.dispatcher.tasks = [] →
      m.dispatcher.ending = true → Stepped m t (m.stopLoop.withStack t [])

/-! ### Every step is one of these -/

theorem begin_eq (m : Machine σ E) (t : ThreadId) (below : List Frame) (task : Task) :
    m.begin t below task = m.withStack t (task.frames ++ below) := by
  cases task <;> rfl

theorem stepped_of_post {f : Frame} {admitted : Bool} {posting : Posting} {origin : Origin}
    {rest below : List Frame} (hs : m.stack t = f :: below)
    (hp : Posts m t f admitted posting origin rest) :
    Stepped m t (m.post t origin admitted (rest ++ below) posting) := by
  have ho := m.dispatcher.offer_offered admitted (posting.task m.replies.length origin)
  unfold post
  generalize m.dispatcher.offer admitted (posting.task m.replies.length origin) = o at ho ⊢
  cases ho with
  | refused ha hr =>
    subst ha
    exact .acted hs (.postRefused hp hr)
  | looked ha hr hl =>
    subst ha
    exact .acted hs (.postLooked hp hr hl)
  | accepted ha =>
    cases posting with
    | job calls => exact .acted hs (.jobAccepted hp ha)
    | closure calls value => exact .acted hs (.closureAccepted hp ha)

theorem stepped_of_background {f : Frame} {admitted : Bool} {origin : Origin}
    {rest below : List Frame} (hs : m.stack t = f :: below) (hf : Requests f admitted origin rest) :
    Stepped m t (m.background t origin admitted (rest ++ below)) := by
  have hb := Coordinator.background_asked m.coordinator m.dispatcher.owner
    (fun _ => m.dispatcher.offer admitted .startup) { dispatcher := m.dispatcher }
  unfold background
  generalize m.coordinator.background m.dispatcher.owner
    (fun _ => m.dispatcher.offer admitted .startup) { dispatcher := m.dispatcher } = b at hb ⊢
  -- The section goes on, is refused, or posts; a post that only looked is begun anew.
  cases hb with
  | underway hn => exact .acted hs (.aside (.underway hf hn))
  | refused hn hd =>
    have ho := m.dispatcher.offer_offered admitted .startup
    rw [hd] at ho
    cases ho with
    | refused ha hr =>
      subst ha
      exact .acted hs (.requestRefused hf hn hr)
  | posted hn hd =>
    have ho := m.dispatcher.offer_offered admitted .startup
    rw [hd] at ho
    cases ho with
    | looked ha hr hl =>
      subst ha
      exact .acted hs (.requestLooked hf hn hr hl)
    | accepted ha => exact .acted hs (.requested hf hn ha)

theorem stepped_of_enter {claim admitted : Bool} {origin : Origin} {below : List Frame}
    (hs : m.stack t = .entering claim origin admitted :: below) :
    Stepped m t (m.enter t claim origin admitted below) := by
  have he := Coordinator.enter_entry m.coordinator m.dispatcher.owner
    (fun _ => m.dispatcher.offer admitted .startup) m.alive t claim m.host
    { dispatcher := m.dispatcher }
  unfold enter
  generalize m.coordinator.enter m.dispatcher.owner
    (fun _ => m.dispatcher.offer admitted .startup) m.alive t claim m.host
    { dispatcher := m.dispatcher } = e at he ⊢
  cases he with
  | done hp => exact .acted hs (.aside (.late hp))
  | poisoned hp hf => exact .acted hs (.aside (.poisoned hp hf))
  | performed hu ho hp =>
    cases hp with
    | done hd => exact absurd hd hu.1
    -- recording the owner has decided nothing
    | poisoned _ hf => exact absurd hf (by simp [Coordinator.bindOwner, hu.2])
    | stuck _ hi => exact .acted hs (.stuck (.inline ho) hu hi)
    | succeeded _ hi hv => exact .acted hs (.started (.inline ho) hu hi hv)
    | failed _ hi hv => exact .acted hs (.failed (.inline ho) hu hi hv)
  | notOwner hu ho hc =>
    subst hc
    exact .acted hs (.notOwner hu ho)
  | refused hu ho hc hn hd =>
    subst hc
    have hoffered := m.dispatcher.offer_offered admitted .startup
    rw [hd] at hoffered
    cases hoffered with
    | refused ha hr =>
      subst ha
      exact .acted hs (.refused hu ho hn hr)
  | posted hu ho hc hn hd =>
    subst hc
    have hoffered := m.dispatcher.offer_offered admitted .startup
    rw [hd] at hoffered
    cases hoffered with
    | looked ha hr hl =>
      subst ha
      exact .acted hs (.looked hu ho hn hr hl)
    | accepted ha => exact .acted hs (.posted hu ho hn ha)
  | joined hu ho hc hp =>
    subst hc
    exact .acted hs (.joined hu ho hp)

theorem stepped_of_startup {below : List Frame} (hs : m.stack t = .startup :: below)
    (h : m.frame t below .startup = some m') : Stepped m t m' := by
  have hp := Coordinator.perform_performed m.coordinator m.alive m.host
  simp only [frame, Option.some.injEq] at h
  subst h
  generalize m.coordinator.perform m.alive m.host = a at hp ⊢
  cases hp with
  | done hp => exact .acted hs (.aside (.spared hp))
  | poisoned hp hf => exact .acted hs (.aside (.skipped hp hf))
  | stuck hu hi => exact .acted hs (.stuck .posted hu hi)
  | succeeded hu hi hv => exact .acted hs (.started .posted hu hi hv)
  | failed hu hi hv => exact .acted hs (.failed .posted hu hi hv)

/-- Taking a task leaves the frames of the task above the one that has taken it. -/
theorem stepped_of_take {f g : Frame} {below : List Frame} {task : Task} {d : Dispatcher Task}
    (hs : m.stack t = f :: below) (hf : f.Takes g) (htake : m.dispatcher.take? = some (task, d)) :
    Stepped m t (({ m with dispatcher := d } : Machine σ E).begin t (g :: below) task) := by
  have hacted := Stepped.acted (n := { m with dispatcher := d }) hs (.took hf htake)
  rw [List.append_assoc] at hacted
  rw [begin_eq]
  exact hacted

theorem stepped_of_call {origin : Origin} {c : Call} {calls : List Call} {below : List Frame}
    (hs : m.stack t = .script origin (c :: calls) :: below)
    (h : m.call t origin (.script origin calls :: below) c = some m') : Stepped m t m' := by
  -- Only `join` can have no step, and only `panic` drops frames; every other call acts.
  cases c with
  | ensureStarted claim =>
    cases h
    cases he : m.coordinator.engine with
    | some e => exact .acted hs (.aside (.glanced he))
    | none => exact .acted hs (.aside (.missed he))
  | startInBackground =>
    cases h
    exact stepped_of_background hs .call
  | register listener =>
    -- A listener that comes late is called at once, an early one is entered in the table.
    by_cases hp : m.coordinator.phase = .started
    · simp only [call, Coordinator.register, Phase.isStarted_iff.2 hp, if_true,
        Option.some.injEq] at h
      subst h
      exact .acted hs (.registerLate hp)
    · simp only [call, Coordinator.register, Coordinator.isStarted_eq_false hp,
        Bool.false_eq_true, if_false, Option.some.injEq] at h
      subst h
      exact .acted hs (.registerEarly hp)
  | post posted =>
    cases h
    exact stepped_of_post hs .job
  | runOnOwner closure value =>
    simp only [call, Option.some.injEq] at h
    subst h
    -- On the owner the closure runs under a guard; elsewhere it travels as a task.
    cases ho : m.dispatcher.owner.isCurrent t with
    | true => exact .acted hs (.aside (.inline ho))
    | false => exact stepped_of_post hs (.closure ho)
  | pump =>
    simp only [call, Option.some.injEq] at h
    subst h
    cases hl : m.dispatcher.isLoop with
    | true => exact .acted hs (.aside (.pumpLoop hl))
    | false =>
      cases ho : m.dispatcher.owner.isCurrent t with
      | true => exact .acted hs (.aside (.pump hl ho))
      | false => exact .acted hs (.aside (.pumpElsewhere hl ho))
  | join thread =>
    simp only [call] at h
    split at h
    · rename_i hj
      cases h
      exact .acted hs (.aside (.join hj))
    · cases h
  | panic message =>
    cases h
    exact .panicked hs
  | catching inner =>
    cases h
    exact .acted hs (.aside .catching)
  | note n =>
    cases h
    exact .acted hs (.aside .note)
  | unregister id =>
    cases h
    exact .acted hs .unregister
  | close =>
    cases h
    exact .acted hs .close
  | shutdown =>
    cases h
    exact .acted hs .shutdown
  | forget key =>
    cases h
    exact .acted hs .forget

theorem stepped_of_frame {f : Frame} {below : List Frame} (hs : m.stack t = f :: below)
    (h : m.frame t below f = some m') : Stepped m t m' := by
  -- A frame that waits has a step only where what it waits for is there; `h` excludes the other
  -- branches.
  cases f with
  | script origin calls =>
    cases calls with
    | nil =>
      cases h
      exact .acted hs (.aside .ended)
    | cons c calls => exact stepped_of_call hs h
  | entering claim origin admitted =>
    cases h
    exact stepped_of_enter hs
  | requesting origin =>
    cases h
    exact stepped_of_background hs .requesting
  | pushing posting origin =>
    cases h
    exact stepped_of_post hs .pushing
  | awaitingStartup origin =>
    simp only [frame] at h
    split at h
    · cases h
    · rename_i hsleep
      obtain ⟨result, hr, rfl⟩ := Option.map_eq_some_iff.1 h
      exact .acted hs (.aside (.woken (by simpa using hsleep) hr))
  | telling listeners sequel =>
    cases listeners with
    | nil =>
      cases h
      cases sequel <;> exact .acted hs (.aside .told)
    | cons first rest =>
      cases h
      exact .acted hs (.aside .tell)
  | pumping taken origin =>
    simp only [frame, Option.some.injEq] at h
    subst h
    split
    · rename_i htake
      exact stepped_of_take hs .pumping htake
    · rename_i hnone
      exact .acted hs (.aside (.drained (Dispatcher.take?_eq_none_iff.1 hnone)))
  | serving =>
    simp only [frame] at h
    split at h
    · rename_i htake
      cases h
      exact stepped_of_take hs .serving htake
    · rename_i hnone
      split at h
      · -- Nothing is queued: the loop goes on waiting, unless no sender is left.
        rename_i hending
        cases h
        exact .ended hs (Dispatcher.take?_eq_none_iff.1 hnone) hending
      · cases h
  | startup => exact stepped_of_startup hs h
  | awaitingReply id origin =>
    simp only [frame] at h
    split at h
    · rename_i hr
      cases h
      exact .acted hs (.aside (.received hr))
    · rename_i hr
      cases h
      exact .acted hs (.aside (.dropped hr))
    · cases h
  | returning value origin =>
    cases h
    exact .acted hs (.aside .returned)
  | sending id value =>
    cases h
    exact .acted hs .sent
  | takingHandle origin =>
    simp only [frame, Option.some.injEq] at h
    subst h
    split
    · rename_i hjoins
      -- The handle was there and the loop is not this thread: it is waited for.
      simp only [Dispatcher.owner_takeHandle, Bool.and_eq_true, Bool.not_eq_true'] at hjoins
      exact .acted hs (.claimed hjoins.1 hjoins.2)
    · rename_i hstays
      simp only [Dispatcher.owner_takeHandle, Bool.and_eq_true, Bool.not_eq_true', not_and,
        Bool.not_eq_false] at hstays
      -- Either the handle had been taken or the loop's own thread shuts down.
      refine .acted hs (.unclaimed ?_)
      cases hj : m.dispatcher.takeHandle.1 with
      | false => exact .inl rfl
      | true => exact .inr (hstays hj)
  | joiningLoop origin =>
    simp only [frame] at h
    split at h
    · rename_i hstopped
      cases h
      exact .acted hs (.aside (.joinedLoop hstopped))
    · cases h
  | guard =>
    cases h
    exact .acted hs (.aside .guard)

/-- **What a step does.** It is what the innermost frame can do, or a panic, or the end of a loop's
thread. -/
theorem stepped_of_step (h : m.step t = some m') : Stepped m t m' := by
  unfold step stepFrom at h
  split at h
  · cases h
  · rename_i hs
    exact stepped_of_frame hs h

/-- A frame that leaves what lies below it does what it can do. -/
theorem acts_of_step {f : Frame} {below : List Frame} (hs : m.stack t = f :: below)
    (hf : f.drops = false) (h : m.step t = some m') :
    ∃ pushed events n, Acts m t f pushed events n ∧ m' = n.after t events (pushed ++ below) := by
  cases stepped_of_step h with
  | acted hs' ha =>
    cases hs.symm.trans hs'
    exact ⟨_, _, _, ha, rfl⟩
  | panicked hs' | ended hs' =>
    cases hs.symm.trans hs'
    cases hf

/-! ### A frame does what it can do -/

theorem post_of_posts {f : Frame} {admitted : Bool} {posting : Posting} {origin : Origin}
    {rest : List Frame} (h : Posts m t f admitted posting origin rest) (below : List Frame) :
    m.frame t below f = some (m.post t origin admitted (rest ++ below) posting) := by
  cases h with
  | job | pushing => rfl
  | closure ho => simp [frame, call, ho]

theorem background_of_requests {f : Frame} {admitted : Bool} {origin : Origin}
    {rest : List Frame} (h : Requests f admitted origin rest) (below : List Frame) :
    m.frame t below f = some (m.background t origin admitted (rest ++ below)) := by
  cases h <;> rfl

theorem Aside.frame_eq {f : Frame} {pushed : List Frame} {events : List (Event E)}
    (h : Aside m t f pushed events) (below : List Frame) :
    m.frame t below f = some (m.after t events (pushed ++ below)) := by
  -- The hypotheses of a case are the tests its frame makes, so that the frame evaluates.
  cases h with
  | ended | catching | note | returned | guard | tell => rfl
  | inline ho => simp [frame, call, ho, after]
  | pump hl ho => simp [frame, call, hl, ho, after]
  | pumpLoop hl => simp [frame, call, hl, after, answer, record]
  | pumpElsewhere hl ho => simp [frame, call, hl, ho, after, answer, record]
  | join hj => simp [frame, call, hj, after, answer, record]
  | drained hnone =>
    simp [frame, Dispatcher.take?_of_empty hnone, after, answer, record]
  | received hr => simp [frame, hr, after, answer, record]
  | dropped hr => simp [frame, hr, after, answer, record]
  | joinedLoop hstopped => simp [frame, hstopped, after, answer, record]
  | glanced he => simp [frame, call, he, after, answer, record]
  | missed he => simp [frame, call, he, after]
  | late hp =>
    simp [frame, enter, Coordinator.enter_of_started hp, after, answer, record, notePerformed,
      wake]
  | poisoned hp hf =>
    simp [frame, enter, Coordinator.enter, Coordinator.isStarted_eq_false hp, hf, after, answer,
      record, notePerformed, wake]
  | woken hsleep hr => simp [frame, hsleep, hr, after, answer, record]
  | underway hf hn =>
    rw [background_of_requests hf]
    simp [background, Coordinator.background, hn, after, answer, record]
  | spared hp => simp [frame, Coordinator.perform, hp, after, notePerformed, wake, queue]
  | skipped hp hf =>
    simp [frame, Coordinator.perform_poisoned hp hf, after, notePerformed, wake]
  | @told sequel => cases sequel <;> rfl

theorem Acts.frame_eq {f : Frame} {pushed : List Frame} {events : List (Event E)}
    (h : Acts m t f pushed events n) (below : List Frame) :
    m.frame t below f = some (n.after t events (pushed ++ below)) := by
  -- The converse of `stepped_of_frame`: the hypotheses of a case settle the tests its frame makes.
  cases h with
  | aside h => exact h.frame_eq below
  | postRefused hp hr =>
    rw [post_of_posts hp]
    simp [post, Dispatcher.offer_of_refusal? hr, after, answer, record]
  | postLooked hp hr hl =>
    rw [post_of_posts hp]
    simp [post, Dispatcher.offer_of_open hr hl, after]
  | jobAccepted hp ha | closureAccepted hp ha =>
    rw [post_of_posts hp]
    simp [post, Dispatcher.offer_of_accepts ha, afterPost, Posting.task, after, answer, record]
  | requestRefused hf hn hr =>
    rw [background_of_requests hf]
    simp [background, Coordinator.background, hn, Dispatcher.offer_of_refusal? hr, after, answer,
      record]
  | requestLooked hf hn hr hl =>
    rw [background_of_requests hf]
    simp [background, Coordinator.background, hn, Dispatcher.offer_of_open hr hl, after]
  | requested hf hn ha =>
    rw [background_of_requests hf]
    simp [background, Coordinator.background, hn, Dispatcher.offer_of_accepts ha,
      Coordinator.requested, after, answer, record]
  | notOwner hu ho =>
    simp [frame, enter, Coordinator.enter, Coordinator.isStarted_eq_false hu.1, hu.2, ho, after,
      answer, record, notePerformed, wake]
  | refused hu ho hn hr =>
    simp [frame, enter, Coordinator.enter, hu.2, ho, hn, Dispatcher.offer_of_refusal? hr, after,
      answer, record, notePerformed, wake]
  | looked hu ho hn hr hl =>
    simp [frame, enter, Coordinator.enter, hu.2, ho, hn, Dispatcher.offer_of_open hr hl, after]
  | posted hu ho hn ha =>
    simp [frame, enter, Coordinator.enter, hu.2, ho, hn, Dispatcher.offer_of_accepts ha,
      Coordinator.requested, after, notePerformed, wake]
  | joined hu ho hp =>
    simp [frame, enter, Coordinator.enter, hu.2, ho, hp, after, notePerformed, wake]
  | started hl hu hi hv =>
    cases hl with
    | posted =>
      simp [frame, Coordinator.perform_of_engine hu hi hv, after, notePerformed, wake, record]
    | inline ho =>
      -- Inline the attempt binds the owner first, which changes neither engine nor failure.
      simp [frame, enter, Coordinator.enter_of_owner hu ho,
        Coordinator.perform_of_engine (c := m.coordinator.bindOwner _) hu hi hv,
        Coordinator.Attempt.next, after, notePerformed, wake, record]
  | failed hl hu hi hv =>
    cases hl with
    | posted =>
      simp [frame, Coordinator.perform_of_error hu hi hv, failureEvent, after, notePerformed, wake,
        record]
    | inline ho =>
      simp [frame, enter, Coordinator.enter_of_owner hu ho,
        Coordinator.perform_of_error (c := m.coordinator.bindOwner _) hu hi hv,
        Coordinator.Attempt.next, failureEvent, after, notePerformed, wake, answer, record]
  | stuck hl hu hi =>
    cases hl with
    | posted =>
      simp [frame, Coordinator.perform_of_none hu hi, stuckEvents, after, notePerformed, wake]
    | inline ho =>
      simp [frame, enter, Coordinator.enter_of_owner hu ho,
        Coordinator.perform_of_none (c := m.coordinator.bindOwner _) hu hi,
        Coordinator.Attempt.next, stuckEvents, after, notePerformed, wake, answer, record]
  | registerLate hp => simp [frame, call, Coordinator.register, hp, after]
  | registerEarly hp =>
    simp [frame, call, Coordinator.register, Coordinator.isStarted_eq_false hp, after, answer,
      record]
  | unregister | forget | close | shutdown | sent => rfl
  | took hf htake =>
    cases hf <;> simp [frame, htake, begin_eq, after]
  | claimed hj ho =>
    simp [frame, hj, Dispatcher.owner_takeHandle, ho, after]
  | unclaimed hwhy =>
    -- Both reasons for not waiting make the same test fail.
    have hstays : (m.dispatcher.takeHandle.1 && !m.dispatcher.owner.isCurrent t) = false := by
      rcases hwhy with h | h <;> simp [h]
    simp [frame, hstays, Dispatcher.owner_takeHandle, after, answer, record]

theorem step_of_acts {f : Frame} {below pushed : List Frame} {events : List (Event E)}
    (hs : m.stack t = f :: below) (h : Acts m t f pushed events n) :
    m.step t = some (n.after t events (pushed ++ below)) := by
  rw [step, hs]
  exact h.frame_eq below

theorem step_of_panic {origin : Origin} {message : String} {calls : List Call}
    {below : List Frame} (hs : m.stack t = .script origin (.panic message :: calls) :: below) :
    m.step t = some (m.panic t message (.script origin calls :: below)) := by
  rw [step, hs]
  rfl

end Machine

end LazyEngine
