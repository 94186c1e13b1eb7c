/-
What one step of a thread does.

Most of what a thread can do (`Machine.Acts`) has nothing to do with startup:

* `Machine.Quiet` — the step changes nothing that startup depends on;
* `Machine.Turn` — the kinds of steps, each with the machine that it leaves;
* `turn_of_step` — every step is of one of these kinds.

Design notes: a fact about startup that holds along every run is proved by cases on `Turn`, which
forgets how the steps differ that startup does not depend on.
-/
import LazyEngine.Proofs.Startup.Steps

namespace LazyEngine

/-! ### Frames, events and tasks that startup does not depend on -/

/-- Whether the error says that the initializer has failed in this very call. -/
def StartupError.isInit : StartupError → Bool
  | .init _ => true
  | _ => false

/-- The error that an answer tells. -/
def Answer.error? {E : Type} : Answer E → Option StartupError
  | .engine (.error e) | .begun (.error e) => some e
  | .posted (.error e) | .returned (.error e) | .pumped (.error e) => some e
  | _ => none

/-- Whether somebody is told here that the initializer has failed: a caller, or the fatal hook,
which is told nothing else. -/
def Event.reportsFailure {E : Type} : Event E → Bool
  | .answered _ _ a => a.error?.any StartupError.isInit
  | .fatal _ => true
  | _ => false

/-- The answers of calls that neither start the engine nor register with it. -/
def Answer.isPlain {E : Type} (a : Answer E) : Bool :=
  (match a with
    | .posted _ | .returned _ | .pumped _ | .done => true
    | _ => false) && !a.error?.any StartupError.isInit

/-- Events that say nothing about startup. -/
def Event.isPlain {E : Type} : Event E → Bool
  | .answered _ _ a => a.isPlain
  | .noted _ _ | .panicked _ _ => true
  | _ => false

/-- Whether a task is the startup task. -/
def Task.isStartup : Task → Bool
  | .startup => true
  | _ => false

namespace Frame

/-- Whether the frame takes tasks of the dispatcher. -/
def takesTasks : Frame → Bool
  | pumping _ _ | serving => true
  | _ => false

/-- Frames that startup does not depend on. -/
def isPlain : Frame → Bool
  | entering _ _ _ | requesting _ | awaitingStartup _ | telling _ _ | startup => false
  | _ => true

/-- Plain frames that neither take tasks nor push one. -/
def stays : Frame → Bool
  | pumping _ _ | serving | pushing _ _ => false
  | f => f.isPlain

theorem isPlain_of_takesTasks {f : Frame} (h : f.takesTasks = true) : f.isPlain = true := by
  cases f <;> first | rfl | cases h

theorem Takes.takesTasks {f g : Frame} (h : f.Takes g) :
    f.takesTasks = true ∧ g.takesTasks = true := by
  cases h <;> exact ⟨rfl, rfl⟩

theorem suffix_of_unwind {stack below : List Frame}
    (h : (unwind stack).landing = .caught below) : below <:+ stack := by
  -- Unwinding drops frames from the top until it meets a guard.
  induction stack with
  | nil => simp [unwind] at h
  | cons f stack ih =>
    cases f with
    | guard =>
      simp only [unwind, Landing.caught.injEq] at h
      subst h
      exact List.suffix_cons ..
    | serving => simp [unwind] at h
    | _ => exact (ih (by simpa [unwind] using h)).trans (List.suffix_cons ..)

end Frame

namespace Dispatcher

variable {d d' : Dispatcher Task} {task : Task}

/-- The number of startup tasks that are queued. -/
def startups (d : Dispatcher Task) : Nat :=
  d.tasks.countP Task.isStartup

theorem mem_tasks_iff (d : Dispatcher Task) : Task.startup ∈ d.tasks ↔ 0 < d.startups := by
  rw [startups, List.countP_pos_iff]
  constructor
  · exact fun h => ⟨_, h, rfl⟩
  · rintro ⟨task, h, ht⟩
    cases task with
    | startup => exact h
    | _ => cases ht

theorem isLoop_withTasks (d : Dispatcher Task) (ts : List Task) :
    (d.withTasks ts).isLoop = d.isLoop := by
  cases d <;> rfl

theorem startups_push (d : Dispatcher Task) (task : Task) :
    (d.push task).startups = d.startups + if task.isStartup then 1 else 0 := by
  simp [startups, List.countP_append, List.countP_cons]

theorem startups_pos_of_push (d : Dispatcher Task) : 0 < (d.push .startup).startups := by
  rw [startups_push]
  exact Nat.succ_pos _

theorem startups_take? (h : d.take? = some (task, d')) :
    d.startups = d'.startups + if task.isStartup then 1 else 0 := by
  simp [startups, take?_tasks h, List.countP_cons]

theorem owner_take? (h : d.take? = some (task, d')) : d'.owner = d.owner := by
  unfold take? at h
  split at h <;> cases h
  exact owner_withTasks ..

theorem isLoop_take? (h : d.take? = some (task, d')) : d'.isLoop = d.isLoop := by
  unfold take? at h
  split at h <;> cases h
  exact isLoop_withTasks ..

theorem owner_stop (d : Dispatcher Task) : d.stop.owner = d.owner := by
  cases d <;> rfl

theorem isLoop_stop (d : Dispatcher Task) : d.stop.isLoop = d.isLoop := by
  cases d <;> rfl

theorem startups_stop_of_empty (he : d.tasks = []) : d.stop.startups = d.startups := by
  cases d with
  | queue o q => rfl
  | loop o l => rw [startups, startups, he]; rfl

theorem startups_stop_le (d : Dispatcher Task) : d.stop.startups ≤ d.startups := by
  cases d with
  | queue o q => exact Nat.le_refl _
  | loop o l => exact Nat.zero_le _

end Dispatcher

namespace Machine

variable {σ E : Type} {m m' n : Machine σ E} {t : ThreadId}

/-! ### Stacks -/

/-- Whoever steps has something to do. -/
theorem exists_frame_of_step (h : m.step t = some m') : ∃ f below, m.stack t = f :: below := by
  cases hs : m.stack t with
  | nil =>
    rw [step, hs] at h
    cases h
  | cons f below => exact ⟨f, below, rfl⟩

theorem lt_length_of_stack {f : Frame} {below : List Frame} (h : m.stack t = f :: below) :
    t < m.threads.length := by
  refine Nat.lt_of_not_le fun hn => ?_
  rw [stack, List.getElem?_eq_none_iff.2 hn] at h
  cases h

theorem stack_withStack (h : t < m.threads.length) (s : List Frame) (u : ThreadId) :
    (m.withStack t s).stack u = if u = t then s else m.stack u := by
  by_cases hu : u = t
  · subst hu
    simp [stack, withStack, h]
  · simp [stack, withStack, List.getElem?_set_ne (Ne.symm hu), hu]

/-- The stacks of a machine with the same threads, after one of them has been replaced. -/
theorem stack_withStack_of_threads (hn : n.threads = m.threads) {f : Frame} {below : List Frame}
    (h : m.stack t = f :: below) (s : List Frame) (u : ThreadId) :
    (n.withStack t s).stack u = if u = t then s else m.stack u := by
  have ht : t < n.threads.length := by
    rw [hn]
    exact lt_length_of_stack h
  have hu : n.stack u = m.stack u := by rw [stack, hn, stack]
  rw [stack_withStack ht, hu]

theorem stack_withStack_self (hn : n.threads = m.threads) {f : Frame} {below : List Frame}
    (h : m.stack t = f :: below) (s : List Frame) : (n.withStack t s).stack t = s := by
  rw [stack_withStack_of_threads hn h, if_pos rfl]

/-! ### Steps that startup does not depend on -/

/-- Startup finds both machines alike, but for what is queued and what threads have to do. -/
structure Alike (m n : Machine σ E) : Prop where
  coordinator : n.coordinator = m.coordinator
  host : n.host = m.host
  threads : n.threads = m.threads
  sleepers : n.sleepers = m.sleepers
  served : n.served = m.served
  owner : n.dispatcher.owner = m.dispatcher.owner
  isLoop : n.dispatcher.isLoop = m.dispatcher.isLoop
  /-- Listeners may have been dropped. -/
  held : ∀ key, key ∈ n.held → key ∈ m.held
  log : ∃ events, n.log = events ++ m.log ∧ ∀ e ∈ events, e.isPlain = true

/-- Whether a plain frame may take the place of another on a thread. -/
structure MayFollow (m : Machine σ E) (t : ThreadId) (f g : Frame) : Prop where
  /-- One that takes tasks replaces another, or the thread is the owner. -/
  takes : g.takesTasks = true → f.takesTasks = true ∨ m.dispatcher.owner.isCurrent t = true
  /-- The loop is served by what has always served it. -/
  serves : g = .serving → f = .serving
  /-- Only a queue makes a thread wait between a look and the push. -/
  pushes : ∀ posting origin, g = .pushing posting origin → m.dispatcher.isLoop = false

/-- A step of a thread that startup does not depend on. -/
structure Quiet (m : Machine σ E) (t : ThreadId) (m' : Machine σ E) : Prop where
  alike : ∃ n stack, Alike m n ∧ m' = n.withStack t stack
  startups : m'.dispatcher.startups = m.dispatcher.startups
  /-- The thread goes on with some plain frames on top of what was left below. -/
  stack : ∃ f below pushed kept, m.stack t = f :: below ∧ f.isPlain = true ∧
    m'.stack t = pushed ++ kept ∧ kept <:+ f :: below ∧
    ∀ g ∈ pushed, g.isPlain = true ∧ MayFollow m t f g

/-- The ways in which startup that is asked for without waiting can go, apart from a look at the
queue. -/
inductive Asked (m : Machine σ E) (admitted : Bool) :
    Except StartupError Unit × Coordinator σ E Listener × Dispatcher Task → Prop where
  | underway : m.coordinator.phase ≠ .notStarted →
      Asked m admitted (.ok (), m.coordinator, m.dispatcher)
  | refused {r : DispatchRefusal} : m.coordinator.phase = .notStarted → admitted = false →
      m.dispatcher.refusal? = some r →
      Asked m admitted (.error r.error, m.coordinator.bindOwner m.dispatcher.owner, m.dispatcher)
  | posted : m.coordinator.phase = .notStarted → m.dispatcher.Accepts admitted →
      Asked m admitted
        (.ok (), m.coordinator.requested m.dispatcher.owner, m.dispatcher.push .startup)

theorem Asked.change {admitted : Bool}
    {r : Except StartupError Unit × Coordinator σ E Listener × Dispatcher Task}
    (h : Asked m admitted r) : m.coordinator.Change m.dispatcher.owner r.2.1 := by
  cases h with
  | underway => exact .stay
  | refused hn => exact .bind (by simp [hn])
  | posted hn => exact .request hn

/-- The kinds of steps of a thread. -/
inductive Turn (m : Machine σ E) (t : ThreadId) : Machine σ E → Prop where
  | quiet {m' : Machine σ E} : Quiet m t m' → Turn m t m'
  /-- A panic ends the loop's thread. -/
  | died {origin : Origin} {message : String} {calls : List Call} {below : List Frame}
      {n : Machine σ E} :
      m.stack t = .script origin (.panic message :: calls) :: below →
      (Frame.unwind (.script origin calls :: below)).landing = .loop → Alike m n →
      n.dispatcher.startups ≤ m.dispatcher.startups → Turn m t (n.withStack t [])
  /-- A call finds the engine published. -/
  | glanced {origin : Origin} {claim : Claim} {calls : List Call} {below : List Frame} {e : E} :
      m.stack t = .script origin (.ensureStarted claim :: calls) :: below →
      m.coordinator.engine = some e →
      Turn m t ((m.answer t origin (.engine (.ok e))).withStack t (.script origin calls :: below))
  /-- A call finds no engine published. -/
  | missed {origin : Origin} {claim : Claim} {calls : List Call} {below : List Frame} :
      m.stack t = .script origin (.ensureStarted claim :: calls) :: below →
      m.coordinator.engine = none →
      Turn m t (m.withStack t (.entering (claim.asserted (m.dispatcher.owner.isCurrent t)) origin
        false :: .script origin calls :: below))
  /-- A call finds in its section that the engine has started meanwhile. -/
  | late {origin : Origin} {claim admitted : Bool} {below : List Frame} :
      m.stack t = .entering claim origin admitted :: below → m.coordinator.phase = .started →
      Turn m t ((m.answer t origin (.engine m.coordinator.published)).withStack t below)
  | poisoned {origin : Origin} {claim admitted : Bool} {below : List Frame} {reason : String} :
      m.stack t = .entering claim origin admitted :: below → m.coordinator.phase ≠ .started →
      m.coordinator.failure = some reason →
      Turn m t ((m.answer t origin (.engine (.error (.poisoned reason)))).withStack t below)
  /-- A call makes a false claim, or its post is refused. -/
  | refused {origin : Origin} {claim admitted : Bool} {below : List Frame} {e : StartupError} :
      m.stack t = .entering claim origin admitted :: below → m.coordinator.Undecided →
      (e = .notOwnerContext "ensure_started" ∨ ∃ r : DispatchRefusal, admitted = false ∧
        m.dispatcher.refusal? = some r ∧ e = r.error) →
      Turn m t (({ m with
        coordinator := m.coordinator.bindOwner m.dispatcher.owner }.answer t origin
          (.engine (.error e))).withStack t below)
  /-- A call finds the queue open for the startup task. -/
  | looked {origin : Origin} {below : List Frame} :
      m.stack t = .entering false origin false :: below → m.coordinator.Undecided →
      m.coordinator.phase = .notStarted → m.dispatcher.isLoop = false →
      Turn m t (m.withStack t (.entering false origin true :: below))
  /-- A call posts startup and waits. -/
  | posted {origin : Origin} {admitted : Bool} {below : List Frame} :
      m.stack t = .entering false origin admitted :: below → m.coordinator.Undecided →
      m.coordinator.phase = .notStarted → m.dispatcher.Accepts admitted →
      Turn m t ({ m with
        coordinator := m.coordinator.requested m.dispatcher.owner
        dispatcher := m.dispatcher.push .startup
        sleepers := t :: m.sleepers }.withStack t (.awaitingStartup origin :: below))
  /-- A call waits for a startup that others have posted. -/
  | joined {origin : Origin} {admitted : Bool} {below : List Frame} :
      m.stack t = .entering false origin admitted :: below → m.coordinator.Undecided →
      m.coordinator.phase = .starting →
      Turn m t ({ m with
        coordinator := m.coordinator.bindOwner m.dispatcher.owner
        sleepers := t :: m.sleepers }.withStack t (.awaitingStartup origin :: below))
  /-- The initializer produces an engine. -/
  | started {f : Frame} {c : Coordinator σ E Listener} {sequel : Sequel} {below : List Frame}
      {initializer : Initializer σ E} {engine : E} :
      m.stack t = f :: below → Launch m t f c sequel → m.coordinator.Undecided →
      m.coordinator.initializer = some initializer → (initializer m.host).1 = .engine engine →
      Turn m t ({ m with
        coordinator := c.succeeded engine
        host := (initializer m.host).2
        sleepers := []
        log := .initialized t :: m.log }.withStack t
          (.telling (queue (c.registrants.live m.alive)) sequel :: below))
  /-- The initializer fails. -/
  | failed {f : Frame} {c : Coordinator σ E Listener} {sequel : Sequel} {below : List Frame}
      {initializer : Initializer σ E} {reason : String} :
      m.stack t = f :: below → Launch m t f c sequel → m.coordinator.Undecided →
      m.coordinator.initializer = some initializer →
      (initializer m.host).1.verdict = .error reason →
      Turn m t ({ m with
        coordinator := c.failed reason
        host := (initializer m.host).2
        sleepers := []
        log := failureEvent t reason sequel :: .initialized t :: m.log }.withStack t below)
  /-- The initializer is gone, though startup is not decided. No run gets there. -/
  | stuck {m' : Machine σ E} : m.coordinator.Undecided → m.coordinator.initializer = none →
      Turn m t m'
  /-- A waiting call that has been woken returns. -/
  | woken {origin : Origin} {below : List Frame} {result : Except StartupError E} :
      m.stack t = .awaitingStartup origin :: below → t ∉ m.sleepers →
      m.coordinator.recheck = some result →
      Turn m t ((m.answer t origin (.engine result)).withStack t below)
  /-- A startup task finds the engine started. -/
  | spared {below : List Frame} : m.stack t = .startup :: below →
      m.coordinator.phase = .started →
      Turn m t (m.withStack t (.telling [] .finished :: below))
  /-- A startup task finds that startup has failed. -/
  | skipped {below : List Frame} {reason : String} : m.stack t = .startup :: below →
      m.coordinator.phase ≠ .started → m.coordinator.failure = some reason →
      Turn m t (m.withStack t below)
  | background {f : Frame} {admitted : Bool} {origin : Origin} {rest below : List Frame}
      {result : Except StartupError Unit} {c : Coordinator σ E Listener} {d : Dispatcher Task} :
      m.stack t = f :: below → Requests f admitted origin rest →
      Asked m admitted (result, c, d) →
      Turn m t (({ m with coordinator := c, dispatcher := d }.answer t origin
        (.begun result)).withStack t (rest ++ below))
  /-- Whoever asks for startup finds the queue open for the task. -/
  | inspected {f : Frame} {origin : Origin} {rest below : List Frame} :
      m.stack t = f :: below → Requests f false origin rest →
      m.coordinator.phase = .notStarted → m.dispatcher.isLoop = false →
      Turn m t (m.withStack t (.requesting origin :: (rest ++ below)))
  /-- A registration that finds the engine running. -/
  | registerLate {origin : Origin} {listener : Listener} {calls : List Call}
      {below : List Frame} :
      m.stack t = .script origin (.register listener :: calls) :: below →
      m.coordinator.phase = .started →
      Turn m t ({ m with served := m.served + 1 }.withStack t
        (.telling [(.immediate m.served, listener)] (.notified origin m.served)
          :: .script origin calls :: below))
  | registerEarly {origin : Origin} {listener : Listener} {calls : List Call}
      {below : List Frame} :
      m.stack t = .script origin (.register listener :: calls) :: below →
      m.coordinator.phase ≠ .started →
      Turn m t (({ m with coordinator := { m.coordinator with
          registrants := m.coordinator.registrants.push listener } }.answer t origin
            (.registered (.pending (m.coordinator.registrants.issued + 1)))).withStack t
              (.script origin calls :: below))
  | unregister {origin : Origin} {id : RegistrationId} {calls : List Call} {below : List Frame} :
      m.stack t = .script origin (.unregister id :: calls) :: below →
      Turn m t (({ m with coordinator := (m.coordinator.unregister id).2 }.answer t origin
        (.unregistered (m.coordinator.unregister id).1)).withStack t
          (.script origin calls :: below))
  /-- A listener is told. -/
  | tell {ticket : Ticket} {l : Listener} {listeners : List (Ticket × Listener)}
      {sequel : Sequel} {below : List Frame} :
      m.stack t = .telling ((ticket, l) :: listeners) sequel :: below →
      Turn m t ((m.record (.told ticket l.key l.name m.coordinator.phase t)).withStack t
        (.script .callback l.script :: .telling listeners sequel :: below))
  /-- All listeners have been told. -/
  | told {sequel : Sequel} {below : List Frame} :
      m.stack t = .telling [] sequel :: below →
      Turn m t ({ m with log := m.goOnEvents t sequel ++ m.log }.withStack t below)
  /-- A startup task is taken out of the queue. -/
  | took {f g : Frame} {below : List Frame} {d : Dispatcher Task} :
      m.stack t = f :: below → f.Takes g →
      m.dispatcher.take? = some (.startup, d) →
      Turn m t ({ m with dispatcher := d }.withStack t (.startup :: g :: below))

/-! ### Every step is of one of these kinds -/

namespace Alike

theorem refl (m : Machine σ E) : Alike m m :=
  ⟨rfl, rfl, rfl, rfl, rfl, rfl, rfl, fun _ h => h, [], rfl, by simp⟩

theorem record (h : Alike m n) {e : Event E} (he : e.isPlain = true) : Alike m (n.record e) := by
  obtain ⟨events, hlog, hplain⟩ := h.log
  refine { h with log := ⟨e :: events, ?_, ?_⟩ }
  · rw [Machine.record, hlog, List.cons_append]
  · intro e' he'
    rcases List.mem_cons.1 he' with rfl | he'
    · exact he
    · exact hplain e' he'

theorem write (h : Alike m n) {events : List (Event E)} (he : ∀ e ∈ events, e.isPlain = true) :
    Alike m { n with log := events ++ n.log } := by
  obtain ⟨old, hlog, hplain⟩ := h.log
  refine { h with log := ⟨events ++ old, ?_, fun e hmem => ?_⟩ }
  · show events ++ n.log = _
    rw [hlog, List.append_assoc]
  · exact (List.mem_append.1 hmem).elim (he e) (hplain e)

theorem withDispatcher (m : Machine σ E) {d : Dispatcher Task}
    (howner : d.owner = m.dispatcher.owner) (hloop : d.isLoop = m.dispatcher.isLoop) :
    Alike m { m with dispatcher := d } :=
  { Alike.refl m with owner := howner, isLoop := hloop }

theorem push (m : Machine σ E) (task : Task) :
    Alike m { m with dispatcher := m.dispatcher.push task } :=
  .withDispatcher m (Dispatcher.owner_push ..) (Dispatcher.isLoop_push ..)

theorem withReplies (h : Alike m n) (replies : List Reply) :
    Alike m { n with replies := replies } :=
  { h with }

theorem stopLoop (h : Alike m n) : Alike m n.stopLoop :=
  { h with
    owner := (Dispatcher.owner_stop _).trans h.owner
    isLoop := (Dispatcher.isLoop_stop _).trans h.isLoop }

end Alike

/-- Frames that neither take tasks nor push one may take the place of any. -/
theorem mayFollow_of_stays {f : Frame} {pushed : List Frame}
    (h : pushed.all Frame.stays = true) : ∀ g ∈ pushed, g.isPlain = true ∧ MayFollow m t f g := by
  intro g hg
  have hstays := List.all_eq_true.1 h g hg
  cases g with
  | entering | requesting | awaitingStartup | telling | startup | pumping | serving | pushing =>
    cases hstays
  | _ => exact ⟨rfl, by simp [Frame.takesTasks], by simp, by simp⟩

/-- A thread goes on with some plain frames on top of a part of its stack. -/
theorem quiet_of_withStack {f : Frame} {below : List Frame} (pushed : List Frame)
    {kept : List Frame} (hs : m.stack t = f :: below) (hf : f.isPlain = true) (ha : Alike m n)
    (hst : n.dispatcher.startups = m.dispatcher.startups)
    (hk : kept <:+ below) (hp : ∀ g ∈ pushed, g.isPlain = true ∧ MayFollow m t f g) :
    Quiet m t (n.withStack t (pushed ++ kept)) where
  alike := ⟨n, _, ha, rfl⟩
  startups := hst
  stack := ⟨f, below, pushed, kept, hs, hf, stack_withStack_self ha.threads hs _,
    hk.trans (List.suffix_cons ..), hp⟩

/-- A panic changes nothing that startup depends on, unless it ends the loop's thread. -/
theorem turn_of_panic {origin : Origin} {message : String} {calls : List Call}
    {below : List Frame} (hs : m.stack t = .script origin (.panic message :: calls) :: below) :
    Turn m t (m.panic t message (.script origin calls :: below)) := by
  -- replies that get lost concern those who wait for them, not startup
  have ha : Alike m ((m.record (.panicked t message)).lose
      (Frame.unwind (.script origin calls :: below)).lost) :=
    ((Alike.refl m).record rfl).withReplies _
  unfold panic
  dsimp only
  split
  · rename_i kept hl
    have hk : kept <:+ below := by
      have hl' : (Frame.unwind below).landing = .caught kept := by simpa [Frame.unwind] using hl
      exact Frame.suffix_of_unwind hl'
    exact .quiet (quiet_of_withStack [] hs rfl ha rfl hk (by simp))
  · rename_i hl
    exact .died hs hl (ha.stopLoop) (Dispatcher.startups_stop_le _)
  · exact .quiet (quiet_of_withStack [] hs rfl ha rfl (List.nil_suffix ..) (by simp))

/-- Taking a task: the startup task is a kind of its own, and no other matters to startup. -/
theorem turn_of_take {f g : Frame} {below : List Frame} {task : Task} {d : Dispatcher Task}
    (hs : m.stack t = f :: below) (hf : f.Takes g) (htake : m.dispatcher.take? = some (task, d)) :
    Turn m t (({ m with dispatcher := d } : Machine σ E).after t []
      ((task.frames ++ [g]) ++ below)) := by
  obtain ⟨hf', hg⟩ := hf.takesTasks
  have ha := Alike.withDispatcher m (Dispatcher.owner_take? htake) (Dispatcher.isLoop_take? htake)
  have hst := Dispatcher.startups_take? htake
  -- the frame that took the task stays below what the task has to do
  have hstays : ∀ g' ∈ [g], g'.isPlain = true ∧ MayFollow m t f g' := by
    intro g' hg'
    obtain rfl := List.mem_singleton.1 hg'
    refine ⟨Frame.isPlain_of_takesTasks hg, fun _ => .inl hf', ?_, ?_⟩
    · cases hf <;> simp
    · rintro posting origin rfl
      cases hg
  cases task with
  | startup => exact .took hs hf htake
  | job | reply =>
    exact .quiet (quiet_of_withStack _ hs (Frame.isPlain_of_takesTasks hf') ha hst.symm
      (List.suffix_refl _) (List.forall_mem_append.2 ⟨mayFollow_of_stays rfl, hstays⟩))

/-- A thread goes on in a way that startup does not depend on. -/
theorem turn_of_plain {f : Frame} {below pushed : List Frame} {events : List (Event E)}
    (hs : m.stack t = f :: below) (hf : f.isPlain = true) (ha : Alike m n)
    (he : ∀ e ∈ events, e.isPlain = true) (hst : n.dispatcher.startups = m.dispatcher.startups)
    (hp : ∀ g ∈ pushed, g.isPlain = true ∧ MayFollow m t f g) :
    Turn m t (n.after t events (pushed ++ below)) :=
  .quiet (quiet_of_withStack pushed hs hf (ha.write he) hst (List.suffix_refl _) hp)

/-- Whoever posts for a call goes on in a script, if at all. -/
theorem Posts.isPlain {f : Frame} {admitted : Bool} {posting : Posting} {origin : Origin}
    {rest : List Frame} (h : Posts m t f admitted posting origin rest) :
    f.isPlain = true ∧ ∀ g ∈ rest, g.isPlain = true ∧ MayFollow m t f g := by
  cases h with
  | job | closure | pushing => exact ⟨rfl, mayFollow_of_stays rfl⟩

theorem isPlain_refused (posting : Posting) (r : DispatchRefusal) :
    (posting.refused r.error : Answer E).isPlain = true := by
  cases posting <;> rfl

theorem turn_of_aside {f : Frame} {below pushed : List Frame} {events : List (Event E)}
    (hs : m.stack t = f :: below) (h : Aside m t f pushed events) :
    Turn m t (m.after t events (pushed ++ below)) := by
  -- Most of what a frame does alone is plain; what touches startup has a kind of its own.
  have plain (hf : f.isPlain = true) (he : ∀ e ∈ events, e.isPlain = true)
      (hp : ∀ g ∈ pushed, g.isPlain = true ∧ MayFollow m t f g) :
      Turn m t (m.after t events (pushed ++ below)) :=
    turn_of_plain hs hf (.refl m) he rfl hp
  cases h with
  | glanced he => exact .glanced hs he
  | missed he => exact .missed hs he
  | late hp => exact .late hs hp
  | poisoned hp hf => exact .poisoned hs hp hf
  | woken hsleep hr => exact .woken hs hsleep hr
  | underway hf hn => exact .background hs hf (.underway hn)
  | spared hp => exact .spared hs hp
  | skipped hp hf => exact .skipped hs hp hf
  | tell => exact .tell hs
  | told => exact .told hs
  | catching | inline =>
    exact plain rfl (by simp) (mayFollow_of_stays rfl)
  | pump _ ho =>
    exact plain rfl (by simp) (List.forall_mem_cons.2
      ⟨⟨rfl, fun _ => .inr ho, by simp, by simp⟩, mayFollow_of_stays rfl⟩)
  | pumpLoop | pumpElsewhere | note | join =>
    exact plain rfl (by simp [Event.isPlain, Answer.isPlain, Answer.error?, StartupError.isInit])
      (mayFollow_of_stays rfl)
  | ended | drained | received | dropped | returned | joinedLoop | guard =>
    exact plain rfl (by simp [Event.isPlain, Answer.isPlain, Answer.error?, StartupError.isInit,
      DispatchRefusal.error]) (mayFollow_of_stays rfl)

/-- What a frame can do is of one of the kinds. -/
theorem turn_of_acts {f : Frame} {below pushed : List Frame} {events : List (Event E)}
    (hs : m.stack t = f :: below) (h : Acts m t f pushed events n) :
    Turn m t (n.after t events (pushed ++ below)) := by
  cases h with
  | aside h => exact turn_of_aside hs h
  | @postRefused _ posting _ _ r hp hr =>
    obtain ⟨hf, hrest⟩ := hp.isPlain
    refine turn_of_plain hs hf (.refl m) ?_ rfl hrest
    simpa [Event.isPlain] using isPlain_refused posting r
  | postLooked hp hr hl =>
    obtain ⟨hf, hrest⟩ := hp.isPlain
    refine turn_of_plain hs hf (.refl m) (by simp) rfl ?_
    exact List.forall_mem_cons.2
      ⟨⟨rfl, by simp [Frame.takesTasks], by simp, fun _ _ _ => hl⟩, hrest⟩
  | jobAccepted hp ha =>
    obtain ⟨hf, hrest⟩ := hp.isPlain
    refine turn_of_plain hs hf (.push m _) ?_ (Dispatcher.startups_push ..) hrest
    simp [Event.isPlain, Answer.isPlain, Answer.error?]
  | closureAccepted hp ha =>
    obtain ⟨hf, hrest⟩ := hp.isPlain
    refine turn_of_plain hs hf ((Alike.push m _).withReplies _) (by simp)
      (Dispatcher.startups_push ..) ?_
    exact List.forall_mem_cons.2 ⟨⟨rfl, by simp [Frame.takesTasks], by simp, by simp⟩, hrest⟩
  -- What touches startup: every case is a kind of its own.
  | requestRefused hf hn hr => exact .background hs hf (.refused hn rfl hr)
  | requestLooked hf hn _ hl => exact .inspected hs hf hn hl
  | requested hf hn ha => exact .background hs hf (.posted hn ha)
  | notOwner hu => exact .refused hs hu (.inl rfl)
  | @refused _ r hu _ _ hr => exact .refused hs hu (.inr ⟨r, rfl, hr, rfl⟩)
  | looked hu _ hn _ hl => exact .looked hs hu hn hl
  | posted hu _ hn ha => exact .posted hs hu hn ha
  | joined hu _ hp => exact .joined hs hu hp
  | started hl hu hi hv => exact .started hs hl hu hi hv
  | failed hl hu hi hv => exact .failed hs hl hu hi hv
  | stuck _ hu hi => exact .stuck hu hi
  | registerLate hp => exact .registerLate hs hp
  | registerEarly hp => exact .registerEarly hs hp
  | unregister => exact .unregister hs
  | took hf htake => exact turn_of_take hs hf htake
  -- What is left changes the dispatcher, the replies or who is held, and so nothing that
  -- startup depends on.
  | @forget _ key =>
    have ha : Alike m { m with held := m.held.filter (· != key) } :=
      { Alike.refl m with held := fun _ h => (List.mem_filter.1 h).1 }
    exact turn_of_plain hs rfl ha (by simp [Event.isPlain, Answer.isPlain, Answer.error?]) rfl
      (mayFollow_of_stays rfl)
  | close =>
    have ha : Alike m { m with dispatcher := m.dispatcher.close } :=
      Alike.withDispatcher m (by cases m.dispatcher <;> rfl) (by cases m.dispatcher <;> rfl)
    exact turn_of_plain hs rfl ha (by simp [Event.isPlain, Answer.isPlain, Answer.error?])
      (by rw [Dispatcher.startups, Dispatcher.startups]; simp)
      (mayFollow_of_stays rfl)
  | shutdown =>
    have ha : Alike m { m with dispatcher := m.dispatcher.giveUpSending } :=
      Alike.withDispatcher m (by cases m.dispatcher <;> rfl) (by cases m.dispatcher <;> rfl)
    exact turn_of_plain hs rfl ha (by simp)
      (by rw [Dispatcher.startups, Dispatcher.startups]; simp)
      (mayFollow_of_stays rfl)
  | claimed | unclaimed =>
    have ha : Alike m { m with dispatcher := m.dispatcher.takeHandle.2 } :=
      Alike.withDispatcher m (by cases m.dispatcher <;> rfl) (by cases m.dispatcher <;> rfl)
    have hst : m.dispatcher.takeHandle.2.startups = m.dispatcher.startups := by
      rw [Dispatcher.startups, Dispatcher.startups, Dispatcher.tasks_takeHandle]
    exact turn_of_plain hs rfl ha (by simp [Event.isPlain, Answer.isPlain, Answer.error?]) hst
      (mayFollow_of_stays rfl)
  | sent =>
    exact turn_of_plain hs rfl ((Alike.refl m).withReplies _) (by simp) rfl (by simp)

/-- Every step of a thread is of one of the kinds. -/
theorem turn_of_step (h : m.step t = some m') : Turn m t m' := by
  cases stepped_of_step h with
  | acted hs ha => exact turn_of_acts hs ha
  | panicked hs => exact turn_of_panic hs
  | ended hs hempty =>
    have hst : m.stopLoop.dispatcher.startups = m.dispatcher.startups :=
      Dispatcher.startups_stop_of_empty hempty
    exact .quiet (quiet_of_withStack [] hs rfl (Alike.refl m).stopLoop hst
      (List.nil_suffix ..) (by simp))

end Machine

end LazyEngine
