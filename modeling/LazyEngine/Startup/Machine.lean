/-
Threads that share a coordinator and a dispatcher.

A `Machine` is one coordinator, one dispatcher and any number of threads, each with a stack of
frames. One step of one thread (`Machine.step`) is one critical section, or one look at something
shared, or something that no other thread can see; a schedule is a list of thread numbers, and every
interleaving of such steps is one of them.

* `Machine.step` — one step of a thread, `none` if the thread is idle or blocked;
* `Frame.unwind` — what a panic leaves of a stack;
* `Machine.settle` — steps until nobody can step any more, the owner last;
* `Machine.weight` — what is still to be done; every step lowers it (`weight_of_step`).

Design notes: thread 0 is the owner thread. A loop takes its tasks itself, so there is nothing to
pump. What callers get back, and what listeners and tasks do, is written into a log, newest first.
A call that waits for startup sleeps until a section wakes all sleepers; one that is awake and finds
startup undecided sleeps on.
A post to a queue is a look and, in a later step of its thread, the push. A section of the
coordinator that posts startup holds the lock from the look to the push. Here the lock is not held
meanwhile: the section is begun anew with the push, so that other sections may come in between. All
interleavings with the lock held are among those without.
A panic that nobody catches ends its thread; if that thread is the loop's, what is still queued is
dropped and replies that were to come from it never come.
-/
import LazyEngine.Startup.Call

namespace LazyEngine

/-- What a call returns. -/
inductive Answer (E : Type) where
  | engine (result : Except StartupError E)
  | begun (result : Except StartupError Unit)
  | registered (registration : Registration)
  /-- Whether the registration was still queued; `none` for a number that no registration has. -/
  | unregistered (found : Option Bool)
  | posted (result : Except StartupError Unit)
  | returned (result : Except StartupError String)
  /-- The number of tasks taken. -/
  | pumped (result : Except StartupError Nat)
  | done

/-- What a call returns whose post is refused. -/
def Posting.refused {E : Type} (error : StartupError) : Posting → Answer E
  | job _ => .posted (.error error)
  | closure _ _ => .returned (.error error)

/-- Something that somebody can notice. -/
inductive Event (E : Type) where
  /-- The initializer ran. -/
  | initialized (thread : ThreadId)
  /-- A listener was told, on a thread, in a phase. -/
  | told (ticket : Ticket) (key : Nat) (name : String) (phase : Phase)
      (thread : ThreadId)
  | answered (thread : ThreadId) (origin : Origin) (answer : Answer E)
  /-- A posted startup failed, and the fatal hook was given its error. -/
  | fatal (error : StartupError)
  | noted (note : Note) (thread : ThreadId)
  /-- A panic came to an end on this thread. -/
  | panicked (thread : ThreadId) (message : String)

/-- A value that the owner thread owes to another thread. -/
inductive Reply where
  | awaited
  | sent (value : String)
  /-- It will never come. -/
  | dropped
deriving DecidableEq, Repr

/-- A coordinator, its dispatcher, the host of the engine, and threads. -/
structure Machine (σ E : Type) where
  coordinator : Coordinator σ E Listener
  dispatcher : Dispatcher Task
  host : σ
  /-- Listeners that somebody still holds. -/
  held : List Nat := []
  /-- Stacks, innermost frame first. -/
  threads : List (List Frame)
  /-- Threads that wait for startup and have not been woken. -/
  sleepers : List ThreadId := []
  /-- Registrations so far that found the engine running. -/
  served : Nat := 0
  replies : List Reply := []
  /-- Newest first. -/
  log : List (Event E) := []

/-- Where a panic comes to an end. -/
inductive Landing where
  /-- At a guard; the frames below it go on. -/
  | caught (below : List Frame)
  /-- At the bottom of the loop's thread, which dies. -/
  | loop
  /-- At the bottom of another thread. -/
  | bottom

/-- What a panic leaves of a stack. -/
structure Unwound where
  landing : Landing
  /-- Replies that frames on the way owed. -/
  lost : List ReplyId

/-- Unwind a stack to the innermost guard. -/
def Frame.unwind : List Frame → Unwound
  | [] => ⟨.bottom, []⟩
  | .guard :: below => ⟨.caught below, []⟩
  | .serving :: _ => ⟨.loop, []⟩
  | .sending id _ :: below => let u := unwind below; { u with lost := id :: u.lost }
  | _ :: below => unwind below

namespace Machine

variable {σ E : Type}

def alive (m : Machine σ E) (l : Listener) : Bool :=
  m.held.contains l.key

/-- The stack of a thread; a thread that does not exist has nothing to do. -/
def stack (m : Machine σ E) (t : ThreadId) : List Frame :=
  m.threads[t]?.getD []

def withStack (m : Machine σ E) (t : ThreadId) (stack : List Frame) : Machine σ E :=
  { m with threads := m.threads.set t stack }

def record (m : Machine σ E) (event : Event E) : Machine σ E :=
  { m with log := event :: m.log }

/-- Return from a call. -/
def answer (m : Machine σ E) (t : ThreadId) (origin : Origin) (a : Answer E) : Machine σ E :=
  m.record (.answered t origin a)

/-- Replies that will never come. -/
def lose (m : Machine σ E) (ids : List ReplyId) : Machine σ E :=
  { m with replies := ids.foldl (fun rs id => rs.set id .dropped) m.replies }

/-- The loop's thread stops, and what is still queued is dropped. -/
def stopLoop (m : Machine σ E) : Machine σ E :=
  { m.lose (m.dispatcher.tasks.filterMap Task.reply?) with dispatcher := m.dispatcher.stop }

/-- A panic on a thread. -/
def panic (m : Machine σ E) (t : ThreadId) (message : String) (stack : List Frame) :
    Machine σ E :=
  let u := Frame.unwind stack
  let m := (m.record (.panicked t message)).lose u.lost
  match u.landing with
  | .caught below => m.withStack t below
  | .loop => m.stopLoop.withStack t []
  | .bottom => m.withStack t []

def notePerformed (m : Machine σ E) (t : ThreadId) (ran : Bool) : Machine σ E :=
  if ran then m.record (.initialized t) else m

/-- Wake all who wait for startup, if they are to be woken. -/
def wake (m : Machine σ E) (wakes : Bool) : Machine σ E :=
  if wakes then { m with sleepers := [] } else m

/-! What is written into the log changes nothing else. -/

section
variable (m : Machine σ E) (t : ThreadId) (e : Event E) (origin : Origin) (a : Answer E)

@[simp] theorem threads_record : (m.record e).threads = m.threads := rfl

@[simp] theorem dispatcher_record : (m.record e).dispatcher = m.dispatcher := rfl

@[simp] theorem coordinator_record : (m.record e).coordinator = m.coordinator := rfl

@[simp] theorem threads_answer : (m.answer t origin a).threads = m.threads := rfl

@[simp] theorem dispatcher_answer : (m.answer t origin a).dispatcher = m.dispatcher := rfl

@[simp] theorem coordinator_answer : (m.answer t origin a).coordinator = m.coordinator := rfl

end

/-- Pending registrations about to be told. -/
def queue (listeners : List (RegistrationId × Listener)) : List (Ticket × Listener) :=
  listeners.map fun l => (.pending l.1, l.2)

/-- The section of a call of thread `t` that has found no engine published. A section that only
finds the queue open for the startup task is left, and begun anew with the task admitted. -/
def enter (m : Machine σ E) (t : ThreadId) (claim : Bool) (origin : Origin) (admitted : Bool)
    (below : List Frame) : Machine σ E :=
  let e := m.coordinator.enter m.dispatcher.owner (fun _ => m.dispatcher.offer admitted .startup)
    m.alive t claim m.host { dispatcher := m.dispatcher }
  if e.dispatcher.pending then m.withStack t (.entering claim origin true :: below)
  else
    let m := { m with
      coordinator := e.coordinator, host := e.host, dispatcher := e.dispatcher.dispatcher }
    let m := (m.notePerformed t e.ran).wake e.wakes
    match e.next with
    | .answer result => (m.answer t origin (.engine result)).withStack t below
    | .tell listeners => m.withStack t (.telling (queue listeners) (.engine origin) :: below)
    | .wait =>
      { m with sleepers := t :: m.sleepers }.withStack t (.awaitingStartup origin :: below)

/-- The section of a call that asks for startup without waiting, left and begun anew in the same
way. -/
def background (m : Machine σ E) (t : ThreadId) (origin : Origin) (admitted : Bool)
    (below : List Frame) : Machine σ E :=
  let (result, coordinator, offer) := m.coordinator.background m.dispatcher.owner
    (fun _ => m.dispatcher.offer admitted .startup) { dispatcher := m.dispatcher }
  if offer.pending then m.withStack t (.requesting origin :: below)
  else
    ({ m with coordinator, dispatcher := offer.dispatcher }.answer t origin
      (.begun result)).withStack t below

/-- Go on after the dispatcher has accepted what a call has posted. -/
def afterPost (m : Machine σ E) (t : ThreadId) (origin : Origin) (below : List Frame) :
    Posting → Machine σ E
  | .job _ => (m.answer t origin (.posted (.ok ()))).withStack t below
  | .closure _ _ =>
    { m with replies := m.replies ++ [Reply.awaited] }.withStack t
      (.awaitingReply m.replies.length origin :: below)

/-- One step of a call that posts a task. -/
def post (m : Machine σ E) (t : ThreadId) (origin : Origin) (admitted : Bool)
    (below : List Frame) (posting : Posting) : Machine σ E :=
  match m.dispatcher.offer admitted (posting.task m.replies.length origin) with
  | .error e => (m.answer t origin (posting.refused e)).withStack t below
  | .ok offer =>
    if offer.pending then m.withStack t (.pushing posting origin :: below)
    else { m with dispatcher := offer.dispatcher }.afterPost t origin below posting

/-- One call of thread `t`, with `below` left to do afterwards; `none` if it has to wait. -/
def call (m : Machine σ E) (t : ThreadId) (origin : Origin) (below : List Frame) :
    Call → Option (Machine σ E)
  | .ensureStarted claim =>
    some <| match m.coordinator.engine with
      | some engine => (m.answer t origin (.engine (.ok engine))).withStack t below
      | none =>
        m.withStack t
          (.entering (claim.asserted (m.dispatcher.owner.isCurrent t)) origin false :: below)
  | .startInBackground => some <| m.background t origin false below
  | .register listener =>
    let (registration, coordinator) := m.coordinator.register listener
    let m := { m with coordinator }
    some <| match registration with
      | .notified =>
        { m with served := m.served + 1 }.withStack t
          (.telling [(.immediate m.served, listener)] (.notified origin m.served) :: below)
      | .pending id => (m.answer t origin (.registered (.pending id))).withStack t below
  | .unregister id =>
    let (found, coordinator) := m.coordinator.unregister id
    some <| ({ m with coordinator }.answer t origin (.unregistered found)).withStack t below
  | .post calls => some <| m.post t origin false below (.job calls)
  | .runOnOwner calls value =>
    some <|
      if m.dispatcher.owner.isCurrent t then
        m.withStack t (.script origin calls :: .returning value origin :: below)
      else m.post t origin false below (.closure calls value)
  | .catching calls => some <| m.withStack t (.script origin calls :: .guard :: below)
  | .pump =>
    some <|
      if m.dispatcher.isLoop then (m.answer t origin (.pumped (.ok 0))).withStack t below
      else if m.dispatcher.owner.isCurrent t then m.withStack t (.pumping 0 origin :: below)
      else
        (m.answer t origin
          (.pumped (.error (.notOwnerContext "QueueDispatcher::run_pending")))).withStack t below
  | .close =>
    some <| ({ m with dispatcher := m.dispatcher.close }.answer t origin .done).withStack t below
  | .shutdown =>
    some <| { m with dispatcher := m.dispatcher.giveUpSending }.withStack t
      (.takingHandle origin :: below)
  | .forget key =>
    some <| ({ m with held := m.held.filter (· != key) }.answer t origin .done).withStack t below
  | .note note => some <| (m.record (.noted note t)).withStack t below
  | .panic message => some <| m.panic t message below
  | .join thread =>
    if (m.stack thread).isEmpty then some <| (m.answer t origin .done).withStack t below else none

/-- Begin a task that has been taken, with `below` left to do afterwards. -/
def begin (m : Machine σ E) (t : ThreadId) (below : List Frame) : Task → Machine σ E
  | .startup => m.withStack t (.startup :: below)
  | .job calls => m.withStack t (.script .job calls :: below)
  | .reply id value origin calls =>
    m.withStack t (.script origin calls :: .sending id value :: below)

/-- Go on after all listeners have been told. -/
def goOn (m : Machine σ E) (t : ThreadId) : Sequel → Machine σ E
  | .engine origin => m.answer t origin (.engine m.coordinator.published)
  | .notified origin _ => m.answer t origin (.registered .notified)
  | .finished => m

/-- One step of thread `t`, whose innermost frame is taken off `below`; `none` if it has to
wait. -/
def frame (m : Machine σ E) (t : ThreadId) (below : List Frame) : Frame → Option (Machine σ E)
  | .script _ [] => some <| m.withStack t below
  | .script origin (c :: calls) => m.call t origin (.script origin calls :: below) c
  | .entering claim origin admitted => some <| m.enter t claim origin admitted below
  | .requesting origin => some <| m.background t origin true below
  | .pushing posting origin => some <| m.post t origin true below posting
  | .awaitingStartup origin =>
    if m.sleepers.contains t then none
    else m.coordinator.recheck.map fun result =>
      (m.answer t origin (.engine result)).withStack t below
  | .telling [] sequel => some <| (m.goOn t sequel).withStack t below
  | .telling ((ticket, l) :: listeners) sequel =>
    some <| (m.record (.told ticket l.key l.name m.coordinator.phase t)).withStack t
      (.script .callback l.script :: .telling listeners sequel :: below)
  | .pumping taken origin =>
    some <| match m.dispatcher.take? with
      | some (task, dispatcher) =>
        { m with dispatcher }.begin t (.pumping (taken + 1) origin :: below) task
      | none => (m.answer t origin (.pumped (.ok taken))).withStack t below
  | .serving =>
    match m.dispatcher.take? with
    | some (task, dispatcher) => some <| { m with dispatcher }.begin t (.serving :: below) task
    | none => if m.dispatcher.ending then some <| m.stopLoop.withStack t [] else none
  | .startup =>
    let attempt := m.coordinator.perform m.alive m.host
    let m := { m with coordinator := attempt.coordinator, host := attempt.host }
    let m := (m.notePerformed t attempt.ran).wake attempt.wakes
    some <| match attempt.result with
      | .ok listeners => m.withStack t (.telling (queue listeners) .finished :: below)
      | .error (.init reason) => (m.record (.fatal (.init reason))).withStack t below
      | .error _ => m.withStack t below
  | .awaitingReply id origin =>
    match m.replies[id]? with
    | some (.sent value) => some <| (m.answer t origin (.returned (.ok value))).withStack t below
    | some .dropped =>
      some <| (m.answer t origin (.returned (.error DispatchRefusal.taskDropped.error))).withStack
        t below
    | _ => none
  | .returning value origin =>
    some <| (m.answer t origin (.returned (.ok value))).withStack t below
  | .sending id value =>
    some <| { m with replies := m.replies.set id (.sent value) }.withStack t below
  | .takingHandle origin =>
    let (joinable, dispatcher) := m.dispatcher.takeHandle
    let m := { m with dispatcher }
    some <|
      if joinable && !m.dispatcher.owner.isCurrent t then
        m.withStack t (.joiningLoop origin :: below)
      else (m.answer t origin .done).withStack t below
  | .joiningLoop origin =>
    if m.dispatcher.stopped then some <| (m.answer t origin .done).withStack t below else none
  | .guard => some <| m.withStack t below

/-- One step of a thread that has a stack; `none` if it has nothing to do or has to wait. -/
def stepFrom (m : Machine σ E) (t : ThreadId) : List Frame → Option (Machine σ E)
  | [] => none
  | frame :: below => m.frame t below frame

/-- One step of a thread; `none` if it has nothing to do or has to wait. -/
def step (m : Machine σ E) (t : ThreadId) : Option (Machine σ E) :=
  m.stepFrom t (m.stack t)

/-- The threads with their stacks, in the order in which `settle` tries them: the owner after all
others. -/
def turns (m : Machine σ E) : List (List Frame × ThreadId) :=
  m.threads.zipIdx.drop 1 ++ m.threads.zipIdx.take 1

/-- One step of the first thread that can take one. -/
def advance (m : Machine σ E) : Option (Machine σ E) :=
  m.turns.findSome? fun turn => m.stepFrom turn.2 turn.1

/-- At most so many steps. -/
def settleWithin : Nat → Machine σ E → Machine σ E
  | 0, m => m
  | n + 1, m =>
    match m.advance with
    | none => m
    | some m' => settleWithin n m'

/-- What queued tasks and queued listeners may still do. -/
def backlog (m : Machine σ E) : Nat :=
  total Task.weight m.dispatcher.tasks + m.coordinator.registrants.weight

/-- What all threads, queued tasks and queued listeners may still do. -/
def weight (m : Machine σ E) : Nat :=
  total Frame.weights m.threads + m.backlog

/-- Step until nobody can step any more. -/
def settle (m : Machine σ E) : Machine σ E :=
  settleWithin m.weight m

/-- A schedule: the threads step in this order, those that cannot step are passed over. -/
def run (m : Machine σ E) (schedule : List ThreadId) : Machine σ E :=
  schedule.foldl (fun m t => (m.step t).getD m) m

end Machine

end LazyEngine
