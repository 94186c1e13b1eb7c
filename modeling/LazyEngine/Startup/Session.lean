/-
Sessions: one thing at a time, from the owner thread or from another one.

A session drives a machine step by step, and after each step waits until everything has come to
rest. Over a queue the session itself lives on the owner thread, so it has to pump whenever another
thread's call waits for the owner; over a loop it lives on a thread of its own and reaches the
owner by handing it closures.

* `Session.visit` — go to a place, make a call there and say what came of it;
* `Session.act` — one action: a call, or looking after listeners and waiting threads.

Design notes: listeners are known by name. A name keeps its listener until it is dropped, whatever
behaviour is asked for later. What a step made happen is the part of the log that it added.
-/
import LazyEngine.Startup.Machine

namespace LazyEngine

/-- Which thread a call is made on. -/
inductive Place where
  | owner
  | other
deriving DecidableEq, Repr

/-- What a listener does when it is told. -/
inductive Behaviour where
  | plain
  | ensure
  | background
  | unregister (id : RegistrationId)
  /-- It registers a new plain listener that nobody keeps. -/
  | register
  | panic
deriving DecidableEq, Repr

/-- A named task: it leaves a note, panics if it is to, and else posts further tasks. -/
inductive Job where
  | mk (name : String) (panics : Option String) (andThen : List Job)
deriving Inhabited

mutual

/-- The calls that make up a job. -/
def Job.calls : Job → List Call
  | .mk name panics andThen =>
    .note (.task name) :: ((panics.map Call.panic).toList ++ Job.posts andThen)

def Job.posts : List Job → List Call
  | [] => []
  | job :: jobs => .post job.calls :: Job.posts jobs

end

/-- A listener of a given behaviour; `key + 1` is free for the one it may register. -/
def Behaviour.listener (b : Behaviour) (key : Nat) (name : String) : Listener :=
  .mk key name <| match b with
    | plain => []
    | ensure => [.ensureStarted .truthful]
    | background => [.startInBackground]
    | unregister id => [.unregister id]
    | register => [.register (.mk (key + 1) (name ++ "'") [])]
    | panic => [.panic ("listener " ++ name ++ " panicked")]

/-- What came of a call made at a place. -/
inductive Outcome (E : Type) where
  /-- It returned this. -/
  | answered (answer : Answer E)
  | panicked (message : String)
  /-- The owner thread could not be reached. -/
  | refused (error : StartupError)
  /-- There was nothing to return, or the call never returned. -/
  | silent

/-- Something a session can be told to do. -/
inductive Action where
  | look
  | ensure (place : Place) (claims : Bool)
  | background (place : Place)
  | register (place : Place) (name : String) (behaviour : Behaviour)
  | unregister (place : Place) (id : RegistrationId)
  /-- Drop the reference to a listener. -/
  | drop (name : String)
  /-- Have a new thread wait for the engine. -/
  | spawn
  /-- Collect the answers of the threads that wait. -/
  | join
  | pump (place : Place)
  | close
  | shutdown (place : Place)
  | post (place : Place) (job : Job)
  | runOnOwner (place : Place) (value : String) (panics : Option String)

/-- What a session answers to an action. -/
inductive Response (E : Type) where
  | nothing
  | outcome (outcome : Outcome E)
  /-- The number of threads that have not been joined yet. -/
  | waiting (threads : Nat)
  /-- The answers of the joined threads; `none` for one that waits for ever. -/
  | joined (results : List (Option (Except StartupError E)))
  /-- Joining would have to wait for somebody to pump. -/
  | blocked

/-- A machine with the listeners and threads that a session keeps track of. -/
structure Session (σ E : Type) where
  machine : Machine σ E
  listeners : List (String × Listener) := []
  nextKey : Nat := 0
  waiters : List ThreadId := []

namespace Session

variable {σ E : Type}

/-- A session on the owner thread of a queue. -/
def overQueue (name : Option String) (initializer : Initializer σ E) (host : σ) : Session σ E where
  machine := {
    coordinator := .create initializer
    dispatcher := .queue ⟨0, name⟩ {}
    host
    threads := [[]] }

/-- A session beside an owner loop. -/
def overLoop (name : String) (initializer : Initializer σ E) (host : σ) : Session σ E where
  machine := {
    coordinator := .create initializer
    dispatcher := .loop ⟨0, some name⟩ {}
    host
    threads := [[.serving], []] }

/-- Whether a call that needs the engine would have to wait for the owner thread. -/
def undecided (s : Session σ E) : Bool :=
  !s.machine.coordinator.hasStarted && s.machine.coordinator.failure.isNone

/-- The number of the thread on which calls are made at a place. -/
def threadAt (s : Session σ E) : Place → ThreadId
  | .owner => 0
  | .other => if s.machine.dispatcher.isLoop then 1 else s.machine.threads.length

/-- Where the session itself lives. -/
def home (s : Session σ E) : Place :=
  if s.machine.dispatcher.isLoop then .other else .owner

/-- Pump until the queue is empty; a panic of a task ends one round only. -/
def pumpAll : Nat → Machine σ E → Machine σ E
  | 0, m => m
  | n + 1, m =>
    if m.dispatcher.tasks.isEmpty then m
    else pumpAll n (m.withStack 0 [.script .job [.catching [.pump]]]).settle

/-- Give a thread something to do, and wait until all is at rest. -/
def drive (m : Machine σ E) (t : ThreadId) (calls : List Call) : Machine σ E :=
  (m.withStack t [.script .caller calls]).settle

/-- Events newer than a machine's log, newest first. -/
def since (before after : Machine σ E) : List (Event E) :=
  after.log.take (after.log.length - before.log.length)

/-- What a thread's own call came to, given the events since it was made, newest first. What the
thread does after its answer or panic belongs to tasks that it took later. -/
def outcomeOn (t : ThreadId) (events : List (Event E)) : Outcome E :=
  (events.reverse.findSome? fun
    | .answered u .caller a => if u = t then some (Outcome.answered a) else none
    | .panicked u message => if u = t then some (.panicked message) else none
    | _ => none).getD .silent

/-- Go to a place and make a call there, if there is one to be made. `waits` says that the call may
have to wait for the owner thread. -/
def visit (s : Session σ E) (place : Place) (waits : Bool) (call : Option Call) :
    Outcome E × Session σ E :=
  let before := s.machine
  match before.dispatcher.isLoop, place with
  | false, .owner =>
    let m := drive before 0 call.toList
    (outcomeOn 0 (since before m), { s with machine := m })
  | false, .other =>
    let t := before.threads.length
    let m := drive { before with threads := before.threads ++ [[]] } t call.toList
    let m := if waits then pumpAll m.weight m else m
    (outcomeOn t (since before m), { s with machine := m })
  | true, .other =>
    let m := drive before 1 call.toList
    (outcomeOn 1 (since before m), { s with machine := m })
  | true, .owner =>
    let m := drive before 1 [.runOnOwner [.catching call.toList] ""]
    let events := since before m
    let outcome := match outcomeOn 1 events with
      | .answered (.returned (.error e)) => .refused e
      | _ => outcomeOn 0 events
    (outcome, { s with machine := m })

/-- Make a call at a place. -/
def ask (s : Session σ E) (place : Place) (waits : Bool) (call : Call) :
    Response E × Session σ E :=
  let (outcome, s) := s.visit place waits (some call)
  (.outcome outcome, s)

/-- A new listener, which is held from now on. -/
def newListener (s : Session σ E) (name : String) (behaviour : Behaviour) :
    Listener × Session σ E :=
  (behaviour.listener s.nextKey name, { s with
    nextKey := s.nextKey + 2
    machine := { s.machine with held := s.nextKey :: s.machine.held } })

/-- Drop the reference to the listener of a name, if there is one. -/
def drop (s : Session σ E) (name : String) : Session σ E :=
  match s.listeners.lookup name with
  | none => s
  | some l =>
    { s with
      listeners := s.listeners.filter (·.1 != name)
      machine := { s.machine with held := s.machine.held.filter (· != l.key) } }

/-- Know a listener by a name, in place of the one of that name. -/
def keep (s : Session σ E) (name : String) (l : Listener) : Session σ E :=
  let s := s.drop name
  { s with listeners := s.listeners ++ [(name, l)] }

/-- The listener of a name, made if there is none. -/
def listener (s : Session σ E) (name : String) (behaviour : Behaviour) :
    Listener × Session σ E :=
  match s.listeners.lookup name with
  | some l => (l, s)
  | none =>
    let (l, s) := s.newListener name behaviour
    (l, s.keep name l)

/-- Have a new thread wait for the engine. -/
def spawn (s : Session σ E) : Session σ E :=
  let t := s.machine.threads.length
  let m := { s.machine with threads := s.machine.threads ++ [[]] }
  { s with machine := drive m t [.ensureStarted .none], waiters := s.waiters ++ [t] }

/-- What a thread that waits for the engine has been answered. -/
def answerTo (s : Session σ E) (t : ThreadId) : Option (Except StartupError E) :=
  match outcomeOn t s.machine.log with
  | .answered (.engine result) => some result
  | _ => none

/-- Whether startup is under way and still undecided. -/
def underWay (s : Session σ E) : Bool :=
  s.machine.coordinator.phase == .starting && s.machine.coordinator.failure.isNone

/-- Collect the answers of all waiting threads, unless that would mean to wait for a pump. -/
def join (s : Session σ E) : Response E × Session σ E :=
  if !s.machine.dispatcher.isLoop && s.underWay then (.blocked, s)
  else (.joined (s.waiters.map s.answerTo), { s with waiters := [] })

/-- Do one thing. -/
def act (s : Session σ E) : Action → Response E × Session σ E
  | .look => (.nothing, s)
  | .ensure place claims =>
    s.ask place (!claims && s.undecided) (.ensureStarted (if claims then .owner else .none))
  | .background place => s.ask place false .startInBackground
  | .register place name behaviour =>
    let (l, s) := s.listener name behaviour
    s.ask place false (.register l)
  | .unregister place id => s.ask place false (.unregister id)
  | .drop name => (.nothing, s.drop name)
  | .spawn =>
    let s := s.spawn
    (.waiting s.waiters.length, s)
  | .join => s.join
  | .pump place => s.ask place false .pump
  | .close =>
    (.nothing, { s with machine.dispatcher := s.machine.dispatcher.close })
  | .shutdown place => s.ask place false .shutdown
  | .post place job => s.ask place false (.post job.calls)
  | .runOnOwner place value panics =>
    s.ask place true
      (.runOnOwner (.note (.ran value) :: (panics.map Call.panic).toList) value)

/-- Listeners that are queued and still held. -/
def registered (s : Session σ E) : Nat :=
  s.machine.coordinator.registrants.liveCount s.machine.alive

/-- Whether a posted startup has failed. Unless something else is asked for, that ends the
process. -/
def hasFatal (s : Session σ E) : Bool :=
  s.machine.log.any fun
    | .fatal _ => true
    | _ => false

/-- Tasks queued for the owner thread to pump; a loop takes them by itself. -/
def queued (s : Session σ E) : Option Nat :=
  if s.machine.dispatcher.isLoop then none else some s.machine.dispatcher.tasks.length

end Session

end LazyEngine
