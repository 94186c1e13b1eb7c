/-
What threads do.

A thread runs a script, a list of calls, and a call may carry scripts in turn: for a posted task,
for a closure handed to the owner thread, for a listener's callback. So a whole scenario is a
finite tree of calls.

* `Call` and `Listener` — the tree;
* `Task` — what the dispatcher queues;
* `Frame` — what a thread has still to do, innermost first.

Every one of these has a `weight`, an upper bound for the steps still to be taken on its account;
the machine's steps lower the total (`Startup/Machine`), so no scenario runs for ever.

Design notes: a call is answered to an `Origin`, which tells the caller's own calls from those that
callbacks and tasks make on the way. The script of a listener belongs to the listener, so the same
listener does the same thing whenever it is told. What a listener is told for is a `Ticket`, and
every registration has one of its own.
-/
import LazyEngine.Startup.Coordinator
import LazyEngine.Startup.Dispatcher

namespace LazyEngine

/-- What a call asserts about the thread it is made on. -/
inductive Claim where
  | none
  /-- That it is the owner thread. -/
  | owner
  /-- That it is the owner thread, exactly when that is so. -/
  | truthful
deriving DecidableEq, Repr

/-- Whether the thread is said to be the owner thread, given whether it is. -/
def Claim.asserted (c : Claim) (isOwner : Bool) : Bool :=
  match c with
  | none => false
  | owner => true
  | truthful => isOwner

/-- On whose behalf a call is made. -/
inductive Origin where
  | caller
  /-- A listener that has been told. -/
  | callback
  /-- A posted task. -/
  | job
deriving DecidableEq, Repr

/-- What a script can write into the log. -/
inductive Note where
  | task (name : String)
  | ran (value : String)
deriving DecidableEq, Repr

mutual

/-- One call that a thread makes. -/
inductive Call where
  /-- Start the engine if need be and wait for it. -/
  | ensureStarted (claim : Claim)
  /-- Have the owner thread start the engine, without waiting. -/
  | startInBackground
  /-- Ask to be told when the engine has started. -/
  | register (listener : Listener)
  | unregister (id : RegistrationId)
  /-- Post a task. -/
  | post (calls : List Call)
  /-- Have the owner thread run a closure that returns a value, and wait for the value. -/
  | runOnOwner (calls : List Call) (value : String)
  /-- Run calls; a panic in them goes no further. -/
  | catching (calls : List Call)
  /-- Run what is queued, on the owner thread. -/
  | pump
  /-- Close the queue. -/
  | close
  /-- Shut the owner loop down. -/
  | shutdown
  /-- Drop the last strong reference to a listener. -/
  | forget (key : Nat)
  /-- Leave a note in the log. -/
  | note (note : Note)
  | panic (message : String)
  /-- Wait until a thread has nothing left to do. -/
  | join (thread : ThreadId)

/-- Someone to be told that the engine has started. `key` is its identity. -/
inductive Listener where
  | mk (key : Nat) (name : String) (script : List Call)

end

namespace Listener

def key : Listener → Nat
  | mk key _ _ => key

def name : Listener → String
  | mk _ name _ => name

/-- What it does when told. -/
def script : Listener → List Call
  | mk _ _ script => script

end Listener

/-- Number of a reply that a thread waits for. -/
abbrev ReplyId := Nat

/-- Work for the owner thread. -/
inductive Task where
  /-- Start the engine. -/
  | startup
  | job (calls : List Call)
  /-- A closure whose value is wanted elsewhere. -/
  | reply (id : ReplyId) (value : String) (origin : Origin) (calls : List Call)

/-- The reply that is lost when the task is dropped. -/
def Task.reply? : Task → Option ReplyId
  | startup => none
  | job _ => none
  | reply id _ _ _ => some id

/-- What a call posts. -/
inductive Posting where
  | job (calls : List Call)
  | closure (calls : List Call) (value : String)

/-- The task that is posted for a call made on somebody's behalf, if the next reply has this
number. -/
def Posting.task (next : ReplyId) (origin : Origin) : Posting → Task
  | job calls => .job calls
  | closure calls value => .reply next value origin calls

/-- The registration for which a listener is told. -/
inductive Ticket where
  | pending (id : RegistrationId)
  /-- One that found the engine running; these have numbers of their own. -/
  | immediate (number : Nat)
deriving DecidableEq, Repr

/-- How a thread goes on when all listeners have been told. -/
inductive Sequel where
  /-- The call returns the engine. -/
  | engine (origin : Origin)
  /-- The call returns that its listener has been told, for the ticket of this number. -/
  | notified (origin : Origin) (number : Nat)
  /-- The startup task is finished. -/
  | finished
deriving DecidableEq, Repr

/-- One thing that a thread has still to do. -/
inductive Frame where
  /-- Make these calls. -/
  | script (origin : Origin) (calls : List Call)
  /-- Enter the coordinator, having found no engine published. If startup is `admitted`, the queue
  has been found open for the task, which has still to be pushed. -/
  | entering (claim : Bool) (origin : Origin) (admitted : Bool)
  /-- Ask for startup without waiting, having found the queue open for the task. -/
  | requesting (origin : Origin)
  /-- Push a task onto the queue, having found it open. -/
  | pushing (posting : Posting) (origin : Origin)
  /-- Wait until the engine has started or startup has failed. -/
  | awaitingStartup (origin : Origin)
  /-- Tell listeners, each for its ticket. -/
  | telling (listeners : List (Ticket × Listener)) (sequel : Sequel)
  /-- Take tasks until none is queued, having taken some. -/
  | pumping (taken : Nat) (origin : Origin)
  /-- Take tasks for ever: the bottom of a loop's thread. -/
  | serving
  /-- Perform a startup that had been posted. -/
  | startup
  /-- Wait for a reply. -/
  | awaitingReply (id : ReplyId) (origin : Origin)
  /-- Hand the value of an inline closure to its caller. -/
  | returning (value : String) (origin : Origin)
  /-- Send the value of a posted closure. -/
  | sending (id : ReplyId) (value : String)
  /-- Second half of a shutdown: take the handle of the loop's thread. -/
  | takingHandle (origin : Origin)
  /-- Wait until the loop's thread has stopped. -/
  | joiningLoop (origin : Origin)
  /-- Where a panic ends. -/
  | guard

/-! ### Weights -/

/-- The sum of a measure over a list. -/
def total {A : Type} (f : A → Nat) : List A → Nat
  | [] => 0
  | a :: as => f a + total f as

mutual

def Call.weight : Call → Nat
  | .ensureStarted _ => 7
  | .startInBackground => 5
  | .register listener => 2 + listener.weight
  | .unregister _ => 1
  | .post calls => 4 + Call.weights calls
  | .runOnOwner calls _ => 6 + Call.weights calls
  | .catching calls => 3 + Call.weights calls
  | .pump => 2
  | .close => 1
  | .shutdown => 3
  | .forget _ => 1
  | .note _ => 1
  | .panic _ => 1
  | .join _ => 1

def Call.weights : List Call → Nat
  | [] => 0
  | call :: calls => call.weight + Call.weights calls

def Listener.weight : Listener → Nat
  | .mk _ _ script => 2 + Call.weights script

end

def Task.weight : Task → Nat
  | startup => 3
  | job calls => 2 + Call.weights calls
  | reply _ _ _ calls => 3 + Call.weights calls

def Posting.weight : Posting → Nat
  | job calls => 3 + Call.weights calls
  | closure calls _ => 5 + Call.weights calls

def Frame.weight : Frame → Nat
  | script _ calls => 1 + Call.weights calls
  | entering _ _ admitted => if admitted then 5 else 6
  | requesting _ => 4
  | pushing posting _ => posting.weight
  | awaitingStartup _ => 1
  | telling listeners _ => 1 + total (fun l => l.2.weight) listeners
  | pumping _ _ => 1
  | serving => 1
  | startup => 2
  | awaitingReply _ _ => 1
  | returning _ _ => 1
  | sending _ _ => 1
  | takingHandle _ => 2
  | joiningLoop _ => 1
  | guard => 1

/-- The weight of listeners that wait to be told. -/
def Registry.weight (r : Registry Listener) : Nat :=
  total (fun e => e.2.weight) r.entries

/-- The weight of a stack. -/
def Frame.weights (stack : List Frame) : Nat :=
  total weight stack

end LazyEngine
