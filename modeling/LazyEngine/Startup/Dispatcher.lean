/-
Handing tasks to the owner thread.

A dispatcher queues tasks for one owner thread. There are two:

* a `TaskQueue` is pumped by its owner whenever the owner likes, and can be closed;
* an `OwnerLoop` has a thread of its own that takes tasks as they come, until it is shut down or
  one of its tasks panics.

`Dispatcher.offer` and `Dispatcher.take?` say what both have in common: what was accepted is taken
in the order of acceptance (`tasks_push`, `take?_push_of_empty`).

Design notes: refusals are data (`DispatchRefusal`). A post to a queue looks first whether the queue
has been closed, and then pushes the task; these are two steps, so others can close the queue in
between, and even pump it, without keeping the task out. A loop has one lock for both. `offer` is
one step of a post, `Offered` lists the ways in which it can go.

The loop keeps apart whether it still has its sending end, whether its thread lives and whether its
thread may still be joined, because the three end at different moments: `shutdown` gives up the
sending end first, the thread ends when nothing is queued any more, and only one shutdown can take
the handle.
-/
import LazyEngine.Startup.Error
import LazyEngine.Startup.Owner

namespace LazyEngine

/-- Tasks that run only when the owner thread pumps them. -/
structure TaskQueue (T : Type) where
  tasks : List T := []
  closed : Bool := false

/-- Tasks for a thread that does nothing else. -/
structure OwnerLoop (T : Type) where
  tasks : List T := []
  /-- The sending end is still there: nobody has begun to shut the loop down. -/
  sending : Bool := true
  /-- The thread has neither ended nor died. -/
  running : Bool := true
  /-- The thread's handle is still there to be joined. -/
  joinable : Bool := true

/-- A way to run tasks on the owner thread. -/
inductive Dispatcher (T : Type) where
  | queue (owner : Owner) (q : TaskQueue T)
  | loop (owner : Owner) (l : OwnerLoop T)

namespace Dispatcher

variable {T : Type}

/-- The thread that runs the tasks. -/
def owner : Dispatcher T → Owner
  | queue owner _ => owner
  | loop owner _ => owner

/-- Accepted tasks that nobody has taken yet, oldest first. -/
def tasks : Dispatcher T → List T
  | queue _ q => q.tasks
  | loop _ l => l.tasks

/-- Why a post would be refused now. -/
def refusal? : Dispatcher T → Option DispatchRefusal
  | queue _ q => if q.closed then some .queueClosed else none
  | loop _ l =>
    if !l.sending then some .loopShutDown
    else if !l.running then some .loopExited
    else none

/-- Replace the tasks. -/
def withTasks (d : Dispatcher T) (tasks : List T) : Dispatcher T :=
  match d with
  | queue o q => queue o { q with tasks }
  | loop o l => loop o { l with tasks }

/-- Queue a task behind the others. -/
def push (d : Dispatcher T) (task : T) : Dispatcher T :=
  d.withTasks (d.tasks ++ [task])

/-- The oldest task and the dispatcher without it. -/
def take? (d : Dispatcher T) : Option (T × Dispatcher T) :=
  match d.tasks with
  | [] => none
  | task :: rest => some (task, d.withTasks rest)

/-- Refuse all further posts; what has been accepted stays queued. A loop is not closed but shut
down. -/
def close : Dispatcher T → Dispatcher T
  | queue o q => queue o { q with closed := true }
  | loop o l => loop o l

/-- First half of a shutdown: give up the sending end. -/
def giveUpSending : Dispatcher T → Dispatcher T
  | queue o q => queue o q
  | loop o l => loop o { l with sending := false }

/-- Second half of a shutdown: take the handle of the loop's thread; whether it was still there. -/
def takeHandle : Dispatcher T → Bool × Dispatcher T
  | queue o q => (false, queue o q)
  | loop o l => (l.joinable, loop o { l with joinable := false })

/-- The loop's thread stops, and what is still queued is dropped. -/
def stop : Dispatcher T → Dispatcher T
  | queue o q => queue o q
  | loop o l => loop o { l with running := false, tasks := [] }

/-- Whether the loop's thread has stopped. -/
def stopped : Dispatcher T → Bool
  | queue _ _ => false
  | loop _ l => !l.running

/-- Whether the loop's thread ends once its queue is empty. -/
def ending : Dispatcher T → Bool
  | queue _ _ => false
  | loop _ l => !l.sending

def isLoop : Dispatcher T → Bool
  | queue _ _ => false
  | loop _ _ => true

/-- What a step of a post leaves, if it is not refused. -/
structure Offer (T : Type) where
  dispatcher : Dispatcher T
  /-- The queue has been found open, and the task has still to be pushed. -/
  pending : Bool := false

/-- One step of a post. A task that has been `admitted` by an earlier step is pushed, whatever has
happened since. -/
def offer (d : Dispatcher T) (admitted : Bool) (task : T) : Except StartupError (Offer T) :=
  if admitted then .ok { dispatcher := d.push task }
  else match d.refusal? with
    | some r => .error r.error
    | none =>
      if d.isLoop then .ok { dispatcher := d.push task }
      else .ok { dispatcher := d, pending := true }

/-- Whether a step of a post pushes the task. -/
def Accepts (d : Dispatcher T) (admitted : Bool) : Prop :=
  admitted = true ∨ d.isLoop = true ∧ d.refusal? = none

/-- The ways in which a step of a post can go. -/
inductive Offered (d : Dispatcher T) (admitted : Bool) (task : T) :
    Except StartupError (Offer T) → Prop where
  | refused {r : DispatchRefusal} : admitted = false → d.refusal? = some r →
      Offered d admitted task (.error r.error)
  /-- The queue is open. -/
  | looked : admitted = false → d.refusal? = none → d.isLoop = false →
      Offered d admitted task (.ok { dispatcher := d, pending := true })
  | accepted : d.Accepts admitted → Offered d admitted task (.ok { dispatcher := d.push task })

theorem offer_offered (d : Dispatcher T) (admitted : Bool) (task : T) :
    Offered d admitted task (d.offer admitted task) := by
  unfold offer
  cases admitted with
  | true => exact .accepted (.inl rfl)
  | false =>
    cases hr : d.refusal? with
    | some r => exact .refused rfl hr
    | none =>
      cases hl : d.isLoop with
      | true => exact .accepted (.inr ⟨hl, hr⟩)
      | false => exact .looked rfl hr hl

@[simp] theorem owner_withTasks (d : Dispatcher T) (ts : List T) :
    (d.withTasks ts).owner = d.owner := by
  cases d <;> rfl

@[simp] theorem tasks_withTasks (d : Dispatcher T) (ts : List T) :
    (d.withTasks ts).tasks = ts := by
  cases d <;> rfl

@[simp] theorem tasks_close (d : Dispatcher T) : d.close.tasks = d.tasks := by
  cases d <;> rfl

@[simp] theorem tasks_giveUpSending (d : Dispatcher T) : d.giveUpSending.tasks = d.tasks := by
  cases d <;> rfl

@[simp] theorem tasks_takeHandle (d : Dispatcher T) : d.takeHandle.2.tasks = d.tasks := by
  cases d <;> rfl

@[simp] theorem tasks_push (d : Dispatcher T) (task : T) :
    (d.push task).tasks = d.tasks ++ [task] :=
  tasks_withTasks ..

@[simp] theorem owner_push (d : Dispatcher T) (task : T) : (d.push task).owner = d.owner :=
  owner_withTasks ..

@[simp] theorem isLoop_push (d : Dispatcher T) (task : T) : (d.push task).isLoop = d.isLoop := by
  cases d <;> rfl

theorem take?_tasks {d d' : Dispatcher T} {task : T} (h : d.take? = some (task, d')) :
    d.tasks = task :: d'.tasks := by
  unfold take? at h
  split at h
  · cases h
  · rename_i t rest heq
    cases h
    simp [heq]

theorem take?_of_empty {d : Dispatcher T} (he : d.tasks = []) : d.take? = none := by
  rw [take?, he]

/-- Taking the only task undoes pushing it. -/
theorem take?_push_of_empty {d : Dispatcher T} (task : T) (he : d.tasks = []) :
    (d.push task).take? = some (task, d) := by
  rw [push, he, List.nil_append]
  cases d with
  | queue owner q =>
    obtain ⟨tasks, closed⟩ := q
    obtain rfl : tasks = [] := he
    rfl
  | loop owner l =>
    obtain ⟨tasks, sending, running, joinable⟩ := l
    obtain rfl : tasks = [] := he
    rfl

end Dispatcher

end LazyEngine
