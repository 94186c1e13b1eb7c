/-
What a shutdown waits for.

A shutdown gives up the sending end of the loop, takes the handle of its thread and waits for that
thread. There is one handle, so of several shutdowns only one can wait:

* `Machine.leavesShutdown` — a thread is about to return from a shutdown;
* `Machine.claimsHandle` — a thread is about to take the handle, and finds it;
* `shutdown_waits_with_handle` — a shutdown off the owner thread that finds the handle waits until
  the loop has executed all it accepted; one that returns sooner has found the handle taken;
* `shutdown_returns_early` — the other calls do not wait.

Design notes: the handle is lost to other threads also when a task shuts the loop down, though the
task cannot wait for its own thread.
-/
import LazyEngine.Proofs.Startup.Loops

namespace LazyEngine

namespace Machine

variable {σ E : Type} {m m' : Machine σ E} {t u : ThreadId}

/-- Whether the handle of the loop's thread is still there. -/
def hasHandle (m : Machine σ E) : Bool :=
  m.dispatcher.takeHandle.1

/-- Whether the next step of a thread takes the handle of the loop's thread. -/
def claimsHandle (m : Machine σ E) (u : ThreadId) : Bool :=
  match m.stack u with
  | .takingHandle _ :: _ => m.hasHandle
  | _ => false

/-- Whether the next step of a thread is the return of a shutdown that it has called. -/
def leavesShutdown (m : Machine σ E) (t : ThreadId) : Bool :=
  match m.stack t with
  | .takingHandle _ :: _ => !(m.hasHandle && !m.dispatcher.owner.isCurrent t)
  | .joiningLoop _ :: _ => m.dispatcher.stopped
  | _ => false

theorem tasksReturn_append (m : Machine σ E) (s₁ s₂ : List ThreadId) :
    m.tasksReturn (s₁ ++ s₂) = (m.tasksReturn s₁ && (m.run s₁).tasksReturn s₂) := by
  induction s₁ generalizing m with
  | nil => rfl
  | cons t rest ih =>
    rw [List.cons_append, tasksReturn, tasksReturn, ih, Bool.and_assoc]
    rfl

/-- The handle stays where it is unless a shutdown takes it. -/
theorem hasHandle_of_step (hs : m.step t = some m') :
    m'.hasHandle = m.hasHandle ∨ ∃ origin below, m.stack t = .takingHandle origin :: below := by
  have same (hd : m'.dispatcher.takeHandle.1 = m.dispatcher.takeHandle.1) :
      m'.hasHandle = m.hasHandle := hd
  cases handled_of_step hs with
  | untouched _ hd | refused _ _ hd => exact .inl (same (by rw [hd]))
  | accepted _ _ hd =>
    refine .inl (same ?_)
    rw [hd]
    cases m.dispatcher <;> rfl
  | taken _ _ _ htake =>
    refine .inl (same ?_)
    rw [Dispatcher.take?_eq htake]
    cases m.dispatcher <;> rfl
  | closed _ _ hd | shutting _ _ hd | stopped _ hd =>
    refine .inl (same ?_)
    rw [hd]
    cases m.dispatcher <;> rfl
  | claimed _ hstack => exact .inr ⟨_, _, hstack⟩

theorem hasHandle_machine (s : Setup σ E) (hloops : s.loops = true) :
    s.machine.hasHandle = true := by
  show s.dispatcher.takeHandle.1 = true
  rw [Setup.dispatcher, if_pos hloops]
  rfl

/-- A handle that is gone has been taken by a shutdown. -/
theorem claimed_of_run (s : Setup σ E) (hloops : s.loops = true) (schedule : List ThreadId)
    (h : (s.machine.run schedule).hasHandle = false) :
    ∃ before u after, schedule = before ++ u :: after ∧
      (s.machine.run before).claimsHandle u = true := by
  have hstart : ¬ s.machine.hasHandle = false := by
    rw [hasHandle_machine s hloops]
    exact Bool.noConfusion
  obtain ⟨before, u, after, m', hcut, hthere, hstep, hgone⟩ :=
    run_crossing (P := fun m => m.hasHandle = false) hstart h
  refine ⟨before, u, after, hcut, ?_⟩
  rw [Bool.not_eq_false] at hthere
  rcases hasHandle_of_step hstep with heq | ⟨origin, below, hs⟩
  · rw [heq, hthere] at hgone
    cases hgone
  · rw [claimsHandle, hs]
    exact hthere

/-- A shutdown off the owner thread that finds the handle goes on to wait. -/
theorem joins_of_claimsHandle (h : m.claimsHandle t = true)
    (howner : m.dispatcher.owner.isCurrent t = false) :
    ∃ origin below, ((m.step t).getD m).stack t = .joiningLoop origin :: below := by
  unfold claimsHandle at h
  split at h
  · rename_i origin below hs
    refine ⟨origin, below, ?_⟩
    rw [step_of_acts hs (.claimed h howner), Option.getD_some]
    exact stack_withStack_self rfl hs _
  · cases h

/-- **A shutdown that has the handle waits.** On every run over a loop on which no task panics:

* a shutdown off the owner thread that takes the handle of the loop's thread waits for it;
* a shutdown off the owner thread returns when everything that the loop has accepted has been
  executed to the end and nothing is queued, or else because another shutdown had taken the handle
  before. -/
theorem shutdown_waits_with_handle (s : Setup σ E) (hloops : s.loops = true)
    (schedule : List ThreadId) (hreturn : s.machine.tasksReturn schedule = true) :
    let m := s.machine
    (∀ before t after, schedule = before ++ t :: after → t ≠ s.owner.thread →
      (m.run before).claimsHandle t = true →
      ∃ origin below, (m.run (before ++ [t])).stack t = .joiningLoop origin :: below) ∧
    (∀ before t after, schedule = before ++ t :: after → t ≠ s.owner.thread →
      (m.run before).leavesShutdown t = true →
      (m.executed before = s.queued.map .job ++ m.accepted before ∧
        (m.run before).dispatcher.tasks = [] ∧ (m.run before).stack s.owner.thread = []) ∨
      ((∃ origin below, (m.run before).stack t = .takingHandle origin :: below) ∧
        ∃ b u c, before = b ++ u :: c ∧ (m.run b).claimsHandle u = true)) := by
  intro m
  have hother {before : List ThreadId} {t : ThreadId} (ht : t ≠ s.owner.thread) :
      (m.run before).dispatcher.owner.isCurrent t = false := by
    rw [(sound_run s before).owner_eq, Bool.eq_false_iff]
    exact fun h => ht (Owner.isCurrent_iff.1 h)
  constructor
  · rintro before t after - ht hclaims
    rw [run_concat]
    exact joins_of_claimsHandle hclaims (hother ht)
  · rintro before t after rfl ht hleaves
    rw [tasksReturn_append, Bool.and_eq_true] at hreturn
    -- A shutdown is left where it has not found the handle, or where the loop's thread has ended.
    unfold leavesShutdown at hleaves
    split at hleaves
    · -- it has not found the handle
      rename_i origin below hs
      rw [hother ht, Bool.not_false, Bool.and_true, Bool.not_eq_true'] at hleaves
      exact .inr ⟨⟨origin, below, hs⟩, claimed_of_run s hloops before hleaves⟩
    · left
      obtain ⟨hexecuted, hstack⟩ := all_executed s hloops before hreturn.1 hleaves
      exact ⟨hexecuted, ((ledger_run s before).halted hleaves).1, hstack⟩
    · cases hleaves

/-- A thread shuts the loop down while a task is queued, waits, and returns when the task has been
executed; a second shutdown finds the handle taken. -/
theorem shutdown_waits_with_handle_of_two :
    let s : Setup Unit Nat :=
      { initializer := fun host => (.engine 7, host)
        host := ()
        owner := ⟨0, none⟩
        loops := true
        queued := [[.note (.task "queued")]]
        scripts := [[], [.shutdown], [.shutdown]] }
    let schedule := [1, 1, 0, 0, 0, 0, 1, 2, 2]
    s.machine.tasksReturn schedule = true ∧
    (s.machine.run [1, 1, 0, 0, 0, 0]).leavesShutdown 1 = true ∧
    s.machine.executed [1, 1, 0, 0, 0, 0] = [.job [.note (.task "queued")]] ∧
    ∃ b u c, [1, 1, 0, 0, 0, 0, 1, 2] = b ++ u :: c ∧ (s.machine.run b).claimsHandle u = true := by
  intro s schedule
  have hreturn : s.machine.tasksReturn schedule = true := by decide +kernel
  have hfirst : (s.machine.run [1, 1, 0, 0, 0, 0]).leavesShutdown 1 = true := by decide +kernel
  have hsecond : (s.machine.run [1, 1, 0, 0, 0, 0, 1, 2]).leavesShutdown 2 = true := by
    decide +kernel
  have h := (shutdown_waits_with_handle s rfl schedule hreturn).2
  refine ⟨hreturn, hfirst, ?_, ?_⟩
  · rcases h [1, 1, 0, 0, 0, 0] 1 [2, 2] rfl (by decide) hfirst with
      ⟨hall, -, -⟩ | ⟨⟨origin, below, hs⟩, -⟩
    · rw [hall]
      cbv
    · -- The first shutdown is not in the case of one that has missed the handle.
      have hjoining : (s.machine.run [1, 1, 0, 0, 0, 0]).stack 1
          = [.joiningLoop .caller, .script .caller []] := by cbv
      rw [hjoining] at hs
      cases hs
  · rcases h [1, 1, 0, 0, 0, 0, 1, 2] 2 [] rfl (by decide) hsecond with hdone | ⟨-, hclaimed⟩
    · exact ⟨[1], 1, [0, 0, 0, 0, 1, 2], rfl, by decide +kernel⟩
    · exact hclaimed

/-- Shutdowns that do not wait, though no task panics: one by another thread after a task has shut
the loop down, and the second of two at the same time. Each returns while a task that the loop has
accepted is still queued. -/
theorem shutdown_returns_early :
    let setup (queued scripts : List (List Call)) : Setup Unit Nat :=
      { initializer := fun host => (.engine 7, host)
        host := ()
        owner := ⟨0, none⟩
        loops := true
        queued
        scripts }
    let afterTask := setup [[.shutdown], [.note (.task "late")]] [[], [.shutdown]]
    let atOnce := setup [[.note (.task "late")]] [[], [.shutdown], [.shutdown]]
    (afterTask.machine.tasksReturn [0, 0, 0, 1, 1] = true ∧
      (afterTask.machine.run [0, 0, 0, 1]).leavesShutdown 1 = true ∧
      afterTask.machine.executed [0, 0, 0, 1, 1] = [.job [.shutdown]] ∧
      (afterTask.machine.run [0, 0, 0, 1, 1]).dispatcher.tasks = [.job [.note (.task "late")]]) ∧
    (atOnce.machine.tasksReturn [1, 1, 2, 2] = true ∧
      (atOnce.machine.run [1, 1, 2]).leavesShutdown 2 = true ∧
      atOnce.machine.executed [1, 1, 2, 2] = [] ∧
      (atOnce.machine.run [1, 1, 2, 2]).dispatcher.tasks = [.job [.note (.task "late")]]) := by
  intro setup afterTask atOnce
  refine ⟨⟨by decide +kernel, by decide +kernel, by cbv, by cbv⟩,
    ⟨by decide +kernel, by decide +kernel, by cbv, by cbv⟩⟩

end Machine

end LazyEngine
