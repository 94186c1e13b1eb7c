/-
The thread of a loop.

The thread of a loop takes the oldest task, executes it to the end and takes the next one. It ends
when the loop is shut down and nothing is queued any more, and it dies when a task panics.

* `Tended`, `Tended.step` — the thread serves the loop until it stops, and nothing else on it takes
  tasks;
* `Machine.Executing` — the thread is at a task that it has taken and has not come back since;
* `loop_executes_in_order` — which tasks a loop has executed, dropped and refused, at every moment
  of every run.

Design notes: a task is executed by the frames that the step which takes it puts onto the stack, and
it is over when the thread is back at the frame that serves the loop. A loop has nothing to pump,
so that frame is the only one that takes tasks.
-/
import LazyEngine.Proofs.Startup.Rejection
import LazyEngine.Proofs.Startup.Traffic
import Mathlib.Data.List.Permutation

namespace LazyEngine

/-- A panic in a task ends at a guard in the task, or it ends the thread. -/
theorem Frame.unwind_serving {above : List Frame} (h : ∀ f ∈ above, f.takesTasks = false) :
    (unwind (above ++ [.serving])).landing = .loop ∨
    ∃ kept, kept <:+ above ∧
      (unwind (above ++ [.serving])).landing = .caught (kept ++ [.serving]) := by
  induction above with
  | nil => exact .inl rfl
  | cons f above ih =>
    have hrest : ∀ g ∈ above, g.takesTasks = false := fun g hg => h g (List.mem_cons_of_mem _ hg)
    cases f with
    | guard => exact .inr ⟨above, List.suffix_cons .., rfl⟩
    | serving => exact absurd (h .serving List.mem_cons_self) (by decide)
    | _ =>
      -- the frame is no guard, so the panic passes it
      rcases ih hrest with hl | ⟨kept, hk, hl⟩
      · exact .inl hl
      · exact .inr ⟨kept, hk.trans (List.suffix_cons ..), hl⟩

namespace Machine

variable {σ E : Type} {m m' n : Machine σ E} {t : ThreadId} {initializer : Initializer σ E}
  {owner : Owner}

/-! ### The thread of a loop -/

/-- What a step puts in the place of a frame of a loop's machine: nothing that takes tasks, unless
the frame does so itself. -/
theorem takesTasks_of_acts {f : Frame} {pushed : List Frame} {events : List (Event E)}
    (hloop : m.dispatcher.isLoop = true) (hf : f.takesTasks = false)
    (h : Acts m t f pushed events n) : ∀ g ∈ pushed, g.takesTasks = false := by
  cases h with
  | aside h =>
    cases h with
    | pump hl =>
      -- over a loop there is nothing to pump
      rw [hloop] at hl
      cases hl
    | underway hf => cases hf <;> simp [Frame.takesTasks]
    | _ => simp [Frame.takesTasks]
  | postRefused hp | postLooked hp | jobAccepted hp | closureAccepted hp =>
    cases hp <;> simp [Frame.takesTasks]
  | requestRefused hf | requestLooked hf | requested hf => cases hf <;> simp [Frame.takesTasks]
  | took hg =>
    rw [hg.takesTasks.1] at hf
    cases hf
  | _ => simp [Frame.takesTasks]

/-- A panic in a task that nothing in the task catches. -/
theorem stack_of_taskPanics (h : m.taskPanics t = true) :
    ∃ origin message calls below, m.stack t = .script origin (.panic message :: calls) :: below ∧
      (Frame.unwind (.script origin calls :: below)).landing = .loop := by
  unfold taskPanics at h
  split at h
  · rename_i origin message calls below hs
    exact ⟨origin, message, calls, below, hs, Landing.isLoop_iff.1 h⟩
  · cases h

theorem Sound.eq_owner_of_taskPanics (h : Sound initializer owner m)
    (hpanics : m.taskPanics t = true) : t = owner.thread := by
  obtain ⟨origin, message, calls, below, hs, hl⟩ := stack_of_taskPanics hpanics
  refine Owner.isCurrent_iff.1 (h.ownerOnly t .serving ?_ rfl)
  rw [hs]
  rcases List.mem_cons.1 (Frame.serving_mem_of_unwind hl) with hmem | hmem
  · cases hmem
  · exact List.mem_cons_of_mem _ hmem

/-- The thread of a loop serves the loop until it stops, and nothing else on it takes tasks. -/
structure Tended (owner : Owner) (m : Machine σ E) : Prop where
  serving : m.dispatcher.stopped = false → m.stack owner.thread = [] ∨
    ∃ above, m.stack owner.thread = above ++ [.serving] ∧ ∀ f ∈ above, f.takesTasks = false
  stopped : m.dispatcher.stopped = true → m.stack owner.thread = []

namespace Sound

/-- Only the loop's thread can stop it. -/
theorem eq_owner_of_stop (h : Sound initializer owner m)
    (hwhy : m.taskPanics t = true ∨ ∃ below, m.stack t = .serving :: below ∧
      m.dispatcher.tasks = [] ∧ m.dispatcher.ending = true) : t = owner.thread := by
  rcases hwhy with hpanics | ⟨below, hs, -⟩
  · exact h.eq_owner_of_taskPanics hpanics
  · exact Owner.isCurrent_iff.1 (h.ownerOnly t .serving (hs ▸ List.mem_cons_self) rfl)

end Sound

namespace Tended

/-- The end of the loop's thread. -/
theorem of_stop (hloop : m.dispatcher.isLoop = true) (hd : m'.dispatcher = m.dispatcher.stop)
    (hs : m'.stack owner.thread = []) : Tended owner m' := by
  refine ⟨fun hlive => ?_, fun _ => hs⟩
  rw [hd] at hlive
  cases hdisp : m.dispatcher with
  | queue => rw [hdisp] at hloop; cases hloop
  | loop => rw [hdisp] at hlive; cases hlive

/-- The thread goes on with frames that take no tasks on top of the one that serves the loop. -/
theorem of_append {above : List Frame} (hs : m.stack owner.thread = above ++ [.serving])
    (h : ∀ f ∈ above, f.takesTasks = false) (hlive : m.dispatcher.stopped = false) :
    Tended owner m := by
  refine ⟨fun _ => .inr ⟨above, hs, h⟩, fun hstopped => ?_⟩
  rw [hlive] at hstopped
  cases hstopped

/-- A thread that has something to do serves the loop. -/
theorem stack_eq (h : Tended owner m) {f : Frame} {below : List Frame}
    (hs : m.stack owner.thread = f :: below) :
    m.dispatcher.stopped = false ∧
      ∃ above, f :: below = above ++ [.serving] ∧ ∀ g ∈ above, g.takesTasks = false := by
  have hlive : m.dispatcher.stopped = false := by
    rw [Bool.eq_false_iff]
    intro hstopped
    rw [h.stopped hstopped] at hs
    cases hs
  refine ⟨hlive, ?_⟩
  rcases h.serving hlive with hnil | ⟨above, heq, habove⟩
  · rw [hnil] at hs
    cases hs
  · exact ⟨above, hs.symm.trans heq, habove⟩

/-- Frames that take tasks are found at the bottom only. -/
theorem eq_serving (h : Tended owner m) {f : Frame} {below : List Frame}
    (hs : m.stack owner.thread = f :: below) (hf : f.takesTasks = true) :
    m.stack owner.thread = [.serving] := by
  obtain ⟨-, above, heq, habove⟩ := h.stack_eq hs
  cases above with
  | nil => rw [hs, heq, List.nil_append]
  | cons g above =>
    obtain ⟨rfl, -⟩ := List.cons.inj heq
    rw [habove f List.mem_cons_self] at hf
    cases hf

/-- A step of the thread that is at its queue: it begins a task, or ends. -/
theorem step_serving (hloop : m.dispatcher.isLoop = true) (hlive : m.dispatcher.stopped = false)
    (hs : m.stack owner.thread = [.serving]) (hstep : m.step owner.thread = some m') :
    Tended owner m' ∧ ((∃ task, m.taken owner.thread = some task ∧
      m'.stack owner.thread = task.frames ++ [.serving]) ∨ m'.stack owner.thread = []) := by
  rw [step, hs, stepFrom, frame] at hstep
  -- A task is queued and taken, or none is and the thread ends, or it waits.
  split at hstep
  · rename_i task d htake
    cases hstep
    have hstack : (({ m with dispatcher := d } : Machine σ E).begin owner.thread [.serving]
        task).stack owner.thread = task.frames ++ [.serving] := by
      cases task <;> exact stack_withStack_self rfl hs _
    have htaken : m.taken owner.thread = some task := by
      rw [taken, hs]
      simp [Frame.takesTasks, Dispatcher.take?_tasks htake]
    refine ⟨of_append hstack ?_ ?_, .inl ⟨task, htaken, hstack⟩⟩
    · cases task <;> simp [Task.frames, Frame.takesTasks]
    · have hd : (({ m with dispatcher := d } : Machine σ E).begin owner.thread [.serving]
          task).dispatcher = d := by cases task <;> rfl
      rw [hd, Dispatcher.take?_eq htake, Dispatcher.stopped_withTasks, hlive]
  · split at hstep
    · cases hstep
      have hstack : (m.stopLoop.withStack owner.thread []).stack owner.thread = [] :=
        stack_withStack_self (n := m.stopLoop) rfl hs _
      exact ⟨of_stop hloop rfl hstack, .inr hstack⟩
    · cases hstep

/-- A panic in a task is caught in the task, or it is the end of the thread. -/
theorem step_panic {origin : Origin} {message : String} {calls : List Call} {above : List Frame}
    (hloop : m.dispatcher.isLoop = true) (hlive : m.dispatcher.stopped = false)
    (hs : m.stack owner.thread
      = .script origin (.panic message :: calls) :: (above ++ [.serving]))
    (habove : ∀ f ∈ above, f.takesTasks = false) (hstep : m.step owner.thread = some m') :
    Tended owner m' := by
  cases (step_of_panic hs).symm.trans hstep
  have hunwind : (Frame.unwind (.script origin calls :: (above ++ [.serving]))).landing
      = (Frame.unwind (above ++ [.serving])).landing := rfl
  unfold panic
  dsimp only
  rcases Frame.unwind_serving habove with hl | ⟨kept, hk, hl⟩
  · rw [hunwind, hl]
    exact of_stop hloop rfl (stack_withStack_self rfl hs _)
  · rw [hunwind, hl]
    refine of_append (stack_withStack_self rfl hs _) ?_ hlive
    exact fun f hf => habove f (hk.subset hf)

theorem step (h : Tended owner m) (hsound : Sound initializer owner m)
    (hloop : m.dispatcher.isLoop = true) (hstep : m.step t = some m') : Tended owner m' := by
  by_cases ht : t = owner.thread
  · subst ht
    obtain ⟨f, below, hs⟩ := exists_frame_of_step hstep
    obtain ⟨hlive, above, heq, habove⟩ := h.stack_eq hs
    -- The innermost frame serves the loop, or belongs to the task on top of it.
    cases above with
    | nil => exact (step_serving hloop hlive (hs.trans heq) hstep).1
    | cons g above =>
      obtain rfl : f = g := (List.cons.inj heq).1
      rw [heq, List.cons_append] at hs
      have hrest : ∀ g ∈ above, g.takesTasks = false :=
        fun g hg => habove g (List.mem_cons_of_mem _ hg)
      have hf : f.takesTasks = false := habove f List.mem_cons_self
      by_cases hpanic : ∃ origin message calls, f = .script origin (.panic message :: calls)
      · obtain ⟨origin, message, calls, rfl⟩ := hpanic
        exact step_panic hloop hlive hs hrest hstep
      · have hdrops : f.drops = false := by
          rw [Bool.eq_false_iff]
          intro hdrops
          rcases Frame.eq_of_drops hdrops with rfl | hpanics
          · cases hf
          · exact hpanic hpanics
        obtain ⟨pushed, events, n, ha, heq'⟩ := acts_of_step hs hdrops hstep
        have hp := takesTasks_of_acts hloop hf ha
        have hs' : m'.stack owner.thread = pushed ++ (above ++ [.serving]) := by
          rw [heq']
          exact stack_withStack_self ha.threads hs _
        have hs'' : m'.stack owner.thread = (pushed ++ above) ++ [.serving] := by
          rw [hs', List.append_assoc]
        refine of_append hs'' ?_ ?_
        · intro g hg
          rcases List.mem_append.1 hg with hg | hg
          · exact hp g hg
          · exact hrest g hg
        · -- nothing else stops the thread in the middle of a task
          rcases stopped_of_step hstep with heq' | ⟨-, -, hpanics | ⟨below', hs'', -⟩⟩
          · rw [heq', hlive]
          · obtain ⟨origin, message, calls, below', hs₁, -⟩ := stack_of_taskPanics hpanics
            rw [hs] at hs₁
            exact absurd ⟨origin, message, calls, (List.cons.inj hs₁).1⟩ hpanic
          · rw [hs] at hs''
            rw [(List.cons.inj hs'').1] at hf
            cases hf
  · -- Another thread leaves the stack of the loop's thread alone, and cannot stop it.
    have hs := hsound.stack_of_step hstep (Ne.symm ht)
    have hstopped : m'.dispatcher.stopped = m.dispatcher.stopped := by
      rcases stopped_of_step hstep with heq | ⟨-, -, hwhy⟩
      · exact heq
      · exact absurd (hsound.eq_owner_of_stop hwhy) ht
    exact ⟨fun hlive => hs ▸ h.serving (hstopped ▸ hlive),
      fun hhalt => hs ▸ h.stopped (hstopped ▸ hhalt)⟩

end Tended

theorem stack_owner_machine (s : Setup σ E) (hloops : s.loops = true) :
    s.machine.stack s.owner.thread = [] ∨ s.machine.stack s.owner.thread = [.serving] := by
  simp only [stack, Setup.machine, List.getElem?_mapIdx]
  cases s.scripts[s.owner.thread]? with
  | none => exact .inl rfl
  | some calls => exact .inr (by simp [hloops, Owner.isCurrent])

theorem tended_machine (s : Setup σ E) (hloops : s.loops = true) : Tended s.owner s.machine := by
  refine ⟨fun _ => (stack_owner_machine s hloops).imp_right fun h =>
    ⟨[], h, List.forall_mem_nil _⟩, fun hstopped => ?_⟩
  rw [stopped_machine] at hstopped
  cases hstopped

theorem tended_run (s : Setup σ E) (hloops : s.loops = true) (schedule : List ThreadId) :
    Tended s.owner (s.machine.run schedule) := by
  have h : Tended s.owner (s.machine.run schedule) ∧
      (Sound s.initializer s.owner (s.machine.run schedule) ∧
        (s.machine.run schedule).dispatcher.isLoop = true) := by
    refine run_induction (P := fun m => Tended s.owner m ∧ Sound s.initializer s.owner m ∧
      m.dispatcher.isLoop = true) ?_ ⟨tended_machine s hloops, sound_machine s, ?_⟩ schedule
    · rintro m t m' ⟨h, hsound, hloop⟩ hs
      have ht := turn_of_step hs
      exact ⟨h.step hsound hloop hs, hsound.step ht, (hsound.isLoop_eq ht).trans hloop⟩
    · exact s.isLoop_dispatcher.trans hloops
  exact h.1

/-! ### The task that is being executed -/

/-- The thread took the task when it was at its queue, and has not been there since. -/
def Executing (m : Machine σ E) (u : ThreadId) (schedule : List ThreadId) (task : Task) : Prop :=
  ∃ before after, schedule = before ++ u :: after ∧ (m.run before).stack u = [.serving] ∧
    (m.run before).taken u = some task ∧
    ∀ part, part <+: after → (m.run (before ++ u :: part)).stack u ≠ [.serving]

namespace Executing

variable {schedule : List ThreadId} {task : Task} {u : ThreadId}

theorem stack_ne (h : m.Executing u schedule task) : (m.run schedule).stack u ≠ [.serving] := by
  obtain ⟨before, after, rfl, -, -, hbusy⟩ := h
  exact hbusy after (List.prefix_refl _)

theorem concat (h : m.Executing u schedule task)
    (hs : (m.run (schedule ++ [t])).stack u ≠ [.serving]) :
    m.Executing u (schedule ++ [t]) task := by
  obtain ⟨before, after, rfl, hserving, htaken, hbusy⟩ := h
  rw [List.append_assoc, List.cons_append] at hs ⊢
  refine ⟨before, after ++ [t], rfl, hserving, htaken, fun part hpart => ?_⟩
  rcases List.prefix_concat_iff.mp hpart with rfl | hpart
  · exact hs
  · exact hbusy part hpart

end Executing

/-- Whoever is at no frame that takes tasks takes none. -/
theorem taken?_eq_none (h : ∀ f below, m.stack t = f :: below → f.takesTasks = false) :
    (m.traffic t).bind Traffic.taken? = none := by
  unfold traffic
  split
  · split
    · split <;> rfl
    · rfl
  · have htaken : m.taken t = none := by
      unfold taken
      split
      · rename_i f below hs
        rw [h f below hs]
        rfl
      · rfl
    rw [htaken]
    rfl

theorem executed_concat (schedule : List ThreadId)
    (h : ∀ f below, (m.run schedule).stack t = f :: below → f.takesTasks = false) :
    m.executed (schedule ++ [t]) = m.executed schedule := by
  rw [executed_append]
  cases hs : (m.run schedule).step t with
  | none =>
    rw [executed, executed, account, hs]
    exact List.append_nil _
  | some m₁ =>
    rw [executed_cons hs, taken?_eq_none h]
    exact List.append_nil _

theorem executed_of_taken {task : Task} (schedule : List ThreadId)
    (hs : (m.run schedule).stack t = [.serving]) (htaken : (m.run schedule).taken t = some task)
    (hstep : (m.run schedule).step t = some m') :
    m.executed (schedule ++ [t]) = m.executed schedule ++ [task] := by
  have htraffic : (m.run schedule).traffic t = some (.taken task) := by
    rw [traffic, htaken, nextPost_eq hs]
    rfl
  rw [executed_append, executed_cons hstep, htraffic]
  rfl

/-- The thread executes the task that was taken last. -/
def Occupied (m : Machine σ E) (u : ThreadId) (schedule : List ThreadId) : Prop :=
  ∃ earlier task, m.executed schedule = earlier ++ [task] ∧ m.Executing u schedule task

/-- A step that takes no task leaves the thread at what it was doing. -/
theorem Occupied.concat {u : ThreadId} {schedule : List ThreadId} (h : m.Occupied u schedule)
    (hs : (m.run (schedule ++ [t])).stack u ≠ [.serving])
    (hidle : ∀ f below, (m.run schedule).stack t = f :: below → f.takesTasks = false) :
    m.Occupied u (schedule ++ [t]) := by
  obtain ⟨earlier, task, hexecuted, hexecuting⟩ := h
  exact ⟨earlier, task, (executed_concat schedule hidle).trans hexecuted, hexecuting.concat hs⟩

/-- The loop's thread steps. -/
theorem occupied_concat_owner (s : Setup σ E) (hloops : s.loops = true) {schedule : List ThreadId}
    (h : (s.machine.run schedule).stack s.owner.thread = [] ∨
      (s.machine.run schedule).stack s.owner.thread = [.serving] ∨
      s.machine.Occupied s.owner.thread schedule)
    (hqueue : (s.machine.run (schedule ++ [s.owner.thread])).stack s.owner.thread ≠ [.serving]) :
    (s.machine.run (schedule ++ [s.owner.thread])).stack s.owner.thread = [] ∨
      s.machine.Occupied s.owner.thread (schedule ++ [s.owner.thread]) := by
  have htended := tended_run s hloops schedule
  rcases h with hnil | hserving | hbusy
  · left
    rw [run_concat, step, hnil]
    exact hnil
  · cases hstep : (s.machine.run schedule).step s.owner.thread with
    | none =>
      rw [run_concat, hstep] at hqueue
      exact absurd hserving hqueue
    | some m' =>
      have hrun : s.machine.run (schedule ++ [s.owner.thread]) = m' := by
        rw [run_concat, hstep, Option.getD_some]
      have hlive := (htended.stack_eq hserving).1
      have hloop := (isLoop_run s schedule).trans hloops
      rcases (Tended.step_serving hloop hlive hserving hstep).2 with ⟨task, htaken, hs⟩ | hs
      · refine .inr ⟨_, task, executed_of_taken schedule hserving htaken hstep,
          schedule, [], rfl, hserving, htaken, fun part hpart => ?_⟩
        rwa [List.prefix_nil.mp hpart]
      · exact .inl (hrun ▸ hs)
  · -- In the middle of a task the loop's thread takes no other.
    have hne := hbusy.choose_spec.choose_spec.2.stack_ne
    refine .inr (hbusy.concat hqueue fun f below hs => ?_)
    rw [Bool.eq_false_iff]
    exact fun hf => hne (htended.eq_serving hs hf)

/-- Another thread steps. -/
theorem occupied_concat_other (s : Setup σ E) {schedule : List ThreadId}
    (h : (s.machine.run schedule).stack s.owner.thread = [] ∨
      (s.machine.run schedule).stack s.owner.thread = [.serving] ∨
      s.machine.Occupied s.owner.thread schedule) (ht : t ≠ s.owner.thread)
    (hqueue : (s.machine.run (schedule ++ [t])).stack s.owner.thread ≠ [.serving]) :
    (s.machine.run (schedule ++ [t])).stack s.owner.thread = [] ∨
      s.machine.Occupied s.owner.thread (schedule ++ [t]) := by
  have hsound := sound_run s schedule
  have hsame := hsound.stack_concat (Ne.symm ht)
  rcases h with hnil | hserving | hbusy
  · exact .inl (hsame.trans hnil)
  · exact absurd (hsame.trans hserving) hqueue
  · refine .inr (hbusy.concat hqueue fun f below hs => ?_)
    rw [Bool.eq_false_iff]
    exact fun hf => ht (hsound.eq_owner_of_takesTasks hs hf)

/-- While the loop's thread is not at its queue, it executes the task that was taken last. -/
theorem executing_run (s : Setup σ E) (hloops : s.loops = true) (schedule : List ThreadId) :
    (s.machine.run schedule).stack s.owner.thread = [] ∨
    (s.machine.run schedule).stack s.owner.thread = [.serving] ∨
    s.machine.Occupied s.owner.thread schedule := by
  induction schedule using List.reverseRecOn with
  | nil => exact (stack_owner_machine s hloops).imp_right .inl
  | append_singleton schedule t ih =>
    by_cases hqueue : (s.machine.run (schedule ++ [t])).stack s.owner.thread = [.serving]
    · exact .inr (.inl hqueue)
    by_cases ht : t = s.owner.thread
    · subst ht
      exact (occupied_concat_owner s hloops ih hqueue).imp_right .inr
    · exact (occupied_concat_other s ih ht hqueue).imp_right .inr

/-! ### All that has been accepted -/

/-- Unless a task panics, a loop's thread stops when it has executed all that was accepted. -/
theorem executed_of_tasksReturn {acc exe : List Task} (h : Ledger m acc exe)
    (hsound : Sound initializer owner m) (hdone : m.dispatcher.stopped = true → exe = acc)
    {schedule : List ThreadId} (hreturn : m.tasksReturn schedule = true)
    (hstopped : (m.run schedule).dispatcher.stopped = true) :
    exe ++ m.executed schedule = acc ++ m.accepted schedule := by
  induction schedule generalizing m acc exe with
  | nil => simpa [executed, accepted, account] using hdone hstopped
  | cons t rest ih =>
    rw [tasksReturn, Bool.and_eq_true, Bool.not_eq_true'] at hreturn
    change (((m.step t).getD m).run rest).dispatcher.stopped = true at hstopped
    cases hs : m.step t with
    | none =>
      rw [hs] at hreturn hstopped
      rw [executed, accepted, account, hs]
      exact ih h hsound hdone hreturn.2 hstopped
    | some m₁ =>
      rw [hs] at hreturn hstopped
      rw [executed_cons hs, accepted_cons hs, ← List.append_assoc, ← List.append_assoc]
      refine ih (h.step hsound hs) (hsound.step (turn_of_step hs)) (fun hstopped₁ => ?_) hreturn.2
        hstopped
      cases hhalt : m.dispatcher.stopped with
      | true =>
        -- nothing happens any more
        obtain ⟨hacc, hexe, -⟩ := nothing_after_stop hsound hhalt (h.halted hhalt).1 [t]
        rw [accepted_cons hs] at hacc
        rw [executed_cons hs] at hexe
        rw [(List.append_eq_nil_iff.1 hacc).1, (List.append_eq_nil_iff.1 hexe).1, hdone hhalt]
      | false =>
        rcases stopped_of_step hs with heq | ⟨-, htraffic, hpanics | ⟨below, -, hempty, -⟩⟩
        · rw [heq, hhalt] at hstopped₁
          cases hstopped₁
        · rw [hreturn.1] at hpanics
          cases hpanics
        · rw [htraffic, h.live hhalt, hempty, List.append_nil]
          rfl

/-- Unless a task panics, a loop whose thread has stopped has executed all that it accepted, to the
end. -/
theorem all_executed (s : Setup σ E) (hloops : s.loops = true) (schedule : List ThreadId)
    (hreturn : s.machine.tasksReturn schedule = true)
    (hstopped : (s.machine.run schedule).dispatcher.stopped = true) :
    s.machine.executed schedule = s.queued.map .job ++ s.machine.accepted schedule ∧
      (s.machine.run schedule).stack s.owner.thread = [] := by
  refine ⟨?_, (tended_run s hloops schedule).stopped hstopped⟩
  refine executed_of_tasksReturn (ledger_machine s) (sound_machine s) (fun hhalt => ?_) hreturn
    hstopped
  rw [stopped_machine] at hhalt
  cases hhalt

/-! ### Refusals -/

/-- Whether the next step of a thread begins a shutdown, which gives up the sending end. -/
def shutsDown (m : Machine σ E) (u : ThreadId) : Bool :=
  match m.stack u with
  | .script _ (.shutdown :: _) :: _ => true
  | _ => false

/-- Whoever posts a task need not wait. -/
theorem step_of_nextPost {post : Bool × Task} (h : m.nextPost t = some post) :
    ∃ m', m.step t = some m' := by
  cases hs : m.stack t with
  | nil =>
    rw [nextPost, hs] at h
    cases h
  | cons f below =>
    rw [nextPost_eq hs] at h
    rw [step, hs, stepFrom]
    unfold posting at h
    split at h
    all_goals first | exact ⟨_, rfl⟩ | cases h

/-- A task that is refused: the caller is told, and nothing else happens to the dispatcher. -/
theorem step_of_refused {task : Task} {e : StartupError}
    (h : m.traffic t = some (.refused task e)) (hs : m.step t = some m') :
    m'.dispatcher = m.dispatcher ∧
      ∃ origin a, a.error? = some e ∧ m'.log = .answered t origin a :: m.log := by
  cases handled_of_step hs with
  | refused hoffered hr hd ha hlog =>
    rw [traffic_of_refusal? hoffered hr] at h
    cases h
    exact ⟨hd, _, _, ha, hlog⟩
  | accepted hnext ha => cases (traffic_of_accepts hnext ha).symm.trans h
  | untouched htraffic | taken htraffic | closed htraffic | shutting htraffic | claimed htraffic
  | stopped htraffic =>
    rw [h] at htraffic
    cases htraffic

theorem dispatcher_of_refused {task : Task} {e : StartupError}
    (h : m.traffic t = some (.refused task e)) :
    ((m.step t).getD m).dispatcher = m.dispatcher := by
  cases hs : m.step t with
  | none => rfl
  | some m' => exact (step_of_refused h hs).1

/-- A dispatcher that refuses tasks refuses the one that it is offered. -/
theorem refused_of_offered {task : Task} (hr : m.dispatcher.refusal? ≠ none)
    (h : m.offered t = some task) :
    ∃ m' reason origin a, m.step t = some m' ∧
      m.traffic t = some (.refused task (.dispatch reason)) ∧
      a.error? = some (.dispatch reason) ∧ m'.log = .answered t origin a :: m.log := by
  obtain ⟨m', hs⟩ := step_of_nextPost (offered_eq_some_iff.1 h)
  obtain ⟨refusal, hrefusal⟩ := Option.ne_none_iff_exists'.1 hr
  have htraffic := traffic_of_refusal? h hrefusal
  obtain ⟨-, origin, a, ha, hlog⟩ := step_of_refused htraffic hs
  exact ⟨m', refusal.message, origin, a, hs, htraffic, ha, hlog⟩

/-- From the first half of a shutdown on, a loop refuses all tasks. -/
theorem refuses_of_shutsDown {u : ThreadId} (hloop : m.dispatcher.isLoop = true)
    (h : m.shutsDown u = true) (schedule : List ThreadId) :
    (m.run (u :: schedule)).dispatcher.refusal? ≠ none := by
  unfold shutsDown at h
  split at h
  · rename_i origin calls below hs
    have hstep := step_of_acts hs .shutdown
    have hending : m.dispatcher.giveUpSending.ending = true := by
      cases hd : m.dispatcher with
      | queue => rw [hd] at hloop; cases hloop
      | loop => rfl
    show (((m.step u).getD m).run schedule).dispatcher.refusal? ≠ none
    rw [hstep, Option.getD_some]
    exact refusal?_run (Dispatcher.refusal?_of_ending hending) schedule
  · cases h

/-! ### All of it -/

theorem taken_of_traffic {task : Task} (h : m.traffic t = some (.taken task)) :
    m.taken t = some task := by
  unfold traffic at h
  split at h
  · split at h
    · split at h <;> cases h
    · cases h
  · obtain ⟨task', htaken, heq⟩ := Option.map_eq_some_iff.1 h
    cases heq
    exact htaken

/-- A task is taken by a frame that takes tasks, and is queued before. -/
theorem queued_of_taken {task : Task} (h : m.taken t = some task) :
    ∃ f below rest, m.stack t = f :: below ∧ f.takesTasks = true ∧
      m.dispatcher.take? = some (task, m.dispatcher.withTasks rest) := by
  unfold taken at h
  split at h
  · rename_i f below hs
    split at h
    · rename_i hf
      obtain ⟨rest, htasks⟩ := List.head?_eq_some_iff.1 h
      exact ⟨f, below, rest, hs, hf, by rw [Dispatcher.take?, htasks]⟩
    · cases h
  · cases h

/-- The loop's thread begins the task that it takes. -/
theorem Tended.begins (h : Tended owner m) (hsound : Sound initializer owner m) {task : Task}
    (htraffic : m.traffic t = some (.taken task)) :
    t = owner.thread ∧ m.stack t = [.serving] ∧
      ((m.step t).getD m).stack t = task.frames ++ [.serving] := by
  obtain ⟨f, below, rest, hs, hf, htake⟩ := queued_of_taken (taken_of_traffic htraffic)
  obtain rfl := hsound.eq_owner_of_takesTasks hs hf
  have hserving := h.eq_serving hs hf
  refine ⟨rfl, hserving, ?_⟩
  rw [step_of_acts hserving (.took .serving htake), Option.getD_some]
  exact (stack_withStack_self rfl hserving _).trans (List.append_nil _)

/-- A panic that nothing catches stops the loop, which drops what is queued. -/
theorem step_of_taskPanics (hloop : m.dispatcher.isLoop = true) (h : m.taskPanics t = true) :
    ∃ m', m.step t = some m' ∧ m.traffic t = none ∧ m'.dispatcher.stopped = true ∧
      m'.dispatcher.tasks = [] := by
  obtain ⟨origin, message, calls, below, hs, hl⟩ := stack_of_taskPanics h
  refine ⟨_, step_of_panic hs, traffic_eq_none hs rfl rfl, ?_⟩
  have hd : (m.panic t message (.script origin calls :: below)).dispatcher
      = m.dispatcher.stop := by
    unfold panic
    dsimp only
    rw [hl]
    rfl
  rw [hd]
  cases hdisp : m.dispatcher with
  | queue => rw [hdisp] at hloop; cases hloop
  | loop => exact ⟨rfl, rfl⟩

/-- A task that panics is the last one executed, and all those queued behind it are dropped. -/
theorem dropped_by_panic (s : Setup σ E) (hloops : s.loops = true) {before after : List ThreadId}
    (hpanics : (s.machine.run before).taskPanics t = true) :
    let last := s.machine.run (before ++ t :: after)
    (∃ earlier task, s.machine.executed (before ++ t :: after) = earlier ++ [task] ∧
      s.machine.Executing t before task) ∧
    s.queued.map .job ++ s.machine.accepted (before ++ t :: after)
      = s.machine.executed (before ++ t :: after) ++ (s.machine.run before).dispatcher.tasks ∧
    last.dispatcher.stopped = true ∧ last.dispatcher.tasks = [] := by
  intro last
  obtain ⟨m', hstep, htraffic, hstopped, hempty⟩ :=
    step_of_taskPanics ((isLoop_run s before).trans hloops) hpanics
  have hsound := (sound_run s before).step (turn_of_step hstep)
  obtain ⟨hacc, hexe, hstopped', hempty'⟩ := nothing_after_stop hsound hstopped hempty after
  -- The panic itself takes nothing and lets nothing in, and neither does any later step.
  have hexecuted : s.machine.executed (before ++ t :: after) = s.machine.executed before := by
    rw [executed_append, executed_cons hstep, htraffic, hexe]
    exact List.append_nil _
  have haccepted : s.machine.accepted (before ++ t :: after) = s.machine.accepted before := by
    rw [accepted_append, accepted_cons hstep, htraffic, hacc]
    exact List.append_nil _
  obtain rfl := (sound_run s before).eq_owner_of_taskPanics hpanics
  obtain ⟨origin, message, calls, below, hs, -⟩ := stack_of_taskPanics hpanics
  have hlive := ((tended_run s hloops before).stack_eq hs).1
  have hlast : last = m'.run after := run_of_step hstep after
  rw [hlast, hexecuted, haccepted]
  refine ⟨?_, (ledger_run s before).live hlive, hstopped', hempty'⟩
  -- The thread that panics is in a task: it has neither ended nor gone back to the loop.
  rcases executing_run s hloops before with hnil | hserving | hbusy
  · rw [hnil] at hs
    cases hs
  · rw [hserving] at hs
    cases hs
  · exact hbusy

/-- **A loop executes what it accepts, in order.** Take any run over a loop: any threads and tasks
that post, panic and shut the loop down, in any interleaving.

* The tasks executed are, in order, the first of those accepted.
* A task is taken by the loop's thread only, when it has executed the one before to the end, and
  what it does next is that task.
* As long as the thread lives, what is accepted and not executed is queued.
* If no task panics, all that was accepted has been executed to the end when the thread stops.
* If a task panics, it is the last one executed, and all those queued behind it are dropped.
* Whatever is refused is not queued.
* A task is accepted or refused in the step in which it is offered: nobody has one in hand.
* Whatever is offered once a shutdown has begun, or when the thread has stopped, is refused with an
  error of the dispatcher, which the caller is told. -/
theorem loop_executes_in_order (s : Setup σ E) (hloops : s.loops = true)
    (schedule : List ThreadId) :
    let m := s.machine
    let last := m.run schedule
    let acc := s.queued.map .job ++ m.accepted schedule
    m.executed schedule <+: acc ∧
    (∀ before t after task, schedule = before ++ t :: after →
      (m.run before).traffic t = some (.taken task) →
      t = s.owner.thread ∧ (m.run before).stack t = [.serving] ∧
        (m.run (before ++ [t])).stack t = task.frames ++ [.serving]) ∧
    (last.dispatcher.stopped = false → acc = m.executed schedule ++ last.dispatcher.tasks) ∧
    (m.tasksReturn schedule = true → last.dispatcher.stopped = true →
      m.executed schedule = acc ∧ last.stack s.owner.thread = []) ∧
    (∀ before t after, schedule = before ++ t :: after → (m.run before).taskPanics t = true →
      (∃ earlier task, m.executed schedule = earlier ++ [task] ∧ m.Executing t before task) ∧
      acc = m.executed schedule ++ (m.run before).dispatcher.tasks ∧
      last.dispatcher.stopped = true ∧ last.dispatcher.tasks = []) ∧
    (∀ before t after task e, schedule = before ++ t :: after →
      (m.run before).traffic t = some (.refused task e) →
      (m.run (before ++ [t])).dispatcher = (m.run before).dispatcher) ∧
    (∀ t, last.inHand t = none) ∧
    (∀ before t after task, schedule = before ++ t :: after →
      (m.run before).offered t = some task →
      (∃ b u c, before = b ++ u :: c ∧ (m.run b).shutsDown u = true) ∨
        (m.run before).dispatcher.stopped = true →
      ∃ m' reason origin a, (m.run before).step t = some m' ∧
        (m.run before).traffic t = some (.refused task (.dispatch reason)) ∧
        a.error? = some (.dispatch reason) ∧
        m'.log = .answered t origin a :: (m.run before).log) := by
  intro m last acc
  have hledger := ledger_run s schedule
  refine ⟨hledger.isPrefix, ?_, hledger.live, all_executed s hloops schedule, ?_, ?_, ?_, ?_⟩
  · rintro before t after task - htraffic
    rw [run_concat]
    exact (tended_run s hloops before).begins (sound_run s before) htraffic
  · rintro before t after rfl hpanics
    exact dropped_by_panic s hloops hpanics
  · rintro before t after task e - htraffic
    rw [run_concat]
    exact dispatcher_of_refused htraffic
  · intro t
    -- Only a queue lets a thread have a task in hand.
    rw [Option.eq_none_iff_forall_ne_some]
    intro task hin
    have hqueue := (sound_run s schedule).isLoop_of_inHand hin
    rw [(isLoop_run s schedule).trans hloops] at hqueue
    cases hqueue
  · -- A loop that has been shut down, or whose thread has stopped, refuses whatever is offered.
    rintro before t after task rfl hoffered hwhen
    refine refused_of_offered ?_ hoffered
    rcases hwhen with ⟨b, u, c, rfl, hshuts⟩ | hstopped
    · rw [run_append]
      exact refuses_of_shutsDown ((isLoop_run s b).trans hloops) hshuts c
    · exact Dispatcher.refusal?_of_stopped hstopped

/-- A task posts another, a thread shuts the loop down while that one is queued, and posts once
more. -/
theorem loop_executes_in_order_shut_down :
    let s : Setup Unit Nat :=
      { initializer := fun host => (.engine 7, host)
        host := ()
        owner := ⟨0, none⟩
        loops := true
        queued := [[.post [.note (.task "second")]]]
        scripts := [[], [.shutdown, .post []]] }
    let schedule := [0, 0, 0, 1, 1, 0, 0, 0, 0, 1, 1]
    (s.machine.run schedule).dispatcher.stopped = true ∧
    s.machine.executed schedule = s.queued.map .job ++ s.machine.accepted schedule ∧
    s.machine.executed schedule
      = [.job [.post [.note (.task "second")]], .job [.note (.task "second")]] ∧
    ∃ reason, (s.machine.run schedule.dropLast).traffic 1
      = some (.refused (.job []) (.dispatch reason)) := by
  intro s schedule
  have hreturn : s.machine.tasksReturn schedule = true := by decide +kernel
  have hstopped : (s.machine.run schedule).dispatcher.stopped = true := by decide +kernel
  have hoffered : (s.machine.run schedule.dropLast).offered 1 = some (.job []) := by cbv
  have hbegun : (s.machine.run [0, 0, 0]).shutsDown 1 = true := by decide +kernel
  obtain ⟨-, -, -, hall, -, -, -, hrefused⟩ := loop_executes_in_order s rfl schedule
  obtain ⟨m', reason, -, -, -, htraffic, -⟩ := hrefused schedule.dropLast 1 [] (.job []) rfl
    hoffered (.inl ⟨[0, 0, 0], 1, [1, 0, 0, 0, 0, 1], rfl, hbegun⟩)
  exact ⟨hstopped, (hall hreturn hstopped).1, by cbv, reason, htraffic⟩

end Machine

end LazyEngine
