/-
Nobody waits in vain.

A call that waits for startup sleeps until somebody decides startup, and it has no time limit. So
there has to be somebody who will decide it:

* `Machine.Pledged` — the startup task is queued, or the owner thread is about to execute it;
* `Promised`, `promised_run` — startup that is asked for and not decided is pledged, and nobody
  sleeps otherwise;
* `nobody_stranded` — where nothing is queued and the owner is between tasks, every waiting call
  can return.

Design notes: over a queue a panic gives the owner thread back to its own calls, and the tasks that
are queued stay so. A loop drops its tasks when one of them panics; that runs do not get there is
an assumption (`tasksReturn`), and it is made for a loop only.
-/
import LazyEngine.Proofs.Startup.Runs

namespace LazyEngine

/-- Whether a panic has come to an end at the bottom of the loop's thread. -/
def Landing.isLoop : Landing → Bool
  | loop => true
  | _ => false

theorem Landing.isLoop_iff {landing : Landing} : landing.isLoop = true ↔ landing = .loop := by
  cases landing <;> simp [isLoop]

theorem Frame.serving_mem_of_unwind {stack : List Frame}
    (h : (unwind stack).landing = .loop) : .serving ∈ stack := by
  induction stack with
  | nil => cases h
  | cons f stack ih =>
    cases f with
    | guard => cases h
    | serving => exact List.mem_cons_self
    | _ => exact List.mem_cons_of_mem _ (ih (by simpa [unwind] using h))

namespace Machine

variable {σ E : Type} {m m' : Machine σ E} {t : ThreadId} {initializer : Initializer σ E}
  {owner : Owner}

/-- Whether the next step of a thread is a panic that nothing in the task on the loop catches. -/
def taskPanics (m : Machine σ E) (t : ThreadId) : Bool :=
  match m.stack t with
  | .script origin (.panic _ :: calls) :: below =>
    (Frame.unwind (.script origin calls :: below)).landing.isLoop
  | _ => false

/-- No task on the loop panics while the threads step in this order. -/
def tasksReturn (m : Machine σ E) : List ThreadId → Bool
  | [] => true
  | t :: rest => !m.taskPanics t && ((m.step t).getD m).tasksReturn rest

/-- The owner thread is not in the middle of a task: nothing lies above a frame that takes tasks. -/
def betweenTasks (m : Machine σ E) : Bool :=
  (m.stack m.dispatcher.owner.thread).tail.all fun f => !f.takesTasks

/-- Startup is going to be decided: its task is queued, or the owner thread has taken it and is
about to execute it. -/
def Pledged (owner : Owner) (m : Machine σ E) : Prop :=
  0 < m.dispatcher.startups ∨
    ∃ f below, m.stack owner.thread = .startup :: f :: below ∧ f.takesTasks = true

/-- Startup that has been asked for is pledged until it is decided, and only then does anybody
sleep. -/
structure Promised (owner : Owner) (m : Machine σ E) : Prop where
  pledged : m.coordinator.phase = .starting → m.coordinator.failure = none → m.Pledged owner
  asleep : m.sleepers ≠ [] → m.coordinator.phase = .starting ∧ m.coordinator.failure = none

/-- A pledge is kept by a step that executes no startup task. -/
theorem Pledged.of_restacked (hp : m.Pledged owner) (hr : Restacked m t m')
    (hd : m'.dispatcher.startups = m.dispatcher.startups)
    (hs : ∀ below, m.stack t ≠ .startup :: below) : m'.Pledged owner := by
  rcases hp with hpos | ⟨f, below, hstack, hf⟩
  · left
    rw [hd]
    exact hpos
  · right
    have hne : owner.thread ≠ t := by
      rintro rfl
      exact hs _ hstack
    exact ⟨f, below, by rw [hr.others hne, hstack], hf⟩

namespace Promised

/-- A step that decides nothing and executes no startup task. -/
theorem of_restacked (hp : Promised owner m) (hr : Restacked m t m')
    (hphase : m'.coordinator.phase = m.coordinator.phase)
    (hfailure : m'.coordinator.failure = m.coordinator.failure)
    (hsleepers : m'.sleepers = m.sleepers)
    (hd : m'.dispatcher.startups = m.dispatcher.startups)
    (hs : ∀ below, m.stack t ≠ .startup :: below) : Promised owner m' where
  pledged h₁ h₂ :=
    (hp.pledged (hphase ▸ h₁) (hfailure ▸ h₂)).of_restacked hr hd hs
  asleep h := by
    rw [hphase, hfailure]
    exact hp.asleep (hsleepers ▸ h)

theorem step (hp : Promised owner m) (h : Sound initializer owner m) (ht : Turn m t m')
    (hreturn : m.dispatcher.isLoop = true → m.taskPanics t = false) : Promised owner m' := by
  have hr := h.restacked ht
  cases ht with
  | quiet hq =>
    obtain ⟨n, stack, ha, rfl⟩ := hq.alike
    obtain ⟨f, below, -, -, hs, hf, -⟩ := hq.stack
    refine hp.of_restacked hr (congrArg _ ha.coordinator) (congrArg _ ha.coordinator) ha.sleepers
      hq.startups fun below' h' => ?_
    rw [hs] at h'
    cases h'
    cases hf
  | died hs hl =>
    -- only a loop has a frame to serve it
    have hloop : m.dispatcher.isLoop = true := by
      have hmem := Frame.serving_mem_of_unwind hl
      rcases List.mem_cons.1 hmem with hmem | hmem
      · cases hmem
      · exact h.fits t .serving (hs ▸ List.mem_cons_of_mem _ hmem)
    have hpanics : m.taskPanics t = true := by
      rw [taskPanics, hs]
      simp only [hl, Landing.isLoop]
    rw [hreturn hloop] at hpanics
    cases hpanics
  | stuck hu hn => exact absurd hn (h.initializer_ne_none hu)
  | posted hs hu =>
    exact ⟨fun _ _ => .inl (Dispatcher.startups_pos_of_push _), fun _ => ⟨rfl, hu.2⟩⟩
  | joined hs hu hstarting =>
    have hpledged := (hp.pledged hstarting hu.2).of_restacked hr rfl (by simp [hs])
    exact ⟨fun _ _ => hpledged, fun _ => ⟨hstarting, hu.2⟩⟩
  | started => exact ⟨nofun, fun hne => absurd rfl hne⟩
  | failed => exact ⟨fun _ => nofun, fun hne => absurd rfl hne⟩
  | spared hs hstarted =>
    refine ⟨fun hstarting => ?_, hp.asleep⟩
    have hstarting : m.coordinator.phase = .starting := hstarting
    rw [hstarted] at hstarting
    cases hstarting
  | skipped hs _ hf =>
    refine ⟨fun _ hnone => ?_, hp.asleep⟩
    have hnone : m.coordinator.failure = none := hnone
    rw [hf] at hnone
    cases hnone
  | inspected hs hf =>
    exact hp.of_restacked hr rfl rfl rfl rfl (by cases hf; simp [hs])
  | background hs hf hb =>
    cases hb with
    | underway | refused =>
      exact hp.of_restacked hr rfl rfl rfl rfl (by cases hf <;> simp [hs])
    | posted hn =>
      refine ⟨fun _ _ => .inl (Dispatcher.startups_pos_of_push _), fun hne => ?_⟩
      -- nobody sleeps before startup has been asked for
      have hstarting := (hp.asleep hne).1
      rw [hn] at hstarting
      cases hstarting
  | @unregister origin id calls below hs =>
    obtain ⟨r, hr'⟩ := Coordinator.unregister_eq m.coordinator id
    refine hp.of_restacked hr ?_ ?_ rfl rfl (by simp [hs])
    · show (m.coordinator.unregister id).2.phase = m.coordinator.phase
      rw [hr']
    · show (m.coordinator.unregister id).2.failure = m.coordinator.failure
      rw [hr']
  | @took f g below d hs hf =>
    obtain ⟨hf', hg⟩ := hf.takesTasks
    have howner : t = owner.thread := by
      refine Owner.isCurrent_iff.1 (h.ownerOnly t f (hs ▸ List.mem_cons_self) ?_)
      exact Frame.isOwners_of_takesTasks hf'
    refine ⟨fun _ _ => .inr ⟨g, below, ?_, hg⟩, hp.asleep⟩
    rw [← howner]
    exact stack_withStack_self rfl hs _
  | glanced hs | missed hs | late hs | poisoned hs | refused hs | looked hs | woken hs
  | registerLate hs | registerEarly hs | tell hs | told hs =>
    exact hp.of_restacked hr rfl rfl rfl rfl (by simp [hs])

end Promised

theorem promised_machine (s : Setup σ E) : Promised s.owner s.machine := by
  refine ⟨fun hp => ?_, fun hne => absurd rfl hne⟩
  cases hp

/-- Startup is promised all along a run on which no task on the loop panics. -/
theorem promised_run (h : Sound initializer owner m) (hp : Promised owner m)
    {schedule : List ThreadId}
    (hreturn : m.dispatcher.isLoop = true → m.tasksReturn schedule = true) :
    Promised owner (m.run schedule) := by
  induction schedule generalizing m with
  | nil => exact hp
  | cons t rest ih =>
    -- over a queue the assumption says nothing, and is not needed
    have hfirst : m.dispatcher.isLoop = true → m.taskPanics t = false := by
      intro hloop
      have := hreturn hloop
      rw [tasksReturn, Bool.and_eq_true, Bool.not_eq_true'] at this
      exact this.1
    have hrest : m.dispatcher.isLoop = true → ((m.step t).getD m).tasksReturn rest = true := by
      intro hloop
      have := hreturn hloop
      rw [tasksReturn, Bool.and_eq_true] at this
      exact this.2
    show Promised owner (((m.step t).getD m).run rest)
    cases hs : m.step t with
    | none =>
      rw [hs] at hrest
      exact ih h hp hrest
    | some m₁ =>
      have ht := turn_of_step hs
      rw [hs] at hrest
      exact ih (h.step ht) (hp.step h ht hfirst) fun hloop =>
        hrest ((h.isLoop_eq ht).symm.trans hloop)

/-- What a waiting call returns when it looks again at a startup that is decided. -/
theorem step_awaiting {origin : Origin} {below : List Frame} {result : Except StartupError E}
    (hs : m.stack t = .awaitingStartup origin :: below) (hawake : t ∉ m.sleepers)
    (hr : m.coordinator.recheck = some result) :
    m.step t = some ((m.answer t origin (.engine result)).withStack t below) :=
  step_of_acts hs (.aside (.woken hawake hr))

/-- A call that waits has nothing to wait for once startup is decided. -/
theorem Promised.returns (hp : Promised owner m) (h : Sound initializer owner m)
    (hdecided : m.coordinator.phase = .starting → m.coordinator.failure ≠ none)
    {origin : Origin} {below : List Frame}
    (hs : m.stack t = .awaitingStartup origin :: below) :
    (∃ e, m.coordinator.engine = some e ∧
      m.step t = some ((m.answer t origin (.engine (.ok e))).withStack t below)) ∨
    ∃ reason, m.coordinator.failure = some reason ∧
      m.step t = some
        ((m.answer t origin (.engine (.error (.poisoned reason)))).withStack t below) := by
  -- Nobody sleeps once startup is decided.
  have hawake : t ∉ m.sleepers := by
    intro hmem
    obtain ⟨hstarting, hnone⟩ := hp.asleep (List.ne_nil_of_mem hmem)
    exact hdecided hstarting hnone
  have hrequested : m.coordinator.phase ≠ .notStarted :=
    h.fits t (.awaitingStartup origin) (hs ▸ List.mem_cons_self)
  by_cases hstarted : m.coordinator.phase = .started
  · obtain ⟨e, he⟩ := h.started_iff.1 hstarted
    refine .inl ⟨e, he, step_awaiting hs hawake ?_⟩
    rw [Coordinator.recheck, if_pos (Phase.isStarted_iff.2 hstarted), Coordinator.published, he]
  · -- Startup has been asked for and has not succeeded, so that it has failed.
    have hstarting : m.coordinator.phase = .starting := by
      cases hphase : m.coordinator.phase with
      | notStarted => exact absurd hphase hrequested
      | starting => rfl
      | started => exact absurd hphase hstarted
    obtain ⟨reason, hf⟩ := Option.ne_none_iff_exists'.1 (hdecided hstarting)
    refine .inr ⟨reason, hf, step_awaiting hs hawake ?_⟩
    rw [Coordinator.recheck, Coordinator.isStarted_eq_false hstarted, hf]
    rfl

/-- **No waiter is stranded.** On every run over a queue, and on every run over a loop on which no
task panics:

* while startup is asked for and not decided, its task is queued, or the owner thread has taken it
  and is about to execute it;
* a waiting call that cannot go on is waiting for just that;
* where nothing is queued and the owner is between tasks, every waiting call can go on, and returns
  the engine or the reason why there is none. -/
theorem nobody_stranded (s : Setup σ E) (schedule : List ThreadId)
    (hreturn : s.loops = true → s.machine.tasksReturn schedule = true) :
    let m := s.machine.run schedule
    (m.coordinator.phase = .starting → m.coordinator.failure = none →
      .startup ∈ m.dispatcher.tasks ∨ ∃ below, m.stack s.owner.thread = .startup :: below) ∧
    (∀ t origin below, m.stack t = .awaitingStartup origin :: below → m.step t = none →
      m.coordinator.phase = .starting ∧ m.coordinator.failure = none) ∧
    (m.dispatcher.tasks = [] → m.betweenTasks = true →
      ∀ t origin below, m.stack t = .awaitingStartup origin :: below →
        (∃ e, m.coordinator.engine = some e ∧
          m.step t = some ((m.answer t origin (.engine (.ok e))).withStack t below)) ∨
        ∃ reason, m.coordinator.failure = some reason ∧
          m.step t = some
            ((m.answer t origin (.engine (.error (.poisoned reason)))).withStack t below)) := by
  intro m
  have h : Sound s.initializer s.owner m := sound_run s schedule
  -- The promise holds along the run: a startup that is asked for is queued or being performed.
  have hp : Promised s.owner m := by
    refine promised_run (sound_machine s) (promised_machine s) fun hloop => hreturn ?_
    exact s.isLoop_dispatcher.symm.trans hloop
  refine ⟨fun hstarting hnone => ?_, fun t origin below hs hblocked => ?_,
    fun hempty hbetween t origin below hs => ?_⟩
  · rcases hp.pledged hstarting hnone with hpos | ⟨f, below, hstack, -⟩
    · exact .inl ((Dispatcher.mem_tasks_iff _).2 hpos)
    · exact .inr ⟨_, hstack⟩
  · -- a waiting call that could not go on after a decision would contradict its next step
    have hundecided : ¬ (m.coordinator.phase = .starting → m.coordinator.failure ≠ none) := by
      intro hdecided
      rcases hp.returns h hdecided hs with ⟨e, -, hstep⟩ | ⟨reason, -, hstep⟩
      all_goals
        rw [hblocked] at hstep
        cases hstep
    simp only [ne_eq, Classical.not_imp, Classical.not_not] at hundecided
    exact hundecided
  · refine hp.returns h (fun hstarting hnone => ?_) hs
    rcases hp.pledged hstarting hnone with hpos | ⟨f, below', hstack, hf⟩
    · rw [← Dispatcher.mem_tasks_iff, hempty] at hpos
      cases hpos
    · -- the startup task lies on the frame that took it
      rw [betweenTasks, h.owner_eq, hstack, List.tail_cons, List.all_cons, hf] at hbetween
      cases hbetween

/-- A thread that waits for a loop to start the engine. When the loop has done so, the thread can
go on. -/
theorem nobody_stranded_over_loop :
    let s : Setup Unit Nat :=
      { initializer := fun host => (.engine 7, host)
        host := ()
        owner := ⟨0, none⟩
        loops := true
        scripts := [[], [.ensureStarted .none]] }
    s.machine.tasksReturn [1, 1, 0, 0, 0] = true ∧
    (s.machine.run [1, 1, 0, 0, 0]).stack 1 = [.awaitingStartup .caller, .script .caller []] ∧
    (s.machine.run [1, 1, 0, 0, 0]).step 1 ≠ none := by
  intro s
  have hreturn : s.machine.tasksReturn [1, 1, 0, 0, 0] = true := by decide +kernel
  have hstack : (s.machine.run [1, 1, 0, 0, 0]).stack 1
      = [.awaitingStartup .caller, .script .caller []] := by cbv
  have hempty : (s.machine.run [1, 1, 0, 0, 0]).dispatcher.tasks = [] := by cbv
  have hbetween : (s.machine.run [1, 1, 0, 0, 0]).betweenTasks = true := by decide +kernel
  refine ⟨hreturn, hstack, fun hblocked => ?_⟩
  have h := nobody_stranded s [1, 1, 0, 0, 0] fun _ => hreturn
  rcases h.2.2 hempty hbetween 1 .caller _ hstack with ⟨e, -, hstep⟩ | ⟨reason, -, hstep⟩
  all_goals
    rw [hblocked] at hstep
    cases hstep

end Machine

end LazyEngine
