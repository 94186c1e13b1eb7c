/-
Closures that are run on the owner thread.

Whoever hands the owner thread a closure gets back its value, or is told that there is none. On the
owner thread itself the closure is run at once. From another thread it goes through the queue, and
the value comes back as a reply, unless the closure is refused, dropped with a loop that dies, or
left by a panic.

* `Finishes`, `Breaks`, `Drops`, `Occurs` — the steps on which the reply depends, and that a run has
  one of them;
* `Reached.standing` — a closure that has been accepted is queued, or begun, or one of those steps
  has given its reply;
* `Fulfilled`, `RunInline` — what comes of a closure, on another thread and on the owner thread;
* `HandsOver` — the step that queues a closure, which for a queue comes after the look at it;
* **`run_on_owner_completes`** — all of it, for every dispatcher at every moment of every run.

Design notes: a closure that has been accepted is told by the number of its reply, which no other
closure has. One that has been refused has no number, and nothing of it is left but the answer.
-/
import LazyEngine.Proofs.Startup.Pumping
import LazyEngine.Proofs.Startup.Replies

namespace LazyEngine

/-- A panic that passes a frame which owes a reply drops the reply. -/
theorem Frame.mem_lost {above below : List Frame} {id : ReplyId} {value : String}
    (hguard : .guard ∉ above) (hserving : .serving ∉ above) :
    id ∈ (unwind (above ++ .sending id value :: below)).lost := by
  induction above with
  | nil => exact List.mem_cons_self
  | cons f above ih =>
    have hrest := ih (fun h => hguard (List.mem_cons_of_mem _ h))
      (fun h => hserving (List.mem_cons_of_mem _ h))
    cases f with
    | guard => exact absurd List.mem_cons_self hguard
    | serving => exact absurd List.mem_cons_self hserving
    | sending id' => exact List.mem_cons_of_mem id' hrest
    | _ => exact hrest

/-- Two queued closures with one reply are one closure. -/
theorem Task.eq_of_reply? {tasks : List Task} (hdistinct : (tasks.filterMap reply?).Nodup)
    {task task' : Task} (h : task ∈ tasks) (h' : task' ∈ tasks) {id : ReplyId}
    (hid : task.reply? = some id) (hid' : task'.reply? = some id) : task = task' := by
  induction tasks with
  | nil => cases h
  | cons first rest ih =>
    have honly {a b : Task} (ha : a = first) (hb : b ∈ rest) (hida : a.reply? = some id)
        (hidb : b.reply? = some id) : False := by
      subst ha
      rw [List.filterMap_cons_some hida, List.nodup_cons] at hdistinct
      exact hdistinct.1 (List.mem_filterMap.2 ⟨b, hb, hidb⟩)
    have hrest : (rest.filterMap reply?).Nodup :=
      hdistinct.sublist ((List.sublist_cons_self first rest).filterMap reply?)
    rcases List.mem_cons.1 h with heq | hmem <;> rcases List.mem_cons.1 h' with heq' | hmem'
    · rw [heq, heq']
    · exact (honly heq hmem' hid hid').elim
    · exact (honly heq' hmem hid' hid).elim
    · exact ih hrest hmem hmem'

namespace Reply

/-- What a call returns that waits for the reply; `none` if it has to wait on. -/
def outcome? : Reply → Option (Except StartupError String)
  | awaited => none
  | sent value => some (.ok value)
  | dropped => some (.error DispatchRefusal.taskDropped.error)

variable {r? : Option Reply}

theorem outcome?_eq_ok_iff {value : String} :
    r?.bind outcome? = some (.ok value) ↔ r? = some (.sent value) := by
  cases r? with
  | none => simp
  | some r => cases r <;> simp [outcome?]

theorem outcome?_eq_error_iff {e : StartupError} :
    r?.bind outcome? = some (.error e) ↔
      e = DispatchRefusal.taskDropped.error ∧ r? = some .dropped := by
  cases r? with
  | none => simp
  | some r => cases r <;> simp [outcome?, eq_comm]

theorem outcome?_eq_none_iff (h : r?.isSome = true) :
    r?.bind outcome? = none ↔ r? = some .awaited := by
  cases r? with
  | none => cases h
  | some r => cases r <;> simp [outcome?]

end Reply

namespace Machine

variable {σ E : Type} {m m' x : Machine σ E} {t u : ThreadId} {s : Setup σ E}
  {id : ReplyId} {value : String} {origin : Origin} {calls : List Call}

/-! ### Steps on which a reply depends -/

/-- The closure has run to its end, and the step sends its value. -/
def Finishes (id : ReplyId) (value : String) (m : Machine σ E) (t : ThreadId) : Prop :=
  ∃ below, m.stack t = .sending id value :: below

/-- The step is a panic that comes out of the closure. -/
def Breaks (id : ReplyId) (value : String) (m : Machine σ E) (t : ThreadId) : Prop :=
  ∃ origin message calls above below,
    m.stack t = .script origin (.panic message :: calls) :: (above ++ .sending id value :: below) ∧
      .guard ∉ above

/-- The step is a panic of which the thread of a loop dies, with the task in its queue. -/
def Drops (task : Task) (m : Machine σ E) (t : ThreadId) : Prop :=
  task ∈ m.dispatcher.tasks ∧ m.taskPanics t = true

/-- A run has a step of some kind. -/
def Occurs (x : Machine σ E) (kind : Machine σ E → ThreadId → Prop) (schedule : List ThreadId) :
    Prop :=
  ∃ before t after, schedule = before ++ t :: after ∧ kind (x.run before) t

namespace Occurs

variable {kind : Machine σ E → ThreadId → Prop} {schedule : List ThreadId}

theorem concat (h : x.Occurs kind schedule) (t : ThreadId) : x.Occurs kind (schedule ++ [t]) := by
  obtain ⟨before, u, after, rfl, hkind⟩ := h
  exact ⟨before, u, after ++ [t], by rw [List.append_assoc, List.cons_append], hkind⟩

theorem last (h : kind (x.run schedule) t) : x.Occurs kind (schedule ++ [t]) :=
  ⟨schedule, t, [], rfl, h⟩

end Occurs

theorem log_panic (m : Machine σ E) (t : ThreadId) (message : String) (stack : List Frame) :
    (m.panic t message stack).log = .panicked t message :: m.log := by
  unfold panic
  dsimp only
  split <;> rfl

/-- Whoever takes tasks begins the one that is taken. -/
theorem step_of_take {f : Frame} {below : List Frame} {task : Task} {d : Dispatcher Task}
    (hs : m.stack t = f :: below) (hf : f.takesTasks = true)
    (htake : m.dispatcher.take? = some (task, d)) :
    ∃ m' rest, m.step t = some m' ∧ m'.dispatcher = d ∧ m'.stack t = task.frames ++ rest := by
  have hbegun (g : Frame) : task.frames ++ [g] ++ below = task.frames ++ g :: below :=
    List.append_assoc ..
  cases f with
  | pumping taken origin =>
    exact ⟨_, _, step_of_acts hs (.took .pumping htake), rfl,
      (stack_withStack_self rfl hs _).trans (hbegun _)⟩
  | serving =>
    exact ⟨_, _, step_of_acts hs (.took .serving htake), rfl,
      (stack_withStack_self rfl hs _).trans (hbegun _)⟩
  | _ => cases hf

/-- A closure that is posted has the number that comes next. -/
theorem reply?_of_nextPost {task : Task} {admitted : Bool}
    (h : m.nextPost t = some (admitted, task)) (hid : task.reply? = some id) :
    id = m.replies.length := by
  obtain ⟨f, -, hpost⟩ := Option.bind_eq_some_iff.1 h
  unfold posting at hpost
  split at hpost
  · cases hpost
    cases hid
  · split at hpost
    · cases hpost
    · cases hpost
      cases hid
      rfl
  · rename_i posting _
    cases hpost
    cases posting <;> cases hid
    rfl
  -- startup has no reply
  all_goals first | cases hpost | (split at hpost <;> cases hpost; cases hid)

/-- A closure that a step takes was queued, and is queued no more; nor does a step queue a closure
with a number that has been given. -/
theorem count_of_step (hid : id < m.replies.length) (hstep : m.step t = some m') :
    ((m.executed [t]).filterMap Task.reply?).count id + m'.queuedReplies.count id
      ≤ m.queuedReplies.count id := by
  have hexecuted : m.executed [t] = ((m.traffic t).bind Traffic.taken?).toList :=
    (executed_cons hstep []).trans (List.append_nil _)
  rw [hexecuted, queuedReplies, queuedReplies]
  rcases tasks_of_step hstep with
    ⟨task, htaken, heq⟩ | ⟨htaken, heq | ⟨task, admitted, hnext, heq⟩ | ⟨-, heq⟩⟩
  · rw [htaken, heq, ← List.count_append, ← List.filterMap_append]
    exact Nat.le_refl _
  · rw [htaken, heq]
    simp
  · have hother : ([task].filterMap Task.reply?).count id = 0 := by
      rw [List.count_eq_zero, List.mem_filterMap]
      rintro ⟨task', hmem, hreply⟩
      obtain rfl := List.mem_singleton.1 hmem
      exact absurd hid (reply?_of_nextPost hnext hreply ▸ Nat.lt_irrefl _)
    rw [htaken, heq, List.filterMap_append, List.count_append, hother]
    simp
  · rw [htaken, heq]
    simp

namespace Reached

/-- A reply that somebody owes has not been given. -/
theorem awaited_of_queued (h : Reached s m) {task : Task} (hmem : task ∈ m.dispatcher.tasks)
    (hid : task.reply? = some id) : m.replies[id]? = some .awaited :=
  (accountable_of_reached h).balanced.awaited id
    (List.mem_append_right _ (List.mem_filterMap.2 ⟨task, hmem, hid⟩))

theorem awaited_of_begun (h : Reached s m) (hmem : .sending id value ∈ m.stack s.owner.thread) :
    m.replies[id]? = some .awaited :=
  (accountable_of_reached h).balanced.awaited id
    (List.mem_append_left _ (List.mem_filterMap.2 ⟨_, hmem, rfl⟩))

/-- Only the owner thread owes values. -/
theorem eq_owner_of_sending (h : Reached s m) (hmem : .sending id value ∈ m.stack t) :
    t = s.owner.thread := by
  refine Classical.byContradiction fun ht => ?_
  have hnothing := (accountable_of_reached h).elsewhere t ht
  have howed : id ∈ Frame.debts (m.stack t) := List.mem_filterMap.2 ⟨_, hmem, rfl⟩
  rw [hnothing] at howed
  cases howed

theorem step_of_finishes (h : Reached s m) (hfinishes : Finishes id value m t) :
    ∃ m', m.step t = some m' ∧ m'.replies[id]? = some (.sent value) := by
  obtain ⟨below, hs⟩ := hfinishes
  refine ⟨_, step_of_acts hs .sent, ?_⟩
  have hmem : .sending id value ∈ m.stack t := hs ▸ List.mem_cons_self
  obtain rfl := h.eq_owner_of_sending hmem
  exact List.getElem?_set_self (List.getElem?_eq_some_iff.1 (h.awaited_of_begun hmem)).1

theorem step_of_breaks (h : Reached s m) (hbreaks : Breaks id value m t) :
    ∃ m', m.step t = some m' ∧ m'.replies[id]? = some .dropped := by
  obtain ⟨origin, message, calls, above, below, hs, hguard⟩ := hbreaks
  refine ⟨_, step_of_panics hs, ?_⟩
  have hmem : .sending id value ∈ m.stack t := by
    rw [hs]
    exact List.mem_cons_of_mem _ (List.mem_append_right _ List.mem_cons_self)
  obtain rfl := h.eq_owner_of_sending hmem
  have hserving : .serving ∉ above := (hs ▸ h.servesLast s.owner.thread).tail.notMem
  rw [replies_panic]
  exact Reply.getElem?_dropAll_of_mem (List.mem_append_left _ (Frame.mem_lost hguard hserving))
    (List.getElem?_eq_some_iff.1 (h.awaited_of_begun hmem)).1

theorem step_of_drops (h : Reached s m) {task : Task} (hid : task.reply? = some id)
    (hdrops : Drops task m t) : ∃ m', m.step t = some m' ∧ m'.replies[id]? = some .dropped := by
  obtain ⟨hmem, hpanics⟩ := hdrops
  obtain ⟨origin, message, calls, below, hs, hl⟩ := stack_of_taskPanics hpanics
  refine ⟨_, step_of_panics hs, ?_⟩
  have hloop : (Frame.unwind below).landing.isLoop = true := Landing.isLoop_iff.2 hl
  rw [replies_panic, hloop]
  exact Reply.getElem?_dropAll_of_mem
    (List.mem_append_right _ (List.mem_filterMap.2 ⟨task, hmem, hid⟩))
    (List.getElem?_eq_some_iff.1 (h.awaited_of_queued hmem hid)).1

/-! ### What becomes of a closure -/

/-- A closure that is queued stays so until it is taken, unless the loop dies. -/
theorem queued_step (h : Reached s m)
    (hmem : .reply id value origin calls ∈ m.dispatcher.tasks) (hstep : m.step t = some m') :
    .reply id value origin calls ∈ m'.dispatcher.tasks ∨
      .sending id value ∈ m'.stack s.owner.thread ∨
      Drops (.reply id value origin calls) m t := by
  rcases tasks_of_step hstep with ⟨task, htaken, heq⟩ | ⟨-, heq | ⟨task, -, -, heq⟩ | ⟨hpanics, -⟩⟩
  · rw [heq] at hmem
    rcases List.mem_cons.1 hmem with rfl | hmem
    · obtain ⟨f, below, _, hs, hf, htake⟩ := queued_of_taken (taken_of_traffic htaken)
      obtain rfl := h.sound.eq_owner_of_takesTasks hs hf
      obtain ⟨m₁, rest, hnext, -, hs₁⟩ := step_of_take hs hf htake
      cases hnext.symm.trans hstep
      rw [hs₁]
      exact .inr (.inl (List.mem_append_left _ (List.mem_cons_of_mem _ List.mem_cons_self)))
    · exact .inl hmem
  · exact .inl (heq ▸ hmem)
  · rw [heq]
    exact .inl (List.mem_append_left _ hmem)
  · exact .inr (.inr ⟨hmem, hpanics⟩)

/-- A closure that has been begun stays so until its value is sent, unless a panic comes out of
it. -/
theorem begun_step (h : Reached s m) (hmem : .sending id value ∈ m.stack s.owner.thread)
    (hstep : m.step t = some m') :
    .sending id value ∈ m'.stack s.owner.thread ∨ Finishes id value m t ∨ Breaks id value m t := by
  by_cases ht : t = s.owner.thread
  · subst ht
    obtain ⟨above, below, hs⟩ := List.append_of_mem hmem
    cases above with
    | nil => exact .inr (.inl ⟨below, hs⟩)
    | cons f above =>
      have hserving : .serving ∉ f :: above := (hs ▸ h.servesLast s.owner.thread).notMem
      rcases step_above hstep hs hserving with
        ⟨above', hs', -⟩ | ⟨⟨origin, message, calls, rfl⟩, hguard, -⟩
      · rw [hs']
        exact .inl (List.mem_append_right _ List.mem_cons_self)
      · exact .inr (.inr ⟨origin, message, calls, above, below, hs, hguard⟩)
  · rw [h.sound.stack_of_step hstep (Ne.symm ht)]
    exact .inl hmem

/-- **A closure that has been accepted is queued, or has been begun, or its reply has been given**:
its value when it has run to its end, and else that it was dropped. -/
theorem standing (h : Reached s x) (hmem : .reply id value origin calls ∈ x.dispatcher.tasks)
    (schedule : List ThreadId) :
    .reply id value origin calls ∈ (x.run schedule).dispatcher.tasks ∨
    .sending id value ∈ (x.run schedule).stack s.owner.thread ∨
    (x.Occurs (Finishes id value) schedule ∧
      (x.run schedule).replies[id]? = some (.sent value)) ∨
    ((x.Occurs (Breaks id value) schedule ∨
        x.Occurs (Drops (.reply id value origin calls)) schedule) ∧
      (x.run schedule).replies[id]? = some .dropped) := by
  induction schedule using List.reverseRecOn with
  | nil => exact .inl hmem
  | append_singleton schedule t ih =>
    have hreached := h.run schedule
    rw [run_concat]
    cases hstep : (x.run schedule).step t with
    | none =>
      rw [Option.getD_none]
      refine ih.imp_right (Or.imp_right (Or.imp ?_ ?_))
      · exact fun ⟨hoccurs, hr⟩ => ⟨hoccurs.concat t, hr⟩
      · exact fun ⟨hoccurs, hr⟩ => ⟨hoccurs.imp (·.concat t) (·.concat t), hr⟩
    | some m' =>
      rw [Option.getD_some]
      have hbooked := (accountable_of_reached hreached).booked hreached hstep
      have hbalanced := (accountable_of_reached hreached).balanced
      -- What a step does to each standing: a queued closure is begun or dropped, one that has been
      -- begun finishes or breaks, and a reply that has been given is not given again.
      rcases ih with hqueued | hbegun | ⟨hoccurs, hr⟩ | ⟨hoccurs, hr⟩
      · rcases hreached.queued_step hqueued hstep with hqueued | hbegun | hdrops
        · exact .inl hqueued
        · exact .inr (.inl hbegun)
        · obtain ⟨m₁, hnext, hr⟩ := hreached.step_of_drops rfl hdrops
          cases hnext.symm.trans hstep
          exact .inr (.inr (.inr ⟨.inr (.last hdrops), hr⟩))
      · rcases hreached.begun_step hbegun hstep with hbegun | hfinishes | hbreaks
        · exact .inr (.inl hbegun)
        · obtain ⟨m₁, hnext, hr⟩ := hreached.step_of_finishes hfinishes
          cases hnext.symm.trans hstep
          exact .inr (.inr (.inl ⟨.last hfinishes, hr⟩))
        · obtain ⟨m₁, hnext, hr⟩ := hreached.step_of_breaks hbreaks
          cases hnext.symm.trans hstep
          exact .inr (.inr (.inr ⟨.inl (.last hbreaks), hr⟩))
      · have hr' := hbooked.settled hbalanced hr (by simp)
        exact .inr (.inr (.inl ⟨hoccurs.concat t, hr'⟩))
      · have hr' := hbooked.settled hbalanced hr (by simp)
        exact .inr (.inr (.inr ⟨hoccurs.imp (·.concat t) (·.concat t), hr'⟩))

/-- What a step of some kind does to a reply stays done. -/
theorem replies_of_occurs (h : Reached s x) {kind : Machine σ E → ThreadId → Prop} {r : Reply}
    (hgiven : r ≠ .awaited)
    (hkind : ∀ m t, Reached s m → kind m t →
      ∃ m', m.step t = some m' ∧ m'.replies[id]? = some r) {schedule : List ThreadId}
    (hoccurs : x.Occurs kind schedule) : (x.run schedule).replies[id]? = some r := by
  obtain ⟨before, t, after, rfl, hstep⟩ := hoccurs
  obtain ⟨m', hnext, hr⟩ := hkind _ t (h.run before) hstep
  have hreached := (h.run before).step hnext
  rw [run_of_step hnext]
  exact hreached.settled hr hgiven after

section
variable (h : Reached s x) (hmem : .reply id value origin calls ∈ x.dispatcher.tasks)
variable {schedule : List ThreadId}
include h hmem

theorem replies_sent_iff {v : String} :
    (x.run schedule).replies[id]? = some (.sent v) ↔
      v = value ∧ x.Occurs (Finishes id value) schedule := by
  constructor
  · intro hr
    rcases h.standing hmem schedule with hqueued | hbegun | ⟨hoccurs, hr'⟩ | ⟨-, hr'⟩
    · cases hr.symm.trans ((h.run schedule).awaited_of_queued hqueued rfl)
    · cases hr.symm.trans ((h.run schedule).awaited_of_begun hbegun)
    · cases hr.symm.trans hr'
      exact ⟨rfl, hoccurs⟩
    · cases hr.symm.trans hr'
  · rintro ⟨rfl, hoccurs⟩
    exact h.replies_of_occurs (by simp) (fun _ _ h => h.step_of_finishes) hoccurs

theorem replies_dropped_iff :
    (x.run schedule).replies[id]? = some .dropped ↔ x.Occurs (Breaks id value) schedule ∨
      x.Occurs (Drops (.reply id value origin calls)) schedule := by
  constructor
  · intro hr
    rcases h.standing hmem schedule with hqueued | hbegun | ⟨-, hr'⟩ | ⟨hoccurs, -⟩
    · cases hr.symm.trans ((h.run schedule).awaited_of_queued hqueued rfl)
    · cases hr.symm.trans ((h.run schedule).awaited_of_begun hbegun)
    · cases hr.symm.trans hr'
    · exact hoccurs
  · rintro (hoccurs | hoccurs)
    · exact h.replies_of_occurs (by simp) (fun _ _ h => h.step_of_breaks) hoccurs
    · exact h.replies_of_occurs (by simp) (fun _ _ h => h.step_of_drops rfl) hoccurs

theorem replies_awaited_iff :
    (x.run schedule).replies[id]? = some .awaited ↔
      .reply id value origin calls ∈ (x.run schedule).dispatcher.tasks ∨
        .sending id value ∈ (x.run schedule).stack s.owner.thread := by
  constructor
  · intro hr
    rcases h.standing hmem schedule with hqueued | hbegun | ⟨-, hr'⟩ | ⟨-, hr'⟩
    · exact .inl hqueued
    · exact .inr hbegun
    · cases hr.symm.trans hr'
    · cases hr.symm.trans hr'
  · rintro (hqueued | hbegun)
    · exact (h.run schedule).awaited_of_queued hqueued rfl
    · exact (h.run schedule).awaited_of_begun hbegun

end

/-! ### How often a closure is run -/

theorem length_replies_le (h : Reached s x) (schedule : List ThreadId) :
    x.replies.length ≤ (x.run schedule).replies.length := by
  refine h.induction (P := fun m => x.replies.length ≤ m.replies.length) (Nat.le_refl _) ?_ schedule
  intro m t m' hreached hle hstep
  exact hle.trans ((accountable_of_reached hreached).booked hreached hstep).length_le

/-- A closure that has been taken is not queued any more. -/
theorem count_executed_add (h : Reached s x) (hid : id < x.replies.length)
    (schedule : List ThreadId) :
    ((x.executed schedule).filterMap Task.reply?).count id
      + (x.run schedule).queuedReplies.count id ≤ 1 := by
  induction schedule using List.reverseRecOn with
  | nil =>
    have hdistinct := (accountable_of_reached h).balanced.distinct
    show 0 + x.queuedReplies.count id ≤ 1
    rw [Nat.zero_add]
    exact List.nodup_iff_count_le_one.1 (List.nodup_append.1 hdistinct).2.1 id
  | append_singleton schedule u ih =>
    rw [run_concat, executed_append, List.filterMap_append, List.count_append]
    cases hstep : (x.run schedule).step u with
    | none =>
      have hnothing : (x.run schedule).executed [u] = [] := by
        rw [executed, account, hstep]
        rfl
      rw [hnothing]
      exact ih
    | some m' =>
      have hcount := count_of_step (hid.trans_le (h.length_replies_le schedule)) hstep
      rw [Option.getD_some]
      omega

/-- No closure is taken twice. -/
theorem count_executed (h : Reached s x) (hid : id < x.replies.length)
    (schedule : List ThreadId) : ((x.executed schedule).filterMap Task.reply?).count id ≤ 1 :=
  (Nat.le_add_right _ _).trans (h.count_executed_add hid schedule)

/-- What is taken with the number of a closure is that closure, and the owner thread begins it. -/
theorem step_of_taken (h : Reached s x)
    (hmem : .reply id value origin calls ∈ x.dispatcher.tasks) {schedule : List ThreadId}
    {task : Task} (htaken : (x.run schedule).traffic u = some (.taken task))
    (hid : task.reply? = some id) :
    u = s.owner.thread ∧ task = .reply id value origin calls ∧
      ∃ m' rest, (x.run schedule).step u = some m' ∧
        m'.stack u = .script origin calls :: .sending id value :: rest := by
  have hreached := h.run schedule
  obtain ⟨f, below, rest, hs, hf, htake⟩ := queued_of_taken (taken_of_traffic htaken)
  have hhead : task ∈ (x.run schedule).dispatcher.tasks := by
    rw [Dispatcher.take?_tasks htake]
    exact List.mem_cons_self
  have hawaited := hreached.awaited_of_queued hhead hid
  have hdistinct := (accountable_of_reached hreached).balanced.distinct
  have hqueued : .reply id value origin calls ∈ (x.run schedule).dispatcher.tasks := by
    rcases h.standing hmem schedule with hqueued | hbegun | ⟨-, hr⟩ | ⟨-, hr⟩
    · exact hqueued
    · -- it would be owed twice
      exact absurd rfl ((List.nodup_append.1 hdistinct).2.2 id
        (List.mem_filterMap.2 ⟨_, hbegun, rfl⟩) id (List.mem_filterMap.2 ⟨task, hhead, hid⟩))
    · cases hr.symm.trans hawaited
    · cases hr.symm.trans hawaited
  obtain rfl := Task.eq_of_reply? (List.nodup_append.1 hdistinct).2.1 hhead hqueued hid rfl
  obtain ⟨m', rest', hstep, -, hs'⟩ := step_of_take hs hf htake
  exact ⟨hreached.sound.eq_owner_of_takesTasks hs hf, rfl, m', rest', hstep, hs'⟩

end Reached

/-! ### The thread that waits -/

/-- Answers that leave the same machine are the same. -/
theorem answer_injective {a a' : Answer E} {rest : List Frame}
    (h : (m.answer t origin a).withStack t rest = (m.answer t origin a').withStack t rest) :
    a = a' := by
  have hlog : Event.answered t origin a :: m.log = .answered t origin a' :: m.log :=
    congrArg Machine.log h
  cases hlog
  rfl

section
variable {rest : List Frame} (hs : m.stack t = .awaitingReply id origin :: rest)
include hs

/-- A thread that waits for a reply returns when the reply has been given. -/
theorem step_awaiting_eq : m.step t = (m.replies[id]?.bind Reply.outcome?).map fun outcome =>
    (m.answer t origin (.returned outcome)).withStack t rest := by
  rw [step, hs, stepFrom, frame]
  cases m.replies[id]? with
  | none => rfl
  | some r => cases r <;> rfl

theorem step_awaiting_iff {outcome : Except StartupError String} :
    m.step t = some ((m.answer t origin (.returned outcome)).withStack t rest) ↔
      m.replies[id]?.bind Reply.outcome? = some outcome := by
  rw [step_awaiting_eq hs, Option.map_eq_some_iff]
  constructor
  · rintro ⟨outcome', hr, heq⟩
    cases answer_injective heq
    exact hr
  · exact fun hr => ⟨outcome, hr, rfl⟩

end

/-- What comes of a closure that has been accepted, for the thread that waits for it with some
frames left for later. -/
structure Fulfilled (x : Machine σ E) (owner t : ThreadId) (id : ReplyId) (value : String)
    (origin : Origin) (calls : List Call) (later : List Frame) : Prop where
  /-- It is taken once at most. -/
  once (schedule : List ThreadId) : ((x.executed schedule).filterMap Task.reply?).count id ≤ 1
  /-- It is taken by the owner thread, and what that thread does next is the closure. -/
  begins (schedule : List ThreadId) (u : ThreadId) (task : Task) :
    (x.run schedule).traffic u = some (.taken task) → task.reply? = some id →
    u = owner ∧ task = .reply id value origin calls ∧
      ∃ m' below, (x.run schedule).step u = some m' ∧
        m'.stack u = .script origin calls :: .sending id value :: below
  /-- The call returns a value exactly when the closure has run to its end, and that value. -/
  returns (schedule : List ThreadId) (v : String) : x.InCall t later schedule →
    ((x.run schedule).step t = some (((x.run schedule).answer t origin
        (.returned (.ok v))).withStack t later) ↔
      v = value ∧ x.Occurs (Finishes id value) schedule)
  /-- It returns an error exactly when a panic has come out of the closure, or the closure has been
  dropped with the loop. -/
  fails (schedule : List ThreadId) (e : StartupError) : x.InCall t later schedule →
    ((x.run schedule).step t = some (((x.run schedule).answer t origin
        (.returned (.error e))).withStack t later) ↔
      e = DispatchRefusal.taskDropped.error ∧ (x.Occurs (Breaks id value) schedule ∨
        x.Occurs (Drops (.reply id value origin calls)) schedule))
  /-- Until then it waits, and the closure is queued or has been begun. -/
  waits (schedule : List ThreadId) : x.InCall t later schedule →
    ((x.run schedule).step t = none ↔
      .reply id value origin calls ∈ (x.run schedule).dispatcher.tasks ∨
        .sending id value ∈ (x.run schedule).stack owner)

namespace Reached

variable {later : List Frame} {schedule : List ThreadId}

/-- A call that waits for a reply ends in no other way. -/
theorem stack_waiting (h : Reached s x) (hs : x.stack t = .awaitingReply id origin :: later)
    (hcall : x.InCall t later schedule) :
    (x.run schedule).stack t = .awaitingReply id origin :: later := by
  induction schedule using List.reverseRecOn with
  | nil => exact hs
  | append_singleton schedule u ih =>
    have hwaits := ih hcall.init
    have hlength := hcall _ (List.prefix_refl _)
    rw [run_concat] at hlength ⊢
    cases hstep : (x.run schedule).step u with
    | none => exact hwaits
    | some m' =>
      rw [hstep, Option.getD_some] at hlength
      by_cases hu : u = t
      · subst hu
        -- a step of the thread itself would be the end of the call
        have hreturns : m'.stack u = later := by
          rw [step_awaiting_eq hwaits, Option.map_eq_some_iff] at hstep
          obtain ⟨outcome, -, rfl⟩ := hstep
          exact stack_withStack_self (threads_answer ..) hwaits _
        rw [hreturns] at hlength
        exact absurd hlength (Nat.lt_irrefl _)
      · rw [Option.getD_some, ← hwaits]
        exact (h.run schedule).sound.stack_of_step hstep (Ne.symm hu)

theorem fulfilled (h : Reached s x) (hid : id < x.replies.length)
    (hmem : .reply id value origin calls ∈ x.dispatcher.tasks)
    (hs : x.stack t = .awaitingReply id origin :: later) :
    x.Fulfilled s.owner.thread t id value origin calls later where
  once schedule := h.count_executed hid schedule
  begins schedule u task htaken htask := h.step_of_taken hmem htaken htask
  returns schedule v hcall := by
    rw [step_awaiting_iff (h.stack_waiting hs hcall), Reply.outcome?_eq_ok_iff,
      h.replies_sent_iff hmem]
  fails schedule e hcall := by
    rw [step_awaiting_iff (h.stack_waiting hs hcall), Reply.outcome?_eq_error_iff,
      h.replies_dropped_iff hmem]
  waits schedule hcall := by
    have hknown : ((x.run schedule).replies[id]?).isSome = true := by
      rw [List.getElem?_eq_getElem (hid.trans_le (h.length_replies_le schedule))]
      rfl
    rw [step_awaiting_eq (h.stack_waiting hs hcall), Option.map_eq_none_iff,
      Reply.outcome?_eq_none_iff hknown, h.replies_awaited_iff hmem]

end Reached

/-! ### The owner thread itself -/

/-- What comes of a closure that the owner thread runs at once, with some frames left for later. -/
structure RunInline (x : Machine σ E) (t : ThreadId) (value : String) (origin : Origin)
    (later : List Frame) : Prop where
  /-- As long as the call has not ended, there is nothing but the closure above the frame that hands
  on its value. -/
  runs (schedule : List ThreadId) : x.InCall t later schedule →
    ∃ above, (x.run schedule).stack t = above ++ .returning value origin :: later
  /-- The call returns a value exactly when the closure has run to its end, and that value. -/
  returns (schedule : List ThreadId) (v : String) : x.InCall t later schedule →
    ((x.run schedule).step t = some (((x.run schedule).answer t origin
        (.returned (.ok v))).withStack t later) ↔
      v = value ∧ (x.run schedule).stack t = .returning value origin :: later)
  /-- It ends in no other way, unless a panic comes out of the closure. -/
  ends (schedule : List ThreadId) : x.InCall t later schedule →
    ¬ x.InCall t later (schedule ++ [t]) →
    (x.run schedule).stack t = .returning value origin :: later ∨
    ∃ origin' message calls above, (x.run schedule).stack t
        = .script origin' (.panic message :: calls) :: (above ++ .returning value origin :: later) ∧
      .guard ∉ above

theorem step_returning {rest : List Frame} (hs : m.stack t = .returning value origin :: rest) :
    m.step t = some ((m.answer t origin (.returned (.ok value))).withStack t rest) :=
  step_of_acts hs (.aside .returned)

namespace Reached

variable {later : List Frame} {schedule : List ThreadId}

/-- A step of the thread while the closure goes on. -/
theorem step_inline (h : Reached s m) {f : Frame} {above : List Frame}
    (hs : m.stack t = f :: (above ++ .returning value origin :: later))
    (hstep : m.step t = some m') :
    (∃ above', m'.stack t = above' ++ .returning value origin :: later) ∨
      (m'.stack t).length ≤ later.length ∧ .guard ∉ above ∧
        ∃ origin message calls, f = .script origin (.panic message :: calls) := by
  rw [← List.cons_append] at hs
  have hserving : .serving ∉ f :: above := (hs ▸ h.servesLast t).notMem
  rcases step_above hstep hs hserving with ⟨above', hs', -⟩ | ⟨hpanic, hguard, hleft⟩
  · exact .inl ⟨above', hs'⟩
  · refine .inr ⟨?_, hguard, hpanic⟩
    rw [hleft]
    exact (Frame.left_suffix later).length_le

theorem stack_inline (h : Reached s x)
    (hs : ∃ above, x.stack t = above ++ .returning value origin :: later)
    (hcall : x.InCall t later schedule) :
    ∃ above, (x.run schedule).stack t = above ++ .returning value origin :: later := by
  induction schedule using List.reverseRecOn with
  | nil => exact hs
  | append_singleton schedule u ih =>
    obtain ⟨above, hbusy⟩ := ih hcall.init
    have hlength := hcall _ (List.prefix_refl _)
    rw [run_concat] at hlength ⊢
    cases hstep : (x.run schedule).step u with
    | none => exact ⟨above, hbusy⟩
    | some m' =>
      rw [hstep, Option.getD_some] at hlength
      rw [Option.getD_some]
      by_cases hu : u = t
      · subst hu
        cases above with
        | nil =>
          -- the closure is over, and so is the call
          cases (step_returning hbusy).symm.trans hstep
          rw [stack_withStack_self (threads_answer ..) hbusy] at hlength
          exact absurd hlength (Nat.lt_irrefl _)
        | cons f above =>
          rcases (h.run schedule).step_inline hbusy hstep with hnext | ⟨hended, -⟩
          · exact hnext
          · omega
      · rw [(h.run schedule).sound.stack_of_step hstep (Ne.symm hu)]
        exact ⟨above, hbusy⟩

theorem runInline (h : Reached s x)
    (hs : x.stack t = .script origin calls :: .returning value origin :: later) :
    x.RunInline t value origin later where
  runs schedule hcall := h.stack_inline ⟨[_], hs⟩ hcall
  returns schedule v hcall := by
    refine ⟨fun hreturns => ?_, fun ⟨hv, hbusy⟩ => hv ▸ step_returning hbusy⟩
    obtain ⟨above, hbusy⟩ := h.stack_inline ⟨[_], hs⟩ hcall
    cases above with
    | nil =>
      cases answer_injective (Option.some.inj (hreturns.symm.trans (step_returning hbusy)))
      exact ⟨rfl, hbusy⟩
    | cons f above =>
      -- the closure is not over, and a panic is no answer
      have hs' : (((x.run schedule).answer t origin (.returned (.ok v))).withStack t later).stack t
          = later := stack_withStack_self (threads_answer ..) hbusy _
      rcases (h.run schedule).step_inline hbusy hreturns with
        ⟨above', heq⟩ | ⟨-, -, origin', message, calls', rfl⟩
      · have hlength := congrArg List.length (hs'.symm.trans heq)
        simp only [List.length_append, List.length_cons] at hlength
        omega
      · have hpanic := (step_of_panics hbusy).symm.trans hreturns
        have hlog := congrArg (Option.map Machine.log) hpanic
        rw [Option.map_some, log_panic] at hlog
        cases hlog
  ends schedule hcall hend := by
    obtain ⟨above, hbusy⟩ := h.stack_inline ⟨[_], hs⟩ hcall
    cases above with
    | nil => exact .inl hbusy
    | cons f above =>
      right
      cases hstep : (x.run schedule).step t with
      | none =>
        refine absurd (hcall.concat ?_) hend
        rw [run_concat, hstep]
        exact hcall _ (List.prefix_refl _)
      | some m' =>
        rcases (h.run schedule).step_inline hbusy hstep with
          ⟨above', hs'⟩ | ⟨-, hguard, origin', message, calls', rfl⟩
        · refine absurd (hcall.concat ?_) hend
          rw [run_concat, hstep, Option.getD_some, hs']
          simp only [List.length_append, List.length_cons]
          omega
        · exact ⟨origin', message, calls', above, hbusy, hguard⟩

end Reached

/-! ### The call -/

/-- The next step of a thread queues a closure behind the others, and from then on the thread waits
for its value, with some frames left for later. -/
def HandsOver (m : Machine σ E) (owner t : ThreadId) (value : String) (origin : Origin)
    (calls : List Call) (later : List Frame) : Prop :=
  ∃ x, m.step t = some x ∧
    x = { m with
      dispatcher := m.dispatcher.push (.reply m.replies.length value origin calls)
      replies := m.replies ++ [Reply.awaited] }.withStack t
        (.awaitingReply m.replies.length origin :: later) ∧
    x.Fulfilled owner t m.replies.length value origin calls later

namespace Reached

/-- A post that is accepted hands over the closure. -/
theorem handsOver (h : Reached s m) {f : Frame} {admitted : Bool} {rest below : List Frame}
    (hs : m.stack t = f :: below) (hposts : Posts m t f admitted (.closure calls value) origin rest)
    (ha : m.dispatcher.Accepts admitted) :
    m.HandsOver s.owner.thread t value origin calls (rest ++ below) := by
  have hstep := step_of_acts hs (.closureAccepted hposts ha)
  refine ⟨_, hstep, rfl, (h.step hstep).fulfilled ?_ ?_ (stack_withStack_self rfl hs _)⟩
  · show m.replies.length < (m.replies ++ [Reply.awaited]).length
    rw [List.length_append]
    exact Nat.lt_succ_self _
  · show _ ∈ (m.dispatcher.push _).tasks
    rw [Dispatcher.tasks_push]
    exact List.mem_append_right _ List.mem_cons_self

/-- What a thread has to do stays the same until its next turn. -/
theorem stack_of_notMem (h : Reached s m) {schedule : List ThreadId} (ht : t ∉ schedule) :
    (m.run schedule).stack t = m.stack t := by
  induction schedule using List.reverseRecOn with
  | nil => rfl
  | append_singleton schedule u ih =>
    rw [List.mem_append, List.mem_singleton, not_or] at ht
    rw [(h.run schedule).sound.stack_concat ht.2, ih ht.1]

end Reached

/-- **A call that hands a closure to the owner thread completes exactly when the closure does.**
Take any run over a queue or a loop, and any thread that makes such a call.

* On the owner thread the closure is what the thread does next, and nothing is posted; the call
  returns the value when the closure has run to its end.
* On another thread, if the dispatcher refuses the closure, the call returns the refusal, and
  nothing else has happened.
* If it does not, a loop has the closure queued behind the others in the same step. A queue has it
  queued in the next step of the thread, whenever that is and whatever has become of the queue.
* The owner thread takes a closure that has been queued once at most. The call returns the value
  exactly when the closure has run to its end, and an error exactly when a panic has come out of it
  or the loop has died with it queued; until then it waits. -/
theorem run_on_owner_completes (s : Setup σ E) (before : List ThreadId) (t : ThreadId)
    (origin : Origin) (calls : List Call) (value : String) (later : List Call)
    (below : List Frame) (hs : (s.machine.run before).stack t
      = .script origin (.runOnOwner calls value :: later) :: below) :
    let m := s.machine.run before
    let rest := .script origin later :: below
    (t = s.owner.thread →
      m.step t = some (m.withStack t (.script origin calls :: .returning value origin :: rest)) ∧
      (m.withStack t (.script origin calls :: .returning value origin :: rest)).RunInline t value
        origin rest) ∧
    (t ≠ s.owner.thread →
      (∀ reason, m.dispatcher.refusal? = some reason →
        m.step t = some ((m.answer t origin (.returned (.error reason.error))).withStack t rest)) ∧
      (m.dispatcher.refusal? = none → m.dispatcher.isLoop = true →
        m.HandsOver s.owner.thread t value origin calls rest) ∧
      (m.dispatcher.refusal? = none → m.dispatcher.isLoop = false →
        ∃ x, m.step t = some x ∧
          x = m.withStack t (.pushing (.closure calls value) origin :: rest) ∧
          ∀ meanwhile, t ∉ meanwhile →
            (x.run meanwhile).HandsOver s.owner.thread t value origin calls rest)) := by
  intro m rest
  have hreached : Reached s m := ⟨before, rfl⟩
  have howner : m.dispatcher.owner.isCurrent t = true ↔ t = s.owner.thread := by
    rw [hreached.sound.owner_eq, Owner.isCurrent_iff]
  constructor
  · intro ht
    have hstep := step_of_acts hs (.aside (.inline (howner.2 ht)))
    exact ⟨hstep, (hreached.step hstep).runInline (stack_withStack_self rfl hs _)⟩
  · intro ht
    have hposts : Posts m t (.script origin (.runOnOwner calls value :: later)) false
        (.closure calls value) origin [.script origin later] :=
      .closure (Bool.eq_false_iff.2 fun h => ht (howner.1 h))
    refine ⟨fun reason hr => step_of_acts hs (.postRefused hposts hr),
      fun hr hl => hreached.handsOver hs hposts (.inr ⟨hl, hr⟩), fun hr hl => ?_⟩
    have hstep := step_of_acts hs (.postLooked hposts hr hl)
    have hlooked := hreached.step hstep
    refine ⟨_, hstep, rfl, fun meanwhile hmeanwhile => ?_⟩
    -- nobody else can keep the thread from pushing the closure
    have hs' := (hlooked.stack_of_notMem hmeanwhile).trans (stack_withStack_self rfl hs _)
    exact (hlooked.run meanwhile).handsOver hs' .pushing (.inl rfl)

/-- A closure that another thread hands to a loop, with a task queued in front of it, and one that
it hands to a queue, which is closed before the closure is pushed. -/
theorem run_on_owner_completes_behind_task :
    let setup (loops : Bool) (queued : List (List Call)) (script : List Call) : Setup Unit Nat :=
      { initializer := fun host => (.engine 7, host)
        host := ()
        owner := ⟨0, none⟩
        loops
        queued
        scripts := [script, [.runOnOwner [.note (.ran "closure")] "value"]] }
    let s := setup true [[.note (.task "first")]] []
    let x := s.machine.run [1]
    let during := [0, 0, 0, 0, 1, 0, 0, 0]
    let s' := setup false [] [.close, .pump]
    let x' := s'.machine.run [1, 0, 1]
    let during' := [0, 0, 1, 0, 0, 0]
    (x.stack 1 = [.awaitingReply 0 .caller, .script .caller []] ∧
      x.Occurs (Finishes 0 "value") during ∧
      (x.run during).step 1 = some (((x.run during).answer 1 .caller
        (.returned (.ok "value"))).withStack 1 [.script .caller []])) ∧
    (x'.dispatcher.refusal? = some .queueClosed ∧ x'.Occurs (Finishes 0 "value") during' ∧
      (x'.run during').step 1 = some (((x'.run during').answer 1 .caller
        (.returned (.ok "value"))).withStack 1 [.script .caller []])) := by
  intro setup s x during s' x' during'
  -- The caller is in its call all the time, waiting for the reply.
  have hcall : x.InCall 1 [.script .caller []] during := by
    have hall : ∀ part ∈ during.inits, 1 < ((x.run part).stack 1).length := by decide +kernel
    exact fun part hpart => hall part ((List.mem_inits ..).2 hpart)
  have hcall' : x'.InCall 1 [.script .caller []] during' := by
    have hall : ∀ part ∈ during'.inits, 1 < ((x'.run part).stack 1).length := by decide +kernel
    exact fun part hpart => hall part ((List.mem_inits ..).2 hpart)
  constructor
  · obtain ⟨-, hother⟩ := run_on_owner_completes s [] 1 .caller [.note (.ran "closure")] "value" []
      [] rfl
    obtain ⟨y, hstep, -, hfulfilled⟩ := (hother (by decide)).2.1 rfl rfl
    obtain rfl : x = y := Option.some.inj hstep
    have hfinishes : x.Occurs (Finishes 0 "value") during :=
      ⟨[0, 0, 0, 0, 1, 0, 0], 0, [], rfl, [.serving], by cbv⟩
    exact ⟨rfl, hfinishes, (hfulfilled.returns during "value" hcall).2 ⟨rfl, hfinishes⟩⟩
  · obtain ⟨-, hother⟩ := run_on_owner_completes s' [] 1 .caller [.note (.ran "closure")] "value" []
      [] rfl
    obtain ⟨looked, hlooks, -, hlater⟩ := (hother (by decide)).2.2 rfl rfl
    obtain rfl : s'.machine.run [1] = looked := Option.some.inj hlooks
    obtain ⟨y, hstep, -, hfulfilled⟩ := hlater [0] (by decide)
    obtain rfl : x' = y := Option.some.inj hstep
    have hfinishes : x'.Occurs (Finishes 0 "value") during' :=
      ⟨[0, 0, 1, 0, 0], 0, [], rfl, [.pumping 1 .caller, .script .caller []], by cbv⟩
    exact ⟨rfl, hfinishes, (hfulfilled.returns during' "value" hcall').2 ⟨rfl, hfinishes⟩⟩

end Machine

end LazyEngine
