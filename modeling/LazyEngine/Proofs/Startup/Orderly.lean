/-
Machines with nothing but errands.

A machine in which only errands are left to do stays one along every step, and no errand is left
undone.

* `Proceeds.coordinator`, `Proceeds.owes` and the like — what a kind of step does to what the
  invariant is about;
* `Orderly.step`, `Orderly.run` — machines stay orderly;
* `Orderly.restaffed` — also when threads are given new errands;
* `Orderly.rests` — when nobody can step, all errands have been run.

Design notes: the owner thread owes a value for every closure that has been sent and not been
answered: the closure is queued, or the frame that will send its value is on the thread's stack
(`Machine.Owes`). So whoever waits for a value waits for the owner thread, and that thread waits for
nobody.
-/
import LazyEngine.Proofs.Startup.Errands

namespace LazyEngine

namespace Machine

variable {σ E : Type} {m m' n : Machine σ E} {t u : ThreadId} {initializer : Initializer σ E}
  {owner : Owner} {engine : E}

theorem Launch.failure_eq {f : Frame} {c : Coordinator σ E Listener} {sequel : Sequel}
    (h : Launch m t f c sequel) : c.failure = m.coordinator.failure := by
  cases h <;> rfl

theorem Launch.engine_eq {f : Frame} {c : Coordinator σ E Listener} {sequel : Sequel}
    (h : Launch m t f c sequel) : c.engine = m.coordinator.engine := by
  cases h <;> rfl

namespace Proceeds

variable {f : Frame} {below pushed : List Frame}

/-- Nobody waits for replies who has not just sent a closure. -/
theorem awaiting (hp : Proceeds initializer owner engine m t f pushed n) {id : ReplyId}
    {origin : Origin} (hg : .awaitingReply id origin ∈ pushed) :
    id = m.replies.length ∧ n.replies = m.replies ++ [.awaited] := by
  cases hp with
  | stays events _ hfresh =>
    have := hfresh _ hg
    cases this
  | @takes task =>
    cases task <;> simp [Task.frames] at hg
  | sends =>
    simp only [List.mem_cons, Frame.awaitingReply.injEq, reduceCtorEq, List.not_mem_nil,
      or_false] at hg
    exact ⟨hg.1, rfl⟩
  | _ => simp at hg

theorem log_smooth (hp : Proceeds initializer owner engine m t f pushed n)
    (h : ∀ e ∈ m.log, e.isSmooth = true) : ∀ e ∈ n.log, e.isSmooth = true := by
  cases hp with
  | stays events _ _ _ he =>
    intro e hmem
    rcases List.mem_append.1 hmem with hmem | hmem
    · exact (he e hmem).1
    · exact h e hmem
  | tells => exact List.forall_mem_cons.2 ⟨rfl, h⟩
  | starts => exact List.forall_mem_cons.2 ⟨rfl, h⟩
  | _ => exact h

theorem refusal_eq (hp : Proceeds initializer owner engine m t f pushed n) :
    n.dispatcher.refusal? = m.dispatcher.refusal? := by
  cases hp with
  | requests | sends => exact Dispatcher.refusal?_withTasks ..
  | @takes task d _ htake =>
    show d.refusal? = _
    rw [Dispatcher.take?_eq htake]
    exact Dispatcher.refusal?_withTasks ..
  | _ => rfl

/-- The coordinator changes only to start or to ask for startup. -/
theorem coordinator (hp : Proceeds initializer owner engine m t f pushed n) :
    (n.coordinator.phase = .started ↔ m.coordinator.phase = .started) ∧
      n.coordinator.registrants = m.coordinator.registrants ∧
      n.coordinator.engine = m.coordinator.engine ∧
      n.coordinator.failure = m.coordinator.failure ∧ n.host = m.host ∧ n.held = m.held ∨
    t = owner.thread ∧ m.coordinator.phase ≠ .started ∧ n.coordinator.phase = .started ∧
      n.coordinator.registrants = m.coordinator.registrants.emptied ∧
      n.coordinator.engine = m.coordinator.engine.or (some engine) ∧
      n.coordinator.failure = m.coordinator.failure ∧
      ∃ sequel, pushed = [.telling (queue (m.coordinator.registrants.live m.alive)) sequel] := by
  cases hp with
  | starts ht hl hne =>
    refine .inr ⟨ht, hne, rfl, ?_, ?_, hl.failure_eq, _, rfl⟩
    · exact congrArg Registry.emptied hl.registrants_eq
    · exact congrArg (·.or (some engine)) hl.engine_eq
  | requests _ hphase =>
    refine .inl ⟨?_, rfl, rfl, rfl, rfl, rfl⟩
    rw [hphase]
    simp [Coordinator.requested]
  | _ => exact .inl ⟨Iff.rfl, rfl, rfl, rfl, rfl, rfl⟩

/-- What the owner thread takes up are errands. -/
theorem inside (hp : Proceeds initializer owner engine m t f pushed n)
    (h : Orderly initializer owner engine m) (ht : t = owner.thread) (hf : f.isInside = true) :
    ∀ g ∈ pushed, g.isInside = true := by
  cases hp with
  | stays _ _ _ hsuits => exact fun g hg => (Frame.suits_of_eq ht g).symm.trans (hsuits g hg)
  | tells _ hl =>
    exact List.forall_mem_cons.2 ⟨by rw [hl]; rfl,
      List.forall_mem_singleton.2 (Frame.isInside_telling_cons.1 hf).2⟩
  | starts =>
    refine List.forall_mem_singleton.2 (List.all_eq_true.2 fun x hx => ?_)
    obtain ⟨entry, hentry, rfl⟩ := List.mem_map.1 hx
    exact List.isEmpty_iff.2 (h.listeners entry (List.mem_of_mem_filter hentry))
  | requests hne | waits hne | sends hne => exact absurd ht hne
  | takes => cases hf
  | replies => exact List.forall_mem_nil _

theorem outside (hp : Proceeds initializer owner engine m t f pushed n) (ht : t ≠ owner.thread)
    (hf : f.isOutside owner.thread t = true) :
    ∀ g ∈ pushed, g.isOutside owner.thread t = true := by
  cases hp with
  | stays _ _ _ hsuits => exact fun g hg => (Frame.suits_of_ne ht g).symm.trans (hsuits g hg)
  | tells heq | starts heq | takes heq | replies heq => exact absurd heq ht
  | requests | waits => exact List.forall_mem_singleton.2 rfl
  | sends =>
    exact List.forall_mem_cons.2
      ⟨rfl, List.forall_mem_singleton.2 (Frame.isOutside_script_cons.1 hf).2⟩

theorem tasks (hp : Proceeds initializer owner engine m t f pushed n)
    (h : ∀ task ∈ m.dispatcher.tasks, task.isInside = true)
    (hf : t ≠ owner.thread → f.isOutside owner.thread t = true) :
    ∀ task ∈ n.dispatcher.tasks, task.isInside = true := by
  have accepted {task : Task} (htask : task.isInside = true) :
      ∀ x ∈ (m.dispatcher.push task).tasks, x.isInside = true := by
    rw [Dispatcher.tasks_push, List.forall_mem_append]
    exact ⟨h, List.forall_mem_singleton.2 htask⟩
  cases hp with
  | requests => exact accepted rfl
  | sends hne => exact accepted (Frame.isOutside_script_cons.1 (hf hne)).1
  | takes _ htake =>
    rw [Dispatcher.take?_tasks htake] at h
    exact fun task hmem => h task (List.mem_cons_of_mem _ hmem)
  | _ => exact h

/-- A step that takes away a frame which sends a value has sent it. -/
theorem sending (hp : Proceeds initializer owner engine m t f pushed n) {id : ReplyId}
    {value : String} (hf : f = .sending id value) (hid : id < m.replies.length) :
    n.replies[id]? = some (.sent value) := by
  subst hf
  cases hp with
  | stays _ hspent => cases hspent
  | starts _ hl => cases hl
  | replies => exact List.getElem?_set_self hid

/-- The owner thread owes what it owed, until it sends the value. -/
theorem owes (hp : Proceeds initializer owner engine m t f pushed n) (hs : m.stack t = f :: below)
    {id : ReplyId} (ho : m.Owes owner id) (hid : id < m.replies.length) :
    (n.withStack t (pushed ++ below)).Owes owner id ∨
      ∃ value, n.replies[id]? = some (.sent value) := by
  have hown := stack_withStack_self hp.threads_eq hs (pushed ++ below)
  rcases ho with ⟨value, origin, calls, hmem⟩ | ⟨value, hmem⟩
  · refine .inl ?_
    -- a task stays queued unless it is the one that is taken
    cases hp with
    | requests | sends =>
      refine .inl ⟨value, origin, calls, ?_⟩
      show _ ∈ (m.dispatcher.push _).tasks
      rw [Dispatcher.tasks_push]
      exact List.mem_append_left _ hmem
    | takes ht htake =>
      rw [Dispatcher.take?_tasks htake] at hmem
      rcases List.mem_cons.1 hmem with rfl | hmem
      · refine .inr ⟨value, ?_⟩
        rw [← ht, hown]
        simp [Task.frames]
      · exact .inl ⟨value, origin, calls, hmem⟩
    | _ => exact .inl ⟨value, origin, calls, hmem⟩
  · by_cases ht : t = owner.thread
    · rw [← ht, hs] at hmem
      rcases List.mem_cons.1 hmem with heq | hmem
      · exact .inr ⟨value, hp.sending heq.symm hid⟩
      · refine .inl (.inr ⟨value, ?_⟩)
        rw [← ht, hown]
        exact List.mem_append_right _ hmem
    · refine .inl (.inr ⟨value, ?_⟩)
      rw [stack_withStack_of_threads hp.threads_eq hs, if_neg (Ne.symm ht)]
      exact hmem

/-- What the owner thread owes it has owed, or the step has sent the closure. -/
theorem owes_before (hp : Proceeds initializer owner engine m t f pushed n)
    (hs : m.stack t = f :: below) {id : ReplyId}
    (ho : (n.withStack t (pushed ++ below)).Owes owner id) :
    m.Owes owner id ∨ id = m.replies.length ∧ n.replies = m.replies ++ [.awaited] := by
  have hown := stack_withStack_self hp.threads_eq hs (pushed ++ below)
  rcases ho with ⟨value, origin, calls, hmem⟩ | ⟨value, hmem⟩
  · change _ ∈ n.dispatcher.tasks at hmem
    cases hp with
    | requests =>
      change _ ∈ (m.dispatcher.push _).tasks at hmem
      rw [Dispatcher.tasks_push, List.mem_append, List.mem_singleton] at hmem
      rcases hmem with hmem | heq
      · exact .inl (.inl ⟨value, origin, calls, hmem⟩)
      · cases heq
    | sends =>
      change _ ∈ (m.dispatcher.push _).tasks at hmem
      rw [Dispatcher.tasks_push, List.mem_append, List.mem_singleton] at hmem
      rcases hmem with hmem | heq
      · exact .inl (.inl ⟨value, origin, calls, hmem⟩)
      · cases heq
        exact .inr ⟨rfl, rfl⟩
    | takes _ htake =>
      refine .inl (.inl ⟨value, origin, calls, ?_⟩)
      rw [Dispatcher.take?_tasks htake]
      exact List.mem_cons_of_mem _ hmem
    | _ => exact .inl (.inl ⟨value, origin, calls, hmem⟩)
  · left
    by_cases ht : t = owner.thread
    · rw [← ht, hown] at hmem
      rcases List.mem_append.1 hmem with hmem | hmem
      · cases hp with
        | stays _ _ hfresh => cases hfresh _ hmem
        | @takes task _ _ htake =>
          -- only a closure that was queued sends a value
          rcases List.mem_append.1 hmem with hmem | hmem
          · cases task with
            | reply id' value' origin calls =>
              refine .inl ⟨value, origin, calls, ?_⟩
              rw [Dispatcher.take?_tasks htake]
              simp only [Task.frames, List.mem_cons, reduceCtorEq, Frame.sending.injEq,
                List.not_mem_nil, or_false, false_or] at hmem
              rw [hmem.1, hmem.2]
              exact List.mem_cons_self
            | _ => simp [Task.frames] at hmem
          · simp at hmem
        | _ => simp at hmem
      · refine .inr ⟨value, ?_⟩
        rw [← ht, hs]
        exact List.mem_cons_of_mem _ hmem
    · rw [stack_withStack_of_threads hp.threads_eq hs, if_neg (Ne.symm ht)] at hmem
      exact .inr ⟨value, hmem⟩

/-- A reply has come or is on its way, also when the step has just sent the closure. -/
theorem reply (hp : Proceeds initializer owner engine m t f pushed n) {id : ReplyId}
    (hid : id < m.replies.length) (hr : m.replies[id]? = some .awaited) :
    n.replies[id]? = some .awaited ∨ ∃ value, n.replies[id]? = some (.sent value) := by
  cases hp with
  | sends => exact .inl ((List.getElem?_append_left hid).trans hr)
  | @replies id' value =>
    by_cases heq : id' = id
    · subst heq
      exact .inr ⟨value, List.getElem?_set_self hid⟩
    · exact .inl ((List.getElem?_set_ne heq).trans hr)
  | _ => exact .inl hr

/-- A value that has been sent stays there. -/
theorem reply_sent (hp : Proceeds initializer owner engine m t f pushed n) {id : ReplyId}
    {value : String} (hr : m.replies[id]? = some (.sent value)) :
    ∃ value, n.replies[id]? = some (.sent value) := by
  have hid : id < m.replies.length := (List.getElem?_eq_some_iff.1 hr).1
  cases hp with
  | sends => exact ⟨value, (List.getElem?_append_left hid).trans hr⟩
  | @replies id' value' =>
    by_cases heq : id' = id
    · subst heq
      exact ⟨value', List.getElem?_set_self hid⟩
    · exact ⟨value, (List.getElem?_set_ne heq).trans hr⟩
  | _ => exact ⟨value, hr⟩

theorem length_replies (hp : Proceeds initializer owner engine m t f pushed n) :
    m.replies.length ≤ n.replies.length := by
  cases hp with
  | sends | replies => simp
  | _ => exact Nat.le_refl _

/-- The reply to a closure that the step has sent. -/
theorem new_reply (hp : Proceeds initializer owner engine m t f pushed n)
    (h : m.replies.length < n.replies.length) :
    n.replies = m.replies ++ [.awaited] ∧
      ∃ value origin calls, .reply m.replies.length value origin calls ∈ n.dispatcher.tasks := by
  cases hp with
  | @sends origin closure _ value =>
    refine ⟨rfl, value, origin, closure, ?_⟩
    show _ ∈ (m.dispatcher.push _).tasks
    rw [Dispatcher.tasks_push]
    exact List.mem_append_right _ List.mem_cons_self
  | replies => simp at h
  | _ => exact absurd h (Nat.lt_irrefl _)

end Proceeds

namespace Orderly

theorem taskPanics_eq_false (h : Orderly initializer owner engine m) (t : ThreadId) :
    m.taskPanics t = false := by
  cases hpanics : m.taskPanics t with
  | false => rfl
  | true =>
    obtain ⟨origin, message, calls, below, hs, -⟩ := stack_of_taskPanics hpanics
    rw [h.sound.eq_owner_of_taskPanics hpanics] at hs
    rcases h.inside hs with ⟨hf, -⟩ | ⟨hf, -⟩ <;> cases hf

/-- The owner thread goes on with its task, or takes one. -/
theorem serves_step (h : Orderly initializer owner engine m) {f : Frame} {pushed below : List Frame}
    (hs : m.stack t = f :: below) (hp : Proceeds initializer owner engine m t f pushed n) :
    ∃ above, (n.withStack t (pushed ++ below)).stack owner.thread = above ++ [.serving] ∧
      ∀ g ∈ above, g.isInside = true := by
  have hstack := stack_withStack_of_threads hp.threads_eq hs (pushed ++ below)
  by_cases ht : t = owner.thread
  · rw [hstack, if_pos ht.symm]
    rcases h.inside (ht ▸ hs) with ⟨rfl, rfl⟩ | ⟨hf, above, rfl, habove⟩
    · cases hp with
      | stays _ hspent => cases hspent
      | starts _ hl => cases hl
      | @takes task d _ htake =>
        have htask : task.isInside = true := by
          refine h.tasks task ?_
          rw [Dispatcher.take?_tasks htake]
          exact List.mem_cons_self
        exact ⟨task.frames, List.append_nil _, Task.isInside_frames htask⟩
    · refine ⟨pushed ++ above, (List.append_assoc ..).symm, ?_⟩
      exact List.forall_mem_append.2 ⟨hp.inside h ht hf, habove⟩
  · rw [hstack, if_neg (Ne.symm ht)]
    exact h.serves

/-- A reply that has not been sent is still owed, also a new one. -/
theorem replies_step (h : Orderly initializer owner engine m) {f : Frame}
    {pushed below : List Frame} (hs : m.stack t = f :: below)
    (hp : Proceeds initializer owner engine m t f pushed n) {id : ReplyId}
    (hid : id < n.replies.length) :
    (∃ value, n.replies[id]? = some (.sent value)) ∨
      n.replies[id]? = some .awaited ∧ (n.withStack t (pushed ++ below)).Owes owner id := by
  by_cases hold : id < m.replies.length
  · rcases h.replies id hold with ⟨value, hsent⟩ | ⟨hawaited, ho⟩
    · exact .inl (hp.reply_sent hsent)
    · rcases hp.reply hold hawaited with hawaited | hsent
      · exact (hp.owes hs ho hold).elim (fun ho => .inr ⟨hawaited, ho⟩) .inl
      · exact .inl hsent
  · obtain ⟨hr, value, origin, calls, htask⟩ :=
      hp.new_reply (Nat.lt_of_le_of_lt (Nat.le_of_not_lt hold) hid)
    obtain rfl : id = m.replies.length := by
      rw [hr, List.length_append, List.length_singleton] at hid
      exact Nat.le_antisymm (Nat.le_of_lt_succ hid) (Nat.le_of_not_lt hold)
    refine .inr ⟨?_, .inl ⟨value, origin, calls, htask⟩⟩
    rw [hr, List.getElem?_append_right (Nat.le_refl _), Nat.sub_self]
    rfl

/-- **A machine stays orderly** along every step. -/
theorem step (h : Orderly initializer owner engine m) (hstep : m.step t = some m') :
    Orderly initializer owner engine m' := by
  have hturn := turn_of_step hstep
  obtain ⟨f, below, pushed, n, hs, hp, rfl⟩ := h.proceeds hstep
  have hstack := stack_withStack_of_threads hp.threads_eq hs (pushed ++ below)
  have houtside (ht : t ≠ owner.thread) : f.isOutside owner.thread t = true :=
    h.outside t ht f (hs ▸ List.mem_cons_self)
  -- What a thread has to do after the step is new, and then it is the one that steps, or it is old.
  have hmem (u : ThreadId) {g : Frame} (hg : g ∈ (n.withStack t (pushed ++ below)).stack u) :
      u = t ∧ g ∈ pushed ∨ g ∈ m.stack u := by
    rw [hstack] at hg
    split at hg
    · rename_i heq
      subst heq
      rw [hs]
      exact (List.mem_append.1 hg).imp (fun hg => ⟨rfl, hg⟩) (List.mem_cons_of_mem _)
    · exact .inr hg
  refine ⟨h.sound.step hturn, h.promised.step h.sound hturn fun _ => h.taskPanics_eq_false t,
    (h.sound.isLoop_eq hturn).trans h.isLoop, hp.refusal_eq.trans h.accepts, h.serves_step hs hp,
    ?_, hp.tasks h.tasks houtside, ?_, ?_, ?_, ?_, fun id hid => h.replies_step hs hp hid, ?_, ?_,
    hp.log_smooth h.smooth⟩
  · -- Other threads than the owner's still run nothing but errands.
    intro u hu g hg
    rcases hmem u hg with ⟨rfl, hnew⟩ | hold
    · exact hp.outside hu (houtside hu) g hnew
    · exact h.outside u hu g hold
  · -- The table of listeners: as before, or emptied by startup.
    show ∀ entry ∈ n.coordinator.registrants.entries, _
    rcases hp.coordinator with ⟨-, hr, -⟩ | ⟨-, -, -, hr, -⟩
    · rw [hr]
      exact h.listeners
    · rw [hr]
      exact List.forall_mem_nil _
  · show n.coordinator.failure = none
    rcases hp.coordinator with ⟨-, -, -, hf, -⟩ | ⟨-, -, -, -, -, hf, -⟩
    · exact hf.trans h.failure
    · exact hf.trans h.failure
  · -- Until the engine is started the initializer is still to succeed: its host has not changed.
    show n.coordinator.phase ≠ .started → (initializer n.host).1 = _
    intro hne
    rcases hp.coordinator with ⟨hphase, -, -, -, hhost, -⟩ | ⟨-, -, hphase, -⟩
    · rw [hhost]
      exact h.succeeds fun heq => hne (hphase.2 heq)
    · exact absurd hphase hne
  · -- Once it is started the engine published is the one that the initializer produces.
    show n.coordinator.phase = .started → n.coordinator.engine = some engine
    intro heq
    rcases hp.coordinator with ⟨hphase, -, he, -⟩ | ⟨-, hne, -, -, he, -⟩
    · rw [he]
      exact h.published (hphase.1 heq)
    · obtain ⟨s, hstage⟩ := h.sound.stage
      rw [he, hstage.engine_of_undecided (h.undecided hne)]
      rfl
  · -- Replies that are owed, or waited for, have been made out.
    show ∀ id, _ → id < n.replies.length
    intro id ho
    rcases hp.owes_before hs ho with ho | ⟨rfl, hr⟩
    · exact Nat.lt_of_lt_of_le (h.owed id ho) hp.length_replies
    · rw [hr]
      simp
  · show ∀ u id origin, _ → id < n.replies.length
    intro u id origin hg
    rcases hmem u hg with ⟨rfl, hnew⟩ | hold
    · obtain ⟨rfl, hr⟩ := hp.awaiting hnew
      rw [hr]
      simp
    · exact Nat.lt_of_lt_of_le (h.awaited u id origin hold) hp.length_replies

theorem run (h : Orderly initializer owner engine m) (schedule : List ThreadId) :
    Orderly initializer owner engine (m.run schedule) :=
  run_induction (fun _ _ _ h hstep => h.step hstep) h schedule

/-- **New errands.** A machine stays orderly when threads other than the owner's are given scripts
of errands in the place of what they had to do. -/
theorem restaffed (h : Orderly initializer owner engine m) {threads : List (List Frame)}
    (hn : n = { m with threads }) (hkeeps : n.stack owner.thread = m.stack owner.thread)
    (hnew : ∀ u, u ≠ owner.thread → n.stack u = m.stack u ∨ ∃ calls,
      n.stack u = [.script .caller calls] ∧ calls.all (Call.isOutside owner.thread u) = true) :
    Orderly initializer owner engine n := by
  -- what a thread has to do is what it had to do, or its script
  have hmem (u : ThreadId) {g : Frame} (hg : g ∈ n.stack u) :
      g ∈ m.stack u ∨ ∃ calls, g = .script .caller calls ∧ u ≠ owner.thread ∧
        calls.all (Call.isOutside owner.thread u) = true := by
    by_cases hu : u = owner.thread
    · rw [hu, hkeeps] at hg
      exact .inl (hu ▸ hg)
    · rcases hnew u hu with heq | ⟨calls, heq, hcalls⟩
      · exact .inl (heq ▸ hg)
      · rw [heq] at hg
        exact .inr ⟨calls, List.mem_singleton.1 hg, hu, hcalls⟩
  have howes (id : ReplyId) : n.Owes owner id ↔ m.Owes owner id := by
    rw [Owes, Owes, hkeeps, hn]
  subst hn
  -- Every clause that speaks of stacks is checked for what is old and for the new scripts.
  refine ⟨⟨h.sound.owner_eq, h.sound.ownedBy, h.sound.stage, ?_, ?_, ?_⟩, ⟨?_, h.promised.asleep⟩,
    h.isLoop, h.accepts, hkeeps ▸ h.serves, ?_, h.tasks, h.listeners, h.failure, h.succeeds,
    h.published, ?_, ?_, ?_, h.smooth⟩
  · intro u f below hu g hg
    by_cases hown : u = owner.thread
    · rw [hown, hkeeps] at hu
      exact h.sound.innermost _ f below hu g hg
    · rcases hnew u hown with heq | ⟨calls, heq, -⟩
      · exact h.sound.innermost u f below (heq ▸ hu) g hg
      · rw [heq] at hu
        obtain ⟨-, rfl⟩ := List.cons.inj hu
        cases hg
  · intro u f hf hown
    rcases hmem u hf with hf | ⟨calls, rfl, -⟩
    · exact h.sound.ownerOnly u f hf hown
    · cases hown
  · intro u f hf
    rcases hmem u hf with hf | ⟨calls, rfl, -⟩
    · have := h.sound.fits u f hf
      cases f <;> exact this
    · trivial
  · intro hphase hfailure
    rw [Pledged, hkeeps]
    exact h.promised.pledged hphase hfailure
  · intro u hu g hg
    rcases hmem u hg with hg | ⟨calls, rfl, -, hcalls⟩
    · exact h.outside u hu g hg
    · exact hcalls
  · intro id hid
    rw [howes]
    exact h.replies id hid
  · intro id ho
    exact h.owed id ((howes id).1 ho)
  · intro u id origin hg
    rcases hmem u hg with hg | ⟨calls, heq, -⟩
    · exact h.awaited u id origin hg
    · cases heq

/-! ### Nobody is left waiting -/

end Orderly

/-- The owner thread never waits in the middle of a task. -/
theorem step_inside {f : Frame} {below : List Frame} (hs : m.stack t = f :: below)
    (hf : f.isInside = true) : m.step t ≠ none := by
  rw [Machine.step, hs, stepFrom]
  cases f with
  | script origin calls =>
    cases calls with
    | nil => exact Option.some_ne_none _
    | cons c calls =>
      obtain ⟨hc, -⟩ := Frame.isInside_script_cons.1 hf
      cases c with
      | ensureStarted | note | catching => exact Option.some_ne_none _
      | _ => cases hc
  | telling listeners sequel =>
    cases listeners <;> exact Option.some_ne_none _
  | entering | startup | sending | guard => exact Option.some_ne_none _
  | _ => cases hf

namespace Orderly

/-- When the owner thread has nothing to do, another thread waits for one of a higher number, if it
waits at all. -/
theorem step_outside (h : Orderly initializer owner engine m)
    (hserving : m.stack owner.thread = [.serving]) (htasks : m.dispatcher.tasks = [])
    (hu : u ≠ owner.thread) {f : Frame} {below : List Frame} (hs : m.stack u = f :: below)
    (hhigher : ∀ w, w ≠ owner.thread → u < w → m.stack w = []) : m.step u ≠ none := by
  -- A thread other than the owner's can wait for a thread, for startup or for a reply.
  have hf : f.isOutside owner.thread u = true := h.outside u hu f (hs ▸ List.mem_cons_self)
  cases f with
  | script origin calls =>
    rw [Machine.step, hs, stepFrom]
    cases calls with
    | nil => exact Option.some_ne_none _
    | cons c calls =>
      obtain ⟨hc, -⟩ := Frame.isOutside_script_cons.1 hf
      cases c with
      | ensureStarted | runOnOwner => exact Option.some_ne_none _
      | join w =>
        obtain ⟨hw, hlt⟩ := of_decide_eq_true hc
        rw [frame, call, hhigher w hw hlt]
        exact Option.some_ne_none _
      | _ => cases hc
  | entering =>
    rw [Machine.step, hs, stepFrom]
    exact Option.some_ne_none _
  | awaitingStartup origin =>
    -- The owner thread has nothing to do, so that nobody has startup left to perform; had it been
    -- asked for and not been decided, it would be pledged.
    have hidle : ¬m.Pledged owner := by
      rintro (hpos | ⟨f, below, hstartup, -⟩)
      · rw [← Dispatcher.mem_tasks_iff, htasks] at hpos
        cases hpos
      · rw [hserving] at hstartup
        cases hstartup
    rcases h.promised.returns h.sound (fun hp hf => hidle (h.promised.pledged hp hf)) hs with
      ⟨e, -, hstep⟩ | ⟨reason, -, hstep⟩ <;>
    · rw [hstep]
      exact Option.some_ne_none _
  | awaitingReply id origin =>
    rw [Machine.step, hs, stepFrom, frame]
    -- A reply that has not been sent is owed by a task that is queued or being run: there is none.
    rcases h.replies id (h.awaited u id origin (hs ▸ List.mem_cons_self)) with
      ⟨value, hsent⟩ | ⟨-, ⟨value, origin, calls, hmem⟩ | ⟨value, hmem⟩⟩
    · rw [hsent]
      exact Option.some_ne_none _
    · rw [htasks] at hmem
      cases hmem
    · rw [hserving] at hmem
      simp at hmem
  | _ => cases hf

/-- **All errands are run.** Where nobody can step, the owner thread serves the loop and nobody else
has anything to do. -/
theorem rests (h : Orderly initializer owner engine m) (hrest : ∀ t, m.step t = none) :
    m.stack owner.thread = [.serving] ∧ ∀ u, u ≠ owner.thread → m.stack u = [] := by
  have hserving : m.stack owner.thread = [.serving] := by
    obtain ⟨above, hs, habove⟩ := h.serves
    cases above with
    | nil => exact hs
    | cons f above =>
      exact absurd (hrest owner.thread) (step_inside hs (habove f List.mem_cons_self))
  have htasks : m.dispatcher.tasks = [] := by
    have hstep := hrest owner.thread
    rw [Machine.step, hserving, stepFrom, frame] at hstep
    split at hstep
    · cases hstep
    · rename_i htake
      exact Dispatcher.take?_eq_none_iff.1 htake
  refine ⟨hserving, fun u hu => ?_⟩
  -- by induction on the number of threads that may be waited for
  generalize hk : m.threads.length - u = k
  induction k using Nat.strongRecOn generalizing u with
  | ind k ih =>
    cases hs : m.stack u with
    | nil => rfl
    | cons f below =>
      have hlt := lt_length_of_stack hs
      refine absurd (hrest u) (h.step_outside hserving htasks hu hs fun w hw hless => ?_)
      exact ih (m.threads.length - w) (hk ▸ Nat.sub_lt_sub_left hlt hless) w hw rfl

end Orderly

end Machine

end LazyEngine
