/-
Pumping a queue.

The owner thread of a queue takes the oldest task, runs it and takes the next one, until it finds
the queue empty. The tasks may put others behind it meanwhile, and so may other threads.

* `Call.areUses` — what threads do with a queue: they post, pump and close;
* `Pumped`, `Pumped.run` — what is queued and what threads have to do, at every moment;
* `InCall` — the call that has left some frames for later has not ended yet;
* `Going`, `Pumped.going` — in a call to pump the thread is at the queue, or in the task that it
  took last, and has counted what it has taken;
* `Pumped.step_going` — its next step goes on with that, or ends the call;
* `Pumped.accepted_late` — a queue that has been closed accepts what threads have in hand and no
  more;
* **`pump_executes_in_order`** — which tasks are executed, how a call to pump ends, and when.

Design notes: a call is told by what is left to do after it, which stays at the bottom of the stack
until the call ends. A panic ends the call too, because nothing in a task catches it, and takes off
more of the stack than that. A post is a look and a push, and the queue may be closed, and pumped,
between the two; so a call to pump may return and leave behind it a task of another thread.
-/
import LazyEngine.Proofs.Startup.Forests
import LazyEngine.Proofs.Startup.Loops
import Mathlib.Data.List.Infix

namespace LazyEngine

mutual

/-- Whether a call is one for which a queue is there: to post trees of tasks, to pump or to close
it; or leaves a note, or panics. -/
def Call.isUse : Call → Bool
  | .post calls => Call.areSeeds calls
  | .catching calls => Call.areUses calls
  | .pump | .close | .note _ | .panic _ => true
  | _ => false

def Call.areUses : List Call → Bool
  | [] => true
  | call :: calls => call.isUse && Call.areUses calls

end

theorem Call.isUse_of_isSeed {c : Call} (h : c.isSeed = true) : c.isUse = true := by
  cases c <;> first | exact h | cases h

theorem Call.isUse_cases {c : Call} (h : c.isUse = true) :
    c.isSeed = true ∨ c = .pump ∨ ∃ calls, c = .catching calls ∧ Call.areUses calls = true := by
  cases c with
  | catching calls => exact .inr (.inr ⟨calls, rfl, h⟩)
  | pump => exact .inr (.inl rfl)
  | post | close | note | panic => exact .inl h
  | _ => cases h

namespace Frame

/-- Frames of a thread's own calls. -/
def isUse : Frame → Bool
  | script .caller calls => Call.areUses calls
  | guard => true
  | _ => false

/-- What a thread has to do that is not in the middle of a post: calls of its own, or to pump, or a
task that it has taken. -/
inductive AtWork : List Frame → Prop
  | own {stack : List Frame} : (∀ f ∈ stack, f.isUse = true) → AtWork stack
  | between {taken : Nat} {below : List Frame} : (∀ f ∈ below, f.isUse = true) →
      AtWork (.pumping taken .caller :: below)
  | within {calls : List Call} {taken : Nat} {below : List Frame} :
      Call.areSeeds calls = true → (∀ f ∈ below, f.isUse = true) →
      AtWork (.script .job calls :: .pumping taken .caller :: below)

/-- What a thread has to do. -/
inductive Uses : List Frame → Prop
  | atWork {stack : List Frame} : AtWork stack → Uses stack
  | posting {calls : List Call} {origin : Origin} {below : List Frame} :
      Call.areSeeds calls = true → AtWork below → Uses (.pushing (.job calls) origin :: below)

theorem Uses.atWork_of_script {origin : Origin} {calls : List Call} {below : List Frame}
    (h : Uses (.script origin calls :: below)) : AtWork (.script origin calls :: below) := by
  cases h with
  | atWork h => exact h

/-- The call that a thread makes next. -/
theorem Uses.isUse_head {origin : Origin} {c : Call} {calls : List Call} {below : List Frame}
    (h : Uses (.script origin (c :: calls) :: below)) : c.isUse = true := by
  obtain ⟨hown⟩ | ⟨⟩ | ⟨hseeds, -⟩ := h.atWork_of_script
  · have hf := hown _ List.mem_cons_self
    cases origin with
    | caller => exact ((Bool.and_eq_true ..).mp hf).1
    | callback | job => cases hf
  · exact Call.isUse_of_isSeed ((Bool.and_eq_true ..).mp hseeds).1

theorem atWork_left {below : List Frame} (h : ∀ f ∈ below, f.isUse = true) :
    AtWork (unwind below).landing.left :=
  .own fun f hf => h f ((left_suffix below).subset hf)

end Frame

namespace Machine

variable {σ E : Type} {m m' x : Machine σ E} {t u : ThreadId} {initializer : Initializer σ E}
  {owner : Owner}

/-! ### The calls of tasks -/

/-- The panic with which a thread goes on. -/
def panics (m : Machine σ E) (t : ThreadId) : Option String :=
  match m.stack t with
  | .script _ (.panic message :: _) :: _ => some message
  | _ => none

theorem step_of_panics {origin : Origin} {message : String} {calls : List Call}
    {below : List Frame} (hs : m.stack t = .script origin (.panic message :: calls) :: below) :
    m.step t = some (m.panic t message below) :=
  step_of_panic hs

/-- A call of a task comes back at once, unless it is a panic, or a post that finds the queue
open. -/
theorem step_of_isSeed {origin : Origin} {c : Call} {calls : List Call} {below : List Frame}
    (hqueue : m.dispatcher.isLoop = false) (hseed : c.isSeed = true)
    (hs : m.stack t = .script origin (c :: calls) :: below) :
    (∃ message, c = .panic message) ∨
      m.panics t = none ∧ (m.traffic t).bind Traffic.accepted? = none ∧
        ∃ m', m.step t = some m' ∧
          (m'.stack t = .script origin calls :: below ∧
              (m.dispatcher.refusal? = none → Call.offspring [c] = []) ∨
            m.dispatcher.refusal? = none ∧ ∃ posted, c = .post posted ∧
              m'.stack t = .pushing (.job posted) origin :: .script origin calls :: below) := by
  -- Only the call `panic` panics.
  have hcalm (hc : ∀ message, c ≠ .panic message) : m.panics t = none := by
    rw [panics, hs]
    split
    · rename_i heq
      cases heq
      exact absurd rfl (hc _)
    · rfl
  cases c with
  | panic message => exact .inl ⟨message, rfl⟩
  | post posted =>
    have hoffered : m.offered t = some (.job posted) := offered_eq_some_iff.2 (nextPost_eq hs)
    refine .inr ⟨hcalm (by simp), ?_⟩
    cases hr : m.dispatcher.refusal? with
    | some r =>
      refine ⟨by rw [traffic_of_refusal? hoffered hr]; rfl, _,
        step_of_acts hs (.postRefused .job hr),
        .inl ⟨stack_withStack_self rfl hs _, fun hopen => ?_⟩⟩
      cases hopen
    | none =>
      exact ⟨by rw [traffic_of_open hoffered hr hqueue]; rfl, _,
        step_of_acts hs (.postLooked .job hr hqueue),
        .inr ⟨rfl, posted, rfl, stack_withStack_self rfl hs _⟩⟩
  | close =>
    exact .inr ⟨hcalm (by simp), by rw [traffic_eq_none hs rfl rfl]; rfl, _, step_of_acts hs .close,
      .inl ⟨stack_withStack_self rfl hs _, fun _ => rfl⟩⟩
  | note =>
    exact .inr ⟨hcalm (by simp), by rw [traffic_eq_none hs rfl rfl]; rfl, _,
      step_of_acts hs (.aside .note), .inl ⟨stack_withStack_self rfl hs _, fun _ => rfl⟩⟩
  | _ => cases hseed

/-- Whoever has found the queue open pushes the task. -/
theorem step_of_pushing {posted : List Call} {origin : Origin} {below : List Frame}
    (hs : m.stack t = .pushing (.job posted) origin :: below) :
    m.panics t = none ∧ m.traffic t = some (.accepted (.job posted)) ∧
      ∃ m', m.step t = some m' ∧ m'.stack t = below :=
  ⟨by rw [panics, hs], traffic_of_accepts (nextPost_eq hs) (.inl rfl), _,
    step_of_acts hs (.jobAccepted .pushing (.inl rfl)), stack_withStack_self rfl hs _⟩

/-! ### What threads have to do -/

/-- A queue holds tasks that post tasks, and threads use it. -/
structure Pumped (initializer : Initializer σ E) (owner : Owner) (m : Machine σ E) : Prop
    extends Sound initializer owner m where
  queue : m.dispatcher.isLoop = false
  seeds : ∀ task ∈ m.dispatcher.tasks, task.isSeed = true
  uses : ∀ t, Frame.Uses (m.stack t)

/-- A thread of this kind posts a task, or has one in hand. -/
theorem stack_of_nextPost (h : Frame.Uses (m.stack t)) {admitted : Bool} {task : Task}
    (hnext : m.nextPost t = some (admitted, task)) :
    ∃ origin calls below, task = .job calls ∧ Call.areSeeds calls = true ∧
      if admitted then m.stack t = .pushing (.job calls) origin :: below
      else ∃ later, m.stack t = .script origin (.post calls :: later) :: below := by
  obtain ⟨f, below, hs⟩ : ∃ f below, m.stack t = f :: below := by
    cases hs : m.stack t with
    | nil =>
      rw [nextPost, hs] at hnext
      cases hnext
    | cons f below => exact ⟨f, below, rfl⟩
  rw [nextPost_eq hs] at hnext
  rw [hs] at h
  -- Only a script and a frame that pushes post for a call; nobody asks for startup here.
  unfold posting at hnext
  split at hnext
  · cases hnext
    exact ⟨_, _, below, rfl, h.isUse_head, _, hs⟩
  · cases h.isUse_head
  · cases hnext
    cases h with
    | atWork h =>
      cases h with
      | own hown => cases hown _ List.mem_cons_self
    | posting hseeds => exact ⟨_, _, below, rfl, hseeds, hs⟩
  · cases h.isUse_head
  · cases h with
    | atWork h =>
      cases h with
      | own hown => cases hown _ List.mem_cons_self
  · cases h with
    | atWork h =>
      cases h with
      | own hown => cases hown _ List.mem_cons_self
  · cases hnext

theorem stack_of_inHand (h : Frame.Uses (m.stack t)) {task : Task}
    (hin : m.inHand t = some task) :
    ∃ origin calls below,
      m.stack t = .pushing (.job calls) origin :: below ∧ task = .job calls := by
  obtain ⟨origin, calls, below, rfl, -, hs⟩ := stack_of_nextPost h (inHand_eq_some_iff.1 hin)
  exact ⟨origin, calls, below, hs, rfl⟩

/-- Whoever is not in the middle of a post has nothing in hand. -/
theorem inHand_of_atWork (h : Frame.AtWork (m.stack t)) : m.inHand t = none := by
  rw [Option.eq_none_iff_forall_ne_some]
  intro task hin
  obtain ⟨origin, calls, below, hs, -⟩ := stack_of_inHand (.atWork h) hin
  rw [hs] at h
  cases h with
  | own hown => cases hown _ List.mem_cons_self

/-- What is queued after a step was queued before, or has been accepted. -/
theorem mem_tasks_of_step (hs : m.step t = some m') {task : Task}
    (hmem : task ∈ m'.dispatcher.tasks) :
    task ∈ m.dispatcher.tasks ∨ ∃ admitted, m.nextPost t = some (admitted, task) := by
  rcases tasks_of_step hs with ⟨first, -, heq⟩ | ⟨-, heq | ⟨last, admitted, hnext, heq⟩ | ⟨-, heq⟩⟩
  · rw [heq]
    exact .inl (List.mem_cons_of_mem _ hmem)
  · exact .inl (heq ▸ hmem)
  · rw [heq] at hmem
    refine (List.mem_append.1 hmem).imp_right fun h => ⟨admitted, ?_⟩
    rw [hnext, List.mem_singleton.1 h]
  · rw [heq] at hmem
    cases hmem

namespace Pumped

theorem exists_queue (h : Pumped initializer owner m) : ∃ o q, m.dispatcher = .queue o q := by
  have hqueue := h.queue
  cases hd : m.dispatcher with
  | queue o q => exact ⟨o, q, rfl⟩
  | loop =>
    rw [hd] at hqueue
    cases hqueue

/-- A step of a thread that is at its own calls. -/
theorem atWork_own (h : Pumped initializer owner m) {f : Frame} {below : List Frame}
    (hs : m.stack t = f :: below) (hown : ∀ g ∈ f :: below, g.isUse = true)
    (hstep : m.step t = some m') :
    Frame.AtWork (m'.stack t) ∨ m.dispatcher.refusal? = none ∧ Frame.Uses (m'.stack t) := by
  have hf := hown f List.mem_cons_self
  have hbelow : ∀ g ∈ below, g.isUse = true := fun g hg => hown g (List.mem_cons_of_mem _ hg)
  -- the step of a frame that leaves alone all that threads share
  have put {pushed : List Frame} {events : List (Event E)} (ha : Aside m t f pushed events)
      (hstack : Frame.AtWork (pushed ++ below)) : Frame.AtWork (m'.stack t) := by
    cases (step_of_acts hs (.aside ha)).symm.trans hstep
    have hleft : (m.after t events (pushed ++ below)).stack t = pushed ++ below :=
      stack_withStack_self rfl hs _
    rwa [hleft]
  cases f with
  | guard => exact .inl (put .guard (.own hbelow))
  | script origin calls =>
    cases origin <;> first | cases hf | skip
    cases calls with
    | nil => exact .inl (put .ended (.own hbelow))
    | cons c calls =>
      obtain ⟨hc, hcalls⟩ := (Bool.and_eq_true ..).mp hf
      have hlater : ∀ g ∈ .script .caller calls :: below, g.isUse = true :=
        List.forall_mem_cons.2 ⟨hcalls, hbelow⟩
      rcases Call.isUse_cases hc with hseed | rfl | ⟨inner, rfl, hinner⟩
      · rcases step_of_isSeed h.queue hseed hs with
          ⟨message, rfl⟩ | ⟨-, -, m₁, hm₁, ⟨hs₁, -⟩ | ⟨hopen, posted, rfl, hs₁⟩⟩
        · rw [stack_of_panic hs hstep]
          exact .inl (Frame.atWork_left hbelow)
        · cases hm₁.symm.trans hstep
          exact .inl (hs₁ ▸ .own hlater)
        · cases hm₁.symm.trans hstep
          exact .inr ⟨hopen, hs₁ ▸ .posting hc (.own hlater)⟩
      · cases ho : m.dispatcher.owner.isCurrent t with
        | true => exact .inl (put (.pump h.queue ho) (.between hlater))
        | false => exact .inl (put (.pumpElsewhere h.queue ho) (.own hlater))
      · exact .inl (put .catching
          (.own (List.forall_mem_cons.2 ⟨hinner, List.forall_mem_cons.2 ⟨rfl, hlater⟩⟩)))
  | _ => cases hf

/-- A thread at the queue takes the oldest task, or finds none and returns. -/
theorem step_between (h : Pumped initializer owner m) {taken : Nat} {below : List Frame}
    (hs : m.stack t = .pumping taken .caller :: below) :
    (m.dispatcher.tasks = [] ∧
      m.step t = some ((m.answer t .caller (.pumped (.ok taken))).withStack t below)) ∨
    ∃ calls m', Call.areSeeds calls = true ∧ m.step t = some m' ∧
      m.traffic t = some (.taken (.job calls)) ∧
      m'.stack t = .script .job calls :: .pumping (taken + 1) .caller :: below := by
  cases htake : m.dispatcher.take? with
  | none =>
    have hempty := Dispatcher.take?_eq_none_iff.1 htake
    exact .inl ⟨hempty, step_of_acts hs (.aside (.drained hempty))⟩
  | some next =>
    obtain ⟨task, d⟩ := next
    have htasks := Dispatcher.take?_tasks htake
    have hseed := h.seeds task (htasks ▸ List.mem_cons_self)
    cases task with
    | job calls =>
      refine .inr ⟨calls, _, hseed, step_of_acts hs (.took .pumping htake), ?_,
        stack_withStack_self rfl hs _⟩
      simp [traffic, nextPost_eq hs, Machine.posting, Machine.taken, hs, Frame.takesTasks, htasks]
    | startup | reply => cases hseed

/-- What threads have to do after a step. A post begins only where the queue is open. -/
theorem uses_step (h : Pumped initializer owner m) (hstep : m.step t = some m') :
    Frame.AtWork (m'.stack t) ∨ m.dispatcher.refusal? = none ∧ Frame.Uses (m'.stack t) := by
  obtain ⟨f, below, hs⟩ := exists_frame_of_step hstep
  have huses := h.uses t
  rw [hs] at huses
  cases huses with
  -- The look at the queue lies behind the thread, so that it pushes its task and goes on.
  | posting hseeds hbelow =>
    obtain ⟨-, -, m₁, hm₁, hs₁⟩ := step_of_pushing hs
    cases hm₁.symm.trans hstep
    exact .inl (hs₁ ▸ hbelow)
  | atWork hwork =>
    cases hwork with
    | own hown => exact h.atWork_own hs hown hstep
    | between hbelow =>
      rcases h.step_between hs with ⟨-, hnext⟩ | ⟨calls, m₁, hseeds, hnext, -, hs₁⟩
      · cases hnext.symm.trans hstep
        rw [stack_withStack_self (threads_answer ..) hs]
        exact .inl (.own hbelow)
      · cases hnext.symm.trans hstep
        exact .inl (hs₁ ▸ .within hseeds hbelow)
    | @within calls taken below hseeds hbelow =>
      cases calls with
      | nil =>
        cases (step_of_acts hs (.aside .ended)).symm.trans hstep
        have hleft : (m.after t [] ([] ++ .pumping taken .caller :: below)).stack t
            = .pumping taken .caller :: below := stack_withStack_self rfl hs _
        rw [hleft]
        exact .inl (.between hbelow)
      | cons c calls =>
        obtain ⟨hc, hcalls⟩ := (Bool.and_eq_true ..).mp hseeds
        rcases step_of_isSeed h.queue hc hs with
          ⟨message, rfl⟩ | ⟨-, -, m₁, hm₁, ⟨hs₁, -⟩ | ⟨hopen, posted, rfl, hs₁⟩⟩
        · -- nothing between the task and the thread's own calls catches it
          have hwork : Frame.AtWork (Frame.unwind below).landing.left := Frame.atWork_left hbelow
          rw [stack_of_panic hs hstep]
          exact .inl hwork
        · cases hm₁.symm.trans hstep
          exact .inl (hs₁ ▸ .within hcalls hbelow)
        · cases hm₁.symm.trans hstep
          exact .inr ⟨hopen, hs₁ ▸ .posting hc (.within hcalls hbelow)⟩

theorem step (h : Pumped initializer owner m) (hstep : m.step t = some m') :
    Pumped initializer owner m' := by
  have hturn := turn_of_step hstep
  refine ⟨h.toSound.step hturn, (h.isLoop_eq hturn).trans h.queue, fun task hmem => ?_,
    fun u => ?_⟩
  · rcases mem_tasks_of_step hstep hmem with hqueued | ⟨admitted, hnext⟩
    · exact h.seeds task hqueued
    · obtain ⟨_, calls, _, rfl, hseeds, -⟩ := stack_of_nextPost (h.uses t) hnext
      exact hseeds
  · by_cases hu : u = t
    · exact hu ▸ (h.uses_step hstep).elim .atWork And.right
    · exact h.stack_of_step hstep hu ▸ h.uses u

theorem run (h : Pumped initializer owner m) (schedule : List ThreadId) :
    Pumped initializer owner (m.run schedule) :=
  run_induction (fun _ _ _ h hs => h.step hs) h schedule

end Pumped

theorem pumped_machine (s : Setup σ E) (hqueue : s.loops = false)
    (hqueued : ∀ calls ∈ s.queued, Call.areSeeds calls = true)
    (hscripts : ∀ calls ∈ s.scripts, Call.areUses calls = true) :
    Pumped s.initializer s.owner s.machine where
  toSound := sound_machine s
  queue := s.isLoop_dispatcher.trans hqueue
  seeds := by
    rw [tasks_machine]
    intro task hmem
    obtain ⟨calls, hcalls, rfl⟩ := List.mem_map.1 hmem
    exact hqueued calls hcalls
  uses t := by
    simp only [stack, Setup.machine, List.getElem?_mapIdx, hqueue]
    cases hscript : s.scripts[t]? with
    | none => exact .atWork (.own (List.forall_mem_nil _))
    | some calls =>
      have hcalls := hscripts calls (List.mem_of_getElem? hscript)
      exact .atWork (.own (List.forall_mem_singleton.2 hcalls))

/-! ### A call to pump -/

theorem account_concat {schedule : List ThreadId} (hs : (x.run schedule).step u = some m') :
    x.account (schedule ++ [u])
      = x.account schedule ++ (((x.run schedule).traffic u).map (u, ·)).toList := by
  rw [account_append, account, hs]
  exact congrArg _ (List.append_nil _)

theorem accepted_concat {schedule : List ThreadId} (hs : (x.run schedule).step u = some m') :
    x.accepted (schedule ++ [u])
      = x.accepted schedule ++ (((x.run schedule).traffic u).bind Traffic.accepted?).toList := by
  rw [accepted_append, accepted_cons hs]
  exact congrArg _ (List.append_nil _)

/-- All along a schedule the call of a thread that has left some frames for later has not ended:
there is more on the stack than those. -/
def InCall (m : Machine σ E) (t : ThreadId) (later : List Frame) (schedule : List ThreadId) :
    Prop :=
  ∀ part, part <+: schedule → later.length < ((m.run part).stack t).length

/-- The queue is open, and nobody but the thread has had to do with it. -/
def Undisturbed (m : Machine σ E) (t : ThreadId) (schedule : List ThreadId) : Prop :=
  (m.run schedule).dispatcher.refusal? = none ∧ ∀ entry ∈ m.account schedule, entry.1 = t

namespace InCall

variable {later : List Frame} {schedule : List ThreadId}

theorem init (h : x.InCall t later (schedule ++ [u])) : x.InCall t later schedule :=
  fun part hpart => h part (hpart.trans (List.prefix_append ..))

theorem concat (h : x.InCall t later schedule)
    (hs : later.length < ((x.run (schedule ++ [u])).stack t).length) :
    x.InCall t later (schedule ++ [u]) := by
  intro part hpart
  rcases List.prefix_concat_iff.mp hpart with rfl | hpart
  · exact hs
  · exact h part hpart

/-- A call that is over has ended with some step. -/
theorem exists_end (hstart : x.InCall t later []) (hover : ¬ x.InCall t later schedule) :
    ∃ before u after, schedule = before ++ u :: after ∧ x.InCall t later before ∧
      ¬ x.InCall t later (before ++ [u]) := by
  induction schedule using List.reverseRecOn with
  | nil => exact absurd hstart hover
  | append_singleton schedule u ih =>
    by_cases hcall : x.InCall t later schedule
    · exact ⟨schedule, u, [], rfl, hcall, hover⟩
    · obtain ⟨before, v, after, rfl, hbefore, hend⟩ := ih hcall
      exact ⟨before, v, after ++ [u], by rw [List.append_assoc, List.cons_append], hbefore, hend⟩

end InCall

namespace Undisturbed

variable {schedule : List ThreadId}

theorem init (h : x.Undisturbed t (schedule ++ [u])) : x.Undisturbed t schedule := by
  refine ⟨Classical.byContradiction fun hrefuses => ?_, fun entry hmem => h.2 entry ?_⟩
  · -- what refuses goes on refusing
    have hlast := refusal?_run hrefuses [u]
    rw [← run_append] at hlast
    exact hlast h.1
  · rw [account_append]
    exact List.mem_append_left _ hmem

/-- The others post nothing. -/
theorem accepted_concat_other (h : x.Undisturbed t (schedule ++ [u])) (hu : u ≠ t) :
    x.accepted (schedule ++ [u]) = x.accepted schedule := by
  rw [accepted_append]
  cases hs : (x.run schedule).step u with
  | none =>
    rw [accepted, accepted, account, hs]
    exact List.append_nil _
  | some m' =>
    have hidle : (x.run schedule).traffic u = none := by
      cases htraffic : (x.run schedule).traffic u with
      | none => rfl
      | some traffic =>
        refine absurd (h.2 (u, traffic) ?_) hu
        rw [account_concat hs, htraffic]
        exact List.mem_append_right _ List.mem_cons_self
    rw [accepted_cons hs, hidle]
    exact List.append_nil _

end Undisturbed

/-- Where a thread is in a call to pump: at the queue, or in the task that it took last, or in the
middle of a post of that task. It has counted the tasks; what has been accepted is what they have
posted, if nobody disturbs. -/
inductive Going (x : Machine σ E) (t : ThreadId) (later : List Frame) (schedule : List ThreadId) :
    Prop
  | between :
      (x.run schedule).stack t = .pumping (x.executed schedule).length .caller :: later →
      (x.Undisturbed t schedule →
        x.accepted schedule = (x.executed schedule).flatMap Task.children) →
      Going x t later schedule
  | within (earlier : List Task) (done calls : List Call) :
      (x.run schedule).stack t
        = .script .job calls :: .pumping (x.executed schedule).length .caller :: later →
      x.executed schedule = earlier ++ [.job (done ++ calls)] →
      (x.Undisturbed t schedule →
        x.accepted schedule ++ Call.offspring calls
          = (x.executed schedule).flatMap Task.children) →
      Going x t later schedule
  | posting (earlier : List Task) (done posted calls : List Call) :
      (x.run schedule).stack t = .pushing (.job posted) .job :: .script .job calls ::
        .pumping (x.executed schedule).length .caller :: later →
      x.executed schedule = earlier ++ [.job (done ++ calls)] →
      (x.Undisturbed t schedule →
        x.accepted schedule ++ .job posted :: Call.offspring calls
          = (x.executed schedule).flatMap Task.children) →
      Going x t later schedule

/-- How a call to pump ends: it finds the queue empty and returns, or the last task panics. -/
inductive Ended (x : Machine σ E) (t : ThreadId) (later : List Frame) (schedule : List ThreadId) :
    Machine σ E → Prop
  | returned : (x.run schedule).panics t = none → (x.run schedule).dispatcher.tasks = [] →
      (x.Undisturbed t schedule →
        x.accepted schedule = (x.executed schedule).flatMap Task.children) →
      Ended x t later schedule (((x.run schedule).answer t .caller
        (.pumped (.ok (x.executed schedule).length))).withStack t later)
  | panicked (message : String) (earlier : List Task) (done calls : List Call) :
      (x.run schedule).panics t = some message →
      x.executed schedule = earlier ++ [.job (done ++ .panic message :: calls)] →
      Ended x t later schedule ((x.run schedule).panic t message later)

/-- A call that has ended leaves no more than what was left for later. -/
theorem Ended.length_le {later : List Frame} {schedule : List ThreadId}
    (h : x.Ended t later schedule m') {f : Frame} {below : List Frame}
    (hs : (x.run schedule).stack t = f :: below) : (m'.stack t).length ≤ later.length := by
  cases h with
  | returned =>
    rw [stack_withStack_self (threads_answer ..) hs]
  | panicked message =>
    rw [stack_panic hs]
    exact (Frame.left_suffix later).length_le

namespace Going

variable {later : List Frame} {schedule schedule' : List ThreadId}

theorem lt_length (h : x.Going t later schedule) :
    later.length < ((x.run schedule).stack t).length := by
  cases h with
  | between hs | within _ _ _ hs | posting _ _ _ _ hs =>
    rw [hs]
    simp only [List.length_cons]
    omega

theorem isPrefix_children (h : x.Going t later schedule) (hquiet : x.Undisturbed t schedule) :
    x.accepted schedule <+: (x.executed schedule).flatMap Task.children := by
  cases h with
  | between _ hchildren => exact ⟨[], by rw [List.append_nil, hchildren hquiet]⟩
  | within _ _ _ _ _ hchildren | posting _ _ _ _ _ _ hchildren => exact ⟨_, hchildren hquiet⟩

/-- The step that ends a call ends it. -/
theorem not_inCall (h : x.Going t later schedule)
    (hstep : (x.run schedule).step t = some m') (hended : x.Ended t later schedule m') :
    ¬ x.InCall t later (schedule ++ [t]) := by
  intro hcall
  have hlength : (m'.stack t).length ≤ later.length := by
    cases h with
    | between hs | within _ _ _ hs | posting _ _ _ _ hs => exact hended.length_le hs
  have hcalled := hcall _ (List.prefix_refl _)
  rw [run_concat, hstep, Option.getD_some] at hcalled
  omega

/-- A step of another thread. -/
theorem concat_other (h : x.Going t later schedule) (hu : u ≠ t)
    (hs : (x.run (schedule ++ [u])).stack t = (x.run schedule).stack t)
    (hexecuted : x.executed (schedule ++ [u]) = x.executed schedule) :
    x.Going t later (schedule ++ [u]) := by
  have hkeeps (h : x.Undisturbed t (schedule ++ [u])) := h.accepted_concat_other hu
  cases h with
  | between hs₁ hchildren =>
    exact .between (by rw [hs, hexecuted, hs₁]) fun h => by
      rw [hkeeps h, hexecuted, hchildren h.init]
  | within earlier done calls hs₁ hlast hchildren =>
    have hlast' := hexecuted.trans hlast
    exact .within earlier done calls (by rw [hs, hexecuted, hs₁]) hlast' fun h => by
      rw [hkeeps h, hexecuted, hchildren h.init]
  | posting earlier done posted calls hs₁ hlast hchildren =>
    have hlast' := hexecuted.trans hlast
    exact .posting earlier done posted calls (by rw [hs, hexecuted, hs₁]) hlast' fun h => by
      rw [hkeeps h, hexecuted, hchildren h.init]

end Going

namespace Pumped

variable {later : List Frame} {schedule : List ThreadId}

/-- The thread at the queue takes a task, or the call ends. -/
theorem step_going_between (h : Pumped initializer owner (x.run schedule))
    (hs : (x.run schedule).stack t = .pumping (x.executed schedule).length .caller :: later)
    (hchildren : x.Undisturbed t schedule →
      x.accepted schedule = (x.executed schedule).flatMap Task.children) :
    ∃ m', (x.run schedule).step t = some m' ∧
      ((x.run schedule).panics t = none ∧ x.Going t later (schedule ++ [t]) ∨
        x.Ended t later schedule m') := by
  have hcalm : (x.run schedule).panics t = none := by rw [panics, hs]
  rcases h.step_between hs with ⟨hempty, hstep⟩ | ⟨calls, m', -, hstep, htraffic, hs'⟩
  · exact ⟨_, hstep, .inr (.returned hcalm hempty hchildren)⟩
  · have hrun : x.run (schedule ++ [t]) = m' := by rw [run_concat, hstep, Option.getD_some]
    have hexecuted : x.executed (schedule ++ [t]) = x.executed schedule ++ [.job calls] := by
      rw [executed_append, executed_cons hstep, htraffic]
      rfl
    have haccepted : x.accepted (schedule ++ [t]) = x.accepted schedule := by
      rw [accepted_concat hstep, htraffic]
      exact List.append_nil _
    refine ⟨m', hstep, .inl ⟨hcalm, .within _ [] calls ?_ hexecuted fun hquiet => ?_⟩⟩
    · rw [hrun, hs', hexecuted, List.length_append]
      rfl
    · rw [haccepted, hexecuted, hchildren hquiet.init, List.flatMap_append,
        List.flatMap_singleton]
      rfl

/-- The thread goes on with the task that it is in, or the call ends. -/
theorem step_going_within (h : Pumped initializer owner (x.run schedule)) {earlier : List Task}
    {done calls : List Call}
    (hs : (x.run schedule).stack t
      = .script .job calls :: .pumping (x.executed schedule).length .caller :: later)
    (hlast : x.executed schedule = earlier ++ [.job (done ++ calls)])
    (hchildren : x.Undisturbed t schedule →
      x.accepted schedule ++ Call.offspring calls
        = (x.executed schedule).flatMap Task.children) :
    ∃ m', (x.run schedule).step t = some m' ∧
      ((x.run schedule).panics t = none ∧ x.Going t later (schedule ++ [t]) ∨
        x.Ended t later schedule m') := by
  have hexecuted : x.executed (schedule ++ [t]) = x.executed schedule := by
    refine executed_concat schedule fun f below hs' => ?_
    cases hs.symm.trans hs'
    rfl
  cases calls with
  | nil =>
    have hstep : (x.run schedule).step t = some ((x.run schedule).withStack t
        (.pumping (x.executed schedule).length .caller :: later)) :=
      step_of_acts hs (.aside .ended)
    refine ⟨_, hstep, .inl ⟨by rw [panics, hs], .between ?_ fun hquiet => ?_⟩⟩
    · rw [run_concat, hstep, Option.getD_some, hexecuted]
      exact stack_withStack_self rfl hs _
    · rw [accepted_concat hstep, traffic_eq_none hs rfl rfl, hexecuted, ← hchildren hquiet.init]
      rfl
  | cons c calls =>
    have hc : c.isSeed = true := by
      have huses := h.uses t
      rw [hs] at huses
      obtain ⟨hown⟩ | ⟨⟩ | ⟨hseeds, -⟩ := huses.atWork_of_script
      · cases hown _ List.mem_cons_self
      · exact ((Bool.and_eq_true ..).mp hseeds).1
    have hlast' : x.executed (schedule ++ [t]) = earlier ++ [.job ((done ++ [c]) ++ calls)] := by
      rw [hexecuted, hlast, List.append_assoc, List.singleton_append]
    rcases step_of_isSeed h.queue hc hs with
      ⟨message, rfl⟩ | ⟨hcalm, hnone, m', hstep, ⟨hs', hleaf⟩ | ⟨-, posted, rfl, hs'⟩⟩
    · -- the panic passes the frame at the queue
      exact ⟨_, step_of_panics hs, .inr (.panicked message earlier done calls (by rw [panics, hs])
        hlast)⟩
    · -- A call that is not a post, or whose post is refused at once: it has no children.
      refine ⟨m', hstep,
        .inl ⟨hcalm, .within earlier (done ++ [c]) calls ?_ hlast' fun hquiet => ?_⟩⟩
      · rw [run_concat, hstep, Option.getD_some, hexecuted, hs']
      · rw [accepted_concat hstep, hnone, hexecuted, ← hchildren hquiet.init, Call.offspring_cons,
          hleaf hquiet.init.1]
        simp
    · -- A post that finds the queue open has its task in hand; the push comes with the next step.
      refine ⟨m', hstep, .inl ⟨hcalm,
        .posting earlier (done ++ [.post posted]) posted calls ?_ hlast' fun hquiet => ?_⟩⟩
      · rw [run_concat, hstep, Option.getD_some, hexecuted, hs']
      · rw [accepted_concat hstep, hnone, hexecuted, ← hchildren hquiet.init, Call.offspring_cons]
        simp [Call.offspring]

/-- The thread pushes the task that it has in hand, and goes on. -/
theorem step_going_posting {earlier : List Task} {done posted calls : List Call}
    (hs : (x.run schedule).stack t = .pushing (.job posted) .job :: .script .job calls ::
      .pumping (x.executed schedule).length .caller :: later)
    (hlast : x.executed schedule = earlier ++ [.job (done ++ calls)])
    (hchildren : x.Undisturbed t schedule →
      x.accepted schedule ++ .job posted :: Call.offspring calls
        = (x.executed schedule).flatMap Task.children) :
    ∃ m', (x.run schedule).step t = some m' ∧
      (x.run schedule).panics t = none ∧ x.Going t later (schedule ++ [t]) := by
  have hexecuted : x.executed (schedule ++ [t]) = x.executed schedule := by
    refine executed_concat schedule fun f below hs' => ?_
    cases hs.symm.trans hs'
    rfl
  obtain ⟨hcalm, htraffic, m', hstep, hs'⟩ := step_of_pushing hs
  refine ⟨m', hstep, hcalm, .within earlier done calls ?_ (hexecuted.trans hlast) fun hquiet => ?_⟩
  · rw [run_concat, hstep, Option.getD_some, hexecuted, hs']
  · rw [accepted_concat hstep, htraffic, hexecuted, ← hchildren hquiet.init]
    simp [Traffic.accepted?]

/-- In a call to pump the owner thread need never wait. -/
theorem step_going (h : Pumped initializer owner (x.run schedule))
    (hgoing : x.Going t later schedule) :
    ∃ m', (x.run schedule).step t = some m' ∧
      ((x.run schedule).panics t = none ∧ x.Going t later (schedule ++ [t]) ∨
        x.Ended t later schedule m') := by
  cases hgoing with
  | between hs hchildren => exact h.step_going_between hs hchildren
  | within _ _ _ hs hlast hchildren => exact h.step_going_within hs hlast hchildren
  | posting _ _ _ _ hs hlast hchildren =>
    obtain ⟨m', hstep, hnext⟩ := step_going_posting hs hlast hchildren
    exact ⟨m', hstep, .inl hnext⟩

/-- The others leave the stack of the owner thread alone, and take nothing from the queue. -/
theorem concat_other (h : Pumped initializer owner (x.run schedule)) (hu : u ≠ owner.thread) :
    (x.run (schedule ++ [u])).stack owner.thread = (x.run schedule).stack owner.thread ∧
      x.executed (schedule ++ [u]) = x.executed schedule := by
  refine ⟨h.stack_concat (Ne.symm hu), executed_concat schedule fun f below hs => ?_⟩
  rw [Bool.eq_false_iff]
  exact fun hf => hu (h.eq_owner_of_takesTasks hs hf)

/-- Where the owner thread is in a call to pump, all along the call. -/
theorem going (h : Pumped initializer owner x)
    (hs : x.stack owner.thread = .pumping 0 .caller :: later)
    (hcall : x.InCall owner.thread later schedule) : x.Going owner.thread later schedule := by
  induction schedule using List.reverseRecOn with
  | nil => exact .between hs fun _ => rfl
  | append_singleton schedule u ih =>
    have hgoing := ih hcall.init
    by_cases hu : u = owner.thread
    · subst hu
      obtain ⟨m', hstep, ⟨-, hnext⟩ | hended⟩ := (h.run schedule).step_going hgoing
      · exact hnext
      · exact absurd hcall (hgoing.not_inCall hstep hended)
    · obtain ⟨hstack, hexecuted⟩ := (h.run schedule).concat_other hu
      exact hgoing.concat_other hu hstack hexecuted

theorem inCall_nil (hs : x.stack t = .pumping 0 .caller :: later) : x.InCall t later [] := by
  intro part hpart
  obtain rfl := List.prefix_nil.mp hpart
  show later.length < (x.stack t).length
  rw [hs]
  exact Nat.lt_succ_self _

/-- Each step of the owner thread in a call to pump uses up some of the weight. -/
theorem weight_le_of_inCall (h : Pumped initializer owner x)
    (hs : x.stack owner.thread = .pumping 0 .caller :: later)
    (hcall : x.InCall owner.thread later schedule) :
    (x.run schedule).weight + schedule.count owner.thread ≤ x.weight := by
  induction schedule using List.reverseRecOn with
  | nil => exact Nat.le_refl _
  | append_singleton schedule u ih =>
    have hle := ih hcall.init
    rw [run_concat, List.count_append, List.count_singleton]
    cases hstep : (x.run schedule).step u with
    | some m' =>
      have hless := weight_of_step hstep
      rw [Option.getD_some]
      split <;> omega
    | none =>
      have hu : (u == owner.thread) = false := by
        rw [beq_eq_false_iff_ne]
        rintro rfl
        obtain ⟨m', hnext, -⟩ := (h.run schedule).step_going (h.going hs hcall.init)
        cases hnext.symm.trans hstep
      rw [Option.getD_none, hu]
      simpa using hle

/-- A call to pump ends, in a step of the owner thread, if only that thread steps often enough. -/
theorem exists_end (h : Pumped initializer owner x)
    (hs : x.stack owner.thread = .pumping 0 .caller :: later)
    (hsteps : x.weight < schedule.count owner.thread) :
    ∃ before after, schedule = before ++ owner.thread :: after ∧
      x.InCall owner.thread later before ∧
      ¬ x.InCall owner.thread later (before ++ [owner.thread]) := by
  have hover : ¬ x.InCall owner.thread later schedule := fun hcall => by
    have := h.weight_le_of_inCall hs hcall
    omega
  obtain ⟨before, u, after, rfl, hbefore, hend⟩ := InCall.exists_end (inCall_nil hs) hover
  by_cases hu : u = owner.thread
  · exact ⟨before, after, by rw [hu], hbefore, hu ▸ hend⟩
  · refine absurd (hbefore.concat ?_) hend
    rw [((h.run before).concat_other hu).1]
    exact hbefore before (List.prefix_refl _)

/-- The tasks of a queue, and those accepted since, are those executed since and those left. -/
theorem ledger (h : Pumped initializer owner x) (schedule : List ThreadId) :
    x.dispatcher.tasks ++ x.accepted schedule
      = x.executed schedule ++ (x.run schedule).dispatcher.tasks := by
  have hlive {m : Machine σ E} (h : Pumped initializer owner m) :
      m.dispatcher.stopped = false := by
    obtain ⟨o, q, hd⟩ := h.exists_queue
    rw [hd]
    rfl
  have hstart : Ledger x x.dispatcher.tasks [] :=
    ⟨fun _ => rfl, fun hstopped => by rw [hlive h] at hstopped; cases hstopped⟩
  simpa using (hstart.run h.toSound schedule).live (hlive (h.run schedule))

end Pumped

/-! ### All of it -/

/-- Whether the next step of a thread closes the queue. -/
def closes (m : Machine σ E) (u : ThreadId) : Bool :=
  match m.stack u with
  | .script _ (.close :: _) :: _ => true
  | _ => false

/-- What comes of a call to pump, with some frames left for later. -/
structure Drains (x : Machine σ E) (t : ThreadId) (later : List Frame) : Prop where
  /-- The call ends when the thread has stepped often enough, whatever the others do. -/
  ends (schedule : List ThreadId) : x.weight < schedule.count t →
    ∃ before after, schedule = before ++ t :: after ∧ x.InCall t later before ∧
      ¬ x.InCall t later (before ++ [t])
  /-- If nobody disturbs, the tasks executed are the first ones of the trees of what was queued,
  level by level. -/
  orders (during : List ThreadId) : x.InCall t later during → x.Undisturbed t during →
    x.executed during <+: Task.levelOrder x.dispatcher.tasks
  /-- Unless it ends by a panic, it returns the number of tasks executed, with an empty queue: all
  that was queued and all that has been accepted. If nobody disturbs, those are all the trees. -/
  returns (during : List ThreadId) : x.InCall t later during →
    ¬ x.InCall t later (during ++ [t]) → (x.run during).panics t = none →
    (x.run during).step t = some (((x.run during).answer t .caller
      (.pumped (.ok (x.executed during).length))).withStack t later) ∧
    (x.run during).dispatcher.tasks = [] ∧
    x.executed during = x.dispatcher.tasks ++ x.accepted during ∧
    (x.Undisturbed t during → x.executed during = Task.levelOrder x.dispatcher.tasks ∧
      (x.executed during).length = total Task.nodes x.dispatcher.tasks)
  /-- A panic leaves the call; the task was the last one taken, and the rest are still queued. -/
  panics (during : List ThreadId) (message : String) : x.InCall t later during →
    (x.run during).panics t = some message →
    (x.run during).step t = some ((x.run during).panic t message later) ∧
    ¬ x.InCall t later (during ++ [t]) ∧
    (∃ earlier done calls,
      x.executed during = earlier ++ [.job (done ++ .panic message :: calls)]) ∧
    x.dispatcher.tasks ++ x.accepted during
      = x.executed during ++ ((x.run during).panic t message later).dispatcher.tasks

namespace Pumped

variable {later : List Frame} {schedule : List ThreadId}

theorem tasks_panic (h : Pumped initializer owner m) (message : String) (stack : List Frame) :
    (m.panic t message stack).dispatcher.tasks = m.dispatcher.tasks := by
  obtain ⟨o, q, hd⟩ := h.exists_queue
  unfold panic
  dsimp only
  split
  · rfl
  · show m.dispatcher.stop.tasks = _
    rw [hd]
    rfl
  · rfl

theorem drains (h : Pumped initializer owner x)
    (hs : x.stack owner.thread = .pumping 0 .caller :: later) : x.Drains owner.thread later where
  ends _ hsteps := h.exists_end hs hsteps
  orders during hcall hquiet := by
    -- What has been executed and what is queued or still to come are the children of what has been
    -- executed, behind the tasks of the beginning: level order is the only such order.
    obtain ⟨rest, hrest⟩ := (h.going hs hcall).isPrefix_children hquiet
    refine Task.isPrefix_levelOrder ⟨(x.run during).dispatcher.tasks ++ rest, ?_⟩
    rw [← List.append_assoc, ← h.ledger during, List.append_assoc, hrest]
  returns during hcall hend hcalm := by
    have hgoing := h.going hs hcall
    obtain ⟨m', hstep, ⟨-, hnext⟩ | hended⟩ := (h.run during).step_going hgoing
    · -- The call ends with this step, so that it does not go on.
      exact absurd (hcall.concat hnext.lt_length) hend
    · cases hended with
      | panicked _ _ _ _ hpanics => rw [hcalm] at hpanics; cases hpanics
      | returned _ hempty hchildren =>
        have hall := h.ledger during
        rw [hempty, List.append_nil] at hall
        refine ⟨hstep, hempty, hall.symm, fun hquiet => ?_⟩
        have horder := hall.symm
        rw [hchildren hquiet] at horder
        have hlevels := Task.eq_levelOrder horder
        exact ⟨hlevels, by rw [hlevels, Task.length_levelOrder]⟩
  panics during message hcall hpanics := by
    have hgoing := h.going hs hcall
    obtain ⟨m', hstep, ⟨hcalm, -⟩ | hended⟩ := (h.run during).step_going hgoing
    · rw [hpanics] at hcalm
      cases hcalm
    · have hover := hgoing.not_inCall hstep hended
      cases hended with
      | returned hcalm => rw [hpanics] at hcalm; cases hcalm
      | panicked message' earlier done calls hpanics' hlast =>
        cases hpanics.symm.trans hpanics'
        refine ⟨hstep, hover, ⟨earlier, done, calls, hlast⟩, ?_⟩
        rw [(h.run during).tasks_panic, h.ledger during]

/-- A queue refuses because it has been closed. -/
theorem refusal?_eq (h : Pumped initializer owner m) (hrefuses : m.dispatcher.refusal? ≠ none) :
    m.dispatcher.refusal? = some .queueClosed := by
  obtain ⟨o, q, hd⟩ := h.exists_queue
  rw [hd, Dispatcher.refusal?] at hrefuses ⊢
  split at hrefuses
  · rename_i hclosed
    rw [if_pos hclosed]
  · exact absurd rfl hrefuses

theorem refuses_of_closes (h : Pumped initializer owner x) (hcloses : x.closes u = true) :
    ∃ next, x.step u = some next ∧ x.traffic u = none ∧ Frame.AtWork (next.stack u) ∧
      next.dispatcher.refusal? ≠ none := by
  unfold closes at hcloses
  split at hcloses
  · rename_i origin calls below hs
    obtain ⟨next, hstep, hs', hclosed⟩ : ∃ next, x.step u = some next ∧
        next.stack u = .script origin calls :: below ∧ next.dispatcher = x.dispatcher.close :=
      ⟨_, step_of_acts hs .close, stack_withStack_self rfl hs _, rfl⟩
    refine ⟨next, hstep, traffic_eq_none hs rfl rfl, ?_, ?_⟩
    · have huses := (h.step hstep).uses u
      rw [hs'] at huses ⊢
      exact huses.atWork_of_script
    · obtain ⟨o, q, hd⟩ := h.exists_queue
      rw [hclosed, hd]
      simp [Dispatcher.close, Dispatcher.refusal?]
  · cases hcloses

/-- A thread that has a task in hand after a step that has begun no post has had it before, and has
not stepped. -/
theorem inHand_of_step (h : Pumped initializer owner m) (hstep : m.step t = some m')
    (hwork : Frame.AtWork (m'.stack t)) {task : Task} (hin : m'.inHand u = some task) :
    u ≠ t ∧ m.inHand u = some task := by
  have hne : u ≠ t := by
    rintro rfl
    rw [inHand_of_atWork hwork] at hin
    cases hin
  obtain ⟨origin, calls, below, hs, rfl⟩ := stack_of_inHand ((h.step hstep).uses u) hin
  rw [h.stack_of_step hstep hne] at hs
  exact ⟨hne, inHand_eq_some_iff.2 (nextPost_eq hs)⟩

/-- **What a queue still accepts when it refuses tasks** are those that threads have in hand, one of
each thread. -/
theorem accepted_late (h : Pumped initializer owner x) (hrefuses : x.dispatcher.refusal? ≠ none)
    (schedule : List ThreadId) :
    ∃ late : List (ThreadId × Task), x.accepted schedule = late.map Prod.snd ∧
      (late.map Prod.fst).Nodup ∧ ∀ entry ∈ late, x.inHand entry.1 = some entry.2 := by
  induction schedule generalizing x with
  | nil => exact ⟨[], rfl, List.nodup_nil, List.forall_mem_nil _⟩
  | cons u rest ih =>
    cases hstep : x.step u with
    | none =>
      rw [accepted, account, hstep]
      exact ih h hrefuses
    | some next =>
      obtain ⟨hstill, honly⟩ := refusal?_of_step hstep hrefuses
      obtain ⟨late, haccepted, hdistinct, hhands⟩ := ih (h.step hstep) hstill
      have hwork : Frame.AtWork (next.stack u) :=
        (h.uses_step hstep).resolve_right fun hopen => hrefuses hopen.1
      have hbefore : ∀ entry ∈ late, entry.1 ≠ u ∧ x.inHand entry.1 = some entry.2 :=
        fun entry hmem => h.inHand_of_step hstep hwork (hhands entry hmem)
      rw [accepted_cons hstep, haccepted]
      cases htraffic : (x.traffic u).bind Traffic.accepted? with
      | none => exact ⟨late, rfl, hdistinct, fun entry hmem => (hbefore entry hmem).2⟩
      | some task =>
        have hin : x.inHand u = some task := by
          obtain ⟨traffic, ht, hacc⟩ := Option.bind_eq_some_iff.1 htraffic
          cases traffic <;> cases hacc
          exact honly task ht
        -- the thread has pushed its task, so it is not among those that follow
        have hnew : u ∉ late.map Prod.fst := by
          intro hmem
          obtain ⟨entry, hentry, rfl⟩ := List.mem_map.1 hmem
          exact (hbefore entry hentry).1 rfl
        exact ⟨(u, task) :: late, rfl, List.nodup_cons.2 ⟨hnew, hdistinct⟩,
          List.forall_mem_cons.2 ⟨hin, fun entry hmem => (hbefore entry hmem).2⟩⟩

/-- A post that a queue refuses: the caller is told why, and that is all. -/
theorem step_of_refusal (h : Pumped initializer owner m)
    (hrefuses : m.dispatcher.refusal? ≠ none) {task : Task} (hoffered : m.offered t = some task) :
    ∃ origin calls later below, m.stack t = .script origin (.post calls :: later) :: below ∧
      m.step t = some ((m.answer t origin (.posted
        (.error DispatchRefusal.queueClosed.error))).withStack t
          (.script origin later :: below)) := by
  obtain ⟨origin, calls, below, -, -, later, hs⟩ :=
    stack_of_nextPost (h.uses t) (offered_eq_some_iff.1 hoffered)
  exact ⟨origin, calls, later, below, hs,
    step_of_acts hs (.postRefused .job (h.refusal?_eq hrefuses))⟩

/-- A call to pump: elsewhere it is refused, and the owner thread begins to pump. -/
theorem step_pump (h : Pumped initializer owner m) {origin : Origin} {calls : List Call}
    {below : List Frame} (hs : m.stack t = .script origin (.pump :: calls) :: below) :
    (t ≠ owner.thread → m.step t = some ((m.answer t origin (.pumped
      (.error (.notOwnerContext "QueueDispatcher::run_pending")))).withStack t
        (.script origin calls :: below))) ∧
    (t = owner.thread → ∃ x, m.step t = some x ∧ x.dispatcher = m.dispatcher ∧
      x.Drains t (.script origin calls :: below)) := by
  constructor
  · intro ht
    have helsewhere : m.dispatcher.owner.isCurrent t = false := by
      rw [Bool.eq_false_iff, h.owner_eq]
      exact fun hcurrent => ht (Owner.isCurrent_iff.1 hcurrent)
    exact step_of_acts hs (.aside (.pumpElsewhere h.queue helsewhere))
  · rintro rfl
    have hhere : m.dispatcher.owner.isCurrent owner.thread = true := by
      rw [h.owner_eq]
      exact Owner.isCurrent_iff.2 rfl
    -- tasks do not pump, so it is a call of the thread's own
    obtain rfl : origin = .caller := by
      have huses := h.uses owner.thread
      rw [hs] at huses
      obtain ⟨hown⟩ | ⟨⟩ | ⟨hseeds, -⟩ := huses.atWork_of_script
      · have hf := hown _ List.mem_cons_self
        cases origin with
        | caller => rfl
        | callback | job => cases hf
      · cases hseeds
    have hstep := step_of_acts hs (.aside (.pump h.queue hhere))
    exact ⟨_, hstep, rfl, (h.step hstep).drains (stack_withStack_self rfl hs _)⟩

end Pumped

/-- **Pumping conserves and orders tasks, and ends.** Take any run over a queue whose tasks post
trees of tasks, or panic, and whose threads post, pump and close.

* At every moment what has been accepted is what has been taken for execution, followed by what is
  still queued.
* From the moment at which the queue is closed, whoever begins to post is told so. All that is
  accepted then are tasks whose posts had found the queue open before, at most one of each thread.
* A call to pump on another thread than the owner's is refused and does nothing else.
* A call to pump on the owner thread ends. If nobody disturbs, it executes the trees of what was
  queued level by level. Unless a task panics, it executes all that is accepted, returns how much
  that was and leaves the queue empty. If a task panics, the panic leaves the call, and the tasks
  behind it are still queued. -/
theorem pump_executes_in_order (s : Setup σ E) (hqueue : s.loops = false)
    (hqueued : ∀ calls ∈ s.queued, Call.areSeeds calls = true)
    (hscripts : ∀ calls ∈ s.scripts, Call.areUses calls = true) (schedule : List ThreadId) :
    let m := s.machine
    let now := m.run schedule
    s.queued.map .job ++ m.accepted schedule = m.executed schedule ++ now.dispatcher.tasks ∧
    (∀ before u after, schedule = before ++ u :: after → (m.run before).closes u = true →
      (∃ late : List (ThreadId × Task),
        m.accepted schedule = m.accepted before ++ late.map Prod.snd ∧
        (late.map Prod.fst).Nodup ∧
        ∀ entry ∈ late, (m.run before).inHand entry.1 = some entry.2) ∧
      ∀ t task, now.offered t = some task →
        ∃ origin calls later below, now.stack t = .script origin (.post calls :: later) :: below ∧
          now.step t = some ((now.answer t origin (.posted
            (.error DispatchRefusal.queueClosed.error))).withStack t
              (.script origin later :: below))) ∧
    ∀ t origin calls below, now.stack t = .script origin (.pump :: calls) :: below →
      (t ≠ s.owner.thread → now.step t = some ((now.answer t origin (.pumped
        (.error (.notOwnerContext "QueueDispatcher::run_pending")))).withStack t
          (.script origin calls :: below))) ∧
      (t = s.owner.thread → ∃ x, now.step t = some x ∧ x.dispatcher = now.dispatcher ∧
        x.Drains t (.script origin calls :: below)) := by
  intro m now
  have hstart : Pumped s.initializer s.owner m := pumped_machine s hqueue hqueued hscripts
  refine ⟨?_, ?_, fun t origin calls below hs => (hstart.run schedule).step_pump hs⟩
  · rw [← tasks_machine]
    exact hstart.ledger schedule
  · rintro before u after rfl hcloses
    have hbefore := hstart.run before
    -- From the step that closes the queue refuses; only what is in hand then is still accepted.
    obtain ⟨next, hstep, hidle, hwork, hrefuses⟩ := hbefore.refuses_of_closes hcloses
    obtain ⟨late, haccepted, hdistinct, hhands⟩ := (hbefore.step hstep).accepted_late hrefuses after
    refine ⟨⟨late, ?_, hdistinct, fun entry hmem => ?_⟩, fun t task hoffered => ?_⟩
    · rw [accepted_append, accepted_cons hstep, hidle, haccepted]
      rfl
    · exact (hbefore.inHand_of_step hstep hwork (hhands entry hmem)).2
    · refine (hstart.run _).step_of_refusal ?_ hoffered
      rw [run_append]
      show ((((m.run before).step u).getD (m.run before)).run after).dispatcher.refusal? ≠ none
      rw [hstep, Option.getD_some]
      exact refusal?_run hrefuses after

/-- Two trees are queued. The owner thread pumps, and another thread tries to meanwhile. Then a
third thread begins to post, and has the task still in hand when the queue is closed and pumped
again. -/
theorem pump_executes_in_order_two_trees :
    let s : Setup Unit Nat :=
      { initializer := fun host => (.engine 7, host)
        host := ()
        owner := ⟨0, none⟩
        queued := [[.post [.post [.note (.task "grandchild")]]], [.post [.note (.task "child")]]]
        scripts := [[.pump, .close, .pump], [.pump], [.post [.note (.task "late")]]] }
    let x := s.machine.run [0]
    let during := [0, 1, 0, 0, 0, 0, 0, 0, 0, 0, 0, 0, 0, 0, 0, 0, 0, 0, 0]
    let before := 0 :: during ++ [0, 2]
    (x.executed during = Task.levelOrder x.dispatcher.tasks ∧
      (x.run during).step 0 = some (((x.run during).answer 0 .caller (.pumped (.ok 5))).withStack 0
        [.script .caller [.close, .pump]]) ∧
      (x.run during).dispatcher.tasks = []) ∧
    ∃ late : List (ThreadId × Task), late.length = 1 ∧
      s.machine.accepted (before ++ [0, 0, 0, 2])
        = s.machine.accepted before ++ late.map Prod.snd ∧
      ∀ entry ∈ late, (s.machine.run before).inHand entry.1 = some entry.2 := by
  intro s x during before
  constructor
  · obtain ⟨-, -, hpump⟩ := pump_executes_in_order s rfl (by decide) (by decide) []
    obtain ⟨y, hstep, -, hdrains⟩ := (hpump 0 .caller [.close, .pump] [] rfl).2 rfl
    obtain rfl : x = y := Option.some.inj hstep
    have hcall : x.InCall 0 [.script .caller [.close, .pump]] during := by
      have hall : ∀ part ∈ during.inits, 1 < ((x.run part).stack 0).length := by decide +kernel
      exact fun part hpart => hall part ((List.mem_inits ..).2 hpart)
    have hend : ¬ x.InCall 0 [.script .caller [.close, .pump]] (during ++ [0]) := fun h =>
      absurd (h _ (List.prefix_refl _)) (by decide +kernel)
    -- Nobody panics, and whatever is accepted meanwhile comes from the owner thread.
    have hquiet : x.Undisturbed 0 during := by
      have hall : (x.account during).all (·.1 == 0) = true := by decide +kernel
      exact ⟨by decide +kernel,
        fun entry hmem => beq_iff_eq.1 (List.all_eq_true.1 hall entry hmem)⟩
    obtain ⟨hreturn, hempty, -, horder⟩ := hdrains.returns during hcall hend (by decide +kernel)
    have hcount : (x.executed during).length = 5 := by decide +kernel
    rw [hcount] at hreturn
    exact ⟨(horder hquiet).1, hreturn, hempty⟩
  · obtain ⟨-, hclosing, -⟩ :=
      pump_executes_in_order s rfl (by decide) (by decide) (before ++ [0, 0, 0, 2])
    obtain ⟨⟨late, haccepted, -, hhands⟩, -⟩ :=
      hclosing before 0 [0, 0, 2] rfl (by decide +kernel)
    refine ⟨late, ?_, haccepted, hhands⟩
    -- One more task has been accepted in the end than when the queue was closed.
    have hbefore : (s.machine.accepted before).length = 3 := by decide +kernel
    have hall : (s.machine.accepted (before ++ [0, 0, 0, 2])).length = 4 := by decide +kernel
    rw [haccepted, List.length_append, List.length_map, hbefore] at hall
    omega

end Machine

end LazyEngine
