/-
What becomes of tasks.

A dispatcher accepts a task or refuses it, and what it has accepted is taken by the owner thread, or
dropped when the thread of a loop stops. All of this happens in steps of threads, so a run has an
account of it:

* `Machine.traffic` — what a step does with a task;
* `Handled`, `handled_of_step` — nothing else happens to the dispatcher, but that it is closed or
  shut down, or that the thread of its loop stops;
* `Machine.accepted`, `Machine.executed` — the tasks that a run accepts, and those that it takes to
  execute them, each in their order;
* `Ledger`, `Ledger.run` — what has been accepted is what has been taken, followed by what is
  queued, until the loop's thread stops and the rest is dropped;
* `refusal?_of_step`, `nothing_accepted` — a dispatcher that refuses goes on refusing, and accepts
  no task but those that threads have in hand, of which there are none over a loop;
* `nothing_after_stop` — a loop that has stopped executes nothing more.

Design notes: tasks have no numbers, and two of them may be alike. That a task is executed once and
in its turn is said by their order: those taken are the first of those accepted.
-/
import LazyEngine.Proofs.Startup.Completion
import LazyEngine.Proofs.Startup.Waiting

namespace LazyEngine

/-- What happens to a task at the dispatcher. -/
inductive Traffic where
  | accepted (task : Task)
  | refused (task : Task) (error : StartupError)
  | taken (task : Task)

namespace Traffic

def accepted? : Traffic → Option Task
  | accepted task => some task
  | _ => none

def taken? : Traffic → Option Task
  | taken task => some task
  | _ => none

end Traffic

namespace Dispatcher

variable {T : Type} {d d' : Dispatcher T} {task : T}

theorem refusal?_of_stopped (h : d.stopped = true) : d.refusal? ≠ none := by
  cases d with
  | queue => cases h
  | loop o l =>
    have hrunning : l.running = false := by simpa [stopped] using h
    simp only [refusal?, hrunning]
    cases l.sending <;> simp

theorem refusal?_of_ending (h : d.ending = true) : d.refusal? ≠ none := by
  cases d with
  | queue => cases h
  | loop o l =>
    have hsending : l.sending = false := by simpa [ending] using h
    simp [refusal?, hsending]

theorem refusal?_withTasks (d : Dispatcher T) (ts : List T) :
    (d.withTasks ts).refusal? = d.refusal? := by
  cases d <;> rfl

theorem refusal?_takeHandle (d : Dispatcher T) : d.takeHandle.2.refusal? = d.refusal? := by
  cases d <;> rfl

theorem refusal?_close (h : d.refusal? ≠ none) : d.close.refusal? ≠ none := by
  cases d with
  | queue => simp [close, refusal?]
  | loop => exact h

theorem refusal?_giveUpSending (h : d.refusal? ≠ none) : d.giveUpSending.refusal? ≠ none := by
  cases d with
  | queue => exact h
  | loop => exact refusal?_of_ending rfl

theorem refusal?_stop (h : d.refusal? ≠ none) : d.stop.refusal? ≠ none := by
  cases d with
  | queue => exact h
  | loop => exact refusal?_of_stopped rfl

theorem stopped_withTasks (d : Dispatcher T) (ts : List T) :
    (d.withTasks ts).stopped = d.stopped := by
  cases d <;> rfl

end Dispatcher

namespace Machine

variable {σ E : Type} {m m' n : Machine σ E} {t : ThreadId} {initializer : Initializer σ E}
  {owner : Owner}

/-! ### The account of a run -/

/-- The post that the step of a frame makes: whether the task has been admitted by an earlier step,
and the task. -/
def posting (m : Machine σ E) (t : ThreadId) : Frame → Option (Bool × Task)
  | .script _ (.post calls :: _) => some (false, .job calls)
  | .script origin (.runOnOwner calls value :: _) =>
    if m.dispatcher.owner.isCurrent t then none
    else some (false, .reply m.replies.length value origin calls)
  | .pushing posting origin => some (true, posting.task m.replies.length origin)
  | .script _ (.startInBackground :: _) =>
    if m.coordinator.phase = .notStarted then some (false, .startup) else none
  | .requesting _ => if m.coordinator.phase = .notStarted then some (true, .startup) else none
  | .entering claim _ admitted =>
    if m.coordinator.phase = .notStarted ∧ m.coordinator.failure = none ∧ claim = false ∧
      (m.coordinator.ownerOr m.dispatcher.owner).isCurrent t = false
    then some (admitted, .startup) else none
  | _ => none

/-- The post that the next step of a thread makes. -/
def nextPost (m : Machine σ E) (t : ThreadId) : Option (Bool × Task) :=
  (m.stack t).head?.bind (m.posting t)

/-- The task whose post begins with the next step of a thread. -/
def offered (m : Machine σ E) (t : ThreadId) : Option Task :=
  (m.nextPost t).bind fun post => if post.1 then none else some post.2

/-- The task that a thread has in hand: its post has found the queue open, and the next step pushes
it. -/
def inHand (m : Machine σ E) (t : ThreadId) : Option Task :=
  (m.nextPost t).bind fun post => if post.1 then some post.2 else none

/-- The task that the next step of a thread takes. -/
def taken (m : Machine σ E) (t : ThreadId) : Option Task :=
  match m.stack t with
  | f :: _ => if f.takesTasks then m.dispatcher.tasks.head? else none
  | [] => none

/-- What the next step of a thread does with a task. A look at the queue does nothing with it. -/
def traffic (m : Machine σ E) (t : ThreadId) : Option Traffic :=
  match m.nextPost t with
  | some (admitted, task) =>
    match m.dispatcher.offer admitted task with
    | .ok offer => if offer.pending then none else some (.accepted task)
    | .error e => some (.refused task e)
  | none => (m.taken t).map .taken

/-- What the steps of a run do with tasks, each with the thread that does it. -/
def account (m : Machine σ E) : List ThreadId → List (ThreadId × Traffic)
  | [] => []
  | t :: rest =>
    match m.step t with
    | none => m.account rest
    | some m' => ((m.traffic t).map (t, ·)).toList ++ m'.account rest

/-- The tasks accepted in the course of a run, in the order of acceptance. -/
def accepted (m : Machine σ E) (schedule : List ThreadId) : List Task :=
  (m.account schedule).filterMap (·.2.accepted?)

/-- The tasks whose execution has begun in the course of a run, in this order. -/
def executed (m : Machine σ E) (schedule : List ThreadId) : List Task :=
  (m.account schedule).filterMap (·.2.taken?)

theorem account_append (m : Machine σ E) (s₁ s₂ : List ThreadId) :
    m.account (s₁ ++ s₂) = m.account s₁ ++ (m.run s₁).account s₂ := by
  induction s₁ generalizing m with
  | nil => rfl
  | cons t rest ih =>
    cases hs : m.step t with
    | none =>
      have hrun : m.run (t :: rest) = m.run rest := by
        show ((m.step t).getD m).run rest = _
        rw [hs, Option.getD_none]
      rw [List.cons_append, account, account, hs, hrun]
      exact ih m
    | some m₁ =>
      have hrun : m.run (t :: rest) = m₁.run rest := by
        show ((m.step t).getD m).run rest = _
        rw [hs, Option.getD_some]
      rw [List.cons_append, account, account, hs, hrun, List.append_assoc]
      exact congrArg _ (ih m₁)

theorem accepted_append (m : Machine σ E) (s₁ s₂ : List ThreadId) :
    m.accepted (s₁ ++ s₂) = m.accepted s₁ ++ (m.run s₁).accepted s₂ := by
  rw [accepted, account_append, List.filterMap_append, accepted, accepted]

theorem executed_append (m : Machine σ E) (s₁ s₂ : List ThreadId) :
    m.executed (s₁ ++ s₂) = m.executed s₁ ++ (m.run s₁).executed s₂ := by
  rw [executed, account_append, List.filterMap_append, executed, executed]

/-! ### What a step does to the dispatcher -/

/-- What a step does to the dispatcher. -/
inductive Handled (m : Machine σ E) (t : ThreadId) (m' : Machine σ E) : Prop where
  | untouched : m.traffic t = none → m'.dispatcher = m.dispatcher → Handled m t m'
  | accepted {task : Task} {admitted : Bool} : m.nextPost t = some (admitted, task) →
      m.dispatcher.Accepts admitted → m'.dispatcher = m.dispatcher.push task → Handled m t m'
  /-- The caller is told of the refusal. -/
  | refused {task : Task} {r : DispatchRefusal} {origin : Origin} {a : Answer E} :
      m.offered t = some task → m.dispatcher.refusal? = some r →
      m'.dispatcher = m.dispatcher → a.error? = some r.error →
      m'.log = .answered t origin a :: m.log → Handled m t m'
  | taken {task : Task} {f : Frame} {below : List Frame} :
      m.traffic t = some (.taken task) → m.stack t = f :: below → f.takesTasks = true →
      m.dispatcher.take? = some (task, m'.dispatcher) → Handled m t m'
  | closed {origin : Origin} {calls : List Call} {below : List Frame} : m.traffic t = none →
      m.stack t = .script origin (.close :: calls) :: below →
      m'.dispatcher = m.dispatcher.close → Handled m t m'
  | shutting {origin : Origin} {calls : List Call} {below : List Frame} : m.traffic t = none →
      m.stack t = .script origin (.shutdown :: calls) :: below →
      m'.dispatcher = m.dispatcher.giveUpSending → Handled m t m'
  /-- A shutdown takes the handle of the loop's thread, if it is still there. -/
  | claimed {origin : Origin} {below : List Frame} : m.traffic t = none →
      m.stack t = .takingHandle origin :: below →
      m'.dispatcher = m.dispatcher.takeHandle.2 → Handled m t m'
  /-- The loop's thread ends because nothing is left to do, or dies. -/
  | stopped : m.traffic t = none → m'.dispatcher = m.dispatcher.stop →
      (m.taskPanics t = true ∨ ∃ below, m.stack t = .serving :: below ∧ m.dispatcher.tasks = [] ∧
        m.dispatcher.ending = true) → Handled m t m'

section
variable {f : Frame} {below pushed : List Frame} {events : List (Event E)} {task : Task}
  {admitted : Bool}

theorem nextPost_eq (hs : m.stack t = f :: below) : m.nextPost t = m.posting t f := by
  rw [nextPost, hs]
  rfl

theorem offered_eq_some_iff : m.offered t = some task ↔ m.nextPost t = some (false, task) := by
  rw [offered, Option.bind_eq_some_iff]
  constructor
  · rintro ⟨⟨_ | _, _⟩, hpost, heq⟩
    · cases heq
      exact hpost
    · cases heq
  · exact fun h => ⟨_, h, rfl⟩

theorem inHand_eq_some_iff : m.inHand t = some task ↔ m.nextPost t = some (true, task) := by
  rw [inHand, Option.bind_eq_some_iff]
  constructor
  · rintro ⟨⟨_ | _, _⟩, hpost, heq⟩
    · cases heq
    · cases heq
      exact hpost
  · exact fun h => ⟨_, h, rfl⟩

theorem traffic_of_accepts (h : m.nextPost t = some (admitted, task))
    (ha : m.dispatcher.Accepts admitted) : m.traffic t = some (.accepted task) := by
  simp [traffic, h, Dispatcher.offer_of_accepts ha]

theorem traffic_of_refusal? {r : DispatchRefusal} (h : m.offered t = some task)
    (hr : m.dispatcher.refusal? = some r) : m.traffic t = some (.refused task r.error) := by
  simp [traffic, offered_eq_some_iff.1 h, Dispatcher.offer_of_refusal? hr]

/-- A post that finds the queue open does nothing with the task yet. -/
theorem traffic_of_open (h : m.offered t = some task) (hr : m.dispatcher.refusal? = none)
    (hl : m.dispatcher.isLoop = false) : m.traffic t = none := by
  simp [traffic, offered_eq_some_iff.1 h, Dispatcher.offer_of_open hr hl]

/-- A step that posts nothing and takes nothing. -/
theorem traffic_eq_none (hs : m.stack t = f :: below) (hpost : m.posting t f = none)
    (hf : f.takesTasks = false) : m.traffic t = none := by
  simp [traffic, nextPost_eq hs, hpost, taken, hs, hf]

theorem posting_of_posts {posting : Posting} {origin : Origin} {rest : List Frame}
    (h : Posts m t f admitted posting origin rest) :
    m.posting t f = some (admitted, posting.task m.replies.length origin) := by
  cases h with
  | closure ho => simp [Machine.posting, ho, Posting.task]
  | job | pushing => rfl

theorem posting_of_requests {origin : Origin} {rest : List Frame}
    (h : Requests f admitted origin rest) :
    m.posting t f = if m.coordinator.phase = .notStarted then some (admitted, .startup)
      else none := by
  cases h <;> rfl

/-- What leaves alone all that threads share does nothing with tasks. -/
theorem traffic_of_aside (hs : m.stack t = f :: below) (h : Aside m t f pushed events) :
    m.traffic t = none := by
  cases h with
  | drained hempty => simp [traffic, nextPost_eq hs, posting, taken, hs, hempty]
  | inline ho => exact traffic_eq_none hs (by simp [posting, ho]) rfl
  | late hp | poisoned _ hp => exact traffic_eq_none hs (by simp [posting, hp]) rfl
  | underway hf hn =>
    refine traffic_eq_none hs ?_ (by cases hf <;> rfl)
    rw [posting_of_requests hf, if_neg hn]
  | _ => exact traffic_eq_none hs rfl rfl

/-- A section that runs startup posts nothing. -/
theorem traffic_of_launch {c : Coordinator σ E Listener} {sequel : Sequel}
    (hs : m.stack t = f :: below) (h : Launch m t f c sequel) : m.traffic t = none := by
  cases h with
  | inline ho => exact traffic_eq_none hs (by simp [posting, ho]) rfl
  | posted => exact traffic_eq_none hs rfl rfl

theorem handled_of_refusal? {r : DispatchRefusal} {origin : Origin} {a : Answer E}
    (h : m.nextPost t = some (false, task)) (hr : m.dispatcher.refusal? = some r)
    (hd : n.dispatcher = m.dispatcher) (hlog : n.log = m.log) (ha : a.error? = some r.error)
    (stack : List Frame) : Handled m t (n.after t [.answered t origin a] stack) :=
  .refused (offered_eq_some_iff.2 h) hr hd ha (congrArg _ hlog)

/-- What a frame does to the dispatcher. -/
theorem handled_of_acts (hs : m.stack t = f :: below) (h : Acts m t f pushed events n) :
    Handled m t (n.after t events (pushed ++ below)) := by
  have hnext := nextPost_eq hs
  -- Startup that is refused has bound its owner all the same.
  let bound : Machine σ E := { m with coordinator := m.coordinator.bindOwner m.dispatcher.owner }
  cases h with
  | aside h => exact .untouched (traffic_of_aside hs h) rfl
  | @postRefused _ posting _ _ r hp hr =>
    exact handled_of_refusal? (hnext.trans (posting_of_posts hp)) hr rfl rfl
      (by cases posting <;> rfl) _
  | postLooked hp hr hl =>
    have hoffered := offered_eq_some_iff.2 (hnext.trans (posting_of_posts hp))
    exact .untouched (traffic_of_open hoffered hr hl) rfl
  | jobAccepted hp ha | closureAccepted hp ha =>
    exact .accepted (hnext.trans (posting_of_posts hp)) ha rfl
  | @requestRefused _ _ _ r hf hn hr =>
    rw [posting_of_requests hf, if_pos hn] at hnext
    exact handled_of_refusal? (n := bound) (a := .begun (.error r.error)) hnext hr rfl rfl rfl _
  | requestLooked hf hn hr hl =>
    rw [posting_of_requests hf, if_pos hn] at hnext
    exact .untouched (traffic_of_open (offered_eq_some_iff.2 hnext) hr hl) rfl
  | requested hf hn ha =>
    rw [posting_of_requests hf, if_pos hn] at hnext
    exact .accepted hnext ha rfl
  | notOwner => exact .untouched (traffic_eq_none hs (by simp [posting]) rfl) rfl
  | @refused _ r hu ho hn hr =>
    exact handled_of_refusal? (n := bound) (a := .engine (.error r.error))
      (hnext.trans (if_pos ⟨hn, hu.2, rfl, ho⟩)) hr rfl rfl rfl _
  | looked hu ho hn hr hl =>
    have hoffered := offered_eq_some_iff.2 (hnext.trans (if_pos ⟨hn, hu.2, rfl, ho⟩))
    exact .untouched (traffic_of_open hoffered hr hl) rfl
  | posted hu ho hn ha => exact .accepted (hnext.trans (if_pos ⟨hn, hu.2, rfl, ho⟩)) ha rfl
  | joined _ _ hp => exact .untouched (traffic_eq_none hs (by simp [posting, hp]) rfl) rfl
  | started hl | failed hl | stuck hl => exact .untouched (traffic_of_launch hs hl) rfl
  | registerLate | registerEarly | unregister | forget | sent =>
    exact .untouched (traffic_eq_none hs rfl rfl) rfl
  | took hf htake =>
    have hpost : m.posting t f = none := by cases hf <;> rfl
    refine .taken ?_ hs hf.takesTasks.1 htake
    simp [traffic, hnext, hpost, taken, hs, hf.takesTasks.1, Dispatcher.take?_tasks htake]
  | close => exact .closed (traffic_eq_none hs rfl rfl) hs rfl
  | shutdown => exact .shutting (traffic_eq_none hs rfl rfl) hs rfl
  | claimed | unclaimed => exact .claimed (traffic_eq_none hs rfl rfl) hs rfl

theorem handled_of_panic {origin : Origin} {message : String} {calls : List Call}
    (hs : m.stack t = .script origin (.panic message :: calls) :: below) :
    Handled m t (m.panic t message (.script origin calls :: below)) := by
  have htraffic : m.traffic t = none := traffic_eq_none hs rfl rfl
  unfold panic
  dsimp only
  split
  · exact .untouched htraffic rfl
  · rename_i hl
    refine .stopped htraffic rfl (.inl ?_)
    rw [taskPanics, hs]
    exact Landing.isLoop_iff.2 hl
  · exact .untouched htraffic rfl

end

/-- Nothing else happens to the dispatcher. -/
theorem handled_of_step (h : m.step t = some m') : Handled m t m' := by
  cases stepped_of_step h with
  | acted hs ha => exact handled_of_acts hs ha
  | panicked hs => exact handled_of_panic hs
  | ended hs hempty hending =>
    refine .stopped ?_ rfl (.inr ⟨_, hs, hempty, hending⟩)
    simp [traffic, nextPost_eq hs, posting, taken, hs, hempty]

/-- What a step does to the tasks that are queued: one is taken, or one is accepted, or all are
dropped with the loop. -/
theorem tasks_of_step (h : m.step t = some m') :
    (∃ task, m.traffic t = some (.taken task) ∧
      m.dispatcher.tasks = task :: m'.dispatcher.tasks) ∨
    (m.traffic t).bind Traffic.taken? = none ∧
      (m'.dispatcher.tasks = m.dispatcher.tasks ∨
        (∃ task admitted, m.nextPost t = some (admitted, task) ∧
          m'.dispatcher.tasks = m.dispatcher.tasks ++ [task]) ∨
        m.taskPanics t = true ∧ m'.dispatcher.tasks = []) := by
  cases handled_of_step h with
  | untouched htraffic hd => exact .inr ⟨by rw [htraffic]; rfl, .inl (congrArg _ hd)⟩
  | refused hoffered hr hd =>
    exact .inr ⟨by rw [traffic_of_refusal? hoffered hr]; rfl, .inl (congrArg _ hd)⟩
  | accepted hnext ha hd =>
    refine .inr ⟨by rw [traffic_of_accepts hnext ha]; rfl, .inr (.inl ⟨_, _, hnext, ?_⟩)⟩
    rw [hd, Dispatcher.tasks_push]
  | taken htraffic _ _ htake => exact .inl ⟨_, htraffic, Dispatcher.take?_tasks htake⟩
  | closed htraffic _ hd =>
    exact .inr ⟨by rw [htraffic]; rfl, .inl (by rw [hd, Dispatcher.tasks_close])⟩
  | shutting htraffic _ hd =>
    exact .inr ⟨by rw [htraffic]; rfl, .inl (by rw [hd, Dispatcher.tasks_giveUpSending])⟩
  | claimed htraffic _ hd =>
    exact .inr ⟨by rw [htraffic]; rfl, .inl (by rw [hd, Dispatcher.tasks_takeHandle])⟩
  -- A thread that ends on its own has nothing queued to drop.
  | stopped htraffic hd hwhy =>
    refine .inr ⟨by rw [htraffic]; rfl, ?_⟩
    cases hdisp : m.dispatcher with
    | queue => exact .inl (by rw [hd, hdisp]; rfl)
    | loop =>
      have hempty : m'.dispatcher.tasks = [] := by rw [hd, hdisp]; rfl
      rcases hwhy with hpanics | ⟨below, -, hnone, -⟩
      · exact .inr (.inr ⟨hpanics, hempty⟩)
      · exact .inl (by rw [hempty, ← hnone, hdisp])

/-! ### What has been accepted and what has been executed -/

theorem accepted_cons (hs : m.step t = some m') (rest : List ThreadId) :
    m.accepted (t :: rest)
      = ((m.traffic t).bind Traffic.accepted?).toList ++ m'.accepted rest := by
  rw [accepted, account, hs]
  cases ht : m.traffic t with
  | none => rfl
  | some x => cases x <;> rfl

theorem executed_cons (hs : m.step t = some m') (rest : List ThreadId) :
    m.executed (t :: rest)
      = ((m.traffic t).bind Traffic.taken?).toList ++ m'.executed rest := by
  rw [executed, account, hs]
  cases ht : m.traffic t with
  | none => rfl
  | some x => cases x <;> rfl

/-- Only over a queue does a thread have a task in hand. -/
theorem Sound.isLoop_of_inHand (h : Sound initializer owner m) {task : Task}
    (hin : m.inHand t = some task) : m.dispatcher.isLoop = false := by
  have hnext := inHand_eq_some_iff.1 hin
  cases hs : m.stack t with
  | nil =>
    rw [nextPost, hs] at hnext
    cases hnext
  | cons f below =>
    have hfits : f.Fits m := h.fits t f (hs ▸ List.mem_cons_self)
    rw [nextPost_eq hs] at hnext
    unfold posting at hnext
    split at hnext
    · cases hnext
    · split at hnext <;> cases hnext
    · exact hfits
    · split at hnext <;> cases hnext
    · exact hfits
    · split at hnext
      · cases hnext
        exact hfits rfl
      · cases hnext
    · cases hnext

/-- Whoever accepts a task has not stopped. -/
theorem Sound.live_of_accepts (h : Sound initializer owner m) {task : Task} {admitted : Bool}
    (hnext : m.nextPost t = some (admitted, task)) (ha : m.dispatcher.Accepts admitted) :
    m.dispatcher.stopped = false := by
  rcases ha with rfl | ⟨-, hr⟩
  · have hqueue := h.isLoop_of_inHand (inHand_eq_some_iff.2 hnext)
    cases hd : m.dispatcher with
    | queue => rfl
    | loop =>
      rw [hd] at hqueue
      cases hqueue
  · rw [Bool.eq_false_iff]
    exact fun hstopped => Dispatcher.refusal?_of_stopped hstopped hr

/-- What has been accepted is what has been taken, followed by what is queued. Nothing is queued
any more when the loop's thread has stopped, and something may have been dropped. -/
structure Ledger (m : Machine σ E) (acc exe : List Task) : Prop where
  live : m.dispatcher.stopped = false → acc = exe ++ m.dispatcher.tasks
  halted : m.dispatcher.stopped = true → m.dispatcher.tasks = [] ∧ exe <+: acc

namespace Ledger

variable {acc exe : List Task}

theorem isPrefix (h : Ledger m acc exe) : exe <+: acc := by
  cases hstopped : m.dispatcher.stopped with
  | false => exact ⟨_, (h.live hstopped).symm⟩
  | true => exact (h.halted hstopped).2

/-- A step that does nothing with tasks. -/
theorem keep (h : Ledger m acc exe) (htraffic : m.traffic t = none)
    (htasks : m'.dispatcher.tasks = m.dispatcher.tasks)
    (hstopped : m'.dispatcher.stopped = m.dispatcher.stopped) :
    Ledger m' (acc ++ ((m.traffic t).bind Traffic.accepted?).toList)
      (exe ++ ((m.traffic t).bind Traffic.taken?).toList) := by
  rw [htraffic]
  simp only [Option.bind_none, Option.toList_none, List.append_nil]
  exact ⟨fun hs => htasks ▸ h.live (hstopped ▸ hs), fun hs => htasks ▸ h.halted (hstopped ▸ hs)⟩

theorem step (h : Ledger m acc exe) (hsound : Sound initializer owner m)
    (hs : m.step t = some m') :
    Ledger m' (acc ++ ((m.traffic t).bind Traffic.accepted?).toList)
      (exe ++ ((m.traffic t).bind Traffic.taken?).toList) := by
  cases handled_of_step hs with
  | untouched htraffic hd => exact h.keep htraffic (congrArg _ hd) (congrArg _ hd)
  | @accepted task admitted hnext ha hd =>
    -- A loop that has stopped refuses, so that what is accepted is accepted by a live one.
    have hlive : m.dispatcher.stopped = false := hsound.live_of_accepts hnext ha
    have hlive' : m'.dispatcher.stopped = false := by
      rw [hd, Dispatcher.push, Dispatcher.stopped_withTasks, hlive]
    refine ⟨fun _ => ?_, fun hstopped => ?_⟩
    · rw [traffic_of_accepts hnext ha, hd, Dispatcher.tasks_push, h.live hlive]
      simp [Traffic.accepted?, Traffic.taken?]
    · rw [hlive'] at hstopped
      cases hstopped
  | refused hoffered hr hd =>
    rw [traffic_of_refusal? hoffered hr]
    simp only [Option.bind_some, Traffic.accepted?, Traffic.taken?, Option.toList_none,
      List.append_nil]
    exact ⟨hd ▸ h.live, hd ▸ h.halted⟩
  | @taken task f below htraffic _ _ htake =>
    have htasks := Dispatcher.take?_tasks htake
    have hstopped : m'.dispatcher.stopped = m.dispatcher.stopped := by
      rw [Dispatcher.take?_eq htake, Dispatcher.stopped_withTasks]
    refine ⟨fun hs => ?_, fun hs => ?_⟩
    · rw [htraffic, h.live (hstopped ▸ hs), htasks]
      simp [Traffic.accepted?, Traffic.taken?]
    · -- nothing is queued when the thread has stopped
      have hempty := (h.halted (hstopped ▸ hs)).1
      rw [htasks] at hempty
      cases hempty
  -- Closing, shutting down and taking the handle leave the tasks as they are.
  | closed htraffic _ hd =>
    refine h.keep htraffic ?_ ?_ <;> rw [hd]
    · exact Dispatcher.tasks_close _
    · cases m.dispatcher <;> rfl
  | shutting htraffic _ hd =>
    refine h.keep htraffic ?_ ?_ <;> rw [hd]
    · exact Dispatcher.tasks_giveUpSending _
    · cases m.dispatcher <;> rfl
  | claimed htraffic _ hd =>
    refine h.keep htraffic ?_ ?_ <;> rw [hd]
    · exact Dispatcher.tasks_takeHandle _
    · cases m.dispatcher <;> rfl
  | stopped htraffic hd =>
    cases hdisp : m.dispatcher with
    | queue o q => exact h.keep htraffic (by rw [hd, hdisp]; rfl) (by rw [hd, hdisp]; rfl)
    -- The loop drops what is queued: of the two halves of the account only the second remains.
    | loop o l =>
      rw [htraffic]
      simp only [Option.bind_none, Option.toList_none, List.append_nil]
      refine ⟨fun hlive => ?_, fun _ => ⟨?_, h.isPrefix⟩⟩ <;> rw [hd, hdisp] at *
      · cases hlive
      · rfl

/-- All along a run. -/
theorem run (h : Ledger m acc exe) (hsound : Sound initializer owner m)
    (schedule : List ThreadId) :
    Ledger (m.run schedule) (acc ++ m.accepted schedule) (exe ++ m.executed schedule) := by
  induction schedule generalizing m acc exe with
  | nil => simpa [accepted, executed, account, Machine.run] using h
  | cons t rest ih =>
    show Ledger (((m.step t).getD m).run rest) _ _
    cases hs : m.step t with
    | none =>
      rw [accepted, executed, account, hs]
      exact ih h hsound
    | some m₁ =>
      rw [accepted_cons hs, executed_cons hs, ← List.append_assoc, ← List.append_assoc]
      exact ih (h.step hsound hs) (hsound.step (turn_of_step hs))

end Ledger

theorem stopped_machine (s : Setup σ E) : s.machine.dispatcher.stopped = false := by
  show s.dispatcher.stopped = _
  unfold Setup.dispatcher
  split <;> rfl

theorem tasks_machine (s : Setup σ E) : s.machine.dispatcher.tasks = s.queued.map .job := by
  show s.dispatcher.tasks = _
  unfold Setup.dispatcher
  split <;> rfl

theorem ledger_machine (s : Setup σ E) : Ledger s.machine (s.queued.map .job) [] := by
  refine ⟨fun _ => by rw [tasks_machine, List.nil_append], fun hstopped => ?_⟩
  rw [stopped_machine] at hstopped
  cases hstopped

/-- The ledger of a run from its start: what had been queued counts as accepted. -/
theorem ledger_run (s : Setup σ E) (schedule : List ThreadId) :
    Ledger (s.machine.run schedule) (s.queued.map .job ++ s.machine.accepted schedule)
      (s.machine.executed schedule) :=
  (ledger_machine s).run (sound_machine s) schedule

/-- A step leaves the loop's thread as it is, or stops it. -/
theorem stopped_of_step (hs : m.step t = some m') :
    m'.dispatcher.stopped = m.dispatcher.stopped ∨ m'.dispatcher = m.dispatcher.stop ∧
      m.traffic t = none ∧
      (m.taskPanics t = true ∨ ∃ below, m.stack t = .serving :: below ∧ m.dispatcher.tasks = [] ∧
        m.dispatcher.ending = true) := by
  cases handled_of_step hs with
  | untouched _ hd | refused _ _ hd => exact .inl (congrArg _ hd)
  | accepted _ _ hd =>
    exact .inl (by rw [hd, Dispatcher.push, Dispatcher.stopped_withTasks])
  | taken _ _ _ htake =>
    exact .inl (by rw [Dispatcher.take?_eq htake, Dispatcher.stopped_withTasks])
  | closed _ _ hd | shutting _ _ hd | claimed _ _ hd =>
    left
    rw [hd]
    cases m.dispatcher <;> rfl
  | stopped htraffic hd hwhy => exact .inr ⟨hd, htraffic, hwhy⟩

theorem stopped_mono (hs : m.step t = some m') (h : m.dispatcher.stopped = true) :
    m'.dispatcher.stopped = true := by
  rcases stopped_of_step hs with heq | ⟨hd, -⟩
  · rw [heq, h]
  · rw [hd]
    cases hdisp : m.dispatcher with
    | queue o q =>
      rw [hdisp] at h
      cases h
    | loop o l => rfl

/-- A dispatcher that refuses tasks goes on refusing, and accepts none but those that threads have
in hand. -/
theorem refusal?_of_step (hs : m.step t = some m') (h : m.dispatcher.refusal? ≠ none) :
    m'.dispatcher.refusal? ≠ none ∧
      ∀ task, m.traffic t = some (.accepted task) → m.inHand t = some task := by
  -- a step in which nothing is accepted
  have idle {x : Option Traffic} (hx : m.traffic t = x) (hnone : x.bind Traffic.accepted? = none) :
      ∀ task, m.traffic t = some (.accepted task) → m.inHand t = some task := by
    intro task htask
    rw [← hx, htask] at hnone
    cases hnone
  cases handled_of_step hs with
  | untouched htraffic hd => exact ⟨hd ▸ h, idle htraffic rfl⟩
  | @accepted task admitted hnext ha hd =>
    refine ⟨by rwa [hd, Dispatcher.push, Dispatcher.refusal?_withTasks], fun task' htask => ?_⟩
    rw [traffic_of_accepts hnext ha] at htask
    cases htask
    rcases ha with rfl | ⟨-, hr⟩
    · exact inHand_eq_some_iff.2 hnext
    · exact absurd hr h
  | refused hoffered hr hd => exact ⟨hd ▸ h, idle (traffic_of_refusal? hoffered hr) rfl⟩
  | taken htraffic _ _ htake =>
    exact ⟨by rwa [Dispatcher.take?_eq htake, Dispatcher.refusal?_withTasks], idle htraffic rfl⟩
  | closed htraffic _ hd => exact ⟨hd ▸ Dispatcher.refusal?_close h, idle htraffic rfl⟩
  | shutting htraffic _ hd => exact ⟨hd ▸ Dispatcher.refusal?_giveUpSending h, idle htraffic rfl⟩
  | claimed htraffic _ hd =>
    exact ⟨by rwa [hd, Dispatcher.refusal?_takeHandle], idle htraffic rfl⟩
  | stopped htraffic hd => exact ⟨hd ▸ Dispatcher.refusal?_stop h, idle htraffic rfl⟩

theorem refusal?_run (h : m.dispatcher.refusal? ≠ none) (schedule : List ThreadId) :
    (m.run schedule).dispatcher.refusal? ≠ none :=
  run_induction (P := fun m => m.dispatcher.refusal? ≠ none)
    (fun _ _ _ h hs => (refusal?_of_step hs h).1) h schedule

/-- Over a loop nobody has a task in hand, so one that refuses tasks accepts none. -/
theorem nothing_accepted (hsound : Sound initializer owner m) (hloop : m.dispatcher.isLoop = true)
    (h : m.dispatcher.refusal? ≠ none) (schedule : List ThreadId) : m.accepted schedule = [] := by
  induction schedule generalizing m with
  | nil => rfl
  | cons t rest ih =>
    cases hs : m.step t with
    | none =>
      rw [accepted, account, hs]
      exact ih hsound hloop h
    | some m₁ =>
      obtain ⟨hnext, haccepted⟩ := refusal?_of_step hs h
      have hnone : (m.traffic t).bind Traffic.accepted? = none := by
        rw [Option.bind_eq_none_iff]
        rintro (task | _ | _) htraffic
        · have hqueue := hsound.isLoop_of_inHand (haccepted task htraffic)
          rw [hloop] at hqueue
          cases hqueue
        · rfl
        · rfl
      have hturn := turn_of_step hs
      rw [accepted_cons hs, hnone]
      exact ih (hsound.step hturn) ((hsound.isLoop_eq hturn).trans hloop) hnext

theorem isLoop_of_stopped (h : m.dispatcher.stopped = true) : m.dispatcher.isLoop = true := by
  cases hd : m.dispatcher with
  | queue =>
    rw [hd] at h
    cases h
  | loop => rfl

/-- When the loop's thread has stopped, nothing is accepted any more and nothing is executed. -/
theorem nothing_after_stop (hsound : Sound initializer owner m)
    (hstopped : m.dispatcher.stopped = true) (hempty : m.dispatcher.tasks = [])
    (schedule : List ThreadId) :
    m.accepted schedule = [] ∧ m.executed schedule = [] ∧
      (m.run schedule).dispatcher.stopped = true ∧ (m.run schedule).dispatcher.tasks = [] := by
  have hledger : Ledger m [] [] := ⟨fun _ => hempty.symm, fun _ => ⟨hempty, List.prefix_refl _⟩⟩
  have hend := hledger.run hsound schedule
  have haccepted := nothing_accepted hsound (isLoop_of_stopped hstopped)
    (Dispatcher.refusal?_of_stopped hstopped) schedule
  have hafter : (m.run schedule).dispatcher.stopped = true :=
    run_induction (P := fun m => m.dispatcher.stopped = true)
      (fun _ _ _ h hs => stopped_mono hs h) hstopped schedule
  -- what is executed has been accepted
  have hprefix := hend.isPrefix
  rw [haccepted, List.nil_append, List.nil_append] at hprefix
  exact ⟨haccepted, List.prefix_nil.mp hprefix, hafter, (hend.halted hafter).1⟩

end Machine

end LazyEngine
