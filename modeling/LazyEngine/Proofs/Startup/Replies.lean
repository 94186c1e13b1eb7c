/-
Replies that are owed.

A closure that another thread waits for is owed to that thread from the moment at which it is
accepted: first by the queue, and then by the frame that is going to send its value. It is owed no
more when the value is sent, or when a panic or the end of a loop has dropped it.

* `Books`, `Booked` — the closures begun, those queued and all replies, and what a step does to
  them;
* `Balanced`, `Booked.balanced`, `Booked.settled` — each closure is owed once, and a reply that has
  been given is never changed;
* `Repaid`, `repaid_of_step` — what a step does with replies, and with the frames that owe them;
* **`Machine.balanced_run`** — all of this holds at every moment of every run.

Design notes: what the books say of a step is all that matters for which replies are given, so it
is kept apart from the frames that the step puts onto the stack. Only the owner thread has begun
closures.
-/
import LazyEngine.Proofs.Startup.Loops

namespace LazyEngine

/-! ### Books -/

/-- Replies that will never come. -/
def Reply.dropAll (ids : List ReplyId) (replies : List Reply) : List Reply :=
  ids.foldl (fun rs id => rs.set id .dropped) replies

theorem Reply.length_dropAll (ids : List ReplyId) (replies : List Reply) :
    (dropAll ids replies).length = replies.length := by
  induction ids generalizing replies with
  | nil => rfl
  | cons id ids ih => exact (ih _).trans (List.length_set ..)

theorem Reply.getElem?_dropAll_of_notMem {ids : List ReplyId} {id : ReplyId} (h : id ∉ ids)
    (replies : List Reply) : (dropAll ids replies)[id]? = replies[id]? := by
  induction ids generalizing replies with
  | nil => rfl
  | cons id' ids ih =>
    rw [List.mem_cons, not_or] at h
    obtain ⟨hne, hids⟩ := h
    exact (ih hids _).trans (List.getElem?_set_ne (Ne.symm hne))

theorem Reply.getElem?_dropAll_of_mem {ids : List ReplyId} {id : ReplyId} (h : id ∈ ids)
    {replies : List Reply} (hid : id < replies.length) :
    (dropAll ids replies)[id]? = some .dropped := by
  induction ids generalizing replies with
  | nil => cases h
  | cons id' ids ih =>
    have hid' : id < (replies.set id' .dropped).length := by rwa [List.length_set]
    by_cases hmem : id ∈ ids
    · exact ih hmem hid'
    · obtain rfl : id = id' := (List.mem_cons.1 h).resolve_right hmem
      exact (getElem?_dropAll_of_notMem hmem _).trans (List.getElem?_set_self hid)

theorem Reply.dropAll_append (ids ids' : List ReplyId) (replies : List Reply) :
    dropAll (ids ++ ids') replies = dropAll ids' (dropAll ids replies) :=
  List.foldl_append

/-- The closures that are owed, and all replies. -/
structure Books where
  /-- Those that the owner thread has begun, innermost first. -/
  begun : List ReplyId
  /-- Those that are queued. -/
  queued : List ReplyId
  replies : List Reply

/-- What a step does to the books. -/
inductive Booked : Books → Books → Prop
  | same (b : Books) : Booked b b
  | accepted (b : Books) :
      Booked b ⟨b.begun, b.queued ++ [b.replies.length], b.replies ++ [.awaited]⟩
  | began (begun queued : List ReplyId) (id : ReplyId) (replies : List Reply) :
      Booked ⟨begun, id :: queued, replies⟩ ⟨id :: begun, queued, replies⟩
  | sent (begun queued : List ReplyId) (id : ReplyId) (value : String) (replies : List Reply) :
      Booked ⟨id :: begun, queued, replies⟩ ⟨begun, queued, replies.set id (.sent value)⟩
  /-- A panic takes off the innermost ones. -/
  | unwound (lost begun queued : List ReplyId) (replies : List Reply) :
      Booked ⟨lost ++ begun, queued, replies⟩ ⟨begun, queued, Reply.dropAll lost replies⟩
  /-- The owner thread dies. -/
  | died (b : Books) : Booked b ⟨[], [], Reply.dropAll (b.begun ++ b.queued) b.replies⟩

/-- Each closure that is owed is owed once, and its reply has not been given. -/
structure Balanced (b : Books) : Prop where
  distinct : (b.begun ++ b.queued).Nodup
  awaited : ∀ id ∈ b.begun ++ b.queued, b.replies[id]? = some .awaited

namespace Booked

variable {b b' : Books}

theorem balanced (h : Booked b b') (hb : Balanced b) : Balanced b' := by
  -- Replies begun or queued have been made out, so that a new one is none of them.
  have hfresh : ∀ id ∈ b.begun ++ b.queued, id < b.replies.length := fun id hmem =>
    (List.getElem?_eq_some_iff.1 (hb.awaited id hmem)).1
  cases h with
  | same => exact hb
  | accepted =>
    refine ⟨?_, fun id hmem => ?_⟩
    · rw [← List.append_assoc]
      refine hb.distinct.append (List.nodup_singleton _) fun id hmem hnew => ?_
      obtain rfl := List.mem_singleton.1 hnew
      exact absurd (hfresh _ hmem) (Nat.lt_irrefl _)
    · rw [← List.append_assoc] at hmem
      rcases List.mem_append.1 hmem with hmem | hnew
      · rw [List.getElem?_append_left (hfresh id hmem), hb.awaited id hmem]
      · obtain rfl := List.mem_singleton.1 hnew
        exact List.getElem?_concat_length
  -- A reply moves from the queue to the tasks begun.
  | began begun queued id replies =>
    have hperm : (id :: begun ++ queued).Perm (begun ++ id :: queued) :=
      List.perm_middle.symm
    exact ⟨hperm.nodup_iff.2 hb.distinct, fun id' hmem => hb.awaited id' (hperm.subset hmem)⟩
  -- The reply sent is none of the others.
  | sent begun queued id value replies =>
    obtain ⟨hid, hrest⟩ := List.nodup_cons.1 hb.distinct
    refine ⟨hrest, fun id' hmem => ?_⟩
    have hne : id ≠ id' := fun heq => hid (heq ▸ hmem)
    exact (List.getElem?_set_ne hne).trans (hb.awaited id' (List.mem_cons_of_mem _ hmem))
  -- Those that a panic loses are dropped, and none of the others is.
  | unwound lost begun queued replies =>
    have hdistinct := hb.distinct
    rw [List.append_assoc] at hdistinct
    obtain ⟨-, hrest, hapart⟩ := List.nodup_append.1 hdistinct
    refine ⟨hrest, fun id hmem => ?_⟩
    rw [Reply.getElem?_dropAll_of_notMem fun hlost => hapart id hlost id hmem rfl]
    refine hb.awaited id ?_
    rw [List.append_assoc]
    exact List.mem_append_right _ hmem
  | died => exact ⟨List.nodup_nil, List.forall_mem_nil _⟩

theorem length_le (h : Booked b b') : b.replies.length ≤ b'.replies.length := by
  cases h with
  | same | began => exact Nat.le_refl _
  | accepted => simp
  | sent => simp
  | unwound | died => simp [Reply.length_dropAll]

/-- A reply that has been given is not changed. -/
theorem settled (h : Booked b b') (hb : Balanced b) {id : ReplyId} {r : Reply}
    (hr : b.replies[id]? = some r) (hgiven : r ≠ .awaited) : b'.replies[id]? = some r := by
  have hpaid : id ∉ b.begun ++ b.queued := fun hmem => by
    cases hr.symm.trans (hb.awaited id hmem)
    exact hgiven rfl
  cases h with
  | same | began => exact hr
  | accepted =>
    exact (List.getElem?_append_left (List.getElem?_eq_some_iff.1 hr).1).trans hr
  | sent begun queued id' value replies =>
    have hne : id' ≠ id := fun heq => hpaid (heq ▸ List.mem_cons_self)
    exact (List.getElem?_set_ne hne).trans hr
  | unwound lost begun queued replies =>
    refine (Reply.getElem?_dropAll_of_notMem (fun hlost => hpaid ?_) _).trans hr
    exact List.mem_append_left _ (List.mem_append_left _ hlost)
  | died => exact (Reply.getElem?_dropAll_of_notMem hpaid _).trans hr

end Booked

/-! ### Frames that owe a reply -/

namespace Frame

/-- The reply that the frame is going to send. -/
def debt? : Frame → Option ReplyId
  | sending id _ => some id
  | _ => none

/-- The replies that a stack owes, innermost first. -/
def debts (stack : List Frame) : List ReplyId :=
  stack.filterMap debt?

theorem debts_append (above below : List Frame) :
    debts (above ++ below) = debts above ++ debts below :=
  List.filterMap_append

/-- Frames that owe nothing take the place of one that owes nothing. -/
theorem debts_replace {f : Frame} {pushed : List Frame} (hf : f.debt? = none)
    (hp : debts pushed = []) (below : List Frame) :
    debts (pushed ++ below) = debts (f :: below) := by
  rw [debts_append, hp]
  exact (List.filterMap_cons_none hf).symm

theorem debts_frames (task : Task) : debts task.frames = task.reply?.toList := by
  cases task <;> rfl

/-- A loop is served at the bottom of a stack, if anywhere. -/
def ServesLast (stack : List Frame) : Prop :=
  ∀ above below, stack = above ++ .serving :: below → below = []

theorem ServesLast.tail {f : Frame} {stack : List Frame} (h : ServesLast (f :: stack)) :
    ServesLast stack := by
  intro above below heq
  exact h (f :: above) below (by rw [heq]; rfl)

/-- Nothing that lies above another frame serves a loop. -/
theorem ServesLast.notMem {above below : List Frame} {f : Frame}
    (h : ServesLast (above ++ f :: below)) : .serving ∉ above := by
  intro hserving
  obtain ⟨first, last, rfl⟩ := List.append_of_mem hserving
  have hlast := h first (last ++ f :: below) (by simp)
  simp at hlast

/-- A panic drops the replies that the frames which it takes off owe. -/
theorem debts_unwind {stack : List Frame} (h : ServesLast stack) :
    debts stack = (unwind stack).lost ++ debts (unwind stack).landing.left := by
  induction stack with
  | nil => rfl
  | cons f stack ih =>
    have hrest := ih h.tail
    cases f with
    | guard => rfl
    | serving =>
      obtain rfl := h [] stack rfl
      rfl
    | sending id value => exact congrArg (id :: ·) hrest
    | _ => exact hrest

end Frame

namespace Machine

variable {σ E : Type} {m m' : Machine σ E} {t : ThreadId} {initializer : Initializer σ E}
  {owner : Owner}

/-- The replies that the queue owes, oldest first. -/
def queuedReplies (m : Machine σ E) : List ReplyId :=
  m.dispatcher.tasks.filterMap Task.reply?

/-- What a step does with replies, and with the frames that owe them. -/
inductive Repaid (m : Machine σ E) (t : ThreadId) (m' : Machine σ E) : Prop
  | kept {f : Frame} {below : List Frame} (pushed : List Frame) : m.stack t = f :: below →
      m'.stack t = pushed ++ below → f.debt? = none → Frame.debts pushed = [] →
      m'.queuedReplies = m.queuedReplies → m'.replies = m.replies → Repaid m t m'
  | accepted {f : Frame} {below : List Frame} (pushed : List Frame) : m.stack t = f :: below →
      m'.stack t = pushed ++ below → f.debt? = none → Frame.debts pushed = [] →
      m'.queuedReplies = m.queuedReplies ++ [m.replies.length] →
      m'.replies = m.replies ++ [.awaited] → Repaid m t m'
  | began {f g : Frame} {below : List Frame} {task : Task} : m.stack t = f :: below →
      f.takesTasks = true → m'.stack t = task.frames ++ g :: below → g.takesTasks = true →
      m.queuedReplies = task.reply?.toList ++ m'.queuedReplies → m'.replies = m.replies →
      Repaid m t m'
  | sent {id : ReplyId} {value : String} {below : List Frame} :
      m.stack t = .sending id value :: below → m'.stack t = below →
      m'.queuedReplies = m.queuedReplies → m'.replies = m.replies.set id (.sent value) →
      Repaid m t m'
  | panicked {origin : Origin} {message : String} {calls : List Call} {below : List Frame} :
      m.stack t = .script origin (.panic message :: calls) :: below →
      m' = m.panic t message below → Repaid m t m'
  | ended {below : List Frame} : m.stack t = .serving :: below → m'.stack t = [] →
      m.queuedReplies = [] → m'.queuedReplies = [] → m'.replies = m.replies → Repaid m t m'

theorem queuedReplies_congr {n : Machine σ E} (h : n.dispatcher.tasks = m.dispatcher.tasks) :
    n.queuedReplies = m.queuedReplies :=
  congrArg (List.filterMap Task.reply?) h

theorem queuedReplies_of_push {n : Machine σ E} {task : Task}
    (h : n.dispatcher = m.dispatcher.push task) :
    n.queuedReplies = m.queuedReplies ++ task.reply?.toList := by
  rw [queuedReplies, h, Dispatcher.tasks_push, List.filterMap_append]
  cases task <;> rfl

section
variable {f : Frame} {below pushed : List Frame} {events : List (Event E)} {n : Machine σ E}

theorem Posts.debts_eq {admitted : Bool} {posting : Posting} {origin : Origin}
    {rest : List Frame} (h : Posts m t f admitted posting origin rest) :
    f.debt? = none ∧ Frame.debts rest = [] := by
  cases h <;> exact ⟨rfl, rfl⟩

theorem Requests.debts_eq {admitted : Bool} {origin : Origin} {rest : List Frame}
    (h : Requests f admitted origin rest) : f.debt? = none ∧ Frame.debts rest = [] := by
  cases h <;> exact ⟨rfl, rfl⟩

theorem Launch.debt?_eq {c : Coordinator σ E Listener} {sequel : Sequel}
    (h : Launch m t f c sequel) : f.debt? = none := by
  cases h <;> rfl

theorem Aside.debts_eq (h : Aside m t f pushed events) :
    f.debt? = none ∧ Frame.debts pushed = [] := by
  cases h with
  | underway hf => exact hf.debts_eq
  | _ => exact ⟨rfl, rfl⟩

/-- What a frame does with replies. -/
theorem repaid_of_acts (hs : m.stack t = f :: below) (h : Acts m t f pushed events n) :
    Repaid m t (n.after t events (pushed ++ below)) := by
  have hs' : (n.after t events (pushed ++ below)).stack t = pushed ++ below :=
    stack_withStack_self h.threads hs _
  -- Three acts concern replies: a closure is accepted, a task is begun, a value is sent. All others
  -- leave as many debts on the stack as they find.
  cases h with
  | aside h => exact .kept _ hs hs' h.debts_eq.1 h.debts_eq.2 rfl rfl
  | postRefused hp | postLooked hp => exact .kept _ hs hs' hp.debts_eq.1 hp.debts_eq.2 rfl rfl
  | requestRefused hf | requestLooked hf =>
    exact .kept _ hs hs' hf.debts_eq.1 hf.debts_eq.2 rfl rfl
  | jobAccepted hp =>
    refine .kept _ hs hs' hp.debts_eq.1 hp.debts_eq.2 ?_ rfl
    exact (queuedReplies_of_push rfl).trans (List.append_nil _)
  | requested hf =>
    refine .kept _ hs hs' hf.debts_eq.1 hf.debts_eq.2 ?_ rfl
    exact (queuedReplies_of_push rfl).trans (List.append_nil _)
  | posted =>
    exact .kept _ hs hs' rfl rfl ((queuedReplies_of_push rfl).trans (List.append_nil _)) rfl
  | closureAccepted hp =>
    refine .accepted _ hs hs' hp.debts_eq.1 hp.debts_eq.2 ?_ rfl
    exact (queuedReplies_of_push rfl).trans rfl
  | started hl | failed hl | stuck hl => exact .kept _ hs hs' hl.debt?_eq rfl rfl rfl
  | @took _ g task d hf htake =>
    rw [List.append_assoc] at hs' ⊢
    refine .began hs hf.takesTasks.1 hs' hf.takesTasks.2 ?_ rfl
    show m.dispatcher.tasks.filterMap Task.reply? = _
    rw [Dispatcher.take?_tasks htake]
    cases task <;> rfl
  | close => exact .kept _ hs hs' rfl rfl (queuedReplies_congr (Dispatcher.tasks_close _)) rfl
  | shutdown =>
    exact .kept _ hs hs' rfl rfl (queuedReplies_congr (Dispatcher.tasks_giveUpSending _)) rfl
  | claimed | unclaimed =>
    exact .kept _ hs hs' rfl rfl (queuedReplies_congr (Dispatcher.tasks_takeHandle _)) rfl
  | sent => exact .sent hs hs' rfl rfl
  | _ => exact .kept _ hs hs' rfl rfl rfl rfl

end

/-- When a loop ends by itself, its queue owes nothing. -/
theorem repaid_of_stopLoop {below : List Frame} (hs : m.stack t = .serving :: below)
    (hnone : m.dispatcher.tasks = []) : Repaid m t (m.stopLoop.withStack t []) := by
  have hempty : m.queuedReplies = [] := by
    rw [queuedReplies, hnone]
    rfl
  refine .ended hs (stack_withStack_self (n := m.stopLoop) rfl hs _) hempty ?_ ?_
  · show m.dispatcher.stop.tasks.filterMap Task.reply? = []
    cases hd : m.dispatcher with
    | queue =>
      rw [queuedReplies, hd] at hempty
      exact hempty
    | loop => rfl
  · show (m.lose m.queuedReplies).replies = m.replies
    rw [hempty]
    rfl

/-- Nothing else happens to replies. -/
theorem repaid_of_step (h : m.step t = some m') : Repaid m t m' := by
  cases stepped_of_step h with
  | acted hs ha => exact repaid_of_acts hs ha
  | panicked hs => exact .panicked hs rfl
  | ended hs hnone => exact repaid_of_stopLoop hs hnone

/-! ### The books of a run -/

/-- A machine in the course of a run. -/
def Reached (s : Setup σ E) (m : Machine σ E) : Prop :=
  ∃ schedule, s.machine.run schedule = m

namespace Reached

variable {s : Setup σ E}

theorem run (h : Reached s m) (schedule : List ThreadId) : Reached s (m.run schedule) := by
  obtain ⟨first, rfl⟩ := h
  exact ⟨first ++ schedule, run_append ..⟩

theorem step (h : Reached s m) (hs : m.step t = some m') : Reached s m' := by
  obtain ⟨first, rfl⟩ := h
  exact ⟨first ++ [t], by rw [run_concat, hs, Option.getD_some]⟩

/-- What steps in the course of a run keep, the run keeps. -/
theorem induction {P : Machine σ E → Prop} (h : Reached s m) (hm : P m)
    (hkeep : ∀ m t m', Reached s m → P m → m.step t = some m' → P m')
    (schedule : List ThreadId) : P (m.run schedule) := by
  have hall : Reached s (m.run schedule) ∧ P (m.run schedule) := by
    refine run_induction (P := fun m => Reached s m ∧ P m) ?_ ⟨h, hm⟩ schedule
    exact fun m t m' ⟨h, hm⟩ hstep => ⟨h.step hstep, hkeep m t m' h hm hstep⟩
  exact hall.2

theorem sound (h : Reached s m) : Sound s.initializer s.owner m := by
  obtain ⟨schedule, rfl⟩ := h
  exact sound_run s schedule

/-- Only a loop is served, and at the bottom of a stack. -/
theorem servesLast (h : Reached s m) (u : ThreadId) : Frame.ServesLast (m.stack u) := by
  obtain ⟨schedule, rfl⟩ := h
  intro above below hs
  have hmem : .serving ∈ (s.machine.run schedule).stack u :=
    hs ▸ List.mem_append_right _ List.mem_cons_self
  obtain rfl : u = s.owner.thread :=
    Owner.isCurrent_iff.1 ((sound_run s schedule).ownerOnly u .serving hmem rfl)
  have hloops : s.loops = true :=
    (isLoop_run s schedule).symm.trans ((sound_run s schedule).fits _ .serving hmem)
  obtain ⟨f, rest, hfirst⟩ := List.exists_cons_of_ne_nil (List.ne_nil_of_mem hmem)
  obtain ⟨-, above', heq, habove⟩ := (tended_run s hloops schedule).stack_eq hfirst
  rw [← hfirst, hs] at heq
  -- nothing above the bottom serves the loop
  rcases List.eq_nil_or_concat below with rfl | ⟨front, last, rfl⟩
  · rfl
  · rw [List.concat_eq_append, ← List.cons_append, ← List.append_assoc] at heq
    have hfront := (List.append_inj' heq rfl).1
    have hserves := habove .serving (hfront ▸ List.mem_append_right _ List.mem_cons_self)
    cases hserves

end Reached

/-- The books of a machine. -/
def books (m : Machine σ E) (owner : Owner) : Books :=
  ⟨Frame.debts (m.stack owner.thread), m.queuedReplies, m.replies⟩

/-- Only the owner thread has begun closures, and its books are balanced. -/
structure Accountable (owner : Owner) (m : Machine σ E) : Prop where
  balanced : Balanced (m.books owner)
  elsewhere : ∀ u, u ≠ owner.thread → Frame.debts (m.stack u) = []

theorem replies_panic (m : Machine σ E) (t : ThreadId) (message : String) (stack : List Frame) :
    (m.panic t message stack).replies = Reply.dropAll ((Frame.unwind stack).lost
      ++ if (Frame.unwind stack).landing.isLoop then m.queuedReplies else []) m.replies := by
  unfold panic
  dsimp only
  cases (Frame.unwind stack).landing with
  | caught | bottom =>
    simp only [Landing.isLoop, Bool.false_eq_true, if_false, List.append_nil]
    rfl
  | loop =>
    simp only [Landing.isLoop, if_true]
    exact (Reply.dropAll_append ..).symm

theorem dispatcher_panic (m : Machine σ E) (t : ThreadId) (message : String)
    (stack : List Frame) : (m.panic t message stack).dispatcher
      = if (Frame.unwind stack).landing.isLoop then m.dispatcher.stop else m.dispatcher := by
  unfold panic
  dsimp only
  cases (Frame.unwind stack).landing <;> rfl

namespace Accountable

variable {s : Setup σ E}

/-- A panic on a thread other than the owner's drops no reply. -/
theorem panic_elsewhere (h : Accountable s.owner m) (hreached : Reached s m)
    (ht : t ≠ s.owner.thread) {f : Frame} {below : List Frame} (hs : m.stack t = f :: below)
    (message : String) : (m.panic t message below).replies = m.replies ∧
      (m.panic t message below).dispatcher = m.dispatcher ∧
      Frame.debts ((m.panic t message below).stack t) = [] := by
  have hlast : Frame.ServesLast below := (hs ▸ hreached.servesLast t).tail
  have hnothing : Frame.debts below = [] := by
    have hall := h.elsewhere t ht
    rw [hs] at hall
    exact (List.append_eq_nil_iff.1 ((Frame.debts_append [f] below).symm.trans hall)).2
  obtain ⟨hlost, hleft⟩ := List.append_eq_nil_iff.1 ((Frame.debts_unwind hlast).symm.trans hnothing)
  have hlanding : (Frame.unwind below).landing.isLoop = false := by
    rw [Bool.eq_false_iff]
    intro hloop
    have hmem : .serving ∈ m.stack t := by
      rw [hs]
      exact List.mem_cons_of_mem _ (Frame.serving_mem_of_unwind (Landing.isLoop_iff.1 hloop))
    exact ht (Owner.isCurrent_iff.1 (hreached.sound.ownerOnly t .serving hmem rfl))
  refine ⟨?_, ?_, ?_⟩
  · rw [replies_panic, hlanding, hlost]
    rfl
  · rw [dispatcher_panic, hlanding]
    rfl
  · rwa [stack_panic hs]

/-- A panic on the owner thread drops the replies of the closures that it takes off, and all
replies if it is the end of a loop. -/
theorem booked_of_panic (hreached : Reached s m) {origin : Origin} {message : String}
    {calls : List Call} {below : List Frame}
    (hs : m.stack s.owner.thread = .script origin (.panic message :: calls) :: below) :
    Booked (m.books s.owner) ((m.panic s.owner.thread message below).books s.owner) := by
  have hlast : Frame.ServesLast below := (hs ▸ hreached.servesLast s.owner.thread).tail
  have hbegun : Frame.debts (m.stack s.owner.thread) = (Frame.unwind below).lost
      ++ Frame.debts (Frame.unwind below).landing.left := by
    rw [hs]
    show Frame.debts below = _
    exact Frame.debts_unwind hlast
  have hqueued : (m.panic s.owner.thread message below).queuedReplies
      = if (Frame.unwind below).landing.isLoop then m.dispatcher.stop.tasks.filterMap Task.reply?
        else m.queuedReplies := by
    rw [queuedReplies, dispatcher_panic]
    split <;> rfl
  rw [books, books, replies_panic, stack_panic hs, hqueued, hbegun]
  cases hl : (Frame.unwind below).landing with
  | caught kept =>
    have hstep := Booked.unwound (Frame.unwind below).lost (Frame.debts kept) m.queuedReplies
      m.replies
    simpa [Landing.isLoop, Landing.left] using hstep
  | bottom =>
    have hstep := Booked.unwound (Frame.unwind below).lost [] m.queuedReplies m.replies
    simpa [Landing.isLoop, Landing.left, Frame.debts] using hstep
  | loop =>
    -- whoever serves is the thread of a loop, so nothing is queued any more
    have hmem : .serving ∈ m.stack s.owner.thread :=
      hs ▸ List.mem_cons_of_mem _ (Frame.serving_mem_of_unwind hl)
    have hloop : m.dispatcher.isLoop = true := hreached.sound.fits _ .serving hmem
    have hempty : m.dispatcher.stop.tasks = [] := by
      cases hd : m.dispatcher with
      | queue => rw [hd] at hloop; cases hloop
      | loop => rfl
    have hstep := Booked.died ⟨(Frame.unwind below).lost, m.queuedReplies, m.replies⟩
    simpa [Landing.isLoop, Landing.left, Frame.debts, hempty] using hstep

/-- A step of the owner thread, in its books. -/
theorem booked_owner (hreached : Reached s m) (hstep : m.step s.owner.thread = some m') :
    Booked (m.books s.owner) (m'.books s.owner) := by
  cases repaid_of_step hstep with
  | @kept f below pushed hs hs' hf hp hq hr =>
    rw [books, books, hs, hs', Frame.debts_replace hf hp, hq, hr]
    exact .same _
  | @accepted f below pushed hs hs' hf hp hq hr =>
    rw [books, books, hs, hs', Frame.debts_replace hf hp, hq, hr]
    exact .accepted ⟨_, m.queuedReplies, m.replies⟩
  | @began f g below task hs hf hs' hg hq hr =>
    have hf' : f.debt? = none := by cases f <;> first | rfl | cases hf
    have hg' : g.debt? = none := by cases g <;> first | rfl | cases hg
    -- The task taken brings its debt, if any, to the stack of the owner thread.
    have hbegun : Frame.debts (m'.stack s.owner.thread)
        = task.reply?.toList ++ Frame.debts (m.stack s.owner.thread) := by
      rw [hs, hs', Frame.debts_append, Frame.debts_frames]
      simp [Frame.debts, hf', hg']
    rw [books, books, hbegun, hq, hr]
    cases task with
    | startup | job => exact .same _
    | reply id => exact .began _ _ id _
  | @sent id value below hs hs' hq hr =>
    rw [books, books, hs, hs', hq, hr]
    exact .sent _ _ id value _
  | panicked hs hm' =>
    subst hm'
    exact booked_of_panic hreached hs
  | @ended below hs hs' hq hq' hr =>
    -- A thread that serves the loop has nothing else to do.
    obtain rfl : below = [] := (hs ▸ hreached.servesLast s.owner.thread) [] below rfl
    rw [books, books, hs, hs', hq, hq', hr]
    exact .same _

/-- A step of another thread, in the books of the owner thread. -/
theorem booked_elsewhere (h : Accountable s.owner m) (hreached : Reached s m)
    (ht : t ≠ s.owner.thread) (hstep : m.step t = some m') :
    Booked (m.books s.owner) (m'.books s.owner) ∧ Frame.debts (m'.stack t) = [] := by
  have hothers := hreached.sound.stack_of_step hstep (Ne.symm ht)
  have hnothing := h.elsewhere t ht
  have hkept {f : Frame} {below pushed : List Frame} (hs : m.stack t = f :: below)
      (hf : f.debt? = none) (hp : Frame.debts pushed = []) :
      Frame.debts (pushed ++ below) = [] := by
    rwa [Frame.debts_replace hf hp, ← hs]
  -- Other threads neither take tasks nor owe replies; they only post closures and wait.
  cases repaid_of_step hstep with
  | kept pushed hs hs' hf hp hq hr =>
    rw [books, books, hothers, hq, hr, hs']
    exact ⟨.same _, hkept hs hf hp⟩
  | accepted pushed hs hs' hf hp hq hr =>
    rw [books, books, hothers, hq, hr, hs']
    exact ⟨.accepted (m.books s.owner), hkept hs hf hp⟩
  | began hs hf => exact absurd (hreached.sound.eq_owner_of_takesTasks hs hf) ht
  | sent hs =>
    rw [hs] at hnothing
    cases hnothing
  | @panicked _ message _ _ hs hm' =>
    subst hm'
    obtain ⟨hr, hd, hleft⟩ := h.panic_elsewhere hreached ht hs message
    rw [books, books, hothers, hr, queuedReplies_congr (congrArg Dispatcher.tasks hd)]
    exact ⟨.same _, hleft⟩
  | ended hs => exact absurd (hreached.sound.eq_owner_of_takesTasks hs rfl) ht

theorem booked (h : Accountable s.owner m) (hreached : Reached s m)
    (hstep : m.step t = some m') : Booked (m.books s.owner) (m'.books s.owner) := by
  by_cases ht : t = s.owner.thread
  · subst ht
    exact booked_owner hreached hstep
  · exact (h.booked_elsewhere hreached ht hstep).1

theorem step (h : Accountable s.owner m) (hreached : Reached s m) (hstep : m.step t = some m') :
    Accountable s.owner m' := by
  refine ⟨(h.booked hreached hstep).balanced h.balanced, fun u hu => ?_⟩
  by_cases ht : u = t
  · subst ht
    exact (h.booked_elsewhere hreached hu hstep).2
  · rw [hreached.sound.stack_of_step hstep ht]
    exact h.elsewhere u hu

end Accountable

theorem accountable_machine (s : Setup σ E) : Accountable s.owner s.machine := by
  have hstacks (u : ThreadId) : Frame.debts (s.machine.stack u) = [] := by
    rcases s.stack_machine u with hs | ⟨-, -, hs⟩ | ⟨calls, hs⟩ <;> rw [hs] <;> rfl
  have hqueued : s.machine.queuedReplies = [] := by
    rw [queuedReplies, tasks_machine, List.filterMap_map]
    exact List.filterMap_eq_nil_iff.2 fun _ _ => rfl
  refine ⟨?_, fun u _ => hstacks u⟩
  rw [books, hstacks, hqueued]
  exact ⟨List.nodup_nil, List.forall_mem_nil _⟩

/-- **Each closure that is owed is owed once, and by the owner thread**: by its queue, or by its
stack. -/
theorem accountable_of_reached {s : Setup σ E} (h : Reached s m) : Accountable s.owner m := by
  obtain ⟨schedule, rfl⟩ := h
  have hstart : Reached s s.machine := ⟨[], rfl⟩
  exact hstart.induction (accountable_machine s)
    (fun _ _ _ hreached h hstep => h.step hreached hstep) schedule

/-- A reply that has been given is never changed. -/
theorem Reached.settled {s : Setup σ E} (h : Reached s m) {id : ReplyId} {r : Reply}
    (hr : m.replies[id]? = some r) (hgiven : r ≠ .awaited) (schedule : List ThreadId) :
    (m.run schedule).replies[id]? = some r := by
  refine h.induction (P := fun m => m.replies[id]? = some r) hr ?_ schedule
  intro m t m' hreached hr hstep
  have haccount := accountable_of_reached hreached
  exact (haccount.booked hreached hstep).settled haccount.balanced hr hgiven

end Machine

end LazyEngine
