/-
Calm code on the owner thread of a running engine.

Listeners are told while the call that has started the engine, or the task, is still under way, and
they make calls of their own. Calm code makes no trouble on the way: nothing that it leads to panics
or waits for another thread.

* `Call.isCalm`, `Frame.areCalm` — calm calls, and stacks on which nothing else is left to do;
* `Calm.passes`, `Calm.leads` — calm frames pass on to calm frames, and in the end there are none;
* `Calm.leads_telling` — listeners are told in the same way, whatever comes after them;
* `Calm.leads_pumping` — the owner thread pumps until no task is left.

Design notes: a panic is no trouble where calm code catches it itself, before it gets to those who
tell listeners or run tasks (`Frame.areGuarded`). The jobs that calm code posts are calm too, for a
job that panics takes the pump with it, also one that a listener has begun; and a listener that
joins another thread may never return.
-/
import LazyEngine.Proofs.Startup.Passages

namespace LazyEngine

mutual

/-- Whether nothing that a call leads to panics or waits for another thread; where panics are
caught, they do not count. -/
def Call.isCalm : Call → Bool → Bool
  | .register listener, _ => listener.isCalm
  | .post calls, _ => Call.areCalm calls false
  | .runOnOwner calls _, caught => Call.areCalm calls caught
  | .catching calls, _ => Call.areCalm calls true
  | .panic _, caught => caught
  | .join _, _ => false
  | _, _ => true

def Call.areCalm : List Call → Bool → Bool
  | [], _ => true
  | call :: calls, caught => call.isCalm caught && Call.areCalm calls caught

/-- Whether a listener, when told, does not panic and waits for no other thread. -/
def Listener.isCalm : Listener → Bool
  | .mk _ _ script => Call.areCalm script false

end

def Task.isCalm : Task → Bool
  | startup => true
  | job calls => Call.areCalm calls false
  | reply _ _ _ _ => false

namespace Frame

/-- Whether a panic above these frames is caught before it gets to a frame that tells listeners or
runs tasks. -/
def areGuarded : List Frame → Bool
  | [] | .telling _ _ :: _ | .pumping _ _ :: _ => false
  | .guard :: _ => true
  | _ :: below => areGuarded below

/-- Whether a frame leads to nothing but calm calls. -/
def isCalm : Frame → Bool → Bool
  | script _ calls, caught => Call.areCalm calls caught
  | telling listeners _, _ => listeners.all (·.2.isCalm)
  | pushing (.job calls) _, _ => Call.areCalm calls false
  | requesting _, _ | pumping _ _, _ | startup, _ | returning _ _, _ | takingHandle _, _
  | guard, _ => true
  | _, _ => false

/-- Whether the frames of a stack lead to nothing but calm calls. -/
def areCalm : List Frame → Bool
  | [] => true
  | f :: below => f.isCalm (areGuarded below) && areCalm below

theorem areCalm_cons {f : Frame} {below : List Frame} :
    areCalm (f :: below) = true ↔ f.isCalm (areGuarded below) = true ∧ areCalm below = true := by
  rw [areCalm, Bool.and_eq_true]

/-- A guarded panic leaves calm frames, whatever lies further below. -/
theorem unwind_of_areGuarded {stack : List Frame} (hcalm : areCalm stack = true)
    (hguarded : areGuarded stack = true) :
    ∃ kept, areCalm kept = true ∧
      ∀ below, unwind (stack ++ below) = ⟨.caught (kept ++ below), []⟩ := by
  induction stack with
  | nil => cases hguarded
  | cons f stack ih =>
    obtain ⟨hf, hstack⟩ := areCalm_cons.mp hcalm
    cases f with
    | guard => exact ⟨stack, hstack, fun _ => rfl⟩
    | telling | pumping => cases hguarded
    | sending | serving => cases hf
    | _ => exact ih hstack hguarded

end Frame

namespace Dispatcher

variable {T : Type} (d : Dispatcher T)

theorem isLoop_close : d.close.isLoop = d.isLoop := by
  cases d <;> rfl

theorem owner_close : d.close.owner = d.owner := by
  cases d <;> rfl

theorem isLoop_giveUpSending : d.giveUpSending.isLoop = d.isLoop := by
  cases d <;> rfl

theorem owner_giveUpSending : d.giveUpSending.owner = d.owner := by
  cases d <;> rfl

/-- A queue has no thread of its own to be joined. -/
theorem takeHandle_eq (h : d.isLoop = false) : d.takeHandle = (false, d) := by
  cases d with
  | queue => rfl
  | loop => cases h

end Dispatcher

theorem Listener.isCalm_iff (l : Listener) : l.isCalm = Call.areCalm l.script false := by
  cases l
  rfl

namespace Machine

variable {σ E : Type} {m n : Machine σ E} {t : ThreadId}

/-- The engine runs, `t` is its owner thread and pumps a queue, and nothing is queued that is not
calm. -/
structure Calm (t : ThreadId) (m : Machine σ E) : Prop where
  queue : m.dispatcher.isLoop = false
  owner : m.dispatcher.owner.isCurrent t = true
  started : m.coordinator.phase = .started
  engine : ∃ e, m.coordinator.engine = some e
  entries : m.coordinator.registrants.entries = []
  tasks : ∀ task ∈ m.dispatcher.tasks, task.isCalm = true

/-- A passage between calm frames: the coordinator and those who sleep are left alone, and
everything that happens is on this thread. -/
structure CalmPassage (t : ThreadId) (m : Machine σ E) (old : List Frame) (events : List (Event E))
    (new : List Frame) (n : Machine σ E) : Prop where
  passes : Passes t m old events new n
  coordinator : n.coordinator = m.coordinator
  sleepers : n.sleepers = m.sleepers
  isOn : ∀ e ∈ events, e.isOn t = true
  calm : Calm t n
  stack : Frame.areCalm new = true

namespace Calm

variable {events : List (Event E)} {old new rest : List Frame}

/-- Neither the threads nor the log matter. -/
theorem amid (h : Calm t m) (threads : List (List Frame)) (log : List (Event E)) :
    Calm t (m.amid threads log) :=
  ⟨h.queue, h.owner, h.started, h.engine, h.entries, h.tasks⟩

/-- A passage that may change the queue, and what no section of the coordinator depends on. -/
theorem passage (h : Calm t m) (events : List (Event E)) (new : List Frame)
    (hp : Passes t m old events new n) (hc : n.coordinator = m.coordinator)
    (hs : n.sleepers = m.sleepers)
    (hloop : n.dispatcher.isLoop = m.dispatcher.isLoop)
    (howner : n.dispatcher.owner = m.dispatcher.owner)
    (htasks : ∀ task ∈ n.dispatcher.tasks, task.isCalm = true)
    (hown : ∀ e ∈ events, e.isOn t = true) (hstack : Frame.areCalm new = true) :
    CalmPassage t m old events new n :=
  ⟨hp, hc, hs, hown,
    ⟨hloop.trans h.queue, howner ▸ h.owner, hc ▸ h.started, hc ▸ h.engine, hc ▸ h.entries, htasks⟩,
    hstack⟩

/-- What a frame does that may change the queue, and what no section of the coordinator depends
on. -/
theorem does (h : Calm t m) {f : Frame} (ha : Acts m t f new events n) (hj : f.joins = false)
    (hc : n.coordinator = m.coordinator) (hs : n.sleepers = m.sleepers)
    (hloop : n.dispatcher.isLoop = m.dispatcher.isLoop)
    (howner : n.dispatcher.owner = m.dispatcher.owner)
    (htasks : ∀ task ∈ n.dispatcher.tasks, task.isCalm = true)
    (hown : ∀ e ∈ events, e.isOn t = true) (hstack : Frame.areCalm (new ++ rest) = true) :
    ∃ events new n, CalmPassage t m (f :: rest) events new n :=
  ⟨events, _, n, h.passage events _ ((ha.passes hj).below rest) hc hs hloop howner htasks hown
    hstack⟩

/-- What a frame does that leaves alone all that threads share. -/
theorem stays (h : Calm t m) {f : Frame} (ha : Aside m t f new events) (hj : f.joins = false)
    (hstack : Frame.areCalm (new ++ rest) = true) :
    ∃ events new n, CalmPassage t m (f :: rest) events new n :=
  h.does (.aside ha) hj rfl rfl rfl rfl h.tasks ha.isOn hstack

theorem tasks_push (h : Calm t m) {calls : List Call} (hcalls : Call.areCalm calls false = true) :
    ∀ task ∈ (m.dispatcher.push (.job calls)).tasks, task.isCalm = true := by
  intro task htask
  rw [Dispatcher.tasks_push] at htask
  rcases List.mem_append.mp htask with htask | htask
  · exact h.tasks task htask
  · exact List.mem_singleton.mp htask ▸ hcalls

/-- Nothing is registered any more, so nothing can be taken back. -/
theorem unregister_eq (h : Calm t m) (id : RegistrationId) :
    m.coordinator.unregister id = ((m.coordinator.unregister id).1, m.coordinator) := by
  have hremove : m.coordinator.registrants.remove id = m.coordinator.registrants := by
    rw [Registry.remove, h.entries, List.filter_nil, ← h.entries]
  refine Prod.ext rfl ?_
  unfold Coordinator.unregister
  split
  · rw [hremove]
  · rfl

/-- A calm call passes on to calm frames. -/
theorem passes_call (h : Calm t m) {origin : Origin} {call : Call} {calls : List Call}
    (hcall : call.isCalm (Frame.areGuarded rest) = true)
    (hcalls : Frame.areCalm (.script origin calls :: rest) = true) :
    ∃ events new n, CalmPassage t m (.script origin (call :: calls) :: rest) events new n := by
  cases call with
  | ensureStarted claim =>
    obtain ⟨e, he⟩ := h.engine
    exact h.stays (.glanced he) rfl hcalls
  | startInBackground =>
    exact h.stays (.underway .call (by simp [h.started])) rfl hcalls
  | register l =>
    refine h.does (.registerLate h.started) rfl rfl rfl rfl rfl h.tasks (List.forall_mem_nil _)
      (Frame.areCalm_cons.mpr ⟨?_, hcalls⟩)
    rw [Frame.isCalm, List.all_cons, List.all_nil, Bool.and_true]
    exact hcall
  | unregister id =>
    have hsame := congrArg Prod.snd (h.unregister_eq id)
    exact h.does .unregister rfl hsame rfl rfl rfl h.tasks (isOn_answered _ _ _) hcalls
  | post jobs =>
    cases hr : m.dispatcher.refusal? with
    | some r =>
      exact h.does (.postRefused .job hr) rfl rfl rfl rfl rfl h.tasks (isOn_answered _ _ _) hcalls
    | none =>
      exact h.does (.postLooked .job hr h.queue) rfl rfl rfl rfl rfl h.tasks
        (List.forall_mem_nil _) (Frame.areCalm_cons.mpr ⟨hcall, hcalls⟩)
  | runOnOwner inner value =>
    refine h.stays (.inline h.owner) rfl ?_
    exact Frame.areCalm_cons.mpr ⟨hcall, Frame.areCalm_cons.mpr ⟨rfl, hcalls⟩⟩
  | catching inner =>
    refine h.stays .catching rfl ?_
    exact Frame.areCalm_cons.mpr ⟨hcall, Frame.areCalm_cons.mpr ⟨rfl, hcalls⟩⟩
  | pump => exact h.stays (.pump h.queue h.owner) rfl (Frame.areCalm_cons.mpr ⟨rfl, hcalls⟩)
  | close =>
    exact h.does .close rfl rfl rfl (Dispatcher.isLoop_close _) (Dispatcher.owner_close _)
      ((Dispatcher.tasks_close _).symm ▸ h.tasks) (isOn_answered _ _ _) hcalls
  | shutdown =>
    exact h.does .shutdown rfl rfl rfl (Dispatcher.isLoop_giveUpSending _)
      (Dispatcher.owner_giveUpSending _) ((Dispatcher.tasks_giveUpSending _).symm ▸ h.tasks)
      (List.forall_mem_nil _) (Frame.areCalm_cons.mpr ⟨rfl, hcalls⟩)
  | forget key =>
    exact h.does .forget rfl rfl rfl rfl rfl h.tasks (isOn_answered _ _ _) hcalls
  | note note => exact h.stays .note rfl hcalls
  | panic message =>
    have hscript := (Frame.areCalm_cons.mp hcalls).2
    -- the innermost guard is among the calm frames, so what lies below them is not touched
    obtain ⟨kept, hkept, hunwind⟩ := Frame.unwind_of_areGuarded hscript hcall
    refine ⟨[.panicked t message], kept, m, h.passage _ kept (fun threads log below => ?_)
      rfl rfl rfl rfl h.tasks (by simp [Event.isOn, Event.thread?]) hkept⟩
    have hu : Frame.unwind (.script origin calls :: (rest ++ below))
        = ⟨.caught (kept ++ below), []⟩ := hunwind below
    rw [List.cons_append, stepFrom, frame, Machine.call, panic, hu]
    rfl
  | join thread => cases hcall

/-- A task is taken: a calm frame is put above the frame that has taken it. -/
theorem passes_take (h : Calm t m) (taken : Nat) (origin : Origin) {task : Task}
    {d : Dispatcher Task} (htake : m.dispatcher.take? = some (task, d))
    (hrest : Frame.areCalm rest = true) :
    ∃ f n, Frame.areCalm [f] = true ∧ CalmPassage t m (.pumping taken origin :: rest) []
      (f :: .pumping (taken + 1) origin :: rest) n := by
  have htasks := Dispatcher.take?_tasks htake
  have hleft : ∀ x ∈ d.tasks, x.isCalm = true := fun x hx =>
    h.tasks x (htasks ▸ List.mem_cons_of_mem _ hx)
  have htask : task.isCalm = true := h.tasks task (htasks ▸ List.mem_cons_self)
  have htook : Passes t m [.pumping taken origin] []
      (task.frames ++ [.pumping (taken + 1) origin]) { m with dispatcher := d } :=
    Acts.passes (.took .pumping htake) rfl
  -- In either case the frames of the task are a single calm frame.
  have puts {f : Frame} (hf : Frame.areCalm [f] = true) (hframes : task.frames = [f])
      (hf' : f.isCalm (Frame.areGuarded (.pumping (taken + 1) origin :: rest)) = true) :
      ∃ f n, Frame.areCalm [f] = true ∧ CalmPassage t m (.pumping taken origin :: rest) []
        (f :: .pumping (taken + 1) origin :: rest) n := by
    rw [hframes] at htook
    exact ⟨f, _, hf, h.passage [] _ (htook.below rest) rfl rfl (Dispatcher.isLoop_take? htake)
      (Dispatcher.owner_take? htake) hleft (List.forall_mem_nil _)
      (Frame.areCalm_cons.mpr ⟨hf', Frame.areCalm_cons.mpr ⟨rfl, hrest⟩⟩)⟩
  cases task with
  | startup => exact puts rfl rfl rfl
  | job calls =>
    exact puts (f := .script .job calls) (Frame.areCalm_cons.mpr ⟨htask, rfl⟩) rfl htask
  | reply id value origin calls => cases htask

/-- Calm frames pass on to calm frames. -/
theorem passes (h : Calm t m) {f : Frame} (hcalm : Frame.areCalm (f :: rest) = true) :
    ∃ events new n, CalmPassage t m (f :: rest) events new n := by
  obtain ⟨hf, hrest⟩ := Frame.areCalm_cons.mp hcalm
  -- A calm frame neither waits nor starts the engine, and nothing that it puts on the stack does.
  cases f with
  | entering | awaitingStartup | serving | awaitingReply | sending | joiningLoop => cases hf
  | script origin calls =>
    cases calls with
    | nil => exact h.stays .ended rfl hrest
    | cons call calls =>
      obtain ⟨hcall, hcalls⟩ := Bool.and_eq_true_iff.mp hf
      exact h.passes_call hcall (Frame.areCalm_cons.mpr ⟨hcalls, hrest⟩)
  | requesting origin =>
    exact h.stays (.underway .requesting (by simp [h.started])) rfl hrest
  | pushing posting origin =>
    cases posting with
    | job calls =>
      exact h.does (.jobAccepted .pushing (.inl rfl)) rfl rfl rfl (Dispatcher.isLoop_push ..)
        (Dispatcher.owner_push ..) (h.tasks_push hf) (isOn_answered _ _ _) hrest
    | closure => cases hf
  | telling listeners sequel =>
    cases listeners with
    | nil => exact h.stays .told rfl hrest
    | cons first listeners =>
      obtain ⟨ticket, l⟩ := first
      rw [Frame.isCalm, List.all_cons, Bool.and_eq_true] at hf
      refine h.stays .tell rfl (Frame.areCalm_cons.mpr ⟨?_, Frame.areCalm_cons.mpr ⟨hf.2, hrest⟩⟩)
      exact l.isCalm_iff.symm.trans hf.1
  | pumping taken origin =>
    cases htake : m.dispatcher.take? with
    | some x =>
      obtain ⟨task, d⟩ := x
      obtain ⟨f, n, -, hp⟩ := h.passes_take taken origin htake hrest
      exact ⟨_, _, n, hp⟩
    | none => exact h.stays (.drained (Dispatcher.take?_eq_none_iff.1 htake)) rfl hrest
  | startup => exact h.stays (.spared h.started) rfl (Frame.areCalm_cons.mpr ⟨rfl, hrest⟩)
  | returning value origin => exact h.stays .returned rfl hrest
  | takingHandle origin =>
    have htake := Dispatcher.takeHandle_eq m.dispatcher h.queue
    exact h.does (.unclaimed (.inl (by rw [htake]))) rfl rfl rfl (by rw [htake]) (by rw [htake])
      (by rw [htake]; exact h.tasks) (isOn_answered _ _ _) hrest
  | guard => exact h.stays .guard rfl hrest

/-- Calm frames come to an end. -/
theorem leads (h : Calm t m) {stack : List Frame}
    (hcalm : Frame.areCalm stack = true) :
    ∃ events n, Leads t m stack events [] n ∧ Calm t n := by
  induction hweight : Frame.weights stack + m.backlog using Nat.strongRecOn
    generalizing m stack with
  | _ weight ih =>
    subst hweight
    cases stack with
    | nil => exact ⟨[], m, .refl m [], h⟩
    | cons f rest =>
      obtain ⟨events, new, n, hp⟩ := h.passes hcalm
      obtain ⟨events', n', hleads, hcalm'⟩ := ih _ hp.passes.weight_lt hp.calm hp.stack rfl
      exact ⟨_, n', .step hp.passes hp.coordinator hp.sleepers hp.isOn hleads, hcalm'⟩

/-- Listeners are told one after the other, and it makes no difference what comes after them. -/
theorem leads_telling (h : Calm t m) {listeners : List (Ticket × Listener)}
    (hlisteners : ∀ l ∈ listeners, l.2.isCalm = true) :
    ∃ events n, Calm t n ∧ ∀ sequel,
      Leads t m [.telling listeners sequel] events [.telling [] sequel] n := by
  induction listeners generalizing m with
  | nil => exact ⟨[], m, h, fun sequel => .refl m _⟩
  | cons first listeners ih =>
    obtain ⟨ticket, l⟩ := first
    have hscript : Frame.areCalm [.script .callback l.script] = true :=
      Frame.areCalm_cons.mpr
        ⟨l.isCalm_iff.symm.trans (hlisteners (ticket, l) List.mem_cons_self), rfl⟩
    obtain ⟨own, n, hown, hn⟩ := h.leads hscript
    obtain ⟨events, n', hn', hrest⟩ := ih hn fun x hx => hlisteners x (List.mem_cons_of_mem _ hx)
    have htold (sequel : Sequel) : Leads t m [.telling ((ticket, l) :: listeners) sequel]
        [.told ticket l.key l.name m.coordinator.phase t]
        [.script .callback l.script, .telling listeners sequel] m :=
      .aside .tell rfl
    exact ⟨_, n', hn', fun sequel =>
      (htold sequel).trans ((hown.above [.telling listeners sequel]).trans (hrest sequel))⟩

/-- The owner thread takes tasks until none is left. -/
theorem leads_pumping (h : Calm t m) (taken : Nat) (origin : Origin) :
    ∃ total events n, Leads t m [.pumping taken origin]
        (.answered t origin (.pumped (.ok total)) :: events) [] n ∧
      (m.dispatcher.tasks = [] → total = taken ∧ events = []) := by
  -- By induction on all that is left to do: a task may post others, but weighs more than they.
  induction hweight : m.backlog using Nat.strongRecOn generalizing m taken with
  | _ weight ih =>
    subst hweight
    cases htake : m.dispatcher.take? with
    | none =>
      exact ⟨taken, [], m, .aside (.drained (Dispatcher.take?_eq_none_iff.1 htake)) rfl,
        fun _ => ⟨rfl, rfl⟩⟩
    | some x =>
      obtain ⟨task, d⟩ := x
      obtain ⟨f, n, hf, hp⟩ := h.passes_take taken origin htake
        (show Frame.areCalm [] = true from rfl)
      obtain ⟨events, n', hleads, hcalm⟩ := hp.calm.leads hf
      have hlt := hp.passes.weight_lt
      have hle := hleads.weight_le
      simp only [Frame.weights_cons, Frame.weights_nil, Frame.weight] at hlt hle
      obtain ⟨total, events', n'', hrest, -⟩ := ih n'.backlog (by omega) hcalm (taken + 1) rfl
      -- The first task is taken and run to its end; the pump goes on with what is queued then.
      have htook : Leads t m [.pumping taken origin] []
          [f, .pumping (taken + 1) origin] n :=
        .single hp.passes hp.coordinator hp.sleepers hp.isOn
      refine ⟨total, events' ++ events, n'', ?_, fun hnone => ?_⟩
      · have := htook.trans ((hleads.above [.pumping (taken + 1) origin]).trans hrest)
        rwa [List.append_nil] at this
      · rw [Dispatcher.take?_tasks htake] at hnone
        cases hnone

end Calm

end Machine

end LazyEngine
