/-
Round trips to the owner thread.

Those who wait for the engine are woken before the owner thread has told the listeners, so a thread
that goes on may find listeners that have not been told. Once the engine has started, a closure that
it sends to the owner thread is not begun before the owner thread is back from telling them, so it
is enough to wait for the closure.

* `Machine.Attending`, `Attending.step` — a listener waits, is about to be told, or has been told;
* `Machine.Fenced`, `Fenced.step` — a reply does not come before all listeners have been told;
* `Machine.Achieves` — a thread comes to the end of its calls, whatever the interleaving, and what
  is so then;
* `achieves_roundTrip` — after a round trip all listeners have been told;
* `achieves_closure`, `achieves_joins` — two ways to have the engine started: send a closure that
  starts it, or wait for a thread that needs it.

Design notes: a round trip on its own is not enough. If nobody has asked for the engine before, the
closure comes first, and whoever asks then is woken without having waited for a listener.
-/
import LazyEngine.Proofs.Startup.Orderly

namespace LazyEngine

namespace Machine

variable {σ E : Type} {m m' n : Machine σ E} {t u : ThreadId} {initializer : Initializer σ E}
  {owner : Owner} {engine : E} {l : Listener} {ls : List Listener}

/-! ### Listeners -/

/-- The listener has been told. -/
def Told (m : Machine σ E) (l : Listener) : Prop :=
  ∃ d ∈ m.deliveries, d.key = l.key

/-- Before startup the listener is registered and held by somebody; after it, it has been told or
the owner thread is about to tell it. -/
structure Attending (owner : Owner) (m : Machine σ E) (l : Listener) : Prop where
  waiting : m.coordinator.phase ≠ .started →
    l.key ∈ m.held ∧ ∃ id, (id, l) ∈ m.coordinator.registrants.entries
  served : m.coordinator.phase = .started →
    m.Told l ∨ ∃ ticket, (ticket, l) ∈ m.due owner.thread

theorem Told.step (h : m.Told l) (ho : Orderly initializer owner engine m)
    (hstep : m.step t = some m') : m'.Told l := by
  obtain ⟨d, hd, hkey⟩ := h
  exact ⟨d, (ho.sound.dealt (turn_of_step hstep)).deliveries_subset hd, hkey⟩

theorem Orderly.started_mono (h : Orderly initializer owner engine m)
    (hp : m.coordinator.phase = .started) (hstep : m.step t = some m') :
    m'.coordinator.phase = .started :=
  h.sound.started_mono (turn_of_step hstep) hp

/-- What the owner thread was about to tell it still is, or it has told it in this step. -/
theorem Proceeds.due {f : Frame} {pushed below : List Frame}
    (hp : Proceeds initializer owner engine m t f pushed n) (hs : m.stack t = f :: below)
    {ticket : Ticket} (hdue : (ticket, l) ∈ m.due owner.thread) :
    (n.withStack t (pushed ++ below)).Told l ∨
      (ticket, l) ∈ (n.withStack t (pushed ++ below)).due owner.thread := by
  by_cases ht : t = owner.thread
  · rw [Machine.due, ← ht, stack_withStack_self hp.threads_eq hs, List.flatMap_append]
    rw [Machine.due, ← ht, hs, List.flatMap_cons] at hdue
    -- It is due in the innermost frame or in one below, which stays where it is.
    rcases List.mem_append.1 hdue with hmem | hmem
    · cases hp with
      | stays _ hspent =>
        rw [Frame.dues_of_isSpent hspent] at hmem
        cases hmem
      | tells _ _ =>
        rcases List.mem_cons.1 hmem with heq | hmem
        · obtain ⟨rfl, rfl⟩ := Prod.mk.inj heq
          exact .inl ⟨_, mem_deliveries_told, rfl⟩
        · exact .inr (List.mem_append_left _ (List.mem_append_right _
            (List.mem_append_left _ hmem)))
      | starts _ hl => cases hl <;> cases hmem
      | _ => cases hmem
    · exact .inr (List.mem_append_right _ hmem)
  · refine .inr ?_
    rw [Machine.due, stack_withStack_of_threads hp.threads_eq hs, if_neg (Ne.symm ht)]
    exact hdue

/-- **No listener is forgotten**, as long as errands are run. -/
theorem Attending.step (h : m.Attending owner l) (ho : Orderly initializer owner engine m)
    (hstep : m.step t = some m') : m'.Attending owner l := by
  obtain ⟨f, below, pushed, n, hs, hp, rfl⟩ := ho.proceeds hstep
  rcases hp.coordinator with
    ⟨hphase, hr, -, -, -, hheld⟩ | ⟨ht, hne, hstarted, -, -, -, sequel, rfl⟩
  · constructor
    · show n.coordinator.phase ≠ .started → l.key ∈ n.held ∧
        ∃ id, (id, l) ∈ n.coordinator.registrants.entries
      rw [hheld, hr]
      exact fun hne => h.waiting fun heq => hne (hphase.2 heq)
    · intro heq
      rcases h.served (hphase.1 heq) with htold | ⟨ticket, hdue⟩
      · exact .inl (htold.step ho hstep)
      · exact (hp.due hs hdue).imp_right fun hdue => ⟨ticket, hdue⟩
  · refine ⟨absurd hstarted, fun _ => .inr ?_⟩
    obtain ⟨hheld, id, hentry⟩ := h.waiting hne
    refine ⟨.pending id, ?_⟩
    rw [Machine.due, ← ht, stack_withStack_self hp.threads_eq hs]
    have hlive : (id, l) ∈ m.coordinator.registrants.live m.alive :=
      List.mem_filter.2 ⟨hentry, by simpa [alive] using hheld⟩
    exact List.mem_append_left _ (List.mem_map.2 ⟨_, hlive, rfl⟩)

/-- Between two tasks nobody is left to be told. -/
theorem Attending.told (h : m.Attending owner l) (hp : m.coordinator.phase = .started)
    (hserving : m.stack owner.thread = [.serving]) : m.Told l := by
  rcases h.served hp with htold | ⟨ticket, hdue⟩
  · exact htold
  · rw [due, hserving] at hdue
    cases hdue

/-! ### Replies -/

/-- The listeners have been told, or the reply is not even about to be sent. -/
def Fenced (owner : Owner) (ls : List Listener) (id : ReplyId) (m : Machine σ E) : Prop :=
  (∀ l ∈ ls, m.Told l) ∨
    m.replies[id]? = some .awaited ∧ ∀ value, .sending id value ∉ m.stack owner.thread

/-- **A reply does not overtake the listeners.** The owner thread takes up a closure only when it is
between two tasks. -/
theorem Fenced.step {id : ReplyId} (h : m.Fenced owner ls id)
    (ho : Orderly initializer owner engine m) (hp : m.coordinator.phase = .started)
    (hattending : ∀ l ∈ ls, m.Attending owner l) (hstep : m.step t = some m') :
    m'.Fenced owner ls id := by
  rcases h with htold | ⟨hawaited, hsending⟩
  · exact .inl fun l hl => (htold l hl).step ho hstep
  obtain ⟨f, below, pushed, n, hs, hproceeds, rfl⟩ := ho.proceeds hstep
  have hid : id < m.replies.length := (List.getElem?_eq_some_iff.1 hawaited).1
  have hstack := stack_withStack_of_threads hproceeds.threads_eq hs (pushed ++ below)
  -- a frame that sends the reply is new
  have keep (hr : n.replies[id]? = some .awaited)
      (hnew : t = owner.thread → ∀ value, .sending id value ∉ pushed) :
      (n.withStack t (pushed ++ below)).Fenced owner ls id := by
    refine .inr ⟨hr, fun value hmem => ?_⟩
    rw [hstack] at hmem
    split at hmem
    · rename_i heq
      rcases List.mem_append.1 hmem with hmem | hmem
      · exact hnew heq.symm value hmem
      · refine hsending value ?_
        rw [heq, hs]
        exact List.mem_cons_of_mem _ hmem
    · exact hsending value hmem
  cases hproceeds with
  | stays _ _ hfresh =>
    refine keep hawaited fun _ value hmem => ?_
    cases hfresh _ hmem
  | @takes task d ht htake =>
    left
    rcases ho.inside (ht ▸ hs) with ⟨-, rfl⟩ | ⟨hf, -⟩
    · exact fun l hl => ((hattending l hl).told hp (ht ▸ hs)).step ho hstep
    · cases hf
  | @replies id' value ht =>
    have hne : id' ≠ id := by
      rintro rfl
      refine hsending value ?_
      rw [← ht, hs]
      exact List.mem_cons_self
    exact keep ((List.getElem?_set_ne hne).trans hawaited) fun _ _ => List.not_mem_nil
  | sends hne =>
    exact keep ((List.getElem?_append_left hid).trans hawaited) fun heq => absurd heq hne
  | _ => exact keep hawaited fun _ value hmem => by simp at hmem

/-! ### Coming to the end of calls -/

/-- The machine in which a thread has these calls to make and nothing else. -/
def given (m : Machine σ E) (t : ThreadId) (calls : List Call) : Machine σ E :=
  m.withStack t [.script .caller calls]

/-- A thread that is given these calls comes to the end of them, whatever the interleaving: when
nobody can step any more it has, and whenever it has, `P` holds. (Every step lowers the weight of a
machine, so nobody can step for ever.) -/
structure Achieves (m : Machine σ E) (t : ThreadId) (calls : List Call)
    (P : Machine σ E → Prop) : Prop where
  ends : ∀ schedule, (∀ u, ((m.given t calls).run schedule).step u = none) →
    ((m.given t calls).run schedule).stack t = []
  result : ∀ schedule, ((m.given t calls).run schedule).stack t = [] →
    P ((m.given t calls).run schedule)

theorem Achieves.mono {calls : List Call} {P Q : Machine σ E → Prop}
    (h : m.Achieves t calls P) (hPQ : ∀ n, P n → Q n) : m.Achieves t calls Q :=
  ⟨h.ends, fun schedule hdone => hPQ _ (h.result schedule hdone)⟩

/-- So it is where everything is done as soon as it can be. -/
theorem Achieves.settle {calls : List Call} {P : Machine σ E → Prop} (h : m.Achieves t calls P) :
    P (m.given t calls).settle := by
  obtain ⟨schedule, hrun⟩ := exists_run_eq_settleWithin (m.given t calls).weight (m.given t calls)
  have hrest := advance_eq_none_iff.1 (advance_settle (m.given t calls))
  rw [Machine.settle, hrun] at hrest ⊢
  exact h.result schedule (h.ends schedule hrest)

theorem stack_given (ht : t < m.threads.length) (calls : List Call) (u : ThreadId) :
    (m.given t calls).stack u = if u = t then [.script .caller calls] else m.stack u :=
  stack_withStack ht _ u

theorem stack_given_owner (ht : t < m.threads.length) (hne : t ≠ owner.thread) (calls : List Call) :
    (m.given t calls).stack owner.thread = m.stack owner.thread := by
  rw [stack_given ht, if_neg (Ne.symm hne)]

/-- Only the calls are new. -/
theorem given_restaffs (ht : t < m.threads.length) {calls : List Call}
    (hcalls : calls.all (Call.isOutside owner.thread t) = true) (u : ThreadId) :
    (m.given t calls).stack u = m.stack u ∨ ∃ calls',
      (m.given t calls).stack u = [.script .caller calls'] ∧
        calls'.all (Call.isOutside owner.thread u) = true := by
  rw [stack_given ht]
  split
  · rename_i heq
    exact .inr ⟨calls, rfl, heq ▸ hcalls⟩
  · exact .inl rfl

theorem Orderly.given (h : Orderly initializer owner engine m) (ht : t < m.threads.length)
    (hne : t ≠ owner.thread) {calls : List Call}
    (hcalls : calls.all (Call.isOutside owner.thread t) = true) :
    Orderly initializer owner engine (m.given t calls) :=
  h.restaffed rfl (stack_given_owner ht hne calls) fun u _ => given_restaffs ht hcalls u

/-- Errands are run while listeners wait to be told or have been told. -/
structure Attends (initializer : Initializer σ E) (owner : Owner) (engine : E) (ls : List Listener)
    (m : Machine σ E) : Prop where
  orderly : Orderly initializer owner engine m
  attending : ∀ l ∈ ls, m.Attending owner l

/-- The engine has started, and all listeners have been told. -/
structure Served (initializer : Initializer σ E) (owner : Owner) (engine : E) (ls : List Listener)
    (m : Machine σ E) : Prop where
  orderly : Orderly initializer owner engine m
  started : m.coordinator.phase = .started
  told : ∀ l ∈ ls, m.Told l

theorem Attends.step (h : Attends initializer owner engine ls m) (hstep : m.step t = some m') :
    Attends initializer owner engine ls m' :=
  ⟨h.orderly.step hstep, fun l hl => (h.attending l hl).step h.orderly hstep⟩

theorem Served.step (h : Served initializer owner engine ls m) (hstep : m.step t = some m') :
    Served initializer owner engine ls m' :=
  ⟨h.orderly.step hstep, h.orderly.started_mono h.started hstep,
    fun l hl => (h.told l hl).step h.orderly hstep⟩

theorem Served.run (h : Served initializer owner engine ls m) (schedule : List ThreadId) :
    Served initializer owner engine ls (m.run schedule) :=
  run_induction (fun _ _ _ h hstep => h.step hstep) h schedule

section
variable {calls : List Call} {P Q : Machine σ E → Prop}

/-- New errands keep no listener from being told. -/
theorem Attends.restaffed (h : Attends initializer owner engine ls m)
    {threads : List (List Frame)} (hn : n = { m with threads })
    (hkeeps : n.stack owner.thread = m.stack owner.thread)
    (hnew : ∀ u, u ≠ owner.thread → n.stack u = m.stack u ∨ ∃ calls,
      n.stack u = [.script .caller calls] ∧ calls.all (Call.isOutside owner.thread u) = true) :
    Attends initializer owner engine ls n := by
  refine ⟨h.orderly.restaffed hn hkeeps hnew, fun l hl => ?_⟩
  have hdue : n.due owner.thread = m.due owner.thread := congrArg _ hkeeps
  subst hn
  refine ⟨(h.attending l hl).waiting, fun hp => ?_⟩
  rw [hdue]
  exact (h.attending l hl).served hp

theorem Attends.given (h : Attends initializer owner engine ls m) (ht : t < m.threads.length)
    (hne : t ≠ owner.thread) (hcalls : calls.all (Call.isOutside owner.thread t) = true) :
    Attends initializer owner engine ls (m.given t calls) :=
  h.restaffed rfl (stack_given_owner ht hne calls) fun u _ => given_restaffs ht hcalls u

/-- A thread comes to the end of its errands; what is so then follows from any fact that every step
preserves. -/
theorem Orderly.achieves (h : Orderly initializer owner engine m) (ht : t < m.threads.length)
    (hne : t ≠ owner.thread) (hcalls : calls.all (Call.isOutside owner.thread t) = true)
    (hstart : Q (m.given t calls))
    (hstep : ∀ n u n', Orderly initializer owner engine n → Q n → n.step u = some n' → Q n')
    (hend : ∀ n, Orderly initializer owner engine n → Q n → n.stack t = [] → P n) :
    m.Achieves t calls P := by
  have hrun (schedule : List ThreadId) :
      Orderly initializer owner engine ((m.given t calls).run schedule) ∧
        Q ((m.given t calls).run schedule) :=
    run_induction (P := fun n => Orderly initializer owner engine n ∧ Q n)
      (fun n u n' hn hs => ⟨hn.1.step hs, hstep n u n' hn.1 hn.2 hs⟩)
      ⟨h.given ht hne hcalls, hstart⟩ schedule
  exact ⟨fun schedule hrest => ((hrun schedule).1.rests hrest).2 t hne,
    fun schedule hdone => hend _ (hrun schedule).1 (hrun schedule).2 hdone⟩

/-- The threads stay the same. -/
theorem Achieves.of_orderly (h : m.Achieves t calls P) (ho : Orderly initializer owner engine m)
    (ht : t < m.threads.length) (hne : t ≠ owner.thread)
    (hcalls : calls.all (Call.isOutside owner.thread t) = true) :
    m.Achieves t calls fun n => P n ∧ n.threads.length = m.threads.length := by
  refine ⟨h.ends, fun schedule hdone => ⟨h.result schedule hdone, ?_⟩⟩
  refine (run_induction (P := fun n => Orderly initializer owner engine n ∧
    n.threads.length = m.threads.length) (fun n u n' hn hs => ⟨hn.1.step hs, ?_⟩)
    ⟨ho.given ht hne hcalls, List.length_set⟩ schedule).2
  obtain ⟨stack, hthreads⟩ := (hn.1.sound.restacked (turn_of_step hs)).threads
  rw [hthreads, List.length_set, hn.2]

/-- Errands undo nothing. -/
theorem Served.achieves (h : Served initializer owner engine ls m) (ht : t < m.threads.length)
    (hne : t ≠ owner.thread) (hcalls : calls.all (Call.isOutside owner.thread t) = true) :
    m.Achieves t calls (Served initializer owner engine ls) :=
  h.orderly.achieves (Q := Served initializer owner engine ls) ht hne hcalls
    ⟨h.orderly.given ht hne hcalls, h.started, h.told⟩ (fun _ _ _ _ hn hs => hn.step hs)
    fun _ _ hn _ => hn

end

/-! ### A round trip -/

/-- The closure is queued, and its sender waits. -/
theorem Orderly.step_runOnOwner (h : Orderly initializer owner engine m) (ht : t ≠ owner.thread)
    {origin : Origin} {closure calls : List Call} {value : String} {below : List Frame}
    (hs : m.stack t = .script origin (.runOnOwner closure value :: calls) :: below) :
    m.step t = some ({ m with
      dispatcher := m.dispatcher.push (.reply m.replies.length value origin closure)
      replies := m.replies ++ [Reply.awaited] }.withStack t
        (.awaitingReply m.replies.length origin :: .script origin calls :: below)) := by
  have hcurrent : m.dispatcher.owner.isCurrent t = false :=
    Bool.eq_false_iff.2 fun ho => ht (h.isCurrent_iff.1 ho)
  exact step_of_acts hs (.closureAccepted (.closure hcurrent) (.inr ⟨h.isLoop, h.accepts⟩))

theorem step_awaitingReply {id : ReplyId} {origin : Origin} {below : List Frame}
    (hs : m.stack t = .awaitingReply id origin :: below)
    (hawaited : m.replies[id]? = some .awaited) : m.step t = none := by
  rw [step, hs, stepFrom, frame, hawaited]

/-- Where a thread is that sends a closure and waits for it. -/
inductive Trip (owner : Owner) (t : ThreadId) (ls : List Listener) (m : Machine σ E) : Prop where
  | leaving {closure : List Call} {value : String} :
      m.stack t = [.script .caller [.runOnOwner closure value]] → Trip owner t ls m
  | away {id : ReplyId} : m.stack t = [.awaitingReply id .caller, .script .caller []] →
      m.Fenced owner ls id → Trip owner t ls m
  | back : (∀ l ∈ ls, m.Told l) → Trip owner t ls m

theorem Trip.step (h : Trip owner t ls m) (ha : Attends initializer owner engine ls m)
    (hp : m.coordinator.phase = .started) (ht : t ≠ owner.thread) (hstep : m.step u = some m') :
    Trip owner t ls m' := by
  have hothers (hu : u ≠ t) : m'.stack t = m.stack t :=
    (ha.orderly.sound.restacked (turn_of_step hstep)).others (Ne.symm hu)
  have htold (h : ∀ l ∈ ls, m.Told l) : Trip owner t ls m' :=
    .back fun l hl => (h l hl).step ha.orderly hstep
  -- Only its own thread moves the trip on; other threads can only bring about that all are told.
  by_cases hu : u = t
  · subst hu
    cases h with
    | leaving hs =>
      rw [ha.orderly.step_runOnOwner ht hs] at hstep
      cases hstep
      refine .away (stack_withStack_self rfl hs _) (.inr ⟨?_, fun value hmem => ?_⟩)
      · simp [withStack]
      · -- the number is new
        rw [stack_withStack_of_threads (by rfl) hs, if_neg (Ne.symm ht)] at hmem
        exact absurd (ha.orderly.owed _ (.inr ⟨value, hmem⟩)) (Nat.lt_irrefl _)
    | away hs hfenced =>
      rcases hfenced with h | ⟨hawaited, -⟩
      · exact htold h
      · rw [step_awaitingReply hs hawaited] at hstep
        cases hstep
    | back h => exact htold h
  · cases h with
    | leaving hs => exact .leaving ((hothers hu).trans hs)
    | away hs hfenced =>
      exact .away ((hothers hu).trans hs) (hfenced.step ha.orderly hp ha.attending hstep)
    | back h => exact htold h

/-- **After a round trip all listeners have been told**, if the engine had started before. -/
theorem achieves_roundTrip (h : Attends initializer owner engine ls m)
    (hp : m.coordinator.phase = .started) (ht : t < m.threads.length) (hne : t ≠ owner.thread)
    (closure : List Call) (hclosure : closure.all Call.isInside = true) (value : String) :
    m.Achieves t [.runOnOwner closure value] (Served initializer owner engine ls) := by
  have hcalls : [Call.runOnOwner closure value].all (Call.isOutside owner.thread t) = true := by
    simpa [Call.isOutside] using hclosure
  refine h.orderly.achieves (Q := fun n => Attends initializer owner engine ls n ∧
    n.coordinator.phase = .started ∧ Trip owner t ls n) ht hne hcalls
    ⟨h.given ht hne hcalls, hp, .leaving ((stack_given ht _ t).trans (if_pos rfl))⟩ ?_ ?_
  · rintro n u n' - ⟨ha, hp, htrip⟩ hstep
    exact ⟨ha.step hstep, ha.orderly.started_mono hp hstep, htrip.step ha hp hne hstep⟩
  · rintro n ho ⟨-, hp, htrip⟩ hdone
    refine ⟨ho, hp, ?_⟩
    cases htrip with
    | leaving hs | away hs =>
      rw [hdone] at hs
      cases hs
    | back h => exact h

/-! ### Having the engine started -/

/-- A thread that is not done before the engine has started comes to the end of its calls after
it. -/
theorem Attends.achieves_started {calls : List Call} {S : Machine σ E → Prop}
    (h : Attends initializer owner engine ls m) (ht : t < m.threads.length)
    (hne : t ≠ owner.thread) (hcalls : calls.all (Call.isOutside owner.thread t) = true)
    (hstart : S (m.given t calls))
    (hstep : ∀ n u n', Orderly initializer owner engine n → n.coordinator.phase ≠ .started → S n →
      n.step u = some n' → n'.coordinator.phase = .started ∨ S n')
    (hbusy : ∀ n, S n → n.stack t ≠ []) :
    m.Achieves t calls fun n =>
      Attends initializer owner engine ls n ∧ n.coordinator.phase = .started := by
  refine h.orderly.achieves (Q := fun n => Attends initializer owner engine ls n ∧
    (n.coordinator.phase = .started ∨ S n)) ht hne hcalls ⟨h.given ht hne hcalls, .inr hstart⟩ ?_ ?_
  · rintro n u n' - ⟨ha, hn⟩ hs
    refine ⟨ha.step hs, ?_⟩
    by_cases hp : n.coordinator.phase = .started
    · exact .inl (ha.orderly.started_mono hp hs)
    · exact hstep n u n' ha.orderly hp (hn.resolve_left hp) hs
  · rintro n - ⟨ha, hn⟩ hdone
    exact ⟨ha, hn.resolve_right fun hS => hbusy n hS hdone⟩

theorem Orderly.engine_eq_none (h : Orderly initializer owner engine m)
    (hp : m.coordinator.phase ≠ .started) : m.coordinator.engine = none :=
  Option.eq_none_iff_forall_ne_some.2 fun e he => hp (h.sound.started_iff.2 ⟨e, he⟩)

/-- A call that has found no engine goes on to look for one in the coordinator. -/
theorem Orderly.step_ensureStarted (h : Orderly initializer owner engine m)
    (hp : m.coordinator.phase ≠ .started) {origin : Origin} {claim : Claim} {calls : List Call}
    {below : List Frame}
    (hs : m.stack t = .script origin (.ensureStarted claim :: calls) :: below) :
    m.step t = some (m.withStack t
      (.entering (claim.asserted (m.dispatcher.owner.isCurrent t)) origin false
        :: .script origin calls :: below)) :=
  step_of_acts hs (.aside (.missed (h.engine_eq_none hp)))

/-- A thread needs the engine, and another one waits for it. -/
structure Delegated (t w : ThreadId) (m : Machine σ E) : Prop where
  joins : ∃ joins, m.stack t = [.script .caller (.join w :: joins)]
  needs : m.stack w = [.script .caller [.ensureStarted .none]] ∨
    m.stack w = [.entering false .caller false, .script .caller []] ∨
    m.stack w = [.awaitingStartup .caller, .script .caller []]

theorem Delegated.step {w : ThreadId} (h : m.Delegated t w)
    (ho : Orderly initializer owner engine m) (hp : m.coordinator.phase ≠ .started)
    (hne : t ≠ w) (hw : w ≠ owner.thread) (hstep : m.step u = some m') :
    m'.Delegated t w := by
  obtain ⟨⟨joins, hjoins⟩, hneeds⟩ := h
  have hothers {v : ThreadId} (hv : v ≠ u) : m'.stack v = m.stack v :=
    (ho.sound.restacked (turn_of_step hstep)).others hv
  have hbusy : m.stack w ≠ [] := by
    rcases hneeds with hs | hs | hs <;>
    · rw [hs]
      exact List.cons_ne_nil _ _
  -- The thread that joins cannot step, since the other one still has something to do.
  have hut : u ≠ t := by
    rintro rfl
    rw [Machine.step, hjoins, stepFrom, frame, call, List.isEmpty_eq_false_iff.2 hbusy] at hstep
    cases hstep
  refine ⟨⟨joins, (hothers (Ne.symm hut)).trans hjoins⟩, ?_⟩
  -- The delegate goes from its call to the section, and from there to sleep.
  by_cases huw : u = w
  · subst huw
    rcases hneeds with hs | hs | hs
    · rw [ho.step_ensureStarted hp hs] at hstep
      cases hstep
      exact .inr (.inl (stack_withStack_self rfl hs _))
    · obtain ⟨f, below, pushed, n, hs', hproceeds, rfl⟩ := ho.proceeds hstep
      obtain ⟨rfl, rfl⟩ := List.cons.inj (hs.symm.trans hs')
      refine .inr (.inr ?_)
      rw [stack_withStack_self hproceeds.threads_eq hs]
      cases hproceeds with
      | stays _ hspent => exact absurd (Phase.isStarted_iff.1 hspent) hp
      | starts heq => exact absurd heq hw
      | requests | waits => rfl
    · obtain ⟨f, below, pushed, n, hs', hproceeds, rfl⟩ := ho.proceeds hstep
      obtain ⟨rfl, rfl⟩ := List.cons.inj (hs.symm.trans hs')
      cases hproceeds with
      | stays _ hspent => exact absurd (Phase.isStarted_iff.1 hspent) hp
      | starts heq => exact absurd heq hw
  · rw [hothers (Ne.symm huw)]
    exact hneeds

/-- **A thread that waits for one that needs the engine** goes on after the engine has started. -/
theorem achieves_joins {w : ThreadId} {joins : List Call}
    (h : Attends initializer owner engine ls m) (ht : t < m.threads.length)
    (hne : t ≠ owner.thread) (hcalls : (Call.join w :: joins).all (Call.isOutside owner.thread t))
    (hneeds : m.stack w = [.script .caller [.ensureStarted .none]]) :
    m.Achieves t (.join w :: joins) fun n =>
      Attends initializer owner engine ls n ∧ n.coordinator.phase = .started := by
  obtain ⟨hw, hlt⟩ : w ≠ owner.thread ∧ t < w := by
    have := List.all_eq_true.1 hcalls _ List.mem_cons_self
    exact of_decide_eq_true this
  have htw : t ≠ w := Nat.ne_of_lt hlt
  refine h.achieves_started (S := Delegated t w) ht hne hcalls ⟨⟨joins, ?_⟩, .inl ?_⟩
    (fun n u n' ho hp hS hstep => .inr (hS.step ho hp htw hw hstep)) fun n hS hnil => ?_
  · rw [stack_given ht, if_pos rfl]
  · rw [stack_given ht, if_neg (Ne.symm htw), hneeds]
  · obtain ⟨joins, hs⟩ := hS.joins
    rw [hnil] at hs
    cases hs

/-- A thread waits for the value of a closure that has not been sent yet. -/
def Away (t : ThreadId) (id : ReplyId) (m : Machine σ E) : Prop :=
  m.stack t = [.awaitingReply id .caller, .script .caller []] ∧ m.replies[id]? = some .awaited

/-- How far a closure is that starts the engine, while the engine has not been started. -/
inductive Underway (owner : Owner) (t : ThreadId) (claim : Claim) (value : String)
    (m : Machine σ E) : Prop where
  | leaving :
      m.stack t = [.script .caller [.runOnOwner [.catching [.ensureStarted claim]] value]] →
      m.stack owner.thread = [.serving] → m.dispatcher.tasks = [] → Underway owner t claim value m
  | queued {id : ReplyId} : m.Away t id → m.stack owner.thread = [.serving] →
      m.dispatcher.tasks = [.reply id value .caller [.catching [.ensureStarted claim]]] →
      Underway owner t claim value m
  | begun {id : ReplyId} : m.Away t id →
      m.stack owner.thread = [.script .caller [.catching [.ensureStarted claim]],
        .sending id value, .serving] → Underway owner t claim value m
  | guarded {id : ReplyId} : m.Away t id →
      m.stack owner.thread = [.script .caller [.ensureStarted claim], .guard, .script .caller [],
        .sending id value, .serving] → Underway owner t claim value m
  | entering {id : ReplyId} {claimed : Bool} : m.Away t id →
      m.stack owner.thread = [.entering claimed .caller false, .script .caller [], .guard,
        .script .caller [], .sending id value, .serving] → Underway owner t claim value m

/-- A closure that starts the engine has been entrusted to the owner thread, and nobody else does
anything. -/
structure Entrusted (owner : Owner) (t : ThreadId) (claim : Claim) (value : String)
    (m : Machine σ E) : Prop where
  alone : ∀ u, u ≠ owner.thread → u ≠ t → m.stack u = []
  underway : m.Underway owner t claim value

theorem Underway.busy {claim : Claim} {value : String} (h : m.Underway owner t claim value) :
    m.stack t ≠ [] := by
  cases h with
  | leaving hs =>
    rw [hs]
    exact List.cons_ne_nil _ _
  | queued haway | begun haway | guarded haway | entering haway =>
    rw [haway.1]
    exact List.cons_ne_nil _ _

/-- The sender waits; only the owner thread can step. -/
theorem Entrusted.step_away {claim : Claim} {value : String} {id : ReplyId}
    (h : m.Entrusted owner t claim value) (haway : m.Away t id) (hstep : m.step u = some m') :
    u = owner.thread := by
  by_contra hu
  by_cases hut : u = t
  · rw [hut, step_awaitingReply haway.1 haway.2] at hstep
    cases hstep
  · rw [Machine.step, h.alone u hu hut] at hstep
    cases hstep

theorem Orderly.step_idle (h : Orderly initializer owner engine m)
    (hserving : m.stack owner.thread = [.serving]) (htasks : m.dispatcher.tasks = []) :
    m.step owner.thread = none := by
  rw [Machine.step, hserving, stepFrom, frame, Dispatcher.take?_of_empty htasks]
  refine if_neg fun hending => ?_
  exact Dispatcher.refusal?_of_ending hending h.accepts

theorem Entrusted.step {claim : Claim} {value : String} (h : m.Entrusted owner t claim value)
    (ho : Orderly initializer owner engine m) (hp : m.coordinator.phase ≠ .started)
    (hne : t ≠ owner.thread) (hstep : m.step u = some m') :
    m'.coordinator.phase = .started ∨ m'.Entrusted owner t claim value := by
  have hothers {v : ThreadId} (hv : v ≠ u) : m'.stack v = m.stack v :=
    (ho.sound.restacked (turn_of_step hstep)).others hv
  have alone (hu : u = owner.thread ∨ u = t) :
      ∀ v, v ≠ owner.thread → v ≠ t → m'.stack v = [] := by
    intro v hv hvt
    rw [hothers fun heq => (heq ▸ hu).elim hv hvt]
    exact h.alone v hv hvt
  -- a step of the owner thread that sends nothing leaves the sender waiting
  have away {id : ReplyId} (haway : m.Away t id) (hu : u = owner.thread)
      (hr : m'.replies = m.replies) : m'.Away t id :=
    ⟨(hothers (hu ▸ hne)).trans haway.1, hr ▸ haway.2⟩
  cases h.underway with
  | leaving hs hserving htasks =>
    by_cases hut : u = t
    · subst hut
      refine .inr ⟨alone (.inr rfl), ?_⟩
      have hserving' := (hothers (Ne.symm hne)).trans hserving
      rw [ho.step_runOnOwner hne hs] at hstep
      cases hstep
      refine .queued ⟨stack_withStack_self rfl hs _, ?_⟩ hserving' ?_
      · simp [withStack]
      · simp [withStack, htasks]
    · by_cases hu : u = owner.thread
      · rw [hu, ho.step_idle hserving htasks] at hstep
        cases hstep
      · rw [Machine.step, h.alone u hu hut] at hstep
        cases hstep
  | @queued id haway hserving htasks =>
    have hu := h.step_away haway hstep
    refine .inr ⟨alone (.inl hu), ?_⟩
    subst hu
    obtain ⟨f, below, pushed, n, hs, hproceeds, rfl⟩ := ho.proceeds hstep
    obtain ⟨rfl, rfl⟩ := List.cons.inj (hserving.symm.trans hs)
    cases hproceeds with
    | stays _ hspent => cases hspent
    | starts _ hl => cases hl
    | takes _ htake =>
      rw [Dispatcher.take?_tasks htake] at htasks
      obtain ⟨rfl, -⟩ := List.cons.inj htasks
      exact .begun (away haway rfl rfl) (stack_withStack_self rfl hserving _)
  | begun haway hs =>
    have hu := h.step_away haway hstep
    refine .inr ⟨alone (.inl hu), ?_⟩
    subst hu
    rw [Machine.step, hs] at hstep
    cases hstep
    exact .guarded (away haway rfl rfl) (stack_withStack_self rfl hs _)
  | guarded haway hs =>
    have hu := h.step_away haway hstep
    refine .inr ⟨alone (.inl hu), ?_⟩
    subst hu
    rw [ho.step_ensureStarted hp hs] at hstep
    cases hstep
    exact .entering (away haway rfl rfl) (stack_withStack_self rfl hs _)
  | entering haway hs =>
    have hu := h.step_away haway hstep
    subst hu
    obtain ⟨f, below, pushed, n, hs', hproceeds, rfl⟩ := ho.proceeds hstep
    obtain ⟨rfl, rfl⟩ := List.cons.inj (hs.symm.trans hs')
    cases hproceeds with
    | stays _ hspent => exact absurd (Phase.isStarted_iff.1 hspent) hp
    | starts => exact .inl rfl
    | requests hcurrent | waits hcurrent => exact absurd rfl hcurrent

/-- **A thread that sends a closure which starts the engine** goes on after the engine has
started. -/
theorem achieves_closure (h : Attends initializer owner engine ls m) (ht : t < m.threads.length)
    (hne : t ≠ owner.thread) (hserving : m.stack owner.thread = [.serving])
    (htasks : m.dispatcher.tasks = []) (halone : ∀ u, u ≠ owner.thread → u ≠ t → m.stack u = [])
    (claim : Claim) (value : String) :
    m.Achieves t [.runOnOwner [.catching [.ensureStarted claim]] value] fun n =>
      Attends initializer owner engine ls n ∧ n.coordinator.phase = .started := by
  refine h.achieves_started (S := Entrusted owner t claim value) ht hne rfl
    ⟨?_, .leaving ?_ ?_ htasks⟩
    (fun n u n' ho hp hS hstep => hS.step ho hp hne hstep) fun n hS => hS.underway.busy
  · intro u hu hut
    rw [stack_given ht, if_neg hut]
    exact halone u hu hut
  · rw [stack_given ht, if_pos rfl]
  · rw [stack_given ht, if_neg (Ne.symm hne)]
    exact hserving

end Machine

end LazyEngine
