/-
Startup inline and startup posted agree.

The owner thread can start the engine in a call of its own, or in a task that another thread has
posted and waits for.

* `Machine.waiting` — threads that have asked for the engine and wait;
* `calls_of_decision`, `returns_of_pump` — the call of the owner thread and its pump come back, and
  with the pump all who wait;
* `inline_and_posted_agree` — both leave the same coordinator and do the same things on the way,
  whatever the initializer comes to.

Design notes: the threads that wait come back at any moment after the decision, and what the owner
thread does is the same for all their interleavings. Until the decision they are asleep, so the
passages up to it are made one by one (`returns_of_passes`).
-/
import LazyEngine.Proofs.Startup.Verdicts
import LazyEngine.Proofs.Startup.Rejection

namespace LazyEngine

namespace Machine

variable {σ E : Type} {m n x : Machine σ E} {t w : ThreadId} {f : Initializer σ E}

/-! ### Calls that lead to the decision -/

section
variable {P : Machine σ E → Prop} {own : List (Event E)} {waiters : List ThreadId}

theorem Stands.log_eq {before : Machine σ E} {result : Except StartupError E}
    {events log : List (Event E)} {stack : List Frame}
    (h : Stands before t [] result events stack n log x) : log = events := by
  rw [← h.events]
  exact (List.filter_eq_self.mpr fun _ _ => rfl).symm

/-- A call that a thread is led through to its end. -/
theorem calls_of_leads {call : Call} (ht : t < m.threads.length)
    (hl : Leads t m [.script .caller [call]] own [] n)
    (hP : ∀ threads, threads.length = m.threads.length → P (n.amid threads (own ++ m.log))) :
    m.Calls t call P := by
  refine returns_of_leads hl (.poised (.error (.notStarted "")) ht call) nofun
    (absurd rfl) fun log y hy _ => ?_
  rw [hy.machine, hy.log_eq, List.append_nil]
  exact hP y.threads hy.length

end

theorem passes_missed (he : m.coordinator.engine = none) (claim : Claim) :
    Passes t m [.script .caller [.ensureStarted claim]] []
      [.entering (claim.asserted (m.dispatcher.owner.isCurrent t)) .caller false,
        .script .caller []] m :=
  Acts.passes (.aside (.missed he)) rfl

theorem passes_take {d : Dispatcher Task} (htake : m.dispatcher.take? = some (.startup, d))
    (taken : Nat) :
    Passes t m [.pumping taken .caller] [] [.startup, .pumping (taken + 1) .caller]
      { m with dispatcher := d } :=
  Acts.passes (.took .pumping htake) rfl

/-- A call of the owner thread that starts the engine, as far as the decision and on to its end. -/
theorem calls_of_decision (ht : t < m.threads.length) (hengine : m.coordinator.engine = none)
    (hu : m.coordinator.Undecided) (hi : m.coordinator.initializer = some f)
    (ho : (m.coordinator.ownerOr m.dispatcher.owner).isCurrent t = true) (claim : Claim)
    {P : Machine σ E → Prop} {own : List (Event E)}
    (hl : Leads t (m.decision (m.coordinator.bindOwner m.dispatcher.owner) f)
      (m.opened (.engine .caller) (f m.host).1.verdict ++ [.script .caller []]) own [] n)
    (hP : ∀ threads, threads.length = m.threads.length →
      P (n.amid threads
        (own ++ decisionEvents t (.engine .caller) (f m.host).1.verdict ++ m.log))) :
    m.Calls t (.ensureStarted claim) P := by
  have hlaunch : Launch m t
      (.entering (claim.asserted (m.dispatcher.owner.isCurrent t)) .caller false)
      (m.coordinator.bindOwner m.dispatcher.owner) (.engine .caller) := .inline ho
  have hdecides := hlaunch.passes hu hi
  refine returns_of_passes (.poised (.error (.notStarted "")) ht _) nofun
    (passes_missed hengine claim) nofun nofun fun x _ hx => ?_
  refine returns_of_passes hx nofun (hdecides.below [.script .caller []]) (fun _ _ => nofun) nofun
    fun y _ hy => ?_
  refine returns_of_leads hl hy nofun (absurd rfl) fun log z hz _ => ?_
  have hlog : log = own ++ decisionEvents t (.engine .caller) (f m.host).1.verdict := by
    simpa using hz.log_eq
  rw [hz.machine, hlog]
  exact hP z.threads hz.length

/-- Threads that come one after the other, ask for the engine and find that they have to wait. -/
def waiting (m : Machine σ E) (waiters : List ThreadId) : Machine σ E :=
  waiters.foldl (fun n w => (n.poised w (.ensureStarted .none)).run [w, w, w]) m

/-- Startup is posted, and these threads wait for it. -/
structure Waiting (m : Machine σ E) (waiters : List ThreadId) (x : Machine σ E) : Prop where
  machine : ∃ threads sleepers, x = ({ m with
    coordinator := m.coordinator.requested m.dispatcher.owner
    dispatcher := m.dispatcher.push .startup
    sleepers } : Machine σ E).amid threads m.log
  length : x.threads.length = m.threads.length
  asleep : ∀ w ∈ waiters, w ∈ x.sleepers ∧
    x.stack w = [.awaitingStartup .caller, .script .caller []] ++ m.stack w
  others : ∀ u, u ∉ waiters → x.stack u = m.stack u

/-- A thread has come to wait, and otherwise the machine has become `x'`. -/
structure Joined (w : ThreadId) (x x' y : Machine σ E) : Prop where
  machine : y = x'.amid y.threads x.log
  length : y.threads.length = x.threads.length
  stack : y.stack w = [.awaitingStartup .caller, .script .caller []] ++ x.stack w
  others : ∀ u ≠ w, y.stack u = x.stack u

theorem step_asleep {below : List Frame} (hs : x.stack w = .awaitingStartup .caller :: below)
    (hw : w ∈ x.sleepers) : x.step w = none := by
  have hcontains : x.sleepers.contains w = true := List.contains_iff_mem.mpr hw
  rw [step, hs, stepFrom, frame, if_pos hcontains]

/-- The first thread to ask for the engine finds the queue open, posts startup and waits. -/
theorem joined_first (hw : w < x.threads.length) (he : x.coordinator.engine = none)
    (hu : x.coordinator.Undecided)
    (ho : (x.coordinator.ownerOr x.dispatcher.owner).isCurrent w = false)
    (hn : x.coordinator.phase = .notStarted) (hr : x.dispatcher.refusal? = none)
    (hqueue : x.dispatcher.isLoop = false) :
    Joined w x { x with
      coordinator := x.coordinator.requested x.dispatcher.owner
      dispatcher := x.dispatcher.push .startup
      sleepers := w :: x.sleepers } ((x.poised w (.ensureStarted .none)).run [w, w, w]) := by
  have hlook : Passes w x [.entering false .caller false] [] [.entering false .caller true] x :=
    Acts.passes (.looked hu ho hn hr hqueue) rfl
  have hpush : Passes w x [.entering false .caller true] [] [.awaitingStartup .caller] { x with
      coordinator := x.coordinator.requested x.dispatcher.owner
      dispatcher := x.dispatcher.push .startup
      sleepers := w :: x.sleepers } := Acts.passes (.posted hu ho hn (.inl rfl)) rfl
  have hx := Stands.poised (.error (.notStarted "")) hw (.ensureStarted .none)
  obtain ⟨y, hstep, hothers, hy⟩ := hx.passes nofun (passes_missed he .none) nofun
  obtain ⟨z, hstep', hothers', hz⟩ := hy.passes nofun (hlook.below [.script .caller []]) nofun
  obtain ⟨v, hstep'', hothers'', hv⟩ := hz.passes nofun (hpush.below [.script .caller []]) nofun
  have hrun : (x.poised w (.ensureStarted .none)).run [w, w, w] = v := by
    simp [run, hstep, hstep', hstep'']
  rw [hrun]
  refine ⟨hv.machine, hv.length, hv.stack, fun u hu => ?_⟩
  rw [hothers'' u hu, hothers' u hu, hothers u hu, stack_poised hw, if_neg hu]

/-- Later ones find startup posted and wait at once. -/
theorem joined_later (hw : w < x.threads.length) (he : x.coordinator.engine = none)
    (hu : x.coordinator.Undecided)
    (ho : (x.coordinator.ownerOr x.dispatcher.owner).isCurrent w = false)
    (hp : x.coordinator.phase = .starting) :
    Joined w x { x with
      coordinator := x.coordinator.bindOwner x.dispatcher.owner
      sleepers := w :: x.sleepers } ((x.poised w (.ensureStarted .none)).run [w, w, w]) := by
  have hjoin : Passes w x [.entering false .caller false] [] [.awaitingStartup .caller] { x with
      coordinator := x.coordinator.bindOwner x.dispatcher.owner
      sleepers := w :: x.sleepers } := Acts.passes (.joined hu ho hp) rfl
  have hx := Stands.poised (.error (.notStarted "")) hw (.ensureStarted .none)
  obtain ⟨y, hstep, hothers, hy⟩ := hx.passes nofun (passes_missed he .none) nofun
  obtain ⟨z, hstep', hothers', hz⟩ := hy.passes nofun (hjoin.below [.script .caller []]) nofun
  -- two steps are enough; in its third one the thread is asleep
  have hasleep : z.step w = none :=
    step_asleep hz.stack (by rw [hz.machine]; exact List.mem_cons_self)
  have hrun : (x.poised w (.ensureStarted .none)).run [w, w, w] = z := by
    simp [run, hstep, hstep', hasleep]
  rw [hrun]
  refine ⟨hz.machine, hz.length, hz.stack, fun u hu => ?_⟩
  rw [hothers' u hu, hothers u hu, stack_poised hw, if_neg hu]

section
variable {owner : Owner} {d : Dispatcher Task} {waiters : List ThreadId}

/-- The first thread that waits posts startup. -/
theorem Waiting.first (h : Sound f owner m) (hp : m.coordinator.phase = .notStarted)
    (hr : m.dispatcher.refusal? = none) (hqueue : m.dispatcher.isLoop = false)
    (hw : w < m.threads.length) (hne : w ≠ owner.thread) :
    Waiting m [w] ((m.poised w (.ensureStarted .none)).run [w, w, w]) := by
  have hs := h.untouched hp
  have hother : (m.coordinator.ownerOr m.dispatcher.owner).isCurrent w = false := by
    rw [h.owner_eq, h.ownedBy.ownerOr_eq, Bool.eq_false_iff]
    exact fun hc => hne (Owner.isCurrent_iff.mp hc)
  have hj := joined_first hw hs.2.2.1 ⟨by rw [hp]; nofun, hs.2.2.2⟩ hother hp hr hqueue
  refine ⟨⟨_, _, hj.machine⟩, hj.length, fun u hu => ?_, fun u hu => ?_⟩
  · obtain rfl := List.mem_singleton.mp hu
    refine ⟨?_, hj.stack⟩
    rw [hj.machine]
    exact List.mem_cons_self
  · exact hj.others u (by simpa using hu)

/-- Others only have to wait as well. -/
theorem Waiting.next (hx : Waiting m waiters x) (h : Sound f owner m)
    (hp : m.coordinator.phase = .notStarted) (hw : w < m.threads.length)
    (hne : w ≠ owner.thread) (hnew : w ∉ waiters) :
    Waiting m (waiters ++ [w]) ((x.poised w (.ensureStarted .none)).run [w, w, w]) := by
  -- The coordinator has changed since the first one only in that startup is asked for.
  have hs := h.untouched hp
  obtain ⟨threads, sleepers, hmachinex⟩ := hx.machine
  have hc : x.coordinator = m.coordinator.requested owner := by rw [hmachinex, ← h.owner_eq]; rfl
  have ho : x.dispatcher.owner = owner := by
    rw [hmachinex, ← h.owner_eq]
    exact Dispatcher.owner_push ..
  have howned : x.coordinator.OwnedBy owner := hc ▸ .inr h.ownedBy.bindOwner
  have hother : (x.coordinator.ownerOr x.dispatcher.owner).isCurrent w = false := by
    rw [ho, howned.ownerOr_eq, Bool.eq_false_iff]
    exact fun hcurrent => hne (Owner.isCurrent_iff.mp hcurrent)
  have hu : x.coordinator.Undecided := hc ▸ ⟨fun heq => (nomatch heq), hs.2.2.2⟩
  have hj := joined_later (hx.length ▸ hw) (hc ▸ hs.2.2.1) hu hother (hc ▸ rfl)
  generalize (x.poised w (.ensureStarted .none)).run [w, w, w] = y at hj ⊢
  have hsleepers : y.sleepers = w :: x.sleepers := by rw [hj.machine]; rfl
  -- Who slept before still sleeps where it did, and the newcomer sleeps as well.
  refine ⟨⟨y.threads, w :: sleepers, hj.machine.trans ?_⟩, hj.length.trans hx.length,
    fun u hmem => ?_, fun u hmem => ?_⟩
  · rw [ho, hc, Coordinator.bindOwner_requested, ← h.owner_eq, hmachinex]
    rfl
  · rw [hsleepers]
    rcases List.mem_append.mp hmem with hmem | hmem
    · obtain ⟨hsleeps, hu'⟩ := hx.asleep u hmem
      exact ⟨List.mem_cons_of_mem _ hsleeps,
        (hj.others u fun heq => hnew (heq ▸ hmem)).trans hu'⟩
    · obtain rfl := List.mem_singleton.mp hmem
      exact ⟨List.mem_cons_self, hj.stack.trans (by rw [hx.others u hnew])⟩
  · rw [List.mem_append, List.mem_singleton, not_or] at hmem
    exact (hj.others u hmem.2).trans (hx.others u hmem.1)

theorem waiting_waiting (h : Sound f owner m) (hp : m.coordinator.phase = .notStarted)
    (hr : m.dispatcher.refusal? = none) (hqueue : m.dispatcher.isLoop = false) (hne : waiters ≠ [])
    (hnodup : waiters.Nodup) (hw : ∀ w ∈ waiters, w ≠ owner.thread ∧ w < m.threads.length) :
    Waiting m waiters (m.waiting waiters) := by
  -- those who come after the first one, whoever waits already
  have later (rest : List ThreadId) : ∀ (before : List ThreadId) (x : Machine σ E),
      Waiting m before x → (before ++ rest).Nodup →
      (∀ w ∈ rest, w ≠ owner.thread ∧ w < m.threads.length) →
      Waiting m (before ++ rest)
        (rest.foldl (fun n w => (n.poised w (.ensureStarted .none)).run [w, w, w]) x) := by
    induction rest with
    | nil =>
      intro before x hx _ _
      rwa [List.append_nil]
    | cons w rest ih =>
      intro before x hx hnodup hrest
      obtain ⟨hwne, hwlt⟩ := hrest w List.mem_cons_self
      have hnew : w ∉ before := fun hmem =>
        (List.nodup_append.mp hnodup).2.2 w hmem w List.mem_cons_self rfl
      rw [List.append_cons]
      rw [List.append_cons] at hnodup
      exact ih _ _ (hx.next h hp hwlt hwne hnew) hnodup fun u hu =>
        hrest u (List.mem_cons_of_mem _ hu)
  cases waiters with
  | nil => exact absurd rfl hne
  | cons w rest =>
    obtain ⟨hwne, hwlt⟩ := hw w List.mem_cons_self
    exact later rest [w] _ (.first h hp hr hqueue hwlt hwne) hnodup fun u hu =>
      hw u (List.mem_cons_of_mem _ hu)

/-- While they wait, the code on another thread makes a call. -/
theorem Waiting.stands (hx : Waiting m waiters x) (ht : t < m.threads.length) (hw : t ∉ waiters)
    (result : Except StartupError E) (call : Call) :
    Stands m t waiters result [] [.script .caller [call]]
      { m with
        coordinator := m.coordinator.requested m.dispatcher.owner
        dispatcher := m.dispatcher.push .startup
        sleepers := x.sleepers }
      [] (x.poised t call) := by
  obtain ⟨threads, sleepers, hmachine⟩ := hx.machine
  have hlt : t < x.threads.length := hx.length ▸ ht
  refine ⟨?_, ?_, List.length_set.trans hx.length, rfl, fun w hmem => ?_⟩
  · rw [hmachine]
    rfl
  · rw [stack_poised hlt, if_pos rfl, hx.others _ hw]
    rfl
  · have hne : w ≠ t := fun heq => hw (heq ▸ hmem)
    exact .still (by rw [stack_poised hlt, if_neg hne]; exact (hx.asleep w hmem).2) rfl

/-- They make no step as long as nobody wakes them. -/
theorem Waiting.step_eq_none {y : Machine σ E} (hx : Waiting m waiters x)
    (hstack : ∀ w ∈ waiters, y.stack w = x.stack w) (hsleepers : y.sleepers = x.sleepers) :
    ∀ w ∈ waiters, y.step w = none := by
  intro w hw
  obtain ⟨hmem, hs⟩ := hx.asleep w hw
  exact step_asleep ((hstack w hw).trans hs) (hsleepers ▸ hmem)

/-- The owner thread pumps while others wait: it takes the startup task and decides startup, and
all of them come back. -/
theorem returns_of_pump (h : Sound f owner m) (hp : m.coordinator.phase = .notStarted)
    (hqueue : m.dispatcher.isLoop = false) (htasks : m.dispatcher.tasks = [])
    (hx : Waiting m waiters x)
    (ht : owner.thread < m.threads.length) (hw : owner.thread ∉ waiters)
    {P : Machine σ E → Prop} {own : List (Event E)}
    (hl : Leads owner.thread (m.decision (m.coordinator.bindOwner owner) f)
      (m.opened .finished (f m.host).1.verdict ++ [.pumping 1 .caller, .script .caller []])
      own [] n)
    (hP : ∀ threads log, log.filter (fun e => !waiters.any (e.isOn ·))
        = own ++ decisionEvents owner.thread .finished (f m.host).1.verdict →
      (∀ w ∈ waiters, log.filter (·.isOn w)
        = [.answered w .caller (.engine ((f m.host).1.verdict.mapError .poisoned))]) →
      P (n.amid threads (log ++ m.log))) :
    Returns m (owner.thread :: waiters) P (x.poised owner.thread .pump) := by
  have hs := h.untouched hp
  have hlt : owner.thread < x.threads.length := hx.length ▸ ht
  have hne {w : ThreadId} (hmem : w ∈ waiters) : w ≠ owner.thread := fun heq => hw (heq ▸ hmem)
  have hstands := hx.stands ht hw ((f m.host).1.verdict.mapError .poisoned) .pump
  rw [h.owner_eq] at hstands
  have hcurrent : (m.dispatcher.push .startup).owner.isCurrent owner.thread = true := by
    rw [Dispatcher.owner_push, h.owner_eq]
    exact Owner.isCurrent_iff.mpr rfl
  -- the machine in which startup is posted, and the one in which its task has been taken
  let posted : Machine σ E := { m with
    coordinator := m.coordinator.requested owner
    dispatcher := m.dispatcher.push .startup
    sleepers := x.sleepers }
  let taken : Machine σ E := { posted with dispatcher := m.dispatcher }
  have hpump : Passes owner.thread posted [.script .caller [.pump]] []
      [.pumping 0 .caller, .script .caller []] posted :=
    Acts.passes (.aside (.pump ((Dispatcher.isLoop_push ..).trans hqueue) hcurrent)) rfl
  have htake : Passes owner.thread posted [.pumping 0 .caller] []
      [.startup, .pumping 1 .caller] taken :=
    passes_take (m := posted) (Dispatcher.take?_push_of_empty _ htasks) 0
  have hlaunch : Launch taken owner.thread .startup (m.coordinator.requested owner) .finished :=
    .posted
  have hdecide := hlaunch.passes (f := f) ⟨nofun, hs.2.2.2⟩ hs.2.1
  -- until the decision all who wait are asleep
  refine returns_of_passes hstands hw hpump nofun (hx.step_eq_none (fun w hmem => ?_) rfl)
    fun y hy hystands => ?_
  · rw [stack_poised hlt, if_neg (hne hmem)]
  replace hy : ∀ w ∈ waiters, y.stack w = x.stack w := fun w hmem => by
    rw [hy w (hne hmem), stack_poised hlt, if_neg (hne hmem)]
  refine returns_of_passes hystands hw (htake.below [.script .caller []]) nofun
    (hx.step_eq_none hy (by rw [hystands.machine]; rfl)) fun z hz hzstands => ?_
  replace hz : ∀ w ∈ waiters, z.stack w = x.stack w := fun w hmem =>
    (hz w (hne hmem)).trans (hy w hmem)
  refine returns_of_passes hzstands hw (hdecide.below [.pumping 1 .caller, .script .caller []])
    (fun e he w hmem => isOn_decisionEvents (hne hmem) _ e he)
    (hx.step_eq_none hz (by rw [hzstands.machine]; rfl)) fun v _ hvstands => ?_
  have hdecision : taken.decision (m.coordinator.requested owner) f
      = m.decision (m.coordinator.bindOwner owner) f := decision_requested hp x.sleepers owner
  rw [hdecision] at hvstands
  refine returns_of_leads hl hvstands hw (fun _ => ⟨?_, rfl⟩) fun log b hb hanswers => ?_
  · exact Coordinator.recheck_decided (c := m.coordinator.bindOwner owner) hs.2.2.1
      (fun heq => nomatch hp.symm.trans heq) _
  · rw [hb.machine]
    exact hP b.threads log (by simpa using hb.events) hanswers

/-- A pump that finds nothing but the task of a startup that has failed meanwhile. -/
theorem leads_pump_failed {reason : String} (hp : m.coordinator.phase ≠ .started)
    (hf : m.coordinator.failure = some reason) (hqueue : m.dispatcher.isLoop = false)
    (hcurrent : m.dispatcher.owner.isCurrent t = true)
    (htake : m.dispatcher.take? = some (.startup, d)) (hempty : d.tasks = []) :
    ∃ own n, Leads t m [.script .caller [.pump]] own [] n := by
  have hpump : Leads t m [.script .caller [.pump]] [] [.pumping 0 .caller, .script .caller []] m :=
    .aside (.pump hqueue hcurrent) rfl
  let taken : Machine σ E := { m with dispatcher := d }
  have htook : Leads t m [.pumping 0 .caller] [] [.startup, .pumping 1 .caller] taken :=
    .single (passes_take htake 0) rfl rfl nofun
  have hskips : Leads t taken [.startup] [] [] taken := .aside (.skipped hp hf) rfl
  have hpumped : Leads t taken [.pumping 1 .caller] _ [] taken :=
    .aside (.drained hempty) rfl
  exact ⟨_, _, hpump.trans ((htook.above [.script .caller []]).trans
    ((hskips.above [.pumping 1 .caller, .script .caller []]).trans
      ((hpumped.above [.script .caller []]).trans (leads_script_nil taken .caller))))⟩

/-- Startup is posted, and the call does not wait for it: it finds the queue open, and then pushes
the task. -/
theorem calls_background (hp : m.coordinator.phase = .notStarted)
    (hr : m.dispatcher.refusal? = none) (hqueue : m.dispatcher.isLoop = false)
    (ht : t < m.threads.length) {P : Machine σ E → Prop}
    (hP : ∀ threads log, threads.length = m.threads.length → P (({ m with
      coordinator := m.coordinator.requested m.dispatcher.owner
      dispatcher := m.dispatcher.push .startup } : Machine σ E).amid threads log)) :
    m.Calls t .startInBackground P := by
  have hlook : Passes t m [.script .caller [.startInBackground]] []
      [.requesting .caller, .script .caller []] m :=
    Acts.passes (.requestLooked .call hp hr hqueue) rfl
  have hpush : Passes t m [.requesting .caller] [.answered t .caller (.begun (.ok ()))] [] { m with
      coordinator := m.coordinator.requested m.dispatcher.owner
      dispatcher := m.dispatcher.push .startup } :=
    Acts.passes (.requested .requesting hp (.inl rfl)) rfl
  refine returns_of_passes (.poised (.error (.notStarted "")) ht _) nofun hlook nofun nofun
    fun x _ hx => ?_
  refine returns_of_passes hx nofun (hpush.below [.script .caller []]) nofun nofun fun y _ hy => ?_
  refine returns_of_leads (leads_script_nil _ .caller) hy nofun (absurd rfl) fun log z hz _ => ?_
  rw [hz.machine]
  exact hP z.threads _ hz.length

/-- The owner thread starts the engine in a call while the startup task is queued, and then pumps:
the task finds nothing to do. -/
theorem calls_before_task (ht : t < m.threads.length) (he : m.coordinator.engine = none)
    (hu : m.coordinator.Undecided) (hi : m.coordinator.initializer = some f)
    (ho : (m.coordinator.ownerOr m.dispatcher.owner).isCurrent t = true)
    (hqueue : m.dispatcher.isLoop = false) (hcurrent : m.dispatcher.owner.isCurrent t = true)
    (htake : m.dispatcher.take? = some (.startup, d)) (hempty : d.tasks = [])
    (hlisteners : ∀ l ∈ queue (m.coordinator.registrants.live m.alive), l.2.isCalm = true)
    (claim : Claim) :
    m.Calls t (.ensureStarted claim) fun n => n.Calls t .pump fun n =>
      n.coordinator
        = (m.coordinator.bindOwner m.dispatcher.owner).decided (f m.host).1.verdict := by
  have htasks : ∀ task ∈ m.dispatcher.tasks, task.isCalm = true := by
    rw [Dispatcher.take?_tasks htake, hempty]
    exact fun task htask => List.mem_singleton.mp htask ▸ rfl
  cases hv : (f m.host).1.verdict with
  | ok engine =>
    -- the startup task that is left is calm like any other
    have hcalm : Calm t (m.decision (m.coordinator.bindOwner m.dispatcher.owner) f) :=
      calm_decision hv hqueue hcurrent he htasks
    have htelling : Frame.areCalm [.telling (queue (m.coordinator.registrants.live m.alive))
        (.engine .caller), .script .caller []] = true :=
      Frame.areCalm_cons.mpr ⟨List.all_eq_true.mpr hlisteners, rfl⟩
    obtain ⟨own, n, hl, hn⟩ := hcalm.leads htelling
    refine calls_of_decision (n := n) ht he hu hi ho claim (by rw [hv]; exact hl)
      fun threads hlength => ?_
    generalize own ++ decisionEvents t (.engine .caller) _ ++ m.log = log
    obtain ⟨own', n', hl', -⟩ := (hn.amid threads log).leads
      (show Frame.areCalm [.script .caller [.pump]] = true from rfl)
    refine calls_of_leads (hlength ▸ ht) hl' fun threads' _ => ?_
    show n'.coordinator = _
    rw [hl'.coordinator_eq, ← hv]
    exact hl.coordinator_eq
  | error reason =>
    have hl := leads_script_nil (t := t) (m.decision (m.coordinator.bindOwner m.dispatcher.owner) f)
      .caller
    refine calls_of_decision ht he hu hi ho claim (by rw [hv]; exact hl) fun threads hlength => ?_
    generalize [] ++ decisionEvents t (.engine .caller) _ ++ m.log = log
    have hfailed : ((m.decision (m.coordinator.bindOwner m.dispatcher.owner) f).amid
        threads log).coordinator
          = (m.coordinator.bindOwner m.dispatcher.owner).decided (.error reason) := by
      rw [← hv]
      rfl
    have hphase : ((m.coordinator.bindOwner m.dispatcher.owner).failed reason).phase = .starting :=
      phase_failed (c := m.coordinator.bindOwner m.dispatcher.owner) hu.1 reason
    obtain ⟨own, n, hl'⟩ := leads_pump_failed (t := t)
      (m := (m.decision (m.coordinator.bindOwner m.dispatcher.owner) f).amid threads log)
      (by rw [hfailed, Coordinator.decided, hphase]; nofun) (by rw [hfailed]; rfl) hqueue
      hcurrent htake hempty
    refine calls_of_leads (hlength ▸ ht) hl' fun threads' _ => ?_
    show n.coordinator = _
    rw [hl'.coordinator_eq, hfailed]

/-- Startup is posted, the owner thread starts the engine in a call all the same, and then pumps. -/
theorem calls_background_first (h : Sound f owner m) (hp : m.coordinator.phase = .notStarted)
    (hqueue : m.dispatcher.isLoop = false) (htasks : m.dispatcher.tasks = [])
    (hr : m.dispatcher.refusal? = none)
    (hlisteners : ∀ l ∈ queue (m.coordinator.registrants.live m.alive), l.2.isCalm = true)
    (hasker : t < m.threads.length) (howner : owner.thread < m.threads.length) (claim : Claim) :
    m.Calls t .startInBackground fun n => n.Calls owner.thread (.ensureStarted claim) fun n =>
      n.Calls owner.thread .pump fun n =>
        n.coordinator = (m.coordinator.bindOwner owner).decided (f m.host).1.verdict := by
  have hs := h.untouched hp
  have howner' : (m.dispatcher.push .startup).owner = owner :=
    (Dispatcher.owner_push ..).trans h.owner_eq
  have hcurrent : (m.dispatcher.push .startup).owner.isCurrent owner.thread = true :=
    howner' ▸ Owner.isCurrent_iff.mpr rfl
  have howned : (m.coordinator.requested owner).OwnedBy owner := .inr h.ownedBy.bindOwner
  refine calls_background hp hr hqueue hasker fun threads log hlength => ?_
  -- The machine that the request leaves: the task is queued, and startup asked for but undecided.
  let posted : Machine σ E := ({ m with
    coordinator := m.coordinator.requested m.dispatcher.owner
    dispatcher := m.dispatcher.push .startup } : Machine σ E).amid threads log
  have hposted : posted.coordinator.ownerOr posted.dispatcher.owner = owner := by
    show (m.coordinator.requested m.dispatcher.owner).ownerOr (m.dispatcher.push .startup).owner
      = owner
    rw [howner', h.owner_eq, howned.ownerOr_eq]
  have hcalls := calls_before_task (m := posted) (hlength ▸ howner) hs.2.2.1 ⟨nofun, hs.2.2.2⟩
    hs.2.1 (Owner.isCurrent_iff.mpr (congrArg Owner.thread hposted.symm))
    ((Dispatcher.isLoop_push ..).trans hqueue) hcurrent
    (Dispatcher.take?_push_of_empty _ htasks) htasks hlisteners claim
  -- Whether startup has been asked for first makes no difference to what is decided.
  have hsame : ((m.coordinator.requested m.dispatcher.owner).bindOwner
      (m.dispatcher.push .startup).owner).decided (f m.host).1.verdict
        = (m.coordinator.bindOwner owner).decided (f m.host).1.verdict := by
    rw [howner', h.owner_eq, Coordinator.bindOwner_requested]
    exact Coordinator.decided_requested hp owner _
  exact hsame ▸ hcalls

/-- Whatever the initializer comes to, what is left to do comes to an end. -/
theorem aftermath_of_untouched (h : Sound f owner m) (hp : m.coordinator.phase = .notStarted)
    (hqueue : m.dispatcher.isLoop = false) (htasks : m.dispatcher.tasks = [])
    (hlisteners : ∀ l ∈ queue (m.coordinator.registrants.live m.alive), l.2.isCalm = true) :
    ∃ events n, Aftermath owner.thread m (m.decision (m.coordinator.bindOwner owner) f)
      (f m.host).1.verdict events n := by
  have hs := h.untouched hp
  have hcurrent : m.dispatcher.owner.isCurrent owner.thread = true :=
    h.owner_eq ▸ Owner.isCurrent_iff.mpr rfl
  cases hv : (f m.host).1.verdict with
  | ok engine =>
    -- Nothing but what the listeners do is left, and they are calm.
    have hcalm := calm_decision (c := m.coordinator.bindOwner owner) hv hqueue hcurrent hs.2.2.1
      (by rw [htasks]; nofun)
    refine hcalm.aftermath ?_ hlisteners
    show ((m.coordinator.bindOwner owner).decided (f m.host).1.verdict).engine = some engine
    rw [hv]
    show m.coordinator.engine.or (some engine) = some engine
    rw [hs.2.2.1, Option.none_or]
  | error reason =>
    exact ⟨_, _, aftermath_of_failure (d := m.decision (m.coordinator.bindOwner owner) f) htasks
      reason⟩

end

/-- **Startup inline and startup posted agree.** On every run over a queue, wherever startup has
not been asked for yet, the queue is open and empty, and the listeners that wait are calm, it makes
no difference to the coordinator that comes of it whether

* the owner thread starts the engine in a call of its own;
* other threads ask for the engine and wait, however many, and the owner thread pumps;
* any thread has startup posted, the owner thread starts the engine in a call all the same, and then
  pumps.

All these calls return, however the threads that wait and the owner thread interleave. The same
`events` happen on the owner thread in the call and in the task: the initializer runs, the same
listeners are told in the same order, and the calls that they make have the same answers. The owner
is answered with the engine or the initializer's error; those who wait are answered with the engine
or told that startup has failed, and the fatal hook is given the initializer's error, once. The
pump takes the startup task, and after it only tasks that listeners have posted, which the call has
`left` in the queue. -/
theorem inline_and_posted_agree (s : Setup σ E) (schedule : List ThreadId) (claim : Claim)
    (waiters : List ThreadId) (asker : ThreadId) :
    let m := s.machine.run schedule
    let owner := s.owner.thread
    let verdict := (s.initializer s.host).1.verdict
    let c := (m.coordinator.bindOwner s.owner).decided verdict
    s.loops = false → m.coordinator.phase = .notStarted →
    m.dispatcher.refusal? = none → m.dispatcher.tasks = [] →
    (∀ entry ∈ m.coordinator.registrants.live m.alive, entry.2.isCalm = true) →
    owner < m.threads.length → asker < m.threads.length →
    waiters ≠ [] → waiters.Nodup → (∀ w ∈ waiters, w ≠ owner ∧ w < m.threads.length) →
    ∃ (events : List (Event E)) (left : List Task),
      (∀ e ∈ events, e.isOn owner = true) ∧
      m.Calls owner (.ensureStarted claim) (fun n =>
        n.coordinator = c ∧ n.dispatcher.tasks = left ∧
        n.log = .answered owner .caller (.engine (verdict.mapError .init)) :: events ++ m.log) ∧
      Returns m (owner :: waiters) (fun n =>
        n.coordinator = c ∧ ∃ log taken later, n.log = log ++ m.log ∧
        (∀ w ∈ waiters, log.filter (·.isOn w)
          = [.answered w .caller (.engine (verdict.mapError .poisoned))]) ∧
        log.filter (fun e => !waiters.any (e.isOn ·))
          = .answered owner .caller (.pumped (.ok taken)) :: later ++ fatals verdict ++ events ∧
        (∀ e ∈ later, e.isOn owner = true) ∧ (left = [] → taken = 1 ∧ later = []))
        ((m.waiting waiters).poised owner .pump) ∧
      m.Calls asker .startInBackground fun n => n.Calls owner (.ensureStarted claim) fun n =>
        n.Calls owner .pump fun n => n.coordinator = c := by
  intro m owner verdict c hqueue hnew haccepts hempty hcalm howner hasker hne hnodup hwaiters
  -- Startup has not been asked for, so that nothing that the initializer can see has changed since
  -- the machine was set up: its verdict is already known.
  have h : Sound s.initializer s.owner m := sound_run s schedule
  have hs := h.untouched hnew
  have hu : m.coordinator.Undecided := ⟨by rw [hnew]; nofun, hs.2.2.2⟩
  have hverdict : (s.initializer m.host).1.verdict = verdict := by
    rw [show m.host = s.host from host_eq_of_undecided s schedule hu]
  have hdecided : (m.decision (m.coordinator.bindOwner s.owner) s.initializer).coordinator = c := by
    rw [decision, hverdict]
  have hloop : m.dispatcher.isLoop = false := (isLoop_run s schedule).trans hqueue
  have howns : (m.coordinator.ownerOr m.dispatcher.owner).isCurrent owner = true := by
    rw [h.owner_eq, h.ownedBy.ownerOr_eq]
    exact Owner.isCurrent_iff.mpr rfl
  have hlisteners : ∀ l ∈ queue (m.coordinator.registrants.live m.alive), l.2.isCalm = true := by
    intro l hl
    obtain ⟨entry, hentry, rfl⟩ := List.mem_map.mp hl
    exact hcalm entry hentry
  -- The heart of the matter: after the decision the same events follow in the call and in the task,
  -- since the queue is empty then in both, and nobody looks at the threads that wait.
  obtain ⟨events, n, hafter⟩ := aftermath_of_untouched h hnew hloop hempty hlisteners
  rw [hverdict] at hafter
  obtain ⟨own, hcalled, hcalledEvents⟩ := hafter.called
  obtain ⟨own', taken, later, n', hpumped, hpumpedEvents, hlater, hleft⟩ := hafter.pumped
  refine ⟨events, n.dispatcher.tasks, hafter.isOn, ?inline, ?posted, ?both⟩
  case inline =>
    -- The owner thread decides in its call and tells the listeners before the call returns.
    refine calls_of_decision (n := n) howner hs.2.2.1 hu hs.2.1 howns claim
      (by rw [hverdict, h.owner_eq]; exact hcalled) fun threads hlength => ?_
    refine ⟨hcalled.coordinator_eq.trans hdecided, rfl, ?_⟩
    rw [hverdict, hcalledEvents]
    rfl
  case posted =>
    -- Those who wait go to sleep one after the other, the first of them with the task posted. The
    -- pump decides and wakes them; from there on the two sides no longer meet.
    have hx := waiting_waiting h hnew haccepts hloop hne hnodup hwaiters
    refine returns_of_pump (n := n') h hnew hloop hempty hx howner
      (fun hmem => (hwaiters owner hmem).1 rfl) (by rw [hverdict]; exact hpumped)
      fun threads log howners hanswers => ?_
    rw [hverdict] at hanswers howners
    exact ⟨hpumped.coordinator_eq.trans hdecided, log, taken, later, rfl, hanswers,
      howners.trans hpumpedEvents, hlater, hleft⟩
  case both =>
    -- The task is still queued when the call has decided, and finds nothing left to do.
    have hcalls := calls_background_first h hnew hloop hempty haccepts hlisteners hasker howner
      claim
    rwa [hverdict] at hcalls

/-- A listener waits that calls back while it is told. -/
def callingBack : Setup Unit Nat where
  initializer host := (.engine 7, host)
  host := ()
  owner := ⟨0, none⟩
  held := [1]
  scripts := [[.register (.mk 1 "first"
    [.ensureStarted .none, .register (.mk 2 "second" []), .catching [.panic "caught"], .post []])],
    [], []]

theorem inline_and_posted_agree_two_waiters :
    let m := callingBack.machine.run [0]
    m.coordinator.registrants.entries.map (·.1) = [1] ∧
    m.Calls 0 (.ensureStarted .owner) (fun n => n.coordinator.engine = some 7) ∧
    Returns m [0, 1, 2] (fun n => n.coordinator.engine = some 7)
      ((m.waiting [1, 2]).poised 0 .pump) := by
  intro m
  have hcalm : ∀ entry ∈ m.coordinator.registrants.live m.alive, entry.2.isCalm = true := by
    decide +kernel
  obtain ⟨_, _, -, hinline, hposted, -⟩ := inline_and_posted_agree callingBack [0] .owner [1, 2] 2
    rfl (by cbv) (by cbv) (by cbv) hcalm (by decide +kernel) (by decide +kernel) nofun (by decide)
    (by decide +kernel)
  exact ⟨by cbv, hinline.mono fun n hn => by rw [hn.1]; cbv,
    hposted.mono fun n hn => by rw [hn.1]; cbv⟩

end Machine

end LazyEngine
