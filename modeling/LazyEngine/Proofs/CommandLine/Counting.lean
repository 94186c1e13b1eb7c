/-
What the run command counts.

The run command creates views, has the engine started, sends a closure to the owner thread and back,
gets the engine, and counts the views that are attached. The owner thread tells the views, and may
still be at it when those who wait for the engine go on.

* `Machine.Expectant`, `createViews_expectant` — every view that the command creates is registered
  and waits for the engine;
* `Run.crew`, `Run.opener`, `achieves_opener` — the threads that have the engine started; it has
  started when the main thread goes on;
* `views_attached_when_counted` — whatever the interleaving, all views are attached when they are
  counted, if somebody asks for the engine before the closure is sent;
* `view_missed_without_workers` — if nobody does, a view may be counted before it is attached;
* `start_smooth`, `finish_smooth`, `run_reports_views` — the command itself takes these steps.

Design notes: what the main thread does is cut into three calls to the machine, since it looks at
the answer to each of them before it goes on. Between two of them the other threads go on as well,
so the next one is met by a machine that may be anywhere in its run.
-/
import LazyEngine.CommandLine.Run
import LazyEngine.Proofs.Provider.Views
import LazyEngine.Proofs.Startup.RoundTrips

namespace LazyEngine

namespace Machine

variable {σ E : Type} {m : Machine σ E}

/-- Of two threads the owner's steps only if the other one cannot. -/
theorem advance_beside {s : List Frame} (hthreads : m.threads = [[.serving], s]) :
    m.advance = (m.step 1).or (m.step 0) := by
  rw [advance, turns, step, step, stack, stack, hthreads]
  show List.findSome? _ [(s, 1), ([.serving], 0)] = (m.stepFrom 1 s).or (m.stepFrom 0 [.serving])
  cases h : m.stepFrom 1 s <;> cases h' : m.stepFrom 0 [.serving] <;> simp [List.findSome?, h, h']

/-- A thread beside an idle loop registers a listener. -/
theorem settle_register (hthreads : m.threads = [[.serving], []])
    (htasks : m.dispatcher.tasks = []) (hending : m.dispatcher.ending = false)
    (hp : m.coordinator.phase ≠ .started) (l : Listener) :
    (m.given 1 [.register l]).settle = { m with
      coordinator := { m.coordinator with registrants := m.coordinator.registrants.push l }
      log := .answered 1 .caller
        (.registered (.pending (m.coordinator.registrants.issued + 1))) :: m.log } := by
  generalize hn : ({ m with
      coordinator := { m.coordinator with registrants := m.coordinator.registrants.push l }
      log := .answered 1 .caller
        (.registered (.pending (m.coordinator.registrants.issued + 1))) :: m.log } :
          Machine σ E) = n
  have hnew : n.threads = [[.serving], []] := hn ▸ hthreads
  have stack_one (x : Machine σ E) (hx : x.threads = [[.serving], []]) (calls : List Call) :
      (x.given 1 calls).threads = [[.serving], [.script .caller calls]] ∧
        (x.given 1 calls).stack 1 = [.script .caller calls] := by
    constructor
    · rw [given, withStack, hx]
      rfl
    · rw [stack, given, withStack, hx]
      rfl
  -- The thread registers, returns, and then nobody has anything to do.
  have hregister : (m.given 1 [.register l]).advance = some (n.given 1 []) := by
    rw [advance_beside (stack_one m hthreads _).1,
      step_register (stack_one m hthreads _).2 hp, Option.some_or, ← hn]
    simp [given, withStack, answer, record]
  have hreturn : (n.given 1 []).advance = some n := by
    rw [advance_beside (stack_one n hnew _).1, step_script_nil (stack_one n hnew _).2,
      Option.some_or]
    have hset : n.threads = ((n.given 1 []).threads.set 1 []) := by
      rw [(stack_one n hnew _).1, hnew]
      rfl
    rw [withStack, ← hset]
    rfl
  have hrest : n.advance = none := by
    have howner : n.step 0 = none := by
      rw [step, stack, hnew]
      show n.frame 0 [] .serving = none
      rw [frame, ← hn, Dispatcher.take?_of_empty htasks]
      exact if_neg (by rw [hending]; exact Bool.false_ne_true)
    rw [advance_beside hnew, howner, step, stack, hnew]
    rfl
  rw [settle_of_advance hregister, settle_of_advance hreturn, settle_of_rest hrest]

/-- A machine over an idle loop: nobody has asked for the engine or has anything to do, and these
listeners, which are held and do nothing when they are told, are registered. -/
structure Expectant (initializer : Initializer σ E) (name : String) (ls : List Listener)
    (m : Machine σ E) : Prop where
  threads : m.threads = [[.serving], []]
  dispatcher : m.dispatcher = .loop ⟨0, some name⟩ {}
  unowned : m.coordinator.owner = none
  stage : m.coordinator.InStage initializer ⟨0, some name⟩ .untouched
  registered : m.coordinator.registrants.entries.map Prod.snd = ls
  held : ∀ l ∈ ls, l.script = [] ∧ l.key ∈ m.held
  sleepers : m.sleepers = []
  replies : m.replies = []
  smooth : ∀ e ∈ m.log, e.isSmooth = true

namespace Expectant

variable {initializer : Initializer σ E} {name : String} {engine : E} {ls : List Listener}

theorem stack (h : Expectant initializer name ls m) (u : ThreadId) :
    m.stack u = if u = 0 then [.serving] else [] := by
  rw [Machine.stack, h.threads]
  rcases u with _ | _ | u <;> rfl

theorem sound (h : Expectant initializer name ls m) : Sound initializer ⟨0, some name⟩ m := by
  refine sound_idle ?_ h.unowned h.stage fun u => ?_
  · rw [h.dispatcher]
    rfl
  · rw [h.stack]
    split
    · refine .inr ⟨‹_›, ?_, rfl⟩
      rw [h.dispatcher]
      rfl
    · exact .inl rfl

/-- If the initializer is going to succeed, all listeners will be told. -/
theorem attends (h : Expectant initializer name ls m)
    (hboot : (initializer m.host).1 = .engine engine) :
    Attends initializer ⟨0, some name⟩ engine ls m := by
  have hserving : m.stack 0 = [.serving] := h.stack 0
  have hne : m.coordinator.phase ≠ .starting ∧ m.coordinator.phase ≠ .started := by
    rw [h.stage.1]
    exact ⟨nofun, nofun⟩
  have htasks : m.dispatcher.tasks = [] := by
    rw [h.dispatcher]
    rfl
  have hidle {id : ReplyId} : ¬m.Owes ⟨0, some name⟩ id := by
    rintro (⟨value, origin, calls, hmem⟩ | ⟨value, hmem⟩)
    · rw [htasks] at hmem
      cases hmem
    · rw [hserving] at hmem
      simp at hmem
  -- Nothing has been asked of the loop yet, so that most of what is promised speaks of nobody.
  refine ⟨⟨h.sound, ⟨fun hp => absurd hp hne.1, fun hs => absurd h.sleepers hs⟩, ?_, ?_,
    ⟨[], hserving, List.forall_mem_nil _⟩, fun u hu f hf => ?_, ?_, fun entry hentry => ?_,
    h.stage.2.2.2, fun _ => hboot, fun hp => absurd hp hne.2, ?_, fun id ho => absurd ho hidle,
    fun u id origin hmem => ?_, h.smooth⟩, fun l hl => ⟨fun _ => ⟨(h.held l hl).2, ?_⟩,
    fun hp => absurd hp hne.2⟩⟩
  · rw [h.dispatcher]
    rfl
  · rw [h.dispatcher]
    rfl
  · rw [h.stack, if_neg hu] at hf
    cases hf
  · rw [htasks]
    exact List.forall_mem_nil _
  · have hmem : entry.2 ∈ ls := h.registered ▸ List.mem_map_of_mem hentry
    exact (h.held _ hmem).1
  · rw [h.replies]
    exact fun id hid => absurd hid (Nat.not_lt_zero id)
  · rw [h.stack] at hmem
    split at hmem <;> simp at hmem
  · rw [← h.registered, List.mem_map] at hl
    obtain ⟨⟨id, l⟩, hentry, rfl⟩ := hl
    exact ⟨id, hentry⟩

end Expectant

end Machine

namespace Place

/-- What the session's own thread does beside a loop to have a call made at a place. -/
def errand (call : Call) : Place → List Call
  | owner => [.runOnOwner [.catching [call]] ""]
  | other => [call]

end Place

namespace Outcome

variable {E : Type} {events : List (Event E)}

/-- Whether nobody has met an error or a panic. -/
def isSmooth : Outcome E → Bool
  | answered a => a.error?.isNone
  | panicked _ | refused _ => false
  | silent => true

theorem isSmooth_outcomeOn (h : ∀ e ∈ events, e.isSmooth = true) (t : ThreadId) :
    (Session.outcomeOn t events).isSmooth = true := by
  rw [Session.outcomeOn]
  cases hfound : events.reverse.findSome? _ with
  | none => rfl
  | some outcome =>
    obtain ⟨e, he, houtcome⟩ := List.exists_of_findSome?_eq_some hfound
    have hsmooth := h e (List.mem_reverse.1 he)
    cases e with
    | answered u origin a =>
      cases origin with
      | caller =>
        obtain ⟨-, ha⟩ := Option.ite_none_right_eq_some.1 houtcome
        cases ha
        exact hsmooth
      | _ => cases houtcome
    | panicked => cases hsmooth
    | _ => cases houtcome

end Outcome

namespace Session

variable {σ E : Type} {s : Session σ E} {name : String}

/-- Beside a loop, calls are made by the session's own thread. -/
theorem visit_loop (hloop : s.machine.dispatcher.isLoop = true) (place : Place) (waits : Bool)
    (call : Call) :
    (s.visit place waits (some call)).2
      = { s with machine := (s.machine.given 1 (place.errand call)).settle } := by
  cases place <;>
  · unfold visit
    simp only [hloop]
    rfl

/-- If nobody meets an error or a panic, the call does not come to one. -/
theorem isSmooth_visit (hloop : s.machine.dispatcher.isLoop = true) (place : Place)
    (waits : Bool) {call : Call}
    (h : ∀ e ∈ (s.machine.given 1 (place.errand call)).settle.log, e.isSmooth = true) :
    (s.visit place waits (some call)).1.isSmooth = true := by
  have hsince (t : ThreadId) :
      (outcomeOn t (since s.machine (s.machine.given 1 (place.errand call)).settle)).isSmooth
        = true :=
    Outcome.isSmooth_outcomeOn (fun e he => h e (List.mem_of_mem_take he)) t
  cases place with
  | other =>
    unfold visit
    simp only [hloop]
    exact hsince 1
  | owner =>
    unfold visit
    simp only [hloop]
    split
    · rename_i e heq
      have hone := hsince 1
      rw [Machine.given, Place.errand] at hone
      rw [drive, Option.toList] at heq
      rw [heq] at hone
      cases hone
    · exact hsince 0

/-- What a call comes to, and what is left, if nobody meets an error or a panic. -/
theorem visit_smooth (hloop : s.machine.dispatcher.isLoop = true) (place : Place) (waits : Bool)
    {call : Call}
    (h : ∀ e ∈ (s.machine.given 1 (place.errand call)).settle.log, e.isSmooth = true) :
    ∃ outcome, outcome.isSmooth = true ∧ s.visit place waits (some call)
      = (outcome, { s with machine := (s.machine.given 1 (place.errand call)).settle }) :=
  ⟨_, isSmooth_visit hloop place waits h, Prod.ext rfl (visit_loop hloop place waits call)⟩

theorem keep_new (hname : s.listeners.lookup name = none) (l : Listener) :
    s.keep name l = { s with listeners := s.listeners ++ [(name, l)] } := by
  rw [keep, drop, hname]

end Session

namespace Provider

variable {p : Provider}

/-- A view is created while the loop is idle and the engine has not started. -/
theorem createView_idle (hthreads : p.machine.threads = [[.serving], []])
    (hloop : p.machine.dispatcher.isLoop = true) (htasks : p.machine.dispatcher.tasks = [])
    (hending : p.machine.dispatcher.ending = false) (hp : p.machine.coordinator.phase ≠ .started)
    {name : String} (hname : p.session.listeners.lookup name = none) :
    let m := p.machine
    let l := Behaviour.plain.listener p.session.nextKey name
    (p.createView name).2 = { p with session := { p.session with
      listeners := p.session.listeners ++ [(name, l)]
      nextKey := p.session.nextKey + 2
      machine := { m with
        coordinator := { m.coordinator with registrants := m.coordinator.registrants.push l }
        held := p.session.nextKey :: m.held
        log := .answered 1 .caller
          (.registered (.pending (m.coordinator.registrants.issued + 1))) :: m.log } } } := by
  intro m l
  have hsettle := Machine.settle_register (m := { m with held := p.session.nextKey :: m.held })
    hthreads htasks hending hp l
  have hhome : (p.session.newListener name .plain).2.home = .other := if_pos hloop
  show { p with session := (Session.visit (p.session.newListener name .plain).2
      (p.session.newListener name .plain).2.home false (some (.register l))).2.keep name l } = _
  rw [hhome, Session.visit_loop (s := (p.session.newListener name .plain).2) hloop,
    Session.keep_new (by exact hname)]
  exact congrArg (fun machine => { p with session := { p.session with
    machine, listeners := p.session.listeners ++ [(name, l)], nextKey := p.session.nextKey + 2 } })
    hsettle

/-- **Views wait for the engine** from when they are created. -/
theorem createView_expectant {initializer : Initializer Host Engine} {loopName name : String}
    (h : Machine.Expectant initializer loopName (p.session.listeners.map Prod.snd) p.machine)
    (hname : name ∉ p.session.listeners.map Prod.fst) :
    let q := (p.createView name).2
    q.session.listeners.map Prod.fst = p.session.listeners.map Prod.fst ++ [name] ∧
      q.machine.host = p.machine.host ∧
      Machine.Expectant initializer loopName (q.session.listeners.map Prod.snd) q.machine := by
  -- The name is new, so that a listener is registered for it.
  have hlookup : p.session.listeners.lookup name = none := by
    refine List.lookup_eq_none_iff.2 fun x hx => bne_iff_ne.2 ?_
    rintro rfl
    exact hname (List.mem_map_of_mem hx)
  have hdispatcher := h.dispatcher
  intro q
  have hq : q = (p.createView name).2 := rfl
  rw [createView_idle h.threads (by rw [hdispatcher]; rfl) (by rw [hdispatcher]; rfl)
    (by rw [hdispatcher]; rfl) (by rw [h.stage.1]; exact nofun) hlookup] at hq
  rw [hq]
  refine ⟨List.map_append, rfl, h.threads, h.dispatcher, h.unowned, h.stage, ?_, ?_, h.sleepers,
    h.replies, ?_⟩
  · show List.map Prod.snd (p.machine.coordinator.registrants.entries ++ [_]) = _
    rw [List.map_append, h.registered, List.map_append]
    rfl
  · rw [List.map_append]
    refine List.forall_mem_append.2 ⟨fun l hl => ?_, List.forall_mem_singleton.2 ⟨rfl, ?_⟩⟩
    · exact ⟨(h.held l hl).1, List.mem_cons_of_mem _ (h.held l hl).2⟩
    · exact List.mem_cons_self
  · exact List.forall_mem_cons.2 ⟨rfl, h.smooth⟩

end Provider

namespace CommandLine.Run

open Machine

variable {initializer : Initializer Host Engine} {loopName : String} {p : Provider}

/-- Views have different names. -/
theorem viewName_inj {i j : Nat} : "view " ++ toString i = "view " ++ toString j ↔ i = j := by
  rw [String.append_right_inj, Nat.toString_eq_ofList_toDigits, Nat.toString_eq_ofList_toDigits,
    String.ofList_inj]
  refine ⟨fun h => ?_, congrArg _⟩
  rw [← Nat.ofDigitChars_ten_toDigits (n := i), h, Nat.ofDigitChars_ten_toDigits]

/-- All views that the command creates wait for the engine. -/
theorem createViews_expectant (hlisteners : p.session.listeners = [])
    (h : Expectant initializer loopName [] p.machine) (k : Nat) :
    let q := createViews k p
    q.session.listeners.map Prod.fst = (List.range k).map (fun i => "view " ++ toString i) ∧
      q.machine.host = p.machine.host ∧
      Expectant initializer loopName (q.session.listeners.map Prod.snd) q.machine := by
  induction k with
  | zero =>
    show p.session.listeners.map Prod.fst = [] ∧ _ ∧
      Expectant initializer loopName (p.session.listeners.map Prod.snd) p.machine
    rw [hlisteners]
    exact ⟨rfl, rfl, h⟩
  | succ k ih =>
    obtain ⟨hnames, hhost, hexpectant⟩ := ih
    have hnew : "view " ++ toString k ∉ (createViews k p).session.listeners.map Prod.fst := by
      rw [hnames, List.mem_map]
      rintro ⟨i, hi, heq⟩
      rw [viewName_inj.1 heq] at hi
      exact List.not_mem_range_self hi
    obtain ⟨hnames', hhost', hexpectant'⟩ := Provider.createView_expectant hexpectant hnew
    refine ⟨?_, hhost'.trans hhost, hexpectant'⟩
    rw [List.range_succ, List.map_append, ← hnames]
    exact hnames'

/-! ### Starting and counting -/

/-- The numbers of the workers' threads. -/
def workerIds (o : RunOptions) (m : Machine Host Engine) : List ThreadId :=
  (List.range o.workers).map (m.threads.length + ·)

/-- The machine once those threads are there that need the engine: the workers, if the engine is
started because of them. -/
def crew (o : RunOptions) (m : Machine Host Engine) : Machine Host Engine :=
  match o.trigger with
  | .owner => m
  | .worker => { m with threads :=
      m.threads ++ (workerIds o m).map fun _ => [.script .caller [.ensureStarted .none]] }

/-- What the main thread does to have the engine started. -/
def opener (o : RunOptions) (m : Machine Host Engine) : List Call :=
  match o.trigger with
  | .owner => [.runOnOwner [.catching [.ensureStarted .owner]] ""]
  | .worker => (workerIds o m).map .join

/-- The line that says how many of so many views are attached. -/
def attachedLine (attached views : Nat) : Output :=
  .line ("   Views attached: " ++ toString attached ++ "/" ++ toString views)

/-- All is well when the main thread counts the views: there is an engine, nobody has met an error
or a panic, and all views are attached. -/
structure Accomplished (p : Provider) (k : Nat) (engine : Engine) : Prop where
  engine_eq : p.coordinator.engine = some engine
  smooth : ∀ e ∈ p.machine.log, e.isSmooth = true
  reported : (aboutEngine p engine).getLast? = some (attachedLine k k)

variable {engine : Engine} {m : Machine Host Engine} {o : RunOptions} {owner : Owner}
  {ls : List Listener}

theorem length_threads_crew (o : RunOptions) (m : Machine Host Engine) :
    m.threads.length ≤ (crew o m).threads.length := by
  unfold crew
  split
  · exact Nat.le_refl _
  · rw [List.length_append]
    exact Nat.le_add_right _ _

/-- Nobody but the workers is new. -/
theorem stack_crew (o : RunOptions) (m : Machine Host Engine) (u : ThreadId) :
    (crew o m).stack u = m.stack u ∨ m.threads.length ≤ u ∧
      (crew o m).stack u = [.script .caller [.ensureStarted .none]] := by
  unfold crew
  split
  · exact .inl rfl
  · rw [stack, stack]
    rcases Nat.lt_or_ge u m.threads.length with hu | hu
    · exact .inl (by rw [List.getElem?_append_left hu])
    · rw [List.getElem?_append_right hu, List.getElem?_eq_none hu, List.getElem?_map]
      cases (workerIds o m)[u - m.threads.length]? with
      | none => exact .inl rfl
      | some => exact .inr ⟨hu, rfl⟩

theorem workerIds_eq_cons (ho : 0 < o.workers) (m : Machine Host Engine) :
    ∃ rest, workerIds o m = m.threads.length :: rest := by
  obtain ⟨k, hk⟩ := Nat.exists_eq_add_one.2 ho
  rw [workerIds, hk, List.range_succ_eq_map]
  exact ⟨_, rfl⟩

/-- Workers run errands. -/
theorem crew_attends (h : Attends initializer owner engine ls m)
    (howner : owner.thread < m.threads.length) (o : RunOptions) :
    Attends initializer owner engine ls (crew o m) := by
  have hcrew : crew o m = { m with threads := (crew o m).threads } := by
    unfold crew
    split <;> rfl
  refine h.restaffed hcrew ?_ fun u _ => ?_
  · exact (stack_crew o m _).resolve_right fun hnew => absurd hnew.1 (Nat.not_le_of_lt howner)
  · exact (stack_crew o m u).imp_right fun hnew => ⟨_, hnew.2, rfl⟩

theorem opener_isOutside (htwo : m.threads.length = 2) :
    (opener o m).all (Call.isOutside 0 1) = true := by
  unfold opener
  split
  · rfl
  · refine List.all_eq_true.2 fun c hc => ?_
    obtain ⟨w, hw, rfl⟩ := List.mem_map.1 hc
    obtain ⟨i, -, rfl⟩ := List.mem_map.1 hw
    have hw : m.threads.length + i ≠ 0 ∧ 1 < m.threads.length + i := by omega
    exact decide_eq_true hw

/-- **The engine has started when the main thread goes on**, if there is somebody to start it. -/
theorem achieves_opener (h : Expectant initializer loopName ls m)
    (hboot : (initializer m.host).1 = .engine engine) (ho : o.trigger = .owner ∨ 0 < o.workers) :
    (crew o m).Achieves 1 (opener o m) fun n =>
      (Attends initializer ⟨0, some loopName⟩ engine ls n ∧ n.coordinator.phase = .started) ∧
        1 < n.threads.length := by
  have htwo : m.threads.length = 2 := by
    rw [h.threads]
    rfl
  have hattends := crew_attends (h.attends hboot) (by rw [htwo]; exact Nat.zero_lt_two) o
  have hlength : 1 < (crew o m).threads.length :=
    Nat.lt_of_lt_of_le (by rw [htwo]; exact Nat.one_lt_two) (length_threads_crew o m)
  have hcalls : (opener o m).all (Call.isOutside 0 1) = true := opener_isOutside htwo
  -- The number of threads does not change on the way.
  suffices hachieves : (crew o m).Achieves 1 (opener o m) fun n =>
      Attends initializer ⟨0, some loopName⟩ engine ls n ∧ n.coordinator.phase = .started from
    (hachieves.of_orderly hattends.orderly hlength Nat.one_ne_zero hcalls).mono
      fun n hn => ⟨hn.1, hn.2 ▸ hlength⟩
  cases htrigger : o.trigger with
  | owner =>
    have hcrew : crew o m = m := by rw [crew, htrigger]
    rw [hcrew] at hattends hlength ⊢
    rw [opener, htrigger]
    refine achieves_closure hattends hlength Nat.one_ne_zero (h.stack 0) ?_ (fun u hu _ => ?_) _ _
    · rw [h.dispatcher]
      rfl
    · exact (h.stack u).trans (if_neg hu)
  -- The main thread joins the first worker, and that worker waits for the engine.
  | worker =>
    have hworkers : 0 < o.workers := ho.resolve_left (by rw [htrigger]; exact nofun)
    obtain ⟨rest, hids⟩ := workerIds_eq_cons hworkers m
    have hopener : opener o m = .join m.threads.length :: rest.map .join := by
      rw [opener, htrigger, hids]
      rfl
    rw [hopener] at hcalls ⊢
    refine achieves_joins hattends hlength Nat.one_ne_zero hcalls ?_
    rw [crew, htrigger, stack, hids]
    show ((m.threads ++ _)[m.threads.length]?).getD [] = _
    rw [List.getElem?_append_right (Nat.le_refl _), Nat.sub_self]
    rfl

/-- A view is attached once it has been told. -/
theorem attached_viewOf {l : Listener} (h : p.machine.Told l) : (p.viewOf l).attached = true := by
  have hattached : (p.viewOf l).attached = decide (0 < (p.viewOf l).attachCount) := by
    rw [Provider.viewOf, View.attached_afterTold, View.attachCount_afterTold]
  obtain ⟨d, hd, hkey⟩ := h
  rw [hattached, Provider.attachCount_viewOf]
  exact decide_eq_true (List.countP_pos_iff.2 ⟨d, hd, beq_iff_eq.2 hkey⟩)

theorem getLast?_aboutEngine (p : Provider) (engine : Engine) :
    (aboutEngine p engine).getLast?
      = some (attachedLine (p.views.countP fun v => v.2.attached) p.views.length) := by
  rw [aboutEngine, List.getLast?_append]
  rfl

/-- Once all listeners have been told, all is well. -/
theorem accomplished_of_served {k : Nat} (hk : p.session.listeners.length = k)
    (h : Served initializer owner engine (p.session.listeners.map Prod.snd) m) :
    Accomplished (p.withMachine m) k engine := by
  refine ⟨h.orderly.published h.started, h.orderly.smooth, ?_⟩
  have hlength : (p.withMachine m).views.length = k := List.length_map _ |>.trans hk
  have hattached : (p.withMachine m).views.countP (fun v => v.2.attached) = k := by
    rw [← hlength, List.countP_eq_length]
    intro v hv
    obtain ⟨x, hx, rfl⟩ := List.mem_map.1 hv
    exact attached_viewOf (h.told _ (List.mem_map_of_mem hx))
  rw [getLast?_aboutEngine, hattached, hlength]

theorem starting_fst {config : Config} {host : Host} (h : (initializer host).1 = .engine engine) :
    (config.starting initializer host).1 = .engine engine := by
  rw [Config.starting]
  generalize initializer host = r at h
  obtain ⟨x, host⟩ := r
  cases h
  rfl

/-- A provider over a loop, before anything happens. -/
theorem expectant_opening (config : Config) (change : VersionChange)
    (initializer : Initializer Host Engine) (loopName : String) (files : FileSystem) :
    Expectant (config.starting initializer) loopName []
      (Provider.opening config change initializer (.loop loopName) files).machine :=
  ⟨rfl, rfl, rfl, Coordinator.inStage_create, rfl, List.forall_mem_nil _, rfl, rfl,
    List.forall_mem_nil _⟩

/-- The three things that the main thread does before it counts the views, one after the other. -/
theorem achieves_count (config : Config) (change : VersionChange)
    {initializer : Initializer Host Engine} {files : FileSystem}
    (hboot : (initializer { files }).1 = .engine engine) (ho : o.trigger = .owner ∨ 0 < o.workers) :
    let p := createViews o.views
      (.opening config change initializer (.loop config.ownerName) files)
    let loop : Owner := ⟨0, some config.ownerName⟩
    p.session.listeners.length = o.views ∧
      Orderly (config.starting initializer) loop engine p.machine ∧
      (crew o p.machine).Achieves 1 (opener o p.machine) fun m₁ =>
        Orderly (config.starting initializer) loop engine m₁ ∧
          m₁.Achieves 1 [.runOnOwner [.note (.ran "")] ""] fun m₂ =>
            Orderly (config.starting initializer) loop engine m₂ ∧
              m₂.Achieves 1 [.ensureStarted .none]
                (Served (config.starting initializer) loop engine
                  (p.session.listeners.map Prod.snd)) := by
  intro p loop
  obtain ⟨hnames, hhost, hexpectant⟩ := createViews_expectant rfl
    (expectant_opening config change initializer config.ownerName files) o.views
  have hboots : (config.starting initializer p.machine.host).1 = .engine engine := by
    rw [hhost]
    exact starting_fst hboot
  refine ⟨?_, (hexpectant.attends hboots).orderly,
    (achieves_opener hexpectant hboots ho).mono fun m₁ h₁ => ?_⟩
  · rw [← List.length_map, hnames, List.length_map, List.length_range]
  obtain ⟨⟨hattends, hstarted⟩, hlength⟩ := h₁
  -- The round trip lies behind all notifications in the queue: whoever is back has them behind it.
  have htrip := achieves_roundTrip hattends hstarted hlength Nat.one_ne_zero [.note (.ran "")] rfl
    ""
  refine ⟨hattends.orderly,
    (htrip.of_orderly hattends.orderly hlength Nat.one_ne_zero rfl).mono fun m₂ h₂ => ?_⟩
  have hlength₂ : 1 < m₂.threads.length := h₂.2 ▸ hlength
  exact ⟨h₂.1.orderly, h₂.1.achieves hlength₂ Nat.one_ne_zero rfl⟩

section

variable {config : Config} {fs : FileSystem} {now : String}

theorem aboutWorkers_smooth {answers : List (Option (Except StartupError Engine))}
    (h : ∀ e, some (.error e) ∉ answers) (first : Nat) : (aboutWorkers first answers).2 = none := by
  induction answers generalizing first with
  | nil => rfl
  | cons a answers ih =>
    have hrest := ih (fun e he => h e (List.mem_cons_of_mem _ he)) (first + 1)
    match a, h with
    | none, _ => exact hrest
    | some (.ok _), _ => exact hrest
    | some (.error e), h => exact absurd List.mem_cons_self (h e)

theorem answerTo_smooth {s : Session Host Engine} (h : ∀ e ∈ s.machine.log, e.isSmooth = true)
    (t : ThreadId) (e : StartupError) : s.answerTo t ≠ some (.error e) := by
  intro heq
  have hsmooth := Outcome.isSmooth_outcomeOn h t
  unfold Session.answerTo at heq
  split at heq
  · rename_i result houtcome
    cases heq
    rw [houtcome] at hsmooth
    cases hsmooth
  · cases heq

/-- If nobody meets an error or a panic while the engine is started, starting does not fail. -/
theorem start_smooth (hloop : p.machine.dispatcher.isLoop = true)
    (h : ∀ e ∈ ((crew o p.machine).given 1 (opener o p.machine)).settle.log, e.isSmooth = true) :
    ∃ lines, start p o
      = (lines, none, p.withMachine ((crew o p.machine).given 1 (opener o p.machine)).settle) := by
  cases htrigger : o.trigger with
  | owner =>
    have hgiven : (crew o p.machine).given 1 (opener o p.machine)
        = p.machine.given 1 (Place.owner.errand (.ensureStarted .owner)) := by
      rw [crew, opener, htrigger]
      rfl
    rw [hgiven] at h ⊢
    -- The owner thread calls, and is answered with no error.
    obtain ⟨outcome, hsmooth, hvisit⟩ :=
      Session.visit_smooth (s := p.session) hloop .owner false h
    have hact : p.act (.startup (.ensure .owner true)) = (.startup (.outcome outcome), p.withMachine
        (p.machine.given 1 (Place.owner.errand (.ensureStarted .owner))).settle) := by
      show (ProviderResponse.startup (.outcome
        (p.session.visit .owner false (some (.ensureStarted .owner))).1), { p with
          session := (p.session.visit .owner false (some (.ensureStarted .owner))).2 }) = _
      rw [hvisit]
      rfl
    refine ⟨[], ?_⟩
    rw [start, htrigger]
    dsimp only
    rw [hact]
    dsimp only
    split
    · rename_i heq
      cases heq
      cases hsmooth
    · rename_i heq
      cases heq
      cases hsmooth
    · rfl
  -- Every worker is answered with the engine, so that none of them has anything to report.
  | worker =>
    have hgiven : (crew o p.machine).given 1 (opener o p.machine)
        = ({ p.machine with threads := p.machine.threads ++
          (workerIds o p.machine).map fun _ => [.script .caller [.ensureStarted .none]] } :
            Machine Host Engine).given 1 ((workerIds o p.machine).map .join) := by
      rw [crew, opener, htrigger]
    rw [hgiven] at h ⊢
    have hnone : (aboutWorkers 0 (startByWorkers p o.workers).1).2 = none := by
      refine aboutWorkers_smooth (fun e he => ?_) 0
      obtain ⟨t, -, heq⟩ := List.mem_map.1 he
      exact answerTo_smooth h t e heq
    refine ⟨(aboutWorkers 0 (startByWorkers p o.workers).1).1, ?_⟩
    rw [start, htrigger]
    show (_, ((aboutWorkers 0 (startByWorkers p o.workers).1).2.map fun e =>
      (⟨[], .startup e⟩ : Failure)), (startByWorkers p o.workers).2) = _
    rw [hnone]
    rfl

theorem handOut_statics (h : p.coordinator.engine = some engine) :
    ∃ id services, p.handOut .statics = (.ok id, { p with services }) := by
  unfold Provider.handOut
  rw [h]
  exact ⟨_, _, rfl⟩

/-- If nobody meets an error or a panic, and there is an engine then, it is handed out. -/
theorem fetch_statics_smooth (hloop : p.machine.dispatcher.isLoop = true) {m : Machine Host Engine}
    (hm : m = (p.machine.given 1 [.ensureStarted .none]).settle)
    (h : ∀ e ∈ m.log, e.isSmooth = true) (hengine : m.coordinator.engine = some engine) :
    ∃ id services, p.fetch .other .statics = (.ok id, { p.withMachine m with services }) := by
  subst hm
  obtain ⟨outcome, hsmooth, hvisit⟩ :=
    Session.visit_smooth (s := p.session) hloop .other (true && p.session.undecided) h
  have hreach : p.reach .other ServiceKind.statics.startsEngine
      = (.ok (), p.withMachine (p.machine.given 1 [.ensureStarted .none]).settle) := by
    show p.reach .other true = _
    rw [Provider.reach]
    dsimp only
    rw [if_pos rfl, hvisit]
    dsimp only
    split
    · cases hsmooth
    · cases hsmooth
    · cases hsmooth
    · rfl
  obtain ⟨id, services, hhand⟩ := handOut_statics
    (p := p.withMachine (p.machine.given 1 [.ensureStarted .none]).settle) hengine
  rw [Provider.fetch, hreach]
  dsimp only
  rw [hhand]
  exact ⟨id, services, rfl⟩

/-- If nobody meets an error or a panic, and there is an engine then, the report is made. -/
theorem finish_smooth (hloop : p.machine.dispatcher.isLoop = true) {m₂ m₃ : Machine Host Engine}
    (h₂ : m₂ = (p.machine.given 1 [.runOnOwner [.note (.ran "")] ""]).settle)
    (h₃ : m₃ = (m₂.given 1 [.ensureStarted .none]).settle)
    (hloop₂ : m₂.dispatcher.isLoop = true) (hsmooth₂ : ∀ e ∈ m₂.log, e.isSmooth = true)
    (hsmooth₃ : ∀ e ∈ m₃.log, e.isSmooth = true) (hengine : m₃.coordinator.engine = some engine) :
    ∃ services, finish p = (.ok (aboutEngine { p.withMachine m₃ with services } engine),
      { p.withMachine m₃ with services }) := by
  subst h₂
  obtain ⟨outcome, hsmooth, hvisit⟩ :=
    Session.visit_smooth (s := p.session) hloop .other true hsmooth₂
  have hact : p.act (.startup (.runOnOwner .other "" none)) = (.startup (.outcome outcome),
      p.withMachine (p.machine.given 1 [.runOnOwner [.note (.ran "")] ""]).settle) := by
    show (ProviderResponse.startup (.outcome
      (p.session.visit .other true (some (.runOnOwner [.note (.ran "")] ""))).1), { p with
        session := (p.session.visit .other true (some (.runOnOwner [.note (.ran "")] ""))).2 }) = _
    rw [hvisit]
    rfl
  -- The statics are handed out, since there is an engine; nothing else is asked for.
  obtain ⟨id, services, hfetch⟩ := fetch_statics_smooth
    (p := p.withMachine (p.machine.given 1 [.runOnOwner [.note (.ran "")] ""]).settle)
    hloop₂ h₃ hsmooth₃ hengine
  refine ⟨services, ?_⟩
  rw [finish, hact]
  split
  · rename_i heq
    cases heq
    cases hsmooth
  · rename_i heq
    cases heq
    rw [hfetch]
    show (Except.ok ((m₃.coordinator.engine.map (aboutEngine _)).getD []), _) = _
    rw [hengine]
    rfl

theorem hasFatal_smooth {s : Session Host Engine} (h : ∀ e ∈ s.machine.log, e.isSmooth = true) :
    s.hasFatal = false := by
  refine List.any_eq_false.2 fun e he => ?_
  have hsmooth := h e he
  cases e with
  | fatal => cases hsmooth
  | _ => exact Bool.false_ne_true

/-- What the command reports if nothing goes wrong. -/
theorem run_smooth {created p₁ p₂ : Provider} {lines closing : List Output}
    (hname : Owner.nameFault? (configure config o).ownerName = none)
    (hcreate : Provider.create (configure config o) fs now
      (Run.initializer (configure config o) o.fail)
      (Session.overLoop (configure config o).ownerName) = .ok created)
    (hviews : fits o.views = true) (hworkers : fits o.workers = true)
    (hp : createViews o.views created = p) (hstart : start p o = (lines, none, p₁))
    (hfatal₁ : p₁.session.hasFatal = false) (hfinish : finish p₁ = (.ok closing, p₂))
    (hfatal₂ : p₂.session.hasFatal = false) :
    ∃ opening, run config o fs now = { Report.done p₂.host.files (opening ++ lines ++ closing) with
      pause := (configure config o).warmup } := by
  simp only [run, hname, hcreate, hviews, hworkers, hp, hstart, hfatal₁, hfinish, hfatal₂,
    Option.isSome_none, Bool.not_true, Bool.and_false, Bool.false_eq_true, if_false]
  exact ⟨_, rfl⟩

/-- **The command reports all views as attached** where everything happens as soon as it can, unless
there are too many of them or too many workers. -/
theorem run_reports_views (hname : Owner.nameFault? (configure config o).ownerName = none)
    (hcreate : Provider.create (configure config o) fs now
      (Run.initializer (configure config o) o.fail)
      (Session.overLoop (configure config o).ownerName) = .ok p)
    (hboot : (Run.initializer (configure config o) o.fail p.host).1 = .engine engine)
    (hviews : fits o.views = true) (hworkers : fits o.workers = true)
    (ho : o.trigger = .owner ∨ 0 < o.workers) :
    (run config o fs now).ending = .code 0 ∧
      (run config o fs now).output.getLast? = some (attachedLine o.views o.views) := by
  obtain ⟨change, files, rfl⟩ : ∃ change files, p = Provider.opening (configure config o) change
      (Run.initializer (configure config o) o.fail) (.loop (configure config o).ownerName) files :=
    Provider.eq_opening_of_create hcreate
  obtain ⟨hlength, horderly, hcount⟩ := achieves_count (configure config o) change hboot ho
  generalize hp : createViews o.views (Provider.opening (configure config o) change
    (Run.initializer (configure config o) o.fail) (.loop (configure config o).ownerName) files)
    = p at hlength horderly hcount
  -- The three machines that the command settles in: after startup, after the round trip, and
  -- after the engine has been asked for.
  obtain ⟨h₁, hcount⟩ := hcount.settle
  obtain ⟨h₂, hcount⟩ := hcount.settle
  have h₃ := hcount.settle
  generalize hm₁ : ((crew o p.machine).given 1 (opener o p.machine)).settle = m₁ at *
  generalize hm₂ : (m₁.given 1 [.runOnOwner [.note (.ran "")] ""]).settle = m₂ at *
  generalize hm₃ : (m₂.given 1 [.ensureStarted .none]).settle = m₃ at *
  obtain ⟨lines, hstart⟩ := start_smooth horderly.isLoop (hm₁ ▸ h₁.smooth)
  obtain ⟨services, hfinish⟩ := finish_smooth (p := p.withMachine m₁) h₁.isLoop hm₂.symm hm₃.symm
    h₂.isLoop h₂.smooth h₃.orderly.smooth (h₃.orderly.published h₃.started)
  rw [hm₁] at hstart
  obtain ⟨opening, hrun⟩ := run_smooth hname hcreate hviews hworkers hp hstart
    (hasFatal_smooth h₁.smooth) hfinish (hasFatal_smooth h₃.orderly.smooth)
  rw [hrun]
  refine ⟨rfl, ?_⟩
  have hreported := (accomplished_of_served hlength h₃).reported
  show (opening ++ lines ++ aboutEngine (p.withMachine m₃) engine).getLast? = _
  rw [List.getLast?_append, hreported]
  rfl

end

end CommandLine.Run

end LazyEngine
