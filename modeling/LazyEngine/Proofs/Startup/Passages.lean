/-
What a thread does, whatever goes on around it.

A step of a thread depends on what is kept under the lock and on the innermost frames of the thread.
What lies further below, what other threads have to do and what has been logged make no difference.

* `Machine.Passes` — a step as it is in all such surroundings;
* `Machine.Leads` — any number of these that leave the coordinator alone;
* `Machine.Returns`, `Machine.Calls` — threads that are each in the middle of a call come back from
  it, however they interleave;
* `returns_of_leads` — a thread that is led to the end of its call comes back, and so do those that
  wait for startup meanwhile.

Design notes: the frames that a passage takes away and those that it puts in their place are named,
so a passage can be used on top of any other frames (`Passes.below`). The machine of a passage has
threads and a log like any other, but nothing is said about them (`Machine.amid`).
-/
import LazyEngine.Proofs.Startup.Waiting
import LazyEngine.Proofs.Startup.Progress

namespace LazyEngine

namespace Event

variable {E : Type}

/-- The thread on which an event happens; the fatal hook is given its error on no thread in
particular. -/
def thread? : Event E → Option ThreadId
  | initialized t | told _ _ _ _ t | answered t _ _ | noted _ t | panicked t _ => some t
  | fatal _ => none

def isOn (e : Event E) (t : ThreadId) : Bool :=
  e.thread? == some t

theorem isOn_eq_false {e : Event E} {t u : ThreadId} (h : e.isOn t = true) (hu : u ≠ t) :
    e.isOn u = false := by
  rw [isOn, beq_iff_eq] at h
  rw [isOn, h, beq_eq_false_iff_ne]
  exact fun heq => hu (Option.some.inj heq).symm

end Event

/-- Whether the next step waits for another thread to come to its end. -/
def Frame.joins : Frame → Bool
  | script _ (.join _ :: _) => true
  | _ => false

namespace Machine

variable {σ E : Type} {m m' n n' x x' before : Machine σ E} {t w : ThreadId}
  {old mid new stack : List Frame} {events events' : List (Event E)}

/-- The machine in which the code on a thread has a call before it. -/
def poised (m : Machine σ E) (t : ThreadId) (call : Call) : Machine σ E :=
  m.withStack t (.script .caller [call] :: m.stack t)

theorem stack_poised (ht : t < m.threads.length) (call : Call) (u : ThreadId) :
    (m.poised t call).stack u = if u = t then .script .caller [call] :: m.stack t else m.stack u :=
  stack_withStack ht _ u

theorem step_script_nil {origin : Origin} {below : List Frame}
    (hs : m.stack t = .script origin [] :: below) : m.step t = some (m.withStack t below) :=
  step_of_acts hs (.aside .ended)

/-! ### Passages -/

/-- The machine among these threads and after these events. -/
def amid (m : Machine σ E) (threads : List (List Frame)) (log : List (Event E)) : Machine σ E :=
  { m with threads, log }

/-- One step of thread `t` takes the innermost frames `old` away, puts `new` in their place and
writes `events` into the log; of the machine it makes `n`. -/
def Passes (t : ThreadId) (m : Machine σ E) (old : List Frame) (events : List (Event E))
    (new : List Frame) (n : Machine σ E) : Prop :=
  ∀ threads log below, (m.amid threads log).stepFrom t (old ++ below)
    = some (n.amid (threads.set t (new ++ below)) (events ++ log))

namespace Passes

theorem below (h : Passes t m old events new n) (kept : List Frame) :
    Passes t m (old ++ kept) events (new ++ kept) n := by
  intro threads log below
  rw [List.append_assoc, List.append_assoc]
  exact h threads log (kept ++ below)

theorem ne_nil (h : Passes t m old events new n) : old ≠ [] := by
  rintro rfl
  cases h [] [] []

/-- Threads that have nothing to do weigh nothing. -/
theorem total_weights_idle (k : Nat) :
    total Frame.weights (List.replicate k ([] : List Frame)) = 0 := by
  induction k with
  | zero => rfl
  | succ k ih => rw [List.replicate_succ, total_cons, ih, Frame.weights_nil]

/-- A thread that has nothing else to do shows what any passage does to the weight. -/
theorem weight_lt (h : Passes t m old events new n) :
    Frame.weights new + n.backlog < Frame.weights old + m.backlog := by
  have hstep := h (List.replicate t [] ++ [old]) [] []
  have hstack : (m.amid (List.replicate t [] ++ [old]) []).stack t = old := by
    simp [stack, amid]
  have hset : (List.replicate t [] ++ [old]).set t new = List.replicate t [] ++ [new] := by
    rw [List.set_append_right t new (by simp)]
    simp
  rw [List.append_nil, List.append_nil, hset] at hstep
  have hlt := weight_of_step (m := m.amid (List.replicate t [] ++ [old]) []) (t := t)
    (by rw [step, hstack]; exact hstep)
  have htotal (s : List Frame) :
      total Frame.weights (List.replicate t [] ++ [s]) = Frame.weights s := by
    rw [total_append, total_weights_idle, total_cons, total_nil, Nat.zero_add, Nat.add_zero]
  change total Frame.weights (List.replicate t [] ++ [new]) + n.backlog
    < total Frame.weights (List.replicate t [] ++ [old]) + m.backlog at hlt
  rwa [htotal, htotal] at hlt

end Passes

/-! #### What a frame can do is a passage -/

theorem Posts.amid {f : Frame} {admitted : Bool} {posting : Posting} {origin : Origin}
    {rest : List Frame} (h : Posts m t f admitted posting origin rest)
    (threads : List (List Frame)) (log : List (Event E)) :
    Posts (m.amid threads log) t f admitted posting origin rest := by
  cases h with
  | job => exact .job
  | closure ho => exact .closure ho
  | pushing => exact .pushing

theorem Launch.amid {f : Frame} {c : Coordinator σ E Listener} {sequel : Sequel}
    (h : Launch m t f c sequel) (threads : List (List Frame)) (log : List (Event E)) :
    Launch (m.amid threads log) t f c sequel := by
  cases h with
  | inline ho => exact .inline ho
  | posted => exact .posted

theorem Aside.amid {f : Frame} (h : Aside m t f new events) (hj : f.joins = false)
    (threads : List (List Frame)) (log : List (Event E)) :
    Aside (m.amid threads log) t f new events := by
  cases h with
  | join => cases hj
  | told => exact .told (m := m.amid threads log)
  | tell => exact .tell (m := m.amid threads log)
  | late hp => exact .late (m := m.amid threads log) hp
  | _ => constructor <;> assumption

theorem Acts.amid {f : Frame} (h : Acts m t f new events n) (hj : f.joins = false)
    (threads : List (List Frame)) (log : List (Event E)) :
    Acts (m.amid threads log) t f new events (n.amid threads log) := by
  cases h with
  | aside h => exact .aside (h.amid hj threads log)
  | postRefused hp hr => exact .postRefused (hp.amid threads log) hr
  | postLooked hp hr hl => exact .postLooked (hp.amid threads log) hr hl
  | jobAccepted hp ha => exact .jobAccepted (hp.amid threads log) ha
  | closureAccepted hp ha => exact .closureAccepted (hp.amid threads log) ha
  | requestLooked hf hn hr hl => exact .requestLooked (m := m.amid threads log) hf hn hr hl
  | looked hu ho hn hr hl => exact .looked (m := m.amid threads log) hu ho hn hr hl
  | started hl hu hi hv => exact .started (hl.amid threads log) hu hi hv
  | failed hl hu hi hv => exact .failed (hl.amid threads log) hu hi hv
  | stuck hl hu hi => exact .stuck (hl.amid threads log) hu hi
  | _ => constructor <;> assumption

/-- The step of a frame is a passage, unless it depends on other threads. -/
theorem Acts.passes {f : Frame} (h : Acts m t f new events n) (hj : f.joins = false) :
    Passes t m [f] events new n := by
  intro threads log below
  exact (h.amid hj threads log).frame_eq below

/-- What leaves alone all that threads share happens on the thread that steps. -/
theorem Aside.isOn {f : Frame} (h : Aside m t f new events) : ∀ e ∈ events, e.isOn t = true := by
  cases h with
  | @told sequel => cases sequel <;> simp [goOnEvents, Event.isOn, Event.thread?]
  | _ => simp [Event.isOn, Event.thread?]

theorem isOn_answered (t : ThreadId) (origin : Origin) (a : Answer E) :
    ∀ e ∈ [Event.answered t origin a], e.isOn t = true := by
  intro e he
  rw [List.mem_singleton.mp he]
  exact beq_self_eq_true _

/-- Thread `t` is led from the frames `old` to the frames `new` by passages that leave the
coordinator and those who sleep alone, and everything that happens is on this thread. -/
inductive Leads (t : ThreadId) : Machine σ E → List Frame → List (Event E) → List Frame →
    Machine σ E → Prop where
  | refl (m : Machine σ E) (stack : List Frame) : Leads t m stack [] stack m
  | step {m m' n : Machine σ E} {old mid new : List Frame} {events events' : List (Event E)} :
      Passes t m old events mid m' → m'.coordinator = m.coordinator →
      m'.sleepers = m.sleepers → (∀ e ∈ events, e.isOn t = true) →
      Leads t m' mid events' new n → Leads t m old (events' ++ events) new n

namespace Leads

/-- A passage that leaves the machine as it is. -/
theorem single (h : Passes t m old events new n) (hc : n.coordinator = m.coordinator)
    (hs : n.sleepers = m.sleepers) (hown : ∀ e ∈ events, e.isOn t = true) :
    Leads t m old events new n := .step h hc hs hown (.refl n new)

/-- What a frame does that leaves alone all that threads share. -/
theorem aside {f : Frame} (h : Aside m t f new events) (hj : f.joins = false) :
    Leads t m [f] events new m := .single (Acts.passes (.aside h) hj) rfl rfl h.isOn

theorem trans (h : Leads t m old events mid m') (h' : Leads t m' mid events' new n) :
    Leads t m old (events' ++ events) new n := by
  induction h with
  | refl => rwa [List.append_nil]
  | step hp hc hs hown _ ih =>
    rw [← List.append_assoc]
    exact .step hp hc hs hown (ih h')

theorem above (h : Leads t m old events new n) (kept : List Frame) :
    Leads t m (old ++ kept) events (new ++ kept) n := by
  induction h with
  | refl => exact .refl ..
  | step hp hc hs hown _ ih => exact .step (hp.below kept) hc hs hown ih

theorem coordinator_eq (h : Leads t m old events new n) : n.coordinator = m.coordinator := by
  induction h with
  | refl => rfl
  | step _ hc _ _ _ ih => exact ih.trans hc

theorem weight_le (h : Leads t m old events new n) :
    Frame.weights new + n.backlog ≤ Frame.weights old + m.backlog := by
  induction h with
  | refl => exact Nat.le_refl _
  | step hp _ _ _ _ ih => exact Nat.le_trans ih (Nat.le_of_lt hp.weight_lt)

theorem isOn (h : Leads t m old events new n) : ∀ e ∈ events, e.isOn t = true := by
  induction h with
  | refl => nofun
  | step _ _ _ hown _ ih =>
    intro e he
    rcases List.mem_append.mp he with he | he
    · exact ih e he
    · exact hown e he

end Leads

/-! ### Calls that return -/

/-- Threads that are each in the middle of a call made in the machine `before` all come back from
it, however they interleave, and the machine that they leave is as `P` says. -/
inductive Returns (before : Machine σ E) (threads : List ThreadId) (P : Machine σ E → Prop) :
    Machine σ E → Prop where
  | back {m : Machine σ E} : (∀ t ∈ threads, m.stack t = before.stack t) → P m →
      Returns before threads P m
  | goOn {m : Machine σ E} :
      (∃ t ∈ threads, m.stack t ≠ before.stack t ∧ m.step t ≠ none) →
      (∀ t ∈ threads, m.stack t ≠ before.stack t → ∀ m', m.step t = some m' →
        Returns before threads P m') →
      Returns before threads P m

theorem Returns.mono {threads : List ThreadId} {P Q : Machine σ E → Prop}
    (h : Returns before threads P m) (hPQ : ∀ n, P n → Q n) : Returns before threads Q m := by
  induction h with
  | back hback hP => exact .back hback (hPQ _ hP)
  | goOn hgo _ ih => exact .goOn hgo ih

/-- A call of a thread returns, and the machine that it leaves is as `P` says. -/
def Calls (m : Machine σ E) (t : ThreadId) (call : Call) (P : Machine σ E → Prop) : Prop :=
  Returns m [t] P (m.poised t call)

/-- A thread that waits for startup, or has been answered and is on its way back from the call.
`new` is what has happened since the call. -/
inductive Waits (before : Machine σ E) (result : Except StartupError E) (w : ThreadId)
    (x : Machine σ E) (new : List (Event E)) : Prop where
  | still : x.stack w = [.awaitingStartup .caller, .script .caller []] ++ before.stack w →
      new.filter (·.isOn w) = [] → Waits before result w x new
  | answered {left : List Frame} : left = [.script .caller []] ∨ left = [] →
      x.stack w = left ++ before.stack w →
      new.filter (·.isOn w) = [.answered w .caller (.engine result)] →
      Waits before result w x new

/-- Where thread `t` stands in the middle of a call: it has the frames `stack` still before it, and
on its account `events` have happened and the machine is `n`. Other threads wait meanwhile, and
`log` is what has happened on all of them. -/
structure Stands (before : Machine σ E) (t : ThreadId) (waiters : List ThreadId)
    (result : Except StartupError E) (events : List (Event E)) (stack : List Frame)
    (n : Machine σ E) (log : List (Event E)) (x : Machine σ E) : Prop where
  machine : x = n.amid x.threads (log ++ before.log)
  stack : x.stack t = stack ++ before.stack t
  length : x.threads.length = before.threads.length
  events : log.filter (fun e => !waiters.any (e.isOn ·)) = events
  waits : ∀ w ∈ waiters, Waits before result w x log

/-- What happens on a thread changes nothing for another one that waits. -/
theorem Waits.aside {result : Except StartupError E} {log own : List (Event E)}
    (h : Waits before result w x log) (hs : x'.stack w = x.stack w)
    (hown : ∀ e ∈ own, e.isOn w = false) : Waits before result w x' (own ++ log) := by
  have hnone : own.filter (·.isOn w) = [] :=
    List.filter_eq_nil_iff.mpr fun e he => by rw [hown e he]; nofun
  cases h with
  | still hstill hno =>
    exact .still (hs.trans hstill) (by rw [List.filter_append, hnone, hno, List.append_nil])
  | answered hleft hback hans =>
    exact .answered hleft (hs.trans hback)
      (by rw [List.filter_append, hnone, hans, List.nil_append])

namespace Stands

variable {waiters : List ThreadId} {result : Except StartupError E} {u : ThreadId}
  {log : List (Event E)}

/-- A thread that has just made a call. -/
theorem poised (result : Except StartupError E) (ht : t < before.threads.length) (call : Call) :
    Stands before t [] result [] [.script .caller [call]] before []
      (before.poised t call) := by
  refine ⟨rfl, ?_, List.length_set, rfl, nofun⟩
  rw [stack_poised ht call, if_pos rfl]
  rfl

theorem stack_eq_iff (h : Stands before t waiters result events stack n log x) :
    x.stack t = before.stack t ↔ stack = [] := by
  rw [h.stack]
  exact List.append_left_eq_self

/-- The thread makes the step that its passage says. -/
theorem passes (h : Stands before t waiters result events stack n log x) (ht : t ∉ waiters)
    (hp : Passes t n stack events' new n')
    (hown : ∀ e ∈ events', ∀ w ∈ waiters, e.isOn w = false) :
    ∃ x', x.step t = some x' ∧ (∀ u ≠ t, x'.stack u = x.stack u) ∧
      Stands before t waiters result (events' ++ events) new n' (events' ++ log) x' := by
  obtain ⟨f, rest, hstack⟩ := List.exists_cons_of_ne_nil hp.ne_nil
  have hlt : t < x.threads.length :=
    lt_length_of_stack (show x.stack t = f :: (rest ++ before.stack t) by
      rw [h.stack, hstack]
      rfl)
  have hstep := hp x.threads (log ++ before.log) (before.stack t)
  rw [← h.machine, ← h.stack, ← List.append_assoc] at hstep
  have hothers (u : ThreadId) (hu : u ≠ t) :
      (n'.amid (x.threads.set t (new ++ before.stack t)) (events' ++ log ++ before.log)).stack u
        = x.stack u := (stack_withStack hlt _ u).trans (if_neg hu)
  refine ⟨_, hstep, hothers, rfl, ?_, List.length_set.trans h.length, ?_, fun w hw => ?_⟩
  · exact (stack_withStack hlt _ t).trans (if_pos rfl)
  · rw [List.filter_append, h.events, List.filter_eq_self.mpr]
    intro e he
    rw [Bool.not_eq_true', List.any_eq_false]
    exact fun w hw => by rw [hown e he w hw]; nofun
  · have hne : w ≠ t := fun heq => ht (heq ▸ hw)
    exact (h.waits w hw).aside (hothers w hne) fun e he => hown e he w hw

/-- A waiting thread makes a step that concerns nobody else. -/
theorem aside (h : Stands before t waiters result events stack n log x) (ht : t ∉ waiters)
    (hu : u ∈ waiters) (hlt : u < x.threads.length) {below : List Frame} {own : List (Event E)}
    (hown : ∀ e ∈ own, e.isOn u = true)
    (hx' : x' = n.amid (x.threads.set u below) (own ++ log ++ before.log))
    (hwaits : x'.stack u = below → Waits before result u x' (own ++ log)) :
    Stands before t waiters result events stack n (own ++ log) x' := by
  subst hx'
  have hstack (v : ThreadId) :
      (n.amid (x.threads.set u below) (own ++ log ++ before.log)).stack v
        = if v = u then below else x.stack v := stack_withStack hlt below v
  refine ⟨rfl, ?_, List.length_set.trans h.length, ?_, fun w hw => ?_⟩
  · rw [hstack, if_neg fun heq : t = u => ht (heq ▸ hu), h.stack]
  · have hnone : own.filter (fun e => !waiters.any (e.isOn ·)) = [] := by
      refine List.filter_eq_nil_iff.mpr fun e he => ?_
      rw [List.any_eq_true.mpr ⟨u, hu, hown e he⟩]
      nofun
    rw [List.filter_append, hnone, h.events, List.nil_append]
  · by_cases hwu : w = u
    · subst hwu
      exact hwaits (by rw [hstack, if_pos rfl])
    · exact (h.waits w hw).aside (by rw [hstack, if_neg hwu])
        fun e he => Event.isOn_eq_false (hown e he) hwu

/-- Once startup is decided, a waiting thread goes on with its way back. -/
theorem waits_step (h : Stands before t waiters result events stack n log x) (ht : t ∉ waiters)
    (hr : n.coordinator.recheck = some result) (hs : n.sleepers = []) (hu : u ∈ waiters)
    (hback : x.stack u ≠ before.stack u) :
    ∃ x' log', x.step u = some x' ∧ Stands before t waiters result events stack n log' x' := by
  have hcoordinator : x.coordinator = n.coordinator := by rw [h.machine]; rfl
  have hsleepers : x.sleepers = n.sleepers := by rw [h.machine]; rfl
  -- It looks again and is answered, or it has been answered and leaves its script.
  cases h.waits u hu with
  | still hstill hno =>
    have hstep := step_awaiting hstill (by rw [hsleepers, hs]; nofun)
      (by rw [hcoordinator]; exact hr)
    refine ⟨_, [.answered u .caller (.engine result)] ++ log, hstep,
      h.aside ht hu (lt_length_of_stack hstill) (by simp [Event.isOn, Event.thread?]) ?_
        fun hs' => .answered (.inl rfl) hs' ?_⟩
    · rw [h.machine]
      rfl
    · rw [List.filter_append, hno, List.append_nil]
      exact List.filter_cons_of_pos (beq_self_eq_true _)
  | answered hleft hstack hans =>
    rcases hleft with rfl | rfl
    · refine ⟨_, [] ++ log, step_script_nil hstack,
        h.aside ht hu (lt_length_of_stack hstack) nofun ?_
          fun hs' => .answered (.inr rfl) hs' hans⟩
      rw [h.machine]
      rfl
    · exact absurd hstack hback

end Stands

/-! ### Coming back -/

section
variable {waiters : List ThreadId} {result : Except StartupError E} {log : List (Event E)}
  {P : Machine σ E → Prop}

/-- One passage of a thread while all others sleep. -/
theorem returns_of_passes (hx : Stands before t waiters result events stack n log x)
    (ht : t ∉ waiters) (hp : Passes t n stack events' new n')
    (hown : ∀ e ∈ events', ∀ w ∈ waiters, e.isOn w = false)
    (hasleep : ∀ w ∈ waiters, x.step w = none)
    (hnext : ∀ x', (∀ u ≠ t, x'.stack u = x.stack u) →
      Stands before t waiters result (events' ++ events) new n' (events' ++ log) x' →
      Returns before (t :: waiters) P x') :
    Returns before (t :: waiters) P x := by
  obtain ⟨x', hstep, hothers, hx'⟩ := hx.passes ht hp hown
  have hback : x.stack t ≠ before.stack t := fun heq => hp.ne_nil (hx.stack_eq_iff.mp heq)
  refine .goOn ⟨t, List.mem_cons_self, hback, by rw [hstep]; nofun⟩ fun u hu _ y hy => ?_
  rcases List.mem_cons.mp hu with rfl | hu
  · obtain rfl := Option.some.inj (hstep.symm.trans hy)
    exact hnext _ hothers hx'
  · rw [hasleep u hu] at hy
    cases hy

/-- A thread that is led to the end of its call comes back from it. Those that wait for startup
come back meanwhile, if it is decided. -/
theorem returns_of_leads (hl : Leads t n stack events' [] n')
    (hx : Stands before t waiters result events stack n log x) (ht : t ∉ waiters)
    (hw : waiters ≠ [] → n.coordinator.recheck = some result ∧ n.sleepers = [])
    (hP : ∀ log y, Stands before t waiters result (events' ++ events) [] n' log y →
      (∀ w ∈ waiters, log.filter (·.isOn w) = [.answered w .caller (.engine result)]) → P y) :
    Returns before (t :: waiters) P x := by
  -- every step makes the machine lighter, whichever thread makes it
  induction hweight : x.weight using Nat.strongRecOn generalizing x n stack events events' log with
  | _ weight ih =>
    subst hweight
    have hwaiter {u : ThreadId} (hu : u ∈ waiters) (hback : x.stack u ≠ before.stack u) :
        ∃ x' log', x.step u = some x' ∧
          Stands before t waiters result events stack n log' x' := by
      obtain ⟨hr, hs⟩ := hw (List.ne_nil_of_mem hu)
      exact hx.waits_step ht hr hs hu hback
    have hwaiterNext {u : ThreadId} (hu : u ∈ waiters) (hback : x.stack u ≠ before.stack u)
        (y : Machine σ E) (hy : x.step u = some y) : Returns before (t :: waiters) P y := by
      obtain ⟨x', log', hstep, hx'⟩ := hwaiter hu hback
      obtain rfl := Option.some.inj (hstep.symm.trans hy)
      exact ih _ (weight_of_step hstep) hl hx' hw hP rfl
    cases hl with
    | refl =>
      by_cases hall : ∀ w ∈ waiters, x.stack w = before.stack w
      · refine .back (List.forall_mem_cons.mpr ⟨hx.stack_eq_iff.mpr rfl, hall⟩) ?_
        refine hP log x hx fun w hwmem => ?_
        cases hx.waits w hwmem with
        | still hstill =>
          exact absurd (List.append_left_eq_self.mp (hstill.symm.trans (hall w hwmem))) nofun
        | answered _ _ hans => exact hans
      · obtain ⟨w, hwmem, hback⟩ : ∃ w ∈ waiters, x.stack w ≠ before.stack w := by simpa using hall
        obtain ⟨x', -, hstep, -⟩ := hwaiter hwmem hback
        refine .goOn ⟨w, List.mem_cons_of_mem _ hwmem, hback, by rw [hstep]; nofun⟩
          fun u hu hu' y hy => ?_
        rcases List.mem_cons.mp hu with rfl | hu
        · exact absurd (hx.stack_eq_iff.mpr rfl) hu'
        · exact hwaiterNext hu hu' y hy
    | @step _ m' _ _ mid _ events₁ events₂ hp hc hs hown hl =>
      obtain ⟨x', hstep, -, hx'⟩ := hx.passes ht hp fun e he w hwmem =>
        Event.isOn_eq_false (hown e he) fun heq => ht (heq ▸ hwmem)
      have hback : x.stack t ≠ before.stack t := fun heq => hp.ne_nil (hx.stack_eq_iff.mp heq)
      refine .goOn ⟨t, List.mem_cons_self, hback, by rw [hstep]; nofun⟩ fun u hu hu' y hy => ?_
      rcases List.mem_cons.mp hu with rfl | hu
      · obtain rfl := Option.some.inj (hstep.symm.trans hy)
        refine ih _ (weight_of_step hstep) hl hx' (fun hne => ?_) (fun log y hy hans => ?_) rfl
        · rw [hc, hs]
          exact hw hne
        · exact hP log y (by rwa [List.append_assoc]) hans
      · exact hwaiterNext hu hu' y hy

end

end Machine

end LazyEngine
