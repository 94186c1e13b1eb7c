/-
Progress of a machine.

Every step of a thread lowers the weight of the machine, whichever thread it is and whatever else is
queued. So every schedule runs out of steps, and settling leaves nobody who could step.

* `weight_of_step` — a step lowers the weight;
* `advance_settle`, `advance_eq_none_iff` — after `settle` no thread can step.

Design notes: a step replaces the stack of one thread and may move work between that stack and the
backlog. `weight_withStack_lt` reduces each step to a comparison of the two stacks and the two
backlogs, and `Acts.weight_lt` compares them for all that a frame can do.
-/
import LazyEngine.Proofs.Startup.Steps

namespace LazyEngine

section
variable {A : Type} (f : A → Nat)

@[simp] theorem total_nil : total f [] = 0 := rfl

@[simp] theorem total_cons (a : A) (l : List A) : total f (a :: l) = f a + total f l := rfl

@[simp] theorem total_append (l l' : List A) : total f (l ++ l') = total f l + total f l' := by
  induction l with
  | nil => simp
  | cons a l ih => simp [ih, Nat.add_assoc]

@[simp] theorem total_map {B : Type} (g : B → A) (l : List B) :
    total f (l.map g) = total (fun b => f (g b)) l := by
  induction l with
  | nil => rfl
  | cons b l ih => simp [ih]

theorem total_filter_le (p : A → Bool) (l : List A) : total f (l.filter p) ≤ total f l := by
  induction l with
  | nil => simp
  | cons a l ih =>
    by_cases hp : p a = true
    · simpa [hp] using ih
    · simp only [hp, Bool.false_eq_true, not_false_eq_true, List.filter_cons_of_neg, total_cons]
      omega

/-- One element is replaced by another. -/
theorem total_set {l : List A} {i : Nat} {a : A} (b : A) (h : l[i]? = some a) :
    total f (l.set i b) + f a = total f l + f b := by
  induction l generalizing i with
  | nil => simp at h
  | cons c l ih =>
    cases i with
    | zero =>
      simp only [List.getElem?_cons_zero, Option.some.injEq] at h
      subst h
      simp only [List.set_cons_zero, total_cons]
      omega
    | succ i =>
      have := ih (i := i) (by simpa using h)
      simp only [List.set_cons_succ, total_cons]
      omega

end

/-! ### Stacks and registries -/

namespace Frame

@[simp] theorem weights_nil : weights [] = 0 := rfl

@[simp] theorem weights_cons (f : Frame) (stack : List Frame) :
    weights (f :: stack) = f.weight + weights stack := rfl

theorem weights_append (above below : List Frame) :
    weights (above ++ below) = weights above + weights below :=
  total_append ..

/-- A panic leaves no more than there was. -/
theorem weights_of_unwind {stack below : List Frame}
    (h : (unwind stack).landing = .caught below) : weights below ≤ weights stack := by
  induction stack with
  | nil => simp [unwind] at h
  | cons f stack ih =>
    cases f with
    | guard =>
      simp only [unwind, Landing.caught.injEq] at h
      subst h
      simp
    | serving => simp [unwind] at h
    | _ =>
      have := ih (by simpa [unwind] using h)
      simp
      omega

end Frame

namespace Registry

variable (r : Registry Listener)

theorem weight_push (l : Listener) : (r.push l).weight = r.weight + l.weight := by
  simp [weight]

@[simp] theorem weight_emptied : r.emptied.weight = 0 := by
  simp [weight]

theorem weight_remove_le (id : RegistrationId) : (r.remove id).weight ≤ r.weight :=
  total_filter_le ..

theorem weight_live_le (alive : Listener → Bool) :
    total (fun e => e.2.weight) (r.live alive) ≤ r.weight :=
  total_filter_le ..

end Registry

namespace Coordinator

variable {σ E : Type} {c : Coordinator σ E Listener}

theorem weight_unregister_le (id : RegistrationId) :
    (c.unregister id).2.registrants.weight ≤ c.registrants.weight := by
  unfold unregister
  split
  · exact c.registrants.weight_remove_le id
  · simp

end Coordinator

/-! ### Steps -/

namespace Machine

variable {σ E : Type} {m m' : Machine σ E} {t : ThreadId}

/-- A thread has a new stack, and stack and backlog together have become lighter. -/
theorem weight_withStack_lt {n : Machine σ E} {old new : List Frame}
    (hold : m.threads[t]? = some old) (hn : n.threads = m.threads)
    (hw : n.backlog + Frame.weights new < m.backlog + Frame.weights old) :
    (n.withStack t new).weight < m.weight := by
  have hs := total_set Frame.weights new hold
  have hb : (n.withStack t new).backlog = n.backlog := rfl
  have ht : (n.withStack t new).threads = m.threads.set t new := by simp [withStack, hn]
  unfold weight
  rw [hb, ht]
  omega

theorem backlog_stopLoop_le (m : Machine σ E) : m.stopLoop.backlog ≤ m.backlog := by
  have h : total Task.weight m.dispatcher.stop.tasks
      ≤ total Task.weight m.dispatcher.tasks := by
    cases hd : m.dispatcher <;> simp [Dispatcher.stop, Dispatcher.tasks]
  simpa [stopLoop, backlog, lose] using h

theorem weight_panic_lt {stack old : List Frame} (message : String)
    (hold : m.threads[t]? = some old) (hw : Frame.weights stack < Frame.weights old) :
    (m.panic t message stack).weight < m.weight := by
  unfold panic
  dsimp only
  split
  · rename_i below h
    have := Frame.weights_of_unwind h
    refine weight_withStack_lt hold rfl ?_
    have hb : ((m.record (.panicked t message)).lose (Frame.unwind stack).lost).backlog
        = m.backlog := rfl
    omega
  · refine weight_withStack_lt hold rfl ?_
    have hb := backlog_stopLoop_le
      ((m.record (.panicked t message)).lose (Frame.unwind stack).lost)
    have hb' : ((m.record (.panicked t message)).lose (Frame.unwind stack).lost).backlog
        = m.backlog := rfl
    simp only [Frame.weights_nil]
    omega
  · refine weight_withStack_lt hold rfl ?_
    have hb : ((m.record (.panicked t message)).lose (Frame.unwind stack).lost).backlog
        = m.backlog := rfl
    simp only [Frame.weights_nil]
    omega

theorem Posts.weight_le {f : Frame} {admitted : Bool} {posting : Posting} {origin : Origin}
    {rest : List Frame} (h : Posts m t f admitted posting origin rest) :
    posting.weight + Frame.weights rest + (if admitted then 0 else 1) ≤ f.weight := by
  cases h <;> simp [Posting.weight, Frame.weight, Call.weights, Call.weight] <;> omega

theorem Requests.weight_le {f : Frame} {admitted : Bool} {origin : Origin} {rest : List Frame}
    (h : Requests f admitted origin rest) :
    4 + Frame.weights rest + (if admitted then 0 else 1) ≤ f.weight := by
  cases h <;> simp [Frame.weight, Call.weights, Call.weight]
  omega

/-- Beginning startup hands over the listeners that are queued. -/
theorem Launch.weight_live_le {f : Frame} {c : Coordinator σ E Listener} {sequel : Sequel}
    (h : Launch m t f c sequel) : 2 ≤ f.weight ∧ c.registrants = m.coordinator.registrants := by
  cases h with
  | posted => exact ⟨Nat.le_refl _, rfl⟩
  | @inline _ admitted => exact ⟨by cases admitted <;> simp [Frame.weight], rfl⟩

theorem Aside.weight_lt {f : Frame} {pushed : List Frame} {events : List (Event E)}
    (h : Aside m t f pushed events) : Frame.weights pushed < f.weight := by
  cases h with
  | underway hf =>
    have := Requests.weight_le hf
    omega
  | @late _ _ admitted | @poisoned _ _ admitted => cases admitted <;> simp [Frame.weight]
  | @tell _ l =>
    cases l
    simp [Frame.weight, Listener.weight, Listener.script]
    omega
  | _ =>
    simp [Frame.weight, Call.weights, Call.weight]
    try omega

/-- What a frame puts in its place, together with what it queues, is lighter than the frame. -/
theorem Acts.weight_lt {f : Frame} {pushed : List Frame} {events : List (Event E)}
    {n : Machine σ E} (h : Acts m t f pushed events n) :
    n.backlog + Frame.weights pushed < m.backlog + f.weight := by
  cases h with
  | aside h =>
    have := h.weight_lt
    omega
  | postRefused hp | postLooked hp =>
    have := hp.weight_le
    simp [Frame.weight] at this ⊢
    omega
  | jobAccepted hp | closureAccepted hp =>
    have := hp.weight_le
    simp [backlog, Posting.weight, Task.weight, Frame.weight] at this ⊢
    omega
  | requestRefused hf | requestLooked hf | requested hf =>
    have := hf.weight_le
    simp [backlog, Coordinator.bindOwner, Coordinator.requested, Task.weight, Frame.weight]
      at this ⊢
    omega
  | @started _ c sequel _ _ hl =>
    -- the listeners that were registered are told now
    obtain ⟨hf, hr⟩ := hl.weight_live_le
    have hlive := m.coordinator.registrants.weight_live_le m.alive
    have hnew : (Frame.telling (queue (c.registrants.live m.alive)) sequel).weight
        = 1 + total (fun e => e.2.weight) (m.coordinator.registrants.live m.alive) := by
      simp [Frame.weight, queue, hr]
    simp [backlog, hnew, Coordinator.succeeded]
    omega
  | failed hl | stuck hl =>
    obtain ⟨hf, hr⟩ := hl.weight_live_le
    simp [backlog, hr, Coordinator.failed, Coordinator.begun]
    omega
  | @notOwner _ admitted | @joined _ admitted =>
    cases admitted <;> simp [backlog, Coordinator.bindOwner, Frame.weight]
  | @posted _ admitted =>
    cases admitted <;>
      simp [backlog, Coordinator.requested, Coordinator.bindOwner, Task.weight, Frame.weight] <;>
      omega
  | registerEarly =>
    simp [backlog, Registry.weight_push, Frame.weight, Call.weights, Call.weight]
    omega
  | @unregister _ id =>
    have := Coordinator.weight_unregister_le (c := m.coordinator) id
    simp [backlog, Frame.weight, Call.weights, Call.weight]
    omega
  | @took _ _ task _ hf htake =>
    cases hf <;> cases task <;>
      simp [backlog, Dispatcher.take?_tasks htake, Task.frames, Task.weight, Frame.weight] <;> omega
  | claimed | unclaimed =>
    simp [backlog, Frame.weight]
  | _ =>
    simp [backlog, Coordinator.bindOwner, Frame.weight, Call.weights, Call.weight]
    try omega

/-- Every step lowers the weight. -/
theorem weight_of_step (h : m.step t = some m') : m'.weight < m.weight := by
  have hold {f : Frame} {below : List Frame} (hs : m.stack t = f :: below) :
      m.threads[t]? = some (f :: below) := by
    unfold stack at hs
    cases ht : m.threads[t]? with
    | none => simp [ht] at hs
    | some s => rw [← hs, ht, Option.getD_some]
  cases stepped_of_step h with
  | @acted f below pushed events n hs ha =>
    have hlt := ha.weight_lt
    refine weight_withStack_lt (hold hs) ha.threads ?_
    rw [Frame.weights_append, Frame.weights_cons]
    have hb : ({ n with log := events ++ n.log } : Machine σ E).backlog = n.backlog := rfl
    omega
  | panicked hs =>
    refine weight_panic_lt _ (hold hs) ?_
    simp [Frame.weight, Call.weights, Call.weight]
  | ended hs =>
    refine weight_withStack_lt (hold hs) rfl ?_
    have := m.backlog_stopLoop_le
    simp [Frame.weight]
    omega

/-! ### Settling -/

/-- Every thread has its turn. -/
theorem mem_turns {stack : List Frame} : (stack, t) ∈ m.turns ↔ m.threads[t]? = some stack := by
  rw [← List.mk_mem_zipIdx_iff_getElem?, turns]
  cases m.threads.zipIdx with
  | nil => simp
  | cons first rest => simp [or_comm]

theorem step_of_mem_turns {stack : List Frame} (h : (stack, t) ∈ m.turns) :
    m.step t = m.stepFrom t stack := by
  simp [step, Machine.stack, mem_turns.1 h]

/-- Nobody can step when no thread can in its turn. -/
theorem advance_eq_none_iff : m.advance = none ↔ ∀ t, m.step t = none := by
  rw [advance, List.findSome?_eq_none_iff]
  constructor
  · intro h t
    cases hs : m.threads[t]? with
    | none => simp [step, Machine.stack, hs, stepFrom]
    | some stack =>
      have hmem := mem_turns.2 hs
      rw [step_of_mem_turns hmem]
      exact h _ hmem
  · intro h turn hmem
    rw [← step_of_mem_turns hmem]
    exact h turn.2

theorem weight_of_advance (h : m.advance = some m') : m'.weight < m.weight := by
  obtain ⟨turn, hmem, hturn⟩ := List.exists_of_findSome?_eq_some h
  rw [← step_of_mem_turns hmem] at hturn
  exact weight_of_step hturn

theorem advance_settleWithin {n : Nat} (h : m.weight ≤ n) : (settleWithin n m).advance = none := by
  induction n generalizing m with
  | zero =>
    rw [settleWithin]
    cases ha : m.advance with
    | none => rfl
    | some m' =>
      have := weight_of_advance ha
      omega
  | succ n ih =>
    rw [settleWithin]
    split
    · assumption
    · rename_i m' ha
      have := weight_of_advance ha
      exact ih (by omega)

/-- After settling nobody can step. -/
theorem advance_settle (m : Machine σ E) : m.settle.advance = none :=
  advance_settleWithin (Nat.le_refl _)

theorem settleWithin_of_rest (h : m.advance = none) (n : Nat) : settleWithin n m = m := by
  cases n with
  | zero => rfl
  | succ n => rw [settleWithin, h]

/-- More steps than the weight allows make no difference. -/
theorem settleWithin_eq {n k : Nat} (hn : m.weight ≤ n) (hk : m.weight ≤ k) :
    settleWithin n m = settleWithin k m := by
  induction n generalizing k m with
  | zero =>
    have hrest : m.advance = none := by
      cases ha : m.advance with
      | none => rfl
      | some m' =>
        have := weight_of_advance ha
        omega
    rw [settleWithin_of_rest hrest, settleWithin_of_rest hrest]
  | succ n ih =>
    cases ha : m.advance with
    | none => rw [settleWithin_of_rest ha, settleWithin_of_rest ha]
    | some m' =>
      have hlt := weight_of_advance ha
      cases k with
      | zero => omega
      | succ k =>
        rw [settleWithin, settleWithin, ha]
        exact ih (by omega) (by omega)

theorem settle_of_rest (h : m.advance = none) : m.settle = m :=
  settleWithin_of_rest h _

theorem settle_of_advance (h : m.advance = some m') : m.settle = m'.settle := by
  have hlt := weight_of_advance h
  have hw : m.weight = m.weight - 1 + 1 := by omega
  rw [settle, hw, settleWithin, h]
  exact settleWithin_eq (by omega) (Nat.le_refl _)

/-- Settling is one of the ways in which the threads can interleave. -/
theorem exists_run_eq_settleWithin (n : Nat) (m : Machine σ E) :
    ∃ schedule, settleWithin n m = m.run schedule := by
  induction n generalizing m with
  | zero => exact ⟨[], rfl⟩
  | succ n ih =>
    cases ha : m.advance with
    | none => exact ⟨[], settleWithin_of_rest ha _⟩
    | some m' =>
      obtain ⟨turn, hmem, hturn⟩ := List.exists_of_findSome?_eq_some ha
      rw [← step_of_mem_turns hmem] at hturn
      obtain ⟨schedule, hrun⟩ := ih m'
      refine ⟨turn.2 :: schedule, ?_⟩
      rw [settleWithin, ha, run, List.foldl_cons, hturn]
      exact hrun

end Machine

end LazyEngine
