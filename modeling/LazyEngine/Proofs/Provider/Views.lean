/-
Every view attaches exactly once.

Views are created on any thread, before, while and after the engine starts, and they are dropped at
any time. A view attaches when it is told that the engine has started.

* `Machine.tally` — how often a listener is queued, is due on some thread or has been told;
  `Counted` says that no view is counted twice, so none is told twice;
* `Machine.Accounted` — a view is queued, or due on its thread, or has been told, so none is
  forgotten;
* `views_attach_once` — all of it, for whatever happens to a provider.

Design notes: a view that waits is handed over to the owner thread in the section that starts the
engine, and one that finds the engine running is due on the thread that creates it. In both cases
the frame that tells it stays the innermost one, but for the callback of a view, which does nothing
(`Bare`), so no panic takes the frame away.
-/
import LazyEngine.Proofs.Provider.Bare
import LazyEngine.Proofs.Startup.Reports

namespace LazyEngine

namespace Machine

variable {σ E : Type} {m m' n : Machine σ E} {t u : ThreadId} {key : Nat}
  {initializer : Initializer σ E} {owner : Owner} {asked : Option Call}

/-! ### No listener is told twice -/

/-- How often a listener is due on a stack. -/
def owing (key : Nat) (stack : List Frame) : Nat :=
  (stack.flatMap Frame.dues).countP (·.2.key == key)

/-- How often a listener is queued, is due on any thread or has been told. -/
def tally (m : Machine σ E) (key : Nat) : Nat :=
  m.coordinator.registrants.entries.countP (·.2.key == key) + total (owing key) m.threads
    + m.deliveries.countP (·.key == key)

/-- The thread is about to register a listener. -/
def Registering (m : Machine σ E) (t : ThreadId) (l : Listener) : Prop :=
  ∃ origin calls below, m.stack t = .script origin (.register l :: calls) :: below

/-- A step counts a listener once more only when it registers it. -/
theorem Sound.tally (h : Sound initializer owner m) (ht : Turn m t m') (key : Nat) :
    m'.tally key ≤ m.tally key ∨
      ∃ l, m.Registering t l ∧ l.key = key ∧ m'.tally key = m.tally key + 1 := by
  have htotal := (h.restacked ht).total (owing key)
  have howing (u : ThreadId) (k : Machine σ E) :
      owing key (k.stack u) = (k.due u).countP (·.2.key == key) := rfl
  rw [howing, howing] at htotal
  cases h.dealt ht with
  | idle hs hk hp hd _ _ hentries =>
    left
    have hdue := (due_sublist hs hk hp).countP_le (p := fun x => x.2.key == key)
    have hqueued := hentries.countP_le (p := fun x => x.2.key == key)
    rw [Machine.tally, Machine.tally, hd]
    omega
  | @registered origin l calls below hs hs' _ hd _ hreg =>
    rw [due_of_script hs hs'] at htotal
    rw [Machine.tally, Machine.tally, hd, hreg, Registry.entries_push, List.countP_append,
      List.countP_singleton]
    by_cases hl : l.key = key
    · right
      refine ⟨l, ⟨origin, calls, below, hs⟩, hl, ?_⟩
      rw [if_pos (beq_iff_eq.mpr hl)]
      omega
    · left
      rw [if_neg (by simpa using hl)]
      omega
  | @opened listeners sequel below ho hs hd =>
    rw [ho.due_eq hs, List.countP_append] at htotal
    cases ho with
    | completed _ _ _ _ hreg =>
      left
      -- what was queued is due now, if it is held
      have hlive : (queue (m.coordinator.registrants.live m.alive)).countP (·.2.key == key)
          ≤ m.coordinator.registrants.entries.countP (·.2.key == key) := by
        rw [queue, List.countP_map]
        exact List.filter_sublist.countP_le
      rw [Machine.tally, Machine.tally, hd, hreg, Registry.entries_emptied, List.countP_nil]
      omega
    | spared _ hreg =>
      left
      rw [List.countP_nil] at htotal
      rw [Machine.tally, Machine.tally, hd, hreg]
      omega
    | @immediate origin l calls below hs₀ _ hreg =>
      rw [List.countP_singleton] at htotal
      rw [Machine.tally, Machine.tally, hd, hreg]
      by_cases hl : l.key = key
      · right
        rw [if_pos (beq_iff_eq.mpr hl)] at htotal
        exact ⟨l, ⟨origin, calls, below, hs₀⟩, hl, by omega⟩
      · left
        rw [if_neg (by simpa using hl)] at htotal
        omega
  | @told ticket l listeners sequel below hs hs' hd _ hc =>
    left
    rw [due_of_telling hs hs', List.countP_cons] at htotal
    rw [Machine.tally, Machine.tally, hd, hc, List.countP_append, List.countP_singleton]
    dsimp only at htotal ⊢
    omega

theorem tally_beside (hn : Beside m n) (key : Nat) : n.tally key = m.tally key := by
  have htotal : total (owing key) n.threads = total (owing key) m.threads := by
    rcases hn.threads with hthreads | hthreads
    · rw [hthreads]
    · rw [hthreads, total_append]
      rfl
  rw [tally, tally, deliveries, deliveries, hn.coordinator, hn.log, htotal]

theorem tally_poised (hfree : m.isFree t = true) (call : Call) (key : Nat) :
    (m.poised t call).tally key = m.tally key := by
  have hlt := (stack_of_isFree hfree).1
  have hold : m.threads[t]? = some (m.stack t) := by
    rw [Machine.stack, List.getElem?_eq_getElem hlt, Option.getD_some]
  have htotal := total_set (owing key) (.script .caller [call] :: m.stack t) hold
  have hown : owing key (.script .caller [call] :: m.stack t) = owing key (m.stack t) := rfl
  show _ + total (owing key) (m.threads.set t _) + _ = _
  rw [hown] at htotal
  rw [tally, Nat.add_right_cancel htotal]
  rfl

/-- Whatever code asks for, a listener is counted once more only when it is registered. -/
theorem Bare.tally (h : Bare m) (hsound : Sound initializer owner m) (hgoes : Goes m asked m')
    (key : Nat) :
    m'.tally key ≤ m.tally key ∨
      ∃ l, asked = some (.register l) ∧ l.key = key ∧ m'.tally key = m.tally key + 1 := by
  cases hgoes with
  | stays => exact .inl (Nat.le_refl _)
  | @steps t m' hstep =>
    refine (hsound.tally (turn_of_step hstep) key).imp_right ?_
    rintro ⟨l, ⟨origin, calls, below, hs⟩, -⟩
    cases h.frames t _ (hs ▸ List.mem_cons_self)
  | @calls t call m' heq hfree hstep =>
    have hs := stack_poised (stack_of_isFree hfree).1 call t
    rw [if_pos rfl] at hs
    rw [← tally_poised hfree call key]
    refine ((hsound.poised hfree).tally (turn_of_step hstep) key).imp_right ?_
    rintro ⟨l, ⟨origin, calls, below, hs'⟩, hl, hnew⟩
    rw [hs] at hs'
    cases hs'
    exact ⟨l, heq, hl, hnew⟩

/-! ### No listener is forgotten -/

/-- A listener that has been registered has been told or is going to be: it is queued, or due in a
frame of thread `u` that goes on as `sequel` says. That frame is the innermost one, but for the
callback of a view that has just been told. -/
inductive Accounted (m : Machine σ E) (owner : Owner) (u : ThreadId) (sequels : Sequel → Prop)
    (key : Nat) : Prop where
  | waiting {entry : RegistrationId × Listener} : u = owner.thread →
      (∀ origin, sequels (.engine origin)) → sequels .finished →
      entry ∈ m.coordinator.registrants.entries → entry.2.key = key →
      Accounted m owner u sequels key
  | due {above below : List Frame} {listeners : List (Ticket × Listener)} {sequel : Sequel}
      {x : Ticket × Listener} :
      m.stack u = above ++ .telling listeners sequel :: below →
      above = [] ∨ above = [.script .callback []] → sequels sequel →
      x ∈ listeners → x.2.key = key → Accounted m owner u sequels key
  | told {d : Delivery} : d ∈ m.deliveries → d.key = key → Accounted m owner u sequels key

/-- A machine of a provider in which it is a thread's turn has nothing of `Call.unregister`. -/
theorem Ready.not_takesBack (h : Ready m t) (id : RegistrationId) : ¬m.TakesBack t id := by
  rintro ⟨origin, calls, below, -, hs, -⟩
  exact (h.calls_eq_nil hs).2.2

theorem step_telling {ticket : Ticket} {l : Listener} {listeners : List (Ticket × Listener)}
    {sequel : Sequel} {below : List Frame}
    (hs : m.stack t = .telling ((ticket, l) :: listeners) sequel :: below) :
    m.step t = some ((m.record (.told ticket l.key l.name m.coordinator.phase t)).withStack t
      (.script .callback l.script :: .telling listeners sequel :: below)) :=
  step_of_acts hs (.aside .tell)

namespace Accounted

variable {sequels : Sequel → Prop}

/-- A listener that is due in the innermost frame. -/
theorem due_first {below : List Frame} {listeners : List (Ticket × Listener)} {sequel : Sequel}
    {x : Ticket × Listener} (hs : m.stack u = .telling listeners sequel :: below)
    (hsequel : sequels sequel) (hx : x ∈ listeners) (hkey : x.2.key = key) :
    m.Accounted owner u sequels key := by
  rw [← List.nil_append (_ :: below)] at hs
  exact .due hs (.inl rfl) hsequel hx hkey

theorem step (h : m.Accounted owner u sequels key) (hsound : Sound initializer owner m)
    (hready : Ready m t) (hheld : m.coordinator.phase ≠ .started → key ∈ m.held)
    (hstep : m.step t = some m') : m'.Accounted owner u sequels key := by
  have ht := turn_of_step hstep
  -- The view is waiting, due or told; a step moves it on or leaves it where it is.
  cases h with
  | @waiting entry hu hengine hfinished hentry hkey =>
    have hp : m.coordinator.phase ≠ .started := fun hp => by
      rw [hsound.entries_eq_nil hp] at hentry
      cases hentry
    by_cases hp' : m'.coordinator.phase = .started
    · -- the section that starts the engine hands the listener over
      obtain ⟨f, c, sequel, below, engine, hs, hl, -, -, rfl⟩ :=
        hsound.decides_of_started hstep hp hp'
      obtain rfl : t = u := (hsound.isCurrent_of_launch hs hl).trans hu.symm
      have hlive : entry ∈ m.coordinator.registrants.live m.alive :=
        List.mem_filter.mpr ⟨hentry, List.contains_iff_mem.mpr (hkey ▸ hheld hp)⟩
      have hsequel : sequels sequel := by
        cases hl with
        | inline => exact hengine _
        | posted => exact hfinished
      exact .due_first (stack_withStack_self rfl hs _) hsequel
        (List.mem_map.mpr ⟨entry, hlive, rfl⟩) hkey
    · rcases hsound.entry_kept hstep hp' hentry with hkept | htakes
      · exact .waiting hu hengine hfinished hkept hkey
      · exact absurd htakes (hready.not_takesBack entry.1)
  | @due above below listeners sequel x hs habove hsequel hx hkey =>
    by_cases hu : u = t
    · subst hu
      rcases habove with rfl | rfl
      · -- the first listener of the frame is told
        rw [List.nil_append] at hs
        obtain ⟨⟨ticket, l⟩, rest, rfl⟩ := List.exists_cons_of_ne_nil (List.ne_nil_of_mem hx)
        have hl : l.script = [] := by
          rcases hready.own _ _ hs with hbare | ⟨_, hframe, -⟩
          · exact hbare (ticket, l) List.mem_cons_self
          · cases hframe
        rw [step_telling hs, hl] at hstep
        cases hstep
        rcases List.mem_cons.mp hx with rfl | hx
        · exact .told mem_deliveries_told hkey
        · have hs' := stack_withStack_self
            (n := m.record (.told ticket l.key l.name m.coordinator.phase u)) rfl hs
            ([.script .callback []] ++ .telling rest sequel :: below)
          exact .due hs' (.inr rfl) hsequel hx hkey
      · -- the callback of a view is over
        rw [List.singleton_append] at hs
        rw [step_script_nil hs] at hstep
        cases hstep
        exact .due_first (stack_withStack_self rfl hs _) hsequel hx hkey
    · exact .due ((hsound.restacked ht).others hu ▸ hs) habove hsequel hx hkey
  | told hd hkey => exact .told ((hsound.dealt ht).deliveries_subset hd) hkey

/-- Code that makes a call is not in the middle of telling views. -/
theorem poised (h : m.Accounted owner u sequels key) (hfree : m.isFree t = true) (call : Call) :
    (m.poised t call).Accounted owner u sequels key := by
  obtain ⟨hlt, hstack⟩ := stack_of_isFree hfree
  cases h with
  | waiting hu hengine hfinished hentry hkey => exact .waiting hu hengine hfinished hentry hkey
  | told hd hkey => exact .told hd hkey
  | @due above below listeners sequel x hs habove hsequel hx hkey =>
    by_cases hu : u = t
    · subst hu
      rcases hstack with hnil | ⟨origin, below', hs', horigin⟩
      · rw [hnil] at hs
        rcases habove with rfl | rfl <;> cases hs
      · rw [hs'] at hs
        rcases habove with rfl | rfl
        · cases hs
        · cases hs
          exact absurd rfl horigin
    · have hs' := stack_poised hlt call u
      rw [if_neg hu] at hs'
      exact .due (hs'.trans hs) habove hsequel hx hkey

theorem goes (h : m.Accounted owner u sequels key) (hsound : Sound initializer owner m)
    (hbare : Bare m) (hasked : ∀ call, asked = some call → call.IsBare)
    (hheld : m.coordinator.phase ≠ .started → key ∈ m.held) (hgoes : Goes m asked m') :
    m'.Accounted owner u sequels key := by
  cases hgoes with
  | stays => exact h
  | @steps t m' hstep => exact h.step hsound (hbare.ready t) hheld hstep
  | @calls t call m' heq hfree hstep =>
    exact (h.poised hfree call).step (hsound.poised hfree)
      (hbare.ready_poised hfree (hasked call heq)) hheld hstep

theorem beside (h : m.Accounted owner u sequels key) (hn : Beside m n) :
    n.Accounted owner u sequels key := by
  cases h with
  | waiting hu hengine hfinished hentry hkey =>
    exact .waiting hu hengine hfinished (hn.coordinator ▸ hentry) hkey
  | due hs habove hsequel hx hkey =>
    exact .due ((hn.stack u).trans hs) habove hsequel hx hkey
  | told hd hkey =>
    refine .told ?_ hkey
    rw [deliveries, hn.log]
    exact hd

end Accounted

/-- What `goes` keeps when a call registers a view before the engine runs. -/
theorem makes_register_early (hfree : m.isFree t = true) (hp : m.coordinator.phase ≠ .started)
    (l : Listener) :
    (m.makes t (.register l)).coordinator.registrants = m.coordinator.registrants.push l := by
  have hs := stack_poised (stack_of_isFree hfree).1 (.register l) t
  rw [if_pos rfl] at hs
  rw [makes, if_pos hfree, step_register hs hp]
  rfl

/-- The first step of a call that registers a view with a running engine: the view is due. -/
theorem makes_register_late (hfree : m.isFree t = true) (hp : m.coordinator.phase = .started)
    (l : Listener) :
    ∃ below, (m.makes t (.register l)).stack t
      = .telling [(.immediate m.served, l)] (.notified .caller m.served) :: below := by
  have hs := stack_poised (stack_of_isFree hfree).1 (.register l) t
  rw [if_pos rfl] at hs
  have hstep : (m.poised t (.register l)).step t
      = some ({ m.poised t (.register l) with served := m.served + 1 }.withStack t
        (.telling [(.immediate m.served, l)] (.notified .caller m.served)
          :: .script .caller [] :: m.stack t)) :=
    step_of_acts hs (.registerLate hp)
  rw [makes, if_pos hfree, hstep, Option.getD_some]
  exact ⟨_, stack_withStack_self rfl hs _⟩

/-- The thread has views left to tell in the call or the task that has started the engine. -/
def Completing (m : Machine σ E) (t : ThreadId) : Prop :=
  ∃ listeners sequel, .telling listeners sequel ∈ m.stack t ∧ listeners ≠ [] ∧
    ∀ origin n, sequel ≠ .notified origin n

/-- The thread is in the call that has registered a view with the running engine, as the one of
this number. -/
def Notifying (m : Machine σ E) (t : ThreadId) (number : Nat) : Prop :=
  ∃ listeners, .telling listeners (.notified .caller number) ∈ m.stack t

/-- A view that has been accounted for has been told once, when nobody is about to tell it. -/
theorem Accounted.count_eq_one {sequels : Sequel → Prop}
    (h : m.Accounted owner u sequels key) (hsound : Sound initializer owner m)
    (hp : m.coordinator.phase = .started) (honce : m.tally key ≤ 1)
    (hdone : ∀ listeners sequel, .telling listeners sequel ∈ m.stack u → listeners ≠ [] →
      ¬sequels sequel) : m.deliveries.countP (·.key == key) = 1 := by
  have hle : m.deliveries.countP (·.key == key) ≤ 1 := by
    rw [tally] at honce
    omega
  have hpos : 0 < m.deliveries.countP (·.key == key) := by
    cases h with
    | waiting _ _ _ hentry =>
      rw [hsound.entries_eq_nil hp] at hentry
      cases hentry
    | due hs _ hsequel hx =>
      refine absurd hsequel (hdone _ _ ?_ (List.ne_nil_of_mem hx))
      rw [hs]
      exact List.mem_append_right _ List.mem_cons_self
    | told hd hkey => exact List.countP_pos_iff.mpr ⟨_, hd, beq_iff_eq.mpr hkey⟩
  omega

end Machine

namespace Provider

open Machine

variable {p : Provider} {initializer : Initializer Host Engine} {owner : Owner} {key : Nat}

/-! ### What every move keeps -/

/-- No view is counted twice, and those that are still to come are not counted. -/
structure Counted (p : Provider) : Prop where
  once : ∀ key, p.machine.tally key ≤ 1
  fresh : ∀ key, p.session.nextKey ≤ key → p.machine.tally key = 0

/-- Only a new view uses up a number. -/
theorem nextKey_move (p : Provider) (x : Move) :
    p.session.nextKey ≤ (p.move x).session.nextKey := by
  cases x with
  | handOut kind =>
    exact Nat.le_of_eq (congrArg Session.nextKey (p.session_handOut kind)).symm
  | setDebugging t enable =>
    obtain ⟨host, heq⟩ := p.setDebugging_eq t enable
    exact Nat.le_of_eq (congrArg (·.session.nextKey) heq).symm
  | createView t name => exact Nat.le_add_right _ 2
  | _ => exact Nat.le_refl _

/-- The only listeners that a provider registers are its views. -/
theorem asked_register {x : Move} {l : Listener} (h : p.asked x = some (.register l)) :
    ∃ t name, x = .createView t name ∧ l = Behaviour.plain.listener p.session.nextKey name := by
  cases x with
  | createView t name =>
    cases h
    exact ⟨t, name, rfl, rfl⟩
  | ask t demand => cases demand <;> cases h
  | _ => cases h

theorem Counted.move (h : Counted p) (hbare : Bare p.machine)
    (hsound : Sound initializer owner p.machine) (x : Move) : Counted (p.move x) := by
  have hstep := (hbare.beside (p.beside_prepared x)).tally (sound_prepared hsound x) (p.goes_move x)
  have hsame := tally_beside (p.beside_prepared x)
  refine ⟨fun key => ?_, fun key hkey => ?_⟩
  · rcases hstep key with hle | ⟨l, hasked, rfl, hnew⟩
    · exact Nat.le_trans (hsame key ▸ hle) (h.once key)
    · -- the number of a new view has not been used
      obtain ⟨t, name, rfl, rfl⟩ := asked_register hasked
      rw [hnew, hsame]
      exact Nat.le_of_eq (congrArg (· + 1) (h.fresh _ (Nat.le_refl _)))
  · rcases hstep key with hle | ⟨l, hasked, rfl, hnew⟩
    · have hzero := h.fresh key (Nat.le_trans (p.nextKey_move x) hkey)
      exact Nat.le_zero.mp (hzero ▸ hsame key ▸ hle)
    · obtain ⟨t, name, rfl, rfl⟩ := asked_register hasked
      have hnext : p.session.nextKey + 2 ≤ p.session.nextKey := hkey
      omega

theorem counted_run (h : Counted p) (hbare : Bare p.machine)
    (hsound : Sound initializer owner p.machine) (moves : List Move) :
    Bare (p.run moves).machine ∧ Counted (p.run moves) :=
  (run_invariant (P := fun p => Bare p.machine ∧ Counted p) hsound ⟨hbare, h⟩
    (fun _ x hsound h => ⟨bare_move h.1 x, h.2.move h.1 hsound x⟩) moves).2

/-- Nobody gets hold of a view that has been dropped. -/
theorem held_move (hsound : Sound initializer owner p.machine) (x : Move)
    (hkey : key < p.session.nextKey) (h : key ∈ (p.move x).machine.held) :
    key ∈ (p.prepared x).held ∧ key ∈ p.machine.held := by
  have hprepared : key ∈ (p.prepared x).held := by
    have hsound' := sound_prepared hsound x
    have hgoes := p.goes_move x
    generalize (p.move x).machine = m at hgoes h
    cases hgoes with
    | stays => exact h
    | steps hstep => exact (turn_of_step hstep).held hsound'.initializer_ne_none h
    | calls _ hfree hstep =>
      exact (turn_of_step hstep).held (hsound'.poised hfree).initializer_ne_none h
  refine ⟨hprepared, ?_⟩
  cases x with
  | createView t name =>
    rcases List.mem_cons.mp hprepared with heq | hmem
    · exact absurd hkey (heq ▸ Nat.lt_irrefl _)
    · exact hmem
  | dropView gone => exact (List.mem_filter.mp hprepared).1
  | _ => exact hprepared

/-- A view that has been created has been told or is going to be, if it found the engine running
(`late`) or is still held. -/
structure Attended (late : Prop) (owner : Owner) (u : ThreadId) (sequels : Sequel → Prop)
    (key : Nat) (p : Provider) : Prop where
  bare : Bare p.machine
  known : key < p.session.nextKey
  started : late → p.machine.coordinator.phase = .started
  accounted : late ∨ key ∈ p.machine.held → p.machine.Accounted owner u sequels key

theorem Attended.move {late : Prop} {u : ThreadId} {sequels : Sequel → Prop}
    (h : Attended late owner u sequels key p) (hsound : Sound initializer owner p.machine)
    (x : Move) : Attended late owner u sequels key (p.move x) := by
  have hn := p.beside_prepared x
  have hsound' := sound_prepared hsound x
  refine ⟨bare_move h.bare x, Nat.lt_of_lt_of_le h.known (p.nextKey_move x), fun hlate => ?_,
    fun hwanted => ?_⟩
  · exact started_run hsound (h.started hlate) [x]
  · have hheld : ¬late → key ∈ (p.prepared x).held ∧ key ∈ p.machine.held := fun hlate =>
      held_move hsound x h.known (hwanted.resolve_left hlate)
    have hbefore : p.machine.Accounted owner u sequels key := by
      by_cases hlate : late
      · exact h.accounted (.inl hlate)
      · exact h.accounted (.inr (hheld hlate).2)
    refine (hbefore.beside hn).goes hsound' (h.bare.beside hn) (fun _ => p.isBare_asked x)
      (fun hp => ?_) (p.goes_move x)
    rw [hn.coordinator] at hp
    exact (hheld fun hlate => hp (h.started hlate)).1

/-! ### Main result -/

theorem attachCount_viewOf (p : Provider) (l : Listener) :
    (p.viewOf l).attachCount = p.machine.deliveries.countP (·.key == l.key) := by
  rw [viewOf, View.attachCount_afterTold, deliveries, List.countP_reverse, List.countP_filterMap]
  refine List.countP_congr fun e _ => ?_
  cases e <;> simp [Event.delivery?]

/-- Views are told when the engine runs, and not before. -/
theorem undelivered_run (hsound : Sound initializer owner p.machine)
    (h : p.machine.deliveries = []) (moves : List Move)
    (hp : (p.run moves).machine.coordinator.phase ≠ .started) :
    (p.run moves).machine.deliveries = [] := by
  refine run_keeps (P := fun c log => c.phase ≠ .started →
    (log.filterMap Event.delivery?).reverse = []) hsound ?_ (fun _ => h) moves hp
  intro n t m' hsound ht hnone hp'
  have hbefore : n.deliveries = [] := hnone fun hp => hp' (hsound.started_mono ht hp)
  show m'.deliveries = []
  cases hsound.dealt ht with
  | idle _ _ _ hd | registered _ _ _ hd | opened _ _ hd => rw [hd, hbefore]
  | told hs =>
    have hstarted := hsound.started_of_telling (hs ▸ List.mem_cons_self)
    exact absurd (hsound.started_mono ht hstarted) hp'

theorem counted_opening (config : Config) (change : VersionChange)
    (initializer : Initializer Host Engine) (ownership : Ownership) (files : FileSystem) :
    Counted (opening config change initializer ownership files) := by
  have hzero (key : Nat) :
      (opening config change initializer ownership files).machine.tally key = 0 := by
    cases ownership <;> rfl
  exact ⟨fun key => by rw [hzero]; exact Nat.zero_le _, fun key _ => hzero key⟩

theorem attended_run {late : Prop} {u : ThreadId} {sequels : Sequel → Prop}
    (h : Attended late owner u sequels key p) (hsound : Sound initializer owner p.machine)
    (moves : List Move) : Attended late owner u sequels key (p.run moves) :=
  (run_invariant (P := Attended late owner u sequels key) hsound h
    (fun _ x hsound h => h.move hsound x) moves).2

/-- A view that is created before the engine runs is queued. -/
theorem attended_early (hbare : Bare p.machine) {t : ThreadId}
    (hfree : p.machine.isFree t = true) (name : String)
    (hp : p.machine.coordinator.phase ≠ .started) :
    Attended False owner owner.thread (fun sequel => ∀ origin n, sequel ≠ .notified origin n)
      p.session.nextKey (p.move (.createView t name)) := by
  refine ⟨bare_move hbare _, Nat.lt_add_of_pos_right (Nat.succ_pos 1), nofun, fun _ => ?_⟩
  have hreg : (p.move (.createView t name)).machine.coordinator.registrants
      = p.machine.coordinator.registrants.push (Behaviour.plain.listener p.session.nextKey name) :=
    makes_register_early (m := p.prepared (.createView t name)) hfree hp _
  have hentry : (p.machine.coordinator.registrants.issued + 1,
      Behaviour.plain.listener p.session.nextKey name) ∈
      (p.move (.createView t name)).machine.coordinator.registrants.entries := by
    rw [hreg]
    exact List.mem_append_right _ List.mem_cons_self
  exact .waiting rfl (fun _ => nofun) nofun hentry rfl

/-- A view that is created when the engine runs is due at once. -/
theorem attended_late (hbare : Bare p.machine) (hsound : Sound initializer owner p.machine)
    {t : ThreadId} (hfree : p.machine.isFree t = true) (name : String)
    (hp : p.machine.coordinator.phase = .started) :
    Attended True owner t (· = .notified .caller p.machine.served)
      p.session.nextKey (p.move (.createView t name)) := by
  refine ⟨bare_move hbare _, Nat.lt_add_of_pos_right (Nat.succ_pos 1),
    fun _ => started_run hsound hp [.createView t name], fun _ => ?_⟩
  obtain ⟨below, hs⟩ := makes_register_late (m := p.prepared (.createView t name)) hfree hp
    (Behaviour.plain.listener p.session.nextKey name)
  exact .due_first hs rfl List.mem_cons_self rfl

/-- **Every view attaches exactly once.** Whatever threads do with a provider, and in whatever
order:
* a view is attached at most once, and it says that it is attached exactly when it has been;
* no view is attached as long as the engine has not been started, and none ever is once startup has
  failed;
* a view that found the engine not started is attached exactly once, if it is still held, when the
  engine runs and the call or task that started it has told its views;
* a view that found the engine started is attached exactly once when the call that creates it is
  over. -/
theorem views_attach_once (config : Config) (change : VersionChange)
    (initializer : Initializer Host Engine) (ownership : Ownership) (files : FileSystem)
    (moves : List Move) :
    let start := opening config change initializer ownership files
    let p := start.run moves
    (∀ l, (p.viewOf l).attachCount ≤ 1 ∧
      ((p.viewOf l).attached = true ↔ (p.viewOf l).attachCount = 1)) ∧
    (∀ l, p.coordinator.phase ≠ .started → (p.viewOf l).attachCount = 0) ∧
    (∀ before after reason, moves = before ++ after →
      (start.run before).coordinator.failure = some reason →
      ∀ l, (p.viewOf l).attachCount = 0) ∧
    ∀ before t name after, moves = before ++ .createView t name :: after →
      (start.run before).machine.isFree t = true →
      let q := start.run before
      let l := Behaviour.plain.listener q.session.nextKey name
      (q.coordinator.phase ≠ .started → p.coordinator.phase = .started →
        l.key ∈ p.machine.held → ¬p.machine.Completing ownership.owner.thread →
        (p.viewOf l).attachCount = 1) ∧
      (q.coordinator.phase = .started → ¬p.machine.Notifying t q.machine.served →
        (p.viewOf l).attachCount = 1) := by
  intro start p
  have hsound₀ := sound_opening config change initializer ownership files
  have hbare₀ := bare_opening config change initializer ownership files
  have hcounted₀ := counted_opening config change initializer ownership files
  have hsound (moves : List Move) := sound_run hsound₀ moves
  have hcounted (moves : List Move) := counted_run hcounted₀ hbare₀ hsound₀ moves
  have hnone (hp : p.coordinator.phase ≠ .started) (l : Listener) :
      (p.viewOf l).attachCount = 0 := by
    have hnil : start.machine.deliveries = [] := by cases ownership <;> rfl
    rw [attachCount_viewOf, undelivered_run hsound₀ hnil moves hp]
    rfl
  refine ⟨fun l => ?_, fun l hp => hnone hp l, ?_, ?_⟩
  · have hle : (p.viewOf l).attachCount ≤ 1 := by
      have honce : p.machine.tally l.key ≤ 1 := (hcounted moves).2.once l.key
      rw [tally] at honce
      rw [attachCount_viewOf]
      omega
    refine ⟨hle, ?_⟩
    rw [viewOf] at hle ⊢
    rw [View.attachCount_afterTold] at hle ⊢
    rw [View.attached_afterTold, decide_eq_true_eq]
    omega
  · rintro before after reason rfl hf l
    refine hnone (fun hp => ?_) l
    -- a failure stays, and a coordinator that has failed has not started
    have hfailed : p.coordinator.failure = some reason := by
      have := failure_run (hsound before) hf after
      rwa [← run_append] at this
    have hstage := (hsound (before ++ after)).inStage_of_failure hfailed
    exact absurd (hstage.1.symm.trans hp) nofun
  · rintro before t name after rfl hfree q l
    have hend : p = (q.move (.createView t name)).run after := run_append start before _
    have hsound' : Sound (config.starting initializer) ownership.owner
        (q.move (.createView t name)).machine := sound_move (hsound before) _
    have honce : p.machine.tally l.key ≤ 1 := (hcounted _).2.once l.key
    refine ⟨fun hq hp hheld hover => ?_, fun hq hover => ?_⟩
    · have h := attended_run (attended_early (hcounted before).1 hfree name hq)
        hsound' after
      rw [← hend] at h
      rw [attachCount_viewOf]
      refine (h.accounted (.inr hheld)).count_eq_one (hsound _) hp honce ?_
      exact fun listeners sequel hmem hne hsequel => hover ⟨listeners, sequel, hmem, hne, hsequel⟩
    · have h := attended_run (attended_late (hcounted before).1 (hsound before) hfree name hq)
        hsound' after
      rw [← hend] at h
      rw [attachCount_viewOf]
      refine (h.accounted (.inl trivial)).count_eq_one (hsound _) (h.started trivial) honce ?_
      rintro listeners sequel hmem - rfl
      exact hover ⟨listeners, hmem⟩

end Provider

end LazyEngine
