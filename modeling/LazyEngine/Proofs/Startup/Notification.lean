/-
Who is told that the engine has started, when, where and how often.

* `told_in_completion` — a listener that had to wait is told on the owner thread, inside the call
  or the startup task that started the engine;
* `told_at_once` — one that found the engine running has been told before its call returns;
* `withdrawn_run`, `dropped_run` — one that was taken back or dropped before the engine ran is
  never told;
* `notifications_served` — all of this for every run, whatever listeners do when they are told.

Design notes: what a listener does is a script like that of any thread, so it may register, take
back, start the engine or panic, and the step in which it does so is a step like others. A panic
drops the frame that was telling, so listeners are told at most once and not exactly once.
-/
import LazyEngine.Proofs.Startup.Tellings
import LazyEngine.Proofs.Startup.Agreement

namespace LazyEngine

namespace Machine

variable {σ E : Type} {m m' : Machine σ E} {t : ThreadId} {initializer : Initializer σ E}
  {owner : Owner}

/-! ### Listeners that had to wait -/

/-- How a listener that had to wait comes to be told: it is registered and the call returns its
number; then the owner thread starts the engine, in a call or in a startup task; then, while the
frame of that call or task is still on its stack, the owner thread tells it. -/
def ToldInCompletion (s : Setup σ E) (schedule : List ThreadId) (id : RegistrationId)
    (d : Delivery) : Prop :=
  ∃ (first second after : List ThreadId) (l : Listener) (f : Frame)
    (c : Coordinator σ E Listener) (sequel : Sequel) (below : List Frame)
    (rest : List (Ticket × Listener)),
    schedule = first ++ s.owner.thread :: (second ++ s.owner.thread :: after) ∧
    d = ⟨.pending id, l.key, l.name, .started, s.owner.thread⟩ ∧
    (∃ before t between, first = before ++ t :: between ∧
      (s.machine.run before).Registers t l (.pending id)) ∧
    (s.machine.run first).stack s.owner.thread = f :: below ∧
    (s.machine.run first).Launch s.owner.thread f c sequel ∧
    (s.machine.run first).coordinator.phase ≠ .started ∧
    (s.machine.run (first ++ [s.owner.thread])).coordinator.phase = .started ∧
    s.machine.HasLain s.owner.thread sequel below first second ∧
    (s.machine.run (first ++ s.owner.thread :: second)).stack s.owner.thread
      = .telling ((.pending id, l) :: rest) sequel :: below

theorem told_in_completion (s : Setup σ E) {schedule : List ThreadId} {id : RegistrationId}
    {d : Delivery} (hd : d ∈ (s.machine.run schedule).deliveries) (hid : d.ticket = .pending id) :
    ToldInCompletion s schedule id d := by
  obtain ⟨before, after, l, rest, sequel, below, rfl, hs, hd'⟩ := delivered_by s hd
  rw [hid] at hs hd'
  have hthread : d.thread = s.owner.thread :=
    (sound_run s before).eq_owner_of_pending (hs ▸ List.mem_cons_self) List.mem_cons_self rfl
  rw [hthread] at hs hd' ⊢
  obtain ⟨first, second, all, done, h⟩ := opened_of_telling s [] hs
  obtain ⟨m', hstep, hopens⟩ := h.opens
  have hmem : (.pending id, l) ∈ all := by
    rw [h.listeners]
    exact List.mem_append_right _ List.mem_cons_self
  have hnext : s.machine.run (first ++ [s.owner.thread]) = m' := run_of_step hstep []
  -- Only the frame of a completed startup has listeners with numbers in it.
  cases hopens with
  | spared => cases hmem
  | immediate => simp at hmem
  | @completed f c _ _ hs₀ hl hp hp' =>
    obtain ⟨⟨id', l'⟩, hlive, heq⟩ := List.mem_map.1 hmem
    cases heq
    have hentry := (List.mem_filter.1 hlive).1
    refine ⟨first, second, after, l', f, c, sequel, below, rest, by rw [h.cut]; simp, hd',
      registers_of_entry s hentry, hs₀, hl, hp, by rw [hnext]; exact hp', h.lain, ?_⟩
    rw [← h.cut]
    exact hs

/-! ### Listeners that found the engine running -/

/-- How a registration comes to return that its listener has been told: the registering thread has
told it since, while the call was on its stack. -/
def ToldAtOnce (s : Setup σ E) (before : List ThreadId) (t : ThreadId) (origin : Origin)
    (m' : Machine σ E) : Prop :=
  ∃ (first second : List ThreadId) (l : Listener) (n : Nat) (calls : List Call)
    (below : List Frame),
    before = first ++ t :: second ∧
    (s.machine.run first).stack t = .script origin (.register l :: calls) :: below ∧
    (s.machine.run first).Registers t l (.immediate n) ∧
    s.machine.HasLain t (.notified origin n) (.script origin calls :: below) first second ∧
    m'.stack t = .script origin calls :: below ∧
    (∀ d ∈ (s.machine.run first).deliveries, d.ticket ≠ .immediate n) ∧
    ⟨.immediate n, l.key, l.name, .started, t⟩ ∈ (s.machine.run before).deliveries

/-- Only a frame that has told all its listeners answers that they have been told. -/
theorem Turn.notified (h : Turn m t m')
    (hi : m.coordinator.Undecided → m.coordinator.initializer ≠ none) {origin : Origin}
    (hlog : m'.log = .answered t origin (.registered .notified) :: m.log) :
    ∃ n below, m.stack t = .telling [] (.notified origin n) :: below ∧ m'.stack t = below := by
  -- no other event is written by a step of another kind
  have absurd_of_log (events : List (Event E)) (hevents : m'.log = events ++ m.log)
      (hne : Event.answered t origin (.registered .notified) ∉ events) : False := by
    rw [hlog, ← List.singleton_append] at hevents
    have := List.append_cancel_right hevents
    exact hne (this ▸ List.mem_cons_self)
  have plain {n : Machine σ E} (ha : Alike m n) (hn : m'.log = n.log) : False := by
    obtain ⟨events, hevents, hplain⟩ := ha.log
    refine absurd_of_log events (hn.trans hevents) fun hmem => ?_
    have := hplain _ hmem
    cases this
  cases h with
  | quiet hq =>
    obtain ⟨n, stack, ha, rfl⟩ := hq.alike
    exact (plain ha rfl).elim
  | died _ _ ha => exact (plain ha rfl).elim
  | stuck hu hn => exact absurd hn (hi hu)
  | @told sequel below hs =>
    cases sequel with
    | notified origin' n =>
      cases (List.cons.inj hlog).1
      exact ⟨n, below, hs, stack_withStack_self rfl hs _⟩
    | engine => exact (absurd_of_log [_] rfl (by simp)).elim
    | finished => exact (absurd_of_log [] rfl (by simp)).elim
  | @failed _ _ sequel =>
    refine (absurd_of_log [_, _] rfl ?_).elim
    cases sequel <;> simp [failureEvent]
  | missed | looked | posted | joined | inspected | spared | skipped | registerLate | took =>
    exact (absurd_of_log [] rfl (by simp)).elim
  | glanced | late | poisoned | refused | started | woken | background | registerEarly | unregister
  | tell => exact (absurd_of_log [_] rfl (by simp)).elim

theorem told_at_once (s : Setup σ E) {before : List ThreadId} {origin : Origin}
    (hstep : (s.machine.run before).step t = some m')
    (hlog : m'.log = .answered t origin (.registered .notified) :: (s.machine.run before).log) :
    ToldAtOnce s before t origin m' := by
  have ht := turn_of_step hstep
  obtain ⟨n, below, hs, hs'⟩ := ht.notified (sound_run s before).initializer_ne_none hlog
  obtain ⟨first, second, all, done, h⟩ := opened_of_telling s [] hs
  obtain ⟨m₁, hstep₁, hopens⟩ := h.opens
  cases hopens with
  | completed _ hl => cases hl
  | @immediate _ l calls rest hs₀ hp =>
    -- The frame had one listener in it and is empty now: the listener has been told from it.
    have hdone : done = [(.immediate (s.machine.run first).served, l)] := by
      rw [h.listeners, List.append_nil]
    refine ⟨first, second, l, _, calls, rest, h.cut, hs₀, ⟨_, _, _, hs₀, hp, rfl⟩, h.lain, hs',
      ?_, ?_⟩
    · -- the ticket was not out when the listener was registered
      intro d hd hticket
      have huses := (usedOnce_run s first).fresh _ (Nat.le_refl _)
      have hzero : ((s.machine.run first).deliveries.map (·.ticket)).count
          (.immediate (s.machine.run first).served) = 0 := by
        rw [uses] at huses
        omega
      rw [List.count_eq_zero] at hzero
      exact hzero (List.mem_map.2 ⟨d, hd, hticket⟩)
    · exact h.told (_, l) (by rw [hdone]; exact List.mem_cons_self)

/-! ### Registrations that are taken back -/

/-- The next step of a thread takes a registration back, and the call returns that it was still
queued. -/
def TakesBack (m : Machine σ E) (t : ThreadId) (id : RegistrationId) : Prop :=
  ∃ origin calls below m', m.stack t = .script origin (.unregister id :: calls) :: below ∧
    m.step t = some m' ∧
    m'.log = .answered t origin (.unregistered (some true)) :: m.log

theorem step_unregister {origin : Origin} {id : RegistrationId} {calls : List Call}
    {below : List Frame} (hs : m.stack t = .script origin (.unregister id :: calls) :: below) :
    m.step t = some (({ m with coordinator := (m.coordinator.unregister id).2 }.answer t origin
      (.unregistered (m.coordinator.unregister id).1)).withStack t
        (.script origin calls :: below)) :=
  step_of_acts hs .unregister

theorem unregister_of_found {c : Coordinator σ E Listener} {id : RegistrationId}
    (h : (c.unregister id).1 = some true) :
    id ∈ c.registrants.entries.map (·.1) ∧
      (c.unregister id).2 = { c with registrants := c.registrants.remove id } := by
  unfold Coordinator.unregister at h ⊢
  split at h
  · rename_i hknows
    rw [if_pos hknows]
    refine ⟨?_, rfl⟩
    obtain ⟨entry, hmem, heq⟩ := List.any_eq_true.1 (Option.some.inj h)
    exact List.mem_map.2 ⟨entry, hmem, beq_iff_eq.1 heq⟩
  · cases h

/-- What a step does that takes a registration back: there was one, and it leaves the registry. -/
theorem TakesBack.removes {id : RegistrationId} (h : m.TakesBack t id) :
    id ∈ m.coordinator.registrants.entries.map (·.1) ∧ ∃ m', m.step t = some m' ∧
      m'.coordinator = { m.coordinator with registrants := m.coordinator.registrants.remove id } ∧
      m'.deliveries = m.deliveries := by
  obtain ⟨origin, calls, below, m', hs, hstep, hlog⟩ := h
  rw [step_unregister hs] at hstep
  cases hstep
  have hfound : (m.coordinator.unregister id).1 = some true := by
    have := (List.cons.inj hlog).1
    injection this with _ _ hanswer
    injection hanswer
  obtain ⟨hmem, hc⟩ := unregister_of_found hfound
  exact ⟨hmem, _, step_unregister hs, hc, deliveries_of_log [_] rfl (by simp [Event.delivery?])⟩

theorem TakesBack.mem_timeline {id : RegistrationId} (h : m.TakesBack t id) :
    id ∈ m.timeline owner :=
  List.mem_append_right _ (List.mem_append_right _ h.removes.1)

theorem TakesBack.phase_ne {id : RegistrationId} (h : m.TakesBack t id)
    (hsound : Sound initializer owner m) : m.coordinator.phase ≠ .started := by
  intro hp
  have hmem := h.removes.1
  rw [hsound.entries_eq_nil hp] at hmem
  cases hmem

theorem TakesBack.withdrawn {id : RegistrationId} (h : m.TakesBack t id)
    (hsound : Sound initializer owner m) (hi : InOrder owner m) :
    ∃ m', m.step t = some m' ∧ Withdrawn owner id m' := by
  obtain ⟨hmem, m', hstep, hc, hd⟩ := h.removes
  have hphase : m'.coordinator.phase ≠ .started := by
    rw [hc]
    exact h.phase_ne hsound
  have hdue : m'.due owner.thread = [] := (hsound.step (turn_of_step hstep)).due_eq_nil hphase
  refine ⟨m', hstep, ?_, fun hid => ?_⟩
  · rw [hc]
    exact hi.issued id h.mem_timeline
  · rw [timeline, hd, hdue, hc] at hid
    rcases List.mem_append.1 hid with hid | hid
    · -- what has been told has a lower number than what was queued
      have hincreasing := hi.increasing
      rw [timeline, List.pairwise_append] at hincreasing
      have := hincreasing.2.2 id hid id (List.mem_append_right _ hmem)
      exact Nat.lt_irrefl _ this
    · obtain ⟨entry, hentry, rfl⟩ := List.mem_map.1 hid
      have := (List.mem_filter.1 hentry).2
      simp at this

/-- A registration that is taken back stays out for the rest of the run. -/
theorem withdrawn_run (s : Setup σ E) {before : List ThreadId} {id : RegistrationId}
    (h : (s.machine.run before).TakesBack t id) (after : List ThreadId) :
    Withdrawn s.owner id (s.machine.run (before ++ t :: after)) := by
  have hsound := sound_run s before
  obtain ⟨m', hstep, hw⟩ := h.withdrawn hsound (inOrder_run s before)
  rw [run_of_step hstep]
  exact sound_invariant (P := Withdrawn s.owner id) (hsound.step (turn_of_step hstep)) hw
    (fun _ _ _ h ht hw => hw.step (h.timeline ht)) after

/-! ### Listeners that are dropped -/

/-- A listener that was dropped before the engine ran: it has not been told and will not be told
for having waited. -/
structure Dropped (key : Nat) (m : Machine σ E) : Prop where
  held : m.coordinator.phase ≠ .started → key ∉ m.held
  due : ∀ u, ∀ x ∈ m.due u, x.1.id?.isSome = true → x.2.key ≠ key
  told : ∀ d ∈ m.deliveries, d.ticket.id?.isSome = true → d.key ≠ key

theorem Dropped.step {key : Nat} (hk : Dropped key m) (h : Sound initializer owner m)
    (ht : Turn m t m') : Dropped key m' := by
  have hheld : m'.coordinator.phase ≠ .started → key ∉ m'.held := fun hp hmem =>
    hk.held (fun hstarted => hp (h.started_mono ht hstarted)) (ht.held h.initializer_ne_none hmem)
  -- only what is due on the thread of the step has to be looked at
  have hdue (hown : ∀ x ∈ m'.due t, x.1.id?.isSome = true → x.2.key ≠ key) :
      ∀ u, ∀ x ∈ m'.due u, x.1.id?.isSome = true → x.2.key ≠ key := by
    intro u x hx
    by_cases hu : u = t
    · exact hown x (hu ▸ hx)
    · exact hk.due u x (due_eq_of_ne (h.restacked ht) hu ▸ hx)
  cases h.dealt ht with
  | idle hs hkept hp hd =>
    refine ⟨hheld, hdue fun x hx => ?_, fun d hmem => hk.told d (hd ▸ hmem)⟩
    exact hk.due t x ((due_sublist hs hkept hp).subset hx)
  | registered hs hs' _ hd =>
    refine ⟨hheld, hdue fun x hx => ?_, fun d hmem => hk.told d (hd ▸ hmem)⟩
    exact hk.due t x (due_of_script hs hs' ▸ hx)
  | opened ho hs hd =>
    refine ⟨hheld, hdue fun x hx hpending => ?_, fun d hmem => hk.told d (hd ▸ hmem)⟩
    rw [ho.due_eq hs] at hx
    rcases List.mem_append.1 hx with hx | hx
    · cases ho with
      | spared => cases hx
      | immediate =>
        obtain rfl := List.mem_singleton.1 hx
        cases hpending
      | completed _ _ hphase =>
        -- the registry hands over only listeners that somebody holds
        obtain ⟨entry, hlive, rfl⟩ := List.mem_map.1 hx
        have halive := (List.mem_filter.1 hlive).2
        rintro rfl
        exact hk.held hphase (List.contains_iff_mem.1 halive)
    · exact hk.due t x hx hpending
  | @told ticket l listeners sequel below hs hs' hd =>
    have hfirst := due_of_telling hs hs'
    refine ⟨hheld, hdue fun x hx => ?_, fun d hmem hpending => ?_⟩
    · refine hk.due t x ?_
      rw [hfirst]
      exact List.mem_cons_of_mem _ hx
    · rw [hd] at hmem
      rcases List.mem_append.1 hmem with hmem | hmem
      · exact hk.told d hmem hpending
      · obtain rfl := List.mem_singleton.1 hmem
        refine hk.due t (ticket, l) ?_ hpending
        rw [hfirst]
        exact List.mem_cons_self

/-- Nobody has been told before the engine runs. -/
theorem deliveries_eq_nil (s : Setup σ E) {schedule : List ThreadId}
    (hp : (s.machine.run schedule).coordinator.phase ≠ .started) :
    (s.machine.run schedule).deliveries = [] := by
  rw [List.eq_nil_iff_forall_not_mem]
  intro d hd
  obtain ⟨before, after, l, listeners, sequel, below, rfl, hs, -⟩ := delivered_by s hd
  have hsound := sound_run s before
  have hstarted := hsound.started_of_telling (hs ▸ List.mem_cons_self)
  rw [run_append] at hp
  refine hp (sound_invariant (P := fun m => m.coordinator.phase = .started) hsound hstarted ?_ _)
  exact fun _ _ _ h ht hp => h.started_mono ht hp

theorem dropped_run (s : Setup σ E) {before after : List ThreadId} {key : Nat}
    (hp : (s.machine.run before).coordinator.phase ≠ .started)
    (hk : key ∉ (s.machine.run before).held) :
    Dropped key (s.machine.run (before ++ after)) := by
  have hsound := sound_run s before
  rw [run_append]
  refine sound_invariant (P := Dropped key) hsound ?_ (fun _ _ _ h ht hk => hk.step h ht) after
  refine ⟨fun _ => hk, fun u x hx => ?_, fun d hd => ?_⟩
  · rw [hsound.due_eq_nil hp] at hx
    cases hx
  · rw [deliveries_eq_nil s hp] at hd
    cases hd

/-! ### All of it -/

/-- No two registrations of a run have the same ticket. -/
theorem registers_differ (s : Setup σ E) {first second : List ThreadId} {u : ThreadId}
    {l l' : Listener} {ticket : Ticket} (h : (s.machine.run first).Registers t l ticket) :
    ¬ (s.machine.run (first ++ t :: second)).Registers u l' ticket := by
  intro h'
  obtain ⟨-, m', hstep, hout⟩ := isOut_of_registers h
  have hsound := (sound_run s first).step (turn_of_step hstep)
  have hstill : (m'.run second).IsOut ticket :=
    sound_invariant (P := fun m => m.IsOut ticket) hsound hout
      (fun _ _ _ h ht hout => h.isOut_mono ht hout) second
  rw [← run_of_step hstep] at hstill
  exact (isOut_of_registers h').1 hstill

/-- A call for the engine that a listener makes when it is told. -/
theorem Sound.ensureStarted_in_callback (h : Sound initializer owner m) {origin : Origin}
    {claim : Claim} {calls : List Call} {below : List Frame}
    (hs : m.stack t = .script origin (.ensureStarted claim :: calls) :: below)
    (htells : ∃ f ∈ below, f.tells = true) :
    ∃ e, m.coordinator.engine = some e ∧
      m.step t = some ((m.answer t origin (.engine (.ok e))).withStack t
        (.script origin calls :: below)) := by
  obtain ⟨f, hf, htell⟩ := htells
  cases f with
  | telling listeners sequel =>
    have hmem : .telling listeners sequel ∈ m.stack t := hs ▸ List.mem_cons_of_mem _ hf
    obtain ⟨e, he⟩ := h.started_iff.1 (h.started_of_telling hmem)
    exact ⟨e, he, step_ensureStarted he hs⟩
  | _ => cases htell

/-- **Listeners are told in time, in turn, in place and at most once.** In every run, whatever
listeners do when they are told:

* every registration has a ticket of its own, nobody is told twice for one ticket, and nobody is
  told in another phase than `started`;
* listeners that had to wait are told in the order of their numbers, each on the owner thread and
  inside the call or startup task that started the engine;
* a call that returns that its listener has been told has told it, on its own thread;
* a registration is taken back at most once and only before the engine runs, and is not told then;
* a listener that is dropped before the engine runs is not told for having waited;
* a call for the engine that is made while a listener is told returns the engine in its first
  step. -/
theorem notifications_served (s : Setup σ E) (schedule : List ThreadId) :
    let m := s.machine.run schedule
    ((m.deliveries.map (·.ticket)).Nodup ∧ (∀ d ∈ m.deliveries, d.phase = .started) ∧
      ∀ first second after t u l l' ticket, schedule = first ++ t :: (second ++ u :: after) →
        (s.machine.run first).Registers t l ticket →
        ¬ (s.machine.run (first ++ t :: second)).Registers u l' ticket) ∧
    ((m.deliveries.filterMap (·.ticket.id?)).Pairwise (· < ·) ∧
      ∀ d ∈ m.deliveries, ∀ id, d.ticket = .pending id → ToldInCompletion s schedule id d) ∧
    (∀ before t after origin m', schedule = before ++ t :: after →
      (s.machine.run before).step t = some m' →
      m'.log = .answered t origin (.registered .notified) :: (s.machine.run before).log →
      ToldAtOnce s before t origin m') ∧
    (∀ before t after id, schedule = before ++ t :: after →
      (s.machine.run before).TakesBack t id →
      (s.machine.run before).coordinator.phase ≠ .started ∧
      (∀ d ∈ m.deliveries, d.ticket ≠ .pending id) ∧
      ∀ middle u rest, after = middle ++ u :: rest →
        ¬ (s.machine.run (before ++ t :: middle)).TakesBack u id) ∧
    (∀ before after key, schedule = before ++ after →
      (s.machine.run before).coordinator.phase ≠ .started →
      key ∉ (s.machine.run before).held →
      ∀ d ∈ m.deliveries, d.key = key → ∃ n, d.ticket = .immediate n) ∧
    ∀ t origin claim calls below,
      m.stack t = .script origin (.ensureStarted claim :: calls) :: below →
      (∃ f ∈ below, f.tells = true) →
      ∃ e, m.coordinator.engine = some e ∧
        m.step t = some ((m.answer t origin (.engine (.ok e))).withStack t
          (.script origin calls :: below)) := by
  intro m
  have hsound : Sound s.initializer s.owner m := sound_run s schedule
  have hincreasing := (inOrder_run s schedule).increasing
  refine ⟨⟨nodup_tickets s schedule, ?started, ?differ⟩, ⟨?order, ?place⟩, ?immediate, ?takenBack,
    ?dropped, ?nested⟩
  case started =>
    intro d hd
    obtain ⟨_, _, _, _, _, _, _, _, heq⟩ := delivered_by s hd
    rw [heq]
  case differ =>
    intro first second after t u l l' ticket _ h
    exact registers_differ s h
  case order =>
    -- what has been told begins the timeline, in which numbers increase
    rw [timeline, List.pairwise_append] at hincreasing
    exact hincreasing.1
  case place =>
    intro d hd id hid
    exact told_in_completion s hd hid
  case immediate =>
    intro before t after origin m' _ hstep hlog
    exact told_at_once s hstep hlog
  case takenBack =>
    rintro before t after id rfl htakes
    refine ⟨htakes.phase_ne (sound_run s before), fun d hd hticket => ?_, ?_⟩
    · -- its number has left the timeline, and no later step puts it back
      refine (withdrawn_run s htakes after).2 (List.mem_append_left _ ?_)
      exact List.mem_filterMap.2 ⟨d, hd, by rw [hticket]; rfl⟩
    · -- to be taken back again it would have to be there still
      rintro middle u rest rfl hagain
      exact (withdrawn_run s htakes middle).2 hagain.mem_timeline
  case dropped =>
    -- a listener that nobody holds is told only where its registration hands it over
    rintro before after key rfl hp hk d hd hkey
    cases hticket : d.ticket with
    | immediate n => exact ⟨n, rfl⟩
    | pending id =>
      exact absurd hkey ((dropped_run s hp hk).told d hd (by rw [hticket]; rfl))
  case nested =>
    intro t origin claim calls below hs htells
    exact hsound.ensureStarted_in_callback hs htells

/-! One listener comes before the engine and one after it. -/

example :
    let s : Setup Unit Nat :=
      { initializer := fun host => (.engine 7, host)
        host := ()
        owner := ⟨0, none⟩
        held := [1, 2]
        scripts := [[.register (.mk 1 "early" [.ensureStarted .none]), .ensureStarted .owner,
          .register (.mk 2 "late" [])]] }
    (s.machine.run (List.replicate 14 0)).deliveries
      = [⟨.pending 1, 1, "early", .started, 0⟩, ⟨.immediate 0, 2, "late", .started, 0⟩] := by
  decide +kernel

end Machine

end LazyEngine
