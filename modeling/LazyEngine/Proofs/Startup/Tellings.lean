/-
Where a delivery comes from.

What a thread tells now has a history in the schedule: some step opened the frame that tells it,
and if the listener had to wait, some earlier step registered it.

* `opened_of_telling` — a frame that tells listeners has lain on its stack since the step that
  opened it, and what is missing from it has been told;
* `delivered_by` — every delivery is made by a step of such a frame;
* `registers_of_entry` — what is queued in the registry was registered.

Design notes: a schedule is cut at the steps that matter, and the machine before a step is the run
of what comes before the cut. A frame is told apart from others by what lies below it and by how
its thread goes on after it (`HasLain`), because the listeners in it get fewer.
-/
import LazyEngine.Proofs.Startup.Tickets
import Mathlib.Data.List.Induction

namespace LazyEngine

namespace Machine

variable {σ E : Type} {m m' : Machine σ E} {t : ThreadId} {initializer : Initializer σ E}
  {owner : Owner}

/-- What a step makes of the frames that tell listeners: it keeps a frame, tells the first of its
listeners or opens it. -/
theorem Dealt.telling (h : Dealt m t m') {above below : List Frame}
    {listeners : List (Ticket × Listener)} {sequel : Sequel}
    (hs : m'.stack t = above ++ .telling listeners sequel :: below) :
    (∃ above', m.stack t = above' ++ .telling listeners sequel :: below) ∨
    (∃ ticket l, m.stack t = .telling ((ticket, l) :: listeners) sequel :: below ∧
      m'.deliveries = m.deliveries ++ [⟨ticket, l.key, l.name, m.coordinator.phase, t⟩]) ∨
    Opens m t m' listeners sequel below := by
  -- In each case we ask whether the frame was there before the step. Of the frames that the step
  -- has put on the stack, only one it has opened, or the rest of one it has told from, tells.
  cases h with
  | @idle pushed kept hs' hk hp =>
    left
    obtain ⟨front, hfront⟩ := hk
    rw [hs'] at hs
    rcases List.append_eq_append_iff.1 hs with ⟨rest, -, hrest⟩ | ⟨rest, hpushed, hrest⟩
    · exact ⟨front ++ rest, by rw [← hfront, hrest, List.append_assoc]⟩
    · -- the frame is not among the new ones
      cases rest with
      | nil => exact ⟨front, by rw [← hfront, ← List.nil_append kept, ← hrest]⟩
      | cons f rest =>
        obtain ⟨rfl, -⟩ := List.cons.inj hrest
        have hmem : .telling listeners sequel ∈ pushed :=
          hpushed ▸ List.mem_append_right _ List.mem_cons_self
        cases hp _ hmem
  | registered hs₀ hs₁ =>
    left
    rw [hs₁] at hs
    cases above with
    | nil => cases hs
    | cons f above =>
      obtain ⟨-, hbelow⟩ := List.cons.inj hs
      rw [hs₀, hbelow]
      exact ⟨_ :: above, rfl⟩
  | opened ho hs₁ =>
    rw [hs₁] at hs
    cases above with
    | nil =>
      -- The frame is the one on top: the step has opened it.
      obtain ⟨hframe, rfl⟩ := List.cons.inj hs
      cases hframe
      exact .inr (.inr ho)
    | cons f above =>
      left
      obtain ⟨-, hbelow⟩ := List.cons.inj hs
      cases ho with
      | completed hs₀ =>
        rw [hs₀, hbelow]
        exact ⟨_ :: above, rfl⟩
      | spared hs₀ =>
        rw [hs₀, hbelow]
        exact ⟨_ :: above, rfl⟩
      | immediate hs₀ =>
        rw [hs₀]
        cases above with
        | nil => cases hbelow
        | cons g above =>
          obtain ⟨-, hbelow⟩ := List.cons.inj hbelow
          rw [hbelow]
          exact ⟨_ :: above, rfl⟩
  -- Two frames are new: the script of the listener told, and under it the listeners left.
  | told hs₀ hs₁ hd =>
    rw [hs₁] at hs
    cases above with
    | nil => cases hs
    | cons f above =>
      obtain ⟨-, hs⟩ := List.cons.inj hs
      cases above with
      | nil =>
        obtain ⟨hframe, rfl⟩ := List.cons.inj hs
        cases hframe
        exact .inr (.inl ⟨_, _, hs₀, hd⟩)
      | cons g above =>
        left
        obtain ⟨-, hbelow⟩ := List.cons.inj hs
        rw [hs₀, hbelow]
        exact ⟨_ :: above, rfl⟩

/-- What has been told stays told. -/
theorem Dealt.deliveries_subset (h : Dealt m t m') {d : Delivery} (hd : d ∈ m.deliveries) :
    d ∈ m'.deliveries := by
  cases h with
  | idle _ _ _ heq | registered _ _ _ heq | opened _ _ heq => exact heq ▸ hd
  | told _ _ heq => exact heq ▸ List.mem_append_left _ hd

/-- Since its step after `first`, a thread has had a frame before it that tells listeners, with
these frames below it. -/
def HasLain (m : Machine σ E) (t : ThreadId) (sequel : Sequel) (below : List Frame)
    (first second : List ThreadId) : Prop :=
  ∀ part, part <+: second → ∃ above listeners,
    (m.run (first ++ t :: part)).stack t = above ++ .telling listeners sequel :: below

theorem HasLain.concat {sequel : Sequel} {below : List Frame} {first second : List ThreadId}
    (h : m.HasLain t sequel below first second) (u : ThreadId)
    (hs : ∃ above listeners, (m.run (first ++ t :: (second ++ [u]))).stack t
      = above ++ .telling listeners sequel :: below) :
    m.HasLain t sequel below first (second ++ [u]) := by
  intro part hpart
  rcases List.prefix_concat_iff.1 hpart with rfl | hpart
  · exact hs
  · exact h part hpart

/-- The history of a frame that tells listeners. -/
structure History (s : Setup σ E) (before : List ThreadId) (t : ThreadId)
    (listeners : List (Ticket × Listener)) (sequel : Sequel) (below : List Frame)
    (first second : List ThreadId) (all done : List (Ticket × Listener)) : Prop where
  cut : before = first ++ t :: second
  opens : ∃ m', (s.machine.run first).step t = some m' ∧
    Opens (s.machine.run first) t m' all sequel below
  lain : s.machine.HasLain t sequel below first second
  listeners : all = done ++ listeners
  told : ∀ x ∈ done, ⟨x.1, x.2.key, x.2.name, .started, t⟩ ∈ (s.machine.run before).deliveries

/-- A frame that tells listeners has lain on its stack since it was opened, and what is missing
from it has been told. -/
theorem opened_of_telling (s : Setup σ E) {before : List ThreadId} (above : List Frame)
    {below : List Frame}
    {listeners : List (Ticket × Listener)} {sequel : Sequel}
    (hs : (s.machine.run before).stack t = above ++ .telling listeners sequel :: below) :
    ∃ first second all done,
      History s before t listeners sequel below first second all done := by
  -- backwards along the schedule: before its last step the frame lay there, or was opened by it
  induction before using List.reverseRecOn generalizing above listeners with
  | nil =>
    rcases s.stack_machine t with h | ⟨-, -, h⟩ | ⟨calls, h⟩ <;>
    · rw [run, List.foldl_nil, h] at hs
      have hmem : Frame.telling listeners sequel ∈ above ++ .telling listeners sequel :: below :=
        List.mem_append_right _ List.mem_cons_self
      rw [← hs] at hmem
      simp at hmem
  | append_singleton before u ih =>
    have hrun := run_concat s.machine before u
    -- a step after which the frame lies there as before
    have later (above' : List Frame) {listeners' : List (Ticket × Listener)}
        (told : List (Ticket × Listener))
        (hs' : (s.machine.run before).stack t = above' ++ .telling listeners' sequel :: below)
        (hlisteners : listeners' = told ++ listeners)
        (hd : ∀ d ∈ (s.machine.run before).deliveries,
          d ∈ (s.machine.run (before ++ [u])).deliveries)
        (htold : ∀ x ∈ told, ⟨x.1, x.2.key, x.2.name, .started, t⟩
          ∈ (s.machine.run (before ++ [u])).deliveries) :
        ∃ first second all done,
          History s (before ++ [u]) t listeners sequel below first second all done := by
      obtain ⟨first, second, all, done, h⟩ := ih above' hs'
      have hcut : before ++ [u] = first ++ t :: (second ++ [u]) := by rw [h.cut]; simp
      refine ⟨first, second ++ [u], all, done ++ told, hcut, h.opens, h.lain.concat u ?_, ?_, ?_⟩
      · exact ⟨above, listeners, hcut ▸ hs⟩
      · rw [h.listeners, hlisteners, List.append_assoc]
      · intro x hx
        rcases List.mem_append.1 hx with hx | hx
        · exact hd _ (h.told x hx)
        · exact htold x hx
    cases hstep : (s.machine.run before).step u with
    | none =>
      rw [hstep] at hrun
      have hsame : s.machine.run (before ++ [u]) = s.machine.run before := hrun
      exact later above [] (hsame ▸ hs) rfl (fun d hd => hsame ▸ hd) (by simp)
    | some m' =>
      rw [hstep] at hrun
      have hm' : s.machine.run (before ++ [u]) = m' := hrun
      have hsound := sound_run s before
      have ht := turn_of_step hstep
      have hdealt := hsound.dealt ht
      have hd : ∀ d ∈ (s.machine.run before).deliveries,
          d ∈ (s.machine.run (before ++ [u])).deliveries := by
        rw [hm']
        exact fun d hd => hdealt.deliveries_subset hd
      by_cases hu : t = u
      · subst hu
        rw [hm'] at hs
        rcases hdealt.telling hs with ⟨above', hs'⟩ | ⟨ticket, l, hs', hnew⟩ | ho
        · exact later above' [] hs' rfl hd (by simp)
        · refine later [] [(ticket, l)] hs' rfl hd fun x hx => ?_
          have hstarted := hsound.started_of_telling (hs' ▸ List.mem_cons_self)
          rw [List.mem_singleton.1 hx, hm', hnew, hstarted]
          exact List.mem_append_right _ List.mem_cons_self
        · refine ⟨before, [], listeners, [], rfl, ⟨m', hstep, ho⟩, ?_, rfl, by simp⟩
          intro part hpart
          rw [List.prefix_nil.1 hpart, hm']
          exact ⟨above, listeners, hs⟩
      · have hsame : m'.stack t = (s.machine.run before).stack t := (hsound.restacked ht).others hu
        rw [hm', hsame] at hs
        exact later above [] hs rfl hd (by simp)

/-! ### Deliveries -/

/-- Every delivery is made by a step of a frame that tells listeners. -/
theorem delivered_by (s : Setup σ E) {schedule : List ThreadId} {d : Delivery}
    (hd : d ∈ (s.machine.run schedule).deliveries) :
    ∃ before after l listeners sequel below, schedule = before ++ d.thread :: after ∧
      (s.machine.run before).stack d.thread
        = .telling ((d.ticket, l) :: listeners) sequel :: below ∧
      d = ⟨d.ticket, l.key, l.name, .started, d.thread⟩ := by
  have hstart : d ∉ s.machine.deliveries := by
    intro hmem
    cases hmem
  obtain ⟨before, t, after, m', rfl, hnot, hs, hd'⟩ :=
    run_crossing (P := fun m => d ∈ m.deliveries) hstart hd
  have hsound := sound_run s before
  cases hsound.dealt (turn_of_step hs) with
  | idle _ _ _ heq | registered _ _ _ heq | opened _ _ heq => exact absurd (heq ▸ hd') hnot
  | @told ticket l listeners sequel below hs₀ _ heq =>
    rw [heq] at hd'
    rcases List.mem_append.1 hd' with hd' | hd'
    · exact absurd hd' hnot
    · obtain rfl := List.mem_singleton.1 hd'
      have hstarted := hsound.started_of_telling (hs₀ ▸ List.mem_cons_self)
      exact ⟨before, after, l, listeners, sequel, below, rfl, hs₀, by rw [hstarted]⟩

/-! ### Registrations -/

/-- The next step of a thread registers a listener. If the listener has to wait, the call returns
the number of the ticket. -/
def Registers (m : Machine σ E) (t : ThreadId) (l : Listener) (ticket : Ticket) : Prop :=
  ∃ origin calls below, m.stack t = .script origin (.register l :: calls) :: below ∧
    match ticket with
    | .pending id => ∃ m', m.step t = some m' ∧
        m'.log = .answered t origin (.registered (.pending id)) :: m.log
    | .immediate n => m.coordinator.phase = .started ∧ m.served = n

/-- The step that registers a listener before the engine runs. -/
theorem step_register {origin : Origin} {l : Listener} {calls : List Call} {below : List Frame}
    (hs : m.stack t = .script origin (.register l :: calls) :: below)
    (hp : m.coordinator.phase ≠ .started) :
    m.step t = some (({ m with coordinator := { m.coordinator with
        registrants := m.coordinator.registrants.push l } }.answer t origin
          (.registered (.pending (m.coordinator.registrants.issued + 1)))).withStack t
            (.script origin calls :: below)) :=
  step_of_acts hs (.registerEarly hp)

/-- What is queued in the registry was registered. -/
theorem registers_of_entry (s : Setup σ E) {schedule : List ThreadId} {id : RegistrationId}
    {l : Listener} (hmem : (id, l) ∈ (s.machine.run schedule).coordinator.registrants.entries) :
    ∃ before t after, schedule = before ++ t :: after ∧
      (s.machine.run before).Registers t l (.pending id) := by
  have hstart : (id, l) ∉ s.machine.coordinator.registrants.entries := by
    intro hmem
    cases hmem
  -- Some step of the run has put it there, and only a registration does.
  obtain ⟨before, t, after, m', rfl, hnot, hs, hmem'⟩ :=
    run_crossing (P := fun m => (id, l) ∈ m.coordinator.registrants.entries) hstart hmem
  refine ⟨before, t, after, rfl, ?_⟩
  have hsound := sound_run s before
  cases hsound.dealt (turn_of_step hs) with
  | idle _ _ _ _ _ _ hsub => exact absurd (hsub.subset hmem') hnot
  | told _ _ _ _ hc => exact absurd (hc ▸ hmem') hnot
  | opened ho =>
    cases ho with
    | completed _ _ _ _ hreg =>
      rw [hreg] at hmem'
      cases hmem'
    | spared _ hreg => exact absurd (hreg ▸ hmem') hnot
    | immediate _ _ hreg => exact absurd (hreg ▸ hmem') hnot
  | @registered origin l' calls below hs₀ _ hp _ _ hreg =>
    rw [hreg, Registry.entries_push] at hmem'
    rcases List.mem_append.1 hmem' with hmem' | hmem'
    · exact absurd hmem' hnot
    · cases List.mem_singleton.1 hmem'
      exact ⟨origin, calls, below, hs₀, _, step_register hs₀ hp, rfl⟩

/-- A ticket that has been given out. -/
def IsOut (m : Machine σ E) : Ticket → Prop
  | .pending id => id ≤ m.coordinator.registrants.issued
  | .immediate n => n < m.served

/-- A registration has a ticket that has not been given out, and gives it out. -/
theorem isOut_of_registers {l : Listener} {ticket : Ticket} (h : m.Registers t l ticket) :
    ¬ m.IsOut ticket ∧ ∃ m', m.step t = some m' ∧ m'.IsOut ticket := by
  obtain ⟨origin, calls, below, hs, hticket⟩ := h
  cases ticket with
  | pending id =>
    obtain ⟨m', hstep, hlog⟩ := hticket
    by_cases hp : m.coordinator.phase = .started
    · -- a registration that finds the engine running answers later
      cases (step_of_acts hs (.registerLate hp)).symm.trans hstep
      exact absurd hlog.symm (List.cons_ne_self _ _)
    · rw [step_register hs hp] at hstep
      cases hstep
      have hid : id = m.coordinator.registrants.issued + 1 := by
        have := (List.cons.inj hlog).1
        cases this
        rfl
      subst hid
      exact ⟨Nat.not_succ_le_self _, _, step_register hs hp, Nat.le_refl _⟩
  | immediate n =>
    obtain ⟨hp, rfl⟩ := hticket
    exact ⟨Nat.lt_irrefl _, _, step_of_acts hs (.registerLate hp), Nat.lt_succ_self _⟩

theorem Sound.isOut_mono (h : Sound initializer owner m) (ht : Turn m t m') {ticket : Ticket}
    (hout : m.IsOut ticket) : m'.IsOut ticket := by
  cases ticket with
  | pending id =>
    cases h.timeline ht with
    | dropped _ hissued => exact Nat.le_trans hout (Nat.le_of_eq hissued.symm)
    | issued _ hissued =>
      exact Nat.le_trans (Nat.le_succ_of_le hout) (Nat.le_of_eq hissued.symm)
  | immediate n => exact Nat.lt_of_lt_of_le hout (h.immediate ht).served

end Machine

end LazyEngine
