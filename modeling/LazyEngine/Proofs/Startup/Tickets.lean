/-
No ticket is used twice, and tickets are served in their order.

Every registration has a ticket: a number from the registry if it has to wait, a number of its own
if the engine is running already. A ticket is queued, then due on some stack, then told, and a step
moves it one place on or drops it:

* `timeline`, `Sound.timeline` — the waiting tickets that are told, due and queued, in this order,
  are an increasing list, and a step adds at most the next number at its end;
* `Sound.immediate` — an immediate ticket is due or told at most once;
* `nodup_tickets` — so nobody is told twice for one ticket;
* `Withdrawn` — a number that has been taken out of the registry does not come back.

Design notes: what is told, due and queued is kept in one list because a ticket leaves one part at
the moment it joins the next. Immediate tickets are due on any thread, so they are counted over all
stacks instead.
-/
import LazyEngine.Proofs.Startup.Deliveries
import LazyEngine.Proofs.Startup.Progress

namespace LazyEngine

/-- Telling for a number is telling for the ticket with that number. -/
theorem count_pending (tickets : List Ticket) (id : RegistrationId) :
    tickets.count (.pending id) = (tickets.filterMap Ticket.id?).count id := by
  induction tickets with
  | nil => rfl
  | cons ticket rest ih =>
    cases ticket with
    | pending id' =>
      show _ = (id' :: rest.filterMap Ticket.id?).count id
      rw [List.count_cons, List.count_cons, ih]
      simp
    | immediate n =>
      rw [List.filterMap_cons_none rfl, List.count_cons, ih]
      simp

namespace Machine

variable {σ E : Type} {m m' : Machine σ E} {t : ThreadId} {initializer : Initializer σ E}
  {owner : Owner}

/-! ### What is due -/

theorem due_eq_of_ne (hr : Restacked m t m') {u : ThreadId} (hu : u ≠ t) : m'.due u = m.due u := by
  rw [due, due, hr.others hu]

/-- A step does to what is due on any thread what it does on its own, or nothing. -/
theorem Restacked.due {R : List (Ticket × Listener) → List (Ticket × Listener) → Prop}
    (hr : Restacked m t m') (hrefl : ∀ l, R l l) (hown : R (m'.due t) (m.due t)) (u : ThreadId) :
    R (m'.due u) (m.due u) := by
  by_cases hu : u = t
  · subst hu
    exact hown
  · rw [due_eq_of_ne hr hu]
    exact hrefl _

/-- Going on in a script changes nothing about what is due. -/
theorem due_of_script {origin : Origin} {c : Call} {calls : List Call} {below : List Frame}
    (hs : m.stack t = .script origin (c :: calls) :: below)
    (hs' : m'.stack t = .script origin calls :: below) : m'.due t = m.due t := by
  rw [due, due, hs, hs']
  rfl

/-- Telling the first listener of a frame leaves the others due. -/
theorem due_of_telling {ticket : Ticket} {l : Listener} {listeners : List (Ticket × Listener)}
    {sequel : Sequel} {origin : Origin} {calls : List Call} {below : List Frame}
    (hs : m.stack t = .telling ((ticket, l) :: listeners) sequel :: below)
    (hs' : m'.stack t = .script origin calls :: .telling listeners sequel :: below) :
    m.due t = (ticket, l) :: m'.due t := by
  rw [due, due, hs, hs']
  rfl

theorem due_sublist {pushed kept : List Frame} (hs : m'.stack t = pushed ++ kept)
    (hk : kept <:+ m.stack t) (hp : ∀ f ∈ pushed, f.tells = false) :
    (m'.due t).Sublist (m.due t) := by
  obtain ⟨front, hfront⟩ := hk
  rw [due, due, hs, ← hfront, List.flatMap_append, List.flatMap_append,
    Frame.flatMap_dues_eq_nil hp, List.nil_append]
  exact List.sublist_append_right ..

theorem Opens.due_eq {listeners : List (Ticket × Listener)} {sequel : Sequel}
    {below : List Frame} (h : Opens m t m' listeners sequel below)
    (hs : m'.stack t = .telling listeners sequel :: below) :
    m'.due t = listeners ++ m.due t := by
  have hnew : m'.due t = listeners ++ below.flatMap Frame.dues := by
    rw [due, hs, List.flatMap_cons, Frame.dues]
  rw [hnew]
  cases h with
  | completed hs' hl => cases hl <;> rw [due, hs', List.flatMap_cons] <;> rfl
  | spared hs' =>
    rw [due, hs', List.flatMap_cons]
    rfl
  | immediate hs' =>
    rw [due, hs', List.flatMap_cons, List.flatMap_cons]
    rfl

/-- Nothing is due before the engine runs. -/
theorem Sound.due_eq_nil (h : Sound initializer owner m) (hp : m.coordinator.phase ≠ .started) :
    m.due t = [] := by
  refine Frame.flatMap_dues_eq_nil fun f hf => ?_
  cases f with
  | telling listeners sequel => exact absurd (h.started_of_telling hf) hp
  | _ => rfl

theorem ids_queue (listeners : List (RegistrationId × Listener)) :
    (queue listeners).filterMap (·.1.id?) = listeners.map (·.1) := by
  rw [queue, List.filterMap_map]
  exact congrFun (List.filterMap_eq_map (f := fun l : RegistrationId × Listener => l.1)) listeners

/-! ### Waiting tickets -/

/-- The numbers of the registrations that have had to wait: those that have been told, those that
the owner thread is going to tell, and those that are queued. -/
def timeline (m : Machine σ E) (owner : Owner) : List RegistrationId :=
  m.deliveries.filterMap (·.ticket.id?) ++
    ((m.due owner.thread).filterMap (·.1.id?) ++ m.coordinator.registrants.entries.map (·.1))

/-- What a step does to the timeline: it may take numbers out, or it puts the next one at the
end. -/
inductive Advances (owner : Owner) (m m' : Machine σ E) : Prop where
  | dropped : (m'.timeline owner).Sublist (m.timeline owner) →
      m'.coordinator.registrants.issued = m.coordinator.registrants.issued → Advances owner m m'
  | issued : m'.timeline owner = m.timeline owner ++ [m.coordinator.registrants.issued + 1] →
      m'.coordinator.registrants.issued = m.coordinator.registrants.issued + 1 →
      Advances owner m m'

theorem Advances.of_eq (h : m'.timeline owner = m.timeline owner)
    (hissued : m'.coordinator.registrants.issued = m.coordinator.registrants.issued) :
    Advances owner m m' :=
  .dropped (h ▸ List.Sublist.refl _) hissued

/-- A listener that had to wait is told on the owner thread. -/
theorem Sound.eq_owner_of_pending (h : Sound initializer owner m) {ticket : Ticket} {l : Listener}
    {listeners : List (Ticket × Listener)} {sequel : Sequel}
    (hmem : .telling listeners sequel ∈ m.stack t) (hx : (ticket, l) ∈ listeners)
    (hp : ticket.id?.isSome = true) : t = owner.thread := by
  refine Owner.isCurrent_iff.1 (h.ownerOnly t _ hmem ?_)
  rw [Frame.isOwners, List.any_eq_true]
  exact ⟨(ticket, l), hx, hp⟩

theorem Sound.timeline (h : Sound initializer owner m) (ht : Turn m t m') :
    Advances owner m m' := by
  have hr := h.restacked ht
  cases h.dealt ht with
  | @idle pushed kept hs hk hp hd _ hissued hentries =>
    refine .dropped ?_ hissued
    have hdue : (m'.due owner.thread).Sublist (m.due owner.thread) :=
      hr.due List.Sublist.refl (due_sublist hs hk hp) owner.thread
    rw [Machine.timeline, Machine.timeline, hd]
    exact (List.Sublist.refl _).append ((hdue.filterMap _).append (hentries.map _))
  | registered hs hs' _ hd _ hreg =>
    -- the next number goes to the end of the registry, which is the end of the timeline
    refine .issued ?_ (by rw [hreg, Registry.issued_push])
    have hdue : m'.due owner.thread = m.due owner.thread :=
      hr.due (fun _ => rfl) (due_of_script hs hs') owner.thread
    rw [Machine.timeline, Machine.timeline, hd, hdue, hreg, Registry.entries_push, List.map_append,
      List.append_assoc, List.append_assoc]
    rfl
  | opened ho hs hd =>
    have hdue := ho.due_eq hs
    cases ho with
    | @completed f c sequel below hs' hl hp _ hreg =>
      refine .dropped ?_ (by rw [hreg, Registry.issued_emptied])
      obtain rfl := h.isCurrent_of_launch hs' hl
      -- what was queued is due now, and nothing was due before
      rw [Machine.timeline, Machine.timeline, hd, hdue, h.due_eq_nil hp, hreg,
        Registry.entries_emptied, List.append_nil, ids_queue]
      simp only [List.map_nil, List.append_nil, List.filterMap_nil, List.nil_append]
      exact (List.Sublist.refl _).append (List.filter_sublist.map _)
    | spared _ hreg =>
      refine .of_eq ?_ (by rw [hreg])
      have hsame : m'.due owner.thread = m.due owner.thread :=
        hr.due (fun _ => rfl) hdue owner.thread
      rw [Machine.timeline, Machine.timeline, hd, hsame, hreg]
    | immediate _ _ hreg =>
      refine .of_eq ?_ (by rw [hreg])
      have hown : (m'.due t).filterMap (·.1.id?) = (m.due t).filterMap (·.1.id?) := by
        rw [hdue, List.cons_append, List.filterMap_cons_none rfl, List.nil_append]
      have hsame := hr.due (R := fun l l' => l.filterMap (·.1.id?) = l'.filterMap (·.1.id?))
        (fun _ => rfl) hown owner.thread
      rw [Machine.timeline, Machine.timeline, hd, hsame, hreg]
  | @told ticket l listeners sequel below hs hs' hd _ hc =>
    refine .of_eq ?_ (by rw [hc])
    have hdue := due_of_telling hs hs'
    rw [Machine.timeline, Machine.timeline, hd, hc, List.filterMap_append]
    by_cases ho : owner.thread = t
    · -- the number goes from what is due to what has been told
      rw [ho, hdue]
      cases ticket <;> simp [Ticket.id?]
    · cases hid : ticket.id? with
      | none => simp [hid, due_eq_of_ne hr ho]
      | some id =>
        have hpending : ticket.id?.isSome = true := by rw [hid]; rfl
        have := h.eq_owner_of_pending (hs ▸ List.mem_cons_self) List.mem_cons_self hpending
        exact absurd this.symm ho

/-- The waiting tickets are in order. -/
structure InOrder (owner : Owner) (m : Machine σ E) : Prop where
  increasing : (m.timeline owner).Pairwise (· < ·)
  issued : ∀ id ∈ m.timeline owner, id ≤ m.coordinator.registrants.issued

theorem InOrder.step (hi : InOrder owner m) (ha : Advances owner m m') : InOrder owner m' := by
  cases ha with
  | dropped hsub hissued =>
    refine ⟨hi.increasing.sublist hsub, fun id hid => ?_⟩
    rw [hissued]
    exact hi.issued id (hsub.subset hid)
  | issued heq hissued =>
    refine ⟨?_, fun id hid => ?_⟩
    · rw [heq, List.pairwise_append]
      refine ⟨hi.increasing, List.pairwise_singleton .., fun a ha b hb => ?_⟩
      rw [List.mem_singleton.1 hb]
      exact Nat.lt_succ_of_le (hi.issued a ha)
    · rw [heq] at hid
      rw [hissued]
      rcases List.mem_append.1 hid with hid | hid
      · exact Nat.le_succ_of_le (hi.issued id hid)
      · exact Nat.le_of_eq (List.mem_singleton.1 hid)

theorem inOrder_run (s : Setup σ E) (schedule : List ThreadId) :
    InOrder s.owner (s.machine.run schedule) := by
  refine run_invariant s (P := InOrder s.owner) ?_ (fun _ _ _ h ht hi => hi.step (h.timeline ht))
    schedule
  have hnil : s.machine.timeline s.owner = [] := by
    have hdue : s.machine.due s.owner.thread = [] := (sound_machine s).due_eq_nil nofun
    rw [timeline, hdue]
    rfl
  constructor
  · rw [hnil]
    exact List.Pairwise.nil
  · intro id hid
    rw [hnil] at hid
    cases hid

/-- A number that has been given out and is neither told nor due nor queued. -/
def Withdrawn (owner : Owner) (id : RegistrationId) (m : Machine σ E) : Prop :=
  id ≤ m.coordinator.registrants.issued ∧ id ∉ m.timeline owner

/-- A number that has been taken out does not come back. -/
theorem Withdrawn.step {id : RegistrationId} (hw : Withdrawn owner id m)
    (ha : Advances owner m m') : Withdrawn owner id m' := by
  obtain ⟨hissued, hnot⟩ := hw
  cases ha with
  | dropped hsub heq =>
    rw [Withdrawn, heq]
    exact ⟨hissued, fun hid => hnot (hsub.subset hid)⟩
  | issued heq hnext =>
    refine ⟨hnext ▸ Nat.le_succ_of_le hissued, fun hid => ?_⟩
    rw [heq] at hid
    rcases List.mem_append.1 hid with hid | hid
    · exact hnot hid
    · rw [List.mem_singleton.1 hid] at hissued
      exact Nat.not_succ_le_self _ hissued

/-! ### Immediate tickets -/

/-- How often an immediate ticket is due on a stack. -/
def owed (n : Nat) (stack : List Frame) : Nat :=
  ((stack.flatMap Frame.dues).map (·.1)).count (.immediate n)

/-- How often an immediate ticket has been told or is due on any thread. -/
def uses (m : Machine σ E) (n : Nat) : Nat :=
  (m.deliveries.map (·.ticket)).count (.immediate n) + total (owed n) m.threads

/-- A step changes a sum over all stacks by what it does to the one of its thread. -/
theorem Restacked.total (hr : Restacked m t m') (f : List Frame → Nat) :
    total f m'.threads + f (m.stack t) = total f m.threads + f (m'.stack t) := by
  obtain ⟨stack, hthreads⟩ := hr.threads
  obtain ⟨g, below, -, -, hs, -⟩ := hr.own
  have hlt := lt_length_of_stack hs
  have hold : m.threads[t]? = some (m.stack t) := by
    rw [Machine.stack, List.getElem?_eq_getElem hlt, Option.getD_some]
  have hnew : m'.stack t = stack := by
    rw [Machine.stack, hthreads, List.getElem?_set_self hlt, Option.getD_some]
  rw [hthreads, hnew]
  exact total_set f stack hold

/-- What a step does to the immediate tickets. -/
structure Serves (m m' : Machine σ E) : Prop where
  served : m.served ≤ m'.served
  uses : ∀ n, m'.uses n ≤ m.uses n ∨ n = m.served ∧ m'.served = m.served + 1 ∧
    m'.uses n = m.uses n + 1

theorem Sound.immediate (h : Sound initializer owner m) (ht : Turn m t m') : Serves m m' := by
  have htotal := fun n => (h.restacked ht).total (owed n)
  cases h.dealt ht with
  | idle hs hk hp hd hserved =>
    refine ⟨Nat.le_of_eq hserved.symm, fun n => .inl ?_⟩
    have hle : owed n (m'.stack t) ≤ owed n (m.stack t) := by
      have hsub := (due_sublist hs hk hp).map fun x : Ticket × Listener => x.1
      exact hsub.count_le (Ticket.immediate n)
    have := htotal n
    rw [uses, uses, hd]
    omega
  | registered hs hs' _ hd hserved =>
    refine ⟨Nat.le_of_eq hserved.symm, fun n => .inl ?_⟩
    have heq : owed n (m'.stack t) = owed n (m.stack t) := by
      have := due_of_script hs hs'
      rw [due, due] at this
      rw [owed, owed, this]
    have := htotal n
    rw [uses, uses, hd]
    omega
  | @opened listeners sequel below ho hs hd =>
    have hdue (n : Nat) : owed n (m'.stack t)
        = (listeners.map (·.1)).count (.immediate n) + owed n (m.stack t) := by
      have := ho.due_eq hs
      rw [due, due] at this
      rw [owed, owed, this, List.map_append, List.count_append]
    -- only a registration with a running engine makes an immediate ticket
    have old (hserved : m'.served = m.served)
        (hnone : ∀ n, (listeners.map (·.1)).count (.immediate n) = 0) : Serves m m' := by
      refine ⟨Nat.le_of_eq hserved.symm, fun n => .inl ?_⟩
      have h₁ := htotal n
      have h₂ := hdue n
      rw [hnone n] at h₂
      rw [uses, uses, hd]
      omega
    cases ho with
    | completed _ _ _ _ _ hserved =>
      refine old hserved fun n => ?_
      rw [List.count_eq_zero, queue, List.map_map]
      simp
    | spared _ _ hserved => exact old hserved fun n => rfl
    | immediate _ _ _ hserved =>
      refine ⟨by omega, fun n => ?_⟩
      have h₁ := htotal n
      have h₂ := hdue n
      rw [uses, uses, hd]
      by_cases hn : n = m.served
      · right
        rw [hn, List.map_cons, List.map_nil, List.count_singleton_self] at h₂
        rw [hn] at h₁ ⊢
        exact ⟨rfl, hserved, by omega⟩
      · left
        have hzero : ([(Ticket.immediate m.served)].count (Ticket.immediate n)) = 0 := by
          rw [List.count_eq_zero]
          simpa using hn
        rw [List.map_cons, List.map_nil, hzero] at h₂
        omega
  | @told ticket l listeners sequel below hs hs' hd hserved =>
    -- what is told now is not due any more
    refine ⟨Nat.le_of_eq hserved.symm, fun n => .inl ?_⟩
    have hdue : owed n (m.stack t) = owed n (m'.stack t) + [ticket].count (.immediate n) := by
      have := due_of_telling hs hs'
      rw [due, due] at this
      rw [owed, owed, this, List.map_cons, List.count_cons, List.count_singleton]
    have := htotal n
    rw [uses, uses, hd, List.map_append, List.count_append, List.map_singleton]
    dsimp only
    omega

/-- An immediate ticket is used at most once, and none is used that has not been given out. -/
structure UsedOnce (m : Machine σ E) : Prop where
  once : ∀ n, m.uses n ≤ 1
  fresh : ∀ n, m.served ≤ n → m.uses n = 0

theorem UsedOnce.step (hu : UsedOnce m) (hs : Serves m m') : UsedOnce m' := by
  refine ⟨fun n => ?_, fun n hn => ?_⟩
  · rcases hs.uses n with hle | ⟨rfl, -, heq⟩
    · exact Nat.le_trans hle (hu.once n)
    · exact Nat.le_of_eq (by rw [heq, hu.fresh _ (Nat.le_refl _)])
  · have hzero := hu.fresh n (Nat.le_trans hs.served hn)
    rcases hs.uses n with hle | ⟨rfl, hserved, -⟩
    · omega
    · omega

theorem usedOnce_run (s : Setup σ E) (schedule : List ThreadId) :
    UsedOnce (s.machine.run schedule) := by
  refine run_invariant s (P := UsedOnce) ?_ (fun _ _ _ h ht hu => hu.step (h.immediate ht)) schedule
  -- no stack tells anybody at the start
  have hzero (n : Nat) : s.machine.uses n = 0 := by
    have hthreads : ∀ stack ∈ s.machine.threads, owed n stack = 0 := by
      intro stack hmem
      obtain ⟨t, ht, rfl⟩ := List.mem_iff_getElem.1 hmem
      have hdue : s.machine.due t = [] := (sound_machine s).due_eq_nil nofun
      rw [due, Machine.stack, List.getElem?_eq_getElem ht, Option.getD_some] at hdue
      rw [owed, hdue]
      rfl
    have htotal : ∀ l : List (List Frame), (∀ stack ∈ l, owed n stack = 0) →
        total (owed n) l = 0 := by
      intro l
      induction l with
      | nil => exact fun _ => rfl
      | cons stack rest ih =>
        intro h
        rw [total_cons, h stack List.mem_cons_self,
          ih fun stack' h' => h stack' (List.mem_cons_of_mem _ h')]
    rw [uses, htotal _ hthreads]
    rfl
  exact ⟨fun n => by rw [hzero n]; exact Nat.zero_le _, fun n _ => hzero n⟩

/-- Nobody is told twice for one ticket. -/
theorem nodup_tickets (s : Setup σ E) (schedule : List ThreadId) :
    ((s.machine.run schedule).deliveries.map (·.ticket)).Nodup := by
  rw [List.nodup_iff_count]
  intro ticket
  cases ticket with
  | pending id =>
    have hincreasing := (inOrder_run s schedule).increasing
    rw [timeline, List.pairwise_append] at hincreasing
    have hnodup : ((s.machine.run schedule).deliveries.filterMap (·.ticket.id?)).Nodup :=
      hincreasing.1.imp fun h => Nat.ne_of_lt h
    rw [count_pending, List.filterMap_map]
    exact List.nodup_iff_count.1 hnodup id
  | immediate n =>
    have honce := (usedOnce_run s schedule).once n
    rw [uses] at honce
    omega

end Machine

end LazyEngine
