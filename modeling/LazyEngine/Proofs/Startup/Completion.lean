/-
The listeners that had to wait, down to the last of them.

The step that starts the engine takes the waiting listeners out of the registry, all at once, and
leaves a frame that tells them one after another. The registry cannot be asked again, so everything
depends on what becomes of that frame:

* `stack_of_step` — no step takes away what lies below the innermost frame, but a panic and the end
  of the loop;
* `Serving` — those told so far and those left are the listeners that waited, in their order;
* `waiting_listeners_told` — the frame stays until nobody is left, unless a panic comes out of a
  callback; whoever has been told has been told once, by the call or task that started the engine;
* `listener_lost` — after such a panic the rest are never told.

Design notes: the listeners left are found on the stack and the listeners told in the log. Nothing
else can be due to a listener that waited, because the waiting numbers that are told, due and queued
(`timeline`) never get more once the engine runs; so a count of them is all that has to be kept.
-/
import LazyEngine.Proofs.Startup.Decision
import LazyEngine.Proofs.Startup.Notification

namespace LazyEngine

/-- What is left of a stack after a panic. -/
def Landing.left : Landing → List Frame
  | caught below => below
  | _ => []

namespace Frame

theorem left_suffix (stack : List Frame) : (unwind stack).landing.left <:+ stack := by
  cases hl : (unwind stack).landing with
  | caught below => exact suffix_of_unwind hl
  | loop => exact List.nil_suffix ..
  | bottom => exact List.nil_suffix ..

/-- A panic ends at a guard in the upper part of a stack, or goes on in the lower part. -/
theorem left_append {above : List Frame} (rest : List Frame) (hserving : .serving ∉ above) :
    (∃ kept, kept <:+ above ∧ (unwind (above ++ rest)).landing.left = kept ++ rest) ∨
    .guard ∉ above ∧ (unwind (above ++ rest)).landing.left = (unwind rest).landing.left := by
  induction above with
  | nil => exact .inr ⟨List.not_mem_nil, rfl⟩
  | cons f above ih =>
    have hrest : .serving ∉ above := fun h => hserving (List.mem_cons_of_mem _ h)
    cases f with
    | guard => exact .inl ⟨above, List.suffix_cons .., rfl⟩
    | serving => exact absurd List.mem_cons_self hserving
    | _ =>
      -- the frame is no guard, so the panic passes it
      rcases ih hrest with ⟨kept, hk, hleft⟩ | ⟨hguard, hleft⟩
      · exact .inl ⟨kept, hk.trans (List.suffix_cons ..), hleft⟩
      · refine .inr ⟨fun h => ?_, hleft⟩
        rcases List.mem_cons.1 h with h | h
        · cases h
        · exact hguard h

end Frame

/-- The telling of a listener that is due, on a thread. -/
def Delivery.ofDue (t : ThreadId) (x : Ticket × Listener) : Delivery :=
  ⟨x.1, x.2.key, x.2.name, .started, t⟩

namespace Machine

variable {σ E : Type} {m m' : Machine σ E} {t u : ThreadId} {initializer : Initializer σ E}
  {owner : Owner}

/-! ### What a step leaves on its stack -/

/-- What lies below the innermost frame stays, unless that frame drops it. -/
theorem stack_of_step {f : Frame} {below : List Frame} (hs : m.stack t = f :: below)
    (hstep : m.step t = some m') :
    f.drops = true ∨
      ∃ pushed, m'.stack t = pushed ++ below ∧ (.serving ∈ pushed → f = .serving) := by
  by_cases hf : f.drops = true
  · exact .inl hf
  · obtain ⟨pushed, events, n, ha, rfl⟩ := acts_of_step hs (Bool.eq_false_iff.2 hf) hstep
    exact .inr ⟨pushed, stack_withStack_self ha.threads hs _, ha.eq_serving⟩

/-- What a panic leaves of the frames that it finds. -/
theorem stack_panic {f : Frame} {below : List Frame} (hs : m.stack t = f :: below)
    (message : String) (stack : List Frame) :
    (m.panic t message stack).stack t = (Frame.unwind stack).landing.left := by
  unfold panic
  dsimp only
  split <;> rename_i hl
  all_goals
    rw [hl]
    exact stack_withStack_self rfl hs _

/-- What a panic leaves on the stack of its thread. -/
theorem stack_of_panic {origin : Origin} {message : String} {calls : List Call}
    {below : List Frame} (hs : m.stack t = .script origin (.panic message :: calls) :: below)
    (h : m.step t = some m') : m'.stack t = (Frame.unwind below).landing.left := by
  cases (step_of_panic hs).symm.trans h
  exact stack_panic hs message _

/-- A frame that lies below others stays where it is, but for a panic that escapes from those
others. -/
theorem step_above {f g : Frame} {above below : List Frame}
    (hstep : m.step t = some m') (hs : m.stack t = f :: (above ++ g :: below))
    (hserving : .serving ∉ f :: above) :
    (∃ above', m'.stack t = above' ++ g :: below ∧ .serving ∉ above') ∨
      (∃ origin message calls, f = .script origin (.panic message :: calls)) ∧ .guard ∉ above ∧
        m'.stack t = (Frame.unwind (g :: below)).landing.left := by
  have habove : .serving ∉ above := fun hmem => hserving (List.mem_cons_of_mem _ hmem)
  rcases stack_of_step hs hstep with hdrops | ⟨pushed, hs', hp⟩
  · rcases Frame.eq_of_drops hdrops with rfl | ⟨origin, message, calls, rfl⟩
    · exact absurd List.mem_cons_self hserving
    · have hleft := stack_of_panic hs hstep
      rcases Frame.left_append (g :: below) habove with ⟨kept, hk, heq⟩ | ⟨hguard, heq⟩
      · rw [heq] at hleft
        exact .inl ⟨kept, hleft, fun hmem => habove (hk.subset hmem)⟩
      · rw [heq] at hleft
        exact .inr ⟨⟨origin, message, calls, rfl⟩, hguard, hleft⟩
  · left
    refine ⟨pushed ++ above, by rw [hs', List.append_assoc], fun hmem => ?_⟩
    rcases List.mem_append.1 hmem with hmem | hmem
    · exact hserving (hp hmem ▸ List.mem_cons_self)
    · exact habove hmem

/-- A panic is about to leave the callback of the listener that was told last: nothing above the
frame that tells the others catches it. -/
def Escapes (m : Machine σ E) (t : ThreadId) (rest : List (Ticket × Listener)) (sequel : Sequel)
    (below : List Frame) : Prop :=
  ∃ origin message calls above,
    m.stack t
        = .script origin (.panic message :: calls) :: (above ++ .telling rest sequel :: below) ∧
      .guard ∉ above

/-- The frame that tells listeners lies on its stack, and the thread is still at work for it. -/
def Lies (m : Machine σ E) (t : ThreadId) (rest : List (Ticket × Listener)) (sequel : Sequel)
    (below : List Frame) : Prop :=
  ∃ above, m.stack t = above ++ .telling rest sequel :: below ∧ .serving ∉ above

/-- The frame that tells listeners stays where it is, but for a panic that escapes from those
above. -/
theorem Lies.step_above {f : Frame} {above below : List Frame} {rest : List (Ticket × Listener)}
    {sequel : Sequel} (hstep : m.step t = some m')
    (hs : m.stack t = f :: (above ++ .telling rest sequel :: below))
    (hserving : .serving ∉ f :: above) :
    m'.Lies t rest sequel below ∨ m.Escapes t rest sequel below ∧ m'.stack t <:+ below := by
  rcases Machine.step_above hstep hs hserving with
    hlies | ⟨⟨origin, message, calls, rfl⟩, hguard, hleft⟩
  · exact .inl hlies
  · exact .inr ⟨⟨origin, message, calls, above, hs, hguard⟩, hleft ▸ Frame.left_suffix below⟩

/-! ### Those told and those left -/

/-- What listeners that had to wait have been told, in the order of telling. -/
def waited (m : Machine σ E) : List Delivery :=
  m.deliveries.filter (·.ticket.id?.isSome)

/-- A step tells nobody that had to wait, or the first listener of the innermost frame. -/
theorem Dealt.waited (h : Dealt m t m') :
    m'.waited = m.waited ∨
    ∃ ticket l listeners sequel below, ticket.id?.isSome = true ∧
      m.stack t = .telling ((ticket, l) :: listeners) sequel :: below ∧
      m'.waited = m.waited ++ [⟨ticket, l.key, l.name, m.coordinator.phase, t⟩] := by
  cases h with
  | idle _ _ _ hd | registered _ _ _ hd | opened _ _ hd =>
    left
    rw [Machine.waited, hd, Machine.waited]
  | @told ticket l listeners sequel below hs _ hd =>
    rw [Machine.waited, hd, List.filter_append]
    cases hp : ticket.id?.isSome with
    | false => exact .inl (by simp [Machine.waited, hp])
    | true => exact .inr ⟨ticket, l, listeners, sequel, below, hp, hs, by simp [Machine.waited, hp]⟩

/-- The engine runs, and of the listeners that waited for it some have been told, in their order and
each once, and the others are left. -/
structure Serving (owner : Owner) (all : List (Ticket × Listener)) (m : Machine σ E)
    (done rest : List (Ticket × Listener)) : Prop where
  phase : m.coordinator.phase = .started
  split : all = done ++ rest
  pending : ∀ x ∈ all, x.1.id?.isSome = true
  tickets : (m.timeline owner).Sublist (all.filterMap (·.1.id?))
  told : m.waited = done.map (Delivery.ofDue owner.thread)

/-- Nothing is due any more to those who are left. -/
def Over (owner : Owner) (m : Machine σ E) (done : List (Ticket × Listener)) : Prop :=
  (m.timeline owner).Sublist (done.filterMap (·.1.id?))

theorem length_ids {l : List (Ticket × Listener)} (h : ∀ x ∈ l, x.1.id?.isSome = true) :
    (l.filterMap (·.1.id?)).length = l.length := by
  rw [List.length_filterMap_eq_countP, List.countP_eq_length]
  exact h

theorem mem_ids {l : List (Ticket × Listener)} {x : Ticket × Listener} (hmem : x ∈ l)
    (h : x.1.id?.isSome = true) : x.1.id?.get h ∈ l.filterMap (·.1.id?) :=
  List.mem_filterMap.2 ⟨x, hmem, (Option.some_get h).symm⟩

/-- A coordinator whose engine runs gives out no numbers. -/
theorem issued_of_started {c c' : Coordinator σ E Listener} (h : c.Change owner c')
    (hp : c.phase = .started) : c'.registrants.issued = c.registrants.issued := by
  cases h with
  | stay | unregister => rfl
  | bind hn | register _ hn => exact absurd hp hn
  | request hn => rw [hp] at hn; cases hn
  | stick _ hu | succeed _ hu | fail _ hu => exact absurd hp hu.1

/-- Once the engine runs, the waiting tickets only get fewer. -/
theorem Sound.timeline_of_started (h : Sound initializer owner m) (ht : Turn m t m')
    (hp : m.coordinator.phase = .started) : (m'.timeline owner).Sublist (m.timeline owner) := by
  cases h.timeline ht with
  | dropped hsub => exact hsub
  | issued _ hissued =>
    have := issued_of_started (h.change ht) hp
    omega

namespace Serving

variable {all done rest : List (Ticket × Listener)}

/-- A bound for the waiting tickets is a bound for those that are due. -/
theorem due_le (h : Serving owner all m done rest) {l : List (Ticket × Listener)}
    (hl : (m.timeline owner).Sublist (l.filterMap (·.1.id?)))
    (hp : ∀ x ∈ l, x.1.id?.isSome = true) :
    done.length + ((m.due owner.thread).filterMap (·.1.id?)).length ≤ l.length := by
  have htold : (m.deliveries.filterMap (·.ticket.id?)).length = done.length := by
    rw [List.length_filterMap_eq_countP, List.countP_eq_length_filter]
    show m.waited.length = done.length
    rw [h.told, List.length_map]
  have hle := hl.length_le
  rw [length_ids hp, timeline, List.length_append, List.length_append, htold] at hle
  omega

theorem pending_done (h : Serving owner all m done rest) : ∀ x ∈ done, x.1.id?.isSome = true :=
  fun x hx => h.pending x (h.split ▸ List.mem_append_left _ hx)

/-- A step that tells nobody that had to wait. -/
theorem keep (h : Serving owner all m done rest) (hsound : Sound initializer owner m)
    (ht : Turn m t m') (heq : m'.waited = m.waited) : Serving owner all m' done rest where
  phase := hsound.started_mono ht h.phase
  split := h.split
  pending := h.pending
  tickets := (hsound.timeline_of_started ht h.phase).trans h.tickets
  told := heq.trans h.told

/-- A step of a thread that is not the owner. -/
theorem elsewhere (h : Serving owner all m done rest) (hsound : Sound initializer owner m)
    (ht : Turn m t m') (hne : t ≠ owner.thread) : Serving owner all m' done rest := by
  refine h.keep hsound ht ?_
  rcases (hsound.dealt ht).waited with heq | ⟨_, _, _, _, _, hp, hs, -⟩
  · exact heq
  · exact absurd (hsound.eq_owner_of_pending (hs ▸ List.mem_cons_self) List.mem_cons_self hp) hne

/-- Where nothing is due, a step tells nobody that had to wait. -/
theorem tells_nobody (h : Serving owner all m done rest) (hsound : Sound initializer owner m)
    (ht : Turn m t m') (hover : Over owner m done) :
    Serving owner all m' done rest ∧ Over owner m' done := by
  have heq : m'.waited = m.waited := by
    rcases (hsound.dealt ht).waited with heq | ⟨ticket, l, listeners, sequel, below, hp, hs, -⟩
    · exact heq
    · -- somebody would be due
      exfalso
      obtain rfl := hsound.eq_owner_of_pending (hs ▸ List.mem_cons_self) List.mem_cons_self hp
      have hle := h.due_le hover h.pending_done
      have hmem : (ticket, l) ∈ m.due owner.thread := by
        rw [due, hs]
        exact List.mem_flatMap.2 ⟨_, List.mem_cons_self, List.mem_cons_self⟩
      have hpos := List.length_pos_of_mem (mem_ids hmem hp)
      omega
  exact ⟨h.keep hsound ht heq, (hsound.timeline_of_started ht h.phase).trans hover⟩

/-- While the frame lies on the stack, nothing is due to those who waited but what is in it. -/
theorem due_elsewhere (h : Serving owner all m done rest) (above : List Frame)
    {below : List Frame} {sequel : Sequel}
    (hs : m.stack owner.thread = above ++ .telling rest sequel :: below) :
    (above.flatMap Frame.dues).filterMap (·.1.id?) = [] ∧
      (below.flatMap Frame.dues).filterMap (·.1.id?) = [] := by
  have hrest : (rest.filterMap (·.1.id?)).length = rest.length :=
    length_ids fun x hx => h.pending x (h.split ▸ List.mem_append_right _ hx)
  have hle := h.due_le h.tickets h.pending
  rw [h.split, List.length_append, due, hs, List.flatMap_append, List.flatMap_cons, Frame.dues,
    List.filterMap_append, List.filterMap_append, List.length_append, List.length_append,
    hrest] at hle
  constructor
  · exact List.length_eq_zero_iff.1 (by omega)
  · exact List.length_eq_zero_iff.1 (by omega)

/-- A step below which the frame lies: it stays there, or a panic escapes and nothing is due any
more. -/
theorem step_above (h : Serving owner all m done rest) (hsound : Sound initializer owner m)
    (hstep : m.step owner.thread = some m') {f : Frame} {above below : List Frame}
    {sequel : Sequel}
    (hs : m.stack owner.thread = f :: (above ++ .telling rest sequel :: below))
    (hserving : .serving ∉ f :: above) :
    Serving owner all m' done rest ∧ (m'.Lies owner.thread rest sequel below ∨
      m.Escapes owner.thread rest sequel below ∧ Over owner m' done) := by
  have ht := turn_of_step hstep
  obtain ⟨habove, hbelow⟩ := h.due_elsewhere (f :: above) hs
  have heq : m'.waited = m.waited := by
    rcases (hsound.dealt ht).waited with heq | ⟨ticket, l, listeners, sequel', _, hp, hs', -⟩
    · exact heq
    · exfalso
      rw [hs] at hs'
      obtain ⟨rfl, -⟩ := List.cons.inj hs'
      have hmem : (ticket, l) ∈ (Frame.telling ((ticket, l) :: listeners) sequel' :: above).flatMap
          Frame.dues := List.mem_flatMap.2 ⟨_, List.mem_cons_self, List.mem_cons_self⟩
      have hid := mem_ids hmem hp
      rw [habove] at hid
      cases hid
  have hnext := h.keep hsound ht heq
  refine ⟨hnext, ?_⟩
  rcases Lies.step_above hstep hs hserving with hlies | ⟨hescapes, hsuffix⟩
  · exact .inl hlies
  · refine .inr ⟨hescapes, ?_⟩
    -- the tickets that are due are those of frames below, and there are none
    have hdue : (m'.due owner.thread).filterMap (·.1.id?) = [] := by
      obtain ⟨front, rfl⟩ := hsuffix
      rw [List.flatMap_append, List.filterMap_append] at hbelow
      exact (List.append_eq_nil_iff.1 hbelow).2
    have hids : m'.deliveries.filterMap (·.ticket.id?) = done.filterMap (·.1.id?) := by
      have hfilter : m'.deliveries.filterMap (·.ticket.id?)
          = m'.waited.filterMap (·.ticket.id?) := by
        rw [Machine.waited, List.filterMap_filter]
        congr 1
        funext d
        cases d.ticket <;> rfl
      rw [hfilter, hnext.told, List.filterMap_map]
      rfl
    have hentries := (hsound.step ht).entries_eq_nil hnext.phase
    rw [Over, timeline, hdue, hids, hentries]
    simp

/-- A step of the frame itself: it tells the first listener that is left, or is done. -/
theorem step_frame (h : Serving owner all m done rest) (hsound : Sound initializer owner m)
    (hstep : m.step owner.thread = some m') {below : List Frame} {sequel : Sequel}
    (hs : m.stack owner.thread = .telling rest sequel :: below) :
    (∃ x rest', rest = x :: rest' ∧ Serving owner all m' (done ++ [x]) rest' ∧
      m'.Lies owner.thread rest' sequel below) ∨
    rest = [] ∧ Serving owner all m' done rest := by
  have ht := turn_of_step hstep
  cases hrest : rest with
  -- Nobody is left: the step closes the frame and tells nobody.
  | nil =>
    subst hrest
    refine .inr ⟨rfl, h.keep hsound ht ?_⟩
    rcases (hsound.dealt ht).waited with heq | ⟨_, _, _, _, _, _, hs', -⟩
    · exact heq
    · rw [hs] at hs'
      cases hs'
  | cons x rest' =>
    left
    obtain ⟨ticket, l⟩ := x
    subst hrest
    cases (step_of_acts hs (.aside .tell)).symm.trans hstep
    refine ⟨_, _, rfl, ⟨hsound.started_mono ht h.phase, ?_, h.pending,
      (hsound.timeline_of_started ht h.phase).trans h.tickets, ?_⟩,
      [.script .callback l.script], stack_withStack_self rfl hs _, by simp⟩
    · rw [h.split, List.append_assoc, List.singleton_append]
    · -- The first of those left has waited, and so its telling counts.
      have hp : ticket.id?.isSome = true :=
        h.pending (ticket, l) (h.split ▸ List.mem_append_right _ List.mem_cons_self)
      show (m.record (.told ticket l.key l.name m.coordinator.phase owner.thread)).waited = _
      have hd : (m.record (.told ticket l.key l.name m.coordinator.phase owner.thread)).deliveries
          = m.deliveries ++ [⟨ticket, l.key, l.name, .started, owner.thread⟩] := by
        rw [h.phase]
        show (_ :: m.log.filterMap Event.delivery?).reverse = _
        rw [List.reverse_cons, deliveries]
      rw [Machine.waited, hd, List.filter_append, List.map_append, ← h.told, Machine.waited]
      simp [hp, Delivery.ofDue]

end Serving

/-! ### From the start of the engine on -/

/-- What has become of the listeners that were left, since a thread's step after `first`. -/
inductive Fate (s : Setup σ E) (first : List ThreadId) (t : ThreadId) (sequel : Sequel)
    (below : List Frame) (second : List ThreadId) (done rest : List (Ticket × Listener)) :
    Prop where
  /-- They are in the frame, which lies on its stack. -/
  | kept : (s.machine.run (first ++ t :: second)).Lies t rest sequel below →
      (done = [] → (s.machine.run (first ++ t :: second)).stack t
        = .telling rest sequel :: below) →
      Fate s first t sequel below second done rest
  /-- They have all been told. -/
  | told : rest = [] → Fate s first t sequel below second done rest
  /-- A panic that escaped from the callback of the listener told last has dropped the frame. -/
  | lost {part : List ThreadId} : done ≠ [] → part ++ [t] <+: second →
      (s.machine.run (first ++ t :: part)).Escapes t rest sequel below →
      Over s.owner (s.machine.run (first ++ t :: second)) done →
      Fate s first t sequel below second done rest

/-- One more step of the schedule. -/
theorem Fate.concat (s : Setup σ E) {first second : List ThreadId} {sequel : Sequel}
    {below : List Frame} {all done rest : List (Ticket × Listener)} (u : ThreadId)
    (h : Serving s.owner all (s.machine.run (first ++ s.owner.thread :: second)) done rest)
    (hf : Fate s first s.owner.thread sequel below second done rest) :
    ∃ done' rest',
      Serving s.owner all (s.machine.run (first ++ s.owner.thread :: (second ++ [u]))) done' rest' ∧
      Fate s first s.owner.thread sequel below (second ++ [u]) done' rest' := by
  have hcut : first ++ s.owner.thread :: (second ++ [u])
      = (first ++ s.owner.thread :: second) ++ [u] := by simp
  have hsound := sound_run s (first ++ s.owner.thread :: second)
  cases hstep : (s.machine.run (first ++ s.owner.thread :: second)).step u with
  | none =>
    have hsame : s.machine.run (first ++ s.owner.thread :: (second ++ [u]))
        = s.machine.run (first ++ s.owner.thread :: second) := by
      rw [hcut, run_concat, hstep]
      rfl
    refine ⟨done, rest, hsame ▸ h, ?_⟩
    cases hf with
    | kept hlies hfirst => exact .kept (hsame ▸ hlies) (hsame ▸ hfirst)
    | told hnil => exact .told hnil
    | lost hdone hpart hescapes hover =>
      exact .lost hdone (hpart.trans (List.prefix_append ..)) hescapes (hsame ▸ hover)
  | some m' =>
    have hm' : s.machine.run (first ++ s.owner.thread :: (second ++ [u])) = m' := by
      rw [hcut]
      exact run_of_step hstep []
    have ht := turn_of_step hstep
    cases hf with
    | told hnil =>
      have hover : Over s.owner (s.machine.run (first ++ s.owner.thread :: second)) done := by
        have htickets := h.tickets
        rwa [h.split, hnil, List.append_nil] at htickets
      exact ⟨done, rest, hm' ▸ (h.tells_nobody hsound ht hover).1, .told hnil⟩
    | lost hdone hpart hescapes hover =>
      obtain ⟨hnext, hover'⟩ := h.tells_nobody hsound ht hover
      exact ⟨done, rest, hm' ▸ hnext,
        .lost hdone (hpart.trans (List.prefix_append ..)) hescapes (hm' ▸ hover')⟩
    | kept hlies hfirst =>
      by_cases hu : u = s.owner.thread
      · subst hu
        obtain ⟨above, hs, hserving⟩ := hlies
        cases above with
        | nil =>
          rcases h.step_frame hsound hstep hs with ⟨x, rest', rfl, hnext, hlies'⟩ | ⟨hnil, hnext⟩
          · exact ⟨done ++ [x], rest', hm' ▸ hnext, .kept (hm' ▸ hlies') (by simp)⟩
          · exact ⟨done, rest, hm' ▸ hnext, .told hnil⟩
        | cons f above =>
          -- there is something above the frame, so somebody has been told
          have hdone : done ≠ [] := by
            intro hnil
            have hlength := congrArg List.length (hs.symm.trans (hfirst hnil))
            simp at hlength
            omega
          obtain ⟨hnext, hlies' | ⟨hescapes, hover⟩⟩ := h.step_above hsound hstep hs hserving
          · exact ⟨done, rest, hm' ▸ hnext, .kept (hm' ▸ hlies') (absurd · hdone)⟩
          · exact ⟨done, rest, hm' ▸ hnext,
              .lost hdone (List.prefix_refl _) hescapes (hm' ▸ hover)⟩
      · have hstack : m'.stack s.owner.thread
            = (s.machine.run (first ++ s.owner.thread :: second)).stack s.owner.thread :=
          (hsound.restacked ht).others (Ne.symm hu)
        refine ⟨done, rest, hm' ▸ h.elsewhere hsound ht hu, .kept ?_ ?_⟩
        · obtain ⟨above, hs, hserving⟩ := hlies
          exact ⟨above, by rw [hm', hstack, hs], hserving⟩
        · rw [hm', hstack]
          exact hfirst

end Machine

end LazyEngine
