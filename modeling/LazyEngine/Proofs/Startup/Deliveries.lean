/-
Who is told, and what a step does about it.

A registration is told by way of a frame: the step that starts the engine, or one that registers
with a running engine, puts a frame with the listeners on the stack, and each further step of that
frame tells the first of them.

* `Machine.deliveries` — what has been told so far, in the order of telling;
* `Machine.due` — what the frames of a thread are still going to tell;
* `Opens` — the three ways in which a frame that tells listeners comes onto a stack;
* `Dealt`, `Sound.dealt` — what a step does to registrations, in four kinds.

Design notes: most of the kinds of steps in `Turn` do nothing to registrations, so `Dealt` puts
them into one: such a step may drop frames that tell listeners, as a panic does, and registrations,
but tells nobody. The proofs about notification do their cases on `Dealt`.
-/
import LazyEngine.Proofs.Startup.Runs

namespace LazyEngine

/-- A listener has been told: for which registration, in which phase and on which thread. -/
structure Delivery where
  ticket : Ticket
  key : Nat
  name : String
  phase : Phase
  thread : ThreadId
deriving DecidableEq, Repr

/-- The delivery that an event is. -/
def Event.delivery? {E : Type} : Event E → Option Delivery
  | .told ticket key name phase thread => some ⟨ticket, key, name, phase, thread⟩
  | _ => none

namespace Frame

/-- Whether the frame tells listeners. -/
def tells : Frame → Bool
  | telling _ _ => true
  | _ => false

/-- What the frame is still going to tell. -/
def dues : Frame → List (Ticket × Listener)
  | telling listeners _ => listeners
  | _ => []

theorem dues_eq_nil {f : Frame} (h : f.tells = false) : f.dues = [] := by
  cases f <;> first | rfl | cases h

theorem tells_of_isPlain {f : Frame} (h : f.isPlain = true) : f.tells = false := by
  cases f <;> first | rfl | cases h

theorem flatMap_dues_eq_nil {stack : List Frame} (h : ∀ f ∈ stack, f.tells = false) :
    stack.flatMap dues = [] := by
  rw [List.flatMap_eq_nil_iff]
  intro f hf
  exact dues_eq_nil (h f hf)

end Frame

namespace Machine

variable {σ E : Type} {m m' : Machine σ E} {t : ThreadId} {initializer : Initializer σ E}
  {owner : Owner}

/-- All that has been told, in the order of telling. -/
def deliveries (m : Machine σ E) : List Delivery :=
  (m.log.filterMap Event.delivery?).reverse

/-- What the frames of a thread are still going to tell, in the order of telling. -/
def due (m : Machine σ E) (t : ThreadId) : List (Ticket × Listener) :=
  (m.stack t).flatMap Frame.dues

/-- How a frame that tells listeners comes onto a stack. -/
inductive Opens (m : Machine σ E) (t : ThreadId) (m' : Machine σ E) :
    List (Ticket × Listener) → Sequel → List Frame → Prop where
  /-- A call or a startup task has started the engine. -/
  | completed {f : Frame} {c : Coordinator σ E Listener} {sequel : Sequel} {below : List Frame} :
      m.stack t = f :: below → Launch m t f c sequel → m.coordinator.phase ≠ .started →
      m'.coordinator.phase = .started →
      m'.coordinator.registrants = m.coordinator.registrants.emptied → m'.served = m.served →
      Opens m t m' (queue (m.coordinator.registrants.live m.alive)) sequel below
  /-- A startup task has found the engine started. -/
  | spared {below : List Frame} : m.stack t = .startup :: below →
      m'.coordinator.registrants = m.coordinator.registrants → m'.served = m.served →
      Opens m t m' [] .finished below
  /-- A registration has found the engine running. -/
  | immediate {origin : Origin} {listener : Listener} {calls : List Call} {below : List Frame} :
      m.stack t = .script origin (.register listener :: calls) :: below →
      m.coordinator.phase = .started →
      m'.coordinator.registrants = m.coordinator.registrants → m'.served = m.served + 1 →
      Opens m t m' [(.immediate m.served, listener)] (.notified origin m.served)
        (.script origin calls :: below)

/-- What a step does to registrations. -/
inductive Dealt (m : Machine σ E) (t : ThreadId) (m' : Machine σ E) : Prop where
  /-- Nobody is told, though frames and registrations may be dropped. -/
  | idle {pushed kept : List Frame} : m'.stack t = pushed ++ kept → kept <:+ m.stack t →
      (∀ f ∈ pushed, f.tells = false) → m'.deliveries = m.deliveries → m'.served = m.served →
      m'.coordinator.registrants.issued = m.coordinator.registrants.issued →
      m'.coordinator.registrants.entries.Sublist m.coordinator.registrants.entries → Dealt m t m'
  /-- A registration is queued. -/
  | registered {origin : Origin} {listener : Listener} {calls : List Call} {below : List Frame} :
      m.stack t = .script origin (.register listener :: calls) :: below →
      m'.stack t = .script origin calls :: below → m.coordinator.phase ≠ .started →
      m'.deliveries = m.deliveries → m'.served = m.served →
      m'.coordinator.registrants = m.coordinator.registrants.push listener → Dealt m t m'
  | opened {listeners : List (Ticket × Listener)} {sequel : Sequel} {below : List Frame} :
      Opens m t m' listeners sequel below → m'.stack t = .telling listeners sequel :: below →
      m'.deliveries = m.deliveries → Dealt m t m'
  /-- A listener is told. -/
  | told {ticket : Ticket} {l : Listener} {listeners : List (Ticket × Listener)}
      {sequel : Sequel} {below : List Frame} :
      m.stack t = .telling ((ticket, l) :: listeners) sequel :: below →
      m'.stack t = .script .callback l.script :: .telling listeners sequel :: below →
      m'.deliveries = m.deliveries ++ [⟨ticket, l.key, l.name, m.coordinator.phase, t⟩] →
      m'.served = m.served → m'.coordinator = m.coordinator → Dealt m t m'

/-! ### Every step is of one of these kinds -/

/-- Events that are no deliveries change nothing about what has been told. -/
theorem deliveries_of_log (events : List (Event E)) (hlog : m'.log = events ++ m.log)
    (he : ∀ e ∈ events, e.delivery? = none) : m'.deliveries = m.deliveries := by
  have hnone : events.filterMap Event.delivery? = [] := List.filterMap_eq_nil_iff.2 he
  rw [deliveries, hlog, List.filterMap_append, hnone, List.nil_append, deliveries]

theorem mem_deliveries_told {ticket : Ticket} {l : Listener} {stack : List Frame} :
    (⟨ticket, l.key, l.name, m.coordinator.phase, t⟩ : Delivery) ∈
      ((m.record (.told ticket l.key l.name m.coordinator.phase t)).withStack t stack).deliveries :=
  List.mem_reverse.mpr List.mem_cons_self

theorem Alike.deliveries_eq {n : Machine σ E} (h : Alike m n) : n.deliveries = m.deliveries := by
  obtain ⟨events, hlog, hplain⟩ := h.log
  refine deliveries_of_log events hlog fun e he => ?_
  have := hplain e he
  cases e <;> first | rfl | cases this

theorem Quiet.dealt (h : Quiet m t m') : Dealt m t m' := by
  obtain ⟨n, stack, ha, rfl⟩ := h.alike
  obtain ⟨f, below, pushed, kept, hs, -, hs', hk, hp⟩ := h.stack
  have hc : (n.withStack t stack).coordinator = m.coordinator := ha.coordinator
  have hentries := congrArg (·.registrants.entries) hc
  exact .idle hs' (hs ▸ hk) (fun g hg => Frame.tells_of_isPlain (hp g hg).1) ha.deliveries_eq
    ha.served (congrArg (·.registrants.issued) hc) (hentries ▸ List.Sublist.refl _)

/-- A step that replaces the innermost frame and does nothing to registrations but to drop some. -/
theorem dealt_of_withStack {n : Machine σ E} {f : Frame} {below : List Frame}
    (pushed : List Frame) (hs : m.stack t = f :: below) (hn : n.threads = m.threads)
    (hp : ∀ g ∈ pushed, g.tells = false) (hd : n.deliveries = m.deliveries)
    (hserved : n.served = m.served)
    (hissued : n.coordinator.registrants.issued = m.coordinator.registrants.issued)
    (hentries : n.coordinator.registrants.entries.Sublist m.coordinator.registrants.entries) :
    Dealt m t (n.withStack t (pushed ++ below)) := by
  refine .idle (stack_withStack_self hn hs _) ?_ hp hd hserved hissued hentries
  rw [hs]
  exact List.suffix_cons ..

theorem Launch.registrants_eq {f : Frame} {c : Coordinator σ E Listener} {sequel : Sequel}
    (h : Launch m t f c sequel) : c.registrants = m.coordinator.registrants := by
  cases h <;> rfl

theorem Turn.dealt (h : Turn m t m')
    (hi : m.coordinator.Undecided → m.coordinator.initializer ≠ none) : Dealt m t m' := by
  have same := List.Sublist.refl m.coordinator.registrants.entries
  cases h with
  | quiet hq => exact hq.dealt
  | @died _ _ _ _ n hs _ ha =>
    have hc : (n.withStack t []).coordinator = m.coordinator := ha.coordinator
    have hstack : (n.withStack t []).stack t = [] ++ [] := stack_withStack_self ha.threads hs _
    have hentries := congrArg (·.registrants.entries) hc
    exact .idle hstack (List.nil_suffix ..) (by simp) ha.deliveries_eq ha.served
      (congrArg (·.registrants.issued) hc) (hentries ▸ same)
  | stuck hu hn => exact absurd hn (hi hu)
  -- The steps that open a frame of listeners: a startup, a task that comes late, a registration.
  | @started f c sequel below f' engine hs hl hu =>
    have hc := hl.registrants_eq
    rw [hc]
    refine .opened (.completed hs hl hu.1 rfl ?_ rfl) (stack_withStack_self rfl hs _) rfl
    show c.registrants.emptied = m.coordinator.registrants.emptied
    rw [hc]
  | spared hs => exact .opened (.spared hs rfl rfl) (stack_withStack_self rfl hs _) rfl
  | registerLate hs hp =>
    exact .opened (.immediate hs hp rfl rfl) (stack_withStack_self rfl hs _) rfl
  | registerEarly hs hp =>
    exact .registered hs (stack_withStack_self rfl hs _) hp rfl rfl rfl
  | @tell ticket l listeners sequel below hs =>
    refine .told hs (stack_withStack_self rfl hs _) ?_ rfl rfl
    show (_ :: m.log.filterMap Event.delivery?).reverse = _
    rw [List.reverse_cons, deliveries]
  -- A failure tells whoever called, which is no delivery, and leaves the table as it was.
  | @failed f c sequel below f' reason hs hl =>
    have hc := hl.registrants_eq
    have hd : (failureEvent (E := E) t reason sequel).delivery? = none := by
      cases sequel <;> rfl
    refine dealt_of_withStack [] hs rfl (by simp) ?_ rfl (congrArg (·.issued) hc) ?_
    · refine deliveries_of_log [failureEvent t reason sequel, .initialized t] rfl ?_
      rintro e he
      rcases List.mem_cons.1 he with rfl | he
      · exact hd
      · obtain rfl := List.mem_singleton.1 he
        rfl
    · exact (congrArg (·.entries) hc : _) ▸ same
  -- All others put frames on the stack that tell nobody.
  | @background f _ origin rest _ _ _ _ hs hf hb =>
    have hrest : ∀ g ∈ rest, g.tells = false := by cases hf <;> simp [Frame.tells]
    cases hb <;> exact dealt_of_withStack _ hs rfl hrest rfl rfl rfl same
  | inspected hs hf =>
    refine dealt_of_withStack (_ :: _) hs rfl ?_ rfl rfl rfl same
    cases hf
    simp [Frame.tells]
  | @unregister origin id calls below hs =>
    refine dealt_of_withStack [_] hs rfl (by simp [Frame.tells]) rfl rfl ?_ ?_
    · show (m.coordinator.unregister id).2.registrants.issued = _
      unfold Coordinator.unregister
      split <;> rfl
    · show (m.coordinator.unregister id).2.registrants.entries.Sublist _
      unfold Coordinator.unregister
      split
      · exact List.filter_sublist
      · exact same
  | @told sequel below hs =>
    refine dealt_of_withStack [] hs rfl (by simp) ?_ rfl rfl same
    refine deliveries_of_log (m.goOnEvents t sequel) rfl ?_
    cases sequel <;> simp [goOnEvents, Event.delivery?]
  | @took f g below d hs hf =>
    refine dealt_of_withStack [_, _] hs rfl ?_ rfl rfl rfl same
    intro f' hf'
    rcases List.mem_cons.1 hf' with rfl | hf'
    · rfl
    · obtain rfl := List.mem_singleton.1 hf'
      exact Frame.tells_of_isPlain (Frame.isPlain_of_takesTasks hf.takesTasks.2)
  | missed hs =>
    exact dealt_of_withStack [_, _] hs rfl (by simp [Frame.tells]) rfl rfl rfl same
  | glanced hs | looked hs | posted hs | joined hs =>
    exact dealt_of_withStack [_] hs rfl (by simp [Frame.tells]) rfl rfl rfl same
  | late hs | poisoned hs | refused hs | woken hs | skipped hs =>
    exact dealt_of_withStack [] hs rfl (by simp) rfl rfl rfl same

theorem Sound.dealt (h : Sound initializer owner m) (ht : Turn m t m') : Dealt m t m' :=
  ht.dealt h.initializer_ne_none

/-- Nobody gets hold of a listener that has been dropped. -/
theorem Turn.held (h : Turn m t m')
    (hi : m.coordinator.Undecided → m.coordinator.initializer ≠ none) {key : Nat}
    (hk : key ∈ m'.held) : key ∈ m.held := by
  cases h with
  | quiet hq =>
    obtain ⟨n, stack, ha, rfl⟩ := hq.alike
    exact ha.held key hk
  | died _ _ ha => exact ha.held key hk
  | stuck hu hn => exact absurd hn (hi hu)
  | _ => exact hk

end Machine

end LazyEngine
