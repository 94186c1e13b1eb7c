/-
Runs of a machine, and what holds all along them.

A run starts from a `Setup`: a coordinator that nobody has used, a dispatcher of either kind, and
threads with scripts. A schedule says which thread steps when, so all interleavings are among the
runs.

* `run_induction` — what every step keeps holds at the end of every run;
* `Machine.Sound`, `sound_run` — the coordinator is in a stage, and the frames on the threads'
  stacks are where they belong.

Design notes: a thread that comes late is a thread that the schedule leaves alone for a while, and
a listener that comes late is one that nobody registers for a while; so threads and listeners are
all there from the start.
-/
import LazyEngine.Proofs.Startup.Stages
import LazyEngine.Proofs.Startup.Turns

namespace LazyEngine

/-- What a run starts with. -/
structure Setup (σ E : Type) where
  initializer : Initializer σ E
  host : σ
  owner : Owner
  /-- Whether the dispatcher is a loop with a thread of its own. -/
  loops : Bool := false
  /-- The scripts of tasks that are queued already. -/
  queued : List (List Call) := []
  /-- Listeners that somebody holds. -/
  held : List Nat := []
  /-- What the threads are going to do. Over a loop the owner thread serves the loop instead. -/
  scripts : List (List Call)

namespace Setup

variable {σ E : Type}

def dispatcher (s : Setup σ E) : Dispatcher Task :=
  if s.loops then .loop s.owner { tasks := s.queued.map .job }
  else .queue s.owner { tasks := s.queued.map .job }

/-- The machine before its first step. -/
def machine (s : Setup σ E) : Machine σ E where
  coordinator := .create s.initializer
  dispatcher := s.dispatcher
  host := s.host
  held := s.held
  threads := s.scripts.mapIdx fun t calls =>
    if s.loops && s.owner.isCurrent t then [.serving] else [.script .caller calls]

variable (s : Setup σ E)

theorem owner_dispatcher : s.dispatcher.owner = s.owner := by
  unfold dispatcher
  split <;> rfl

theorem isLoop_dispatcher : s.dispatcher.isLoop = s.loops := by
  unfold dispatcher
  split <;> simp_all [Dispatcher.isLoop]

/-- At the start a thread serves the loop, or has its script before it, or does not exist. -/
theorem stack_machine (t : ThreadId) :
    s.machine.stack t = [] ∨
    (s.loops = true ∧ s.owner.isCurrent t = true ∧ s.machine.stack t = [.serving]) ∨
    ∃ calls, s.machine.stack t = [.script .caller calls] := by
  simp only [Machine.stack, machine, List.getElem?_mapIdx]
  cases s.scripts[t]? with
  | none => exact .inl rfl
  | some calls =>
    right
    simp only [Option.map_some, Option.getD_some]
    split
    · rename_i h
      simp only [Bool.and_eq_true] at h
      exact .inl ⟨h.1, h.2, rfl⟩
    · exact .inr ⟨calls, rfl⟩

end Setup

/-- The number of the registration, if it had to wait. -/
def Ticket.id? : Ticket → Option RegistrationId
  | pending id => some id
  | immediate _ => none

namespace Frame

/-- Frames that say what a thread does next and not later. -/
def isUrgent : Frame → Bool
  | entering _ _ _ | requesting _ | awaitingStartup _ | startup => true
  | _ => false

/-- Frames that belong on the owner thread only: those that run tasks, and those that tell the
listeners that had to wait. -/
def isOwners : Frame → Bool
  | pumping _ _ | serving | startup => true
  | telling listeners _ => listeners.any (·.1.id?.isSome)
  | _ => false

/-- What must be so while a thread has the frame before it. -/
def Fits {σ E : Type} (m : Machine σ E) : Frame → Prop
  | awaitingStartup _ => m.coordinator.phase ≠ .notStarted
  | telling _ _ => m.coordinator.phase = .started
  | serving => m.dispatcher.isLoop = true
  | entering _ _ admitted => admitted = true → m.dispatcher.isLoop = false
  | requesting _ | pushing _ _ => m.dispatcher.isLoop = false
  | _ => True

variable {f : Frame}

theorem isUrgent_of_isPlain (h : f.isPlain = true) : f.isUrgent = false := by
  cases f <;> first | rfl | cases h

theorem isOwners_of_isPlain (h : f.isPlain = true) : f.isOwners = f.takesTasks := by
  cases f <;> first | rfl | cases h

theorem isOwners_of_takesTasks (h : f.takesTasks = true) : f.isOwners = true := by
  rwa [isOwners_of_isPlain (isPlain_of_takesTasks h)]

/-- The only demand of a plain frame is that the loop is served over a loop, and a look at a queue
was one at a queue. -/
theorem fits_of_isPlain {σ E : Type} {m : Machine σ E} (h : f.isPlain = true)
    (hs : f = .serving → m.dispatcher.isLoop = true)
    (hp : ∀ posting origin, f = .pushing posting origin → m.dispatcher.isLoop = false) :
    f.Fits m := by
  cases f with
  | awaitingStartup | telling | entering | requesting => cases h
  | serving => exact hs rfl
  | pushing posting origin => exact hp posting origin rfl
  | _ => trivial

end Frame

namespace Machine

variable {σ E : Type} {m m' : Machine σ E} {t : ThreadId}

/-! ### Runs -/

theorem run_append (m : Machine σ E) (s₁ s₂ : List ThreadId) :
    m.run (s₁ ++ s₂) = (m.run s₁).run s₂ := by
  rw [run, run, run, List.foldl_append]

theorem run_concat (m : Machine σ E) (s : List ThreadId) (t : ThreadId) :
    m.run (s ++ [t]) = ((m.run s).step t).getD (m.run s) := by
  rw [run_append]
  rfl

/-- A run that is cut at a step goes on from what the step leaves. -/
theorem run_of_step {first : List ThreadId} (h : (m.run first).step t = some m')
    (second : List ThreadId) : m.run (first ++ t :: second) = m'.run second := by
  rw [run_append]
  show (((m.run first).step t).getD (m.run first)).run second = m'.run second
  rw [h, Option.getD_some]

/-- What every step keeps holds at the end of every run. -/
theorem run_induction {P : Machine σ E → Prop}
    (hstep : ∀ m t m', P m → m.step t = some m' → P m') (h : P m) (schedule : List ThreadId) :
    P (m.run schedule) := by
  induction schedule generalizing m with
  | nil => exact h
  | cons t rest ih =>
    have hnext : P ((m.step t).getD m) := by
      cases hs : m.step t with
      | none => exact h
      | some m' => exact hstep m t m' h hs
    exact ih hnext

/-- A run that ends with a property it did not start with has a step that brings it about. -/
theorem run_crossing {P : Machine σ E → Prop} {schedule : List ThreadId} (hstart : ¬ P m)
    (hend : P (m.run schedule)) :
    ∃ before t after m', schedule = before ++ t :: after ∧ ¬ P (m.run before) ∧
      (m.run before).step t = some m' ∧ P m' := by
  induction schedule generalizing m with
  | nil => exact absurd hend hstart
  | cons t rest ih =>
    -- the first step brings the property about, or the rest of the run does
    by_cases hnext : P ((m.step t).getD m)
    · cases hs : m.step t with
      | none =>
        rw [hs] at hnext
        exact absurd hnext hstart
      | some m' =>
        rw [hs] at hnext
        exact ⟨[], t, rest, m', rfl, hstart, hs, hnext⟩
    · obtain ⟨before, u, after, m', rfl, hnot, hs, hm'⟩ := ih hnext hend
      exact ⟨t :: before, u, after, m', rfl, hnot, hs, hm'⟩

/-! ### What a step does to the stacks -/

/-- The frames of a thread after a step: some new ones, of which only the first can be urgent, on
top of old ones. -/
structure Restacked (m : Machine σ E) (t : ThreadId) (m' : Machine σ E) : Prop where
  threads : ∃ stack, m'.threads = m.threads.set t stack
  own : ∃ f below pushed kept, m.stack t = f :: below ∧ m'.stack t = pushed ++ kept ∧
    (kept <:+ below ∨ f.isPlain = true ∧ kept <:+ f :: below) ∧
    (∀ g ∈ pushed.tail, g.isUrgent = false) ∧
    (∀ g ∈ pushed, g.isOwners = true →
      f.isOwners = true ∨ m.dispatcher.owner.isCurrent t = true) ∧
    ∀ g ∈ pushed, g.Fits m'

/-- The other threads have to do what they had to do before. -/
theorem Restacked.others (h : Restacked m t m') {u : ThreadId} (hu : u ≠ t) :
    m'.stack u = m.stack u := by
  obtain ⟨stack, hthreads⟩ := h.threads
  rw [Machine.stack, Machine.stack, hthreads, List.getElem?_set_ne (Ne.symm hu)]

/-- What a frame demands is of the coordinator and of the kind of dispatcher. -/
theorem fits_congr {n : Machine σ E} {f : Frame} (hc : n.coordinator = m.coordinator)
    (hl : n.dispatcher.isLoop = m.dispatcher.isLoop) : f.Fits n ↔ f.Fits m := by
  cases f <;> simp [Frame.Fits, hc, hl]

theorem fits_withStack {f : Frame} {stack : List Frame} :
    f.Fits (m.withStack t stack) ↔ f.Fits m :=
  fits_congr rfl rfl

/-- The stacks after a step that replaces the innermost frame. -/
theorem restacked_of_withStack {n : Machine σ E} {f : Frame} {below : List Frame}
    (pushed : List Frame) (hs : m.stack t = f :: below) (hn : n.threads = m.threads)
    (hu : ∀ g ∈ pushed.tail, g.isUrgent = false)
    (ho : ∀ g ∈ pushed, g.isOwners = true →
      f.isOwners = true ∨ m.dispatcher.owner.isCurrent t = true)
    (hfits : ∀ g ∈ pushed, g.Fits n) :
    Restacked m t (n.withStack t (pushed ++ below)) where
  threads := ⟨_, by rw [withStack, hn]⟩
  own := ⟨f, below, pushed, below, hs, stack_withStack_self hn hs _, .inl (List.suffix_refl _), hu,
    ho, fun g hg => fits_withStack.2 (hfits g hg)⟩

theorem Launch.isCurrent {f : Frame} {c : Coordinator σ E Listener} {sequel : Sequel}
    (h : Launch m t f c sequel) (ho : m.coordinator.OwnedBy m.dispatcher.owner) :
    f.isOwners = true ∨ m.dispatcher.owner.isCurrent t = true := by
  cases h with
  | inline hc =>
    right
    have : m.coordinator.ownerOr m.dispatcher.owner = m.dispatcher.owner := by
      rcases ho with h | h <;> simp [Coordinator.ownerOr, h]
    rwa [this] at hc
  | posted => exact .inl rfl

theorem Quiet.isLoop_eq (h : Quiet m t m') : m'.dispatcher.isLoop = m.dispatcher.isLoop := by
  obtain ⟨n, stack, ha, rfl⟩ := h.alike
  exact ha.isLoop

theorem Quiet.restacked (h : Quiet m t m') (hfits : ∀ f ∈ m.stack t, f.Fits m) :
    Restacked m t m' := by
  have hloop := h.isLoop_eq
  obtain ⟨n, stack, ha, rfl⟩ := h.alike
  obtain ⟨f, below, pushed, kept, hs, hf, hs', hk, hp⟩ := h.stack
  refine ⟨⟨stack, by rw [withStack, ha.threads]⟩, f, below, pushed, kept, hs, hs', .inr ⟨hf, hk⟩,
    ?_, ?_, ?_⟩
  · intro g hg
    exact Frame.isUrgent_of_isPlain (hp g (List.mem_of_mem_tail hg)).1
  · intro g hg hown
    obtain ⟨hplain, hmay⟩ := hp g hg
    rw [Frame.isOwners_of_isPlain hplain] at hown
    exact (hmay.takes hown).imp_left Frame.isOwners_of_takesTasks
  · intro g hg
    obtain ⟨hplain, hmay⟩ := hp g hg
    refine Frame.fits_of_isPlain hplain (fun h => ?_) fun posting origin h => ?_
    · obtain rfl := hmay.serves h
      exact hloop.trans (hfits .serving (hs ▸ List.mem_cons_self))
    · exact hloop.trans (hmay.pushes posting origin h)

theorem Turn.restacked (h : Turn m t m') (ho : m.coordinator.OwnedBy m.dispatcher.owner)
    (hi : m.coordinator.Undecided → m.coordinator.initializer ≠ none)
    (hfits : ∀ f ∈ m.stack t, f.Fits m) : Restacked m t m' := by
  cases h with
  | quiet hq => exact hq.restacked hfits
  | died hs _ ha =>
    exact ⟨⟨[], by rw [withStack, ha.threads]⟩, _, _, [], [], hs,
      stack_withStack_self ha.threads hs _, .inl (List.nil_suffix ..), by simp, by simp, by simp⟩
  | stuck hu hn => exact absurd hn (hi hu)
  -- The frames that depend on startup: who may have them, and what they ask for.
  | started hs hl =>
    have := hl.isCurrent ho
    exact restacked_of_withStack [_] hs rfl (by simp) (by simp [this])
      (by simp [Frame.Fits, Coordinator.succeeded])
  | @tell ticket l listeners sequel below hs =>
    -- the frame goes on with fewer listeners, so it asks for nothing new
    have hp : m.coordinator.phase = .started :=
      hfits (.telling ((ticket, l) :: listeners) sequel) (hs ▸ List.mem_cons_self)
    refine restacked_of_withStack [_, _] hs rfl (by simp [Frame.isUrgent]) ?_
      (by simp [Frame.Fits, hp])
    intro g hg hown
    left
    rcases List.mem_cons.1 hg with rfl | hg
    · cases hown
    · obtain rfl := List.mem_singleton.1 hg
      rw [Frame.isOwners, List.any_cons, Bool.or_eq_true]
      exact .inr hown
  | @took f g below d hs hf htake =>
    obtain ⟨hf', hg⟩ := hf.takesTasks
    have hown := Frame.isOwners_of_takesTasks hf'
    have hplain := Frame.isPlain_of_takesTasks hg
    refine restacked_of_withStack [_, _] hs rfl ?_ (fun _ _ _ => .inl hown) ?_
    · intro g' hg'
      obtain rfl := List.mem_singleton.1 hg'
      exact Frame.isUrgent_of_isPlain hplain
    · intro g' hg'
      rcases List.mem_cons.1 hg' with rfl | hg'
      · trivial
      · obtain rfl := List.mem_singleton.1 hg'
        cases hf with
        | pumping => trivial
        | serving =>
          exact (Dispatcher.isLoop_take? htake).trans (hfits .serving (hs ▸ List.mem_cons_self))
  | registerLate hs hp =>
    exact restacked_of_withStack [_, _] hs rfl (by simp [Frame.isUrgent])
      (by simp [Frame.isOwners, Ticket.id?]) (by simp [Frame.Fits, hp])
  | spared hs hp =>
    exact restacked_of_withStack [_] hs rfl (by simp) (by simp [Frame.isOwners])
      (by simp [Frame.Fits, hp])
  | missed hs =>
    exact restacked_of_withStack [_, _] hs rfl (by simp [Frame.isUrgent])
      (by simp [Frame.isOwners]) (by simp [Frame.Fits])
  | posted hs =>
    exact restacked_of_withStack [_] hs rfl (by simp) (by simp [Frame.isOwners])
      (by simp [Frame.Fits, Coordinator.requested])
  | joined hs _ hp =>
    exact restacked_of_withStack [_] hs rfl (by simp) (by simp [Frame.isOwners])
      (by simp [Frame.Fits, Coordinator.bindOwner, hp])
  | looked hs _ _ hl =>
    exact restacked_of_withStack [_] hs rfl (by simp) (by simp [Frame.isOwners])
      (by simp [Frame.Fits, hl])
  | background hs hf =>
    refine restacked_of_withStack _ hs rfl ?_ ?_ ?_ <;> cases hf <;>
      simp [Frame.isOwners, Frame.Fits]
  | inspected hs hf _ hl =>
    refine restacked_of_withStack (_ :: _) hs rfl ?_ ?_ ?_ <;> cases hf <;>
      simp [Frame.isUrgent, Frame.isOwners, Frame.Fits, hl]
  | glanced hs | registerEarly hs | unregister hs =>
    exact restacked_of_withStack [_] hs rfl (by simp) (by simp [Frame.isOwners])
      (by simp [Frame.Fits])
  | late hs | poisoned hs | refused hs | failed hs | woken hs | skipped hs | told hs =>
    exact restacked_of_withStack [] hs rfl (by simp) (by simp) (by simp)

/-! ### What holds all along a run -/

/-- What holds of a machine at every moment of a run. -/
structure Sound (initializer : Initializer σ E) (owner : Owner) (m : Machine σ E) : Prop where
  owner_eq : m.dispatcher.owner = owner
  ownedBy : m.coordinator.OwnedBy owner
  stage : ∃ s, m.coordinator.InStage initializer owner s
  /-- A frame that says what comes next is the innermost one. -/
  innermost : ∀ t f below, m.stack t = f :: below → ∀ g ∈ below, g.isUrgent = false
  ownerOnly : ∀ t, ∀ f ∈ m.stack t, f.isOwners = true → owner.isCurrent t = true
  /-- Nobody waits before startup has been asked for, nobody is told before the engine runs, only a
  loop is served, and only a queue is looked at. -/
  fits : ∀ t, ∀ f ∈ m.stack t, f.Fits m

variable {initializer : Initializer σ E} {owner : Owner}

namespace Sound

theorem initializer_ne_none (h : Sound initializer owner m) (hu : m.coordinator.Undecided) :
    m.coordinator.initializer ≠ none := by
  obtain ⟨s, hs⟩ := h.stage
  rw [hs.initializer_of_undecided hu]
  simp

theorem initializer_eq (h : Sound initializer owner m) {f : Initializer σ E}
    (hi : m.coordinator.initializer = some f) : f = initializer := by
  obtain ⟨s, hs⟩ := h.stage
  cases s with
  | untouched => exact Option.some.inj (hi.symm.trans hs.2.1)
  | requested => exact Option.some.inj (hi.symm.trans hs.2.1)
  | running => simp [hs.2.1] at hi
  | failed => simp [hs.2.1] at hi

/-- The engine is published exactly when the phase says so. -/
theorem started_iff (h : Sound initializer owner m) :
    m.coordinator.phase = .started ↔ ∃ e, m.coordinator.engine = some e := by
  obtain ⟨s, hs⟩ := h.stage
  cases s with
  | running => simp [hs.1, Option.isSome_iff_exists.1 hs.2.2.1]
  | untouched => simp [hs.1, hs.2.2.1]
  | requested => simp [hs.1, hs.2.2.2.1]
  | failed => simp [hs.1, hs.2.2.1]

/-- Nobody is registered any more once the engine runs. -/
theorem entries_eq_nil (h : Sound initializer owner m) (hp : m.coordinator.phase = .started) :
    m.coordinator.registrants.entries = [] := by
  obtain ⟨s, hs⟩ := h.stage
  cases s with
  | running => exact hs.2.2.2.2
  | _ => simp [hs.1] at hp

theorem started_of_telling (h : Sound initializer owner m) {listeners : List (Ticket × Listener)}
    {sequel : Sequel} (hmem : .telling listeners sequel ∈ m.stack t) :
    m.coordinator.phase = .started :=
  h.fits t _ hmem

/-- Only the owner thread runs startup. -/
theorem isCurrent_of_launch (h : Sound initializer owner m) {f : Frame} {below : List Frame}
    {c : Coordinator σ E Listener} {sequel : Sequel} (hs : m.stack t = f :: below)
    (hl : Launch m t f c sequel) : t = owner.thread := by
  refine Owner.isCurrent_iff.1 ?_
  rcases hl.isCurrent (h.owner_eq ▸ h.ownedBy) with hf | ho
  · exact h.ownerOnly t f (hs ▸ List.mem_cons_self) hf
  · exact h.owner_eq ▸ ho

theorem restacked (h : Sound initializer owner m) (ht : Turn m t m') : Restacked m t m' :=
  ht.restacked (h.owner_eq ▸ h.ownedBy) h.initializer_ne_none (h.fits t)

/-- A step of another thread leaves a stack alone. -/
theorem stack_of_step {u : ThreadId} (h : Sound initializer owner m) (hs : m.step t = some m')
    (hu : u ≠ t) : m'.stack u = m.stack u :=
  (h.restacked (turn_of_step hs)).others hu

theorem stack_concat {u : ThreadId} {schedule : List ThreadId}
    (h : Sound initializer owner (m.run schedule)) (hu : u ≠ t) :
    (m.run (schedule ++ [t])).stack u = (m.run schedule).stack u := by
  rw [run_concat]
  cases hs : (m.run schedule).step t with
  | none => rfl
  | some m' => exact h.stack_of_step hs hu

/-- Only the owner thread takes tasks. -/
theorem eq_owner_of_takesTasks (h : Sound initializer owner m) {f : Frame} {below : List Frame}
    (hs : m.stack t = f :: below) (hf : f.takesTasks = true) : t = owner.thread :=
  Owner.isCurrent_iff.1
    (h.ownerOnly t f (hs ▸ List.mem_cons_self) (Frame.isOwners_of_takesTasks hf))

end Sound

/-- Every step changes the coordinator as a section does, or not at all. -/
theorem Turn.change (h : Turn m t m')
    (hi : m.coordinator.Undecided → m.coordinator.initializer ≠ none) :
    m.coordinator.Change m.dispatcher.owner m'.coordinator := by
  cases h with
  | quiet hq =>
    obtain ⟨n, stack, ha, rfl⟩ := hq.alike
    have : (n.withStack t stack).coordinator = m.coordinator := ha.coordinator
    exact this ▸ .stay
  | @died _ _ _ _ n _ _ ha =>
    have : (n.withStack t []).coordinator = m.coordinator := ha.coordinator
    exact this ▸ .stay
  | stuck hu hn => exact absurd hn (hi hu)
  -- The sections of the coordinator, one by one; no other step touches it.
  | refused _ hu => exact .bind hu.1
  | posted _ _ hn => exact .request hn
  | joined _ hu => exact .bind hu.1
  | started _ hl hu hi hv =>
    refine .succeed ?_ hu hi hv
    cases hl <;> constructor
  | failed _ hl hu hi hv =>
    refine .fail ?_ hu hi hv
    cases hl <;> constructor
  | background _ _ hb => exact hb.change
  | registerEarly _ hp => exact .register _ hp
  | unregister => exact Coordinator.change_unregister ..
  | _ => exact .stay

/-- A step leaves the dispatcher to its owner, and of its kind. -/
theorem Turn.dispatcher (h : Turn m t m')
    (hi : m.coordinator.Undecided → m.coordinator.initializer ≠ none) :
    m'.dispatcher.owner = m.dispatcher.owner ∧ m'.dispatcher.isLoop = m.dispatcher.isLoop := by
  cases h with
  | quiet hq =>
    obtain ⟨n, stack, ha, rfl⟩ := hq.alike
    exact ⟨ha.owner, ha.isLoop⟩
  | died _ _ ha => exact ⟨ha.owner, ha.isLoop⟩
  | stuck hu hn => exact absurd hn (hi hu)
  | posted => exact ⟨Dispatcher.owner_push .., Dispatcher.isLoop_push ..⟩
  | background _ _ hb =>
    cases hb with
    | underway | refused => exact ⟨rfl, rfl⟩
    | posted => exact ⟨Dispatcher.owner_push .., Dispatcher.isLoop_push ..⟩
  | took _ _ htake => exact ⟨Dispatcher.owner_take? htake, Dispatcher.isLoop_take? htake⟩
  | _ => exact ⟨rfl, rfl⟩

namespace Sound

theorem change (h : Sound initializer owner m) (ht : Turn m t m') :
    m.coordinator.Change owner m'.coordinator :=
  h.owner_eq ▸ ht.change h.initializer_ne_none

theorem started_mono (h : Sound initializer owner m) (ht : Turn m t m')
    (hp : m.coordinator.phase = .started) : m'.coordinator.phase = .started := by
  obtain ⟨s, hs⟩ := h.stage
  obtain ⟨s', hs', hlead⟩ := (h.change ht).stage h.ownedBy hs
  cases s with
  | running =>
    cases s' with
    | running => exact hs'.1
    | _ => cases hlead
  | _ => simp [hs.1] at hp

/-- Startup that has been asked for is not forgotten. -/
theorem requested_mono (h : Sound initializer owner m) (ht : Turn m t m')
    (hp : m.coordinator.phase ≠ .notStarted) : m'.coordinator.phase ≠ .notStarted := by
  obtain ⟨s, hs⟩ := h.stage
  obtain ⟨s', hs', hlead⟩ := (h.change ht).stage h.ownedBy hs
  cases s' with
  | untouched =>
    cases s with
    | untouched => exact absurd hs.1 hp
    | _ => cases hlead
  | _ => simp [hs'.1]

theorem isLoop_eq (h : Sound initializer owner m) (ht : Turn m t m') :
    m'.dispatcher.isLoop = m.dispatcher.isLoop :=
  (ht.dispatcher h.initializer_ne_none).2

/-- What a frame demands goes on to be so. -/
theorem fits_mono (h : Sound initializer owner m) (ht : Turn m t m') {f : Frame}
    (hf : f.Fits m) : f.Fits m' := by
  cases f with
  | awaitingStartup origin => exact h.requested_mono ht hf
  | telling listeners sequel => exact h.started_mono ht hf
  | serving | requesting | pushing => exact (h.isLoop_eq ht).trans hf
  | entering => exact fun hadmitted => (h.isLoop_eq ht).trans (hf hadmitted)
  | _ => trivial

theorem step (h : Sound initializer owner m) (ht : Turn m t m') : Sound initializer owner m' := by
  obtain ⟨s, hs⟩ := h.stage
  obtain ⟨s', hs', -⟩ := (h.change ht).stage h.ownedBy hs
  have hr := h.restacked ht
  obtain ⟨f, below, pushed, kept, hold, hnew, hkept, hurgent, hown, hfits⟩ := hr.own
  -- frames that were there before keep what they had; only the new ones have to be looked at
  have hsub : ∀ g ∈ kept, g ∈ m.stack t := by
    intro g hg
    rw [hold]
    rcases hkept with hk | ⟨-, hk⟩
    · exact List.mem_cons_of_mem _ (hk.subset hg)
    · exact hk.subset hg
  have hkeptUrgent : ∀ g ∈ kept, g.isUrgent = false := by
    intro g hg
    rcases hkept with hk | ⟨hf, hk⟩
    · exact h.innermost t f below hold g (hk.subset hg)
    · rcases List.mem_cons.1 (hk.subset hg) with rfl | hg
      · exact Frame.isUrgent_of_isPlain hf
      · exact h.innermost t f below hold g hg
  refine ⟨(ht.dispatcher h.initializer_ne_none).1.trans h.owner_eq, (h.change ht).ownedBy h.ownedBy,
    ⟨s', hs'⟩, ?_, ?_, ?_⟩
  · intro u f' below' hstack g hg
    by_cases hu : u = t
    · subst hu
      rw [hnew] at hstack
      cases pushed with
      | nil =>
        -- the innermost frame is an old one now
        refine hkeptUrgent g ?_
        rw [List.nil_append] at hstack
        rw [hstack]
        exact List.mem_cons_of_mem _ hg
      | cons p ps =>
        obtain ⟨-, rfl⟩ := List.cons.inj hstack
        rcases List.mem_append.1 hg with hg | hg
        · exact hurgent g hg
        · exact hkeptUrgent g hg
    · rw [hr.others hu] at hstack
      exact h.innermost u f' below' hstack g hg
  · intro u g hg hgown
    by_cases hu : u = t
    · subst hu
      rw [hnew] at hg
      rcases List.mem_append.1 hg with hg | hg
      · rcases hown g hg hgown with hf | ho
        · exact h.ownerOnly u f (hold ▸ List.mem_cons_self) hf
        · exact h.owner_eq ▸ ho
      · exact h.ownerOnly u g (hsub g hg) hgown
    · rw [hr.others hu] at hg
      exact h.ownerOnly u g hg hgown
  · intro u g hg
    by_cases hu : u = t
    · subst hu
      rw [hnew] at hg
      rcases List.mem_append.1 hg with hg | hg
      · exact hfits g hg
      · exact h.fits_mono ht (h.fits u g (hsub g hg))
    · rw [hr.others hu] at hg
      exact h.fits_mono ht (h.fits u g hg)

end Sound

theorem sound_machine (s : Setup σ E) : Sound s.initializer s.owner s.machine := by
  refine ⟨s.owner_dispatcher, .inl rfl, ⟨.untouched, Coordinator.inStage_create⟩, ?_, ?_, ?_⟩
  · intro t f below h g hg
    rcases s.stack_machine t with h' | ⟨-, -, h'⟩ | ⟨calls, h'⟩ <;> rw [h'] at h <;> cases h <;>
      cases hg
  · intro t f hf hown
    rcases s.stack_machine t with h' | ⟨-, ho, h'⟩ | ⟨calls, h'⟩ <;> rw [h'] at hf
    · cases hf
    · exact ho
    · obtain rfl := List.mem_singleton.1 hf
      cases hown
  · intro t f hf
    rcases s.stack_machine t with h' | ⟨hl, -, h'⟩ | ⟨calls, h'⟩ <;> rw [h'] at hf
    · cases hf
    · obtain rfl := List.mem_singleton.1 hf
      exact s.isLoop_dispatcher.trans hl
    · obtain rfl := List.mem_singleton.1 hf
      trivial

/-- What every step from a sound machine keeps holds at the end of every run from one. -/
theorem sound_invariant {P : Machine σ E → Prop} (h : Sound initializer owner m) (hp : P m)
    (hstep : ∀ m t m', Sound initializer owner m → Turn m t m' → P m → P m')
    (schedule : List ThreadId) : P (m.run schedule) := by
  have key : Sound initializer owner (m.run schedule) ∧ P (m.run schedule) := by
    refine run_induction (P := fun m => Sound initializer owner m ∧ P m) ?_ ⟨h, hp⟩ schedule
    rintro m t m' ⟨h, hp⟩ hs
    have ht := turn_of_step hs
    exact ⟨h.step ht, hstep m t m' h ht hp⟩
  exact key.2

/-- Every machine on a run is sound. -/
theorem sound_run (s : Setup σ E) (schedule : List ThreadId) :
    Sound s.initializer s.owner (s.machine.run schedule) :=
  run_induction (fun _ _ _ h hs => h.step (turn_of_step hs)) (sound_machine s) schedule

/-- What holds at the start and is kept by every step of a sound machine holds all along. -/
theorem run_invariant {P : Machine σ E → Prop} (s : Setup σ E) (h : P s.machine)
    (hstep : ∀ m t m', Sound s.initializer s.owner m → Turn m t m' → P m → P m')
    (schedule : List ThreadId) : P (s.machine.run schedule) :=
  sound_invariant (sound_machine s) h hstep schedule

end Machine

end LazyEngine
