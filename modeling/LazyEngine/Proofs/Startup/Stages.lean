/-
The four stages of a coordinator.

Of the many ways to fill the fields of a coordinator only four kinds can be met while nobody holds
its lock (`Coordinator.InStage`), and they follow each other in one direction:

* `stage_unique` — no coordinator is in two stages;
* `Change.stage` — a section leads from a stage to that stage or to a later one;
* `Scene.stages_of_run` — so it is after every sequence of sections, whoever runs them and whatever
  the dispatcher refuses, and what has been recorded once stays.

Design notes: a `Scene` is a coordinator among threads that run its sections in any order. The
threads' programs do not appear: a sequence of sections that no program would produce is allowed
too. A dispatcher appears through what it does to the coordinator only: it refuses a post whenever
it likes, and executes no more startup tasks than it has accepted.
-/
import LazyEngine.Proofs.Startup.Sections
import Mathlib.Logic.ExistsUnique

namespace LazyEngine

/-- How far startup has come. -/
inductive Stage where
  /-- Nobody has run the initializer or had it posted. -/
  | untouched
  /-- Startup is posted. -/
  | requested
  /-- The engine is there. -/
  | running
  /-- The engine will never be there. -/
  | failed
deriving DecidableEq, Repr

/-- The stages to which one section can lead. -/
def Stage.leadsTo : Stage → Stage → Bool
  | untouched, _ => true
  | requested, s => s != untouched
  | running, s => s == running
  | failed, s => s == failed

namespace Coordinator

variable {σ E L : Type} {c c' : Coordinator σ E L} {owner : Owner} {initializer : Initializer σ E}

/-- What the fields hold in a stage, for a coordinator made with an initializer. -/
def InStage (c : Coordinator σ E L) (initializer : Initializer σ E) (owner : Owner) : Stage → Prop
  | .untouched => c.phase = .notStarted ∧ c.initializer = some initializer ∧ c.engine = none ∧
      c.failure = none
  | .requested => c.phase = .starting ∧ c.initializer = some initializer ∧ c.owner = some owner ∧
      c.engine = none ∧ c.failure = none
  | .running => c.phase = .started ∧ c.initializer = none ∧ c.engine.isSome = true ∧
      c.failure = none ∧ c.registrants.entries = []
  | .failed => c.phase = .starting ∧ c.initializer = none ∧ c.engine = none ∧
      c.failure.isSome = true

/-- No other owner than the dispatcher's is ever recorded. -/
def OwnedBy (c : Coordinator σ E L) (owner : Owner) : Prop :=
  c.owner = none ∨ c.owner = some owner

theorem stage_unique {s s' : Stage} (h : c.InStage initializer owner s)
    (h' : c.InStage initializer owner s') : s = s' := by
  cases s <;> cases s' <;> simp_all [InStage]

theorem inStage_create : (create initializer : Coordinator σ E L).InStage initializer owner
    .untouched :=
  ⟨rfl, rfl, rfl, rfl⟩

namespace InStage

variable {s : Stage}

theorem initializer_of_undecided (h : c.InStage initializer owner s) (hu : c.Undecided) :
    c.initializer = some initializer := by
  obtain ⟨hp, hf⟩ := hu
  cases s with
  | untouched => exact h.2.1
  | requested => exact h.2.1
  | running => exact absurd h.1 hp
  | failed =>
    have := h.2.2.2
    simp [hf] at this

theorem engine_of_undecided (h : c.InStage initializer owner s) (hu : c.Undecided) :
    c.engine = none := by
  obtain ⟨hp, hf⟩ := hu
  cases s with
  | untouched => exact h.2.2.1
  | requested => exact h.2.2.2.1
  | running => exact absurd h.1 hp
  | failed => exact h.2.2.1

/-- Recording the owner changes no stage. -/
theorem bindOwner (h : c.InStage initializer owner s) :
    (c.bindOwner owner).InStage initializer owner s := by
  cases s with
  | requested =>
    obtain ⟨hp, hi, hw, he, hf⟩ := h
    exact ⟨hp, hi, by simp [Coordinator.bindOwner, hw], he, hf⟩
  | _ => exact h

end InStage

theorem OwnedBy.bindOwner (h : c.OwnedBy owner) : (c.bindOwner owner).owner = some owner := by
  rcases h with h | h <;> simp [Coordinator.bindOwner, h]

namespace Change

theorem ownedBy (h : Change owner c c') (ho : c.OwnedBy owner) : c'.OwnedBy owner := by
  have hb := ho.bindOwner
  cases h with
  | bind => exact .inr hb
  | request => exact .inr hb
  | stick hb' | succeed hb' | fail hb' =>
    cases hb' with
    | asIs => exact ho
    | recorded => exact .inr hb
  | _ => exact ho

/-- A section leads from a stage to that stage or to a later one. -/
theorem stage {s : Stage} (h : Change owner c c') (ho : c.OwnedBy owner)
    (hs : c.InStage initializer owner s) :
    ∃ s', c'.InStage initializer owner s' ∧ s.leadsTo s' = true := by
  have stays : s.leadsTo s = true := by cases s <;> rfl
  cases h with
  | stay => exact ⟨s, hs, stays⟩
  | bind => exact ⟨s, hs.bindOwner, stays⟩
  | request hn =>
    -- nobody asks twice: only the first stage has that phase
    cases s with
    | untouched =>
      obtain ⟨-, hi, he, hf⟩ := hs
      exact ⟨.requested, ⟨rfl, hi, ho.bindOwner, he, hf⟩, rfl⟩
    | _ => exact absurd hn (by simp [hs.1])
  | stick _ hu hi => simp [hs.initializer_of_undecided hu] at hi
  | succeed hb hu =>
    -- the two stages that are not decided lead to any other
    have he := hs.engine_of_undecided hu
    refine ⟨.running, ?_, ?_⟩
    · cases hb <;> exact ⟨rfl, rfl, by simp [succeeded, Coordinator.bindOwner, he], hu.2, rfl⟩
    · cases s with
      | untouched => rfl
      | requested => rfl
      | running => exact absurd hs.1 hu.1
      | failed => simp [hu.2, InStage] at hs
  | fail hb hu =>
    have he := hs.engine_of_undecided hu
    have hp : c.phase.advance .starting = .starting := by
      cases h : c.phase with
      | started => exact absurd h hu.1
      | _ => rfl
    refine ⟨.failed, ?_, ?_⟩
    · cases hb <;> exact ⟨hp, rfl, he, rfl⟩
    · cases s with
      | untouched => rfl
      | requested => rfl
      | running => exact absurd hs.1 hu.1
      | failed => simp [hu.2, InStage] at hs
  | register l hp =>
    cases s with
    | running => exact absurd hs.1 hp
    | _ =>
      refine ⟨_, ?_, stays⟩
      exact hs
  | unregister id =>
    cases s with
    | running =>
      obtain ⟨hp, hi, he, hf, hr⟩ := hs
      exact ⟨.running, ⟨hp, hi, he, hf, by simp [Registry.remove, hr]⟩, stays⟩
    | _ =>
      refine ⟨_, ?_, stays⟩
      exact hs

end Change

end Coordinator

/-! ### Sections in any order -/

/-- A section that some thread runs, with what the outside decides about it. -/
inductive Section (L : Type) where
  /-- First section of a call that needs the engine, on a thread that claims to be the owner or
  does not. -/
  | enter (caller : ThreadId) (claim : Bool) (refusal : Option StartupError)
  /-- A section that only reads, such as that of a waiting call that has been woken. -/
  | look
  | background (refusal : Option StartupError)
  | register (listener : L)
  | unregister (id : RegistrationId)
  /-- The last strong references to some listeners are dropped. -/
  | drop (gone : L → Bool)
  /-- A posted startup task is executed. -/
  | startup

/-- A coordinator among threads that run its sections. -/
structure Scene (σ E L : Type) where
  coordinator : Coordinator σ E L
  host : σ
  alive : L → Bool
  /-- Startup tasks that were accepted and have not been executed. -/
  accepted : Nat := 0

namespace Scene

variable {σ E L : Type}

/-- Post a startup task to a dispatcher that refuses it or does not. -/
def post (refusal : Option StartupError) (accepted : Nat) : Except StartupError Nat :=
  match refusal with
  | some e => .error e
  | none => .ok (accepted + 1)

/-- Nothing has happened yet. -/
def opening (initializer : Initializer σ E) (host : σ) (alive : L → Bool) : Scene σ E L :=
  { coordinator := .create initializer, host, alive }

/-- Run one section. -/
def step (s : Scene σ E L) (owner : Owner) : Section L → Scene σ E L
  | .enter caller claim refusal =>
    let e := s.coordinator.enter owner (post refusal) s.alive caller claim s.host s.accepted
    { s with coordinator := e.coordinator, host := e.host, accepted := e.dispatcher }
  | .look => s
  | .background refusal =>
    let (_, coordinator, accepted) := s.coordinator.background owner (post refusal) s.accepted
    { s with coordinator, accepted }
  | .register listener => { s with coordinator := (s.coordinator.register listener).2 }
  | .unregister id => { s with coordinator := (s.coordinator.unregister id).2 }
  | .drop gone => { s with alive := fun l => s.alive l && !gone l }
  | .startup =>
    if s.accepted = 0 then s
    else
      let attempt := s.coordinator.perform s.alive s.host
      { s with
        coordinator := attempt.coordinator
        host := attempt.host
        accepted := s.accepted - 1 }

/-- Run sections one after another. -/
def run (s : Scene σ E L) (owner : Owner) (sections : List (Section L)) : Scene σ E L :=
  sections.foldl (fun s x => s.step owner x) s

variable {s : Scene σ E L} {owner : Owner} {initializer : Initializer σ E}

theorem change_step (s : Scene σ E L) (owner : Owner) (x : Section L) :
    s.coordinator.Change owner (s.step owner x).coordinator := by
  cases x with
  | enter caller claim refusal =>
    exact (Coordinator.enter_entry s.coordinator owner (post refusal) s.alive caller claim s.host
      s.accepted).change
  | look => exact .stay
  | background refusal =>
    exact (Coordinator.background_asked s.coordinator owner (post refusal) s.accepted).change
  | register listener => exact Coordinator.change_register owner s.coordinator listener
  | unregister id => exact Coordinator.change_unregister owner s.coordinator id
  | drop gone => exact .stay
  | startup =>
    rw [step]
    split
    · exact .stay
    · exact Coordinator.change_perform owner s.coordinator s.alive s.host

/-- A fact about the coordinator that every change keeps holds after every run. -/
theorem run_induction {P : Coordinator σ E L → Prop} (h : P s.coordinator)
    (hstep : ∀ c c' : Coordinator σ E L, P c → c.Change owner c' → P c')
    (sections : List (Section L)) : P (s.run owner sections).coordinator := by
  induction sections generalizing s with
  | nil => exact h
  | cons x rest ih => exact ih (hstep _ _ h (s.change_step owner x))

/-- **A coordinator is always in exactly one of four stages.** After every sequence of sections,
whoever runs them and whatever the dispatcher refuses, the coordinator is in one stage; the next
section leads to the same or a later one; the only owner ever recorded is the dispatcher's; and
engine, failure and owner never change once they have been recorded. -/
theorem stages_of_run (initializer : Initializer σ E) (owner : Owner) (host : σ)
    (alive : L → Bool) (sections : List (Section L)) :
    let s := (opening initializer host alive).run owner sections
    (∃! stage, s.coordinator.InStage initializer owner stage) ∧
    (∀ next stage stage', s.coordinator.InStage initializer owner stage →
      (s.step owner next).coordinator.InStage initializer owner stage' →
      stage.leadsTo stage' = true) ∧
    s.coordinator.OwnedBy owner ∧
    (∀ later,
      (∀ e, s.coordinator.engine = some e →
        (s.run owner later).coordinator.engine = some e) ∧
      (∀ reason, s.coordinator.failure = some reason →
        (s.run owner later).coordinator.failure = some reason) ∧
      (∀ o, s.coordinator.owner = some o →
        (s.run owner later).coordinator.owner = some o)) := by
  intro s
  have hs : s.coordinator.OwnedBy owner ∧
      ∃ stage, s.coordinator.InStage initializer owner stage := by
    refine run_induction
      (P := fun c => c.OwnedBy owner ∧ ∃ stage, c.InStage initializer owner stage) ?_ ?_ sections
    · exact ⟨.inl rfl, .untouched, Coordinator.inStage_create⟩
    · rintro c c' ⟨ho, stage, hc⟩ hstep
      obtain ⟨stage', hc', -⟩ := hstep.stage ho hc
      exact ⟨hstep.ownedBy ho, stage', hc'⟩
  obtain ⟨ho, stage, hstage⟩ := hs
  -- the next section starts from the one stage there is
  refine ⟨⟨stage, hstage, fun _ h => Coordinator.stage_unique h hstage⟩, ?_, ho, ?_⟩
  · intro next s₁ s₂ h₁ h₂
    obtain ⟨s₃, h₃, hlead⟩ := (s.change_step owner next).stage ho h₁
    rw [Coordinator.stage_unique h₂ h₃]
    exact hlead
  · intro later
    refine ⟨fun e he => ?_, fun reason hf => ?_, fun o hw => ?_⟩
    · exact run_induction (P := fun c => c.engine = some e) he
        (fun _ _ h hc => hc.engine_mono h) later
    · exact run_induction (P := fun c => c.failure = some reason) hf
        (fun _ _ h hc => hc.failure_mono h) later
    · exact run_induction (P := fun c => c.owner = some o) hw
        (fun _ _ h hc => hc.owner_mono h) later

end Scene

end LazyEngine
