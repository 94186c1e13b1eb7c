/-
What a section does to the coordinator.

The sections are functions with many early exits. Each of them is turned inside out here, once, and
nothing else about the coordinator unfolds them:

* `Performed`, `perform_performed` — the five ways in which running startup can go;
* `Entry`, `enter_entry` — the seven ways in which the first section of a call can go;
* `Asked`, `background_asked` — the three ways in which asking for startup can go;
* `Change` — what any section at all can do to the coordinator; a `Change` never unsets a field
  (`Change.engine_mono`, `Change.failure_mono`, `Change.owner_mono`).

Design notes: `Change` forgets the answers and keeps what happens to the fields, so that a fact
about the coordinator has to be checked against eight changes only, whoever runs which section.
Running startup inline records the owner first; `Bound` says that this is the only difference to
running it as a posted task.
-/
import LazyEngine.Startup.Coordinator

namespace LazyEngine

namespace InitOutcome

variable {E : Type}

theorem verdict_eq_ok_iff {o : InitOutcome E} {e : E} : o.verdict = .ok e ↔ o = .engine e := by
  cases o <;> simp [verdict]

end InitOutcome

namespace Coordinator

variable {σ E L D : Type} {c c' : Coordinator σ E L} {owner : Owner}

/-- The coordinator with the initializer taken out. -/
def begun (c : Coordinator σ E L) : Coordinator σ E L :=
  { c with phase := c.phase.advance .starting, initializer := none }

/-- The coordinator after its initializer has produced an engine. -/
def succeeded (c : Coordinator σ E L) (engine : E) : Coordinator σ E L :=
  { c.begun with
    phase := .started
    engine := c.engine.or (some engine)
    registrants := c.registrants.emptied }

/-- The coordinator after a failure. -/
def failed (c : Coordinator σ E L) (reason : String) : Coordinator σ E L :=
  { c.begun with failure := some reason }

/-- The coordinator after startup has been posted. -/
def requested (c : Coordinator σ E L) (owner : Owner) : Coordinator σ E L :=
  { c.bindOwner owner with phase := .starting }

/-- Startup is neither done nor known to have failed. -/
def Undecided (c : Coordinator σ E L) : Prop :=
  c.phase ≠ .started ∧ c.failure = none

theorem isStarted_eq_false (h : c.phase ≠ .started) : c.phase.isStarted = false := by
  rw [Bool.eq_false_iff]
  exact fun hs => h (Phase.isStarted_iff.1 hs)

/-! ### Running startup -/

/-- What startup without an initializer records. -/
def stuckReason : String := "initialization did not complete"

/-- The ways in which running startup can go. -/
inductive Performed (c : Coordinator σ E L) (alive : L → Bool) (host : σ) :
    Attempt σ E L → Prop where
  | done : c.phase = .started → Performed c alive host ⟨.ok [], c, host, false, false⟩
  | poisoned {reason : String} : c.phase ≠ .started → c.failure = some reason →
      Performed c alive host ⟨.error (.poisoned reason), c, host, false, false⟩
  | stuck : c.Undecided → c.initializer = none →
      Performed c alive host
        ⟨.error (.poisoned stuckReason), c.failed stuckReason, host, false, true⟩
  | succeeded {initializer : Initializer σ E} {engine : E} : c.Undecided →
      c.initializer = some initializer → (initializer host).1 = .engine engine →
      Performed c alive host
        ⟨.ok (c.registrants.live alive), c.succeeded engine, (initializer host).2, true, true⟩
  | failed {initializer : Initializer σ E} {reason : String} : c.Undecided →
      c.initializer = some initializer → (initializer host).1.verdict = .error reason →
      Performed c alive host
        ⟨.error (.init reason), c.failed reason, (initializer host).2, true, true⟩

theorem perform_of_none (hu : c.Undecided) (hi : c.initializer = none) (alive : L → Bool)
    (host : σ) :
    c.perform alive host = ⟨.error (.poisoned stuckReason), c.failed stuckReason, host, false, true⟩
    := by
  simp only [perform, isStarted_eq_false hu.1, hu.2, hi, Bool.false_eq_true, if_false]
  rfl

theorem perform_of_engine (hu : c.Undecided) {initializer : Initializer σ E}
    (hi : c.initializer = some initializer) {host : σ} {engine : E}
    (hv : (initializer host).1 = .engine engine) (alive : L → Bool) :
    c.perform alive host = ⟨.ok (c.registrants.live alive), c.succeeded engine,
      (initializer host).2, true, true⟩ := by
  have hok := InitOutcome.verdict_eq_ok_iff.2 hv
  simp only [perform, isStarted_eq_false hu.1, hu.2, hi, hok, Bool.false_eq_true, if_false,
    Phase.advance_eq_started_of_wanted, succeeded, begun]

theorem perform_of_error (hu : c.Undecided) {initializer : Initializer σ E}
    (hi : c.initializer = some initializer) {host : σ} {reason : String}
    (hv : (initializer host).1.verdict = .error reason) (alive : L → Bool) :
    c.perform alive host = ⟨.error (.init reason), c.failed reason, (initializer host).2, true,
      true⟩ := by
  simp only [perform, isStarted_eq_false hu.1, hu.2, hi, hv, Bool.false_eq_true, if_false]
  rfl

theorem perform_performed (c : Coordinator σ E L) (alive : L → Bool) (host : σ) :
    Performed c alive host (c.perform alive host) := by
  by_cases hs : c.phase = .started
  · rw [show c.perform alive host = ⟨.ok [], c, host, false, false⟩ by simp [perform, hs]]
    exact .done hs
  cases hf : c.failure with
  | some reason =>
    rw [perform_poisoned hs hf]
    exact .poisoned hs hf
  | none =>
    have hu : c.Undecided := ⟨hs, hf⟩
    cases hi : c.initializer with
    | none =>
      rw [perform_of_none hu hi]
      exact .stuck hu hi
    | some initializer =>
      cases hv : (initializer host).1.verdict with
      | ok engine =>
        have hv' := InitOutcome.verdict_eq_ok_iff.1 hv
        rw [perform_of_engine hu hi hv']
        exact .succeeded hu hi hv'
      | error reason =>
        rw [perform_of_error hu hi hv]
        exact .failed hu hi hv

/-! ### The first section of a call -/

/-- The ways in which the first section of a call can go. -/
inductive Entry (c : Coordinator σ E L) (owner : Owner) (post : D → Except StartupError D)
    (alive : L → Bool) (caller : ThreadId) (claim : Bool) (host : σ) (d : D) :
    Entered σ E L D → Prop where
  | done : c.phase = .started →
      Entry c owner post alive caller claim host d
        { next := .answer c.published, coordinator := c, host, dispatcher := d }
  | poisoned {reason : String} : c.phase ≠ .started → c.failure = some reason →
      Entry c owner post alive caller claim host d
        { next := .answer (.error (.poisoned reason)), coordinator := c, host, dispatcher := d }
  | performed {a : Attempt σ E L} : c.Undecided → (c.ownerOr owner).isCurrent caller = true →
      Performed (c.bindOwner owner) alive host a →
      Entry c owner post alive caller claim host d
        { next := a.next
          coordinator := a.coordinator
          host := a.host
          dispatcher := d
          ran := a.ran
          wakes := a.wakes }
  | notOwner : c.Undecided → (c.ownerOr owner).isCurrent caller = false → claim = true →
      Entry c owner post alive caller claim host d
        { next := .answer (.error (.notOwnerContext "ensure_started"))
          coordinator := c.bindOwner owner, host, dispatcher := d }
  | refused {e : StartupError} : c.Undecided → (c.ownerOr owner).isCurrent caller = false →
      claim = false → c.phase = .notStarted → post d = .error e →
      Entry c owner post alive caller claim host d
        { next := .answer (.error e), coordinator := c.bindOwner owner, host, dispatcher := d }
  | posted {d' : D} : c.Undecided → (c.ownerOr owner).isCurrent caller = false →
      claim = false → c.phase = .notStarted → post d = .ok d' →
      Entry c owner post alive caller claim host d
        { next := .wait, coordinator := c.requested owner, host, dispatcher := d' }
  | joined : c.Undecided → (c.ownerOr owner).isCurrent caller = false → claim = false →
      c.phase = .starting →
      Entry c owner post alive caller claim host d
        { next := .wait, coordinator := c.bindOwner owner, host, dispatcher := d }

/-- On the owner thread an undecided startup is run in the section. -/
theorem enter_of_owner (hu : c.Undecided) {owner : Owner} {caller : ThreadId}
    (ho : (c.ownerOr owner).isCurrent caller = true) (post : D → Except StartupError D)
    (alive : L → Bool) (claim : Bool) (host : σ) (d : D) :
    c.enter owner post alive caller claim host d =
      let attempt := (c.bindOwner owner).perform alive host
      { next := attempt.next
        coordinator := attempt.coordinator
        host := attempt.host
        dispatcher := d
        ran := attempt.ran
        wakes := attempt.wakes } := by
  simp only [enter, isStarted_eq_false hu.1, hu.2, ho, Bool.false_eq_true, if_false, if_true]

theorem enter_entry (c : Coordinator σ E L) (owner : Owner) (post : D → Except StartupError D)
    (alive : L → Bool) (caller : ThreadId) (claim : Bool) (host : σ) (d : D) :
    Entry c owner post alive caller claim host d
      (c.enter owner post alive caller claim host d) := by
  -- The section asks in this order: started, failed, on the owner, claimed, asked for.
  by_cases hs : c.phase = .started
  · rw [enter_of_started hs]
    exact .done hs
  have hs' := isStarted_eq_false hs
  cases hf : c.failure with
  | some reason =>
    simp only [enter, hs', hf, Bool.false_eq_true, if_false]
    exact .poisoned hs hf
  | none =>
    have hu : c.Undecided := ⟨hs, hf⟩
    cases ho : (c.ownerOr owner).isCurrent caller with
    | true =>
      rw [enter_of_owner hu ho]
      exact .performed hu ho (perform_performed (c.bindOwner owner) alive host)
    | false =>
      cases claim with
      | true =>
        simp only [enter, hs', hf, ho, Bool.false_eq_true, if_false, if_true]
        exact .notOwner hu ho rfl
      | false =>
        by_cases hp : c.phase = .notStarted
        · cases hd : post d with
          | error e =>
            simp only [enter, hf, ho, hp, hd, Bool.false_eq_true, if_false, if_true]
            exact .refused hu ho rfl hp hd
          | ok d' =>
            simp only [enter, hf, ho, hp, hd, Bool.false_eq_true, if_false, if_true]
            exact .posted hu ho rfl hp hd
        · have hp' : c.phase = .starting := by
            cases h : c.phase <;> simp_all
          simp only [enter, hs', hf, ho, hp, Bool.false_eq_true, if_false]
          exact .joined hu ho rfl hp'

/-! ### Asking for startup, and taking a registration back -/

/-- The ways in which asking for startup without waiting can go. -/
inductive Asked (c : Coordinator σ E L) (owner : Owner) (post : D → Except StartupError D) (d : D) :
    Except StartupError Unit × Coordinator σ E L × D → Prop where
  | underway : c.phase ≠ .notStarted → Asked c owner post d (.ok (), c, d)
  | refused {e : StartupError} : c.phase = .notStarted → post d = .error e →
      Asked c owner post d (.error e, c.bindOwner owner, d)
  | posted {d' : D} : c.phase = .notStarted → post d = .ok d' →
      Asked c owner post d (.ok (), c.requested owner, d')

theorem background_asked (c : Coordinator σ E L) (owner : Owner)
    (post : D → Except StartupError D) (d : D) :
    Asked c owner post d (c.background owner post d) := by
  unfold background
  by_cases hn : c.phase = .notStarted
  · rw [if_pos hn, show c.phase.advance .starting = .starting by rw [hn]; rfl]
    dsimp only
    split
    · rename_i hd
      exact .refused hn hd
    · rename_i hd
      exact .posted hn hd
  · rw [if_neg hn]
    exact .underway hn

/-- Taking a registration back concerns the registry only. -/
theorem unregister_eq (c : Coordinator σ E L) (id : RegistrationId) :
    ∃ r, (c.unregister id).2 = { c with registrants := r } := by
  unfold unregister
  split
  · exact ⟨_, rfl⟩
  · exact ⟨c.registrants, rfl⟩

/-! ### Any section -/

/-- The coordinator as it is, or with the owner recorded. -/
inductive Bound (owner : Owner) (c : Coordinator σ E L) : Coordinator σ E L → Prop where
  | asIs : Bound owner c c
  | recorded : Bound owner c (c.bindOwner owner)

/-- What a section can do to the coordinator. -/
inductive Change (owner : Owner) (c : Coordinator σ E L) : Coordinator σ E L → Prop where
  | stay : Change owner c c
  | bind : c.phase ≠ .started → Change owner c (c.bindOwner owner)
  | request : c.phase = .notStarted → Change owner c (c.requested owner)
  | stick {c₁ : Coordinator σ E L} : Bound owner c c₁ → c.Undecided → c.initializer = none →
      Change owner c (c₁.failed stuckReason)
  | succeed {c₁ : Coordinator σ E L} {initializer : Initializer σ E} {host : σ} {engine : E} :
      Bound owner c c₁ → c.Undecided → c.initializer = some initializer →
      (initializer host).1 = .engine engine → Change owner c (c₁.succeeded engine)
  | fail {c₁ : Coordinator σ E L} {initializer : Initializer σ E} {host : σ} {reason : String} :
      Bound owner c c₁ → c.Undecided → c.initializer = some initializer →
      (initializer host).1.verdict = .error reason → Change owner c (c₁.failed reason)
  | register (listener : L) : c.phase ≠ .started →
      Change owner c { c with registrants := c.registrants.push listener }
  | unregister (id : RegistrationId) :
      Change owner c { c with registrants := c.registrants.remove id }

theorem Performed.change {c₁ : Coordinator σ E L} {alive : L → Bool} {host : σ}
    {a : Attempt σ E L} (hb : Bound owner c c₁) (hc : Change owner c c₁)
    (h : Performed c₁ alive host a) : Change owner c a.coordinator := by
  have hu : c₁.Undecided ↔ c.Undecided := by cases hb <;> exact Iff.rfl
  have hi : c₁.initializer = c.initializer := by cases hb <;> rfl
  cases h with
  | done => exact hc
  | poisoned => exact hc
  | stuck h₁ h₂ => exact .stick hb (hu.1 h₁) (hi ▸ h₂)
  | succeeded h₁ h₂ h₃ => exact .succeed hb (hu.1 h₁) (hi ▸ h₂) h₃
  | failed h₁ h₂ h₃ => exact .fail hb (hu.1 h₁) (hi ▸ h₂) h₃

theorem change_perform (owner : Owner) (c : Coordinator σ E L) (alive : L → Bool) (host : σ) :
    Change owner c (c.perform alive host).coordinator :=
  (perform_performed c alive host).change .asIs .stay

theorem Entry.change {post : D → Except StartupError D} {alive : L → Bool} {caller : ThreadId}
    {claim : Bool} {host : σ} {d : D} {e : Entered σ E L D}
    (h : Entry c owner post alive caller claim host d e) : Change owner c e.coordinator := by
  cases h with
  | done => exact .stay
  | poisoned => exact .stay
  | performed hu _ hp => exact hp.change .recorded (.bind hu.1)
  | notOwner hu => exact .bind hu.1
  | refused hu => exact .bind hu.1
  | posted _ _ _ hn => exact .request hn
  | joined hu => exact .bind hu.1

theorem Asked.change {post : D → Except StartupError D} {d : D}
    {r : Except StartupError Unit × Coordinator σ E L × D} (h : Asked c owner post d r) :
    Change owner c r.2.1 := by
  cases h with
  | underway => exact .stay
  | refused hn => exact .bind (by simp [hn])
  | posted hn => exact .request hn

theorem change_register (owner : Owner) (c : Coordinator σ E L) (listener : L) :
    Change owner c (c.register listener).2 := by
  unfold register
  split
  · exact .stay
  · rename_i hs
    exact .register listener fun h => hs (Phase.isStarted_iff.2 h)

theorem change_unregister (owner : Owner) (c : Coordinator σ E L) (id : RegistrationId) :
    Change owner c (c.unregister id).2 := by
  unfold unregister
  split
  · exact .unregister id
  · exact .stay

namespace Change

/-- A published engine stays. -/
theorem engine_mono {e : E} (h : Change owner c c') (he : c.engine = some e) :
    c'.engine = some e := by
  cases h with
  | stick hb | fail hb => cases hb <;> exact he
  | succeed hb => cases hb <;> simp [succeeded, bindOwner, he]
  | _ => exact he

/-- A recorded failure stays. -/
theorem failure_mono {reason : String} (h : Change owner c c') (hf : c.failure = some reason) :
    c'.failure = some reason := by
  cases h with
  | stick _ hu | fail _ hu => exact absurd hf (by simp [hu.2])
  | succeed hb => cases hb <;> exact hf
  | _ => exact hf

/-- A recorded owner stays. -/
theorem owner_mono {o : Owner} (h : Change owner c c') (ho : c.owner = some o) :
    c'.owner = some o := by
  have hb : (c.bindOwner owner).owner = some o := by simp [bindOwner, ho]
  cases h with
  | bind => exact hb
  | request => exact hb
  | stick hb' | succeed hb' | fail hb' =>
    cases hb' with
    | asIs => exact ho
    | recorded => exact hb
  | _ => exact ho

end Change

end Coordinator

end LazyEngine
