/-
Remote debugging of a provider that is not debuggable.

There are two toggles, one at the provider and one that its statics have. Each knows the owner in a
way of its own: the provider asks the coordinator, or the dispatcher as long as no owner has been
recorded, and statics keep the owner that they were made with. Both of them refuse every thread but
the owner's.

* `Provider.toggle?`, `Provider.lastAccepted` — a call of either toggle with what it returns, and
  the argument of the latest call that has been accepted;
* `move_of_toggle` — a call that is accepted sets remote debugging, one that is refused does
  nothing at all;
* `Toggled.result_eq` — what a call returns;
* `debugging_owner_only` — remote debugging is what the latest accepted call has set it to.

Design notes: statics are there only if the engine has started, so before that a call can only be
one at the provider. The host stays as it was until the initializer runs, so what remote debugging
is at first is up to the initializer alone.
-/
import LazyEngine.Proofs.Provider.Debugging
import Mathlib.Tactic.ByContra

namespace LazyEngine

/-- Starting the simulated engine does not touch remote debugging. -/
theorem Config.remoteDebugging_boot (c : Config) (host : Host) :
    (c.boot host).2.remoteDebugging = host.remoteDebugging := by
  unfold boot
  split
  · rfl
  · split <;> rfl

/-- A configuration that is not debuggable leaves the host to the initializer. -/
theorem Config.host_starting {config : Config} (hplain : config.debuggable = false)
    (initializer : Initializer Host Engine) (host : Host) :
    (config.starting initializer host).2 = (initializer host).2 := by
  rw [starting]
  generalize initializer host = result
  obtain ⟨outcome, after⟩ := result
  cases outcome with
  | engine e => exact if_neg (by rw [hplain]; exact Bool.false_ne_true)
  | failed | panicked => rfl

/-- Only statics concern the host, and only with their toggle. -/
theorem Services.host_answer_of_ne (s : Services) (id : ObjectId) (caller : ThreadId) (host : Host)
    {request : ServiceRequest} (h : ∀ enable, request ≠ .statics (.setDebugging enable)) :
    (s.answer id caller host request).2.2 = host := by
  cases request with
  | statics r =>
    simp only [answer]
    split
    · rfl
    · cases r with
      | findAddress | userAgent => rfl
      | setDebugging enable => exact absurd rfl (h enable)
  | geolocation | database => simp only [answer]; split <;> rfl
  | _ => rfl

namespace Provider

open Machine

variable {config : Config} {initializer : Initializer Host Engine} {p : Provider} {owner : Owner}
  {latest : Option Bool} {first : Host}

/-! ### Calls of the toggles -/

/-- A call of one of the two toggles. -/
structure Toggle where
  caller : ThreadId
  enable : Bool
  result : Except StartupError Value

/-- What the call sets remote debugging to, if it is accepted. -/
def Toggle.accepted? (c : Toggle) : Option Bool :=
  if c.result.isOk then some c.enable else none

/-- The call of a toggle that a move is: of the provider's own, or of that of statics that have been
made. -/
def toggle? (p : Provider) : Move → Option Toggle
  | .setDebugging t enable => some ⟨t, enable, (p.setDebugging t enable).1⟩
  | .use t id (.statics (.setDebugging enable)) =>
    (p.services.statics.get? id).map fun statics =>
      ⟨t, enable, (statics.answer t p.host (.setDebugging enable)).1⟩
  | _ => none

/-- What a move sets remote debugging to. -/
def accepted (p : Provider) (x : Move) : Option Bool :=
  (p.toggle? x).bind Toggle.accepted?

/-- The argument of the latest call of a toggle that has been accepted. -/
def lastAccepted (p : Provider) : List Move → Option Bool
  | [] => none
  | x :: rest => ((p.move x).lastAccepted rest).or (p.accepted x)

/-- Who may use the toggle of statics is decided by the owner that they were made with. -/
theorem answer_setDebugging {s : Statics} (h : s.debuggable = false) (t : ThreadId) (host : Host)
    (enable : Bool) :
    s.answer t host (.setDebugging enable) =
      if s.owner.isCurrent t then (.ok .nothing, { host with remoteDebugging := enable })
      else (.error (.notOwnerContext debuggingOperation), host) := by
  rw [Statics.answer, h, if_neg Bool.false_ne_true, Host.setDebugging]
  by_cases hc : s.owner.isCurrent t = true
  · rw [if_pos hc, if_pos hc]
    rfl
  · rw [if_neg hc, if_neg hc]
    rfl

/-- **A call of a toggle does what it has been asked for, or nothing.** -/
theorem move_of_toggle (hstatics : ∀ made ∈ p.services.statics.made, made.debuggable = false)
    {x : Move} {c : Toggle} (hx : p.toggle? x = some c) :
    p.move x = match c.accepted? with
      | some enable => p.withHost { p.host with remoteDebugging := enable }
      | none => p := by
  cases x with
  | setDebugging t enable =>
    obtain rfl : (⟨t, enable, (p.setDebugging t enable).1⟩ : Toggle) = c := Option.some.inj hx
    rw [Toggle.accepted?]
    rcases p.setDebugging_cases t enable with ⟨-, -, hok, heq⟩ | ⟨-, hok, heq⟩
    · rw [if_pos hok]
      exact heq
    · rw [if_neg (by rw [hok]; exact Bool.false_ne_true)]
      exact heq
  | use t id request =>
    cases request with
    | statics r =>
      cases r with
      | findAddress | userAgent => cases hx
      | setDebugging enable =>
        -- The statics answer for the owner that they were made with.
        obtain ⟨statics, hget, rfl⟩ := Option.map_eq_some_iff.mp hx
        have hplain := hstatics statics (List.mem_of_getElem? hget)
        have hanswer := answer_setDebugging hplain t p.host enable
        have hmove : p.move (.use t id (.statics (.setDebugging enable)))
            = p.withHost (statics.answer t p.host (.setDebugging enable)).2 := by
          rw [move, Services.answer.eq_def]
          simp only [hget]
        rw [hmove, Toggle.accepted?, hanswer]
        split <;> rfl
    | _ => cases hx
  | _ => cases hx

/-! ### What every move keeps -/

/-- A provider that is not debuggable and of which the toggles have been set to `latest`; `first`
is the host that the initializer finds. -/
structure Toggled (latest : Option Bool) (owner : Owner) (first : Host) (p : Provider) : Prop where
  plain : p.config.debuggable = false
  statics : ∀ made ∈ p.services.statics.made, made.debuggable = false ∧ made.owner = owner
  started : p.coordinator.phase = .started → p.host.remoteDebugging = latest.getD false
  unstarted : p.coordinator.phase ≠ .started → latest = none ∧ p.services.statics.made = []
  undecided : p.coordinator.Undecided → p.host = first

/-- What the toggles of a provider return to which caller. -/
theorem Toggled.result_eq (h : Toggled latest owner first p)
    (hsound : Sound initializer owner p.machine) {x : Move} {c : Toggle}
    (hx : p.toggle? x = some c) :
    c.result = if p.coordinator.phase = .started then
        if c.caller = owner.thread then .ok .nothing
        else .error (.notOwnerContext debuggingOperation)
      else .error (.notStarted debuggingOperation) := by
  cases x with
  | setDebugging t enable =>
    obtain rfl : (⟨t, enable, (p.setDebugging t enable).1⟩ : Toggle) = c := Option.some.inj hx
    have hstarted : p.coordinator.phase = .started ↔ ∃ e, p.coordinator.engine = some e :=
      hsound.started_iff
    have howner : p.owner.isCurrent t = true ↔ t = owner.thread := by
      rw [owner_eq_of_sound hsound]
      exact Owner.isCurrent_iff
    show (p.setDebugging t enable).1 = _
    unfold setDebugging
    cases he : p.coordinator.engine with
    | none =>
      rw [if_neg]
      rw [hstarted, he]
      exact fun ⟨_, hnone⟩ => Option.some_ne_none _ hnone.symm
    | some engine =>
      rw [if_pos (hstarted.mpr ⟨engine, he⟩), Host.setDebugging]
      by_cases ht : t = owner.thread
      · rw [if_pos (howner.mpr ht), if_pos ht]
        rfl
      · rw [if_neg (fun hc => ht (howner.mp hc)), if_neg ht]
        rfl
  | use t id request =>
    cases request with
    | statics r =>
      cases r with
      | findAddress | userAgent => cases hx
      | setDebugging enable =>
        obtain ⟨statics, hget, rfl⟩ := Option.map_eq_some_iff.mp hx
        have hmade : statics ∈ p.services.statics.made := List.mem_of_getElem? hget
        obtain ⟨hplain, howner⟩ := h.statics statics hmade
        -- there are statics, so the engine has started
        have hp : p.coordinator.phase = .started := by
          by_contra hp
          rw [(h.unstarted hp).2] at hmade
          cases hmade
        have hcurrent : statics.owner.isCurrent t = true ↔ t = owner.thread := by
          rw [Owner.isCurrent_iff, howner]
        simp only [answer_setDebugging hplain]
        rw [if_pos hp]
        by_cases ht : t = owner.thread
        · rw [if_pos (hcurrent.mpr ht), if_pos ht]
        · rw [if_neg (fun hc => ht (hcurrent.mp hc)), if_neg ht]
    | _ => cases hx
  | _ => cases hx

/-- A step of startup leaves remote debugging as the initializer leaves it when it starts the
engine, and does not touch it otherwise. -/
theorem Toggled.goes {m : Machine Host Engine} (h : Toggled latest owner first p)
    (hsound : Sound (p.config.starting initializer) owner p.machine)
    (hoff : (initializer first).2.remoteDebugging = false) {asked : Option Call}
    (hgoes : Goes p.machine asked m) : Toggled latest owner first (p.withMachine m) := by
  rcases hsound.decides_of_goes hgoes with ⟨n, t, f, below, outcome, hc, hhost, hd⟩ | hs
  · have hundecided : p.coordinator.Undecided := by
      have := hd.undecided
      rwa [hc] at this
    obtain ⟨hnone, hmade⟩ := h.unstarted hundecided.1
    refine ⟨h.plain, h.statics, fun _ => ?_, fun _ => ⟨hnone, hmade⟩,
      fun hu => absurd hu hd.decided⟩
    have hafter : m.host = (initializer first).2 := by
      have hfirst : n.host = first := hhost.trans (h.undecided hundecided)
      rw [← Config.host_starting h.plain, ← hfirst]
      cases hd with
      | started | failed => rfl
    show m.host.remoteDebugging = _
    rw [hafter, hoff, hnone]
    rfl
  · refine ⟨h.plain, h.statics, fun hp => ?_, fun hp => h.unstarted (hp ∘ hs.started.mpr),
      fun hu => hs.host.trans (h.undecided (hs.undecided_iff.mp hu))⟩
    show m.host.remoteDebugging = _
    rw [hs.host]
    exact h.started (hs.started.mp hp)

/-- Statics are made when the engine has started, with the owner there is. -/
theorem Toggled.handOut (h : Toggled latest owner first p)
    (hsound : Sound initializer owner p.machine) (kind : ServiceKind) :
    Toggled latest owner first (p.handOut kind).2 := by
  have hs := p.session_handOut kind
  have hcoordinator : (p.handOut kind).2.coordinator = p.coordinator := by
    rw [coordinator, hs, coordinator]
  have hhost : (p.handOut kind).2.host = p.host := by rw [host, hs, host]
  -- Statics are the only service with an owner, and new ones copy the provider's.
  have hmade : ∀ made ∈ (p.handOut kind).2.services.statics.made,
      made ∈ p.services.statics.made ∨
        p.coordinator.phase = .started ∧ made.owner = p.owner ∧
          made.debuggable = p.config.debuggable := by
    intro made hmade
    unfold Provider.handOut at hmade
    split at hmade
    · exact .inl hmade
    · exact .inl hmade
    · exact .inl hmade
    · rename_i engine _ he
      rcases Services.mem_statics_request hmade with hmade | rfl
      · exact .inl hmade
      · exact .inr ⟨hsound.started_iff.mpr ⟨engine, he⟩, rfl, rfl⟩
  refine ⟨?_, fun made hmem => ?_, ?_, fun hp => ?_, ?_⟩
  · have hconfig := p.config_move (.handOut kind)
    exact (congrArg Config.debuggable hconfig).trans h.plain
  · rcases hmade made hmem with hmem | ⟨-, howner, hdebuggable⟩
    · exact h.statics made hmem
    · rw [howner, hdebuggable, owner_eq_of_sound hsound]
      exact ⟨h.plain, rfl⟩
  · rw [hcoordinator, hhost]
    exact h.started
  · rw [hcoordinator] at hp
    obtain ⟨hnone, hnil⟩ := h.unstarted hp
    refine ⟨hnone, List.eq_nil_iff_forall_not_mem.mpr fun made hmem => ?_⟩
    rcases hmade made hmem with hmem | ⟨hp', -⟩
    · rw [hnil] at hmem
      cases hmem
    · exact hp hp'
  · rw [hcoordinator, hhost]
    exact h.undecided

/-- A call of a toggle is accepted only if the engine has started. -/
theorem Toggled.toggle (h : Toggled latest owner first p)
    (hsound : Sound initializer owner p.machine) {x : Move} {c : Toggle}
    (hx : p.toggle? x = some c) : Toggled (c.accepted?.or latest) owner first (p.move x) := by
  have hmove := move_of_toggle (fun made hmade => (h.statics made hmade).1) hx
  cases hc : c.accepted? with
  | none =>
    rw [hmove, hc]
    exact h
  | some enable =>
    have hok : c.result.isOk = true := by
      by_contra hno
      rw [Toggle.accepted?, if_neg hno] at hc
      cases hc
    have hp : p.coordinator.phase = .started := by
      by_contra hp
      rw [h.result_eq hsound hx, if_neg hp] at hok
      cases hok
    rw [hmove, hc]
    exact ⟨h.plain, h.statics, fun _ => rfl, fun hno => absurd hp hno, fun hu => absurd hp hu.1⟩

theorem Toggled.move (h : Toggled latest owner first p)
    (hsound : Sound (p.config.starting initializer) owner p.machine)
    (hoff : (initializer first).2.remoteDebugging = false) (x : Move) :
    Toggled ((p.accepted x).or latest) owner first (p.move x) := by
  cases x with
  | spawn | dropView => exact ⟨h.plain, h.statics, h.started, h.unstarted, h.undecided⟩
  | step t => exact h.goes hsound hoff (p.goes_move (.step t))
  | ask t demand => exact h.goes hsound hoff (p.goes_move (.ask t demand))
  | createView t name =>
    -- the new view is held before it is registered
    let q : Provider := { p with session := (p.session.newListener name .plain).2 }
    have hq : Toggled latest owner first q :=
      ⟨h.plain, h.statics, h.started, h.unstarted, h.undecided⟩
    exact hq.goes (sound_prepared hsound (.createView t name)) hoff
      (p.goes_move (.createView t name))
  | handOut kind => exact h.handOut hsound kind
  | setDebugging t enable => exact h.toggle hsound (x := .setDebugging t enable) rfl
  | use t id request =>
    cases hx : p.toggle? (.use t id request) with
    | some c =>
      have := h.toggle hsound hx
      rwa [accepted, hx]
    | none =>
      -- this is no call of a toggle, or one of statics that there are not
      have hhost : (p.services.answer id t p.host request).2.2 = p.host := by
        by_cases hrequest : ∃ enable, request = .statics (.setDebugging enable)
        · obtain ⟨enable, rfl⟩ := hrequest
          have hget : p.services.statics.get? id = none := Option.map_eq_none_iff.mp hx
          rw [Services.answer.eq_def]
          simp only [hget]
        · exact Services.host_answer_of_ne _ _ _ _ fun enable heq => hrequest ⟨enable, heq⟩
      have hmade : (p.move (.use t id request)).services.statics = p.services.statics :=
        Services.statics_answer ..
      have hmoved : (p.move (.use t id request)).host = p.host := hhost
      rw [accepted, hx]
      refine ⟨h.plain, ?_, ?_, ?_, ?_⟩
      · rw [hmade]
        exact h.statics
      · rw [hmoved]
        exact h.started
      · rw [hmade]
        exact h.unstarted
      · rw [hmoved]
        exact h.undecided

theorem Toggled.run (h : Toggled latest owner first p)
    (hsound : Sound (p.config.starting initializer) owner p.machine)
    (hoff : (initializer first).2.remoteDebugging = false) (moves : List Move) :
    Toggled ((p.lastAccepted moves).or latest) owner first (p.run moves) := by
  induction moves generalizing p latest with
  | nil => exact h
  | cons x rest ih =>
    have hsound' : Sound ((p.move x).config.starting initializer) owner (p.move x).machine := by
      rw [config_move]
      exact sound_move hsound x
    have hrest := ih (h.move hsound hoff x) hsound'
    rwa [← Option.or_assoc] at hrest

/-! ### Main result -/

/-- **Remote debugging is in the hands of the owner thread.** Whatever threads do with a provider
that is not debuggable, and in whatever order, in every state in which the engine is started remote
debugging is what the latest accepted call of either toggle has set it to, and off if there was
none. A call is accepted exactly when it is made on the owner thread and the engine is started. On
any other thread it is refused, for that reason once the engine is started and before that because
it is not, and nothing at all changes. No call of a toggle touches anything but the host, so none
starts the engine. Who the owner is does not depend on when the provider looks, or has made its
statics. Of the initializer it is taken for granted that it does not itself leave remote debugging
on. -/
theorem debugging_owner_only (config : Config) (change : VersionChange)
    (initializer : Initializer Host Engine) (ownership : Ownership) (files : FileSystem)
    (hplain : config.debuggable = false)
    (hoff : (initializer { files }).2.remoteDebugging = false) (moves : List Move) :
    let start := opening config change initializer ownership files
    let p := start.run moves
    (p.coordinator.phase = .started →
      p.host.remoteDebugging = (start.lastAccepted moves).getD false) ∧
    (p.owner = ownership.owner ∧
      ∀ made ∈ p.services.statics.made, made.owner = ownership.owner) ∧
    ∀ x c, p.toggle? x = some c →
      (c.result.isOk = true ↔
        c.caller = ownership.owner.thread ∧ p.coordinator.phase = .started) ∧
      (c.caller ≠ ownership.owner.thread →
        c.result = .error (if p.coordinator.phase = .started then
            .notOwnerContext debuggingOperation
          else .notStarted debuggingOperation) ∧
        p.move x = p) ∧
      (p.move x).machine = { p.machine with host := (p.move x).host } := by
  intro start p
  -- At the beginning nothing has been accepted and nothing has set debugging.
  have hstart : Toggled none ownership.owner { files } start := by
    refine ⟨hplain, List.forall_mem_nil _, fun hp => ?_, fun _ => ⟨rfl, rfl⟩, fun _ => ?_⟩
    · cases ownership <;> cases hp
    · cases ownership <;> rfl
  have hsound₀ := sound_opening config change initializer ownership files
  have hsound := sound_run hsound₀ moves
  have h := hstart.run hsound₀ hoff moves
  rw [Option.or_none] at h
  refine ⟨h.started, ⟨owner_eq_of_sound hsound, fun made hmade => (h.statics made hmade).2⟩,
    fun x c hx => ?_⟩
  have hresult := h.result_eq hsound hx
  have hmove := move_of_toggle (fun made hmade => (h.statics made hmade).1) hx
  refine ⟨?_, fun hother => ?_, ?_⟩
  · rw [hresult]
    -- A call is judged first by whether the engine is started, then by who makes it.
    by_cases hp : p.coordinator.phase = .started
    · by_cases hc : c.caller = ownership.owner.thread
      · rw [if_pos hp, if_pos hc]
        exact iff_of_true rfl ⟨hc, hp⟩
      · rw [if_pos hp, if_neg hc]
        exact iff_of_false Bool.false_ne_true fun h => hc h.1
    · rw [if_neg hp]
      exact iff_of_false Bool.false_ne_true fun h => hp h.2
  · have hrefused : c.result = .error (if p.coordinator.phase = .started then
        .notOwnerContext debuggingOperation else .notStarted debuggingOperation) := by
      rw [hresult, if_neg hother]
      split <;> rfl
    refine ⟨hrefused, ?_⟩
    -- A refused call is not accepted, so that the move is none.
    have hnone : c.accepted? = none := by
      rw [Toggle.accepted?, hrefused]
      rfl
    rw [hmove, hnone]
  · rw [hmove]
    cases c.accepted? <;> rfl

/-- What `debugging_owner_only` says of a provider of the simulated engine, over whose queue the
owner has started it and used the toggle of its statics, and another thread has used both. -/
theorem debugging_owner_only_of_boot :
    let config : Config := { baseDirectory := "base" }
    let start := opening config .firstRun config.boot (.queue none) {}
    let moves : List Move := [.setDebugging 0 true, .ask 0 (.start .owner), .step 0, .step 0,
      .spawn, .handOut .statics, .use 0 0 (.statics (.setDebugging true)), .setDebugging 1 false,
      .use 1 0 (.statics (.setDebugging false))]
    let p := start.run moves
    let c : Toggle := ⟨1, false, (p.setDebugging 1 false).1⟩
    config.debuggable = false ∧ (config.boot { files := {} }).2.remoteDebugging = false ∧
    p.coordinator.phase = .started ∧ start.lastAccepted moves = some true ∧
    p.toggle? (.setDebugging 1 false) = some c ∧ c.caller ≠ (Ownership.queue none).owner.thread ∧
    p.host.remoteDebugging = (start.lastAccepted moves).getD false ∧
    (c.result = .error (if p.coordinator.phase = .started then .notOwnerContext debuggingOperation
        else .notStarted debuggingOperation) ∧
      p.move (.setDebugging 1 false) = p) := by
  intro config start moves p c
  have hoff : (config.boot { files := {} }).2.remoteDebugging = false :=
    config.remoteDebugging_boot _
  have hstarted : p.coordinator.phase = .started := by decide +kernel
  have hother : c.caller ≠ (Ownership.queue none).owner.thread := by decide
  obtain ⟨hflag, -, hcalls⟩ :=
    debugging_owner_only config .firstRun config.boot (.queue none) {} rfl hoff moves
  obtain ⟨-, hrefused, -⟩ := hcalls (.setDebugging 1 false) c rfl
  exact ⟨rfl, hoff, hstarted, by decide +kernel, rfl, hother, hflag hstarted, hrefused hother⟩

end Provider

end LazyEngine
