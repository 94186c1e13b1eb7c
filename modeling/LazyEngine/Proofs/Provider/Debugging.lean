/-
Remote debugging of a debuggable provider.

A debuggable configuration has remote debugging turned on by the very section that starts the
engine. Two switches can be used later: the one that statics have does nothing in a debuggable
configuration, but the one that the provider itself has does what it is told, so it is this one
that decides.

* `Provider.switched`, `Provider.lastSwitch` — what the provider's own switch has been set to;
* `debugging_of_debuggable` — remote debugging is on in every started state, unless the owner
  thread has switched it off at the provider;
* `debugging_switched_off` — this happens.

Design notes: the value that was set last is carried along as a ghost account (`Debugged`), which
one move updates by what it has switched; before the engine has started there is nothing on it,
because the switch is refused.
-/
import LazyEngine.Proofs.Provider.Moves

namespace LazyEngine

/-- The initializer of a debuggable configuration leaves remote debugging on. -/
theorem Config.debugging_starting {config : Config} {initializer : Initializer Host Engine}
    {host : Host} {engine : Engine} (hd : config.debuggable = true)
    (h : (config.starting initializer host).1 = .engine engine) :
    (config.starting initializer host).2.remoteDebugging = true := by
  rw [Config.starting] at h ⊢
  generalize initializer host = result at h ⊢
  obtain ⟨outcome, after⟩ := result
  cases outcome with
  | engine e => exact congrArg Host.remoteDebugging (if_pos hd)
  | failed | panicked => cases h

/-- Statics of a debuggable configuration switch nothing. -/
theorem Statics.answer_of_debuggable {s : Statics} (h : s.debuggable = true) (caller : ThreadId)
    (host : Host) (r : StaticsRequest) : (s.answer caller host r).2 = host := by
  cases r with
  | findAddress | userAgent => rfl
  | setDebugging enable => rw [answer, if_pos h]

namespace Services

/-- Statics are made in the section that hands them out, and nowhere else. -/
theorem mem_statics_request {s : Services} {fresh made : Statics} {directory : String}
    {kind : ServiceKind} (h : made ∈ (s.request fresh directory kind).2.statics.made) :
    made ∈ s.statics.made ∨ made = fresh := by
  cases kind with
  | statics =>
    simp only [request, Shelf.request] at h
    split at h
    · exact .inl h
    · rcases List.mem_append.mp h with h | h
      · exact .inl h
      · exact .inr (List.mem_singleton.mp h)
  | geolocation | database =>
    left
    simp only [request] at h
    split at h <;> exact h
  | _ => exact .inl h

/-- Services that answer stay the ones they are. -/
theorem statics_answer (s : Services) (id : ObjectId) (caller : ThreadId) (host : Host)
    (request : ServiceRequest) : (s.answer id caller host request).2.1.statics = s.statics := by
  cases request with
  | statics | geolocation | database => simp only [answer]; split <;> rfl
  | _ => rfl

/-- No service but statics concerns the host, and statics of a debuggable configuration do not. -/
theorem host_answer {s : Services} (h : ∀ made ∈ s.statics.made, made.debuggable = true)
    (id : ObjectId) (caller : ThreadId) (host : Host) (request : ServiceRequest) :
    (s.answer id caller host request).2.2 = host := by
  cases request with
  | statics r =>
    simp only [answer]
    split
    · rfl
    · rename_i made hmade
      exact made.answer_of_debuggable (h made (List.mem_of_getElem? hmade)) caller host r
  | geolocation | database => simp only [answer]; split <;> rfl
  | _ => rfl

end Services

namespace Machine

variable {σ E : Type} {m m' : Machine σ E} {initializer : Initializer σ E} {owner : Owner}

/-- Whatever code asks for, startup is decided in the section that does so, or left where it is. -/
theorem Sound.decides_of_goes (h : Sound initializer owner m) {asked : Option Call}
    (hgoes : Goes m asked m') :
    (∃ n t f below outcome, n.coordinator = m.coordinator ∧ n.host = m.host ∧
      Decides n t initializer f below outcome m') ∨ Suspended m m' := by
  cases hgoes with
  | stays => exact .inr (.of_eq rfl rfl)
  | @steps t m' hstep =>
    rcases h.decides (turn_of_step hstep) with ⟨f, below, outcome, hd⟩ | hsuspended
    · exact .inl ⟨m, t, f, below, outcome, rfl, rfl, hd⟩
    · exact .inr hsuspended
  | @calls t call m' _ hfree hstep =>
    rcases (h.poised hfree).decides (turn_of_step hstep) with ⟨f, below, outcome, hd⟩ | hs
    · exact .inl ⟨m.poised t call, t, f, below, outcome, rfl, rfl, hd⟩
    · exact .inr ⟨hs.initializer, hs.engine, hs.failure, hs.started, hs.host⟩

end Machine

namespace Provider

open Machine

variable {config : Config} {initializer : Initializer Host Engine} {ownership : Ownership}
  {p : Provider} {owner : Owner} {latest : Option Bool}

/-! ### The provider's own switch -/

/-- What a move switches remote debugging to at the provider, if it is allowed to. -/
def switched (p : Provider) : Move → Option Bool
  | .setDebugging t enable => if (p.setDebugging t enable).1.isOk then some enable else none
  | _ => none

/-- What the provider's own switch has been set to last. -/
def lastSwitch (p : Provider) : List Move → Option Bool
  | [] => none
  | x :: rest => ((p.move x).lastSwitch rest).or (p.switched x)

/-- The switch is for the owner thread, once the engine has started. -/
theorem setDebugging_cases (p : Provider) (t : ThreadId) (enable : Bool) :
    (p.coordinator.engine.isSome = true ∧ p.owner.isCurrent t = true ∧
      (p.setDebugging t enable).1.isOk = true ∧
      (p.setDebugging t enable).2 = p.withHost { p.host with remoteDebugging := enable }) ∨
    ((p.coordinator.engine.isSome = false ∨ p.owner.isCurrent t = false) ∧
      (p.setDebugging t enable).1.isOk = false ∧ (p.setDebugging t enable).2 = p) := by
  unfold setDebugging
  split
  · rename_i he
    exact .inr ⟨.inl (by rw [he, Option.isSome_none]), rfl, rfl⟩
  · rename_i he
    by_cases hcur : p.owner.isCurrent t = true
    · rw [Host.setDebugging, if_pos hcur]
      exact .inl ⟨by rw [he, Option.isSome_some], hcur, rfl, rfl⟩
    · rw [Host.setDebugging, if_neg hcur]
      exact .inr ⟨.inr (Bool.eq_false_iff.mpr hcur), rfl, rfl⟩

theorem owner_eq_of_sound (h : Sound initializer owner p.machine) : p.owner = owner := by
  show p.machine.coordinator.ownerOr p.machine.dispatcher.owner = owner
  rw [h.owner_eq]
  rcases h.ownedBy with hnone | hsome
  · rw [Coordinator.ownerOr, hnone, Option.getD_none]
  · rw [Coordinator.ownerOr, hsome, Option.getD_some]

/-- Who is allowed to use the switch, and when. -/
theorem switched_setDebugging (h : Sound initializer owner p.machine) (t : ThreadId)
    (enable : Bool) :
    p.switched (.setDebugging t enable)
      = if p.coordinator.phase = .started ∧ t = owner.thread then some enable else none := by
  have hstarted : p.coordinator.phase = .started ↔ p.coordinator.engine.isSome = true := by
    rw [Option.isSome_iff_exists]
    exact h.started_iff
  have hcur : p.owner.isCurrent t = true ↔ t = owner.thread := by
    rw [owner_eq_of_sound h]
    exact Owner.isCurrent_iff
  show (if (p.setDebugging t enable).1.isOk then some enable else none) = _
  rcases p.setDebugging_cases t enable with ⟨he, ht, hg, -⟩ | ⟨hne, hg, -⟩
  · rw [if_pos hg, if_pos ⟨hstarted.mpr he, hcur.mp ht⟩]
  · rw [if_neg (by rw [hg]; nofun), if_neg]
    rintro ⟨hp, ht⟩
    rw [hstarted.mp hp, hcur.mpr ht] at hne
    rcases hne with hne | hne <;> cases hne

/-! ### What every move keeps -/

/-- A debuggable provider of which the switch has been set to `latest`. -/
structure Debugged (latest : Option Bool) (p : Provider) : Prop where
  debuggable : p.config.debuggable = true
  statics : ∀ made ∈ p.services.statics.made, made.debuggable = true
  started : p.coordinator.phase = .started → p.host.remoteDebugging = latest.getD true
  unstarted : p.coordinator.phase ≠ .started → latest = none

/-- A step of startup turns remote debugging on when it starts the engine, and does not touch it
otherwise. -/
theorem Debugged.goes {m : Machine Host Engine} (h : Debugged latest p)
    (hsound : Sound (p.config.starting initializer) owner p.machine) {asked : Option Call}
    (hgoes : Goes p.machine asked m) : Debugged latest (p.withMachine m) := by
  rcases hsound.decides_of_goes hgoes with ⟨n, t, f, below, outcome, hc, hhost, hd⟩ | hs
  · have hnone : latest = none := h.unstarted fun hp => hd.undecided.1 (hc ▸ hp)
    refine ⟨h.debuggable, h.statics, fun hp => ?_, fun _ => hnone⟩
    subst hnone
    cases hd with
    | started _ _ _ hv => exact Config.debugging_starting h.debuggable hv
    | failed _ hl hu => exact absurd ((phase_failed (hl.phase_eq ▸ hu.1) _).symm.trans hp) nofun
  · refine ⟨h.debuggable, h.statics, fun hp => ?_, fun hp => h.unstarted (hp ∘ hs.started.mpr)⟩
    show m.host.remoteDebugging = _
    rw [hs.host]
    exact h.started (hs.started.mp hp)

theorem Debugged.move (h : Debugged latest p)
    (hsound : Sound (p.config.starting initializer) owner p.machine) (x : Move) :
    Debugged ((p.switched x).or latest) (p.move x) := by
  cases x with
  | spawn | dropView => exact ⟨h.debuggable, h.statics, h.started, h.unstarted⟩
  | step t => exact h.goes hsound (p.goes_move (.step t))
  | ask t demand => exact h.goes hsound (p.goes_move (.ask t demand))
  | createView t name =>
    -- the new view is held before it is registered
    let q : Provider := { p with session := (p.session.newListener name .plain).2 }
    have hq : Debugged latest q := ⟨h.debuggable, h.statics, h.started, h.unstarted⟩
    exact hq.goes (sound_prepared hsound (.createView t name)) (p.goes_move (.createView t name))
  | handOut kind =>
    have hs := p.session_handOut kind
    have hcoord : (p.handOut kind).2.coordinator = p.coordinator := by
      rw [coordinator, hs, coordinator]
    have hhost : (p.handOut kind).2.host = p.host := by rw [host, hs, host]
    refine ⟨?_, fun made hmade => ?_, ?_, ?_⟩
    · show (p.handOut kind).2.config.debuggable = true
      unfold handOut
      split <;> exact h.debuggable
    · change made ∈ (p.handOut kind).2.services.statics.made at hmade
      unfold handOut at hmade
      split at hmade
      · exact h.statics made hmade
      · exact h.statics made hmade
      · exact h.statics made hmade
      · rcases Services.mem_statics_request hmade with hmade | rfl
        · exact h.statics made hmade
        · exact h.debuggable
    · show (p.handOut kind).2.coordinator.phase = .started →
        (p.handOut kind).2.host.remoteDebugging = _
      rw [hcoord, hhost]
      exact h.started
    · show (p.handOut kind).2.coordinator.phase ≠ .started → _
      rw [hcoord]
      exact h.unstarted
  | use t id request =>
    refine ⟨h.debuggable, fun made hmade => ?_, fun hp => ?_, h.unstarted⟩
    · change made ∈ (p.services.answer id t p.host request).2.1.statics.made at hmade
      rw [Services.statics_answer] at hmade
      exact h.statics made hmade
    · show (p.services.answer id t p.host request).2.2.remoteDebugging = _
      rw [Services.host_answer h.statics]
      exact h.started hp
  | setDebugging t enable =>
    show Debugged ((if (p.setDebugging t enable).1.isOk then some enable else none).or latest)
      (p.setDebugging t enable).2
    rcases p.setDebugging_cases t enable with ⟨he, -, hg, heq⟩ | ⟨-, hg, heq⟩
    · rw [hg, heq]
      refine ⟨h.debuggable, h.statics, fun _ => rfl, fun hp => absurd ?_ hp⟩
      exact hsound.started_iff.mpr (Option.isSome_iff_exists.mp he)
    · rw [hg, heq]
      exact h

theorem config_move (p : Provider) (x : Move) : (p.move x).config = p.config := by
  cases x with
  | handOut kind =>
    show (p.handOut kind).2.config = p.config
    unfold handOut
    split <;> rfl
  | setDebugging t enable =>
    obtain ⟨host, heq⟩ := p.setDebugging_eq t enable
    show (p.setDebugging t enable).2.config = p.config
    rw [heq]
    rfl
  | _ => rfl

theorem Debugged.run (h : Debugged latest p)
    (hsound : Sound (p.config.starting initializer) owner p.machine) (moves : List Move) :
    Debugged ((p.lastSwitch moves).or latest) (p.run moves) := by
  induction moves generalizing p latest with
  | nil => exact h
  | cons x rest ih =>
    have hsound' : Sound ((p.move x).config.starting initializer) owner (p.move x).machine := by
      rw [config_move]
      exact sound_move hsound x
    have := ih (h.move hsound x) hsound'
    rwa [← Option.or_assoc] at this

/-! ### Main results -/

/-- **Remote debugging of a debuggable provider is on until it is switched off at the provider.**
Whatever threads do and in whatever order, in every state in which the engine is started remote
debugging is what the provider's own switch has been set to last, and it is on if that switch has
not been used; the switch takes effect on the owner thread only, and only once the engine has
started. So nothing that is done with statics, and nothing that is done from another thread, turns
remote debugging off. -/
theorem debugging_of_debuggable (config : Config) (change : VersionChange)
    (initializer : Initializer Host Engine) (ownership : Ownership) (files : FileSystem)
    (hd : config.debuggable = true) (moves : List Move) :
    let start := opening config change initializer ownership files
    let p := start.run moves
    (p.coordinator.phase = .started → p.host.remoteDebugging = (start.lastSwitch moves).getD true) ∧
    ∀ t enable, p.switched (.setDebugging t enable)
      = if p.coordinator.phase = .started ∧ t = ownership.owner.thread then some enable
        else none := by
  intro start p
  have hstart : Debugged none start := by
    refine ⟨hd, nofun, fun hp => ?_, fun _ => rfl⟩
    cases ownership <;> cases hp
  have hsound := sound_opening config change initializer ownership files
  have h := hstart.run hsound moves
  rw [Option.or_none] at h
  have hsound' := sound_run hsound moves
  exact ⟨h.started, fun t enable => switched_setDebugging hsound' t enable⟩

/-- In a debuggable configuration, what `debugging_of_debuggable` says of a provider that has been
started and of which the switch has then been used from two threads. -/
theorem debugging_of_debuggable_after_switches :
    let config : Config := { baseDirectory := "base", debuggable := true }
    let start := opening config .firstRun (fun host => (.engine ⟨1, []⟩, host)) (.queue none) {}
    let moves : List Move := [.ask 0 (.start .owner), .step 0, .step 0, .spawn,
      .setDebugging 0 false, .setDebugging 0 true, .setDebugging 1 false]
    let p := start.run moves
    config.debuggable = true ∧ p.coordinator.phase = .started ∧
    start.lastSwitch moves = some true ∧
    ((p.coordinator.phase = .started →
        p.host.remoteDebugging = (start.lastSwitch moves).getD true) ∧
      ∀ t enable, p.switched (.setDebugging t enable)
        = if p.coordinator.phase = .started ∧ t = (Ownership.queue none).owner.thread
          then some enable else none) :=
  ⟨rfl, by decide +kernel, by decide +kernel,
    debugging_of_debuggable _ .firstRun _ (.queue none) {} rfl _⟩

/-- Remote debugging can be off in a debuggable configuration: the owner thread starts the engine
and uses the switch. -/
theorem debugging_switched_off :
    let config : Config := { baseDirectory := "base", debuggable := true }
    let p := (opening config .firstRun (fun host => (.engine ⟨1, []⟩, host)) (.queue none) {}).run
      [.ask 0 (.start .owner), .step 0, .step 0, .setDebugging 0 false]
    config.debuggable = true ∧ p.coordinator.phase = .started ∧
    p.host.remoteDebugging = false := by
  decide +kernel

end Provider

end LazyEngine
