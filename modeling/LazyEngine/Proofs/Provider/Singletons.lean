/-
Services that are made once.

A service is made in the section that first hands it out, and two of the services look into the
browser context, so they make it on the way if it is not there yet.

* `Shelf.Sole`, `Services.Sole` — no service has been made twice, and whoever looks into a browser
  context looks into the one there is;
* `Stocked`, `Stocked.move` — a service that needs the engine has been made only if the engine has
  started;
* `Supplied`, `supplied_handOut` — what a section hands out is there, with the browser context
  behind it;
* `services_are_singletons` — what this means for those who ask for services, whatever the
  interleaving.

Design notes: a call for a service that needs the engine is a call for the engine and, when that one
has returned it, the section. Here sections happen at any time and in any order, so nothing depends
on who has called for the engine before.
-/
import LazyEngine.Proofs.Provider.Debugging
import LazyEngine.Proofs.Startup.Agreement

namespace LazyEngine

namespace Shelf

variable {A B : Type} {s : Shelf A}

/-- Nothing has been made yet, or one object has been made and is handed out. -/
def Sole (s : Shelf A) : Prop :=
  s.made.length = 0 ∧ s.current = none ∨ s.made.length = 1 ∧ s.current = some 0

theorem sole_empty : Sole ({} : Shelf A) :=
  .inl ⟨rfl, rfl⟩

theorem Sole.length_le (h : s.Sole) : s.made.length ≤ 1 := by
  rcases h with ⟨hmade, -⟩ | ⟨hmade, -⟩ <;> omega

theorem Sole.eq_zero (h : s.Sole) {id : ObjectId} (hid : s.current = some id) : id = 0 := by
  rcases h with ⟨-, hcurrent⟩ | ⟨-, hcurrent⟩ <;> rw [hid] at hcurrent <;> cases hcurrent
  rfl

/-- Whoever asks gets the one object. -/
theorem Sole.request (h : s.Sole) (fresh : A) :
    (s.request fresh).1 = 0 ∧ (s.request fresh).2.Sole ∧
      (s.request fresh).2.current = some 0 := by
  rcases h with ⟨hmade, hcurrent⟩ | ⟨hmade, hcurrent⟩
  · obtain hnil := List.length_eq_zero_iff.mp hmade
    rw [Shelf.request, hcurrent]
    dsimp only
    rw [hnil]
    exact ⟨rfl, .inr ⟨rfl, rfl⟩, rfl⟩
  · rw [Shelf.request, hcurrent]
    exact ⟨rfl, .inr ⟨hmade, hcurrent⟩, hcurrent⟩

/-- Asking for an object takes none away. -/
theorem length_le_request (s : Shelf A) (fresh : A) :
    s.made.length ≤ (s.request fresh).2.made.length := by
  unfold request
  split
  · exact Nat.le_refl _
  · simp

theorem Sole.made_of_current (h : s.Sole) {id : ObjectId} (hid : s.current = some id) :
    s.made.length ≠ 0 := by
  rcases h with ⟨-, hcurrent⟩ | ⟨hmade, -⟩
  · rw [hid] at hcurrent
    cases hcurrent
  · omega

/-- Whoever asks for an object gets one that has been made. -/
theorem Sole.made_request (h : s.Sole) (fresh : A) : (s.request fresh).2.made.length ≠ 0 := by
  obtain ⟨-, hsole, hcurrent⟩ := h.request fresh
  exact hsole.made_of_current hcurrent

/-- An object that is made goes behind those that were there. -/
theorem mem_made_request {fresh a : A} (h : a ∈ (s.request fresh).2.made) :
    a ∈ s.made ∨ a = fresh := by
  unfold Shelf.request at h
  split at h
  · exact .inl h
  · exact (List.mem_append.mp h).imp_right List.mem_singleton.mp

theorem current_ask (s : Shelf A) (id : ObjectId) (answer : A → B × A) (default : B) :
    (s.ask id answer default).2.current = s.current := by
  unfold Shelf.ask
  split <;> rfl

theorem length_ask (s : Shelf A) (id : ObjectId) (answer : A → B × A) (default : B) :
    (s.ask id answer default).2.made.length = s.made.length := by
  unfold Shelf.ask
  split
  · rfl
  · exact List.length_set

/-- An object that answers stays where it is. -/
theorem Sole.ask (h : s.Sole) (id : ObjectId) (answer : A → B × A) (default : B) :
    (s.ask id answer default).2.Sole := by
  rwa [Sole, length_ask, current_ask]

end Shelf

namespace Services

variable {s : Services} {fresh : Statics} {directory : String} {kind : ServiceKind}

/-- How many objects of a kind have been made. -/
def made (s : Services) : ServiceKind → Nat
  | .statics => s.statics.made.length
  | .cookies => s.cookies.made.length
  | .geolocation => s.geolocation.made.length
  | .storage => s.storage.made.length
  | .icons => s.icons.made.length
  | .database => s.database.made.length
  | .context => s.contexts.made.length

/-- Whether there is an object of a kind that has this number. -/
def holds (s : Services) (id : ObjectId) : ServiceKind → Bool
  | .statics => (s.statics.get? id).isSome
  | .cookies => (s.cookies.get? id).isSome
  | .geolocation => (s.geolocation.get? id).isSome
  | .storage => (s.storage.get? id).isSome
  | .icons => (s.icons.get? id).isSome
  | .database => (s.database.get? id).isSome
  | .context => (s.contexts.get? id).isSome

/-- The object of a kind that has this number, if objects of the kind look into a browser
context. -/
def user? (s : Services) (id : ObjectId) : ServiceKind → Option ContextUser
  | .geolocation => s.geolocation.get? id
  | .database => s.database.get? id
  | _ => none

theorem holds_iff {id : ObjectId} : s.holds id kind = true ↔ id < s.made kind := by
  cases kind <;> simp [holds, made, Shelf.get?]

/-- The services that look into a browser context. -/
def users (s : Services) : List ContextUser :=
  s.geolocation.made ++ s.database.made

/-- No service has been made twice, and those that look into a browser context look into the one
there is. -/
structure Sole (s : Services) : Prop where
  statics : s.statics.Sole
  cookies : s.cookies.Sole
  contexts : s.contexts.Sole
  geolocation : s.geolocation.Sole
  storage : s.storage.Sole
  icons : s.icons.Sole
  database : s.database.Sole
  users : ∀ user ∈ s.users, user.context = 0 ∧ s.contexts.current = some 0

theorem sole_empty : Sole {} :=
  ⟨Shelf.sole_empty, Shelf.sole_empty, Shelf.sole_empty, Shelf.sole_empty, Shelf.sole_empty,
    Shelf.sole_empty, Shelf.sole_empty, List.forall_mem_nil _⟩

namespace Sole

theorem made_le (h : s.Sole) (kind : ServiceKind) : s.made kind ≤ 1 := by
  cases kind with
  | statics => exact h.statics.length_le
  | cookies => exact h.cookies.length_le
  | geolocation => exact h.geolocation.length_le
  | storage => exact h.storage.length_le
  | icons => exact h.icons.length_le
  | database => exact h.database.length_le
  | context => exact h.contexts.length_le

theorem requestContext (h : s.Sole) (directory : String) :
    (s.requestContext directory).1 = 0 ∧ (s.requestContext directory).2.Sole ∧
      (s.requestContext directory).2.contexts.current = some 0 := by
  obtain ⟨hid, hsole, hcurrent⟩ := h.contexts.request { dataDirectory := directory }
  exact ⟨hid, { h with
    contexts := hsole
    users := fun user huser => ⟨(h.users user huser).1, hcurrent⟩ }, hcurrent⟩

theorem request (h : s.Sole) (fresh : Statics) (directory : String) (kind : ServiceKind) :
    (s.request fresh directory kind).1 = 0 ∧ (s.request fresh directory kind).2.Sole := by
  cases kind with
  | statics =>
    obtain ⟨hid, hsole, -⟩ := h.statics.request fresh
    exact ⟨hid, { h with statics := hsole }⟩
  | cookies =>
    obtain ⟨hid, hsole, -⟩ := h.cookies.request {}
    exact ⟨hid, { h with cookies := hsole }⟩
  | context =>
    obtain ⟨hid, hsole, -⟩ := h.requestContext directory
    exact ⟨hid, hsole⟩
  | storage =>
    obtain ⟨hid, hsole, -⟩ := h.storage.request {}
    exact ⟨hid, { h with storage := hsole }⟩
  | icons =>
    obtain ⟨hid, hsole, -⟩ := h.icons.request {}
    exact ⟨hid, { h with icons := hsole }⟩
  -- The two services that look into the browser context ask for it first, and keep its number.
  | geolocation =>
    simp only [Services.request]
    obtain ⟨hcontext, hsole, hcurrent⟩ := h.requestContext directory
    obtain ⟨hid, hmade, -⟩ := h.geolocation.request ⟨(s.requestContext directory).1⟩
    split
    · rename_i id hid
      exact ⟨h.geolocation.eq_zero hid, h⟩
    · refine ⟨hid, { hsole with geolocation := hmade, users := fun user huser => ?_ }⟩
      rcases List.mem_append.mp huser with huser | huser
      · rcases Shelf.mem_made_request huser with huser | rfl
        · exact ⟨(h.users user (List.mem_append_left _ huser)).1, hcurrent⟩
        · exact ⟨hcontext, hcurrent⟩
      · exact ⟨(h.users user (List.mem_append_right _ huser)).1, hcurrent⟩
  | database =>
    simp only [Services.request]
    obtain ⟨hcontext, hsole, hcurrent⟩ := h.requestContext directory
    obtain ⟨hid, hmade, -⟩ := h.database.request ⟨(s.requestContext directory).1⟩
    split
    · rename_i id hid
      exact ⟨h.database.eq_zero hid, h⟩
    · refine ⟨hid, { hsole with database := hmade, users := fun user huser => ?_ }⟩
      rcases List.mem_append.mp huser with huser | huser
      · exact ⟨(h.users user (List.mem_append_left _ huser)).1, hcurrent⟩
      · rcases Shelf.mem_made_request huser with huser | rfl
        · exact ⟨(h.users user (List.mem_append_right _ huser)).1, hcurrent⟩
        · exact ⟨hcontext, hcurrent⟩

/-- A service that is handed out has been made. -/
theorem made_request (h : s.Sole) (fresh : Statics) (directory : String) (kind : ServiceKind) :
    (s.request fresh directory kind).2.made kind ≠ 0 := by
  cases kind with
  | statics => exact h.statics.made_request fresh
  | cookies => exact h.cookies.made_request {}
  | context => exact h.contexts.made_request _
  | storage => exact h.storage.made_request {}
  | icons => exact h.icons.made_request {}
  | geolocation =>
    simp only [Services.request]
    split
    · rename_i id hid
      exact h.geolocation.made_of_current hid
    · exact h.geolocation.made_request _
  | database =>
    simp only [Services.request]
    split
    · rename_i id hid
      exact h.database.made_of_current hid
    · exact h.database.made_request _

/-- An object that has been made and looks into a browser context looks into the one there is. -/
theorem backed (h : s.Sole) (hkind : kind = .geolocation ∨ kind = .database)
    (hmade : s.made kind ≠ 0) :
    ∃ user, s.user? 0 kind = some user ∧ user.context = 0 ∧ s.holds 0 .context = true := by
  have key : ∃ user ∈ s.users, s.user? 0 kind = some user := by
    rcases hkind with rfl | rfl
    · obtain ⟨first, rest, hlist⟩ := List.exists_cons_of_length_pos (Nat.pos_of_ne_zero hmade)
      exact ⟨first, by simp [Services.users, hlist], by simp [user?, Shelf.get?, hlist]⟩
    · obtain ⟨first, rest, hlist⟩ := List.exists_cons_of_length_pos (Nat.pos_of_ne_zero hmade)
      exact ⟨first, by simp [Services.users, hlist], by simp [user?, Shelf.get?, hlist]⟩
  obtain ⟨user, hmem, hget⟩ := key
  obtain ⟨hzero, hcurrent⟩ := h.users user hmem
  have hcontext := h.contexts.made_of_current hcurrent
  exact ⟨user, hget, hzero, holds_iff.mpr (Nat.pos_of_ne_zero hcontext)⟩

theorem askContext (h : s.Sole) (id : ObjectId)
    (answer : BrowserContext → Value × BrowserContext) : (s.askContext id answer).2.Sole :=
  { h with
    contexts := h.contexts.ask id answer .nothing
    users := fun user huser => ⟨(h.users user huser).1,
      (s.contexts.current_ask id answer .nothing).trans (h.users user huser).2⟩ }

/-- Services that answer stay where they are. -/
theorem answer (h : s.Sole) (id : ObjectId) (caller : ThreadId) (host : Host)
    (request : ServiceRequest) : (s.answer id caller host request).2.1.Sole := by
  cases request with
  | statics r => simp only [Services.answer]; split <;> exact h
  | cookies r => exact { h with cookies := h.cookies.ask id _ _ }
  | storage r => exact { h with storage := h.storage.ask id _ _ }
  | icons r => exact { h with icons := h.icons.ask id _ _ }
  | context r => exact h.askContext id _
  | geolocation r | database r =>
    simp only [Services.answer]
    split
    · exact h
    · exact h.askContext _ _

end Sole

theorem made_le_requestContext (s : Services) (directory : String) (other : ServiceKind) :
    s.made other ≤ (s.requestContext directory).2.made other := by
  cases other with
  | context => exact s.contexts.length_le_request _
  | _ => exact Nat.le_refl _

/-- A section that hands a service out takes none away. -/
theorem made_le_request (s : Services) (fresh : Statics) (directory : String)
    (kind other : ServiceKind) : s.made other ≤ (s.request fresh directory kind).2.made other := by
  -- Each section makes an object on its own shelf, or on that of the context as well.
  cases kind with
  | context => exact s.made_le_requestContext directory other
  | statics =>
    cases other with
    | statics => exact s.statics.length_le_request fresh
    | _ => exact Nat.le_refl _
  | cookies =>
    cases other with
    | cookies => exact s.cookies.length_le_request {}
    | _ => exact Nat.le_refl _
  | storage =>
    cases other with
    | storage => exact s.storage.length_le_request {}
    | _ => exact Nat.le_refl _
  | icons =>
    cases other with
    | icons => exact s.icons.length_le_request {}
    | _ => exact Nat.le_refl _
  | geolocation =>
    simp only [request]
    split
    · exact Nat.le_refl _
    · refine Nat.le_trans (s.made_le_requestContext directory other) ?_
      cases other with
      | geolocation => exact s.geolocation.length_le_request _
      | _ => exact Nat.le_refl _
  | database =>
    simp only [request]
    split
    · exact Nat.le_refl _
    · refine Nat.le_trans (s.made_le_requestContext directory other) ?_
      cases other with
      | database => exact s.database.length_le_request _
      | _ => exact Nat.le_refl _

theorem made_askContext (s : Services) (id : ObjectId)
    (answer : BrowserContext → Value × BrowserContext) (kind : ServiceKind) :
    (s.askContext id answer).2.made kind = s.made kind := by
  cases kind with
  | context => exact s.contexts.length_ask id answer .nothing
  | _ => rfl

/-- A service that answers makes no service. -/
theorem made_answer (s : Services) (id : ObjectId) (caller : ThreadId) (host : Host)
    (request : ServiceRequest) (kind : ServiceKind) :
    (s.answer id caller host request).2.1.made kind = s.made kind := by
  cases request with
  | statics r => simp only [answer]; split <;> rfl
  | cookies r =>
    cases kind with
    | cookies => exact s.cookies.length_ask id _ _
    | _ => rfl
  | storage r =>
    cases kind with
    | storage => exact s.storage.length_ask id _ _
    | _ => rfl
  | icons r =>
    cases kind with
    | icons => exact s.icons.length_ask id _ _
    | _ => rfl
  | context r => exact s.made_askContext id _ kind
  | geolocation r | database r =>
    simp only [answer]
    split
    · rfl
    · exact s.made_askContext _ _ kind

end Services

namespace Provider

open Machine

variable {config : Config} {initializer : Initializer Host Engine} {owner : Owner} {p : Provider}
  {kind : ServiceKind}

/-! ### Sections -/

/-- A section hands the service out, unless it needs an engine and there is none. -/
theorem handOut_cases (p : Provider) (kind : ServiceKind) :
    (∃ fresh directory, (kind = .cookies ∨ p.coordinator.engine.isSome = true) ∧
      p.handOut kind = (.ok (p.services.request fresh directory kind).1,
        { p with services := (p.services.request fresh directory kind).2 })) ∨
    (kind ≠ .cookies ∧ p.coordinator.engine = none ∧
      p.handOut kind = (.error (.notStarted
        (if kind = .context then "browser_context" else "ensure_started")), p)) := by
  cases he : p.coordinator.engine with
  | none =>
    cases kind with
    | cookies => exact .inl ⟨⟨⟨1, []⟩, p.owner, false⟩, "", .inl rfl, rfl⟩
    | _ =>
      refine .inr ⟨nofun, rfl, ?_⟩
      unfold handOut
      rw [he]
      rfl
  | some engine =>
    refine .inl ⟨⟨engine, p.owner, p.config.debuggable⟩, p.config.dataDirectory, .inr rfl, ?_⟩
    unfold handOut
    rw [he]
    cases kind <;> rfl

/-- What holds of the services of a provider at every moment. -/
structure Stocked (p : Provider) : Prop where
  sole : p.services.Sole
  started : ∀ kind, kind ≠ .cookies → p.services.made kind ≠ 0 → p.coordinator.phase = .started

/-- A move that leaves the services alone. -/
theorem Stocked.keep (h : Stocked p) (hsound : Sound initializer owner p.machine) (x : Move)
    (hsole : (p.move x).services.Sole)
    (hmade : ∀ kind, (p.move x).services.made kind = p.services.made kind) :
    Stocked (p.move x) :=
  ⟨hsole, fun kind hk hne => started_run hsound (h.started kind hk (hmade kind ▸ hne)) [x]⟩

theorem Stocked.move (h : Stocked p) (hsound : Sound initializer owner p.machine) (x : Move) :
    Stocked (p.move x) := by
  cases x with
  | use t id request =>
    exact h.keep hsound (.use t id request) (h.sole.answer id t p.host request)
      (p.services.made_answer id t p.host request)
  | setDebugging t enable =>
    obtain ⟨host, heq⟩ := p.setDebugging_eq t enable
    have hservices : (p.move (.setDebugging t enable)).services = p.services := by
      show (p.setDebugging t enable).2.services = _
      rw [heq]
      rfl
    exact h.keep hsound (.setDebugging t enable) (hservices ▸ h.sole) (fun _ => hservices ▸ rfl)
  | handOut kind =>
    show Stocked (p.handOut kind).2
    rcases p.handOut_cases kind with ⟨fresh, directory, hallowed, heq⟩ | ⟨-, -, heq⟩
    · rw [heq]
      refine ⟨(h.sole.request fresh directory kind).2, fun other hother hne => ?_⟩
      rcases hallowed with rfl | he
      · -- only the cookie jar is made without an engine
        refine h.started other hother fun hzero => hne ?_
        rw [← hzero]
        cases other <;> first | rfl | exact absurd rfl hother
      · exact hsound.started_iff.mpr (Option.isSome_iff_exists.mp he)
    · rw [heq]
      exact h
  -- All other moves leave the shelves alone.
  | spawn | step | ask | createView | dropView =>
    exact h.keep hsound _ h.sole fun _ => rfl

theorem stocked_run (config : Config) (change : VersionChange)
    (initializer : Initializer Host Engine) (ownership : Ownership) (files : FileSystem)
    (moves : List Move) :
    Stocked ((opening config change initializer ownership files).run moves) := by
  have hstart : Stocked (opening config change initializer ownership files) := by
    refine ⟨Services.sole_empty, fun kind _ hne => absurd ?_ hne⟩
    cases kind <;> rfl
  exact (run_invariant (sound_opening config change initializer ownership files) hstart
    (fun _ x hsound h => h.move hsound x) moves).2

/-- A section that fails leaves everything as it is, and no other move makes a service. -/
theorem made_move (p : Provider) (x : Move)
    (h : ∀ kind id, x = .handOut kind → (p.handOut kind).1 ≠ .ok id) (kind : ServiceKind) :
    (p.move x).services.made kind = p.services.made kind := by
  cases x with
  | handOut wanted =>
    show (p.handOut wanted).2.services.made kind = _
    rcases p.handOut_cases wanted with ⟨fresh, directory, -, heq⟩ | ⟨-, -, heq⟩
    · exact absurd (by rw [heq]) (h wanted _ rfl)
    · rw [heq]
  | use t id request => exact p.services.made_answer id t p.host request kind
  | setDebugging t enable =>
    obtain ⟨host, heq⟩ := p.setDebugging_eq t enable
    show (p.setDebugging t enable).2.services.made kind = _
    rw [heq]
    rfl
  | spawn | step | ask | createView | dropView => rfl

/-- Wherever a service is asked for, the way there makes none. -/
theorem services_reach (p : Provider) (place : Place) (starts : Bool) :
    (p.reach place starts).2.services = p.services := by
  unfold reach
  dsimp only
  split <;> rfl

/-- A whole call for a service that fails makes none. -/
theorem services_fetch_error {place : Place} {r : ProviderResponse}
    (h : (p.fetch place kind).1 = .error r) : (p.fetch place kind).2.services = p.services := by
  have hreach := p.services_reach place kind.startsEngine
  unfold fetch at h ⊢
  split
  · rename_i q heq
    rw [heq] at hreach
    exact hreach
  · rename_i q heq
    rw [heq] at h hreach
    dsimp only at h
    rcases q.handOut_cases kind with ⟨fresh, directory, -, hout⟩ | ⟨-, -, hout⟩
    · rw [hout] at h
      cases h
    · rw [hout]
      exact hreach

/-- A call that has returned an engine has returned the one that is published. -/
theorem engine_of_answered (config : Config) (change : VersionChange)
    (initializer : Initializer Host Engine) (ownership : Ownership) (files : FileSystem)
    (moves : List Move) {t : ThreadId} {origin : Origin} {e : Engine}
    (h : .answered t origin (.engine (.ok e))
      ∈ ((opening config change initializer ownership files).run moves).machine.log) :
    ((opening config change initializer ownership files).run moves).coordinator.engine
      = some e := by
  let start := opening config change initializer ownership files
  have hstart : start.machine.log = [] := by
    show (ownership.session _ _).machine.log = []
    cases ownership <;> rfl
  have hkept := run_keeps (sound_opening config change initializer ownership files)
    (P := fun c log => (∀ u origin e, .answered u origin (.engine (.ok e)) ∈ log →
        c.engine = some e) ∧
      ∀ u origin what, .answered u origin (.engine (.error (.notStarted what))) ∉ log)
    (fun n t m' hsound ht ha => ?_) ?_ moves
  · exact hkept.1 t origin e h
  · have hnext := Answered.step (m := n) ⟨ha.1, ha.2⟩ hsound ht
    exact ⟨hnext.ok, hnext.error⟩
  · rw [show (opening config change initializer ownership files).machine.log = [] from hstart]
    exact ⟨nofun, nofun⟩

/-! ### What has been made stays -/

/-- Two kinds of moves concern the services. -/
theorem services_move (p : Provider) (x : Move) :
    (p.move x).services = match x with
      | .handOut kind => (p.handOut kind).2.services
      | .use t id request => (p.services.answer id t p.host request).2.1
      | _ => p.services := by
  cases x with
  | setDebugging t enable =>
    obtain ⟨host, heq⟩ := p.setDebugging_eq t enable
    show (p.setDebugging t enable).2.services = p.services
    rw [heq]
    rfl
  | spawn | step | ask | createView | dropView | handOut | use => rfl

theorem made_le_move (p : Provider) (x : Move) (kind : ServiceKind) :
    p.services.made kind ≤ (p.move x).services.made kind := by
  rw [services_move]
  cases x with
  | use t id request => exact Nat.le_of_eq (p.services.made_answer id t p.host request kind).symm
  | handOut wanted =>
    rcases p.handOut_cases wanted with ⟨fresh, directory, -, heq⟩ | ⟨-, -, heq⟩
    · simp only [heq]
      exact p.services.made_le_request fresh directory wanted kind
    · simp only [heq]
      exact Nat.le_refl _
  | spawn | step | ask | createView | dropView | setDebugging => exact Nat.le_refl _

theorem made_le_run (p : Provider) (moves : List Move) (kind : ServiceKind) :
    p.services.made kind ≤ (p.run moves).services.made kind := by
  induction moves generalizing p with
  | nil => exact Nat.le_refl _
  | cons x rest ih => exact Nat.le_trans (p.made_le_move x kind) (ih (p.move x))

/-! ### What is handed out is there -/

/-- A service has been handed out: it is there, nothing else of its kind is, and if it looks into a
browser context, this is there as well and is the one that is handed out. -/
structure Supplied (p : Provider) (kind : ServiceKind) (id : ObjectId) : Prop where
  made : p.services.made kind = 1
  holds : p.services.holds id kind = true
  backed : kind = .geolocation ∨ kind = .database →
    ∃ user, p.services.user? id kind = some user ∧
      (p.handOut .context).1 = .ok user.context ∧
      p.services.holds user.context .context = true

/-- A section that succeeds hands out the first object of its kind. -/
theorem eq_zero_of_handOut (h : p.services.Sole) {id : ObjectId}
    (hout : (p.handOut kind).1 = .ok id) : id = 0 := by
  rcases p.handOut_cases kind with ⟨fresh, directory, -, heq⟩ | ⟨-, -, heq⟩
  · rw [heq] at hout
    cases hout
    exact (h.request fresh directory kind).1
  · rw [heq] at hout
    cases hout

/-- Once there is an engine, every section succeeds. -/
theorem handOut_eq_of_engine (h : p.services.Sole) (he : p.coordinator.engine.isSome = true)
    (kind : ServiceKind) : (p.handOut kind).1 = .ok 0 := by
  rcases p.handOut_cases kind with ⟨fresh, directory, -, heq⟩ | ⟨-, hnone, -⟩
  · rw [heq]
    exact congrArg Except.ok (h.request fresh directory kind).1
  · rw [hnone] at he
    cases he

/-- What has been made is there for those to whom it is handed out. -/
theorem supplied_of_made (h : p.services.Sole) (hmade : p.services.made kind ≠ 0)
    (he : kind ≠ .cookies → p.coordinator.engine.isSome = true) : p.Supplied kind 0 := by
  have hpos : 0 < p.services.made kind := Nat.pos_of_ne_zero hmade
  refine ⟨Nat.le_antisymm (h.made_le kind) hpos, Services.holds_iff.mpr hpos, fun hkind => ?_⟩
  obtain ⟨user, hget, hzero, hcontext⟩ := h.backed hkind hmade
  have hneeds : kind ≠ .cookies := by rcases hkind with rfl | rfl <;> nofun
  -- the one object of the kind looks into the one context, and this is what a section hands out
  rw [← hzero] at hcontext
  exact ⟨user, hget, hzero ▸ handOut_eq_of_engine h (he hneeds) .context, hcontext⟩

/-- A section that succeeds leaves what it has handed out. -/
theorem supplied_handOut (h : p.services.Sole) {id : ObjectId}
    (hout : (p.handOut kind).1 = .ok id) :
    (p.handOut kind).2.services.Sole ∧ (p.handOut kind).2.Supplied kind id := by
  obtain rfl := eq_zero_of_handOut h hout
  rcases p.handOut_cases kind with ⟨fresh, directory, hallowed, heq⟩ | ⟨-, -, heq⟩
  · rw [heq]
    have hsole := (h.request fresh directory kind).2
    refine ⟨hsole, supplied_of_made hsole (h.made_request fresh directory kind) fun hneeds => ?_⟩
    exact hallowed.resolve_left hneeds
  · rw [heq] at hout
    cases hout

/-- What a section has handed out is there from then on. -/
theorem Stocked.supplied {q : Provider} (h : Stocked q) (hsound : Sound initializer owner q.machine)
    (hmade : q.services.made kind ≠ 0) : q.Supplied kind 0 :=
  supplied_of_made h.sole hmade fun hneeds =>
    Option.isSome_iff_exists.mpr (hsound.started_iff.mp (h.started kind hneeds hmade))

/-- A whole call for a service that succeeds ends with the section that hands it out. -/
theorem fetch_ok {place : Place} {id : ObjectId} (h : (p.fetch place kind).1 = .ok id) :
    ∃ q : Provider, q.services = p.services ∧ (q.handOut kind).1 = .ok id ∧
      (p.fetch place kind).2 = (q.handOut kind).2 := by
  have hreach := p.services_reach place kind.startsEngine
  unfold fetch at h ⊢
  split at h
  · cases h
  · rename_i q heq
    rw [heq] at hreach
    refine ⟨q, hreach, ?_⟩
    split at h
    · cases h
    · rename_i first after hout
      cases h
      rw [hout]
      exact ⟨rfl, rfl⟩

/-! ### Main result -/

/-- **Services are made once and share one browser context.** Whatever threads do and in whatever
order:

* at most one object of each kind is ever made; a section that succeeds hands out an object that is
  there from then on, as the only one of its kind, and all sections for the kind hand out the same
  one;
* so does a call for a service as a whole;
* the geolocation permissions and the view database look into the browser context that is handed
  out, which is there as well;
* a service other than the cookie jar has been made only if the engine has started;
* only a section that hands a service out makes any: neither a section that fails does, nor a call
  that fails as a whole, and when a call for the engine has returned it no section fails;
* the browser context is refused exactly as long as the engine has not started, and asking for it
  does nothing else to startup, nor does asking for the cookie jar, which is never refused. -/
theorem services_are_singletons (config : Config) (change : VersionChange)
    (initializer : Initializer Host Engine) (ownership : Ownership) (files : FileSystem)
    (moves : List Move) :
    let p := (opening config change initializer ownership files).run moves
    (∀ kind, p.services.made kind ≤ 1) ∧
    (∀ kind later id id', (p.handOut kind).1 = .ok id →
      ((p.run later).handOut kind).1 = .ok id' → id' = id) ∧
    (∀ kind id, (p.handOut kind).1 = .ok id →
      ∀ later, (p.run (.handOut kind :: later)).Supplied kind id) ∧
    (∀ place kind id, (p.fetch place kind).1 = .ok id →
      (p.fetch place kind).2.Supplied kind id ∧
      ∀ later id', ((p.run later).handOut kind).1 = .ok id' → id' = id) ∧
    (∀ user ∈ p.services.users, (p.handOut .context).1 = .ok user.context) ∧
    (∀ kind, kind ≠ .cookies → p.services.made kind ≠ 0 → p.coordinator.phase = .started) ∧
    ((∀ x, (∀ kind id, x = .handOut kind → (p.handOut kind).1 ≠ .ok id) →
        ∀ kind, (p.move x).services.made kind = p.services.made kind) ∧
      (∀ place kind r, (p.fetch place kind).1 = .error r →
        (p.fetch place kind).2.services = p.services) ∧
      ∀ t origin e, .answered t origin (.engine (.ok e)) ∈ p.machine.log →
        ∀ kind, ∃ id, (p.handOut kind).1 = .ok id) ∧
    ((p.handOut .context).2.session = p.session ∧
      ((p.handOut .context).1 = .error (.notStarted "browser_context") ↔
        p.coordinator.phase ≠ .started) ∧
      ∀ e, (p.handOut .context).1 = .error e → e = .notStarted "browser_context") ∧
    (p.handOut .cookies).2.session = p.session ∧
    ∃ id, (p.handOut .cookies).1 = .ok id := by
  intro p
  have hsound : ∀ later, Sound _ _ (p.run later).machine := fun later =>
    sound_run (sound_run (sound_opening config change initializer ownership files) moves) later
  have hlater : ∀ later, Stocked (p.run later) := by
    intro later
    rw [← run_append]
    exact stocked_run config change initializer ownership files (moves ++ later)
  have hstocked : Stocked p := hlater []
  have hstarted : p.coordinator.phase = .started ↔ p.coordinator.engine.isSome = true := by
    rw [Option.isSome_iff_exists]
    exact (hsound []).started_iff
  -- Every number handed out is 0, the number of the only object that a shelf can hold.
  refine ⟨hstocked.sole.made_le, fun kind later id id' hfirst hsecond => ?_,
    fun kind id hout later => ?_, fun place kind id hfetch => ?_, fun user huser => ?_,
    hstocked.started, ⟨p.made_move, fun _ _ _ => services_fetch_error, fun t origin e h kind => ?_⟩,
    ⟨p.session_handOut .context, ?_, fun e he => ?_⟩, p.session_handOut .cookies, ?_⟩
  · rw [eq_zero_of_handOut hstocked.sole hfirst, eq_zero_of_handOut (hlater later).sole hsecond]
  · -- what the section has made is still there after the later moves
    obtain rfl := eq_zero_of_handOut hstocked.sole hout
    refine (hlater (.handOut kind :: later)).supplied (hsound _) ?_
    have hone := (supplied_handOut hstocked.sole hout).2.made
    have hle := made_le_run (p.move (.handOut kind)) later kind
    show ((p.move (.handOut kind)).run later).services.made kind ≠ 0
    change (p.move (.handOut kind)).services.made kind = 1 at hone
    omega
  · obtain ⟨q, hservices, hout, heq⟩ := fetch_ok hfetch
    have hsole : q.services.Sole := hservices ▸ hstocked.sole
    refine ⟨heq ▸ (supplied_handOut hsole hout).2, fun later id' hsecond => ?_⟩
    rw [eq_zero_of_handOut hsole hout, eq_zero_of_handOut (hlater later).sole hsecond]
  · rw [(hstocked.sole.users user huser).1]
    -- whoever looks into the context is a service that needs the engine
    refine handOut_eq_of_engine hstocked.sole (hstarted.mp ?_) .context
    rcases List.mem_append.mp huser with hmem | hmem
    · exact hstocked.started .geolocation nofun (Nat.ne_of_gt (List.length_pos_of_mem hmem))
    · exact hstocked.started .database nofun (Nat.ne_of_gt (List.length_pos_of_mem hmem))
  · have hengine : p.coordinator.engine = some e :=
      engine_of_answered config change initializer ownership files moves h
    exact ⟨0, handOut_eq_of_engine hstocked.sole (by rw [hengine, Option.isSome_some]) kind⟩
  · rw [Ne, hstarted]
    rcases p.handOut_cases .context with ⟨fresh, directory, hallowed, heq⟩ | ⟨-, hnone, heq⟩
    · rw [heq, hallowed.resolve_left nofun]
      exact ⟨nofun, fun h => absurd rfl h⟩
    · rw [heq, hnone]
      exact ⟨fun _ => Bool.false_ne_true, fun _ => rfl⟩
  · rcases p.handOut_cases .context with ⟨fresh, directory, -, heq⟩ | ⟨-, -, heq⟩
    · rw [heq] at he
      cases he
    · rw [heq] at he
      cases he
      rfl
  · rcases p.handOut_cases .cookies with ⟨fresh, directory, -, heq⟩ | ⟨hne, -, -⟩
    · exact ⟨_, by rw [heq]⟩
    · exact absurd rfl hne

end Provider

end LazyEngine
