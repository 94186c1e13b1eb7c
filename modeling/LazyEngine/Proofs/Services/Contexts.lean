/-
What a browser context remembers of a history of requests.

A context keeps decisions, entries of forms and credentials. What it answers is read off the
requests that it has been given, whichever service has passed them on:

* `ServiceRequest.decision`, `ServiceRequest.credentials` — what a request makes of the decision
  about an origin, and of the credentials for a realm of a host;
* `savings` — the values saved for a field since all forms were last cleared; `InOrder` — each of
  them once, in the order in which they were first saved;
* `BrowserContext.allowed_after_iff`, `BrowserContext.credentials_after_iff`,
  `BrowserContext.suggestions_after` — a context answers by these;
* **`BrowserContext.respond_frame`** — a request about one of the three changes no answer about the
  other two.
-/
import LazyEngine.Proofs.Services.Histories
import LazyEngine.Proofs.Services.Tables
import LazyEngine.Proofs.Text.Order
import LazyEngine.Services.Catalog
import Mathlib.Data.List.DropRight

namespace LazyEngine

open Text

/-! ### Values in the order in which they come -/

section InOrder

variable {A : Type} [DecidableEq A] {all values : List A} {v : A}

/-- Each of them once, and the one that comes first is first. -/
structure InOrder (all values : List A) : Prop where
  nodup : values.Nodup
  mem_iff : ∀ v, v ∈ values ↔ v ∈ all
  ordered : values.Pairwise fun v w => all.idxOf v < all.idxOf w

theorem inOrder_nil : InOrder ([] : List A) [] :=
  ⟨List.nodup_nil, fun _ => Iff.rfl, .nil⟩

theorem InOrder.eq_nil_iff (h : InOrder all values) : values = [] ↔ all = [] := by
  simp only [List.eq_nil_iff_forall_not_mem, h.mem_iff]

/-- What comes later does not change who came first. -/
theorem InOrder.ordered_append (h : InOrder all values) (later : List A) :
    values.Pairwise fun v w => (all ++ later).idxOf v < (all ++ later).idxOf w := by
  refine h.ordered.imp_of_mem fun {v w} hv hw hlt => ?_
  rw [List.idxOf_append_of_mem ((h.mem_iff v).mp hv),
    List.idxOf_append_of_mem ((h.mem_iff w).mp hw)]
  exact hlt

/-- One more value goes to the end, unless it is there already. -/
theorem InOrder.concat (h : InOrder all values) (v : A) :
    InOrder (all ++ [v]) (if v ∈ values then values else values ++ [v]) := by
  by_cases hv : v ∈ values
  · rw [if_pos hv]
    refine ⟨h.nodup, fun w => ?_, h.ordered_append [v]⟩
    rw [List.mem_append, List.mem_singleton, h.mem_iff]
    exact ⟨.inl, fun hw => hw.elim id fun heq => heq ▸ (h.mem_iff v).mp hv⟩
  · rw [if_neg hv]
    have hnew : v ∉ all := fun hmem => hv ((h.mem_iff v).mpr hmem)
    refine ⟨?_, fun w => by simp [h.mem_iff], ?_⟩
    · exact List.nodup_append.mpr ⟨h.nodup, by simp, fun w hw x hx heq =>
        hv (List.mem_singleton.mp hx ▸ heq ▸ hw)⟩
    · refine List.pairwise_append.mpr ⟨h.ordered_append [v], List.pairwise_singleton _ _, ?_⟩
      intro w hw x hx
      obtain rfl := List.mem_singleton.mp hx
      -- whatever was there has its place before the end
      have hmem := (h.mem_iff w).mp hw
      rw [List.idxOf_append_of_mem hmem, List.idxOf_append_of_notMem hnew]
      have := List.idxOf_lt_length_of_mem hmem
      omega

end InOrder

/-! ### Requests about a context -/

namespace ServiceRequest

/-- What a request makes of the decision about an origin. -/
def decision (origin : String) : ServiceRequest → Option (Option Bool)
  | .geolocation (.decide other allow) => if other = origin then some (some allow) else none
  | .geolocation (.forget other) => if other = origin then some none else none
  | .geolocation .forgetAll => some none
  | _ => none

/-- What a request makes of the credentials for a realm of a host. -/
def credentials (host realm : String) : ServiceRequest → Option (Option Credentials)
  | .database (.setCredentials otherHost otherRealm c) =>
    if otherHost = host ∧ otherRealm = realm then some (some c) else none
  | .database .clearCredentials => some none
  | _ => none

/-- The value that a request saves for a field. -/
def saved? (field : String) : ServiceRequest → Option String
  | .context (.saveEntry other value) => if other = field then some value else none
  | _ => none

end ServiceRequest

/-- The values saved for a field since all forms were last cleared, in order. -/
def savings (field : String) (history : List ServiceRequest) : List String :=
  (history.rtakeWhile (· != .database .clearForms)).filterMap (·.saved? field)

theorem savings_concat (field : String) (history : List ServiceRequest) (request : ServiceRequest) :
    savings field (history ++ [request]) =
      if request = .database .clearForms then []
      else savings field history ++ (request.saved? field).toList := by
  rw [savings, List.rtakeWhile_concat]
  by_cases hclear : request = .database .clearForms
  · simp [hclear]
  · rw [if_pos (by simpa using hclear), if_neg hclear, List.filterMap_append, savings]
    cases hsaved : request.saved? field with
    | none => simp [hsaved]
    | some value => simp [hsaved]

/-- What a browser context keeps. -/
inductive ContextStore where
  | decisions
  | forms
  | credentials
deriving DecidableEq

/-- What a request is about. -/
def ServiceRequest.store? : ServiceRequest → Option ContextStore
  | .geolocation _ => some .decisions
  | .database (.setCredentials ..) | .database (.credentials ..) | .database .hasCredentials
  | .database .clearCredentials => some .credentials
  | .database .hasForms | .database .clearForms | .context (.saveEntry ..)
  | .context (.suggestions _) => some .forms
  | _ => none

namespace BrowserContext

variable {c c' : BrowserContext} {request : ServiceRequest}

/-- A context responds to the requests of the services that look into it. -/
def respond (c : BrowserContext) : ServiceRequest → Value × BrowserContext
  | .geolocation r => c.answerGeolocation r
  | .database r => c.answerDatabase r
  | .context r => c.answer r
  | _ => (.nothing, c)

/-- A context that remembers nothing yet. -/
def fresh (directory : String) : BrowserContext :=
  { dataDirectory := directory, geolocation := .empty, forms := .empty, credentials := .empty }

/-- The context after a history of requests, beginning with a new one. -/
def after (directory : String) (history : List ServiceRequest) : BrowserContext :=
  history.foldl (fun c request => (c.respond request).2) (fresh directory)

theorem after_concat (directory : String) (history : List ServiceRequest)
    (request : ServiceRequest) :
    after directory (history ++ [request]) = ((after directory history).respond request).2 := by
  simp [after, List.foldl_append]

/-! ### Decisions -/

theorem allowed_respond (c : BrowserContext) (request : ServiceRequest) (origin : String) :
    (c.respond request).2.allowed origin = (request.decision origin).getD (c.allowed origin) := by
  cases request with
  | geolocation r =>
    cases r with
    | decide other allow =>
      simp only [respond, answerGeolocation, allowed, decide, Table.get?_insert,
        ServiceRequest.decision, eq_comm]
      split <;> rfl
    | forget other =>
      simp only [respond, answerGeolocation, allowed, forgetDecision, Table.get?_erase,
        ServiceRequest.decision, eq_comm]
      split <;> rfl
    | allowed | origins | forgetAll => rfl
  | database r => cases r <;> rfl
  | context r => cases r <;> rfl
  | statics | cookies | storage | icons => rfl

theorem allowed_after_iff (directory : String) (history : List ServiceRequest) (origin : String)
    (allow : Bool) :
    (after directory history).allowed origin = some allow ↔
      Latest (·.decision origin) history allow :=
  latest_foldl_iff (·.allowed origin) rfl (allowed_respond · · origin) history allow

theorem mem_origins_iff {origin : String} :
    origin ∈ c.origins ↔ ∃ allow, c.allowed origin = some allow := by
  simp only [origins, List.mem_map, Prod.exists, Table.mem_sorted_iff, exists_and_right,
    exists_eq_right, allowed]

theorem pairwise_origins (c : BrowserContext) :
    c.origins.Pairwise fun a b => bytes a < bytes b :=
  List.pairwise_map.mpr ((Table.pairwise_sorted _).imp bytes_lt)

/-! ### Credentials -/

theorem credentials_respond (c : BrowserContext) (request : ServiceRequest) (host realm : String) :
    (c.respond request).2.credentialsFor host realm =
      (request.credentials host realm).getD (c.credentialsFor host realm) := by
  cases request with
  | database r =>
    cases r with
    | setCredentials otherHost otherRealm credentials =>
      simp only [respond, answerDatabase, credentialsFor, setCredentials, Table.get?_insert,
        ServiceRequest.credentials, Prod.mk.injEq, eq_comm]
      split <;> rfl
    | hasForms | clearForms | credentials | hasCredentials | clearCredentials => rfl
  | geolocation r => cases r <;> rfl
  | context r => cases r <;> rfl
  | statics | cookies | storage | icons => rfl

theorem credentials_after_iff (directory : String) (history : List ServiceRequest)
    (host realm : String) (credentials : Credentials) :
    (after directory history).credentialsFor host realm = some credentials ↔
      Latest (·.credentials host realm) history credentials :=
  latest_foldl_iff (·.credentialsFor host realm) rfl (credentials_respond · · host realm)
    history credentials

theorem hasCredentials_iff :
    c.hasCredentials = true ↔
      ∃ host realm credentials, c.credentialsFor host realm = some credentials := by
  rw [hasCredentials, Bool.not_eq_true', ← Bool.not_eq_true, Table.isEmpty_iff]
  simp only [Prod.forall, not_forall, Option.ne_none_iff_exists', credentialsFor]

/-! ### Forms -/

/-- A value that is saved goes to the end, and clearing forgets all of them. -/
theorem suggestions_respond (c : BrowserContext) (request : ServiceRequest) (field : String) :
    (c.respond request).2.suggestions field =
      if request = .database .clearForms then []
      else match request.saved? field with
        | none => c.suggestions field
        | some value =>
          if value ∈ c.suggestions field then c.suggestions field
          else c.suggestions field ++ [value] := by
  cases request with
  | context r =>
    cases r with
    | saveEntry other value =>
      simp only [respond, answer, saveEntry, suggestions, Table.get?_insert, ServiceRequest.saved?,
        reduceCtorEq, if_false]
      by_cases hfield : other = field
      · subst hfield
        rw [if_pos rfl, if_pos rfl]
        rfl
      · rw [if_neg (Ne.symm hfield), if_neg hfield]
    | dataDirectory | suggestions => rfl
  | database r => cases r <;> rfl
  | geolocation r => cases r <;> rfl
  | statics | cookies | storage | icons => rfl

/-- A field has the values that were saved for it, each of them once. -/
theorem suggestions_after (directory : String) (history : List ServiceRequest) (field : String) :
    InOrder (savings field history) ((after directory history).suggestions field) := by
  induction history using List.reverseRecOn with
  | nil => exact inOrder_nil
  | append_singleton history request ih =>
    rw [after_concat, suggestions_respond, savings_concat]
    split
    · exact inOrder_nil
    · cases request.saved? field with
      | none => simpa using ih
      | some value => simpa using ih.concat value

/-- There are forms when some field has a value, not only a list for its values. -/
theorem hasForms_iff : c.hasForms = true ↔ ∃ field, c.suggestions field ≠ [] := by
  simp only [hasForms, List.any_eq_true, Prod.exists, Table.mem_entries_iff, Bool.not_eq_true',
    List.isEmpty_eq_false_iff]
  constructor
  · rintro ⟨field, values, hget, hvalues⟩
    exact ⟨field, by rw [suggestions, hget]; exact hvalues⟩
  · rintro ⟨field, hvalues⟩
    cases hget : c.forms.get? field with
    | none =>
      rw [suggestions, hget] at hvalues
      exact absurd rfl hvalues
    | some values =>
      rw [suggestions, hget] at hvalues
      exact ⟨field, values, hget, hvalues⟩

/-! ### What a request leaves alone -/

/-- Two contexts keep the same of one of the three. -/
def Shares (c c' : BrowserContext) : ContextStore → Prop
  | .decisions => c'.geolocation = c.geolocation
  | .forms => c'.forms = c.forms
  | .credentials => c'.credentials = c.credentials

/-- A request changes nothing but what it is about. -/
theorem respond_shares {store other : ContextStore} (hstore : request.store? = some store)
    (hother : other ≠ store) : Shares c (c.respond request).2 other := by
  -- A request writes to the store that it is about, if to any; those that only look write nothing.
  cases request with
  | geolocation r =>
    cases hstore
    cases other with
    | decisions => exact absurd rfl hother
    | forms | credentials => cases r <;> rfl
  | database r =>
    cases r with
    | hasForms | credentials | hasCredentials => cases other <;> rfl
    | clearForms =>
      cases hstore
      cases other with
      | forms => exact absurd rfl hother
      | decisions | credentials => rfl
    | setCredentials | clearCredentials =>
      cases hstore
      cases other with
      | credentials => exact absurd rfl hother
      | decisions | forms => rfl
  | context r =>
    cases r with
    | dataDirectory => cases hstore
    | suggestions => cases other <;> rfl
    | saveEntry =>
      cases hstore
      cases other with
      | forms => exact absurd rfl hother
      | decisions | credentials => rfl
  | statics | cookies | storage | icons => cases hstore

/-- The response to a request depends on nothing but what the request is about. -/
theorem respond_congr {store : ContextStore} (hstore : request.store? = some store)
    (h : Shares c c' store) : (c'.respond request).1 = (c.respond request).1 := by
  -- A request that writes has one answer; one that looks is answered out of its store.
  cases request with
  | geolocation r =>
    cases hstore
    have hget : c'.geolocation = c.geolocation := h
    cases r with
    | decide | forget | forgetAll => rfl
    | allowed | origins => simp only [respond, answerGeolocation, allowed, origins, hget]
  | database r =>
    cases r with
    | setCredentials | clearForms | clearCredentials => rfl
    | hasForms =>
      cases hstore
      have hforms : c'.forms = c.forms := h
      simp only [respond, answerDatabase, hasForms, hforms]
    | credentials | hasCredentials =>
      cases hstore
      have hcredentials : c'.credentials = c.credentials := h
      simp only [respond, answerDatabase, credentialsFor, hasCredentials, hcredentials]
  | context r =>
    cases r with
    | dataDirectory => cases hstore
    | saveEntry => rfl
    | suggestions =>
      cases hstore
      have hforms : c'.forms = c.forms := h
      simp only [respond, answer, suggestions, hforms]
  | statics | cookies | storage | icons => cases hstore

/-- **Requests about one thing do not change the answers about another.** -/
theorem respond_frame {store other : ContextStore} {question : ServiceRequest}
    (hstore : request.store? = some store) (hother : question.store? = some other)
    (hne : other ≠ store) :
    ((c.respond request).2.respond question).1 = (c.respond question).1 :=
  respond_congr hother (respond_shares hstore hne)

end BrowserContext

end LazyEngine
