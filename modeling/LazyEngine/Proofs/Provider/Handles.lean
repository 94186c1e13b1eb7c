/-
One browser context behind many handles.

The geolocation permissions, the view database and the browser context itself are handed out as
objects of their own, at any time after startup and to anybody. All of them lead to the one browser
context of the provider:

* `Provider.Obtained`, `Provider.UsesObtained` — a section of a run has handed an object out, and
  nothing is used before it has been handed out;
* `Services.Sole.answer_looking` — an object of the three kinds answers as the browser context
  responds, and changes it in the same way;
* `Provider.remembers_run` — after any run the browser context is what the requests of the run make
  of a new one, by induction on the run, the latest move at its end;
* **`Provider.context_seen_through_handles`** — so what is answered through any handle can be read
  off the requests alone.

Design notes: which services are made when does not matter here. A section can only add to what has
been made, and an object that has been handed out has been made.
-/
import LazyEngine.Proofs.Provider.Singletons
import LazyEngine.Proofs.Services.Contexts

namespace LazyEngine

/-- Whether a request goes to a service that looks into the browser context, or to this itself. -/
def ServiceRequest.looks : ServiceRequest → Bool
  | .geolocation _ | .database _ | .context _ => true
  | _ => false

theorem ServiceRequest.looks_of_store? {request : ServiceRequest} {store : ContextStore}
    (h : request.store? = some store) : request.looks = true := by
  cases request with
  | geolocation | database | context => rfl
  | statics | cookies | storage | icons => cases h

theorem BrowserContext.respond_aside (c : BrowserContext) {request : ServiceRequest}
    (h : request.looks = false) : (c.respond request).2 = c := by
  cases request with
  | geolocation | database | context => cases h
  | statics | cookies | storage | icons => rfl

namespace Shelf

variable {A : Type} {s : Shelf A}

/-- The first time an object is asked for it is made, and never again. -/
theorem Sole.made_request_eq (h : s.Sole) (fresh : A) :
    (s.request fresh).2.made = if s.made = [] then [fresh] else s.made := by
  rcases h with ⟨hmade, hcurrent⟩ | ⟨hmade, hcurrent⟩
  · have hnil := List.length_eq_zero_iff.mp hmade
    simp [Shelf.request, hcurrent, hnil]
  · have hne : s.made ≠ [] := fun hnil => by simp [hnil] at hmade
    simp [Shelf.request, hcurrent, hne]

end Shelf

namespace Services

variable {s : Services} {request : ServiceRequest}

/-- Handing out a service leaves the browser context alone, or asks for it. -/
theorem contexts_request (s : Services) (fresh : Statics) (directory : String)
    (kind : ServiceKind) :
    (s.request fresh directory kind).2.contexts = s.contexts ∨
      (s.request fresh directory kind).2.contexts
        = (s.contexts.request (.fresh directory)).2 := by
  cases kind with
  | statics | cookies | storage | icons => exact .inl rfl
  | context => exact .inr rfl
  | geolocation | database =>
    simp only [request]
    split
    · exact .inl rfl
    · exact .inr rfl

/-! ### Answers of those who look into the context -/

theorem askContext_of_made {c : BrowserContext} (hmade : s.contexts.made = [c])
    (answer : BrowserContext → Value × BrowserContext) :
    (s.askContext 0 answer).1 = (answer c).1 ∧
      (s.askContext 0 answer).2.contexts.made = [(answer c).2] := by
  simp [askContext, Shelf.ask, hmade]

theorem exists_of_length {A : Type} {l : List A} (hone : l.length ≤ 1) (hne : l.length ≠ 0) :
    ∃ a, l = [a] := by
  obtain ⟨a, rest, rfl⟩ := List.exists_cons_of_length_pos (Nat.pos_of_ne_zero hne)
  rw [List.length_cons] at hone
  exact ⟨a, by rw [List.length_eq_zero_iff.mp (by omega : rest.length = 0)]⟩

/-- Whoever looks into a browser context looks into the one there is. -/
theorem Sole.user (h : s.Sole) {user : ContextUser} (huser : user ∈ s.users) :
    user.context = 0 ∧ ∃ c, s.contexts.made = [c] := by
  obtain ⟨hzero, hcurrent⟩ := h.users user huser
  exact ⟨hzero, exists_of_length h.contexts.length_le (h.contexts.made_of_current hcurrent)⟩

/-- **Every handle leads to the browser context.** An object that has been made of one of the three
kinds answers as the one browser context responds, and the browser context is changed as it changes
itself in responding. -/
theorem Sole.answer_looking (h : s.Sole) (hlooks : request.looks = true)
    (hmade : s.made request.kind ≠ 0) :
    ∃ c, s.contexts.made = [c] ∧ ∀ caller host,
      (s.answer 0 caller host request).1 = .ok (c.respond request).1 ∧
      (s.answer 0 caller host request).2.1.contexts.made = [(c.respond request).2] := by
  cases request with
  | statics | cookies | storage | icons => cases hlooks
  | context r =>
    obtain ⟨c, hc⟩ := exists_of_length h.contexts.length_le hmade
    obtain ⟨hvalue, hafter⟩ := askContext_of_made hc (·.answer r)
    exact ⟨c, hc, fun _ _ => ⟨congrArg Except.ok hvalue, hafter⟩⟩
  -- The other two hold the number of the context, which is that of the only one made.
  | geolocation r =>
    obtain ⟨user, huser⟩ := exists_of_length h.geolocation.length_le hmade
    have hmem : user ∈ s.users := by simp [Services.users, huser]
    obtain ⟨hzero, c, hc⟩ := h.user hmem
    obtain ⟨hvalue, hafter⟩ := askContext_of_made hc (·.answerGeolocation r)
    refine ⟨c, hc, fun _ _ => ?_⟩
    simp only [Services.answer, Shelf.get?, huser, List.getElem?_cons_zero, hzero]
    exact ⟨congrArg Except.ok hvalue, hafter⟩
  | database r =>
    obtain ⟨user, huser⟩ := exists_of_length h.database.length_le hmade
    have hmem : user ∈ s.users := by simp [Services.users, huser]
    obtain ⟨hzero, c, hc⟩ := h.user hmem
    obtain ⟨hvalue, hafter⟩ := askContext_of_made hc (·.answerDatabase r)
    refine ⟨c, hc, fun _ _ => ?_⟩
    simp only [Services.answer, Shelf.get?, huser, List.getElem?_cons_zero, hzero]
    exact ⟨congrArg Except.ok hvalue, hafter⟩

/-- The other services have nothing to do with it. -/
theorem contexts_answer_aside (s : Services) (hlooks : request.looks = false) (id : ObjectId)
    (caller : ThreadId) (host : Host) :
    (s.answer id caller host request).2.1.contexts = s.contexts := by
  cases request with
  | geolocation | database | context => cases hlooks
  | cookies | storage | icons => rfl
  | statics r =>
    simp only [answer]
    split <;> rfl

end Services

namespace Provider

open Machine Text

variable {config : Config} {change : VersionChange} {initializer : Initializer Host Engine}
  {ownership : Ownership} {files : FileSystem} {start p : Provider} {moves : List Move}
  {kind : ServiceKind} {id : ObjectId} {x : Move} {request : ServiceRequest}

/-! ### Handles -/

/-- A section of the run has handed the object out. -/
def Obtained (start : Provider) (moves : List Move) (kind : ServiceKind) (id : ObjectId) : Prop :=
  ∃ before later, moves = before ++ .handOut kind :: later ∧
    ((start.run before).handOut kind).1 = .ok id

/-- In the run only objects are used that have been handed out before. -/
def UsesObtained (start : Provider) (moves : List Move) : Prop :=
  ∀ before t id request later, moves = before ++ .use t id request :: later →
    Obtained start before request.kind id

/-- What a thread is answered when it uses an object. -/
def reply (p : Provider) (t : ThreadId) (id : ObjectId) (request : ServiceRequest) :
    Except StartupError Value :=
  (p.services.answer id t p.host request).1

/-- After the run everybody is given this answer, through whatever object of the kind that has been
handed out in the run. -/
def Replies (start : Provider) (moves : List Move) (request : ServiceRequest) (v : Value) : Prop :=
  ∀ t id, Obtained start moves request.kind id → (start.run moves).reply t id request = .ok v

/-- The requests of a run, in order. -/
def requests (moves : List Move) : List ServiceRequest :=
  moves.filterMap fun
    | .use _ _ request => some request
    | _ => none

theorem Obtained.append (h : Obtained start moves kind id) (later : List Move) :
    Obtained start (moves ++ later) kind id := by
  obtain ⟨before, rest, rfl, hout⟩ := h
  exact ⟨before, rest ++ later, by simp, hout⟩

theorem usesObtained_concat :
    UsesObtained start (moves ++ [x]) ↔ UsesObtained start moves ∧
      ∀ t id request, x = .use t id request → Obtained start moves request.kind id := by
  constructor
  · intro h
    refine ⟨fun before t id request later heq => ?_, fun t id request heq => ?_⟩
    · exact h before t id request (later ++ [x]) (by simp [heq])
    · exact h moves t id request [] (by rw [heq])
  · rintro ⟨h, hlast⟩ before t id request later heq
    rcases append_singleton_eq_iff.mp heq with ⟨rfl, rfl, -⟩ | ⟨later, -, hmoves⟩
    · exact hlast t id request rfl
    · exact h before t id request later hmoves

theorem config_run (p : Provider) (moves : List Move) : (p.run moves).config = p.config := by
  induction moves generalizing p with
  | nil => rfl
  | cons x rest ih => exact (ih (p.move x)).trans (p.config_move x)

/-- An object that has been handed out is the first of its kind, and has been made. -/
theorem Obtained.made
    (h : Obtained (opening config change initializer ownership files) moves kind id) :
    id = 0 ∧
      ((opening config change initializer ownership files).run moves).services.made kind ≠ 0 := by
  obtain ⟨before, later, rfl, hout⟩ := h
  have hstocked := stocked_run config change initializer ownership files before
  refine ⟨eq_zero_of_handOut hstocked.sole hout, ?_⟩
  rw [run_append]
  set p := (opening config change initializer ownership files).run before
  have hle := made_le_run (p.move (.handOut kind)) later kind
  have hone := (supplied_handOut hstocked.sole hout).2.made
  change (p.move (.handOut kind)).services.made kind = 1 at hone
  show ((p.move (.handOut kind)).run later).services.made kind ≠ 0
  omega

/-! ### What the browser context remembers -/

/-- The browser context is what the requests make of a new one; if it has not been made yet they
make nothing of it. -/
def Remembers (p : Provider) (history : List ServiceRequest) : Prop :=
  let c := BrowserContext.after p.config.dataDirectory history
  p.services.contexts.made = [c] ∨
    p.services.contexts.made = [] ∧ c = .fresh p.config.dataDirectory

theorem Remembers.of_eq {q : Provider} {history : List ServiceRequest} (h : Remembers p history)
    (hconfig : q.config = p.config) (hmade : q.services.contexts.made = p.services.contexts.made) :
    Remembers q history := by
  rw [Remembers, hconfig, hmade]
  exact h

/-- A browser context is made for the data directory of the provider. -/
theorem contexts_handOut (p : Provider) (kind : ServiceKind) :
    (p.handOut kind).2.services.contexts = p.services.contexts ∨
      (p.handOut kind).2.services.contexts
        = (p.services.contexts.request (.fresh p.config.dataDirectory)).2 := by
  unfold handOut
  split
  · exact .inl rfl
  · exact .inl rfl
  · exact .inl rfl
  · exact p.services.contexts_request _ _ _

theorem Remembers.handOut {history : List ServiceRequest} (h : Remembers p history)
    (hsole : p.services.Sole) (kind : ServiceKind) : Remembers (p.handOut kind).2 history := by
  have hconfig : (p.handOut kind).2.config = p.config := p.config_move (.handOut kind)
  rcases p.contexts_handOut kind with heq | heq
  · exact h.of_eq hconfig (by rw [heq])
  · have hmade := hsole.contexts.made_request_eq (.fresh p.config.dataDirectory)
    rw [← heq] at hmade
    rcases h with hc | ⟨hnil, hfresh⟩
    · rw [if_neg (by simp [hc])] at hmade
      exact Remembers.of_eq (.inl hc) hconfig hmade
    · -- the context is made now, and nobody has asked anything of it before
      rw [if_pos hnil] at hmade
      left
      rw [hmade, hconfig, hfresh]

/-- A request through a handle is remembered. -/
theorem Remembers.use {history : List ServiceRequest} (h : Remembers p history)
    (hsole : p.services.Sole) (t : ThreadId)
    (hmade : request.looks = true → id = 0 ∧ p.services.made request.kind ≠ 0) :
    Remembers (p.move (.use t id request)) (history ++ [request]) := by
  rw [Remembers, config_move, services_move, BrowserContext.after_concat]
  dsimp only
  cases hlooks : request.looks with
  | false =>
    rw [p.services.contexts_answer_aside hlooks, BrowserContext.respond_aside _ hlooks]
    exact h
  | true =>
    obtain ⟨rfl, hne⟩ := hmade hlooks
    obtain ⟨c, hc, hanswer⟩ := hsole.answer_looking hlooks hne
    rcases h with hmade | ⟨hnil, -⟩
    · obtain rfl := List.singleton_inj.mp (hc.symm.trans hmade)
      exact .inl (hanswer t p.host).2
    · rw [hnil] at hc
      cases hc

/-- **The browser context remembers the requests of a run**, if they are made through handles. -/
theorem remembers_run
    (huses : UsesObtained (opening config change initializer ownership files) moves) :
    Remembers ((opening config change initializer ownership files).run moves) (requests moves) := by
  induction moves using List.reverseRecOn with
  | nil => exact .inr ⟨rfl, rfl⟩
  | append_singleton moves x ih =>
    obtain ⟨huses, hlast⟩ := usesObtained_concat.mp huses
    have h := ih huses
    have hsole := (stocked_run config change initializer ownership files moves).sole
    rw [run_append, requests, List.filterMap_append]
    set p := (opening config change initializer ownership files).run moves
    show Remembers (p.move x) _
    cases x with
    | handOut kind =>
      simp only [List.filterMap_cons, List.filterMap_nil, List.append_nil]
      exact h.handOut hsole kind
    | use t id request => exact h.use hsole t fun _ => (hlast t id request rfl).made
    | spawn | step | ask | createView | dropView | setDebugging =>
      simp only [List.filterMap_cons, List.filterMap_nil, List.append_nil]
      exact h.of_eq (config_move _ _) (by rw [services_move])

/-- Everybody is answered what the browser context responds. -/
theorem replies_of_looks
    (huses : UsesObtained (opening config change initializer ownership files) moves)
    (hlooks : request.looks = true) :
    Replies (opening config change initializer ownership files) moves request
      ((BrowserContext.after config.dataDirectory (requests moves)).respond request).1 := by
  intro t id hobtained
  obtain ⟨rfl, hne⟩ := hobtained.made
  have hsole := (stocked_run config change initializer ownership files moves).sole
  obtain ⟨c, hc, hanswer⟩ := hsole.answer_looking hlooks hne
  have hremembers := remembers_run huses
  rw [Remembers, config_run] at hremembers
  rcases hremembers with hmade | ⟨hnil, -⟩
  · obtain rfl := List.singleton_inj.mp (hc.symm.trans hmade)
    exact (hanswer t _).1
  · rw [hnil] at hc
    cases hc

/-! ### Main result -/

/-- **What the browser context remembers is seen through every handle.** Take any run in which
nothing is used that has not been handed out before. Then, through whatever handle and on whatever
thread it is asked,

* a field is answered with the values that have been saved for it since all forms were last cleared,
  each once and in the order in which they were first saved, and there are forms exactly when some
  field has a value;
* an origin is answered with the latest decision about it, unless this has been forgotten since,
  alone or with all others, and the origins are exactly those with a decision, in the order of their
  bytes;
* a realm of a host is answered with the credentials that have been set last for it since all were
  last cleared, and there are credentials exactly when some realm of some host has any;
* using a handle for one of the three changes no answer about the other two. -/
theorem context_seen_through_handles (config : Config) (change : VersionChange)
    (initializer : Initializer Host Engine) (ownership : Ownership) (files : FileSystem)
    (moves : List Move)
    (huses : UsesObtained (opening config change initializer ownership files) moves) :
    let start := opening config change initializer ownership files
    let history := requests moves
    ((∀ field, ∃ values, Replies start moves (.context (.suggestions field)) (.texts values) ∧
        InOrder (savings field history) values) ∧
      ∃ any, Replies start moves (.database .hasForms) (.flag any) ∧
        (any = true ↔ ∃ field, savings field history ≠ [])) ∧
    ((∀ origin, ∃ decision, Replies start moves (.geolocation (.allowed origin)) (.flag? decision) ∧
        ∀ allow, decision = some allow ↔ Latest (·.decision origin) history allow) ∧
      ∃ origins, Replies start moves (.geolocation .origins) (.texts origins) ∧
        origins.Pairwise (fun a b => bytes a < bytes b) ∧
        ∀ origin, origin ∈ origins ↔ ∃ allow, Latest (·.decision origin) history allow) ∧
    ((∀ host realm, ∃ credentials,
        Replies start moves (.database (.credentials host realm)) (.credentials? credentials) ∧
        ∀ c, credentials = some c ↔ Latest (·.credentials host realm) history c) ∧
      ∃ any, Replies start moves (.database .hasCredentials) (.flag any) ∧
        (any = true ↔ ∃ host realm c, Latest (·.credentials host realm) history c)) ∧
    ∀ t id request store question other, Obtained start moves request.kind id →
      request.store? = some store → question.store? = some other → other ≠ store →
      ∀ t' id', Obtained start moves question.kind id' →
        ((start.run moves).move (.use t id request)).reply t' id' question
          = (start.run moves).reply t' id' question := by
  intro start history
  set c := BrowserContext.after config.dataDirectory history with hc
  -- A request that only looks is answered out of the contents that the history has left, through
  -- whichever handle; the rest is about those contents.
  have hreplies : ∀ request : ServiceRequest, request.looks = true →
      Replies start moves request (c.respond request).1 :=
    fun request hlooks => replies_of_looks huses hlooks
  have hforms : ∀ field, InOrder (savings field history) (c.suggestions field) :=
    BrowserContext.suggestions_after config.dataDirectory history
  have hallowed : ∀ origin allow,
      c.allowed origin = some allow ↔ Latest (·.decision origin) history allow :=
    BrowserContext.allowed_after_iff config.dataDirectory history
  have hcredentials : ∀ host realm known,
      c.credentialsFor host realm = some known ↔ Latest (·.credentials host realm) history known :=
    BrowserContext.credentials_after_iff config.dataDirectory history
  refine ⟨⟨fun field => ⟨_, hreplies _ rfl, hforms field⟩, _, hreplies _ rfl, ?_⟩,
    ⟨fun origin => ⟨_, hreplies _ rfl, hallowed origin⟩, _, hreplies _ rfl, c.pairwise_origins, ?_⟩,
    ⟨fun host realm => ⟨_, hreplies _ rfl, hcredentials host realm⟩, _, hreplies _ rfl, ?_⟩, ?_⟩
  · rw [BrowserContext.hasForms_iff]
    exact exists_congr fun field => not_congr (hforms field).eq_nil_iff
  · intro origin
    rw [BrowserContext.mem_origins_iff]
    exact exists_congr (hallowed origin)
  · rw [BrowserContext.hasCredentials_iff]
    exact exists_congr fun host => exists_congr fun realm => exists_congr (hcredentials host realm)
  · intro t id request store question other hobtained hstore hother hne t' id' hobtained'
    have hlooks := ServiceRequest.looks_of_store? hother
    -- the use is one move more, through a handle that has been obtained
    have huses' : UsesObtained start (moves ++ [.use t id request]) :=
      usesObtained_concat.mpr ⟨huses, fun _ _ _ heq => by cases heq; exact hobtained⟩
    have hbefore := hreplies question hlooks t' id' hobtained'
    have hafter := replies_of_looks huses' hlooks t' id' (hobtained'.append _)
    have hrequests : requests (moves ++ [.use t id request]) = history ++ [request] := by
      simp [requests, history]
    rw [run_append, hrequests, BrowserContext.after_concat, ← hc,
      BrowserContext.respond_frame hstore hother hne] at hafter
    exact hafter.trans hbefore.symm

/-- What `context_seen_through_handles` says of a provider of the simulated engine: a value has been
saved through the browser context before the view database was handed out, and forms have been
cleared through the view database since, by another thread. -/
theorem context_seen_through_handles_after_clearing :
    let config : Config := { baseDirectory := "base" }
    let start := opening config .firstRun config.boot (.queue none) {}
    let moves : List Move := [.ask 0 (.start .owner), .step 0, .step 0, .handOut .context,
      .use 0 0 (.context (.saveEntry "name" "Ada")), .spawn, .handOut .database,
      .use 1 0 (.database .clearForms), .use 0 0 (.context (.saveEntry "name" "Eve"))]
    UsesObtained start moves ∧
    Obtained start moves .context 0 ∧ Obtained start moves .database 0 ∧
    savings "name" (requests moves) = ["Eve"] ∧
    (∃ values, Replies start moves (.context (.suggestions "name")) (.texts values) ∧
      InOrder (savings "name" (requests moves)) values) ∧
    (∃ any, Replies start moves (.database .hasForms) (.flag any) ∧
      (any = true ↔ ∃ field, savings field (requests moves) ≠ [])) ∧
    ((start.run moves).move (.use 0 0 (.context (.saveEntry "name" "Ada")))).reply 1 0
        (.database .hasCredentials)
      = (start.run moves).reply 1 0 (.database .hasCredentials) := by
  intro config start moves
  let startup : List Move := [.ask 0 (.start .owner), .step 0, .step 0, .handOut .context]
  let later : List Move := startup ++ [.use 0 0 (.context (.saveEntry "name" "Ada"))] ++ [.spawn] ++
    [.handOut .database]
  have hcontext : Obtained start startup .context 0 :=
    ⟨[.ask 0 (.start .owner), .step 0, .step 0], [], rfl, by decide +kernel⟩
  have hdatabase : Obtained start later .database 0 :=
    ⟨startup ++ [.use 0 0 (.context (.saveEntry "name" "Ada"))] ++ [.spawn], [], rfl,
      by decide +kernel⟩
  -- Every use in the history is of a handle handed out before it.
  have hstartup : UsesObtained start startup := by
    intro before t id request rest heq
    have hmem : Move.use t id request ∈ startup := by simp [heq]
    simp [startup] at hmem
  have hlater : UsesObtained start later := by
    refine usesObtained_concat.mpr ⟨usesObtained_concat.mpr ⟨usesObtained_concat.mpr
      ⟨hstartup, ?_⟩, ?_⟩, ?_⟩
    · rintro t id request ⟨⟩
      exact hcontext
    · rintro t id request ⟨⟩
    · rintro t id request ⟨⟩
  have hcleared : UsesObtained start (later ++ [.use 1 0 (.database .clearForms)]) := by
    refine usesObtained_concat.mpr ⟨hlater, ?_⟩
    rintro t id request ⟨⟩
    exact hdatabase
  have hagain : Obtained start (later ++ [.use 1 0 (.database .clearForms)]) .context 0 :=
    hcontext.append [.use 0 0 (.context (.saveEntry "name" "Ada")), .spawn, .handOut .database,
      .use 1 0 (.database .clearForms)]
  have huses : UsesObtained start moves := by
    refine usesObtained_concat.mpr ⟨hcleared, ?_⟩
    rintro t id request ⟨⟩
    exact hagain
  have hcontext' : Obtained start moves .context 0 := hagain.append [_]
  have hdatabase' : Obtained start moves .database 0 := hdatabase.append [_, _]
  obtain ⟨⟨hforms, hany⟩, -, -, hframe⟩ :=
    context_seen_through_handles config .firstRun config.boot (.queue none) {} moves huses
  refine ⟨huses, hcontext', hdatabase', by decide +kernel, hforms "name", hany, ?_⟩
  exact hframe 0 0 (.context (.saveEntry "name" "Ada")) .forms (.database .hasCredentials)
    .credentials hcontext' rfl rfl (by decide) 1 0 hdatabase'

end Provider

end LazyEngine
