/-
Everything that can happen to a provider.

Any number of threads use a provider, and the code on a thread decides as it goes along what it asks
for next. A run of a provider is a list of moves in any order:

* `Move`, `Provider.move` — a thread goes on with what it has begun, or its code asks for something;
* `Provider.opening` — a provider before its first move; `eq_opening_of_create` says that no other
  provider is ever created;
* `goes_move` — what a move does to the machine: one step of one thread, or none;
* `sound_move`, `run_invariant` — all that holds of a machine under any schedule holds of the
  machine of a provider after any moves.

Design notes: a schedule of a machine needs the scripts of its threads in advance. Here a thread has
no script: where its code is at work, any call may come next, and the call is put on the thread's
stack at the moment when it is made. So tasks, closures and guarded code are posted without calls
of their own, and what they do is what the owner thread asks for while it runs them. A request for
a service is a call for the engine and then the section that hands the service out; the two are
moves of their own, so sections are allowed here that no request would lead to.
-/
import LazyEngine.Proofs.Startup.Decision
import LazyEngine.Proofs.Startup.Passages
import LazyEngine.Provider

namespace LazyEngine

/-- Where the owner thread of a provider comes from. -/
inductive Ownership where
  /-- It is the thread that has made the provider, and it pumps a queue. -/
  | queue (name : Option String)
  /-- It has been made to serve a loop. -/
  | loop (name : String)

namespace Ownership

variable {σ E : Type}

def owner : Ownership → Owner
  | queue name => ⟨0, name⟩
  | loop name => ⟨0, some name⟩

def session : Ownership → Initializer σ E → σ → Session σ E
  | queue name => .overQueue name
  | loop name => .overLoop name

end Ownership

/-- Calls that carry no calls of their own, and that take no registration back: only those a
provider makes or passes on. -/
def Call.IsBare : Call → Prop
  | register listener => listener.script = []
  | post calls | runOnOwner calls _ | catching calls => calls = []
  | unregister _ => False
  | _ => True

/-- What code on a thread asks of startup and of its dispatcher. -/
inductive Demand where
  /-- The engine, started if need be; most services ask for it first. -/
  | start (claim : Claim)
  | startInBackground
  | post
  | runOnOwner (value : String)
  /-- To go on where a panic goes no further. -/
  | catching
  | pump
  | close
  | shutdown
  | panic (message : String)

def Demand.call : Demand → Call
  | start claim => .ensureStarted claim
  | startInBackground => .startInBackground
  | post => .post []
  | runOnOwner value => .runOnOwner [] value
  | catching => .catching []
  | pump => .pump
  | close => .close
  | shutdown => .shutdown
  | panic message => .panic message

theorem Demand.isBare_call (demand : Demand) : demand.call.IsBare := by
  cases demand with
  | post | runOnOwner | catching => rfl
  | _ => trivial

/-- Something that happens to a provider. -/
inductive Move where
  /-- There is a new thread. -/
  | spawn
  /-- A thread goes on with what it has begun. -/
  | step (t : ThreadId)
  | ask (t : ThreadId) (demand : Demand)
  | createView (t : ThreadId) (name : String)
  /-- Nobody holds a view any more. -/
  | dropView (key : Nat)
  /-- The section that hands out a service. -/
  | handOut (kind : ServiceKind)
  /-- A service that has been handed out is used. -/
  | use (t : ThreadId) (id : ObjectId) (request : ServiceRequest)
  | setDebugging (t : ThreadId) (enable : Bool)

namespace Machine

variable {σ E : Type} {m m' n : Machine σ E} {t : ThreadId} {call : Call}
  {initializer : Initializer σ E} {owner : Owner}

/-- Whether code on a thread can make a call: the thread is idle, or in the middle of a script. The
thread of a loop is idle only when it has ended, and views have no code. -/
def isFree (m : Machine σ E) (t : ThreadId) : Bool :=
  match m.threads[t]? with
  | some [] => !(m.dispatcher.isLoop && m.dispatcher.owner.isCurrent t)
  | some (.script origin [] :: _) => origin != .callback
  | _ => false

/-- Code on a thread makes a call, if it can: the first step of the call is taken. -/
def makes (m : Machine σ E) (t : ThreadId) (call : Call) : Machine σ E :=
  if m.isFree t then ((m.poised t call).step t).getD m else m

theorem stack_of_isFree (h : m.isFree t = true) :
    t < m.threads.length ∧
      (m.stack t = [] ∨ ∃ origin below, m.stack t = .script origin [] :: below ∧
        origin ≠ .callback) := by
  unfold isFree at h
  split at h
  · rename_i ht
    exact ⟨(List.getElem?_eq_some_iff.mp ht).1, .inl (by rw [stack, ht, Option.getD_some])⟩
  · rename_i origin below ht
    refine ⟨(List.getElem?_eq_some_iff.mp ht).1, .inr ⟨origin, below, ?_, by simpa using h⟩⟩
    rw [stack, ht, Option.getD_some]
  · cases h

/-- A machine in which nobody has taken a step: there may be another host, a new thread that is
idle, and other listeners that are held. -/
structure Beside (m n : Machine σ E) : Prop where
  coordinator : n.coordinator = m.coordinator
  dispatcher : n.dispatcher = m.dispatcher
  threads : n.threads = m.threads ∨ n.threads = m.threads ++ [[]]
  served : n.served = m.served
  log : n.log = m.log

/-- A new thread has nothing to do, like a thread that does not exist. -/
theorem Beside.stack (h : Beside m n) (u : ThreadId) : n.stack u = m.stack u := by
  rcases h.threads with hthreads | hthreads
  · rw [Machine.stack, Machine.stack, hthreads]
  · simp only [Machine.stack, hthreads, List.getElem?_append]
    split
    · rfl
    · rename_i hu
      rw [List.getElem?_eq_none (Nat.not_lt.mp hu)]
      rcases (u - m.threads.length) with _ | k <;> rfl

/-- What a move of a provider does to its machine: nothing, or a thread takes a step, with the call
`asked` that its code has just made or without. -/
inductive Goes (m : Machine σ E) (asked : Option Call) : Machine σ E → Prop where
  | stays : Goes m asked m
  | steps {t : ThreadId} {m' : Machine σ E} : m.step t = some m' → Goes m asked m'
  | calls {t : ThreadId} {call : Call} {m' : Machine σ E} : asked = some call →
      m.isFree t = true → (m.poised t call).step t = some m' → Goes m asked m'

theorem goes_step (m : Machine σ E) (asked : Option Call) (t : ThreadId) :
    Goes m asked ((m.step t).getD m) := by
  cases h : m.step t with
  | none => exact .stays
  | some m' => exact .steps h

theorem goes_makes (m : Machine σ E) (t : ThreadId) (call : Call) :
    Goes m (some call) (m.makes t call) := by
  unfold makes
  split
  · rename_i hfree
    cases h : (m.poised t call).step t with
    | none => exact .stays
    | some m' => exact .calls rfl hfree h
  · exact .stays

namespace Sound

/-- A call that code makes changes nothing before its first step. -/
theorem poised (h : Sound initializer owner m) (hfree : m.isFree t = true) :
    Sound initializer owner (m.poised t call) := by
  obtain ⟨ht, hstack⟩ := stack_of_isFree hfree
  have hs := stack_poised ht call
  -- Only what is said of stacks has to be checked: the thread has one frame more, a script.
  refine ⟨h.owner_eq, h.ownedBy, h.stage, fun u f below hu g hg => ?_, fun u f hf hown => ?_,
    fun u f hf => fits_withStack.mpr ?_⟩
  · rw [hs] at hu
    split at hu
    · -- the new frame lies on frames that are not urgent
      obtain ⟨-, rfl⟩ := List.cons.inj hu
      rcases hstack with hnil | ⟨origin, below, hcons, -⟩
      · rw [hnil] at hg
        cases hg
      · rw [hcons] at hg
        rcases List.mem_cons.mp hg with rfl | hg
        · rfl
        · exact h.innermost t _ _ hcons g hg
    · exact h.innermost u f below hu g hg
  · rw [hs] at hf
    split at hf
    · rename_i heq
      subst heq
      rcases List.mem_cons.mp hf with rfl | hf
      · cases hown
      · exact h.ownerOnly u f hf hown
    · exact h.ownerOnly u f hf hown
  · rw [hs] at hf
    split at hf
    · rcases List.mem_cons.mp hf with rfl | hf
      · trivial
      · exact h.fits t f hf
    · exact h.fits u f hf

theorem goes (h : Sound initializer owner m) {asked : Option Call} (hgoes : Goes m asked m') :
    Sound initializer owner m' := by
  cases hgoes with
  | stays => exact h
  | steps hstep => exact h.step (turn_of_step hstep)
  | calls _ hfree hstep => exact (h.poised hfree).step (turn_of_step hstep)

/-- Neither the host nor an idle thread nor the listeners that are held matter. -/
theorem beside (h : Sound initializer owner m) (hn : Beside m n) : Sound initializer owner n := by
  have hs := hn.stack
  refine ⟨hn.dispatcher ▸ h.owner_eq, hn.coordinator ▸ h.ownedBy, hn.coordinator ▸ h.stage,
    fun u f below hu => ?_, fun u f hf => ?_, fun u f hf => ?_⟩
  · rw [hs] at hu
    exact h.innermost u f below hu
  · rw [hs] at hf
    exact h.ownerOnly u f hf
  · rw [hs] at hf
    exact (fits_congr hn.coordinator (congrArg _ hn.dispatcher)).mpr (h.fits u f hf)

end Sound

/-- At first no thread has anything to do, but that the loop's thread serves the loop. -/
theorem stack_session (o : Ownership) (initializer : Initializer σ E) (host : σ) (u : ThreadId) :
    (o.session initializer host).machine.stack u = [] ∨
      (u = o.owner.thread ∧ (o.session initializer host).machine.dispatcher.isLoop = true ∧
        (o.session initializer host).machine.stack u = [.serving]) := by
  cases o with
  | queue name => rcases u with _ | u <;> exact .inl rfl
  | loop name =>
    rcases u with _ | _ | u
    · exact .inr ⟨rfl, rfl, rfl⟩
    · exact .inl rfl
    · exact .inl rfl

/-- While nobody has asked for the engine, and nobody has anything to do but to serve the loop,
there is nothing that could be wrong. -/
theorem sound_idle (howner : m.dispatcher.owner = owner) (hnone : m.coordinator.owner = none)
    (hstage : m.coordinator.InStage initializer owner .untouched)
    (hstack : ∀ u, m.stack u = [] ∨
      (u = owner.thread ∧ m.dispatcher.isLoop = true ∧ m.stack u = [.serving])) :
    Sound initializer owner m := by
  refine ⟨howner, .inl hnone, ⟨.untouched, hstage⟩, fun u f below hu g hg => ?_,
    fun u f hf hown => ?_, fun u f hf => ?_⟩
  · rcases hstack u with hnil | ⟨-, -, hcons⟩
    · rw [hnil] at hu
      cases hu
    · rw [hcons] at hu
      cases hu
      cases hg
  · rcases hstack u with hnil | ⟨rfl, -, hcons⟩
    · rw [hnil] at hf
      cases hf
    · exact Owner.isCurrent_iff.mpr rfl
  · rcases hstack u with hnil | ⟨-, hloop, hcons⟩
    · rw [hnil] at hf
      cases hf
    · rw [hcons, List.mem_singleton] at hf
      subst hf
      exact hloop

theorem sound_session (o : Ownership) (initializer : Initializer σ E) (host : σ) :
    Sound initializer o.owner (o.session initializer host).machine :=
  sound_idle (by cases o <;> rfl) (by cases o <;> rfl)
    (by cases o <;> exact Coordinator.inStage_create) (stack_session o initializer host)

end Machine

namespace Provider

open Machine

variable {config : Config} {initializer : Initializer Host Engine} {ownership : Ownership}
  {p : Provider}

def machine (p : Provider) : Machine Host Engine :=
  p.session.machine

def withMachine (p : Provider) (m : Machine Host Engine) : Provider :=
  { p with session.machine := m }

/-- What a move does. -/
def move (p : Provider) : Move → Provider
  | .spawn => p.withMachine { p.machine with threads := p.machine.threads ++ [[]] }
  | .step t => p.withMachine ((p.machine.step t).getD p.machine)
  | .ask t demand => p.withMachine (p.machine.makes t demand.call)
  | .createView t name =>
    let (l, session) := p.session.newListener name .plain
    { p with session }.withMachine (session.machine.makes t (.register l))
  | .dropView key => p.withMachine { p.machine with held := p.machine.held.filter (· != key) }
  | .handOut kind => (p.handOut kind).2
  | .use t id request =>
    let (_, services, host) := p.services.answer id t p.host request
    { p with services }.withHost host
  | .setDebugging t enable => (p.setDebugging t enable).2

/-- Moves one after another. -/
def run (p : Provider) (moves : List Move) : Provider :=
  moves.foldl move p

/-- A provider that nobody has used yet. -/
def opening (config : Config) (change : VersionChange) (initializer : Initializer Host Engine)
    (ownership : Ownership) (files : FileSystem) : Provider :=
  { config
    versionChange := change
    session := ownership.session (config.starting initializer) { files } }

/-- Every provider that is created is such a one. -/
theorem eq_opening_of_create {fs : FileSystem} {now : String}
    (h : create config fs now initializer ownership.session = .ok p) :
    ∃ change files, p = opening config change initializer ownership files := by
  unfold create at h
  split at h
  · cases h
  · rename_i change files _
    cases h
    exact ⟨change, files, rfl⟩

theorem run_append (p : Provider) (first second : List Move) :
    p.run (first ++ second) = (p.run first).run second := by
  rw [run, run, run, List.foldl_append]

/-- A section that hands out a service concerns the services only. -/
theorem session_handOut (p : Provider) (kind : ServiceKind) :
    (p.handOut kind).2.session = p.session := by
  unfold handOut
  split <;> rfl

/-- Switching remote debugging concerns the host only. -/
theorem setDebugging_eq (p : Provider) (t : ThreadId) (enable : Bool) :
    ∃ host, (p.setDebugging t enable).2 = p.withHost host := by
  unfold setDebugging
  split
  · exact ⟨p.host, rfl⟩
  · exact ⟨_, rfl⟩

theorem sound_opening (config : Config) (change : VersionChange)
    (initializer : Initializer Host Engine) (ownership : Ownership) (files : FileSystem) :
    Sound (config.starting initializer) ownership.owner
      (opening config change initializer ownership files).machine :=
  sound_session ownership _ _

/-- The machine that takes the step of a move, if it has one. -/
def prepared (p : Provider) : Move → Machine Host Engine
  | .spawn => { p.machine with threads := p.machine.threads ++ [[]] }
  | .createView _ _ => { p.machine with held := p.session.nextKey :: p.machine.held }
  | .dropView key => { p.machine with held := p.machine.held.filter (· != key) }
  | .use t id request => { p.machine with host := (p.services.answer id t p.host request).2.2 }
  | .setDebugging t enable => { p.machine with host := (p.setDebugging t enable).2.host }
  | .step _ | .ask _ _ | .handOut _ => p.machine

theorem beside_prepared (p : Provider) (x : Move) : Beside p.machine (p.prepared x) := by
  cases x with
  | spawn => exact ⟨rfl, rfl, .inr rfl, rfl, rfl⟩
  | _ => exact ⟨rfl, rfl, .inl rfl, rfl, rfl⟩

/-- The call that the code of a move makes. -/
def asked (p : Provider) : Move → Option Call
  | .ask _ demand => some demand.call
  | .createView _ name => some (.register (Behaviour.plain.listener p.session.nextKey name))
  | _ => none

/-- A view does nothing when it is told, so all calls of a provider are bare. -/
theorem isBare_asked (p : Provider) (x : Move) {call : Call} (h : p.asked x = some call) :
    call.IsBare := by
  cases x with
  | ask t demand =>
    cases h
    exact demand.isBare_call
  | createView t name =>
    cases h
    rfl
  | _ => cases h

theorem goes_move (p : Provider) (x : Move) :
    Goes (p.prepared x) (p.asked x) (p.move x).machine := by
  cases x with
  | step t => exact goes_step p.machine none t
  | ask t demand => exact goes_makes p.machine t demand.call
  | createView t name => exact goes_makes _ t _
  | handOut kind =>
    show Goes p.machine none (p.handOut kind).2.session.machine
    rw [session_handOut]
    exact .stays
  | setDebugging t enable =>
    obtain ⟨host, heq⟩ := p.setDebugging_eq t enable
    show Goes { p.machine with host := (p.setDebugging t enable).2.host } none
      (p.setDebugging t enable).2.session.machine
    rw [heq]
    exact .stays
  | spawn | dropView | use => exact .stays

theorem sound_prepared {owner : Owner} (h : Sound initializer owner p.machine) (x : Move) :
    Sound initializer owner (p.prepared x) :=
  h.beside (p.beside_prepared x)

theorem sound_move {owner : Owner} (h : Sound initializer owner p.machine) (x : Move) :
    Sound initializer owner (p.move x).machine :=
  (sound_prepared h x).goes (p.goes_move x)

/-- What holds of an unused provider and is kept by every move holds all along. -/
theorem run_invariant {P : Provider → Prop} {owner : Owner}
    (hsound : Sound initializer owner p.machine) (h : P p)
    (hmove : ∀ p x, Sound initializer owner p.machine → P p → P (p.move x)) (moves : List Move) :
    Sound initializer owner (p.run moves).machine ∧ P (p.run moves) := by
  induction moves generalizing p with
  | nil => exact ⟨hsound, h⟩
  | cons x rest ih => exact ih (sound_move hsound x) (hmove p x hsound h)

theorem sound_run {owner : Owner} (h : Sound initializer owner p.machine) (moves : List Move) :
    Sound initializer owner (p.run moves).machine :=
  (run_invariant (P := fun _ => True) h trivial (fun _ _ _ _ => trivial) moves).1

/-- A fact about the coordinator and the log that every step keeps is kept by every move. -/
theorem run_keeps {P : Coordinator Host Engine Listener → List (Event Engine) → Prop}
    {owner : Owner} (hsound : Sound initializer owner p.machine)
    (hturn : ∀ (n : Machine Host Engine) t m', Sound initializer owner n → Turn n t m' →
      P n.coordinator n.log → P m'.coordinator m'.log)
    (h : P p.machine.coordinator p.machine.log) (moves : List Move) :
    P (p.run moves).machine.coordinator (p.run moves).machine.log := by
  refine (run_invariant (P := fun p => P p.machine.coordinator p.machine.log) hsound h
    (fun p x hsound h => ?_) moves).2
  have hn := p.beside_prepared x
  have hprepared : P (p.prepared x).coordinator (p.prepared x).log := by
    rw [hn.coordinator, hn.log]
    exact h
  have hsound' := sound_prepared hsound x
  have hgoes := p.goes_move x
  generalize (p.move x).machine = m at hgoes ⊢
  cases hgoes with
  | stays => exact hprepared
  | steps hstep => exact hturn _ _ _ hsound' (turn_of_step hstep) hprepared
  | calls _ hfree hstep =>
    exact hturn _ _ _ (hsound'.poised hfree) (turn_of_step hstep) hprepared

theorem started_run {owner : Owner} (hsound : Sound initializer owner p.machine)
    (hp : p.machine.coordinator.phase = .started) (moves : List Move) :
    (p.run moves).machine.coordinator.phase = .started :=
  run_keeps (P := fun c _ => c.phase = .started) hsound (fun _ _ _ h ht => h.started_mono ht) hp
    moves

theorem failure_run {owner : Owner} (hsound : Sound initializer owner p.machine) {reason : String}
    (hf : p.machine.coordinator.failure = some reason) (moves : List Move) :
    (p.run moves).machine.coordinator.failure = some reason :=
  run_keeps (P := fun c _ => c.failure = some reason) hsound
    (fun _ _ _ h ht => (h.change ht).failure_mono) hf moves

end Provider

end LazyEngine
