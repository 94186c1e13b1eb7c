/-
Providers whose listeners are views.

The calls that a provider makes or passes on carry no calls of their own, and views do nothing when
they are told. So no script is ever waiting anywhere:

* `Machine.Bare` — no frame, no task and no listener has a call to make;
* `Ready.step`, `Bare.goes` — a step keeps this, also one that begins with a call that code on the
  thread has just made;
* `Provider.bare_move` — so it holds of a provider all along.

Design notes: only the step that makes a call has a script before it, of one call, so that step is
described by a machine of its own (`Ready`), with the calls there that `Call.IsBare` allows.
-/
import LazyEngine.Proofs.Provider.Moves

namespace LazyEngine

/-- Whether nobody makes a call on account of the frame. -/
def Frame.IsBare : Frame → Prop
  | script _ calls | pushing (.job calls) _ | pushing (.closure calls _) _ => calls = []
  | telling listeners _ => ∀ x ∈ listeners, x.2.script = []
  | _ => True

def Task.IsBare : Task → Prop
  | startup => True
  | job calls | reply _ _ _ calls => calls = []

namespace Machine

variable {σ E : Type} {m m' n : Machine σ E} {t : ThreadId} {call : Call}

/-- Nobody has a call to make. -/
structure Bare (m : Machine σ E) : Prop where
  frames : ∀ u, ∀ f ∈ m.stack u, f.IsBare
  tasks : ∀ task ∈ m.dispatcher.tasks, task.IsBare
  registrants : ∀ entry ∈ m.coordinator.registrants.entries, entry.2.script = []

/-- Nobody has a call to make, except that code on a thread may have one before it. -/
structure Ready (m : Machine σ E) (t : ThreadId) : Prop where
  others : ∀ u, u ≠ t → ∀ f ∈ m.stack u, f.IsBare
  below : ∀ f ∈ (m.stack t).tail, f.IsBare
  own : ∀ f below, m.stack t = f :: below →
    f.IsBare ∨ ∃ call, f = .script .caller [call] ∧ call.IsBare
  tasks : ∀ task ∈ m.dispatcher.tasks, task.IsBare
  registrants : ∀ entry ∈ m.coordinator.registrants.entries, entry.2.script = []

theorem Bare.ready (h : Bare m) (t : ThreadId) : Ready m t where
  others u _ := h.frames u
  below f hf := h.frames t f (List.mem_of_mem_tail hf)
  own f _ hs := .inl (h.frames t f (hs ▸ List.mem_cons_self))
  tasks := h.tasks
  registrants := h.registrants

theorem Bare.ready_poised (h : Bare m) (hfree : m.isFree t = true) (hc : call.IsBare) :
    Ready (m.poised t call) t := by
  have hs := stack_poised (stack_of_isFree hfree).1 call
  refine ⟨fun u hu f hf => ?_, fun f hf => ?_, fun f below hf => ?_, h.tasks, h.registrants⟩
  · rw [hs, if_neg hu] at hf
    exact h.frames u f hf
  · rw [hs, if_pos rfl] at hf
    exact h.frames t f hf
  · rw [hs, if_pos rfl] at hf
    cases hf
    exact .inr ⟨call, rfl, hc⟩

namespace Ready

/-- A script that is before a thread has at most one call. -/
theorem calls_eq_nil (h : Ready m t) {origin : Origin} {c : Call} {calls : List Call}
    {below : List Frame} (hs : m.stack t = .script origin (c :: calls) :: below) :
    origin = .caller ∧ calls = [] ∧ c.IsBare := by
  rcases h.own _ _ hs with hbare | ⟨call, heq, hc⟩
  · cases hbare
  · cases heq
    exact ⟨rfl, rfl, hc⟩

/-- What a step leaves is bare if all that it has put there is. -/
theorem put (h : Ready m t) {f : Frame} {below : List Frame} (pushed kept : List Frame)
    (hs : m.stack t = f :: below) (hn : n.threads = m.threads) (hk : kept <:+ below)
    (hp : ∀ g ∈ pushed, g.IsBare) (htasks : ∀ task ∈ n.dispatcher.tasks, task.IsBare)
    (hreg : ∀ entry ∈ n.coordinator.registrants.entries, entry.2.script = []) :
    Bare (n.withStack t (pushed ++ kept)) := by
  refine ⟨fun u g hg => ?_, htasks, hreg⟩
  rw [stack_withStack_of_threads hn hs] at hg
  split at hg
  · rcases List.mem_append.mp hg with hg | hg
    · exact hp g hg
    · refine h.below g ?_
      rw [hs]
      exact hk.subset hg
  · rename_i hu
    exact h.others u hu g hg

theorem isBare_live (h : Ready m t) (sequel : Sequel) :
    (Frame.telling (queue (m.coordinator.registrants.live m.alive)) sequel).IsBare := by
  intro x hx
  obtain ⟨entry, hentry, rfl⟩ := List.mem_map.mp hx
  exact h.registrants entry (List.mem_filter.mp hentry).1

/-- Tasks that are posted have no calls either. -/
theorem isBare_push (h : Ready m t) {task : Task} (htask : task.IsBare) :
    ∀ x ∈ (m.dispatcher.push task).tasks, x.IsBare := by
  intro x hx
  rw [Dispatcher.tasks_push] at hx
  rcases List.mem_append.mp hx with hx | hx
  · exact h.tasks x hx
  · exact List.mem_singleton.mp hx ▸ htask

/-- Whoever posts for a call posts no calls, and goes on with none. -/
theorem isBare_posts (h : Ready m t) {f : Frame} {below rest : List Frame} {admitted : Bool}
    {posting : Posting} {origin : Origin} (hs : m.stack t = f :: below)
    (hp : Posts m t f admitted posting origin rest) :
    (Frame.pushing posting origin).IsBare ∧ ∀ g ∈ rest, g.IsBare := by
  cases hp with
  | job | closure =>
    obtain ⟨-, rfl, hc⟩ := h.calls_eq_nil hs
    exact ⟨hc, by simp [Frame.IsBare]⟩
  | pushing =>
    rcases h.own _ _ hs with hbare | ⟨_, heq, -⟩
    · exact ⟨hbare, List.forall_mem_nil _⟩
    · cases heq

theorem isBare_requests (h : Ready m t) {f : Frame} {below rest : List Frame} {admitted : Bool}
    {origin : Origin} (hs : m.stack t = f :: below) (hf : Requests f admitted origin rest) :
    ∀ g ∈ rest, g.IsBare := by
  cases hf with
  | call =>
    obtain ⟨-, rfl, -⟩ := h.calls_eq_nil hs
    simp [Frame.IsBare]
  | requesting => exact List.forall_mem_nil _

/-- The end of the loop's thread, whose tasks are dropped. -/
theorem stopLoop (h : Ready m t) {f : Frame} {below : List Frame} (hs : m.stack t = f :: below)
    (hn : n.threads = m.threads) (hd : n.dispatcher = m.dispatcher)
    (hc : n.coordinator = m.coordinator) : Bare (n.stopLoop.withStack t []) := by
  refine h.put (n := n.stopLoop) [] [] hs hn (List.nil_suffix ..) (List.forall_mem_nil _)
    (fun task htask => ?_) (hc ▸ h.registrants)
  have htask' : task ∈ n.dispatcher.stop.tasks := htask
  rw [hd] at htask'
  cases hdisp : m.dispatcher with
  | queue o q =>
    rw [hdisp] at htask'
    exact h.tasks task (hdisp ▸ htask')
  | loop o l =>
    rw [hdisp] at htask'
    cases htask'

/-- A panic drops frames, and tasks if it ends the loop's thread. -/
theorem of_panic (h : Ready m t) {message : String} {below : List Frame}
    (hs : m.stack t = .script .caller [.panic message] :: below) :
    Bare (m.panic t message (.script .caller [] :: below)) := by
  unfold panic
  dsimp only
  split
  · rename_i kept hl
    have hk : kept <:+ below :=
      Frame.suffix_of_unwind (by simpa [Frame.unwind] using hl)
    exact h.put [] kept hs rfl hk (List.forall_mem_nil _) h.tasks h.registrants
  · exact h.stopLoop hs rfl rfl rfl
  · exact h.put [] [] hs rfl (List.nil_suffix ..) (List.forall_mem_nil _) h.tasks h.registrants

/-- What leaves alone all that threads share puts bare frames onto the stack. -/
theorem isBare_aside (h : Ready m t) {f : Frame} {below pushed : List Frame}
    {events : List (Event E)} (hs : m.stack t = f :: below) (ha : Aside m t f pushed events) :
    ∀ g ∈ pushed, g.IsBare := by
  cases ha with
  | catching | inline =>
    obtain ⟨-, rfl, hc⟩ := h.calls_eq_nil hs
    obtain rfl : _ = [] := hc
    simp [Frame.IsBare]
  | pump | pumpLoop | pumpElsewhere | note | join | glanced | missed =>
    obtain ⟨-, rfl, -⟩ := h.calls_eq_nil hs
    simp [Frame.IsBare]
  | underway hf => exact h.isBare_requests hs hf
  | @tell ticket l listeners sequel =>
    have hlisteners : (Frame.telling ((ticket, l) :: listeners) sequel).IsBare := by
      rcases h.own _ _ hs with hbare | ⟨_, heq, -⟩
      · exact hbare
      · cases heq
    intro g hg
    rcases List.mem_cons.mp hg with rfl | hg
    · exact hlisteners _ List.mem_cons_self
    · obtain rfl := List.mem_singleton.mp hg
      exact fun x hx => hlisteners x (List.mem_cons_of_mem _ hx)
  | ended | drained | received | dropped | returned | joinedLoop | guard | late | poisoned | woken
  | spared | skipped | told => simp [Frame.IsBare]

/-- What a frame does leaves nobody with a call to make. -/
theorem acts (h : Ready m t) {f : Frame} {below pushed : List Frame} {events : List (Event E)}
    (hs : m.stack t = f :: below) (ha : Acts m t f pushed events n) :
    Bare (n.after t events (pushed ++ below)) := by
  have put (hp : ∀ g ∈ pushed, g.IsBare) (htasks : ∀ task ∈ n.dispatcher.tasks, task.IsBare)
      (hreg : ∀ entry ∈ n.coordinator.registrants.entries, entry.2.script = []) :
      Bare (n.after t events (pushed ++ below)) :=
    h.put pushed below hs ha.threads (List.suffix_refl _) hp htasks hreg
  -- A step puts on the stack what the frame or a task had, so nothing that makes calls.
  cases ha with
  | aside ha => exact put (h.isBare_aside hs ha) h.tasks h.registrants
  | postRefused hp => exact put (h.isBare_posts hs hp).2 h.tasks h.registrants
  | postLooked hp =>
    obtain ⟨hposting, hrest⟩ := h.isBare_posts hs hp
    exact put (List.forall_mem_cons.mpr ⟨hposting, hrest⟩) h.tasks h.registrants
  | jobAccepted hp =>
    obtain ⟨hposting, hrest⟩ := h.isBare_posts hs hp
    exact put hrest (h.isBare_push hposting) h.registrants
  | closureAccepted hp =>
    obtain ⟨hposting, hrest⟩ := h.isBare_posts hs hp
    exact put (List.forall_mem_cons.mpr ⟨trivial, hrest⟩) (h.isBare_push hposting) h.registrants
  | requestRefused hf => exact put (h.isBare_requests hs hf) h.tasks h.registrants
  | requestLooked hf =>
    exact put (List.forall_mem_cons.mpr ⟨trivial, h.isBare_requests hs hf⟩) h.tasks h.registrants
  | requested hf => exact put (h.isBare_requests hs hf) (h.isBare_push trivial) h.registrants
  | notOwner | refused | looked | joined | sent =>
    exact put (by simp [Frame.IsBare]) h.tasks h.registrants
  | posted => exact put (by simp [Frame.IsBare]) (h.isBare_push trivial) h.registrants
  | started hl =>
    refine put (fun g hg => ?_) h.tasks nofun
    obtain rfl := List.mem_singleton.mp hg
    rw [hl.registrants_eq]
    exact h.isBare_live _
  | failed hl | stuck hl =>
    exact put (List.forall_mem_nil _) h.tasks (hl.registrants_eq.symm ▸ h.registrants)
  | registerLate =>
    obtain ⟨-, rfl, hl⟩ := h.calls_eq_nil hs
    exact put (by simpa [Frame.IsBare, Call.IsBare] using hl) h.tasks h.registrants
  | registerEarly =>
    obtain ⟨-, rfl, hl⟩ := h.calls_eq_nil hs
    refine put (by simp [Frame.IsBare]) h.tasks fun entry hentry => ?_
    rcases List.mem_append.mp hentry with hentry | hentry
    · exact h.registrants entry hentry
    · obtain rfl := List.mem_singleton.mp hentry
      exact hl
  -- Code of a provider takes no registration back.
  | unregister =>
    obtain ⟨-, -, hc⟩ := h.calls_eq_nil hs
    cases hc
  | forget =>
    obtain ⟨-, rfl, -⟩ := h.calls_eq_nil hs
    exact put (by simp [Frame.IsBare]) h.tasks h.registrants
  | @took _ _ task d hf htake =>
    have htasks := Dispatcher.take?_tasks htake
    have htask : task.IsBare := h.tasks task (htasks ▸ List.mem_cons_self)
    refine put (fun g hg => ?_)
      (fun x hx => h.tasks x (htasks ▸ List.mem_cons_of_mem _ hx)) h.registrants
    rcases List.mem_append.mp hg with hg | hg
    · -- what the task has to do
      cases task with
      | startup | job =>
        obtain rfl := List.mem_singleton.mp hg
        exact htask
      | reply =>
        rcases List.mem_cons.mp hg with rfl | hg
        · exact htask
        · obtain rfl := List.mem_singleton.mp hg
          trivial
    · obtain rfl := List.mem_singleton.mp hg
      cases hf <;> trivial
  | close =>
    obtain ⟨-, rfl, -⟩ := h.calls_eq_nil hs
    exact put (by simp [Frame.IsBare]) ((Dispatcher.tasks_close _).symm ▸ h.tasks) h.registrants
  | shutdown =>
    obtain ⟨-, rfl, -⟩ := h.calls_eq_nil hs
    exact put (by simp [Frame.IsBare]) ((Dispatcher.tasks_giveUpSending _).symm ▸ h.tasks)
      h.registrants
  | claimed | unclaimed =>
    exact put (by simp [Frame.IsBare]) ((Dispatcher.tasks_takeHandle _).symm ▸ h.tasks)
      h.registrants

/-- Every step leaves nobody with a call to make. -/
theorem step (h : Ready m t) (hstep : m.step t = some m') : Bare m' := by
  cases stepped_of_step hstep with
  | acted hs ha => exact h.acts hs ha
  | panicked hs =>
    obtain ⟨rfl, rfl, -⟩ := h.calls_eq_nil hs
    exact h.of_panic hs
  | ended hs => exact h.stopLoop hs rfl rfl rfl

end Ready

namespace Bare

theorem goes (h : Bare m) {asked : Option Call}
    (hasked : ∀ call, asked = some call → call.IsBare) (hgoes : Goes m asked m') : Bare m' := by
  cases hgoes with
  | stays => exact h
  | steps hstep => exact (h.ready _).step hstep
  | calls heq hfree hstep => exact (h.ready_poised hfree (hasked _ heq)).step hstep

theorem beside (h : Bare m) (hn : Beside m n) : Bare n :=
  ⟨fun u f hf => h.frames u f (hn.stack u ▸ hf), hn.dispatcher ▸ h.tasks,
    hn.coordinator ▸ h.registrants⟩

end Bare

end Machine

namespace Provider

open Machine

variable {p : Provider}

theorem bare_opening (config : Config) (change : VersionChange)
    (initializer : Initializer Host Engine) (ownership : Ownership) (files : FileSystem) :
    Bare (opening config change initializer ownership files).machine := by
  refine ⟨fun u f hf => ?_, ?_, ?_⟩
  · rcases stack_session ownership (config.starting initializer) { files } u with hnil | ⟨-, -, hs⟩
    · change f ∈ (ownership.session (config.starting initializer) { files }).machine.stack u at hf
      rw [hnil] at hf
      cases hf
    · change f ∈ (ownership.session (config.starting initializer) { files }).machine.stack u at hf
      rw [hs, List.mem_singleton] at hf
      subst hf
      trivial
  · cases ownership <;> nofun
  · cases ownership <;> nofun

/-- No move leaves anybody with a call to make. -/
theorem bare_move (h : Bare p.machine) (x : Move) : Bare (p.move x).machine :=
  (h.beside (p.beside_prepared x)).goes (fun _ => p.isBare_asked x) (p.goes_move x)

end Provider

end LazyEngine
