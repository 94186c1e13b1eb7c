/-
Who hears that the initializer has failed.

The failure is known in one place and heard of in many: by the call that ran the initializer, by
the fatal hook if a posted task ran it, by calls that wait, by calls that come later, and by a
startup task that is still queued.

* `Sound.reports` — a step reports the failure only if it is the step that runs the initializer;
* `Failed` — since that step, nobody has been told of it as new, and every call for the engine has
  been told that startup had failed before;
* `Poisons` — what calls and tasks do then;
* `failure_reported_once` — all of this for every run.

Design notes: a report is an event, so that a call and the hook are counted together. What an error
says is compared as text, because a waiting call must give the same reason as the one that failed.
-/
import LazyEngine.Proofs.Startup.Rejection
import LazyEngine.Proofs.Startup.Notification
import LazyEngine.Proofs.Startup.Waiting

namespace LazyEngine

namespace InitOutcome

/-- What the reason is when there is no engine. -/
theorem verdict_eq_error_iff {E : Type} {o : InitOutcome E} {reason : String} :
    o.verdict = .error reason ↔
      (∃ contexts, o = .failed contexts ∧ reason = ": ".intercalate contexts) ∨
      ∃ payload, o = .panicked payload ∧ reason = "initializer panicked: " ++ payload.message := by
  cases o <;> simp [verdict, eq_comm]

end InitOutcome

theorem Event.reportsFailure_of_isPlain {E : Type} {e : Event E} (h : e.isPlain = true) :
    e.reportsFailure = false := by
  cases e with
  | answered t origin a =>
    have hplain : a.isPlain = true := h
    unfold Answer.isPlain at hplain
    rw [Bool.and_eq_true, Bool.not_eq_true'] at hplain
    exact hplain.2
  | noted | panicked => rfl
  | _ => cases h

namespace Machine

variable {σ E : Type} {m m' : Machine σ E} {t u : ThreadId} {initializer : Initializer σ E}
  {owner : Owner} {claim : Bool} {origin : Origin} {below : List Frame}

/-! ### One report -/

/-- A step reports a failure only if it runs the initializer and the initializer fails. -/
theorem Sound.reports (h : Sound initializer owner m) (ht : Turn m t m') :
    (∃ events, m'.log = events ++ m.log ∧ ∀ e ∈ events, e.reportsFailure = false) ∨
    ∃ f below outcome reason, Decides m t initializer f below outcome m' ∧
      outcome.verdict = .error reason := by
  -- a step that writes one event at most
  have one {n : Machine σ E} (e : Event E) (hlog : n.log = e :: m.log)
      (he : e.reportsFailure = false) :
      (∃ events, n.log = events ++ m.log ∧ ∀ e ∈ events, e.reportsFailure = false) ∨
      ∃ f below outcome reason, Decides m t initializer f below outcome n ∧
        outcome.verdict = .error reason :=
    .inl ⟨[e], hlog, fun e' he' => List.mem_singleton.1 he' ▸ he⟩
  have none {n : Machine σ E} (hlog : n.log = m.log) :
      (∃ events, n.log = events ++ m.log ∧ ∀ e ∈ events, e.reportsFailure = false) ∨
      ∃ f below outcome reason, Decides m t initializer f below outcome n ∧
        outcome.verdict = .error reason :=
    .inl ⟨[], hlog, by simp⟩
  have published (hp : m.coordinator.phase = .started) {v : ThreadId} {o : Origin} :
      (Event.answered v o (.engine m.coordinator.published)).reportsFailure = false := by
    obtain ⟨engine, -, hpub⟩ := h.published_eq hp
    rw [hpub]
    rfl
  have alike {n : Machine σ E} (ha : Alike m n) (stack : List Frame) :
      (∃ events, (n.withStack t stack).log = events ++ m.log ∧
        ∀ e ∈ events, e.reportsFailure = false) ∨
      ∃ f below outcome reason, Decides m t initializer f below outcome (n.withStack t stack) ∧
        outcome.verdict = .error reason := by
    obtain ⟨events, hlog, hplain⟩ := ha.log
    exact .inl ⟨events, hlog, fun e he => Event.reportsFailure_of_isPlain (hplain e he)⟩
  cases ht with
  | quiet hq =>
    obtain ⟨n, stack, ha, rfl⟩ := hq.alike
    exact alike ha stack
  | died _ _ ha => exact alike ha []
  | stuck hu hn => exact absurd hn (h.initializer_ne_none hu)
  | late _ hp => exact one _ rfl (published hp)
  | refused _ _ he =>
    refine one _ rfl ?_
    rcases he with rfl | ⟨r, -, -, rfl⟩
    · rfl
    · cases r <;> rfl
  | @failed f c sequel below f' reason hs hl hu hi hv =>
    obtain rfl := h.initializer_eq hi
    exact .inr ⟨f, below, _, reason, .failed hs hl hu rfl hv, hv⟩
  | woken _ _ hr =>
    refine one _ rfl ?_
    by_cases hp : m.coordinator.phase = .started
    · rw [Coordinator.recheck, if_pos (Phase.isStarted_iff.2 hp)] at hr
      rw [← Option.some.inj hr]
      exact published hp
    · rw [Coordinator.recheck, Coordinator.isStarted_eq_false hp] at hr
      obtain ⟨reason, -, rfl⟩ := Option.map_eq_some_iff.1 hr
      rfl
  | background _ _ hb =>
    refine one _ rfl ?_
    cases hb with
    | underway | posted => rfl
    | @refused r => cases r <;> rfl
  | @told sequel below hs =>
    cases sequel with
    | engine o => exact one _ rfl (published (h.started_of_telling (hs ▸ List.mem_cons_self)))
    | notified => exact one _ rfl rfl
    | finished => exact none rfl
  | glanced | poisoned | started | registerEarly | unregister | tell => exact one _ rfl rfl
  | missed | looked | posted | joined | inspected | spared | skipped | registerLate | took =>
    exact none rfl

/-- What the step writes in which the initializer fails. -/
theorem Decides.reports {f : Frame} {outcome : InitOutcome E} {reason : String}
    (h : Decides m t initializer f below outcome m') (hv : outcome.verdict = .error reason) :
    m.stack t = f :: below ∧ m'.coordinator.failure = some reason ∧
      ((∃ claim origin admitted, f = .entering claim origin admitted ∧
          m'.log
            = .answered t origin (.engine (.error (.init reason))) :: .initialized t :: m.log) ∨
        f = .startup ∧ m'.log = .fatal (.init reason) :: .initialized t :: m.log) := by
  cases h with
  | started => cases hv
  | failed hs hl _ _ hv' =>
    obtain rfl : _ = reason := Except.error.inj (hv'.symm.trans hv)
    refine ⟨hs, rfl, ?_⟩
    cases hl with
    | inline => exact .inl ⟨_, _, _, rfl, rfl⟩
    | posted => exact .inr ⟨rfl, rfl⟩

/-- All reports of the failure, newest first. -/
def reports (m : Machine σ E) : List (Event E) :=
  m.log.filter Event.reportsFailure

/-- Events that are no reports change nothing about what has been reported. -/
theorem reports_of_log {events : List (Event E)} (hlog : m'.log = events ++ m.log)
    (he : ∀ e ∈ events, e.reportsFailure = false) : m'.reports = m.reports := by
  have hnone : events.filter Event.reportsFailure = [] := by
    rw [List.filter_eq_nil_iff]
    intro e hmem
    rw [he e hmem]
    exact nofun
  rw [reports, hlog, List.filter_append, hnone, List.nil_append, reports]

/-- Without a failure there is nothing to report. -/
theorem unreported_run (s : Setup σ E) (schedule : List ThreadId) :
    (s.machine.run schedule).coordinator.failure = none →
      (s.machine.run schedule).reports = [] := by
  refine run_invariant s (P := fun m => m.coordinator.failure = none → m.reports = [])
    (fun _ => rfl) ?_ schedule
  intro m t m' h ht hquiet hf'
  have hf : m.coordinator.failure = none := by
    cases hf : m.coordinator.failure with
    | none => rfl
    | some reason => exact absurd (((h.change ht).failure_mono hf).symm.trans hf') nofun
  rcases h.reports ht with ⟨events, hlog, hevents⟩ | ⟨f, below, outcome, reason, hd, hv⟩
  · rw [reports_of_log hlog hevents]
    exact hquiet hf
  · obtain ⟨-, hsome, -⟩ := hd.reports hv
    exact absurd (hsome.symm.trans hf') nofun

/-! ### After the failure -/

theorem Sound.inStage_of_failure (h : Sound initializer owner m) {reason : String}
    (hf : m.coordinator.failure = some reason) :
    m.coordinator.InStage initializer owner .failed := by
  obtain ⟨stage, hs⟩ := h.stage
  cases stage with
  | failed => exact hs
  | untouched => exact absurd (hf.symm.trans hs.2.2.2) nofun
  | requested => exact absurd (hf.symm.trans hs.2.2.2.2) nofun
  | running => exact absurd (hf.symm.trans hs.2.2.2.1) nofun

/-- Startup has failed before, and since then calls have been told just that. -/
structure Failed (reason : String) (before m : Machine σ E) : Prop where
  failure : m.coordinator.failure = some reason
  news : ∃ news, m.log = news ++ before.log ∧ (∀ e ∈ news, e.reportsFailure = false) ∧
    ∀ u origin result, .answered u origin (.engine result) ∈ news →
      result = .error (.poisoned reason)

theorem Report.eq_poisoned {result : Except StartupError E} {reason : String}
    (hr : Report m m' result) (h : Sound initializer owner m)
    (hf : m.coordinator.failure = some reason) : result = .error (.poisoned reason) := by
  have hundecided : ¬ m.coordinator.Undecided := fun hu => absurd (hf.symm.trans hu.2) nofun
  cases hr with
  | engine hp =>
    have hphase := (h.inStage_of_failure hf).1
    exact absurd (hphase.symm.trans hp) nofun
  | poisoned _ hf' =>
    obtain rfl := Option.some.inj (hf.symm.trans hf')
    rfl
  | init hu | notOwner hu | dispatch hu => exact absurd hu hundecided

theorem Failed.step {reason : String} {before : Machine σ E} (hd : Failed reason before m)
    (h : Sound initializer owner m) (ht : Turn m t m') : Failed reason before m' := by
  obtain ⟨news, hnews, hquiet, hpoisoned⟩ := hd.news
  obtain ⟨events, hlog, hreport, -⟩ := h.logged ht
  have hevents : ∀ e ∈ events, e.reportsFailure = false := by
    rcases h.reports ht with ⟨events', hlog', hevents⟩ | ⟨_, _, _, _, hdecides, -⟩
    · rw [hlog] at hlog'
      rw [List.append_cancel_right hlog']
      exact hevents
    · -- the initializer does not run again
      exact absurd (hd.failure.symm.trans hdecides.undecided.2) nofun
  refine ⟨(h.change ht).failure_mono hd.failure, events ++ news, ?_, ?_, ?_⟩
  · rw [hlog, hnews, List.append_assoc]
  · intro e he
    rcases List.mem_append.1 he with he | he
    · exact hevents e he
    · exact hquiet e he
  · intro u origin result he
    rcases List.mem_append.1 he with he | he
    · exact (hreport u origin result he).eq_poisoned h hd.failure
    · exact hpoisoned u origin result he

/-- Only a call that finds startup undecided goes to sleep. -/
theorem Turn.sleepers (h : Turn m t m')
    (hi : m.coordinator.Undecided → m.coordinator.initializer ≠ none) :
    m'.sleepers = [] ∨ m'.sleepers = m.sleepers ∨ m.coordinator.Undecided := by
  cases h with
  | quiet hq =>
    obtain ⟨n, stack, ha, rfl⟩ := hq.alike
    exact .inr (.inl ha.sleepers)
  | died _ _ ha => exact .inr (.inl ha.sleepers)
  | stuck hu hn => exact absurd hn (hi hu)
  | posted _ hu | joined _ hu => exact .inr (.inr hu)
  | started | failed => exact .inl rfl
  | _ => exact .inr (.inl rfl)

/-- Nobody sleeps on once startup is decided. -/
theorem undecided_of_sleepers (s : Setup σ E) (schedule : List ThreadId) :
    (s.machine.run schedule).sleepers ≠ [] →
      (s.machine.run schedule).coordinator.Undecided := by
  refine run_invariant s (P := fun m => m.sleepers ≠ [] → m.coordinator.Undecided)
    (fun hne => absurd rfl hne) ?_ schedule
  intro m t m' h ht hasleep hne
  rcases h.decides ht with ⟨f, below, outcome, hd⟩ | hsuspended
  · exfalso
    cases hd with
    | started | failed => exact hne rfl
  · rw [hsuspended.undecided_iff]
    rcases ht.sleepers h.initializer_ne_none with hnil | hsame | hu
    · exact absurd hnil hne
    · exact hasleep (hsame ▸ hne)
    · exact hu

/-- What calls and tasks do after a failure: calls return at once, in or after their section, and a
startup task goes away. -/
structure Poisons (m : Machine σ E) (reason : String) : Prop where
  waiting : ∀ u origin below, m.stack u = .awaitingStartup origin :: below →
    m.step u = some
      ((m.answer u origin (.engine (.error (.poisoned reason)))).withStack u below)
  entering : ∀ u claim origin admitted below, m.stack u = .entering claim origin admitted :: below →
    m.step u = some
      ((m.answer u origin (.engine (.error (.poisoned reason)))).withStack u below)
  made : ∀ u origin claimed calls below,
    m.stack u = .script origin (.ensureStarted claimed :: calls) :: below →
    (m.run [u, u]).log = .answered u origin (.engine (.error (.poisoned reason))) :: m.log ∧
      (m.run [u, u]).stack u = .script origin calls :: below
  task : ∀ u below, m.stack u = .startup :: below → m.step u = some (m.withStack u below)

theorem Sound.poisons (h : Sound initializer owner m) {reason : String}
    (hf : m.coordinator.failure = some reason)
    (hasleep : m.sleepers ≠ [] → m.coordinator.Undecided) : Poisons m reason := by
  obtain ⟨hphase, -, hengine, -⟩ := h.inStage_of_failure hf
  have hp : m.coordinator.phase ≠ .started := by
    rw [hphase]
    exact nofun
  refine ⟨?_, ?_, ?_, ?_⟩
  · intro u origin below hs
    refine step_awaiting hs (fun hmem => ?_) ?_
    · have hu := hasleep (List.ne_nil_of_mem hmem)
      exact absurd (hf.symm.trans hu.2) nofun
    · rw [Coordinator.recheck, Coordinator.isStarted_eq_false hp, hf]
      rfl
  · intro u claim origin admitted below hs
    exact step_of_acts hs (.aside (.poisoned hp hf))
  · intro u origin claimed calls below hs
    -- the first step finds no engine, the second one is the section
    have hfirst := step_of_acts hs (.aside (.missed hengine))
    have hstack : (m.after u [] ([.entering (claimed.asserted (m.dispatcher.owner.isCurrent u))
        origin false, .script origin calls] ++ below)).stack u = _ :=
      stack_withStack_self rfl hs _
    have hsecond := step_of_acts hstack (.aside (.poisoned hp hf))
    rw [run_cons_of_step hfirst, run_cons_of_step hsecond]
    exact ⟨rfl, stack_withStack_self rfl hstack _⟩
  · intro u below hs
    exact step_of_acts hs (.aside (.skipped hp hf))

/-! ### Registrations stay -/

/-- A registration leaves the registry only when it is taken back, as long as there is no engine. -/
theorem Sound.entry_kept (h : Sound initializer owner m) (hstep : m.step t = some m')
    (hp' : m'.coordinator.phase ≠ .started) {entry : RegistrationId × Listener}
    (hmem : entry ∈ m.coordinator.registrants.entries) :
    entry ∈ m'.coordinator.registrants.entries ∨ m.TakesBack t entry.1 := by
  have ht := turn_of_step hstep
  -- Apart from the three steps that touch the registry, all leave its entries as they are.
  cases ht with
  | quiet hq =>
    obtain ⟨n, stack, ha, rfl⟩ := hq.alike
    have hc : (n.withStack t stack).coordinator = m.coordinator := ha.coordinator
    exact .inl (hc ▸ hmem)
  | @died _ _ _ _ n _ _ ha =>
    have hc : (n.withStack t []).coordinator = m.coordinator := ha.coordinator
    exact .inl (hc ▸ hmem)
  | stuck hu hn => exact absurd hn (h.initializer_ne_none hu)
  | started => exact absurd rfl hp'
  | failed _ hl => exact .inl (hl.registrants_eq ▸ hmem)
  | background _ _ hb => cases hb <;> exact .inl hmem
  | registerEarly => exact .inl (List.mem_append_left _ hmem)
  | @unregister origin id calls below hs =>
    cases hknows : m.coordinator.registrants.knows id with
    | false =>
      left
      show entry ∈ (m.coordinator.unregister id).2.registrants.entries
      rw [Coordinator.unregister, hknows]
      exact hmem
    | true =>
      -- The number of the entry is the one taken back, or the entry stays.
      by_cases hid : entry.1 = id
      · right
        subst hid
        have hcontains : m.coordinator.registrants.contains entry.1 = true :=
          List.any_eq_true.2 ⟨entry, hmem, beq_self_eq_true _⟩
        have hfound : (m.coordinator.unregister entry.1).1 = some true := by
          rw [Coordinator.unregister, hknows, if_pos rfl, hcontains]
        refine ⟨origin, calls, below, _, hs, step_unregister hs, ?_⟩
        rw [hfound]
        rfl
      · left
        show entry ∈ (m.coordinator.unregister id).2.registrants.entries
        rw [Coordinator.unregister, hknows]
        exact List.mem_filter.2 ⟨hmem, by simpa using hid⟩
  | _ => exact .inl hmem

/-- Registrations that wait when startup fails go on waiting until they are taken back. -/
theorem entry_kept_run (s : Setup σ E) {before after : List ThreadId}
    {entry : RegistrationId × Listener}
    (hmem : entry ∈ (s.machine.run before).coordinator.registrants.entries)
    (hp : ∀ part, part <+: after →
      (s.machine.run (before ++ part)).coordinator.phase ≠ .started) :
    entry ∈ (s.machine.run (before ++ after)).coordinator.registrants.entries ∨
      ∃ part u rest, after = part ++ u :: rest ∧
        (s.machine.run (before ++ part)).TakesBack u entry.1 := by
  by_cases hend : entry ∈ (s.machine.run (before ++ after)).coordinator.registrants.entries
  · exact .inl hend
  · right
    rw [run_append] at hend
    -- some step takes it out of the registry
    obtain ⟨part, u, rest, m', rfl, hin, hstep, hout⟩ :=
      run_crossing (P := fun m => entry ∉ m.coordinator.registrants.entries)
        (fun hnot => hnot hmem) hend
    rw [← run_append] at hin hstep
    have hnext : s.machine.run (before ++ (part ++ [u])) = m' := by
      rw [← List.append_assoc]
      exact run_of_step hstep []
    have hp' : m'.coordinator.phase ≠ .started := by
      rw [← hnext]
      exact hp (part ++ [u]) ⟨rest, by simp⟩
    refine ⟨part, u, rest, rfl, ?_⟩
    rcases (sound_run s (before ++ part)).entry_kept hstep hp' (not_not.1 hin) with hkept | htakes
    · exact absurd hkept hout
    · exact htakes

/-! ### All of it -/

/-- The step after `before` runs the initializer, which fails for a reason. -/
structure Fails (s : Setup σ E) (before : List ThreadId) (t : ThreadId) (reason : String) :
    Prop where
  invokes : ∃ outcome, (s.machine.run before).Invokes t s.initializer outcome ∧
    ((∃ contexts, outcome = .failed contexts ∧ reason = ": ".intercalate contexts) ∨
      ∃ payload, outcome = .panicked payload ∧
        reason = "initializer panicked: " ++ payload.message)

/-- The failure and the machine after the step. -/
theorem Fails.decides {s : Setup σ E} {before : List ThreadId} {reason : String}
    (h : Fails s before t reason) :
    ∃ f below outcome m', (s.machine.run before).step t = some m' ∧
      Decides (s.machine.run before) t s.initializer f below outcome m' ∧
      outcome.verdict = .error reason := by
  obtain ⟨outcome, hinvokes, hreason⟩ := h.invokes
  obtain ⟨f, below, m', hstep, hd⟩ := (sound_run s before).decides_of_invokes hinvokes
  exact ⟨f, below, outcome, m', hstep, hd, InitOutcome.verdict_eq_error_iff.2 hreason⟩

/-- Since the step that failed, startup has failed. -/
theorem Fails.failed_run {s : Setup σ E} {before : List ThreadId} {reason : String}
    (h : Fails s before t reason) (after : List ThreadId) :
    Failed reason (s.machine.run (before ++ [t])) (s.machine.run (before ++ t :: after)) := by
  obtain ⟨f, below, outcome, m', hstep, hd, hv⟩ := h.decides
  have hsound := (sound_run s before).step (turn_of_step hstep)
  have hnext : s.machine.run (before ++ [t]) = m' := run_of_step hstep []
  rw [run_of_step hstep after, hnext]
  refine sound_invariant (P := Failed reason m') hsound ?_ (fun _ _ _ h ht hf => hf.step h ht) after
  exact ⟨(hd.reports hv).2.1, [], rfl, by simp, by simp⟩

/-- A failure is there because some step of the owner thread has run the initializer. -/
theorem fails_of_failure (s : Setup σ E) {schedule : List ThreadId} {reason : String}
    (hf : (s.machine.run schedule).coordinator.failure = some reason) :
    ∃ before after, schedule = before ++ s.owner.thread :: after ∧
      Fails s before s.owner.thread reason := by
  have hstart : ¬ s.machine.coordinator.failure = some reason := nofun
  obtain ⟨before, t, after, m', rfl, hnot, hstep, hf'⟩ :=
    run_crossing (P := fun m => m.coordinator.failure = some reason) hstart hf
  have hsound := sound_run s before
  rcases hsound.decides (turn_of_step hstep) with ⟨f, below, outcome, hd⟩ | hsuspended
  · obtain rfl := hd.eq_owner hsound
    have hinvokes := hd.invokes hstep
    refine ⟨before, after, rfl, outcome, hinvokes, InitOutcome.verdict_eq_error_iff.1 ?_⟩
    cases hd with
    | @started c sequel below engine _ hl hu =>
      -- a success leaves no failure
      have hnone : (c.succeeded engine).failure = none := by
        cases hl <;> exact hu.2
      exact absurd (hnone.symm.trans hf') nofun
    | failed _ _ _ _ hv =>
      obtain rfl := Option.some.inj hf'
      exact hv
  · exact absurd (hsuspended.failure.symm.trans hf') hnot

/-- The one report of a failure: by the call that ran the initializer, or to the fatal hook. -/
theorem Fails.reports_eq {s : Setup σ E} {before : List ThreadId} {reason : String}
    (h : Fails s before t reason) (after : List ThreadId) :
    ∃ f below, (s.machine.run before).stack t = f :: below ∧
      ((∃ claim origin admitted, f = .entering claim origin admitted ∧
          (s.machine.run (before ++ t :: after)).reports
            = [.answered t origin (.engine (.error (.init reason)))]) ∨
        f = .startup ∧
          (s.machine.run (before ++ t :: after)).reports = [.fatal (.init reason)]) := by
  obtain ⟨news, hlog, hquiet, -⟩ := (h.failed_run after).news
  have hsame := reports_of_log hlog hquiet
  obtain ⟨f, below, outcome, m', hstep, hd, hv⟩ := h.decides
  have hnext : s.machine.run (before ++ [t]) = m' := run_of_step hstep []
  have hnone : (s.machine.run before).reports = [] :=
    unreported_run s before hd.undecided.2
  obtain ⟨hs, -, ⟨claim, origin, admitted, hf, hlog'⟩ | ⟨hf, hlog'⟩⟩ := hd.reports hv
  · refine ⟨f, below, hs, .inl ⟨claim, origin, admitted, hf, ?_⟩⟩
    rw [hsame, hnext, reports, hlog']
    show _ :: (s.machine.run before).reports = _
    rw [hnone]
  · refine ⟨f, below, hs, .inr ⟨hf, ?_⟩⟩
    rw [hsame, hnext, reports, hlog']
    show _ :: (s.machine.run before).reports = _
    rw [hnone]

/-- **A failure is reported once and known everywhere.** In every run:

* unless the initializer has failed, nobody is told that it has, and the fatal hook is not called;
* a recorded failure is that of one step of the owner thread that ran the initializer, and its text
  is the contexts of the error, outermost first, or the message of the panic.

And from such a step on:

* there is exactly one report, by the call that ran the initializer, if it was a call, and to the
  fatal hook, if it was a startup task;
* the failure is recorded with that text, the phase remains `starting` and there is no engine;
* every other call that returns has been told that text, as an earlier failure, and every call that
  waits, is in its section or is made now is told so at once; a startup task does nothing;
* no listener has been told, and registrations stay queued until they are taken back. -/
theorem failure_reported_once (s : Setup σ E) (schedule : List ThreadId) :
    let m := s.machine.run schedule
    (m.coordinator.failure = none → m.reports = []) ∧
    (∀ reason, m.coordinator.failure = some reason →
      ∃ before after, schedule = before ++ s.owner.thread :: after ∧
        Fails s before s.owner.thread reason) ∧
    ∀ before t after reason, schedule = before ++ t :: after → Fails s before t reason →
      t = s.owner.thread ∧
      (∃ f below, (s.machine.run before).stack t = f :: below ∧
        ((∃ claim origin admitted, f = .entering claim origin admitted ∧
            m.reports = [.answered t origin (.engine (.error (.init reason)))]) ∨
          f = .startup ∧ m.reports = [.fatal (.init reason)])) ∧
      m.coordinator.failure = some reason ∧ m.coordinator.phase = .starting ∧
      m.coordinator.engine = none ∧
      Failed reason (s.machine.run (before ++ [t])) m ∧ Poisons m reason ∧
      m.deliveries = [] ∧
      ∀ entry ∈ (s.machine.run before).coordinator.registrants.entries,
        entry ∈ m.coordinator.registrants.entries ∨
          ∃ part u rest, t :: after = part ++ u :: rest ∧
            (s.machine.run (before ++ part)).TakesBack u entry.1 := by
  intro m
  have hsound : Sound s.initializer s.owner m := sound_run s schedule
  refine ⟨unreported_run s schedule, fun reason hf => fails_of_failure s hf, ?_⟩
  rintro before t after reason rfl hfails
  have hfailed : Failed reason (s.machine.run (before ++ [t])) m := hfails.failed_run after
  obtain ⟨hphase, -, hengine, -⟩ := hsound.inStage_of_failure hfailed.failure
  obtain ⟨f, below, outcome, m', hstep, hd, hv⟩ := hfails.decides
  have ht : t = s.owner.thread := hd.eq_owner (sound_run s before)
  -- the phase is not `started` at any moment from the failing step on, nor just before it
  have hnever : ∀ part, part <+: t :: after →
      (s.machine.run (before ++ part)).coordinator.phase ≠ .started := by
    intro part hpart
    cases part with
    | nil =>
      rw [List.append_nil]
      exact hd.undecided.1
    | cons u part =>
      obtain ⟨rfl, -⟩ := List.cons_prefix_cons.1 hpart
      have hpart := (sound_run s _).inStage_of_failure (hfails.failed_run part).failure
      rw [hpart.1]
      exact nofun
  refine ⟨ht, hfails.reports_eq after, hfailed.failure, hphase, hengine, hfailed,
    hsound.poisons hfailed.failure (undecided_of_sleepers s _), ?_, ?_⟩
  · refine deliveries_eq_nil s ?_
    exact hnever (t :: after) (List.prefix_refl _)
  · intro entry hmem
    exact entry_kept_run s hmem hnever

/-- A call on the owner thread fails while startup is queued, another thread waits, and the task
comes late. -/
def failsInline : Setup Unit Nat where
  initializer host := (.failed ["starting", "no memory"], host)
  host := ()
  owner := ⟨0, none⟩
  scripts := [[.ensureStarted .owner, .pump], [.ensureStarted .none]]

theorem failure_reported_inline :
    let before := [1, 1, 1, 0]
    let m := failsInline.machine.run (before ++ 0 :: [1, 0, 0, 0, 0])
    Fails failsInline before 0 "starting: no memory" ∧ m.reports.length = 1 ∧
      Poisons m "starting: no memory" ∧
      m.threads = [[.script .caller []], [.script .caller []]] := by
  intro before m
  have hsound : Sound failsInline.initializer failsInline.owner (failsInline.machine.run before) :=
    sound_run failsInline before
  have hstack : (failsInline.machine.run before).stack 0
      = [.entering true .caller false, .script .caller [.pump]] := by cbv
  have hundecided : (failsInline.machine.run before).coordinator.Undecided :=
    ⟨by decide +kernel, by cbv⟩
  -- The owner thread is in the section of its call, and the initializer fails there.
  have hfails : Fails failsInline before 0 "starting: no memory" := by
    obtain ⟨outcome, m', hstep, hd⟩ :=
      hsound.decides_of_launch hundecided hstack (.inline (by decide +kernel))
    have houtcome : .failed ["starting", "no memory"] = outcome := hd.outcome_eq
    refine ⟨outcome, hd.invokes hstep, .inl ⟨_, houtcome.symm, ?_⟩⟩
    decide +kernel
  have hthreads : (failsInline.machine.run [1, 1, 1, 0, 0, 1, 0, 0, 0, 0]).threads
      = [[.script .caller []], [.script .caller []]] := by cbv
  have h := failure_reported_once failsInline (before ++ 0 :: [1, 0, 0, 0, 0])
  obtain ⟨-, ⟨f, below, -, hreports⟩, -, -, -, -, hpoisons, -⟩ :=
    h.2.2 before 0 [1, 0, 0, 0, 0] "starting: no memory" rfl hfails
  refine ⟨hfails, ?_, hpoisons, hthreads⟩
  rcases hreports with ⟨claim, origin, admitted, -, hreports⟩ | ⟨-, hreports⟩
  · rw [hreports, List.length_singleton]
  · rw [hreports, List.length_singleton]

end Machine

end LazyEngine
