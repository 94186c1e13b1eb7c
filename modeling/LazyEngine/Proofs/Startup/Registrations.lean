/-
Registrations over whole histories.

A `Roster` is a registry together with the strong references that others hold to listeners. It goes
through any history of registering, taking back, draining, copying references and dropping them.

* `Roster.made`, `Roster.waiting`, `Roster.delivered` — the registrations of a history, those that
  are neither taken back nor drained, and those that a drain has handed over;
* `Roster.Accounted`, `Accounted.perform` — what every deed keeps;
* **`Roster.registrations_accounted`** — numbers, answers, drains and counts along every history.

Design notes: a listener lives as long as somebody has a strong reference to it, and a drain makes
new ones. Registering makes none, so the registry does not appear in the balance of references. What
a history says is said without the registry: `waiting` looks at the events since the last drain.
-/
import LazyEngine.Startup.Registry
import Mathlib.Data.List.DropRight
import Mathlib.Data.List.Range

namespace LazyEngine

namespace Registry

variable {L : Type}

theorem contains_iff {r : Registry L} {id : RegistrationId} :
    r.contains id = true ↔ ∃ listener, (id, listener) ∈ r.entries := by
  simp [contains]

/-- Taking back what is not queued changes nothing. -/
theorem entries_remove_of_not_contains {r : Registry L} {id : RegistrationId}
    (h : r.contains id = false) : (r.remove id).entries = r.entries := by
  rw [remove, List.filter_eq_self]
  intro entry hentry
  have hnone : entry.1 ≠ id := by
    rintro rfl
    rw [Bool.eq_false_iff] at h
    exact h (contains_iff.mpr ⟨entry.2, hentry⟩)
  simpa using hnone

end Registry

/-- A registry, and the strong references that others hold to listeners, each as often as it is
held. -/
structure Roster (L : Type) where
  registry : Registry L := {}
  references : List L

namespace Roster

variable {L : Type} [DecidableEq L]

/-- What is done with a registry, and with references to listeners. -/
inductive Deed (L : Type) where
  | push (listener : L)
  | remove (id : RegistrationId)
  | drain
  /-- Somebody who has a strong reference makes another one. -/
  | copy (listener : L)
  /-- Somebody who has a strong reference drops it. -/
  | drop (listener : L)

/-- What comes of a deed. -/
inductive Outcome (L : Type) where
  | pushed (id : RegistrationId)
  | removed (found : Bool)
  | drained (listeners : List (RegistrationId × L))
  /-- Whether there was a reference to copy, or to drop. -/
  | held (had : Bool)
deriving DecidableEq

/-- A deed with what came of it. -/
abbrev Event (L : Type) := Deed L × Outcome L

def alive (r : Roster L) (listener : L) : Bool :=
  r.references.contains listener

def perform (r : Roster L) : Deed L → Outcome L × Roster L
  | .push l => (.pushed (r.registry.push l).issued, { r with registry := r.registry.push l })
  | .remove id =>
    (.removed (r.registry.contains id), { r with registry := r.registry.remove id })
  | .drain =>
    let listeners := r.registry.live r.alive
    (.drained listeners,
      { registry := r.registry.emptied, references := listeners.map (·.2) ++ r.references })
  | .copy l =>
    (.held (r.alive l),
      { r with references := if r.alive l then l :: r.references else r.references })
  | .drop l => (.held (r.alive l), { r with references := r.references.erase l })

/-- The roster after a history of deeds. -/
def after (r : Roster L) (deeds : List (Deed L)) : Roster L :=
  deeds.foldl (fun r deed => (r.perform deed).2) r

/-- The events of a history, oldest first. -/
def events (r : Roster L) : List (Deed L) → List (Event L)
  | [] => []
  | deed :: deeds => (deed, (r.perform deed).1) :: (r.perform deed).2.events deeds

theorem after_append (r : Roster L) (deeds more : List (Deed L)) :
    r.after (deeds ++ more) = (r.after deeds).after more :=
  List.foldl_append

theorem events_append (r : Roster L) (deeds more : List (Deed L)) :
    r.events (deeds ++ more) = r.events deeds ++ (r.after deeds).events more := by
  induction deeds generalizing r with
  | nil => rfl
  | cons deed deeds ih =>
    rw [List.cons_append, events, events, ih]
    rfl

theorem events_concat (r : Roster L) (deeds : List (Deed L)) (deed : Deed L) :
    r.events (deeds ++ [deed])
      = r.events deeds ++ [(deed, ((r.after deeds).perform deed).1)] :=
  events_append r deeds [deed]

theorem after_concat (r : Roster L) (deeds : List (Deed L)) (deed : Deed L) :
    r.after (deeds ++ [deed]) = ((r.after deeds).perform deed).2 :=
  after_append r deeds [deed]

/-! ### What a history says -/

section
omit [DecidableEq L]

/-- The registration that an event makes. -/
def made? : Event L → Option (RegistrationId × L)
  | (.push l, .pushed id) => some (id, l)
  | _ => none

/-- The registrations that have been made, oldest first. -/
def made (events : List (Event L)) : List (RegistrationId × L) :=
  events.filterMap made?

def isDrain : Event L → Bool
  | (.drain, _) => true
  | _ => false

/-- Whether the event takes the registration back. -/
def takesBack (id : RegistrationId) : Event L → Bool
  | (.remove id', .removed true) => id' == id
  | _ => false

/-- The listeners that a history registers, oldest first. -/
def pushes (deeds : List (Deed L)) : List L :=
  deeds.filterMap fun
    | .push l => some l
    | _ => none

/-- What has happened since the last drain. -/
def sinceDrain (events : List (Event L)) : List (Event L) :=
  events.rtakeWhile fun e => !isDrain e

/-- The registrations that have been made since the last drain and have not been taken back. -/
def waiting (events : List (Event L)) : List (RegistrationId × L) :=
  (made (sinceDrain events)).filter fun r => !(sinceDrain events).any (takesBack r.1)

/-- What drains have handed over, oldest first. -/
def delivered (events : List (Event L)) : List (RegistrationId × L) :=
  events.flatMap fun
    | (_, .drained listeners) => listeners
    | _ => []

end

/-- How often references to a listener have been copied. -/
def copies (events : List (Event L)) (l : L) : Nat :=
  events.countP fun
    | (.copy l', .held true) => l' == l
    | _ => false

/-- How often references to a listener have been dropped. -/
def drops (events : List (Event L)) (l : L) : Nat :=
  events.countP fun
    | (.drop l', .held true) => l' == l
    | _ => false

/-! ### One more event -/

section
omit [DecidableEq L]

variable {seen : List (Event L)} {e : Event L}

theorem made_concat (seen : List (Event L)) (e : Event L) :
    made (seen ++ [e]) = made seen ++ (made? e).toList := by
  rw [made, made, List.filterMap_append]
  cases h : made? e <;> simp [h]

theorem delivered_append (seen more : List (Event L)) :
    delivered (seen ++ more) = delivered seen ++ delivered more :=
  List.flatMap_append

theorem sinceDrain_concat (h : isDrain e = false) :
    sinceDrain (seen ++ [e]) = sinceDrain seen ++ [e] :=
  List.rtakeWhile_concat_pos _ _ _ (by simp [h])

/-- A drain leaves nobody waiting. -/
theorem waiting_drain (h : isDrain e = true) : waiting (seen ++ [e]) = [] := by
  have hnone : sinceDrain (seen ++ [e]) = [] :=
    List.rtakeWhile_concat_neg _ _ _ (by simp [h])
  rw [waiting, hnone]
  rfl

theorem waiting_concat (h : isDrain e = false) :
    waiting (seen ++ [e]) = (waiting seen ++ (made? e).toList.filter fun r =>
      !(sinceDrain seen).any (takesBack r.1)).filter fun r => !takesBack r.1 e := by
  rw [waiting, waiting, sinceDrain_concat h, made_concat, ← List.filter_append, List.filter_filter]
  refine List.filter_congr fun r _ => ?_
  rw [List.any_append, List.any_cons, List.any_nil, Bool.or_false, Bool.not_or, Bool.and_comm]

/-- Events that neither make registrations nor end any. -/
theorem waiting_idle (h : isDrain e = false) (hmade : made? e = none)
    (hback : ∀ id, takesBack id e = false) : waiting (seen ++ [e]) = waiting seen := by
  rw [waiting_concat h, hmade]
  simp [hback]

theorem any_of_sinceDrain {p : Event L → Bool} (h : (sinceDrain seen).any p = true) :
    seen.any p = true := by
  obtain ⟨e, he, hp⟩ := List.any_eq_true.mp h
  exact List.any_eq_true.mpr ⟨e, (List.rtakeWhile_suffix _ _).subset he, hp⟩

theorem any_takesBack_iff {id : RegistrationId} :
    seen.any (takesBack id) = true ↔ (.remove id, .removed true) ∈ seen := by
  rw [List.any_eq_true]
  constructor
  · rintro ⟨⟨deed, outcome⟩, he, h⟩
    unfold takesBack at h
    split at h
    · rename_i heq
      obtain ⟨rfl, rfl⟩ := Prod.mk.inj heq
      obtain rfl := beq_iff_eq.mp h
      exact he
    · cases h
  · exact fun he => ⟨_, he, by simp [takesBack]⟩

theorem any_concat (seen : List (Event L)) (e : Event L) (p : Event L → Bool) :
    (seen ++ [e]).any p = (seen.any p || p e) := by
  rw [List.any_append, List.any_cons, List.any_nil, Bool.or_false]

theorem takesBack_remove (id id' : RegistrationId) (found : Bool) :
    takesBack id' ((.remove id, .removed found) : Event L) = (found && id == id') := by
  cases found <;> rfl

theorem made?_iff {r : RegistrationId × L} : made? e = some r ↔ e = (.push r.2, .pushed r.1) := by
  unfold made?
  split
  · simp [Prod.ext_iff, and_comm]
  · rename_i hne
    refine iff_of_false nofun ?_
    rintro rfl
    exact hne _ _ rfl

theorem sinceDrain_append {later : List (Event L)} (h : ∀ e ∈ later, e.1 ≠ .drain) :
    sinceDrain (seen ++ later) = sinceDrain seen ++ later := by
  induction later using List.reverseRecOn with
  | nil => rw [List.append_nil, List.append_nil]
  | append_singleton later e ih =>
    have he : isDrain e = false := by
      unfold isDrain
      split
      · exact absurd rfl (h _ (List.mem_append_right _ (List.mem_singleton_self _)))
      · rfl
    rw [← List.append_assoc, sinceDrain_concat he, ih fun e' he' => h e' (by simp [he']),
      List.append_assoc]

/-- Whoever waits has been registered, there has been no drain since, and nobody has taken the
registration back. -/
theorem mem_waiting_iff {id : RegistrationId} {l : L}
    (htaken : (id, l) ∈ waiting seen → seen.any (takesBack id) = false) :
    (id, l) ∈ waiting seen ↔ ∃ earlier later, seen = earlier ++ (.push l, .pushed id) :: later ∧
      (∀ e ∈ later, e.1 ≠ .drain) ∧ (.remove id, .removed true) ∉ seen := by
  constructor
  · intro h
    obtain ⟨hmade, -⟩ := List.mem_filter.mp h
    obtain ⟨e, he, hpush⟩ := List.mem_filterMap.mp hmade
    obtain rfl := made?_iff.mp hpush
    -- What has come since the last drain is a part at the end of what has come.
    obtain ⟨before, hbefore⟩ : sinceDrain seen <:+ seen := List.rtakeWhile_suffix _ _
    obtain ⟨between, later, hsince⟩ := List.append_of_mem he
    refine ⟨before ++ between, later, ?_, fun e he => ?_, fun hback => ?_⟩
    · rw [← hbefore, hsince, List.append_assoc]
    · have hmem : e ∈ sinceDrain seen := by simp [hsince, he]
      have hdrain := List.mem_rtakeWhile_imp hmem
      rintro hd
      obtain ⟨deed, outcome⟩ := e
      cases hd
      cases hdrain
    · rw [any_takesBack_iff.mpr hback] at htaken
      cases htaken h
  · rintro ⟨earlier, later, rfl, hlater, hback⟩
    have hsince : sinceDrain (earlier ++ (.push l, .pushed id) :: later)
        = sinceDrain earlier ++ (.push l, .pushed id) :: later := by
      refine sinceDrain_append fun e he => ?_
      rcases List.mem_cons.mp he with rfl | he
      · simp
      · exact hlater e he
    refine List.mem_filter.mpr ⟨?_, ?_⟩
    · rw [hsince]
      exact List.mem_filterMap.mpr
        ⟨_, List.mem_append_right _ List.mem_cons_self, rfl⟩
    · rw [Bool.not_eq_true', Bool.eq_false_iff]
      exact fun hany => hback (any_takesBack_iff.mp (any_of_sinceDrain hany))

end

/-! ### The account -/

/-- A roster after a history that has begun with these references and no registrations. -/
structure Accounted (references : List L) (seen : List (Event L)) (r : Roster L) : Prop where
  numbered : (made seen).map (·.1) = List.range' 1 (made seen).length
  issued : r.registry.issued = (made seen).length
  entries : r.registry.entries = waiting seen
  /-- What has been handed over is not waiting any more. -/
  handed : (delivered seen ++ waiting seen).Sublist (made seen)
  /-- Only what has been registered is taken back, and it is not waiting any more. -/
  known : ∀ id : Nat, seen.any (takesBack id) = true → id ≤ (made seen).length
  taken : ∀ entry ∈ waiting seen, seen.any (takesBack entry.1) = false
  balance : ∀ l, r.references.count l + drops seen l
    = references.count l + copies seen l + (delivered seen).countP (·.2 == l)

namespace Accounted

variable {references : List L} {seen : List (Event L)} {r : Roster L}

theorem start (references : List L) : Accounted references [] { references } where
  numbered := rfl
  issued := rfl
  entries := rfl
  handed := List.nil_sublist _
  known := nofun
  taken := nofun
  balance l := by simp [drops, copies, delivered]

/-- Deeds that concern references only. -/
theorem of_held (h : Accounted references seen r) {deed : Deed L} {had : Bool} {held : List L}
    (hdrain : isDrain (deed, .held had) = false)
    (hbalance : ∀ l, held.count l + drops (seen ++ [(deed, .held had)]) l
      = references.count l + copies (seen ++ [(deed, .held had)]) l
        + (delivered seen).countP (·.2 == l)) :
    Accounted references (seen ++ [(deed, .held had)]) { r with references := held } := by
  -- Nothing but the references changes: every other clause speaks of the same lists as before.
  have hmade : made (seen ++ [(deed, .held had)]) = made seen := by
    rw [made_concat]
    cases deed <;> simp [made?]
  have hback : ∀ id, takesBack id (deed, .held had) = false := fun id => by cases deed <;> rfl
  have hwaiting : waiting (seen ++ [(deed, .held had)]) = waiting seen :=
    waiting_idle hdrain (by cases deed <;> rfl) hback
  have hdelivered : delivered (seen ++ [(deed, .held had)]) = delivered seen := by
    rw [delivered_append]
    simp [delivered]
  refine ⟨?numbered, ?issued, ?entries, ?handed, fun id => ?known, ?taken, ?balance⟩
  case numbered =>
    rw [hmade]
    exact h.numbered
  case issued =>
    rw [hmade]
    exact h.issued
  case entries =>
    rw [hwaiting]
    exact h.entries
  case handed =>
    rw [hmade, hwaiting, hdelivered]
    exact h.handed
  case known =>
    rw [any_concat, hback, Bool.or_false, hmade]
    exact h.known id
  case taken =>
    rw [hwaiting]
    intro entry hentry
    rw [any_concat, hback, Bool.or_false]
    exact h.taken entry hentry
  case balance =>
    rw [hdelivered]
    exact hbalance

/-- What is waiting has a number that has been given out. -/
theorem le_of_mem_waiting (h : Accounted references seen r) {entry : RegistrationId × L}
    (hentry : entry ∈ waiting seen) : entry.1 ≤ (made seen).length := by
  have hmade := h.handed.subset (List.mem_append_right _ hentry)
  have hmem : entry.1 ∈ List.range' 1 (made seen).length :=
    h.numbered ▸ List.mem_map_of_mem hmade
  exact Nat.lt_one_add_iff.mp (List.mem_range'_1.mp hmem).2

/-- A registration gets the next number. -/
theorem push (h : Accounted references seen r) (l : L) :
    Accounted references (seen ++ [(.push l, (r.perform (.push l)).1)])
      (r.perform (.push l)).2 := by
  set id := (made seen).length + 1 with hid
  have houtcome : (r.perform (.push l)).1 = .pushed id := by
    rw [perform, Registry.issued_push, h.issued]
  have hmade : made (seen ++ [(.push l, .pushed id)]) = made seen ++ [(id, l)] :=
    made_concat ..
  have hback : ∀ id', takesBack id' ((.push l, .pushed id) : Event L) = false := fun _ => rfl
  -- Nobody can have taken the new number back: only numbers that were given are known.
  have hnew : seen.any (takesBack id) = false := by
    rw [Bool.eq_false_iff]
    intro hany
    exact Nat.not_succ_le_self _ (h.known id hany)
  have hwaiting : waiting (seen ++ [(.push l, .pushed id)]) = waiting seen ++ [(id, l)] := by
    have hsince : (sinceDrain seen).any (takesBack id) = false := by
      rw [Bool.eq_false_iff] at hnew ⊢
      exact fun hany => hnew (any_of_sinceDrain hany)
    rw [waiting_concat rfl]
    simp [made?, hsince, takesBack]
  have hdelivered : delivered (seen ++ [(.push l, .pushed id)]) = delivered seen := by
    rw [delivered_append]
    simp [delivered]
  rw [houtcome]
  refine ⟨?numbered, ?issued, ?entries, ?handed, fun id' => ?known,
    fun entry hentry => ?taken, fun l' => ?balance⟩
  case numbered =>
    rw [hmade, List.map_append, h.numbered, List.length_append, List.length_singleton,
      List.range'_concat, hid, Nat.one_mul, Nat.add_comm]
    rfl
  case issued =>
    rw [hmade, perform, Registry.issued_push, h.issued, List.length_append]
    rfl
  case entries =>
    rw [hwaiting, perform, Registry.entries_push, h.entries, h.issued]
  case handed =>
    rw [hmade, hwaiting, hdelivered, ← List.append_assoc]
    exact h.handed.append (List.Sublist.refl _)
  case known =>
    rw [any_concat, hback, Bool.or_false, hmade, List.length_append]
    intro hany
    exact Nat.le_succ_of_le (h.known id' hany)
  case taken =>
    rw [any_concat, hback, Bool.or_false]
    rw [hwaiting] at hentry
    rcases List.mem_append.mp hentry with hentry | hentry
    · exact h.taken entry hentry
    · rwa [List.mem_singleton.mp hentry]
  case balance =>
    have hbalance := h.balance l'
    rw [hdelivered]
    simpa [perform, drops, copies] using hbalance

/-- Taking back removes one registration, and says whether it was waiting. -/
theorem remove (h : Accounted references seen r) (id : RegistrationId) :
    Accounted references (seen ++ [(.remove id, (r.perform (.remove id)).1)])
      (r.perform (.remove id)).2 := by
  set found := r.registry.contains id with hfound
  have houtcome : (r.perform (.remove id)).1 = .removed found := rfl
  have hmade : made (seen ++ [(.remove id, .removed found)]) = made seen := by
    rw [made_concat]
    exact List.append_nil _
  have hwaiting : waiting (seen ++ [(.remove id, .removed found)])
      = (waiting seen).filter fun entry => entry.1 != id := by
    -- If the number was waiting it goes, and if it was not the list has nothing to lose.
    have hconcat : waiting (seen ++ [(.remove id, .removed found)])
        = (waiting seen).filter fun entry => !(found && id == entry.1) := by
      rw [waiting_concat rfl]
      simp [made?, takesBack_remove]
    cases hfound' : found with
    | true =>
      rw [← hfound', hconcat, hfound']
      exact List.filter_congr fun entry _ => by rw [Bool.true_and, bne, Bool.beq_comm]
    | false =>
      have hnone := Registry.entries_remove_of_not_contains (hfound.symm.trans hfound')
      rw [← hfound', hconcat, hfound', ← h.entries]
      simpa [Registry.remove] using hnone.symm
  have hdelivered : delivered (seen ++ [(.remove id, .removed found)]) = delivered seen := by
    rw [delivered_append]
    simp [delivered]
  rw [houtcome]
  refine ⟨?numbered, ?issued, ?entries, ?handed, fun id' hany => ?known,
    fun entry hentry => ?taken, fun l' => ?balance⟩
  case numbered =>
    rw [hmade]
    exact h.numbered
  case issued =>
    rw [hmade, perform, Registry.issued_remove, h.issued]
  case entries =>
    rw [hwaiting, ← h.entries]
    rfl
  case handed =>
    rw [hmade, hwaiting, hdelivered]
    exact (List.Sublist.append (List.Sublist.refl _) List.filter_sublist).trans h.handed
  case known =>
    rw [hmade]
    rw [any_concat, Bool.or_eq_true] at hany
    rcases hany with hany | hback
    · exact h.known id' hany
    · -- The number taken back now was waiting, and so has been given.
      rw [takesBack_remove, Bool.and_eq_true, beq_iff_eq] at hback
      obtain ⟨l, hl⟩ := Registry.contains_iff.mp (hfound.symm.trans hback.1)
      rw [← hback.2]
      exact h.le_of_mem_waiting (h.entries ▸ hl)
  case taken =>
    rw [hwaiting] at hentry
    obtain ⟨hentry, hne⟩ := List.mem_filter.mp hentry
    rw [any_concat, h.taken entry hentry, takesBack_remove, Bool.false_or]
    have : id ≠ entry.1 := fun heq => by simp [heq] at hne
    simp [this]
  case balance =>
    have hbalance := h.balance l'
    rw [hdelivered]
    simpa [perform, drops, copies] using hbalance

/-- A drain hands over who is alive, and leaves nobody waiting. -/
theorem drain (h : Accounted references seen r) :
    Accounted references (seen ++ [(.drain, (r.perform .drain).1)]) (r.perform .drain).2 := by
  set live := r.registry.live r.alive with hlive
  have houtcome : (r.perform .drain).1 = .drained live := rfl
  have hmade : made (seen ++ [(.drain, .drained live)]) = made seen := by
    rw [made_concat]
    exact List.append_nil _
  have hwaiting : waiting (seen ++ [(.drain, .drained live)]) = [] := waiting_drain rfl
  have hdelivered : delivered (seen ++ [(.drain, .drained live)]) = delivered seen ++ live := by
    rw [delivered_append]
    simp [delivered]
  -- Those alive are some of those who waited, in their order.
  have hsublist : live.Sublist (waiting seen) := by
    rw [hlive, Registry.live, h.entries]
    exact List.filter_sublist
  rw [houtcome]
  refine ⟨?numbered, ?issued, ?entries, ?handed, fun id hany => ?known,
    fun entry hentry => ?taken, fun l => ?balance⟩
  case numbered =>
    rw [hmade]
    exact h.numbered
  case issued =>
    rw [hmade]
    exact h.issued
  case entries =>
    rw [hwaiting]
    rfl
  case handed =>
    rw [hmade, hwaiting, hdelivered, List.append_nil]
    exact (List.Sublist.append (List.Sublist.refl _) hsublist).trans h.handed
  case known =>
    rw [hmade]
    rw [any_concat, Bool.or_eq_true] at hany
    exact h.known id (hany.resolve_right Bool.false_ne_true)
  case taken =>
    rw [hwaiting] at hentry
    cases hentry
  case balance =>
    -- each of those handed over comes with a reference
    have hbalance := h.balance l
    have hcount : (live.map (·.2)).count l = live.countP (·.2 == l) := by
      rw [List.count, List.countP_map]
      rfl
    have hreferences : (r.perform .drain).2.references = live.map (·.2) ++ r.references := rfl
    have hdrops : drops (seen ++ [(.drain, .drained live)]) l = drops seen l := by simp [drops]
    have hcopies : copies (seen ++ [(.drain, .drained live)]) l = copies seen l := by
      simp [copies]
    rw [hreferences, hdelivered, hdrops, hcopies, List.count_append, hcount, List.countP_append]
    omega

/-- A copy of a reference is one reference more. -/
theorem copy (h : Accounted references seen r) (l : L) :
    Accounted references (seen ++ [(.copy l, (r.perform (.copy l)).1)])
      (r.perform (.copy l)).2 := by
  refine h.of_held rfl fun l' => ?_
  have hbalance := h.balance l'
  cases hl : r.alive l with
  | false => simpa [drops, copies] using hbalance
  | true =>
    have hdrops : drops (seen ++ [(.copy l, .held true)]) l' = drops seen l' := by simp [drops]
    have hcopies : copies (seen ++ [(.copy l, .held true)]) l'
        = copies seen l' + if l == l' then 1 else 0 := by
      simp [copies, List.countP_append, List.countP_cons]
    rw [hdrops, hcopies, if_pos rfl, List.count_cons]
    omega

/-- A reference that is dropped is gone. -/
theorem drop (h : Accounted references seen r) (l : L) :
    Accounted references (seen ++ [(.drop l, (r.perform (.drop l)).1)])
      (r.perform (.drop l)).2 := by
  refine h.of_held rfl fun l' => ?_
  have hbalance := h.balance l'
  cases hl : r.alive l with
  | false =>
    have hmem : l ∉ r.references := by simpa [alive] using hl
    rw [List.erase_of_not_mem hmem]
    simpa [drops, copies] using hbalance
  | true =>
    have hmem : l ∈ r.references := by simpa [alive] using hl
    have hdrops : drops (seen ++ [(.drop l, .held true)]) l'
        = drops seen l' + if l == l' then 1 else 0 := by
      simp [drops, List.countP_append, List.countP_cons]
    have hcopies : copies (seen ++ [(.drop l, .held true)]) l' = copies seen l' := by
      simp [copies]
    have hpos := List.count_pos_iff.mpr hmem
    rw [hdrops, hcopies, List.count_erase]
    -- Of the listener there is one reference less and one drop more; others count as before.
    by_cases heq : l = l'
    · subst heq
      simp only [beq_self_eq_true, if_true]
      omega
    · have hne : (l == l') = false := by simpa using heq
      simp only [hne, Bool.false_eq_true, if_false]
      omega

theorem perform (h : Accounted references seen r) (deed : Deed L) :
    Accounted references (seen ++ [(deed, (r.perform deed).1)]) (r.perform deed).2 := by
  cases deed with
  | push l => exact h.push l
  | remove id => exact h.remove id
  | drain => exact h.drain
  | copy l => exact h.copy l
  | drop l => exact h.drop l

/-- Every history keeps the account. -/
theorem after (references : List L) (deeds : List (Deed L)) :
    Accounted references (({ references } : Roster L).events deeds)
      (({ references } : Roster L).after deeds) := by
  induction deeds using List.reverseRecOn with
  | nil => exact start references
  | append_singleton deeds deed ih =>
    rw [events_concat, after_concat]
    exact ih.perform deed

/-- No registration is handed over twice, and those that drains hand over are in order. -/
theorem delivered_increasing (h : Accounted references seen r) :
    ((delivered seen).map (·.1)).Pairwise (· < ·) := by
  have hsublist : (delivered seen).Sublist (made seen) :=
    (List.sublist_append_left _ _).trans h.handed
  have hmap := hsublist.map (·.1)
  rw [h.numbered] at hmap
  exact List.Pairwise.sublist hmap (List.pairwise_lt_range' 1)

/-- Taking back finds whoever has been registered, with no drain since, and has not been taken back
before. -/
theorem removed_iff (h : Accounted references seen r) (id : RegistrationId) :
    (r.perform (.remove id)).1 = .removed true ↔
      ∃ earlier l later, seen = earlier ++ (.push l, .pushed id) :: later ∧
        (∀ e ∈ later, e.1 ≠ .drain) ∧ (.remove id, .removed true) ∉ seen := by
  have hcontains : (r.perform (.remove id)).1 = .removed true ↔ r.registry.contains id = true := by
    rw [Roster.perform]
    exact ⟨fun heq => Outcome.removed.inj heq, fun heq => congrArg _ heq⟩
  rw [hcontains, Registry.contains_iff, h.entries]
  constructor
  · rintro ⟨l, hl⟩
    obtain ⟨earlier, later, hseen⟩ := (mem_waiting_iff (h.taken _)).mp hl
    exact ⟨earlier, l, later, hseen⟩
  · rintro ⟨earlier, l, later, hseen⟩
    exact ⟨l, (mem_waiting_iff (h.taken _)).mpr ⟨earlier, later, hseen⟩⟩

end Accounted

theorem listeners_made (r : Roster L) (deeds : List (Deed L)) :
    (made (r.events deeds)).map (·.2) = pushes deeds := by
  induction deeds generalizing r with
  | nil => rfl
  | cons deed deeds ih =>
    have htail := ih (r.perform deed).2
    cases deed with
    | push l => exact congrArg (l :: ·) htail
    | remove id => exact htail
    | drain => exact htail
    | copy l => exact htail
    | drop l => exact htail

/-- Every registration gets the next number. Who is registered stays queued, alive or not, until it
is taken back or drained; a drain hands over one reference for each of those who are alive, in the
order in which they have been registered. References come from copies and from drains only. -/
theorem registrations_accounted (references : List L) (deeds : List (Deed L)) :
    let start : Roster L := { references }
    let seen := start.events deeds
    let last := start.after deeds
    -- numbers
    (made seen).map (·.1) = List.range' 1 (pushes deeds).length ∧
    (made seen).map (·.2) = pushes deeds ∧
    -- who is queued
    last.registry.entries = waiting seen ∧
    last.registry.size = (waiting seen).length ∧
    last.registry.liveCount last.alive = (waiting seen).countP (fun entry => last.alive entry.2) ∧
    -- taking back
    (∀ id, ((last.perform (.remove id)).1 = .removed true ↔
        ∃ earlier l later, seen = earlier ++ (.push l, .pushed id) :: later ∧
          (∀ e ∈ later, e.1 ≠ .drain) ∧ (.remove id, .removed true) ∉ seen) ∧
      (last.perform (.remove id)).2.registry.entries
        = (waiting seen).filter (fun entry => entry.1 != id) ∧
      (last.perform (.remove id)).2.references = last.references) ∧
    -- drains
    (last.perform .drain).1
      = .drained ((waiting seen).filter fun entry => last.alive entry.2) ∧
    (last.perform .drain).2.registry.entries = [] ∧
    ((delivered seen).map (·.1)).Pairwise (· < ·) ∧
    -- references
    (∀ l, last.references.count l + drops seen l
      = references.count l + copies seen l + (delivered seen).countP (·.2 == l)) := by
  intro start seen last
  have haccount : Accounted references seen last := Accounted.after references deeds
  have hlisteners : (made seen).map (·.2) = pushes deeds := listeners_made start deeds
  have hlength : (made seen).length = (pushes deeds).length := by
    rw [← hlisteners, List.length_map]
  refine ⟨hlength ▸ haccount.numbered, hlisteners, haccount.entries, ?_, ?_,
    fun id => ⟨haccount.removed_iff id, ?_, rfl⟩, ?_, rfl, haccount.delivered_increasing,
    haccount.balance⟩
  · rw [Registry.size, haccount.entries]
  · rw [Registry.liveCount, haccount.entries, List.countP_eq_length_filter]
  · rw [← haccount.entries]
    rfl
  · rw [← haccount.entries]
    rfl

/-- Two registrations of one listener: the first is taken back, the second is drained, and after
that there is nothing to take back. -/
example :
    (({ references := ["player"] } : Roster String).events
      [.push "player", .push "player", .remove 1, .remove 1, .drain, .remove 2]).map (·.2)
    = [.pushed 1, .pushed 2, .removed true, .removed false, .drained [(2, "player")],
      .removed false] := by
  decide

end Roster

end LazyEngine
