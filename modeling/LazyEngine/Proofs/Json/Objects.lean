/-
Records that are read from objects.

An object is its members in order: the key of each, as a text, and its value, as it is written.
Any amount of space may stand around them.

* `IsObject` — the characters are an object with these members;
* `Takes` — the reader of a record takes a member as a change of the record;
* `readMembers_member` — one member is read, and `readMembers_of_isMembers` — so are all, by
  induction on the members;
* **`readRecord_of_isObject`** — a record is what its members make of the defaults, one after
  another, if no field is named twice;
* **`isObject_writeObject`** — what is written of an object is the object.
-/
import LazyEngine.Proofs.Json.Grammar

namespace LazyEngine.Json

/-- A member with the space before, within and behind it. -/
inductive IsMember : String × List Char → List Char → Prop
  | intro {key : String} {written value s₁ s₂ s₃ s₄ : List Char} : IsText key written →
      AreSpaces s₁ → AreSpaces s₂ → AreSpaces s₃ → AreSpaces s₄ →
      IsMember (key, value) (s₁ ++ (written ++ (s₂ ++ ':' :: (s₃ ++ (value ++ s₄)))))

/-- One member or more, with commas between them. -/
inductive IsMembers : List (String × List Char) → List Char → Prop
  | last {m : String × List Char} {cs : List Char} : IsMember m cs → IsMembers [m] cs
  | next {m : String × List Char} {ms : List (String × List Char)} {cs cs' : List Char} :
      IsMember m cs → IsMembers ms cs' → IsMembers (m :: ms) (cs ++ ',' :: cs')

/-- An object with the space around it. -/
inductive IsObject : List (String × List Char) → List Char → Prop
  | empty {s s' s'' : List Char} : AreSpaces s → AreSpaces s' → AreSpaces s'' →
      IsObject [] (s ++ '{' :: (s' ++ '}' :: s''))
  | members {ms : List (String × List Char)} {cs s s' : List Char} : AreSpaces s →
      IsMembers ms cs → AreSpaces s' → IsObject ms (s ++ '{' :: (cs ++ '}' :: s'))

/-! ### Reading -/

section Reading

variable {α : Type} {fields : List (Field α)}

/-- The key is the name of a field. -/
def Known (fields : List (Field α)) (key : String) : Prop :=
  (fields.find? (·.name == key)).isSome = true

/-- The reader takes a member as this change: it reads the value into the field that the key names,
and passes over it if there is none. -/
def Takes (fields : List (Field α)) (m : String × List Char) (change : α → α) : Prop :=
  ∃ ts, Stands m.2 ts ∧
    ((∃ field, fields.find? (·.name == m.1) = some field ∧
      ∀ record rest, field.read record (ts ++ rest) = .ok (change record, rest)) ∨
    fields.find? (·.name == m.1) = none ∧ (∀ record, change record = record) ∧
      ∀ rest, skipValue (ts ++ rest) = .ok rest)

/-- What stands in front of a member: a comma, unless it is the first one. -/
def lead (first : Bool) : List Token :=
  if first then [] else [.mark .comma]

theorem readMembers_lead (n : Nat) (first : Bool) (seen : List String) (record : α) (key : String)
    (rest : List Token) :
    readMembers fields (n + 1) first seen record (lead first ++ .text (.ok key) :: rest)
      = readMembers fields (n + 1) true seen record (.text (.ok key) :: rest) := by
  cases first with
  | true => rfl
  | false => simp only [lead, readMembers, List.singleton_append, Bool.false_eq_true, if_false]

/-- **A member is read**, and its key is remembered if it is the name of a field. -/
theorem readMembers_member {m : String × List Char} {change : α → α}
    (h : Takes fields m change) {seen : List String} (hseen : Known fields m.1 → m.1 ∉ seen) :
    ∃ ts seen', Stands m.2 ts ∧ (∀ key ∈ seen', key ∈ seen ∨ Known fields key ∧ key = m.1) ∧
      ∀ (n : Nat) (first : Bool) (record : α) (rest : List Token),
        readMembers fields (n + 1) first seen record
            (lead first ++ .text (.ok m.1) :: .mark .colon :: (ts ++ rest))
          = readMembers fields n false seen' (change record) rest := by
  obtain ⟨ts, hstands, ⟨field, hfind, hread⟩ | ⟨hfind, hchange, hskip⟩⟩ := h
  · have hknown : Known fields m.1 := by rw [Known, hfind]; rfl
    have hnew : seen.contains m.1 = false := by simpa using hseen hknown
    refine ⟨ts, m.1 :: seen, hstands, fun key hkey => ?_, fun n first record rest => ?_⟩
    · rcases List.mem_cons.mp hkey with rfl | hkey
      · exact .inr ⟨hknown, rfl⟩
      · exact .inl hkey
    · rw [readMembers_lead, readMembers]
      · simp only [hfind, hnew, hread, Bool.false_eq_true, if_false]
      · simp
  · refine ⟨ts, seen, hstands, fun key => .inl, fun n first record rest => ?_⟩
    rw [readMembers_lead, readMembers]
    · simp only [hfind, hskip, hchange]
    · simp

theorem readMembers_end (n : Nat) (first : Bool) (seen : List String) (record : α)
    (rest : List Token) :
    readMembers fields (n + 1) first seen record (.mark .closeBrace :: rest)
      = .ok (record, rest) := by
  rw [readMembers]

theorem IsMember.stands {m : String × List Char} {cs : List Char} {ts : List Token}
    (h : IsMember m cs) (hvalue : Stands m.2 ts) :
    Stands cs (.text (.ok m.1) :: .mark .colon :: ts) := by
  obtain ⟨hkey, h₁, h₂, h₃, h₄⟩ := h
  have hrest := (Lexes.spaces h₃).append (hvalue.append h₄.stops (Lexes.spaces h₄).stands)
  have hall : Stands _ _ := (Lexes.spaces h₁).append ((Lexes.text hkey).append
    ((Lexes.spaces h₂).append (Lexes.colon.append hrest)))
  simpa only [List.nil_append, List.append_nil, List.singleton_append] using hall

/-- **All members are read**, each as its change, as long as no field is named twice. -/
theorem readMembers_of_isMembers {ms : List (String × List Char)} {cs : List Char}
    {change : String → α → α} (h : IsMembers ms cs)
    (htakes : ∀ m ∈ ms, Takes fields m (change m.1))
    (honce : ms.Pairwise fun m m' => Known fields m.1 → m.1 ≠ m'.1)
    {seen : List String} (hseen : ∀ m ∈ ms, Known fields m.1 → m.1 ∉ seen) :
    ∃ ts, Stands cs ts ∧ ms.length ≤ ts.length ∧
      ∀ (n : Nat) (first : Bool) (record : α) (rest : List Token), ms.length < n →
        readMembers fields n first seen record (lead first ++ (ts ++ .mark .closeBrace :: rest))
          = .ok (ms.foldl (fun record m => change m.1 record) record, rest) := by
  induction h generalizing seen with
  | @last m cs hm =>
    obtain ⟨ts, seen', hvalue, -, hread⟩ :=
      readMembers_member (htakes m (by simp)) (hseen m (by simp))
    refine ⟨_, hm.stands hvalue, by simp, fun n first record rest hn => ?_⟩
    obtain ⟨n, rfl⟩ : ∃ k, n = k + 2 := ⟨n - 2, by simp at hn; omega⟩
    simp only [List.cons_append]
    rw [hread, readMembers_end]
    rfl
  | @next m ms cs cs' hm _ ih =>
    obtain ⟨hfirst, honce⟩ := List.pairwise_cons.mp honce
    obtain ⟨ts, seen', hvalue, hseen', hread⟩ :=
      readMembers_member (htakes m (by simp)) (hseen m (by simp))
    -- What has been seen are keys from before, and the key of this member.
    have hnew : ∀ m' ∈ ms, Known fields m'.1 → m'.1 ∉ seen' := by
      intro m' hm' hknown hmem
      rcases hseen' _ hmem with hold | ⟨-, heq⟩
      · exact hseen m' (by simp [hm']) hknown hold
      · exact hfirst m' hm' (heq ▸ hknown) heq.symm
    obtain ⟨ts', hstands', hlength, hread'⟩ :=
      ih (fun m' hm' => htakes m' (by simp [hm'])) honce hnew
    refine ⟨_, (hm.stands hvalue).append (Stops.cons (by decide) _)
      (Lexes.comma.append hstands'), by simp; omega, fun n first record rest hn => ?_⟩
    obtain ⟨n, rfl⟩ : ∃ k, n = k + 1 := ⟨n - 1, by omega⟩
    simp only [List.cons_append, List.append_assoc]
    rw [hread]
    exact hread' n false _ rest (by simpa using hn)

/-- **A record is what the members of an object make of its defaults.** -/
theorem readRecord_of_isObject {ms : List (String × List Char)} {text : String}
    (change : String → α → α) (defaults : α) (h : IsObject ms text.toList)
    (htakes : ∀ m ∈ ms, Takes fields m (change m.1))
    (honce : ms.Pairwise fun m m' => Known fields m.1 → m.1 ≠ m'.1) :
    readRecord fields defaults text
      = .ok (ms.foldl (fun record m => change m.1 record) defaults) := by
  generalize hcs : text.toList = cs at h
  cases h with
  | empty hs hs' hs'' =>
    have htokens : tokens text = [.mark .openBrace, .mark .closeBrace] := by
      refine tokens_of_stands (hcs ▸ ?_)
      exact (Lexes.spaces hs).append (Lexes.openBrace.append ((Lexes.spaces hs').append
        (Lexes.closeBrace.append (Lexes.spaces hs'').stands)))
    rw [readRecord, htokens]
    rfl
  | @members ms cs s s' hs hmembers hs' =>
    -- Nothing has been read before the first member.
    have hnothing : ∀ m ∈ ms, Known fields m.1 → m.1 ∉ ([] : List String) := by simp
    obtain ⟨ts, hstands, hlength, hread⟩ := readMembers_of_isMembers hmembers htakes honce hnothing
    have htokens : tokens text = .mark .openBrace :: (ts ++ [.mark .closeBrace]) := by
      refine tokens_of_stands (hcs ▸ ?_)
      exact (Lexes.spaces hs).append (Lexes.openBrace.append (hstands.append
        (Stops.cons (by decide) _) (Lexes.closeBrace.append (Lexes.spaces hs').stands)))
    have hall := hread (tokens text).length true defaults [] (by rw [htokens]; simp; omega)
    rw [readRecord, htokens]
    rw [htokens] at hall
    simp only [lead, if_true, List.nil_append] at hall
    simp only [hall]

end Reading

/-! ### Values of fields -/

theorem natural_of_le {limit n : Nat} (h : n ≤ limit) (rest : List Token) :
    natural limit (.number (.natural n) :: rest) = .ok (n, rest) :=
  if_pos h

theorem stands_toString {n : Nat} (hn : n ≤ significandBound) :
    Stands (toString n).toList [.number (.natural n)] := by
  simpa using Stands.decimal hn

/-! ### Writing -/

namespace Layout

variable (layout : Layout)

theorem line_spaces : AreSpaces layout.line.toList := by
  cases layout <;> decide

theorem margin_spaces : AreSpaces layout.margin.toList := by
  cases layout <;> decide

theorem gap_spaces : AreSpaces layout.gap.toList := by
  cases layout <;> decide

end Layout

theorem isMember_writeMember (layout : Layout) (m : String × String) {s : List Char}
    (hs : AreSpaces s) :
    IsMember (m.1, m.2.toList)
      (layout.line.toList ++ ((writeMember layout m).toList ++ s)) := by
  have hmember : IsMember (m.1, m.2.toList) _ := .intro (isText_encode m.1)
    (layout.line_spaces.append layout.margin_spaces) .nil layout.gap_spaces hs
  simpa [writeMember, String.toList_append] using hmember

theorem isMembers_writeMembers (layout : Layout) (m : String × String)
    (ms : List (String × String)) :
    IsMembers ((m :: ms).map fun m => (m.1, m.2.toList))
      (layout.line.toList ++ ((',' :: layout.line.toList).intercalate
        ((m :: ms).map fun m => (writeMember layout m).toList) ++ layout.line.toList)) := by
  induction ms generalizing m with
  | nil => simpa using IsMembers.last (isMember_writeMember layout m layout.line_spaces)
  | cons m' ms ih =>
    have hmember := isMember_writeMember layout m AreSpaces.nil
    simpa [List.intercalate_cons_cons] using IsMembers.next hmember (ih m')

/-- **An object that is written is the object**, in any layout. -/
theorem isObject_writeObject (layout : Layout) {ms : List (String × String)} (hms : ms ≠ []) :
    IsObject (ms.map fun m => (m.1, m.2.toList)) (writeObject layout ms).toList := by
  obtain ⟨m, ms, rfl⟩ := List.exists_cons_of_ne_nil hms
  have hobject := IsObject.members .nil (isMembers_writeMembers layout m ms) .nil
  simpa [writeObject, String.toList_append, String.toList_intercalate, Function.comp_def]
    using hobject

end LazyEngine.Json
