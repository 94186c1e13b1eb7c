/-
Records of different types that are read from the same text.

What the reader of a record does depends on the fields and on the text, and on the record only as
far as the fields read it. So two records are read alike if their fields correspond:

* `Field.Via` — a field reads into `f record` what another reads into `record`;
* `readRecord_via` — if the fields of two records correspond so, one record is `f` of the other,
  and texts that do not describe the one do not describe the other either, for the same reason.

Design notes: with `f` from "what the text says" to "the record with its defaults", this separates
what a text says from what it leaves open.
-/
import LazyEngine.Json.Reader
import Mathlib.Data.List.Forall2

namespace LazyEngine.Json

variable {α β : Type} {f : α → β} {a : Field α} {b : Field β} {as : List (Field α)}
  {bs : List (Field β)}

/-- A reading in which another record takes the place of the one that has been read. -/
def Reading.onRecord (f : α → β) (r : Reading α) : Reading β :=
  r.map fun read => (f read.1, read.2)

theorem Reading.onRecord_map {γ : Type} (f : α → β) (g : γ → α × List Token)
    (r : Except Fault γ) :
    Reading.onRecord f (r.map g) = r.map fun x => (f (g x).1, (g x).2) := by
  cases r <;> rfl

/-- Two fields of one name, of which one reads into `f record` what the other reads into
`record`. -/
structure Field.Via (f : α → β) (a : Field α) (b : Field β) : Prop where
  name : b.name = a.name
  omissible : b.omissible = a.omissible
  read : ∀ record ts, b.read (f record) ts = Reading.onRecord f (a.read record ts)

/-- A name finds fields that correspond, or none on either side. -/
theorem find?_via (h : List.Forall₂ (Field.Via f) as bs) (name : String) :
    (as.find? (·.name == name) = none ∧ bs.find? (·.name == name) = none) ∨
    ∃ a b, as.find? (·.name == name) = some a ∧ bs.find? (·.name == name) = some b ∧
      a.Via f b := by
  induction h with
  | nil => exact .inl ⟨rfl, rfl⟩
  | @cons a b as bs hab _ ih =>
    rw [List.find?_cons, List.find?_cons, hab.name]
    cases a.name == name with
    | true => exact .inr ⟨a, b, rfl, rfl, hab⟩
    | false => exact ih

theorem all_omissible_via (h : List.Forall₂ (Field.Via f) as bs) :
    bs.all (·.omissible) = as.all (·.omissible) := by
  induction h with
  | nil => rfl
  | cons hab _ ih => rw [List.all_cons, List.all_cons, hab.omissible, ih]

/-- A member of an object behind its name; `next` reads on, with one more name seen if it is the
name of a field. -/
def readMember (fields : List (Field α))
    (next : List String → α → List Token → Reading α) (seen : List String) (record : α)
    (name : String) (ts : List Token) : Reading α :=
  match fields.find? (·.name == name) with
  | some field =>
    if seen.contains name then .error .unsuitable
    else match ts with
      | .mark .colon :: rest =>
        match field.read record rest with
        | .error fault => .error fault
        | .ok (record, rest) => next (name :: seen) record rest
      | rest => .error (unexpected rest)
  | none =>
    match ts with
    | .mark .colon :: rest =>
      match skipValue rest with
      | .error fault => .error fault
      | .ok rest => next seen record rest
    | rest => .error (unexpected rest)

theorem readMember_via (h : List.Forall₂ (Field.Via f) as bs)
    {next : List String → α → List Token → Reading α}
    {next' : List String → β → List Token → Reading β}
    (hnext : ∀ seen record ts, next' seen (f record) ts = .onRecord f (next seen record ts))
    (seen : List String) (record : α) (name : String) (ts : List Token) :
    readMember bs next' seen (f record) name ts
      = .onRecord f (readMember as next seen record name ts) := by
  unfold readMember
  rcases find?_via h name with ⟨ha, hb⟩ | ⟨a, b, ha, hb, hab⟩
  · rw [ha, hb]
    dsimp only
    split
    · split
      · rfl
      · exact hnext ..
    · rfl
  · rw [ha, hb]
    dsimp only
    split
    · rfl
    · split
      · rename_i rest
        rw [hab.read]
        cases a.read record rest with
        | error fault => rfl
        | ok read => exact hnext ..
      · rfl

theorem readMembers_via (h : List.Forall₂ (Field.Via f) as bs) (n : Nat) (first : Bool)
    (seen : List String) (record : α) (ts : List Token) :
    readMembers bs n first seen (f record) ts
      = .onRecord f (readMembers as n first seen record ts) := by
  induction n generalizing first seen record ts with
  | zero => rfl
  | succ n ih =>
    have hmember := readMember_via h (ih false)
    simp only [readMembers]
    split
    · rfl
    · split
      · exact hmember ..
      · rfl
      · rfl
      · rfl
    · split
      · exact hmember ..
      · rfl
      · rfl
      · rfl
    · rfl

theorem readElements_via (h : List.Forall₂ (Field.Via f) as bs) (first : Bool) (record : α)
    (ts : List Token) :
    readElements first (f record) bs ts = .onRecord f (readElements first record as ts) := by
  induction h generalizing first record ts with
  | nil =>
    simp only [readElements, readEnd]
    split <;> rfl
  | @cons a b as bs hab hrest ih =>
    have hall := all_omissible_via (List.Forall₂.cons hab hrest)
    -- An element that is there is read by the field, and those behind it by the hypothesis.
    have helement (ts : List Token) :
        (match b.read (f record) ts with
          | .error fault => .error fault
          | .ok (record, rest) => readElements false record bs rest : Reading β)
        = .onRecord f (match a.read record ts with
          | .error fault => .error fault
          | .ok (record, rest) => readElements false record as rest) := by
      rw [hab.read]
      cases a.read record ts with
      | error fault => rfl
      | ok read => exact ih ..
    simp only [readElements]
    split
    · rw [hall]
      split <;> rfl
    · rfl
    · exact helement _
    · rfl
    · rfl
    · exact helement _
    · rfl

/-- A record at the beginning of tokens; what `readRecord` does before it looks for the end. -/
def readFirst (fields : List (Field α)) (defaults : α) (ts : List Token) : Reading α :=
  match ts with
  | .mark .openBrace :: rest => readMembers fields ts.length true [] defaults rest
  | .mark .openBracket :: rest => readElements true defaults fields rest
  | ts => .error (mismatch ts)

theorem readRecord_eq (fields : List (Field α)) (defaults : α) (text : String) :
    readRecord fields defaults text
      = match readFirst fields defaults (tokens text) with
        | .error fault => .error fault
        | .ok (record, []) => .ok record
        | .ok (_, _ :: _) => .error .illFormed :=
  rfl

theorem readFirst_via (h : List.Forall₂ (Field.Via f) as bs) (defaults : α) (ts : List Token) :
    readFirst bs (f defaults) ts = .onRecord f (readFirst as defaults ts) := by
  unfold readFirst
  split
  · exact readMembers_via h ..
  · exact readElements_via h ..
  · rfl

/-- **Records that are read alike.** If the fields of two records correspond through `f`, reading a
text into `f defaults` gives `f` of what reading it into `defaults` gives, and fails for the same
reason. -/
theorem readRecord_via (h : List.Forall₂ (Field.Via f) as bs) (defaults : α) (text : String) :
    readRecord bs (f defaults) text = (readRecord as defaults text).map f := by
  rw [readRecord_eq, readRecord_eq, readFirst_via h]
  rcases readFirst as defaults (tokens text) with fault | ⟨record, _ | ⟨t, rest⟩⟩ <;> rfl

end LazyEngine.Json
