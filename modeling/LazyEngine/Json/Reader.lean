/-
Reading records from JSON tokens.

A record is written as an object, with its fields in any order and others among them, or as an
array with its fields in order. The first fault of the text counts.

* `Passage.step`, `skipValue` — pass over one token, and over one value of any kind;
* `natural`, `boolean`, `string`, `optional` — read one value of a kind;
* `Field` — a field that is read into a record, and what it is if an array ends before it;
* `readRecord` — read a whole text as a record.
-/
import LazyEngine.Json.Token

namespace LazyEngine.Json

/-- A value, or a fault, and the tokens behind the value. -/
abbrev Reading (α : Type) := Except Fault (α × List Token)

/-- The fault of a reader that wants another kind of value than the one that comes next. A list or
an object is refused at its first character, everything else after it has been read. -/
def mismatch : List Token → Fault
  | [] => .unfinished
  | .mark .openBrace :: _ => .unsuitable
  | .mark .openBracket :: _ => .unsuitable
  | .mark _ :: _ => .illFormed
  | .literal _ :: _ => .unsuitable
  | .number .outOfRange :: _ => .illFormed
  | .number _ :: _ => .unsuitable
  | .text (.ok _) :: _ => .unsuitable
  | .text (.error f) :: _ => f
  | .brokenText used _ :: _ => used
  | .broken used _ :: _ => used
  | .stray :: _ => .illFormed

/-- The fault of a reader that wants a punctuation mark and does not find it. -/
def unexpected : List Token → Fault
  | [] => .unfinished
  | _ :: _ => .illFormed

/-- An integer from zero up to a limit. -/
def natural (limit : Nat) : List Token → Reading Nat
  | .number (.natural n) :: rest => if n ≤ limit then .ok (n, rest) else .error .unsuitable
  | ts => .error (mismatch ts)

def boolean : List Token → Reading Bool
  | .literal .true :: rest => .ok (true, rest)
  | .literal .false :: rest => .ok (false, rest)
  | ts => .error (mismatch ts)

def string : List Token → Reading String
  | .text (.ok s) :: rest => .ok (s, rest)
  | ts => .error (mismatch ts)

/-- `null`, or a value. -/
def optional {α : Type} (read : List Token → Reading α) : List Token → Reading (Option α)
  | .literal .null :: rest => .ok (none, rest)
  | ts => (read ts).map fun r => (some r.1, r.2)

/-! ### Passing over values -/

/-- A value that has been begun and not been ended. -/
inductive Nesting where
  | inList
  | inObject
deriving DecidableEq, Repr

/-- What a reader that passes over values is waiting for. -/
inductive Awaited where
  | value
  /-- The first value of a list, or its end. -/
  | firstValue
  | key
  /-- The first key of an object, or its end. -/
  | firstKey
  | colon
  /-- A comma, or the end of the innermost list or object. -/
  | more
deriving DecidableEq, Repr

/-- How far a reader has got that passes over a value. -/
structure Passage where
  /-- What the reader is inside of, innermost first. -/
  nesting : List Nesting := []
  awaited : Awaited := .value
deriving DecidableEq, Repr

namespace Passage

/-- A value has ended inside of `nesting`; `none` if it was the outermost one. -/
def leave (nesting : List Nesting) : Option Passage :=
  if nesting.isEmpty then none else some ⟨nesting, .more⟩

/-- A token where a value is to begin. -/
def beginValue (nesting : List Nesting) : Token → Except Fault (Option Passage)
  | .mark .openBrace => .ok (some ⟨.inObject :: nesting, .firstKey⟩)
  | .mark .openBracket => .ok (some ⟨.inList :: nesting, .firstValue⟩)
  | .literal _ | .number _ | .text _ => .ok (leave nesting)
  | .brokenText _ skipped | .broken _ skipped => .error skipped
  | _ => .error .illFormed

/-- A token where a key is to stand. -/
def takeKey (nesting : List Nesting) : Token → Except Fault (Option Passage)
  | .text _ => .ok (some ⟨nesting, .colon⟩)
  | .brokenText _ skipped => .error skipped
  | _ => .error .illFormed

/-- Pass over one token; `none` if the outermost value ends with it. -/
def step (p : Passage) (t : Token) : Except Fault (Option Passage) :=
  match p.awaited, t, p.nesting with
  | .value, t, nesting => beginValue nesting t
  | .firstValue, .mark .closeBracket, _ :: outer => .ok (leave outer)
  | .firstValue, t, nesting => beginValue nesting t
  | .key, t, nesting => takeKey nesting t
  | .firstKey, .mark .closeBrace, _ :: outer => .ok (leave outer)
  | .firstKey, t, nesting => takeKey nesting t
  | .colon, .mark .colon, nesting => .ok (some ⟨nesting, .value⟩)
  | .more, .mark .comma, .inList :: outer => .ok (some ⟨.inList :: outer, .value⟩)
  | .more, .mark .comma, .inObject :: outer => .ok (some ⟨.inObject :: outer, .key⟩)
  | .more, .mark .closeBracket, .inList :: outer => .ok (leave outer)
  | .more, .mark .closeBrace, .inObject :: outer => .ok (leave outer)
  | _, _, _ => .error .illFormed

end Passage

/-- Pass over tokens until the outermost value is over. -/
def skip (p : Passage) : List Token → Except Fault (List Token)
  | [] => .error .unfinished
  | t :: rest =>
    match p.step t with
    | .error f => .error f
    | .ok none => .ok rest
    | .ok (some p) => skip p rest

/-- Pass over one value of any kind. -/
def skipValue (ts : List Token) : Except Fault (List Token) :=
  skip {} ts

/-! ### Records -/

/-- A field of a record of type `α`. -/
structure Field (α : Type) where
  name : String
  /-- Read the field into a record. -/
  read : α → List Token → Reading α
  /-- An array may end before the field, which then keeps its default. -/
  omissible : Bool := true

/-- Read the members of an object behind its opening brace. `seen` are the names of fields that
have been read; `first` is whether no member has been read. -/
def readMembers {α : Type} (fields : List (Field α)) :
    Nat → (first : Bool) → (seen : List String) → α → List Token → Reading α
  | 0, _, _, _, ts => .error (unexpected ts)
  | n + 1, first, seen, record, ts =>
    let member : List Token → Reading α
      | .text (.ok name) :: rest =>
        match fields.find? (·.name == name) with
        | some field =>
          if seen.contains name then .error .unsuitable
          else match rest with
            | .mark .colon :: rest =>
              match field.read record rest with
              | .error f => .error f
              | .ok (record, rest) => readMembers fields n false (name :: seen) record rest
            | rest => .error (unexpected rest)
        | none =>
          match rest with
          | .mark .colon :: rest =>
            match skipValue rest with
            | .error f => .error f
            | .ok rest => readMembers fields n false seen record rest
          | rest => .error (unexpected rest)
      | .text (.error f) :: _ => .error f
      | .brokenText used _ :: _ => .error used
      | rest => .error (unexpected rest)
    match first, ts with
    | _, .mark .closeBrace :: rest => .ok (record, rest)
    | true, ts => member ts
    | false, .mark .comma :: rest => member rest
    | false, ts => .error (unexpected ts)

/-- Read the end of an array whose fields have all been read. -/
def readEnd {α : Type} (record : α) : List Token → Reading α
  | .mark .closeBracket :: rest => .ok (record, rest)
  | .mark .comma :: _ => .error .illFormed
  | ts => .error (unexpected ts)

/-- Read fields from an array behind its opening bracket. -/
def readElements {α : Type} (first : Bool) (record : α) :
    List (Field α) → List Token → Reading α
  | [], ts => readEnd record ts
  | field :: fields, ts =>
    let element (ts : List Token) : Reading α :=
      match field.read record ts with
      | .error f => .error f
      | .ok (record, rest) => readElements false record fields rest
    match first, ts with
    | _, .mark .closeBracket :: rest =>
      if (field :: fields).all (·.omissible) then .ok (record, rest) else .error .unsuitable
    | true, [] => .error .unfinished
    | true, ts => element ts
    | false, .mark .comma :: .mark .closeBracket :: _ => .error .illFormed
    | false, .mark .comma :: [] => .error .unfinished
    | false, .mark .comma :: rest => element rest
    | false, ts => .error (unexpected ts)

/-- Read a whole text as a record, beginning with its defaults. -/
def readRecord {α : Type} (fields : List (Field α)) (defaults : α) (text : String) :
    Except Fault α :=
  let ts := tokens text
  let reading : Reading α := match ts with
    | .mark .openBrace :: rest => readMembers fields ts.length true [] defaults rest
    | .mark .openBracket :: rest => readElements true defaults fields rest
    | ts => .error (mismatch ts)
  match reading with
  | .error f => .error f
  | .ok (record, []) => .ok record
  | .ok (_, _ :: _) => .error .illFormed

end LazyEngine.Json
