/-
The tokens of a JSON text.

* `Token` — a token with all that a reader may want to know of it;
* `tokens` — the tokens of a text.

Design notes: a text is read in one pass and its first fault counts, but what is a fault depends on
the reader: a string that is only skipped may hold a lone surrogate, and a number that is only
skipped may be out of range. So such tokens carry what each kind of reader finds. A token that
is faulty for every reader ends the list.
-/
import LazyEngine.Json.Magnitude

namespace LazyEngine.Json

/-- What is wrong with a text. -/
inductive Fault where
  /-- It is not JSON. -/
  | illFormed
  /-- It is JSON so far, but not of the type that is wanted. -/
  | unsuitable
  /-- It ends too early. -/
  | unfinished
deriving DecidableEq, Repr

/-- A number as integer fields see it. -/
inductive Numeral where
  /-- An integer without a sign that fits into 64 bits. -/
  | natural (value : Nat)
  /-- With a sign, a fraction or an exponent, or too large. -/
  | other
  /-- Beyond what a double can hold. -/
  | outOfRange
deriving DecidableEq, Repr

inductive Literal where
  | null
  | true
  | false
deriving DecidableEq, Repr

inductive Punctuation where
  | openBrace
  | closeBrace
  | openBracket
  | closeBracket
  | comma
  | colon
deriving DecidableEq, Repr

inductive Token where
  | mark (p : Punctuation)
  | literal (l : Literal)
  | number (n : Numeral)
  /-- A string that can be skipped; its value, or why it has none. -/
  | text (value : Except Fault String)
  /-- A string, faulty for every reader: for one that wants its value and for one that skips it. -/
  | brokenText (used skipped : Fault)
  /-- A faulty number or literal. -/
  | broken (used skipped : Fault)
  /-- A character that begins no token. -/
  | stray

def isSpace (c : Char) : Bool :=
  c == ' ' || c == '\n' || c == '\t' || c == '\r'

/-! ### Strings -/

def hexDigit? (c : Char) : Option Nat :=
  if c.isDigit then some (c.toNat - '0'.toNat)
  else if 'a' ≤ c ∧ c ≤ 'f' then some (c.toNat - 'a'.toNat + 10)
  else if 'A' ≤ c ∧ c ≤ 'F' then some (c.toNat - 'A'.toNat + 10)
  else none

/-- The number that four hexadecimal digits write. -/
def hexNumber? (a b c d : Char) : Option Nat := do
  return (((← hexDigit? a) * 16 + (← hexDigit? b)) * 16 + (← hexDigit? c)) * 16 + (← hexDigit? d)

/-- What a character after a backslash stands for. -/
def escaped? : Char → Option Char
  | '"' => some '"'
  | '\\' => some '\\'
  | '/' => some '/'
  | 'b' => some '\x08'
  | 'f' => some '\x0c'
  | 'n' => some '\n'
  | 'r' => some '\r'
  | 't' => some '\t'
  | _ => none

def isHighSurrogate (n : Nat) : Bool :=
  decide (0xD800 ≤ n ∧ n ≤ 0xDBFF)

def isLowSurrogate (n : Nat) : Bool :=
  decide (0xDC00 ≤ n ∧ n ≤ 0xDFFF)

/-- The value of a string so far. -/
structure Partial where
  /-- The characters, last first, or the first fault for a reader that wants them. -/
  value : Except Fault (List Char) := .ok []
  /-- A high surrogate that waits for a low one. -/
  high : Option Nat := none

namespace Partial

def fail (p : Partial) (f : Fault) : Partial :=
  match p.value with
  | .ok _ => { value := .error f }
  | .error _ => { p with high := none }

/-- A character comes next. -/
def push (p : Partial) (c : Char) : Partial :=
  match p.high, p.value with
  | none, .ok cs => { value := .ok (c :: cs) }
  | _, _ => p.fail .illFormed

/-- An escape with a number comes next. -/
def pushUnit (p : Partial) (n : Nat) : Partial :=
  match p.high with
  | some high =>
    if isLowSurrogate n then
      let c := Char.ofNat (0x10000 + (high - 0xD800) * 0x400 + (n - 0xDC00))
      { p with high := none }.push c
    else p.fail .illFormed
  | none =>
    if isLowSurrogate n then p.fail .illFormed
    else if isHighSurrogate n then { p with high := some n }
    else p.push (Char.ofNat n)

/-- The string ends. -/
def finish (p : Partial) : Except Fault String :=
  match p.high, p.value with
  | some _, .ok _ => .error .illFormed
  | _, .ok cs => .ok (String.ofList cs.reverse)
  | _, .error f => .error f

/-- The string cannot be read to its end by anybody. -/
def broken (p : Partial) (f : Fault) : Token :=
  match p.value with
  | .ok _ => .brokenText f f
  | .error used => .brokenText used f

end Partial

/-- Read a string behind its opening quote: the token and what follows it. -/
def scanText (p : Partial) : List Char → Token × List Char
  | [] => (p.broken .unfinished, [])
  | '"' :: rest => (.text p.finish, rest)
  | '\\' :: 'u' :: a :: b :: c :: d :: rest =>
    match hexNumber? a b c d with
    | some n => scanText (p.pushUnit n) rest
    | none => (p.broken .illFormed, [])
  | '\\' :: 'u' :: rest =>
    let endsTooSoon := (String.ofList rest).utf8ByteSize < 4
    (p.broken (if endsTooSoon then .unfinished else .illFormed), [])
  | '\\' :: e :: rest =>
    match escaped? e with
    | some c => scanText (p.push c) rest
    | none => (p.broken .illFormed, [])
  | ['\\'] => (p.broken .unfinished, [])
  | c :: rest => if c.toNat < 0x20 then (p.broken .illFormed, []) else scanText (p.push c) rest

/-! ### Numbers -/

def digit (c : Char) : Nat :=
  c.toNat - '0'.toNat

/-- The largest significand that is kept exactly. -/
def significandBound : Nat := 0xFFFFFFFFFFFFFFFF

/-- The largest exponent that is kept exactly. -/
def exponentBound : Nat := 0x7FFFFFFF

/-- Take in digits while the significand stays within its bound: the significand, and how many
digits were taken in. -/
def takeDigits (significand taken : Nat) : List Char → Nat × Nat
  | [] => (significand, taken)
  | c :: cs =>
    let next := significand * 10 + digit c
    if next ≤ significandBound then takeDigits next (taken + 1) cs else (significand, taken)

/-- The parts of a number: digits before and after the point, and an exponent. -/
structure Written where
  negative : Bool
  whole : List Char
  fraction : Option (List Char)
  exponent : Option (Bool × List Char)

/-- How integer fields see a number. -/
def Written.numeral (w : Written) : Numeral :=
  let (whole, taken) := takeDigits 0 0 w.whole
  let excess := w.whole.length - taken
  let (significand, places) := takeDigits whole 0 (w.fraction.getD [])
  let shift : Int := excess - places
  match w.exponent with
  | none =>
    if !w.negative && w.fraction.isNone && excess == 0 then .natural significand
    else if isOutOfRange significand shift.toNat then .outOfRange
    else .other
  | some (negative, digits) =>
    let exponent := digits.foldl (fun n c => min (n * 10 + digit c) (exponentBound + 1)) 0
    if exponentBound < exponent then
      if significand ≠ 0 && !negative then .outOfRange else .other
    else
      let shift := if negative then shift - exponent else shift + exponent
      if isOutOfRange significand shift.toNat then .outOfRange else .other

/-- A number that breaks off: a reader that skips it does not care why. -/
def brokenOff (rest : List Char) : Token × List Char :=
  (.broken (if rest.isEmpty then .unfinished else .illFormed) .illFormed, [])

/-- Read a number behind its sign: the token and what follows it. -/
def scanNumber (negative : Bool) (cs : List Char) : Token × List Char :=
  let whole := cs.takeWhile Char.isDigit
  let rest := cs.dropWhile Char.isDigit
  if whole.isEmpty then brokenOff rest
  else if whole.head? == some '0' && 1 < whole.length then (.broken .illFormed .illFormed, [])
  else
    let afterPoint : Option (List Char) :=
      if rest.head? == some '.' then some (rest.drop 1) else none
    let fraction := afterPoint.map (·.takeWhile Char.isDigit)
    let rest := (afterPoint.map (·.dropWhile Char.isDigit)).getD rest
    if fraction == some [] then brokenOff rest
    else if rest.head? == some 'e' || rest.head? == some 'E' then
      let rest := rest.drop 1
      let signed := rest.head? == some '+' || rest.head? == some '-'
      let below := rest.head? == some '-'
      let rest := if signed then rest.drop 1 else rest
      let digits := rest.takeWhile Char.isDigit
      let rest := rest.dropWhile Char.isDigit
      if digits.isEmpty then brokenOff rest
      else (.number (Written.numeral ⟨negative, whole, fraction, some (below, digits)⟩), rest)
    else (.number (Written.numeral ⟨negative, whole, fraction, none⟩), rest)

/-! ### Literals and all tokens -/

/-- Read the rest of a word. -/
def scanLiteral (l : Literal) : List Char → List Char → Token × List Char
  | [], rest => (.literal l, rest)
  | _ :: _, [] => (.broken .unfinished .unfinished, [])
  | c :: word, d :: rest =>
    if c = d then scanLiteral l word rest else (.broken .illFormed .illFormed, [])

/-- Read one token that begins with a character. -/
def scan (c : Char) (rest : List Char) : Token × List Char :=
  match c with
  | '{' => (.mark .openBrace, rest)
  | '}' => (.mark .closeBrace, rest)
  | '[' => (.mark .openBracket, rest)
  | ']' => (.mark .closeBracket, rest)
  | ',' => (.mark .comma, rest)
  | ':' => (.mark .colon, rest)
  | '"' => scanText {} rest
  | 'n' => scanLiteral .null ['u', 'l', 'l'] rest
  | 't' => scanLiteral .true ['r', 'u', 'e'] rest
  | 'f' => scanLiteral .false ['a', 'l', 's', 'e'] rest
  | '-' => scanNumber true rest
  | c => if c.isDigit then scanNumber false (c :: rest) else (.stray, [])

/-- The tokens of a text of at most so many characters. -/
def tokensWithin : Nat → List Char → List Token
  | 0, _ => []
  | _ + 1, [] => []
  | n + 1, c :: rest =>
    if isSpace c then tokensWithin n rest
    else
      let (token, rest) := scan c rest
      token :: tokensWithin n rest

/-- The tokens of a text. -/
def tokens (text : String) : List Token :=
  tokensWithin text.toList.length text.toList

end LazyEngine.Json
