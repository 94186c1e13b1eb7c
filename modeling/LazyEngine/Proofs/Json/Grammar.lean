/-
Values that are passed over.

The reader of a record passes over the values that it has no use for, and to do so it follows them
token by token with a stack of what it is inside of. It gets to the end of every value there is:

* `Grammar` — the grammar of JSON, in the characters of a text;
* `Passes` — tokens lead a reader from one point to another;
* **`Grammar.passed`** — the characters of a value stand for tokens that lead past it, however deep
  it is, and so do those of each part of one, by induction on the grammar;
* **`skipValue_of_value`** — so any value is passed over, up to what comes behind it.
-/
import LazyEngine.Json.Reader
import LazyEngine.Proofs.Json.Encoding

namespace LazyEngine.Json

/-- The parts of a value: an element is a value with the space around it, and a member has a key in
front of an element. -/
inductive Phrase where
  | value
  | element
  | elements
  | member
  | members

/-- The characters are such a part. A string is any that may stand between quotes, and nothing is
asked of keys: they may be the same. -/
inductive Grammar : Phrase → List Char → Prop
  | literal (l : Literal) : Grammar .value l.word
  | number {cs : List Char} {w : Written} : IsNumber cs w → Grammar .value cs
  | string {cs : List Char} : IsInner cs → Grammar .value (quoted cs)
  | emptyList {s : List Char} : AreSpaces s → Grammar .value ('[' :: (s ++ [']']))
  | list {cs : List Char} : Grammar .elements cs → Grammar .value ('[' :: (cs ++ [']']))
  | emptyObject {s : List Char} : AreSpaces s → Grammar .value ('{' :: (s ++ ['}']))
  | object {cs : List Char} : Grammar .members cs → Grammar .value ('{' :: (cs ++ ['}']))
  | element {s s' cs : List Char} : AreSpaces s → Grammar .value cs → AreSpaces s' →
      Grammar .element (s ++ (cs ++ s'))
  | lastElement {cs : List Char} : Grammar .element cs → Grammar .elements cs
  | nextElement {cs cs' : List Char} : Grammar .element cs → Grammar .elements cs' →
      Grammar .elements (cs ++ ',' :: cs')
  | member {s s' key cs : List Char} : AreSpaces s → IsInner key → AreSpaces s' →
      Grammar .element cs → Grammar .member (s ++ (quoted key ++ (s' ++ ':' :: cs)))
  | lastMember {cs : List Char} : Grammar .member cs → Grammar .members cs
  | nextMember {cs cs' : List Char} : Grammar .member cs → Grammar .members cs' →
      Grammar .members (cs ++ ',' :: cs')

/-- A value without space around it is an element. -/
theorem Grammar.bare {cs : List Char} (h : Grammar .value cs) : Grammar .element cs := by
  simpa using Grammar.element .nil h .nil

/-! ### The way past a value -/

/-- The tokens lead a reader from `p` to `q`; with `none` the outermost value ends with the last of
them. -/
inductive Passes : Passage → List Token → Option Passage → Prop
  | last {p : Passage} {t : Token} {q : Option Passage} : p.step t = .ok q → Passes p [t] q
  | next {p q : Passage} {t : Token} {ts : List Token} {r : Option Passage} :
      p.step t = .ok (some q) → Passes q ts r → Passes p (t :: ts) r

namespace Passes

variable {p p' q : Passage} {ts ts' : List Token} {r : Option Passage} {outer : List Nesting}

theorem trans (h : Passes p ts (some q)) (h' : Passes q ts' r) : Passes p (ts ++ ts') r := by
  generalize hq : some q = q' at h
  induction h with
  | last hstep => exact .next (hq ▸ hstep) h'
  | next hstep _ ih => exact .next hstep (ih hq)

/-- What leads past a value is skipped. -/
theorem skip (h : Passes p ts none) (rest : List Token) : skip p (ts ++ rest) = .ok rest := by
  generalize hr : none = r at h
  induction h with
  | last hstep =>
    subst hr
    rw [List.singleton_append, Json.skip, hstep]
  | next hstep _ ih =>
    rw [List.cons_append, Json.skip, hstep]
    exact ih hr

/-- Only the first step depends on the point itself. -/
theorem of_step (hstep : ∀ t q, p.step t = .ok q → p'.step t = .ok q)
    (h : Passes p ts r) : Passes p' ts r := by
  cases h with
  | last h => exact .last (hstep _ _ h)
  | next h hnext => exact .next (hstep _ _ h) hnext

/-- A list that may end at once may also go on. -/
theorem firstValue (h : Passes ⟨outer, .value⟩ ts r) : Passes ⟨outer, .firstValue⟩ ts r := by
  refine h.of_step fun t q hstep => ?_
  cases t with
  | mark m => cases m <;> first | exact hstep | cases hstep
  | _ => exact hstep

/-- So may an object. -/
theorem firstKey (h : Passes ⟨outer, .key⟩ ts r) : Passes ⟨outer, .firstKey⟩ ts r := by
  refine h.of_step fun t q hstep => ?_
  cases t with
  | mark m => cases m <;> first | exact hstep | cases hstep
  | _ => exact hstep

end Passes

/-- The tokens lead past such a part of a value, wherever it stands. -/
def Phrase.Passed : Phrase → List Token → Prop
  | .value, ts => ∀ outer, Passes ⟨outer, .value⟩ ts (Passage.leave outer)
  | .element, ts => ∀ outer, Passes ⟨outer, .value⟩ ts (Passage.leave outer)
  | .elements, ts =>
    ∀ outer, Passes ⟨.inList :: outer, .value⟩ ts (some ⟨.inList :: outer, .more⟩)
  | .member, ts => ∀ outer, Passes ⟨.inObject :: outer, .key⟩ ts (some ⟨.inObject :: outer, .more⟩)
  | .members, ts => ∀ outer, Passes ⟨.inObject :: outer, .key⟩ ts (some ⟨.inObject :: outer, .more⟩)

/-- **The way past a value**, and past each part of one. -/
theorem Grammar.passed {part : Phrase} {cs : List Char} (h : Grammar part cs) :
    ∃ ts, Stands cs ts ∧ part.Passed ts := by
  -- By induction on the grammar: the tokens of a phrase are those of its parts, each passed inside
  -- the brackets that are open around it.
  induction h with
  | literal l => exact ⟨_, (Lexes.literal l).stands, fun _ => .last rfl⟩
  | number hnumber => exact ⟨_, .number hnumber, fun _ => .last rfl⟩
  | string hinner =>
    obtain ⟨value, hlexes⟩ := Lexes.quoted hinner
    exact ⟨_, hlexes.stands, fun _ => .last rfl⟩
  | emptyList hs =>
    exact ⟨_, Lexes.openBracket.append ((Lexes.spaces hs).append Lexes.closeBracket.stands),
      fun _ => .next rfl (.last rfl)⟩
  | list _ ih =>
    obtain ⟨ts, hstands, hpassed⟩ := ih
    exact ⟨_, Lexes.openBracket.append
        (hstands.append (Stops.cons (by decide) []) Lexes.closeBracket.stands),
      fun outer => .next rfl ((hpassed outer).firstValue.trans (.last rfl))⟩
  | emptyObject hs =>
    exact ⟨_, Lexes.openBrace.append ((Lexes.spaces hs).append Lexes.closeBrace.stands),
      fun _ => .next rfl (.last rfl)⟩
  | object _ ih =>
    obtain ⟨ts, hstands, hpassed⟩ := ih
    exact ⟨_, Lexes.openBrace.append
        (hstands.append (Stops.cons (by decide) []) Lexes.closeBrace.stands),
      fun outer => .next rfl ((hpassed outer).firstKey.trans (.last rfl))⟩
  | element hs _ hs' ih =>
    obtain ⟨ts, hstands, hpassed⟩ := ih
    have hall := (Lexes.spaces hs).append (hstands.append hs'.stops (Lexes.spaces hs').stands)
    rw [List.nil_append, List.append_nil] at hall
    exact ⟨ts, hall, hpassed⟩
  | lastElement _ ih =>
    obtain ⟨ts, hstands, hpassed⟩ := ih
    exact ⟨ts, hstands, fun outer => hpassed (.inList :: outer)⟩
  | nextElement _ _ ih ih' =>
    obtain ⟨ts, hstands, hpassed⟩ := ih
    obtain ⟨ts', hstands', hpassed'⟩ := ih'
    exact ⟨_, hstands.append (Stops.cons (by decide) _) (Lexes.comma.append hstands'),
      fun outer => (hpassed (.inList :: outer)).trans (.next rfl (hpassed' outer))⟩
  | member hs hinner hs' _ ih =>
    obtain ⟨ts, hstands, hpassed⟩ := ih
    obtain ⟨value, hlexes⟩ := Lexes.quoted hinner
    exact ⟨_, (Lexes.spaces hs).append
        (hlexes.append ((Lexes.spaces hs').append (Lexes.colon.append hstands))),
      fun outer => .next rfl (.next rfl (hpassed (.inObject :: outer)))⟩
  | lastMember _ ih => exact ih
  | nextMember _ _ ih ih' =>
    obtain ⟨ts, hstands, hpassed⟩ := ih
    obtain ⟨ts', hstands', hpassed'⟩ := ih'
    exact ⟨_, hstands.append (Stops.cons (by decide) _) (Lexes.comma.append hstands'),
      fun outer => (hpassed outer).trans (.next rfl (hpassed' outer))⟩

/-- **Any value is passed over.** -/
theorem skipValue_of_value {cs : List Char} (h : Grammar .value cs) :
    ∃ ts, Stands cs ts ∧ ∀ rest, skipValue (ts ++ rest) = .ok rest := by
  obtain ⟨ts, hstands, hpassed⟩ := h.passed
  exact ⟨ts, hstands, (hpassed []).skip⟩

end LazyEngine.Json
