/-
The strings of JSON texts.

Between its quotes a string can be written in many ways: as it is, with letters behind backslashes,
and with the numbers of its characters, of which those beyond sixteen bits take two.

* `IsInner` — the characters may stand between quotes, whatever they mean, if they mean anything;
* `Spells` — they write this text;
* **`scanText_of_inner`**, **`scanText_of_spells`** — both are read up to the closing quote, and
  what writes a text is read as the text;
* **`Spells.encode`** — what a text is encoded as writes it, all characters included.
-/
import LazyEngine.Json.Token
import LazyEngine.Json.Writer

namespace LazyEngine.Json

/-- The letters behind a backslash, and what they stand for. -/
def escapes : List (Char × Char) :=
  [('"', '"'), ('\\', '\\'), ('/', '/'), ('b', '\x08'), ('f', '\x0c'), ('n', '\n'), ('r', '\r'),
    ('t', '\t')]

/-- A hexadecimal digit, small or large. -/
def IsHexDigit (c : Char) (n : Nat) : Prop :=
  n < 16 ∧ (c = Nat.digitChar n ∨ c = (Nat.digitChar n).toUpper)

/-- Four hexadecimal digits and their number. -/
inductive IsUnit : List Char → Nat → Prop
  | intro {a b c d : Char} {i j k l : Nat} : IsHexDigit a i → IsHexDigit b j → IsHexDigit c k →
      IsHexDigit d l → IsUnit [a, b, c, d] (((i * 16 + j) * 16 + k) * 16 + l)

/-- A character that stands for itself. -/
structure IsPlain (c : Char) : Prop where
  not_quote : c ≠ '"'
  not_backslash : c ≠ '\\'
  not_control : 0x20 ≤ c.toNat

/-- What may stand between two quotes. A number need not be that of a character: it may be half of
a pair whose other half is missing. -/
inductive IsInner : List Char → Prop
  | nil : IsInner []
  | plain {c : Char} {cs : List Char} : IsPlain c → IsInner cs → IsInner (c :: cs)
  | escape {e c : Char} {cs : List Char} : (e, c) ∈ escapes → IsInner cs → IsInner ('\\' :: e :: cs)
  | number {digits cs : List Char} {n : Nat} : IsUnit digits n → IsInner cs →
      IsInner ('\\' :: 'u' :: (digits ++ cs))

/-- What stands between two quotes, and the text that it writes. -/
inductive Spells : List Char → List Char → Prop
  | nil : Spells [] []
  | plain {c : Char} {cs text : List Char} : IsPlain c → Spells cs text →
      Spells (c :: cs) (c :: text)
  | escape {e c : Char} {cs text : List Char} : (e, c) ∈ escapes → Spells cs text →
      Spells ('\\' :: e :: cs) (c :: text)
  | number {digits cs text : List Char} {c : Char} : IsUnit digits c.toNat → Spells cs text →
      Spells ('\\' :: 'u' :: (digits ++ cs)) (c :: text)
  | pair {digits digits' cs text : List Char} {c : Char} {high low : Nat} :
      IsUnit digits high → 0xD800 ≤ high → high ≤ 0xDBFF →
      IsUnit digits' low → 0xDC00 ≤ low → low ≤ 0xDFFF →
      c.toNat = 0x10000 + (high - 0xD800) * 0x400 + (low - 0xDC00) → Spells cs text →
      Spells ('\\' :: 'u' :: (digits ++ '\\' :: 'u' :: (digits' ++ cs))) (c :: text)

/-! ### One character -/

theorem hexDigit?_of_isHexDigit {c : Char} {n : Nat} (h : IsHexDigit c n) :
    hexDigit? c = some n := by
  have hall : ∀ n < 16, hexDigit? (Nat.digitChar n) = some n ∧
      hexDigit? (Nat.digitChar n).toUpper = some n := by decide
  obtain ⟨hn, rfl | rfl⟩ := h
  · exact (hall n hn).1
  · exact (hall n hn).2

theorem escaped?_of_mem {e c : Char} (h : (e, c) ∈ escapes) : escaped? e = some c ∧ e ≠ 'u' := by
  have hall : ∀ pair ∈ escapes, escaped? pair.1 = some pair.2 ∧ pair.1 ≠ 'u' := by decide
  exact hall _ h

section Scan

variable (p : Partial) (rest : List Char)

theorem scanText_plain {c : Char} (h : IsPlain c) :
    scanText p (c :: rest) = scanText (p.push c) rest := by
  rw [scanText.eq_7 _ _ _ h.not_quote (fun _ _ _ _ _ heq => absurd heq h.not_backslash)
    (fun _ heq => absurd heq h.not_backslash) (fun _ _ heq => absurd heq h.not_backslash)
    (fun heq => absurd heq h.not_backslash), if_neg (Nat.not_lt.mpr h.not_control)]

theorem scanText_escape {e c : Char} (h : (e, c) ∈ escapes) :
    scanText p ('\\' :: e :: rest) = scanText (p.push c) rest := by
  obtain ⟨hescaped, hu⟩ := escaped?_of_mem h
  rw [scanText.eq_5 _ _ _ (fun _ _ _ _ _ heq => absurd heq hu) hu, hescaped]

theorem scanText_number {digits : List Char} {n : Nat} (h : IsUnit digits n) :
    scanText p ('\\' :: 'u' :: (digits ++ rest)) = scanText (p.pushUnit n) rest := by
  cases h with
  | intro ha hb hc hd =>
    simp only [List.cons_append, List.nil_append]
    rw [scanText.eq_3, hexNumber?, hexDigit?_of_isHexDigit ha, hexDigit?_of_isHexDigit hb,
      hexDigit?_of_isHexDigit hc, hexDigit?_of_isHexDigit hd]
    rfl

end Scan

/-! ### Whole strings -/

/-- **What may stand between quotes is read to the closing one.** -/
theorem scanText_of_inner {cs : List Char} (h : IsInner cs) (p : Partial) :
    ∃ value, ∀ rest, scanText p (cs ++ '"' :: rest) = (.text value, rest) := by
  induction h generalizing p with
  | nil => exact ⟨p.finish, fun rest => by rw [List.nil_append, scanText]⟩
  | @plain c cs hc _ ih =>
    obtain ⟨value, ih⟩ := ih (p.push c)
    exact ⟨value, fun rest => by rw [List.cons_append, scanText_plain _ _ hc, ih]⟩
  | @escape e c cs he _ ih =>
    obtain ⟨value, ih⟩ := ih (p.push c)
    refine ⟨value, fun rest => ?_⟩
    rw [List.cons_append, List.cons_append, scanText_escape _ _ he, ih]
  | @number digits cs n hn _ ih =>
    obtain ⟨value, ih⟩ := ih (p.pushUnit n)
    refine ⟨value, fun rest => ?_⟩
    rw [List.cons_append, List.cons_append, List.append_assoc, scanText_number _ _ hn, ih]

/-- The number of a character is not half of a pair. -/
theorem pushUnit_toNat (before : List Char) (c : Char) :
    Partial.pushUnit { value := .ok before } c.toNat = { value := .ok (c :: before) } := by
  have hvalid : c.toNat < 0xD800 ∨ 0xDFFF < c.toNat := c.valid.imp id And.left
  have hlow : isLowSurrogate c.toNat = false := by simp [isLowSurrogate]; omega
  have hhigh : isHighSurrogate c.toNat = false := by simp [isHighSurrogate]; omega
  simp [Partial.pushUnit, hlow, hhigh, Partial.push]

/-- Two halves are a character. -/
theorem pushUnit_pushUnit (before : List Char) {c : Char} {high low : Nat} (hhigh : 0xD800 ≤ high)
    (hhigh' : high ≤ 0xDBFF) (hlow : 0xDC00 ≤ low) (hlow' : low ≤ 0xDFFF)
    (hc : c.toNat = 0x10000 + (high - 0xD800) * 0x400 + (low - 0xDC00)) :
    (Partial.pushUnit { value := .ok before } high).pushUnit low
      = { value := .ok (c :: before) } := by
  have hnot : isLowSurrogate high = false := by simp [isLowSurrogate]; omega
  have hhigh : isHighSurrogate high = true := by simp [isHighSurrogate]; omega
  have hlow : isLowSurrogate low = true := by simp [isLowSurrogate]; omega
  simp [Partial.pushUnit, hnot, hhigh, hlow, Partial.push, ← hc]

/-- **What writes a text is read as the text.** -/
theorem scanText_of_spells {cs text : List Char} (h : Spells cs text) (before rest : List Char) :
    scanText { value := .ok before } (cs ++ '"' :: rest)
      = (.text (.ok (String.ofList (before.reverse ++ text))), rest) := by
  induction h generalizing before with
  | nil => rw [List.nil_append, scanText]; simp [Partial.finish]
  | plain hc _ ih =>
    rw [List.cons_append, scanText_plain _ _ hc, Partial.push, ih]
    simp
  | escape he _ ih =>
    rw [List.cons_append, List.cons_append, scanText_escape _ _ he, Partial.push, ih]
    simp
  | number hn _ ih =>
    rw [List.cons_append, List.cons_append, List.append_assoc, scanText_number _ _ hn,
      pushUnit_toNat, ih]
    simp
  | pair hn hhigh hhigh' hn' hlow hlow' hc _ ih =>
    simp only [List.cons_append, List.append_assoc]
    rw [scanText_number _ _ hn, scanText_number _ _ hn',
      pushUnit_pushUnit before hhigh hhigh' hlow hlow' hc, ih]
    simp

/-! ### Encoded texts -/

/-- A control character is written with a letter or with its number. -/
theorem encodeChar_control {n : Nat} (hn : n < 0x20) :
    (∃ e, (e, Char.ofNat n) ∈ escapes ∧ (encodeChar (.ofNat n)).toList = ['\\', e]) ∨
    (encodeChar (.ofNat n)).toList
      = ['\\', 'u', '0', '0', Nat.digitChar (n / 16), Nat.digitChar (n % 16)] := by
  have hall : ∀ n < 0x20,
      (escapes.any fun e => e.2 == Char.ofNat n &&
        (encodeChar (.ofNat n)).toList == ['\\', e.1]) = true ∨
      (encodeChar (.ofNat n)).toList
        = ['\\', 'u', '0', '0', Nat.digitChar (n / 16), Nat.digitChar (n % 16)] := by
    decide +kernel
  refine (hall n hn).imp (fun hletter => ?_) id
  obtain ⟨⟨e, c⟩, he, hwritten⟩ := List.any_eq_true.mp hletter
  simp only [Bool.and_eq_true, beq_iff_eq] at hwritten
  obtain ⟨rfl, hwritten⟩ := hwritten
  exact ⟨e, he, hwritten⟩

/-- Any other character, apart from quotes and backslashes, is written as itself. -/
theorem encodeChar_plain {c : Char} (h : IsPlain c) : (encodeChar c).toList = [c] := by
  have hcontrol : ∀ d : Char, d.toNat < 0x20 → c ≠ d := by
    rintro d hd rfl
    exact absurd hd (Nat.not_lt.mpr h.not_control)
  have hlarge := h.not_control
  rw [encodeChar]
  · simp [show ¬c.toNat < 0x10 by omega, show ¬c.toNat < 0x20 by omega, Char.toString]
  all_goals first | exact h.not_quote | exact h.not_backslash | exact hcontrol _ (by decide)

theorem isHexDigit_digitChar {n : Nat} (hn : n < 16) : IsHexDigit (Nat.digitChar n) n :=
  ⟨hn, .inl rfl⟩

theorem Spells.encodeChar (c : Char) {cs text : List Char} (h : Spells cs text) :
    Spells ((encodeChar c).toList ++ cs) (c :: text) := by
  by_cases hquote : c = '"'
  · subst hquote
    exact .escape (e := '"') (by decide) h
  by_cases hslash : c = '\\'
  · subst hslash
    exact .escape (e := '\\') (by decide) h
  by_cases hlarge : 0x20 ≤ c.toNat
  · rw [encodeChar_plain ⟨hquote, hslash, hlarge⟩]
    exact .plain ⟨hquote, hslash, hlarge⟩ h
  · have hcontrol := encodeChar_control (Nat.not_le.mp hlarge)
    rw [Char.ofNat_toNat c] at hcontrol
    rcases hcontrol with ⟨e, he, hwritten⟩ | hwritten
    · rw [hwritten]
      exact .escape he h
    · rw [hwritten]
      have hunit := IsUnit.intro (isHexDigit_digitChar (n := 0) (by decide))
        (isHexDigit_digitChar (n := 0) (by decide))
        (isHexDigit_digitChar (n := c.toNat / 16) (by omega))
        (isHexDigit_digitChar (Nat.mod_lt c.toNat (by decide)))
      rw [show ((0 * 16 + 0) * 16 + c.toNat / 16) * 16 + c.toNat % 16 = c.toNat by omega] at hunit
      exact .number hunit h

/-- **A text is written by what it is encoded as.** -/
theorem Spells.encode (text : List Char) :
    Spells (String.join (text.map Json.encodeChar)).toList text := by
  induction text with
  | nil => exact .nil
  | cons c text ih =>
    rw [List.map_cons, String.join_cons, String.toList_append]
    exact ih.encodeChar c

end LazyEngine.Json
