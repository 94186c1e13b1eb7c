/-
What is written as JSON is read as what it was.

A text is cut into pieces, and `LexesBefore` says which tokens a piece stands for, depending on what
comes after it. Most pieces stand for the same tokens whatever that is (`Lexes`); a number does so
only in front of something that stops it (`Stands`). So the tokens of a text are those of its
pieces:

* `LexesBefore.append` — pieces are put together;
* **`Lexes.text`** — a string in quotes stands for its text;
* **`Stands.number`**, **`Stands.decimal`** — a number stands for itself;
* **`tokens_of_stands`** — the tokens of a whole text.
-/
import LazyEngine.Proofs.Json.Numbers
import LazyEngine.Proofs.Json.Spelling

namespace LazyEngine.Json

/-- These characters stand for these tokens if what comes after them is of this kind. -/
def LexesBefore (follows : List Char → Prop) (piece : List Char) (ts : List Token) : Prop :=
  ∀ rest, follows rest → ∀ n, (piece ++ rest).length ≤ n →
    ∃ k, rest.length ≤ k ∧ tokensWithin n (piece ++ rest) = ts ++ tokensWithin k rest

/-- These characters stand for these tokens, whatever comes after them. -/
def Lexes (piece : List Char) (ts : List Token) : Prop :=
  LexesBefore (fun _ => True) piece ts

/-- These characters stand for these tokens in front of something that stops a number. -/
def Stands (piece : List Char) (ts : List Token) : Prop :=
  LexesBefore Stops piece ts

section Pieces

variable {follows follows' : List Char → Prop} {piece piece' : List Char} {ts ts' : List Token}

theorem LexesBefore.append (h : LexesBefore follows piece ts)
    (h' : LexesBefore follows' piece' ts')
    (hnext : ∀ rest, follows' rest → follows (piece' ++ rest)) :
    LexesBefore follows' (piece ++ piece') (ts ++ ts') := by
  intro rest hrest n hn
  rw [List.append_assoc] at hn ⊢
  obtain ⟨k, hk, heq⟩ := h (piece' ++ rest) (hnext rest hrest) n hn
  obtain ⟨k', hk', heq'⟩ := h' rest hrest k hk
  exact ⟨k', hk', by rw [heq, heq', List.append_assoc]⟩

theorem Lexes.append (h : Lexes piece ts) (h' : LexesBefore follows piece' ts') :
    LexesBefore follows (piece ++ piece') (ts ++ ts') :=
  LexesBefore.append h h' fun _ _ => trivial

theorem Stands.append (h : Stands piece ts) (hstops : Stops piece') (h' : Stands piece' ts') :
    Stands (piece ++ piece') (ts ++ ts') :=
  LexesBefore.append h h' fun _ hrest => hstops.append hrest

theorem Lexes.stands (h : Lexes piece ts) : Stands piece ts :=
  fun rest _ => h rest trivial

theorem Lexes.nil : Lexes [] [] :=
  fun rest _ n hn => ⟨n, by simpa using hn, rfl⟩

/-- A piece that is read as one token. -/
theorem LexesBefore.one {c : Char} {t : Token} (hc : isSpace c = false)
    (hscan : ∀ rest, follows rest → scan c (piece ++ rest) = (t, rest)) :
    LexesBefore follows (c :: piece) [t] := by
  intro rest hrest n hn
  obtain ⟨n, rfl⟩ : ∃ m, n = m + 1 := ⟨n - 1, by simp at hn; omega⟩
  refine ⟨n, by simp at hn; omega, ?_⟩
  simp [tokensWithin, hc, hscan rest hrest]

theorem Lexes.mark {c : Char} {p : Punctuation} (hc : isSpace c = false)
    (hscan : ∀ rest, scan c rest = (.mark p, rest)) : Lexes [c] [.mark p] :=
  LexesBefore.one hc fun rest _ => hscan rest

theorem Lexes.openBrace : Lexes ['{'] [.mark .openBrace] := .mark rfl fun _ => rfl

theorem Lexes.closeBrace : Lexes ['}'] [.mark .closeBrace] := .mark rfl fun _ => rfl

theorem Lexes.openBracket : Lexes ['['] [.mark .openBracket] := .mark rfl fun _ => rfl

theorem Lexes.closeBracket : Lexes [']'] [.mark .closeBracket] := .mark rfl fun _ => rfl

theorem Lexes.comma : Lexes [','] [.mark .comma] := .mark rfl fun _ => rfl

theorem Lexes.colon : Lexes [':'] [.mark .colon] := .mark rfl fun _ => rfl

end Pieces

/-- **The tokens of a text** are those that its characters stand for. -/
theorem tokens_of_stands {text : String} {ts : List Token} (h : Stands text.toList ts) :
    tokens text = ts := by
  obtain ⟨k, -, heq⟩ := h [] Stops.nil text.toList.length (by simp)
  rw [List.append_nil] at heq
  rw [tokens, heq]
  cases k <;> simp [tokensWithin]

/-! ### Space -/

/-- What may stand between tokens. -/
def AreSpaces (cs : List Char) : Prop :=
  ∀ c ∈ cs, isSpace c = true

instance (cs : List Char) : Decidable (AreSpaces cs) :=
  decidable_of_iff (cs.all isSpace = true) List.all_eq_true

theorem AreSpaces.nil : AreSpaces [] := by
  simp [AreSpaces]

theorem AreSpaces.append {cs cs' : List Char} (h : AreSpaces cs) (h' : AreSpaces cs') :
    AreSpaces (cs ++ cs') :=
  fun c hc => (List.mem_append.mp hc).elim (h c) (h' c)

theorem Lexes.spaces {cs : List Char} (h : AreSpaces cs) : Lexes cs [] := by
  induction cs with
  | nil => exact .nil
  | cons c cs ih =>
    have hone : Lexes [c] [] := by
      intro rest _ n hn
      obtain ⟨n, rfl⟩ : ∃ m, n = m + 1 := ⟨n - 1, by simp at hn; omega⟩
      refine ⟨n, by simpa using hn, ?_⟩
      simp [tokensWithin, h c (by simp)]
    exact hone.append (ih fun d hd => h d (by simp [hd]))

theorem isSpace_cases {c : Char} (h : isSpace c = true) :
    c = ' ' ∨ c = '\n' ∨ c = '\t' ∨ c = '\r' := by
  simpa [isSpace, or_assoc] using h

theorem AreSpaces.stops {cs : List Char} (h : AreSpaces cs) : Stops cs := by
  intro c hc
  rcases isSpace_cases (h c (List.mem_of_mem_head? hc)) with rfl | rfl | rfl | rfl <;> decide

/-! ### Literals -/

def Literal.word : Literal → List Char
  | .null => ['n', 'u', 'l', 'l']
  | .true => ['t', 'r', 'u', 'e']
  | .false => ['f', 'a', 'l', 's', 'e']

theorem Lexes.literal (l : Literal) : Lexes l.word [.literal l] := by
  cases l <;> exact LexesBefore.one rfl fun _ _ => rfl

/-! ### Strings -/

/-- What stands between two quotes, together with them. -/
def quoted (inner : List Char) : List Char :=
  '"' :: (inner ++ ['"'])

theorem Lexes.quoted {inner : List Char} (h : IsInner inner) :
    ∃ value, Lexes (quoted inner) [.text value] := by
  obtain ⟨value, hscan⟩ := scanText_of_inner h {}
  refine ⟨value, LexesBefore.one rfl fun rest _ => ?_⟩
  rw [List.append_assoc]
  exact hscan rest

/-- The string writes this text. -/
inductive IsText (text : String) : List Char → Prop
  | intro {inner : List Char} : Spells inner text.toList → IsText text (Json.quoted inner)

/-- **A string in quotes is read as what it writes.** -/
theorem Lexes.text {text : String} {cs : List Char} (h : IsText text cs) :
    Lexes cs [.text (.ok text)] := by
  obtain ⟨h⟩ := h
  refine LexesBefore.one rfl fun rest _ => ?_
  rw [List.append_assoc]
  refine (scanText_of_spells h [] rest).trans ?_
  rw [List.reverse_nil, List.nil_append, String.ofList_toList]

/-- A text is written by what it is encoded as. -/
theorem isText_encode (text : String) : IsText text (encode text).toList := by
  have h : (encode text).toList = quoted (String.join (text.toList.map encodeChar)).toList := by
    simp [encode, quoted, String.toList_append]
  rw [h]
  exact ⟨.encode text.toList⟩

/-! ### Numbers -/

theorem scan_digit {c : Char} (hc : c.isDigit = true) (rest : List Char) :
    scan c rest = scanNumber false (c :: rest) := by
  rw [scan.eq_def]
  split <;> first | exact absurd hc (by decide) | rw [if_pos hc]

theorem not_isSpace_of_isDigit {c : Char} (hc : c.isDigit = true) : isSpace c = false := by
  by_contra h
  rcases isSpace_cases (by simpa using h) with rfl | rfl | rfl | rfl <;> exact absurd hc (by decide)

/-- **A number stands for what its parts say.** -/
theorem Stands.number {cs : List Char} {w : Written} (h : IsNumber cs w) :
    Stands cs [.number w.numeral] := by
  obtain @⟨sign, whole, fraction, exponent, negative, f, e, hsign, hwhole, hfraction, hexponent⟩ :=
    h
  have hscan := fun rest (hrest : Stops rest) =>
    scanNumber_of_parts negative hwhole hfraction hexponent hrest
  cases hsign with
  | minus =>
    change LexesBefore Stops ('-' :: (whole ++ (fraction ++ exponent))) _
    refine LexesBefore.one rfl fun rest hrest => ?_
    change scanNumber true _ = _
    simpa only [List.append_assoc] using hscan rest hrest
  | none =>
    -- Without a sign the first digit decides that this is a number.
    obtain ⟨c, cs, rfl⟩ := List.exists_cons_of_ne_nil hwhole.nonempty
    have hc : c.isDigit = true := hwhole.digits c (by simp)
    change LexesBefore Stops (c :: (cs ++ (fraction ++ exponent))) _
    refine LexesBefore.one (not_isSpace_of_isDigit hc) fun rest hrest => ?_
    rw [scan_digit hc]
    simpa only [List.cons_append, List.append_assoc] using hscan rest hrest

theorem isNumber_toDigits (n : Nat) :
    IsNumber (Nat.toDigits 10 n) ⟨false, Nat.toDigits 10 n, none, none⟩ := by
  simpa using IsNumber.intro .none (isWhole_toDigits n) .none .none

/-- **The digits of an integer are read as the integer.** -/
theorem Stands.decimal {n : Nat} (hn : n ≤ significandBound) :
    Stands (Nat.toDigits 10 n) [.number (.natural n)] := by
  have hnumber := Stands.number (isNumber_toDigits n)
  rwa [numeral_toDigits hn] at hnumber

end LazyEngine.Json
