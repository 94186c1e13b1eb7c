/-
White space.

Texts are trimmed and cut into words at the characters that have the property White_Space, which
are twenty-five, in ten runs.

* `isBlank` — the property;
* `words` — the runs of other characters, in order;
* `trim` — a text without the blank characters at its two ends.
-/

namespace LazyEngine.Text

/-- The runs of blank characters, each by its first and last code point. -/
def blankRuns : List (Nat × Nat) :=
  [(0x9, 0xD), (0x20, 0x20), (0x85, 0x85), (0xA0, 0xA0), (0x1680, 0x1680), (0x2000, 0x200A),
    (0x2028, 0x2029), (0x202F, 0x202F), (0x205F, 0x205F), (0x3000, 0x3000)]

def isBlank (c : Char) : Bool :=
  blankRuns.any fun run => decide (run.1 ≤ c.toNat ∧ c.toNat ≤ run.2)

/-- The words of a text, none of them empty. -/
def words (cs : List Char) : List (List Char) :=
  (cs.splitOnP isBlank).filter (!·.isEmpty)

/-- Drop blank characters at both ends. -/
def trim (cs : List Char) : List Char :=
  ((cs.dropWhile isBlank).reverse.dropWhile isBlank).reverse

/-- Whether a text has nothing but blank characters. -/
def isBlankText (s : String) : Bool :=
  s.toList.all isBlank

theorem isBlank_of_isWhitespace {c : Char} (h : c.isWhitespace = true) : isBlank c = true := by
  have : c = ' ' ∨ c = '\t' ∨ c = '\r' ∨ c = '\n' := by
    simpa [Char.isWhitespace, or_assoc] using h
  rcases this with rfl | rfl | rfl | rfl <;> decide

theorem words_nil : words [] = [] := by
  simp [words]

end LazyEngine.Text
