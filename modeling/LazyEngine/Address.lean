/-
Street addresses in running text.

An address starts at a house number, that is a word of decimal digits alone, and goes on to the end
of its sentence or line; a number that is not followed by two more words does not count.

* `sentences` — a text cut at full stops and line ends;
* `address?` — the first address of a text.
-/
import LazyEngine.Text.Blank

namespace LazyEngine

open Text

namespace Address

/-- Full stops and line ends. -/
def endsSentence (c : Char) : Bool :=
  c == '.' || c == '\n'

def sentences (text : List Char) : List (List Char) :=
  text.splitOnP endsSentence

def isHouseNumber (word : List Char) : Bool :=
  word.all Char.isDigit

/-- The address that a sentence holds. Only its first number can begin one: what follows a later
number is shorter still. -/
def ofSentence (sentence : List Char) : Option (List (List Char)) :=
  let address := (words sentence).dropWhile (!isHouseNumber ·)
  if 3 ≤ address.length then some address else none

end Address

/-- The first address of a text, its words joined by single spaces. -/
def address? (text : String) : Option String :=
  ((Address.sentences text.toList).findSome? Address.ofSentence).map fun address =>
    " ".intercalate (address.map String.ofList)

end LazyEngine
