/-
Quoted texts.

Messages quote paths: double quotes around the text, a backslash before quotes and backslashes,
letters after a backslash for the common control characters, and numbers for all other characters
that are not shown as themselves.
-/
import LazyEngine.Text.Hidden

namespace LazyEngine.Text

/-- A number with sixteen digits, in lower case and without padding. -/
def hex (n : Nat) : String :=
  String.ofList (Nat.toDigits 16 n)

/-- A character inside of quotes. -/
def quotedChar (c : Char) : String :=
  match c with
  | '\x00' => "\\0"
  | '\t' => "\\t"
  | '\r' => "\\r"
  | '\n' => "\\n"
  | '\\' => "\\\\"
  | '"' => "\\\""
  | c => if isHidden c then "\\u\x7b" ++ hex c.toNat ++ "\x7d" else c.toString

def quote (s : String) : String :=
  "\"" ++ String.join (s.toList.map quotedChar) ++ "\""

end LazyEngine.Text
