/-
Writing JSON texts.

* `encode` — a text between quotes, with quotes, backslashes and control characters escaped;
* `writeObject` — an object whose values have been written, in one line or in several.
-/
import LazyEngine.Text.Quoted

namespace LazyEngine.Json

/-- One character of a string. -/
def encodeChar (c : Char) : String :=
  match c with
  | '"' => "\\\""
  | '\\' => "\\\\"
  | '\x08' => "\\b"
  | '\x0c' => "\\f"
  | '\n' => "\\n"
  | '\r' => "\\r"
  | '\t' => "\\t"
  | c =>
    if c.toNat < 0x10 then "\\u000" ++ Text.hex c.toNat
    else if c.toNat < 0x20 then "\\u00" ++ Text.hex c.toNat
    else c.toString

/-- A text as a JSON string. -/
def encode (s : String) : String :=
  "\"" ++ String.join (s.toList.map encodeChar) ++ "\""

/-- How an object is laid out. -/
inductive Layout where
  /-- In one line, without space. -/
  | compact
  /-- One member a line. -/
  | pretty
deriving DecidableEq, Repr

namespace Layout

/-- What comes before each member and after the last one. -/
def line : Layout → String
  | .compact => ""
  | .pretty => "\n"

/-- What a line with a member begins with. -/
def margin : Layout → String
  | .compact => ""
  | .pretty => "  "

/-- What comes between a colon and a value. -/
def gap : Layout → String
  | .compact => ""
  | .pretty => " "

end Layout

def writeMember (layout : Layout) (m : String × String) : String :=
  layout.margin ++ encode m.1 ++ ":" ++ layout.gap ++ m.2

/-- Write an object with some members. -/
def writeObject (layout : Layout) (members : List (String × String)) : String :=
  "\x7b" ++ layout.line ++ ("," ++ layout.line).intercalate (members.map (writeMember layout))
    ++ layout.line ++ "\x7d"

end LazyEngine.Json
