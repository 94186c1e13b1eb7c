/-
Numbers on the command line.

A number is written in decimal digits, any number of them, with an optional sign in front. Counts
take no minus sign; version codes take one, but then have to be zero.
-/

namespace LazyEngine.CommandLine

/-- The number that decimal digits write; there must be one. -/
def digits? (cs : List Char) : Option Nat :=
  if cs.isEmpty || !cs.all Char.isDigit then none
  else some (cs.foldl (fun n c => n * 10 + (c.toNat - '0'.toNat)) 0)

/-- A number without a minus sign. -/
def unsigned? (s : String) : Option Nat :=
  match s.toList with
  | '+' :: cs => digits? cs
  | cs => digits? cs

/-- A count below a bound. -/
def count? (bound : Nat) (s : String) : Option Nat :=
  (unsigned? s).filter fun n => decide (n < bound)

/-- A version code. -/
def versionCode? (s : String) : Option UInt32 :=
  match s.toList with
  | '-' :: cs => ((digits? cs).filter (· == 0)).map fun _ => 0
  | _ => (count? UInt32.size s).map UInt32.ofNat

end LazyEngine.CommandLine
