/-
The numbers of JSON texts.

A number is a whole number, to which a sign, a fraction and an exponent may be added. It is read to
its end where something comes next that cannot belong to it:

* `IsNumber` — the characters are a number;
* `Stops` — what comes next does not belong to a number;
* **`scanNumber_of_parts`** — a number in front of something that stops it is read as a number;
* **`numeral_toDigits`** — the digits of an integer of 64 bits are read as what they write.
-/
import LazyEngine.Json.Token
import LazyEngine.Proofs.Text.Cutting
import Mathlib.Tactic.IntervalCases
import Mathlib.Tactic.Positivity

namespace LazyEngine.Json

/-- One digit or more. -/
structure IsDigits (cs : List Char) : Prop where
  nonempty : cs ≠ []
  digits : ∀ c ∈ cs, c.isDigit = true

/-- Digits that do not begin with a zero, or a zero alone. -/
structure IsWhole (cs : List Char) : Prop extends IsDigits cs where
  no_zero : cs.head? = some '0' → cs = ['0']

inductive IsSign : List Char → (negative : Bool) → Prop
  | minus : IsSign ['-'] true
  | none : IsSign [] false

/-- A point and digits, or nothing. -/
inductive IsFraction : List Char → Option (List Char) → Prop
  | none : IsFraction [] none
  | some {digits : List Char} : IsDigits digits → IsFraction ('.' :: digits) (some digits)

/-- An exponent, whose sign may also be a plus, or nothing. -/
inductive IsExponent : List Char → Option (Bool × List Char) → Prop
  | none : IsExponent [] none
  | some {e : Char} {sign digits : List Char} {negative : Bool} : e = 'e' ∨ e = 'E' →
      IsSign sign negative → IsDigits digits →
      IsExponent (e :: (sign ++ digits)) (some (negative, digits))
  | plus {e : Char} {digits : List Char} : e = 'e' ∨ e = 'E' → IsDigits digits →
      IsExponent (e :: '+' :: digits) (some (false, digits))

/-- The parts of a number in order, and what they are. -/
inductive IsNumber : List Char → Written → Prop
  | intro {sign whole fraction exponent : List Char} {negative : Bool}
      {f : Option (List Char)} {e : Option (Bool × List Char)} :
      IsSign sign negative → IsWhole whole → IsFraction fraction f → IsExponent exponent e →
      IsNumber (sign ++ (whole ++ (fraction ++ exponent))) ⟨negative, whole, f, e⟩

/-- Nothing that comes first here belongs to a number before it. -/
def Stops (rest : List Char) : Prop :=
  ∀ c ∈ rest.head?, c.isDigit = false ∧ c ≠ '.' ∧ c ≠ 'e' ∧ c ≠ 'E'

theorem Stops.nil : Stops [] := by
  simp [Stops]

theorem Stops.cons {c : Char} (hc : c.isDigit = false ∧ c ≠ '.' ∧ c ≠ 'e' ∧ c ≠ 'E')
    (rest : List Char) : Stops (c :: rest) := by
  simpa [Stops] using hc

theorem Stops.append {cs rest : List Char} (hcs : Stops cs) (hrest : Stops rest) :
    Stops (cs ++ rest) := by
  cases cs with
  | nil => exact hrest
  | cons c cs => exact .cons (hcs c rfl) _

/-- Digits are taken up to something that is not a digit. -/
theorem takeWhile_digits {digits rest : List Char} (hdigits : IsDigits digits)
    (hrest : ∀ c ∈ rest.head?, c.isDigit = false) :
    (digits ++ rest).takeWhile Char.isDigit = digits ∧
      (digits ++ rest).dropWhile Char.isDigit = rest :=
  ⟨Text.takeWhile_boundary hdigits.digits hrest, Text.dropWhile_boundary hdigits.digits hrest⟩

theorem IsDigits.head? {digits : List Char} (h : IsDigits digits) (rest : List Char) :
    ∃ c, (digits ++ rest).head? = some c ∧ c.isDigit = true := by
  obtain ⟨c, cs, rfl⟩ := List.exists_cons_of_ne_nil h.nonempty
  exact ⟨c, rfl, h.digits c (by simp)⟩

section Scan

variable {whole fraction exponent rest : List Char} {f : Option (List Char)}
  {e : Option (Bool × List Char)}

/-- An exponent does not begin with a digit or a point, and neither does what stops a number. -/
theorem IsExponent.head? (h : IsExponent exponent e) (hrest : Stops rest) :
    ∀ c ∈ (exponent ++ rest).head?, c.isDigit = false ∧ c ≠ '.' := by
  intro c hc
  cases h with
  | none => exact ⟨(hrest c hc).1, (hrest c hc).2.1⟩
  | some he | plus he =>
    obtain rfl := Option.some.inj hc
    rcases he with rfl | rfl <;> decide

theorem IsFraction.head? (h : IsFraction fraction f) (he : IsExponent exponent e)
    (hrest : Stops rest) : ∀ c ∈ (fraction ++ (exponent ++ rest)).head?, c.isDigit = false := by
  intro c hc
  cases h with
  | none => exact (he.head? hrest c hc).1
  | some _ =>
    obtain rfl := Option.some.inj hc
    decide

/-- What is read behind the fraction of a number. -/
def scanExponent (negative : Bool) (whole : List Char) (fraction : Option (List Char))
    (rest : List Char) : Token × List Char :=
  if rest.head? == some 'e' || rest.head? == some 'E' then
    let rest := rest.drop 1
    let signed := rest.head? == some '+' || rest.head? == some '-'
    let below := rest.head? == some '-'
    let rest := if signed then rest.drop 1 else rest
    let digits := rest.takeWhile Char.isDigit
    let rest := rest.dropWhile Char.isDigit
    if digits.isEmpty then brokenOff rest
    else (.number (Written.numeral ⟨negative, whole, fraction, some (below, digits)⟩), rest)
  else (.number (Written.numeral ⟨negative, whole, fraction, none⟩), rest)

theorem scanExponent_of_isExponent (negative : Bool) (whole : List Char)
    (f : Option (List Char)) (h : IsExponent exponent e) (hrest : Stops rest) :
    scanExponent negative whole f (exponent ++ rest)
      = (.number (Written.numeral ⟨negative, whole, f, e⟩), rest) := by
  cases h with
  | none =>
    have he : (rest.head? == some 'e' || rest.head? == some 'E') = false := by
      cases rest with
      | nil => rfl
      | cons c rest => simpa using (hrest c rfl).2.2
    simp only [List.nil_append, scanExponent, he, Bool.false_eq_true, if_false]
  | @some e sign digits below he hsign hdigits =>
    have hhead : ((e :: (sign ++ digits) ++ rest).head? == some 'e' ||
        (e :: (sign ++ digits) ++ rest).head? == some 'E') = true := by
      simpa using he
    obtain ⟨htake, hdrop⟩ := takeWhile_digits hdigits fun c hc => (hrest c hc).1
    obtain ⟨c, hc, hdigit⟩ := hdigits.head? rest
    -- Without a sign the exponent begins with a digit.
    have hplus : c ≠ '+' := by rintro rfl; cases hdigit
    have hminus : c ≠ '-' := by rintro rfl; cases hdigit
    have hbelow : (c == '-') = false := by simpa using hminus
    simp only [scanExponent, hhead, if_true]
    cases hsign with
    | minus => simp [htake, hdrop, hdigits.nonempty]
    | none => simp [hc, hplus, hbelow, htake, hdrop, hdigits.nonempty]
  | @plus e digits he hdigits =>
    have hhead : ((e :: '+' :: digits ++ rest).head? == some 'e' ||
        (e :: '+' :: digits ++ rest).head? == some 'E') = true := by
      simpa using he
    obtain ⟨htake, hdrop⟩ := takeWhile_digits hdigits fun c hc => (hrest c hc).1
    simp only [scanExponent, hhead, if_true]
    simp [htake, hdrop, hdigits.nonempty]

/-- A number is read in three parts. -/
theorem scanNumber_eq (negative : Bool) (cs : List Char) :
    scanNumber negative cs =
      let whole := cs.takeWhile Char.isDigit
      let rest := cs.dropWhile Char.isDigit
      if whole.isEmpty then brokenOff rest
      else if whole.head? == some '0' && 1 < whole.length then (.broken .illFormed .illFormed, [])
      else if rest.head? == some '.' then
        let digits := (rest.drop 1).takeWhile Char.isDigit
        let rest := (rest.drop 1).dropWhile Char.isDigit
        if some digits == some [] then brokenOff rest
        else scanExponent negative whole (some digits) rest
      else scanExponent negative whole none rest := by
  rw [scanNumber]
  dsimp only
  split
  · rfl
  split
  · rfl
  cases (cs.dropWhile Char.isDigit).head? == some '.' <;> rfl

/-- **A number is read to its end.** -/
theorem scanNumber_of_parts (negative : Bool) (hwhole : IsWhole whole)
    (hfraction : IsFraction fraction f) (hexponent : IsExponent exponent e) (hrest : Stops rest) :
    scanNumber negative (whole ++ (fraction ++ (exponent ++ rest)))
      = (.number (Written.numeral ⟨negative, whole, f, e⟩), rest) := by
  obtain ⟨htake, hdrop⟩ :=
    takeWhile_digits hwhole.toIsDigits (hfraction.head? hexponent hrest)
  -- More than one digit do not begin with a zero.
  have hzero : (whole.head? == some '0' && decide (1 < whole.length)) = false := by
    by_contra h
    simp only [Bool.not_eq_false, Bool.and_eq_true, beq_iff_eq, decide_eq_true_eq] at h
    rw [hwhole.no_zero h.1] at h
    simp at h
  have hempty : whole.isEmpty = false := by simp [hwhole.nonempty]
  rw [scanNumber_eq]
  simp only [htake, hdrop, hempty, hzero, Bool.false_eq_true, if_false]
  cases hfraction with
  | none =>
    -- Neither an exponent nor what stops a number begins with a point.
    have hpoint : ((exponent ++ rest).head? == some '.') = false := by
      by_contra h
      simp only [Bool.not_eq_false, beq_iff_eq] at h
      exact (hexponent.head? hrest _ h).2 rfl
    simp only [List.nil_append, hpoint, Bool.false_eq_true, if_false]
    exact scanExponent_of_isExponent negative whole _ hexponent hrest
  | @some digits hdigits =>
    obtain ⟨htake, hdrop⟩ :=
      takeWhile_digits hdigits fun c hc => (hexponent.head? hrest c hc).1
    have hempty : (some digits == some []) = false := by simp [hdigits.nonempty]
    simp only [List.cons_append, List.head?_cons, BEq.rfl, if_true, List.drop_one, List.tail_cons,
      htake, hdrop, hempty, Bool.false_eq_true, if_false]
    exact scanExponent_of_isExponent negative whole _ hexponent hrest

end Scan

/-! ### Integers -/

theorem digit_eq (c : Char) : digit c = c.toNat - '0'.toNat := rfl

/-- Digits are taken in up to the end if their number is within the bound. -/
theorem takeDigits_eq (cs : List Char) (before taken : Nat)
    (h : Nat.ofDigitChars 10 cs before ≤ significandBound) :
    takeDigits before taken cs = (Nat.ofDigitChars 10 cs before, taken + cs.length) := by
  induction cs generalizing before taken with
  | nil => simp [takeDigits]
  | cons c cs ih =>
    rw [Nat.ofDigitChars_cons, Nat.mul_comm, ← digit_eq] at h
    have hnext : before * 10 + digit c ≤ significandBound := by
      rw [Nat.ofDigitChars_eq_ofDigitChars_zero] at h
      have : before * 10 + digit c ≤ 10 ^ cs.length * (before * 10 + digit c) :=
        Nat.le_mul_of_pos_left _ (by positivity)
      omega
    rw [takeDigits]
    simp only [hnext, if_true]
    rw [ih _ _ h, Nat.ofDigitChars_cons, Nat.mul_comm before, ← digit_eq, Nat.mul_comm 10]
    simp; omega

/-- A number that is not a single digit does not begin with zero. -/
theorem head?_toDigits {n : Nat} (hn : 0 < n) : (Nat.toDigits 10 n).head? ≠ some '0' := by
  induction n using Nat.strongRecOn with
  | ind n ih =>
    by_cases hsmall : n < 10
    · rw [Nat.toDigits_of_lt_base hsmall]
      interval_cases n <;> decide
    · rw [Nat.toDigits_of_base_le (by norm_num) (by omega),
        List.head?_append_of_ne_nil _ Nat.toDigits_ne_nil]
      exact ih _ (by omega) (by omega)

theorem isWhole_toDigits (n : Nat) : IsWhole (Nat.toDigits 10 n) where
  nonempty := Nat.toDigits_ne_nil
  digits := fun _ hc => Nat.isDigit_of_mem_toDigits (by norm_num) (by norm_num) hc
  no_zero := by
    intro hhead
    obtain rfl : n = 0 := by
      by_contra h
      exact head?_toDigits (Nat.pos_of_ne_zero h) hhead
    rfl

/-- **An integer of 64 bits** without sign, fraction and exponent is seen as what it is. -/
theorem numeral_toDigits {n : Nat} (hn : n ≤ significandBound) :
    Written.numeral ⟨false, Nat.toDigits 10 n, none, none⟩ = .natural n := by
  have htake : takeDigits 0 0 (Nat.toDigits 10 n) = (n, (Nat.toDigits 10 n).length) := by
    rw [takeDigits_eq _ 0 0 (by simpa using hn), Nat.ofDigitChars_ten_toDigits, Nat.zero_add]
  simp [Written.numeral, htake, takeDigits]

end LazyEngine.Json
