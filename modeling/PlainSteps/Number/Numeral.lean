import PlainSteps.Number.Notation
import PlainSteps.Text.Quoted

/-! # Reading numbers

Whole numbers and decimal fractions as people write them. Whole numbers may use the digits of any
script, white space around them and single underscores between digits; fractions are read to the
nearest number of double precision.
-/

namespace PlainSteps.Numeral

/-- Digits, each by its value, with single underscores between them, as the values in order. -/
def digitValues (value? : Char → Option Nat) : Text → Option (List Nat)
  | [] => none
  | [c] => (value? c).map ([·])
  | c :: '_' :: rest => do return (← value? c) :: (← digitValues value? rest)
  | c :: rest => do return (← value? c) :: (← digitValues value? rest)

/-- The number that digits write. -/
def ofDigits (digits : List Nat) : Nat := digits.foldl (fun n d => n * 10 + d) 0

/-- A sign in front of a text, and what follows it. -/
def splitSign : Text → Bool × Text
  | '-' :: cs => (true, cs)
  | '+' :: cs => (false, cs)
  | cs => (false, cs)

/-- The value of an ASCII digit. -/
def asciiValue? (c : Char) : Option Nat := if c.isDigit then some (c.toNat - 48) else none

/-- Why a text is not read as a whole number. -/
inductive WholeError where
  | invalid (t : Text)
  | tooLong (digits : Nat)
  deriving DecidableEq, Repr

/-- The message for a text that is not read as a whole number. -/
def WholeError.message : WholeError → Text
  | invalid t => "invalid literal for int() with base 10: ".toList ++ Text.quoted t
  | tooLong n =>
    "Exceeds the limit (4300 digits) for integer string conversion: value has ".toList ++
      Text.ofNat n ++ " digits; use sys.set_int_max_str_digits() to increase the limit"

/-- The greatest count of digits a whole number may have. -/
def maxDigits : Nat := 4300

/-- A whole number, in the digits of any script. -/
def whole (t : Text) : Except WholeError Int :=
  let (negative, body) := splitSign (Text.trim t)
  match digitValues Text.digitValue? body with
  | none => .error (.invalid t)
  | some digits =>
    if digits.length > maxDigits then .error (.tooLong digits.length)
    else
      let n : Int := ofDigits digits
      .ok (if negative then -n else n)

/-- Digits, a point and further digits, in the digits of any script, as a number of double
precision. -/
def fraction (t : Text) : Binary64 :=
  let before := t.takeWhile (· != '.')
  let after := t.drop (before.length + 1)
  let values := fun (t : Text) => t.filterMap Text.digitValue?
  Binary64.ofDecimal false (ofDigits (values before ++ values after)) (-(values after).length)

/-- A decimal number with an optional sign, fraction and exponent, in ASCII digits; single
underscores may stand between digits. -/
def decimal? (t : Text) : Option Binary64 :=
  let (negative, body) := splitSign t
  let mantissa := body.takeWhile fun c => c != 'e' && c != 'E'
  let tail := body.drop mantissa.length
  let before := mantissa.takeWhile (· != '.')
  let after := mantissa.drop (before.length + 1)
  let digits := fun (t : Text) => if t.isEmpty then some [] else digitValues asciiValue? t
  let exponent? : Option Int :=
    match tail with
    | [] => some 0
    | _ :: cs =>
      let (down, ds) := splitSign cs
      (digitValues asciiValue? ds).map fun ds => let n : Int := ofDigits ds; if down then -n else n
  match digits before, digits after, exponent? with
  | some a, some b, some k =>
    if a.isEmpty && b.isEmpty then none
    else some (Binary64.ofDecimal negative (ofDigits (a ++ b)) (k - b.length))
  | _, _, _ => none

/-- A decimal number, or one of the names of infinity and of what is no number. -/
def float? (t : Text) : Option Binary64 :=
  let t := Text.trim t
  let (negative, body) := splitSign t
  let name := Text.lower body
  if name == "inf".toList || name == "infinity".toList then some (.infinite negative)
  else if name == "nan".toList then some .nan
  else decimal? t

example : whole " +1_000 " = .ok 1000 := rfl
example : whole "1__0" = .error (.invalid "1__0") := rfl
example : fraction "0.5" = Binary64.ofRatio false 1 2 := by decide +kernel

end PlainSteps.Numeral
