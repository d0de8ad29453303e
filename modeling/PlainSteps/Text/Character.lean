import PlainSteps.Text.WordTable
import PlainSteps.Text.DigitTable
import PlainSteps.Text.LowerTable
import PlainSteps.Text.HiddenTable

/-! # Classes of characters

The classes that reading plain-language text needs: white space, line breaks, word characters,
decimal digits, lower case and equality up to case. ASCII is decided by formulas, the rest by
tables.
-/

namespace PlainSteps.Text

/-- Whether a code point lies in one of the inclusive ranges, which stand in increasing order. -/
def inRanges (n : Nat) : List (Nat × Nat) → Bool
  | [] => false
  | (first, last) :: rest => if n < first then false else n ≤ last || inRanges n rest

/-- White space: the separators of Unicode and the controls that act as one. -/
def isBlank (c : Char) : Bool :=
  let n := c.toNat
  n == 32 || (9 ≤ n && n ≤ 13) || (28 ≤ n && n ≤ 31) || n == 0x85 || n == 0xa0 || n == 0x1680
    || (0x2000 ≤ n && n ≤ 0x200a) || n == 0x2028 || n == 0x2029 || n == 0x202f || n ==
      0x205f || n == 0x3000

/-- Characters that end a line. A carriage return with a line feed after it ends one line, not
two. -/
def isLineBreak (c : Char) : Bool :=
  let n := c.toNat
  (10 ≤ n && n ≤ 13) || (28 ≤ n && n ≤ 30) || n == 0x85 || n == 0x2028 || n == 0x2029

/-- Letters, digits, marks of number and the underscore. -/
def isWord (c : Char) : Bool :=
  let n := c.toNat
  if n < 128 then c.isAlphanum || c == '_' else inRanges n wordRanges

/-- The value of a decimal digit of any script. -/
def digitValue? (c : Char) : Option Nat :=
  let n := c.toNat
  if n < 128 then if c.isDigit then some (n - 48) else none
  else (zeroDigits.find? fun z => z ≤ n && n ≤ z + 9).map (n - ·)

/-- Whether a character is a decimal digit of any script. -/
def isDigit (c : Char) : Bool := (digitValue? c).isSome

/-! ### Case -/

/-- The distance to the lower case form, by the run that holds the code point. -/
def lowerDistance (n : Nat) : List (Nat × Nat × Nat × Int) → Int
  | [] => 0
  | (first, last, step, distance) :: rest =>
    if n < first then 0
    else if n ≤ last && (n - first) % step == 0 then distance
    else lowerDistance n rest

/-- The lower case form of a character, where that is one character. -/
def lowerChar (c : Char) : Char :=
  let n := c.toNat
  if n < 128 then (if 65 ≤ n && n ≤ 90 then Char.ofNat (n + 32) else c)
  else Char.ofNat (n + lowerDistance n lowerRuns).toNat

/-- Lower case letters that equal another letter up to case, beside the representative of their
class. -/
def twins : List (Nat × Nat) :=
  [(0x131, 0x69), (0x17f, 0x73), (0x3bc, 0xb5), (0x3b9, 0x345), (0x1fbe, 0x345), (0x1fd3, 0x390),
   (0x1fe3, 0x3b0), (0x3d0, 0x3b2), (0x3f5, 0x3b5), (0x3d1, 0x3b8), (0x3f0, 0x3ba), (0x3d6, 0x3c0),
   (0x3f1, 0x3c1), (0x3c3, 0x3c2), (0x3d5, 0x3c6), (0x1c80, 0x432),
     (0x1c81, 0x434), (0x1c82, 0x43e),
   (0x1c83, 0x441), (0x1c84, 0x442), (0x1c85, 0x442), (0x1c86, 0x44a),
     (0x1c87, 0x463), (0xa64b, 0x1c88),
   (0x1e9b, 0x1e61), (0xfb06, 0xfb05)]

/-- One character for each class of letters that are equal up to case. -/
def fold (c : Char) : Char :=
  let l := lowerChar c
  if l.toNat < 128 then l
  else match twins.find? (·.1 == l.toNat) with
    | some (_, n) => Char.ofNat n
    | none => l

/-- Equality of two characters up to case. -/
def sameLetter (a b : Char) : Bool := fold a == fold b

/-- Letters that have a case and are not case-ignorable. -/
def isCased (c : Char) : Bool :=
  let n := c.toNat
  if n < 128 then c.isAlpha else inRanges n casedRanges

/-- Characters that stand inside a word without having a case, such as an apostrophe or an
accent. -/
def isCaseIgnorable (c : Char) : Bool :=
  let n := c.toNat
  if n < 128 then n == 0x27 || n == 0x2e || n == 0x3a || n == 0x5e || n == 0x60
    else inRanges n ignorableRanges

/-- Characters that a quoted text shows as an escape. -/
def isHidden (c : Char) : Bool :=
  let n := c.toNat
  if n < 128 then n < 32 || n == 127 else inRanges n hiddenRanges

example : isBlank '\u3000' = true ∧ isBlank '\u200b' = false := by decide
example : digitValue? '٣' = some 3 := by decide
example : sameLetter 'K' '\u212a' = true ∧ sameLetter 's' 'ſ' = true ∧ sameLetter 'i' 'İ' = true :=
  by decide

end PlainSteps.Text
