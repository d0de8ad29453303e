import PlainSteps.Number.Binary64
import PlainSteps.Text.Basic

/-! # Numbers as text

Three ways to write a number of double precision: with fixed decimal places, with the fewest digits
that read back as the same number, and with at most a given count of significant digits.
-/

namespace PlainSteps.Binary64

attribute [local instance (high)] instPowNat

/-- A minus sign, if one is due. -/
def signText (negative : Bool) : Text := if negative then ['-'] else []

/-- The texts of what is no finite number. -/
def specialText : Binary64 → Text
  | infinite s => signText s ++ "inf"
  | _ => "nan"

/-- A number with a fixed count of decimal places, rounded once from its exact value. -/
def fixed (places : Nat) : Binary64 → Text
  | finite s m e =>
    let r := ratio m e
    let n := roundDiv (r.1 * 10 ^ places) r.2
    let whole := Text.ofNat (n / 10 ^ places)
    let part := Text.ofNat (n % 10 ^ places)
    signText s ++ whole ++
      if places == 0 then [] else '.' :: (List.replicate (places - part.length) '0' ++ part)
  | x => x.specialText

/-! ### Fewest digits -/

/-- The decimal exponent of a positive ratio: the place of its first digit. -/
def decimalExponent (num den : Nat) : Int :=
  let guess : Int := ((Nat.toDigits 10 num).length : Int) - ((Nat.toDigits 10 den).length : Int)
  let atLeast := fun (k : Int) => if k < 0 then decide (den ≤ num * 10 ^ k.natAbs)
    else decide (den * 10 ^ k.natAbs ≤ num)
  if atLeast guess then guess else guess - 1

/-- The value on the grid of `10 ^ exponent` that is nearest to `m · 2 ^ e` among those that read
back as it. -/
def onGrid? (m : Nat) (e : Int) (exponent : Int) : Option Nat :=
  let r := ratio m e
  let (num, den) := if exponent < 0 then (r.1 * 10 ^ exponent.natAbs, r.2)
    else (r.1, r.2 * 10 ^ exponent.natAbs)
  let readsBack := fun (d : Nat) => ofDecimal false d exponent == finite false m e
  let low := num / den
  let near := roundDiv num den
  let far := if near == low then low + 1 else low
  if readsBack near then some near else if readsBack far then some far else none

/-- The first grid, from coarse to fine, that holds a value which reads back. -/
def firstGrid (m : Nat) (e : Int) (top : Int) : Nat → Nat → Nat × Int
  | 0, _ => (m, e)
  | left + 1, count =>
    let exponent := top - count + 1
    match onGrid? m e exponent with
    | some d => (d, exponent)
    | none => firstGrid m e top left (count + 1)

/-- Drops the zeros at the end of a run of digits. -/
def stripZeros (digits : Text) : Text := Text.trimRightOf (· == '0') digits

/-- Digits with a point after the first `place` of them, or zeros where there are none. -/
def positional (digits : Text) (place : Int) : Text :=
  if place ≤ 0 then "0.".toList ++ List.replicate place.natAbs '0' ++ digits
  else
    let n := place.toNat
    if digits.length ≤ n then digits ++ List.replicate (n - digits.length) '0'
    else digits.take n ++ '.' :: digits.drop n

/-- An exponent with its sign and at least two digits. -/
def exponentText (k : Int) : Text :=
  'e' :: (if k < 0 then '-' else '+') :: Text.ofIntPadded 2 k.natAbs

/-- Digits in scientific notation. -/
def scientific (digits : Text) (k : Int) : Text :=
  match digits with
  | [] => []
  | [d] => d :: exponentText k
  | d :: ds => d :: '.' :: ds ++ exponentText k

/-- Where positional notation ends and whether a whole number keeps a fraction. -/
structure Style where
  /-- Numbers below `10 ^ least` are written scientifically. -/
  least : Int
  /-- Numbers from `10 ^ bound` on are written scientifically. -/
  bound : Int
  /-- Whether a whole number ends in `.0`. -/
  pointZero : Bool

/-- Significant digits, of which the first stands at `10 ^ k`, in a style. -/
def layOut (style : Style) (digits : Text) (k : Int) : Text :=
  if k < style.least || style.bound ≤ k then scientific digits k
  else
    let t := positional digits (k + 1)
    if style.pointZero && !t.contains '.' then t ++ ".0" else t

/-- The style of a number with the fewest digits that read back. -/
def shortestStyle : Style := ⟨-4, 16, true⟩

/-- A number with the fewest digits that read back as the same number. -/
def shortest : Binary64 → Text
  | finite s 0 _ => signText s ++ "0.0"
  | finite s m e =>
    let r := ratio m e
    let k := decimalExponent r.1 r.2
    let (d, exponent) := firstGrid m e k 17 1
    let digits := Text.ofNat d
    signText s ++ layOut shortestStyle (stripZeros digits) (exponent + digits.length - 1)
  | x => x.specialText

/-- A number with at most `count` significant digits and no zeros at its end. -/
def significant (count : Nat) : Binary64 → Text
  | finite s 0 _ => signText s ++ "0"
  | finite s m e =>
    let r := ratio m e
    let k := decimalExponent r.1 r.2
    let exponent := k - count + 1
    let (num, den) := if exponent < 0 then (r.1 * 10 ^ exponent.natAbs, r.2)
      else (r.1, r.2 * 10 ^ exponent.natAbs)
    let digits := Text.ofNat (roundDiv num den)
    signText s ++ layOut ⟨-4, count, false⟩ (stripZeros digits) (exponent + digits.length - 1)
  | x => x.specialText

example : shortest (ofDecimal false 1 (-1)) = "0.1".toList := by decide +kernel
example : shortest (ofInt 33) = "33.0".toList := by decide +kernel
example : shortest (ofDecimal false 1 16) = "1e+16".toList := by decide +kernel
example : fixed 6 (ofRatio false 100 3) = "33.333333".toList := by decide +kernel

end PlainSteps.Binary64
