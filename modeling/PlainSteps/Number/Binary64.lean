/-! # Numbers of double precision

A finite number is `m · 2 ^ e` with at most 53 binary digits in `m`. Every operation computes the
exact result as a ratio of naturals and rounds it once, to the nearest such number, a tie going to
the even `m`.
-/

namespace PlainSteps

/-- The nearest whole number to a ratio; a half goes to the even neighbour. -/
def roundDiv (num den : Nat) : Nat :=
  let q := num / den
  let r := num % den
  if 2 * r > den || (2 * r == den && q % 2 == 1) then q + 1 else q

/-- A number of double precision. -/
inductive Binary64 where
  /-- The number `m · 2 ^ e`, or its negative. -/
  | finite (negative : Bool) (m : Nat) (e : Int)
  | infinite (negative : Bool)
  | nan
  deriving DecidableEq, Repr

namespace Binary64

-- a power of a natural number is `Nat.pow`, whatever other instances are in scope
attribute [local instance (high)] instPowNat

/-- The least exponent of a finite number. -/
def minExponent : Int := -1074

/-- The greatest exponent of a finite number. -/
def maxExponent : Int := 971

/-- The ratio `num / (den · 2 ^ e)`, as a pair. -/
def scaled (num den : Nat) (e : Int) : Nat × Nat :=
  if e < 0 then (num * 2 ^ e.natAbs, den) else (num, den * 2 ^ e.natAbs)

/-- The number nearest to a ratio, with the given sign. -/
def ofRatio (negative : Bool) (num den : Nat) : Binary64 :=
  if num == 0 then finite negative 0 minExponent
  else
    let e : Int := (num.log2 : Int) - (den.log2 : Int) - 52
    let first := scaled num den e
    let e := if first.1 < 2 ^ (52 : Nat) * first.2 then e - 1 else e
    let e := if e < minExponent then minExponent else e
    let ratio := scaled num den e
    let m := roundDiv ratio.1 ratio.2
    let (m, e) := if m == 2 ^ (53 : Nat) then (2 ^ (52 : Nat), e + 1) else (m, e)
    if e > maxExponent then infinite negative else finite negative m e

/-- The size of `m · 2 ^ e` as a ratio. -/
def ratio (m : Nat) (e : Int) : Nat × Nat :=
  if e < 0 then (m, 2 ^ e.natAbs) else (m * 2 ^ e.natAbs, 1)

/-- The number zero. -/
def zero : Binary64 := finite false 0 minExponent

/-- The number nearest to a whole number. -/
def ofInt (i : Int) : Binary64 := ofRatio (i < 0) i.natAbs 1

/-- The number nearest to `digits · 10 ^ exponent`. -/
def ofDecimal (negative : Bool) (digits : Nat) (exponent : Int) : Binary64 :=
  let size : Int := (Nat.toDigits 10 digits).length + exponent
  if digits == 0 || size < -330 then finite negative 0 minExponent
  else if size > 310 then infinite negative
  else if exponent < 0 then ofRatio negative digits (10 ^ exponent.natAbs)
  else ofRatio negative (digits * 10 ^ exponent.natAbs) 1

/-- Whether a number carries a minus sign. -/
def isNegative : Binary64 → Bool
  | finite s _ _ => s
  | infinite s => s
  | nan => false

/-- Whether a number is zero, of either sign. -/
def isZero : Binary64 → Bool
  | finite _ m _ => m == 0
  | _ => false

/-- The sum. -/
def add : Binary64 → Binary64 → Binary64
  | nan, _ => nan
  | _, nan => nan
  | infinite s, infinite t => if s == t then infinite s else nan
  | infinite s, finite .. => infinite s
  | finite .., infinite t => infinite t
  | finite s m e, finite t n f =>
    if m == 0 && n == 0 then finite (s && t) 0 minExponent
    else
      let low := if e < f then e else f
      let signed := fun (s : Bool) (m : Nat) (e : Int) =>
        let size : Int := (m * 2 ^ (e - low).toNat : Nat)
        if s then -size else size
      let total := signed s m e + signed t n f
      let r := ratio total.natAbs low
      ofRatio (total < 0) r.1 r.2

/-- The product. -/
def mul : Binary64 → Binary64 → Binary64
  | nan, _ => nan
  | _, nan => nan
  | infinite s, y => if y.isZero then nan else infinite (s != y.isNegative)
  | x, infinite t => if x.isZero then nan else infinite (x.isNegative != t)
  | finite s m e, finite t n f =>
    let r := ratio (m * n) (e + f)
    ofRatio (s != t) r.1 r.2

/-- The quotient by a number that is not zero. -/
def div : Binary64 → Binary64 → Binary64
  | nan, _ => nan
  | _, nan => nan
  | infinite _, infinite _ => nan
  | infinite s, y => infinite (s != y.isNegative)
  | x, infinite t => finite (x.isNegative != t) 0 minExponent
  | finite s m e, finite t n f =>
    if n == 0 then nan
    else
      let r := scaled m n (f - e)
      ofRatio (s != t) r.1 r.2

/-- The whole number left when the fraction is cut off; nothing for an infinity or no number. -/
def truncate? : Binary64 → Option Int
  | finite s m e =>
    let r := ratio m e
    let size : Int := (r.1 / r.2 : Nat)
    some (if s then -size else size)
  | _ => none

/-- Whether a number is finite and whole. -/
def isWhole : Binary64 → Bool
  | finite _ m e => let r := ratio m e; r.1 % r.2 == 0
  | _ => false

/-- The number nearest to a number rounded to decimal places, a half going to the even digit. -/
def roundTo (places : Nat) : Binary64 → Binary64
  | finite s m e =>
    let r := ratio m e
    ofRatio s (roundDiv (r.1 * 10 ^ places) r.2) (10 ^ places)
  | x => x

example : ofDecimal false 1 (-1) = finite false 0x1999999999999a (-56) := by decide
example :
    (add (ofDecimal false 1 (-1)) (ofDecimal false 2 (-1))) =
      ofDecimal false 30000000000000004 (-17) := by
  decide +kernel
example : truncate? (mul (ofDecimal false 1001 (-3)) (ofInt 1000)) = some 1000 := by decide +kernel

end Binary64

end PlainSteps
