import PlainSteps.Json.Basic

/-! # Reading records from JSON

A record is read field by field, in the order in which its fields are declared, and every mismatch
is reported with the path to the value at fault. Numbers and switches are read leniently: a numeral
in a string is a number, `"yes"` is true.
-/

namespace PlainSteps

/-- A step of the path from a record to a value inside it. -/
inductive Place where
  | key (name : Text)
  | index (n : Nat)
  deriving DecidableEq, Repr

/-- What is wrong with a value. -/
inductive Mismatch where
  | missing
  | text
  | whole
  | wholeNumeral
  | wholeOfFraction
  | finite
  | wholeSize
  | switch
  | switchWord
  | number
  | numeral
  | tuple
  | list
  | dictionary
  | record (name : Text)
  | oneOf (allowed : List Text)
  | frozen
  deriving DecidableEq, Repr

namespace Mismatch

/-- The short name of a mismatch. -/
def tag : Mismatch → Text
  | missing => "missing"
  | text => "string_type"
  | whole => "int_type"
  | wholeNumeral => "int_parsing"
  | wholeOfFraction => "int_from_float"
  | finite => "finite_number"
  | wholeSize => "int_parsing_size"
  | switch => "bool_type"
  | switchWord => "bool_parsing"
  | number => "float_type"
  | numeral => "float_parsing"
  | tuple => "tuple_type"
  | list => "list_type"
  | dictionary => "dict_type"
  | record _ => "model_type"
  | oneOf _ => "literal_error"
  | frozen => "frozen_instance"

/-- Alternatives between quotes, the last one after an "or". -/
def alternatives : List Text → Text
  | [] => []
  | [t] => '\x27' :: t ++ ['\x27']
  | [t, u] => '\x27' :: t ++ "' or '".toList ++ u ++ ['\x27']
  | t :: rest => '\x27' :: t ++ "', ".toList ++ alternatives rest

/-- The words for a mismatch. -/
def message : Mismatch → Text
  | missing => "Field required"
  | text => "Input should be a valid string"
  | whole => "Input should be a valid integer"
  | wholeNumeral => "Input should be a valid integer, unable to parse string as an integer"
  | wholeOfFraction => "Input should be a valid integer, got a number with a fractional part"
  | finite => "Input should be a finite number"
  | wholeSize => "Unable to parse input string as an integer, exceeded maximum size"
  | switch => "Input should be a valid boolean"
  | switchWord => "Input should be a valid boolean, unable to interpret input"
  | number => "Input should be a valid number"
  | numeral => "Input should be a valid number, unable to parse string as a number"
  | tuple => "Input should be a valid tuple"
  | list => "Input should be a valid list"
  | dictionary => "Input should be a valid dictionary"
  | record name => "Input should be a valid dictionary or instance of ".toList ++ name
  | oneOf allowed => "Input should be ".toList ++ alternatives allowed
  | frozen => "Instance is frozen"

end Mismatch

/-- A mismatch and the path to it. -/
structure Issue where
  mismatch : Mismatch
  path : List Place
  deriving DecidableEq, Repr

/-- A value that was read, or all that is wrong with it. -/
inductive Checked (α : Type) where
  | pass (a : α)
  | fail (issues : List Issue)
  deriving Repr

namespace Checked

/-- The issues of a reading, none if it passed. -/
def issues {α : Type} : Checked α → List Issue
  | pass _ => []
  | fail is => is

/-- The value read, if the reading passed. -/
def value? {α : Type} : Checked α → Option α
  | pass a => some a
  | fail _ => none

/-- Changes the value read. -/
def map {α β : Type} (f : α → β) : Checked α → Checked β
  | pass a => pass (f a)
  | fail is => fail is

/-- Two readings side by side: the issues of both are kept, those of the first in front. -/
def both {α β γ : Type} (f : α → β → γ) : Checked α → Checked β → Checked γ
  | pass a, pass b => pass (f a b)
  | x, y => fail (x.issues ++ y.issues)

instance : Applicative Checked where
  pure := pass
  map := map
  seq f x := both (fun g a => g a) f (x ())

/-- A single issue at the value itself. -/
def wrong {α : Type} (m : Mismatch) : Checked α := fail [⟨m, []⟩]

/-- A reading of a part, its issues placed below the part. -/
def below {α : Type} (place : Place) : Checked α → Checked α
  | pass a => pass a
  | fail is => fail (is.map fun i => { i with path := place :: i.path })

/-- The result as an exceptional value. -/
def toExcept {α : Type} : Checked α → Except (List Issue) α
  | pass a => .ok a
  | fail is => .error is

end Checked

namespace Schema

open Checked

/-! ### Single values -/

/-- A string, and nothing else. -/
def text : Json → Checked Text
  | .str t => pass t
  | _ => wrong .text

/-- White space around a numeral: that of Unicode, without the four separators of ASCII. -/
def isPadding (c : Char) : Bool := Text.isBlank c && !(28 ≤ c.toNat && c.toNat ≤ 31)

/-- A whole number written as a numeral, which may end in a point and zeros. -/
def wholeOfText (t : Text) : Checked Int :=
  let t := Text.trimOf isPadding t
  if t.length > Numeral.maxDigits then wrong .wholeSize
  else
    let (negative, body) := Numeral.splitSign t
    let before := body.takeWhile (· != '.')
    let after := body.drop before.length
    if !(after.drop 1).all (· == '0') then wrong .wholeNumeral
    else match Numeral.digitValues Numeral.asciiValue? before with
      | none => wrong .wholeNumeral
      | some ds =>
        let n : Int := Numeral.ofDigits ds
        pass (if negative then -n else n)

/-- Whether a whole number fits into 64 bits with a sign. -/
def isSmall (i : Int) : Bool := -0x8000000000000000 ≤ i && i < 0x8000000000000000

/-- A whole number: also a switch as zero or one, a whole fraction, or a numeral. -/
def whole : Json → Checked Int
  | .int i => pass i
  | .bool b => pass (if b then 1 else 0)
  | .float x =>
    match x.truncate? with
    | none => wrong .finite
    | some i =>
      if !x.isWhole then wrong .wholeOfFraction
      else if isSmall i then pass i else wrong .wholeSize
  | .str t => wholeOfText t
  | _ => wrong .whole

/-- The words for true and for false. -/
def switchWords : List (Text × Bool) :=
  [("1", true), ("on", true), ("t", true), ("true", true), ("y", true), ("yes", true),
   ("0", false), ("off", false), ("f", false), ("false", false), ("n", false), ("no", false)]

/-- A switch given as a whole number. -/
def switchOfInt (i : Int) : Checked Bool :=
  if i == 0 then pass false else if i == 1 then pass true
  else if isSmall i then wrong .switchWord else wrong .switch

/-- A switch: also zero or one, or one of the words for it. -/
def switch : Json → Checked Bool
  | .bool b => pass b
  | .str t =>
    match Json.lookup? (t.map Char.toLower) switchWords with
    | some b => pass b
    | none => wrong .switchWord
  | .int i => switchOfInt i
  | .float x =>
    match x.truncate? with
    | some i => if x.isWhole then switchOfInt i else wrong .switch
    | none => wrong .switch
  | _ => wrong .switch

/-- A number: also a whole number, a switch or a numeral. -/
def number : Json → Checked Binary64
  | .float x => pass x
  | .int i => pass (Binary64.ofInt i)
  | .bool b => pass (Binary64.ofInt (if b then 1 else 0))
  | .str t =>
    match Numeral.float? t with
    | some x => pass x
    | none => wrong .numeral
  | _ => wrong .number

/-- One of a fixed set of words. -/
def oneOf {α : Type} (allowed : List (Text × α)) : Json → Checked α
  | .str t =>
    match Json.lookup? t allowed with
    | some a => pass a
    | none => wrong (.oneOf (allowed.map (·.1)))
  | _ => wrong (.oneOf (allowed.map (·.1)))

/-- A value that may be null. -/
def optional {α : Type} (read : Json → Checked α) : Json → Checked (Option α)
  | .null => pass none
  | x => (read x).map some

/-! ### Values with parts -/

/-- The items of a list from a position on. -/
def itemsFrom {α : Type} (read : Json → Checked α) : Nat → List Json → Checked (List α)
  | _, [] => pass []
  | n, x :: xs => both List.cons ((read x).below (.index n)) (itemsFrom read (n + 1) xs)

/-- A list of values; `otherwise` is the mismatch of what is no list. -/
def listOr {α : Type} (otherwise : Mismatch) (read : Json → Checked α) : Json → Checked (List α)
  | .arr xs => itemsFrom read 0 xs
  | _ => wrong otherwise

/-- A list. -/
def list {α : Type} (read : Json → Checked α) : Json → Checked (List α) := listOr .list read

/-- A list of which nothing is changed later. -/
def tuple {α : Type} (read : Json → Checked α) : Json → Checked (List α) := listOr .tuple read

/-- The entries of a dictionary. -/
def entries {α : Type} (read : Json → Checked α) : Json.Members → Checked (List (Text × α))
  | [] => pass []
  | (k, x) :: rest => both (fun a as => (k, a) :: as) ((read x).below (.key k)) (entries read rest)

/-- A dictionary from texts to values. -/
def dictionary {α : Type} (read : Json → Checked α) : Json → Checked (List (Text × α))
  | .obj members => entries read members
  | _ => wrong .dictionary

/-- A record by its members. -/
def record {α : Type} (name : Text) (read : Json.Members → Checked α) : Json → Checked α
  | .obj members => read members
  | _ => wrong (.record name)

/-- A field that must be there. -/
def field {α : Type} (name : Text) (read : Json → Checked α) (members : Json.Members) : Checked α :=
  match Json.lookup? name members with
  | some x => (read x).below (.key name)
  | none => fail [⟨.missing, [.key name]⟩]

/-- A field with a value to take when it is not there. -/
def fieldOr {α : Type} (name : Text) (default : α) (read : Json → Checked α)
    (members : Json.Members) : Checked α :=
  match Json.lookup? name members with
  | some x => (read x).below (.key name)
  | none => pass default

end Schema

end PlainSteps
