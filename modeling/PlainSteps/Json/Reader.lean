import PlainSteps.Json.Basic

/-! # Reading JSON

The reader goes from left to right and refuses a text at its first fault, which it names with line,
column and position. Beside the standard's values it knows `NaN`, `Infinity` and `-Infinity`.
-/

namespace PlainSteps.Json

/-- Why a text is no JSON. -/
inductive Problem where
  | expectingValue
  | expectingName
  | expectingColon
  | expectingComma
  | extraData
  | controlCharacter
  | unterminatedString
  | invalidEscape
  | invalidUnicode
  | byteOrderMark
  /-- A whole number with more digits than are converted. -/
  | tooLong (digits : Nat)
  deriving DecidableEq, Repr

/-- The words for a problem. -/
def Problem.words : Problem → Text
  | expectingValue => "Expecting value"
  | expectingName => "Expecting property name enclosed in double quotes"
  | expectingColon => "Expecting ':' delimiter"
  | expectingComma => "Expecting ',' delimiter"
  | extraData => "Extra data"
  | controlCharacter => "Invalid control character at"
  | unterminatedString => "Unterminated string starting at"
  | invalidEscape => "Invalid \\escape"
  | invalidUnicode => "Invalid \\uXXXX escape"
  | byteOrderMark => "Unexpected UTF-8 BOM (decode using utf-8-sig)"
  | tooLong n => (Numeral.WholeError.tooLong n).message

/-- A problem, with how many characters are left from the place of the fault to the end. -/
structure Stop where
  problem : Problem
  left : Nat
  deriving DecidableEq, Repr

/-- The first fault of a text and its position. -/
structure ReadError where
  problem : Problem
  position : Nat
  line : Nat
  column : Nat
  deriving DecidableEq, Repr

/-- The message for a fault. -/
def ReadError.message (e : ReadError) : Text :=
  match e.problem with
  | .tooLong _ => e.problem.words
  | _ => e.problem.words ++ ": line " ++ Text.ofNat e.line ++ " column " ++ Text.ofNat e.column ++
      " (char " ++ Text.ofNat e.position ++ ")"

/-- Whether a text is refused for a numeral with too many digits. -/
def ReadError.isTooLong (e : ReadError) : Bool :=
  match e.problem with
  | .tooLong _ => true
  | _ => false

/-- The place of a stop in a text. -/
def Stop.placeIn (t : Text) (s : Stop) : ReadError :=
  let before := t.take (t.length - s.left)
  ⟨s.problem, before.length, before.count '\n' + 1,
    (before.reverse.takeWhile (· != '\n')).length + 1⟩

/-- Blanks between the parts of a value. -/
def isGap (c : Char) : Bool := c == ' ' || c == '\t' || c == '\n' || c == '\r'

/-- The text from the next character that is no blank. -/
def skipGap (t : Text) : Text := t.dropWhile isGap

/-- The value of a hexadecimal digit. -/
def hexValue? (c : Char) : Option Nat :=
  let n := c.toNat
  if c.isDigit then some (n - 48)
  else if 97 ≤ n && n ≤ 102 then some (n - 87)
  else if 65 ≤ n && n ≤ 70 then some (n - 55)
  else none

/-- The value of four hexadecimal digits. -/
def hex4? (a b c d : Char) : Option Nat := do
  return (((← hexValue? a) * 16 + (← hexValue? b)) * 16 + (← hexValue? c)) * 16 + (← hexValue? d)

/-- The character a letter names behind a backslash. -/
def escaped? : Char → Option Char
  | '"' => some '"'
  | '\\' => some '\\'
  | '/' => some '/'
  | 'b' => some '\x08'
  | 'f' => some '\x0c'
  | 'n' => some '\n'
  | 'r' => some '\r'
  | 't' => some '\t'
  | _ => none

/-- The character of a code unit. No character is one half of a pair: where a string escapes a lone
half, a text that can hold it would keep it, and here the replacement character stands for it. -/
def unitChar (n : Nat) : Char := if 0xd800 ≤ n && n ≤ 0xdfff then '\ufffd' else Char.ofNat n

/-- The character of a pair of code units, if they are the halves of one. -/
def pairChar? (high low : Nat) : Option Char :=
  if 0xd800 ≤ high && high ≤ 0xdbff && 0xdc00 ≤ low && low ≤ 0xdfff then
    some (Char.ofNat (0x10000 + (high - 0xd800) * 0x400 + (low - 0xdc00)))
  else none

/-- The result with one more character in front of the text read. -/
def push (c : Char) (r : Except Stop (Text × Text)) : Except Stop (Text × Text) :=
  r.map fun (t, rest) => (c :: t, rest)

/-- A string behind its opening quote, and what follows its closing quote; `opening` counts the
characters from the opening quote on. -/
def string (opening : Nat) : Text → Except Stop (Text × Text)
  | [] => .error ⟨.unterminatedString, opening⟩
  | '"' :: rest => .ok ([], rest)
  | '\\' :: 'u' :: a :: b :: c :: d :: '\\' :: 'u' :: e :: f :: g :: h :: rest =>
    let left := rest.length + 11
    match hex4? a b c d with
    | none => .error ⟨.invalidUnicode, left⟩
    | some n =>
      if 0xd800 ≤ n && n ≤ 0xdbff && !rest.isEmpty then
        match hex4? e f g h with
        | none => .error ⟨.invalidUnicode, rest.length + 5⟩
        | some m =>
          match pairChar? n m with
          | some x => push x (string opening rest)
          | none => push (unitChar n) (string opening ('\\' :: 'u' :: e :: f :: g :: h :: rest))
      else push (unitChar n) (string opening ('\\' :: 'u' :: e :: f :: g :: h :: rest))
  | '\\' :: 'u' :: a :: b :: c :: d :: x :: rest =>
    match hex4? a b c d with
    | none => .error ⟨.invalidUnicode, rest.length + 6⟩
    | some n => push (unitChar n) (string opening (x :: rest))
  | '\\' :: 'u' :: rest => .error ⟨.invalidUnicode, rest.length + 1⟩
  | ['\\'] => .error ⟨.unterminatedString, opening⟩
  | '\\' :: c :: rest =>
    match escaped? c with
    | some d => push d (string opening rest)
    | none => .error ⟨.invalidEscape, rest.length + 2⟩
  | c :: rest =>
    if c.toNat ≤ 0x1f then .error ⟨.controlCharacter, rest.length + 1⟩
    else push c (string opening rest)

/-- The digits of a whole number at the start of a text. -/
def wholeDigits : Text → Text
  | [] => []
  | '0' :: _ => ['0']
  | t => t.takeWhile Char.isDigit

/-- A point with digits after it at the start of a text. -/
def pointDigits : Text → Text
  | '.' :: rest => let ds := rest.takeWhile Char.isDigit; if ds.isEmpty then [] else '.' :: ds
  | _ => []

/-- An exponent at the start of a text. -/
def exponentDigits : Text → Text
  | c :: rest =>
    if c == 'e' || c == 'E' then
      let sign := match rest with
        | '+' :: _ => ['+']
        | '-' :: _ => ['-']
        | _ => []
      let ds := (rest.drop sign.length).takeWhile Char.isDigit
      if ds.isEmpty then [] else c :: sign ++ ds
    else []
  | [] => []

/-- A number at the start of a text. -/
def number (t : Text) : Except Stop (Json × Text) :=
  let sign := match t with
    | '-' :: _ => ['-']
    | _ => []
  let body := t.drop sign.length
  let whole := wholeDigits body
  if whole.isEmpty then .error ⟨.expectingValue, t.length⟩
  else
    let body := body.drop whole.length
    let point := pointDigits body
    let body := body.drop point.length
    let power := exponentDigits body
    let body := body.drop power.length
    let written := sign ++ whole ++ point ++ power
    if point.isEmpty && power.isEmpty then
      if whole.length > Numeral.maxDigits then .error ⟨.tooLong whole.length, body.length⟩
      else
        let n : Int := Numeral.ofDigits (whole.filterMap Numeral.asciiValue?)
        .ok (.int (if sign.isEmpty then n else -n), body)
    else .ok (.float ((Numeral.decimal? written).getD .nan), body)

/-- The values that are written as a word. -/
def words : List (Text × Json) :=
  [("null", .null), ("true", .bool true), ("false", .bool false), ("NaN", .float .nan),
   ("Infinity", .float (.infinite false)), ("-Infinity", .float (.infinite true))]

/-- A word or a number at the start of a text. -/
def scalar (t : Text) : Except Stop (Json × Text) :=
  match words.find? fun w => Text.startsWith w.1 t with
  | some (w, v) => .ok (v, t.drop w.length)
  | none => number t

mutual

/-- A value at the start of a text, and what follows it. -/
def value : Nat → Text → Except Stop (Json × Text)
  | 0, t => .error ⟨.expectingValue, t.length⟩
  | fuel + 1, t =>
    match t with
    | '"' :: rest => (string t.length rest).map fun (s, rest) => (.str s, rest)
    | '[' :: rest =>
      match skipGap rest with
      | ']' :: rest => .ok (.arr [], rest)
      | rest => (items fuel rest).map fun (xs, rest) => (.arr xs, rest)
    | '\x7b' :: rest =>
      match skipGap rest with
      | '\x7d' :: rest => .ok (.obj [], rest)
      | rest => (members fuel rest).map fun (ms, rest) => (.obj (settle ms), rest)
    | t => scalar t

/-- The values of a list up to its closing bracket. -/
def items : Nat → Text → Except Stop (List Json × Text)
  | 0, t => .error ⟨.expectingValue, t.length⟩
  | fuel + 1, t => do
    let (x, rest) ← value fuel t
    match skipGap rest with
    | ']' :: rest => return ([x], rest)
    | ',' :: rest =>
      let (xs, rest) ← items fuel (skipGap rest)
      return (x :: xs, rest)
    | rest => throw ⟨.expectingComma, rest.length⟩

/-- The members of an object up to its closing brace. -/
def members : Nat → Text → Except Stop (Members × Text)
  | 0, t => .error ⟨.expectingValue, t.length⟩
  | fuel + 1, t =>
    match t with
    | '"' :: rest => do
      let (key, rest) ← string t.length rest
      match skipGap rest with
      | ':' :: rest =>
        let (x, rest) ← value fuel (skipGap rest)
        match skipGap rest with
        | '\x7d' :: rest => return ([(key, x)], rest)
        | ',' :: rest =>
          let (ms, rest) ← members fuel (skipGap rest)
          return ((key, x) :: ms, rest)
        | rest => throw ⟨.expectingComma, rest.length⟩
      | rest => throw ⟨.expectingColon, rest.length⟩
    | t => .error ⟨.expectingName, t.length⟩

end

/-- Reads a whole text as one value, with the stop where that fails. -/
def readDocument (t : Text) : Except Stop Json :=
  match t with
  | '\ufeff' :: _ => .error ⟨.byteOrderMark, t.length⟩
  | _ => do
    let (x, rest) ← value (2 * t.length + 2) (skipGap t)
    match skipGap rest with
    | [] => return x
    | rest => throw ⟨.extraData, rest.length⟩

/-- Reads a whole text as one value. -/
def read (t : Text) : Except ReadError Json :=
  match readDocument t with
  | .ok x => .ok x
  | .error s => .error (s.placeIn t)

end PlainSteps.Json
