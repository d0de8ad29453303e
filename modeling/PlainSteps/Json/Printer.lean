import PlainSteps.Json.Basic

/-! # Writing JSON

Two layouts: on one line, and indented by two blanks a level. Both write ASCII alone: every other
character is an escape, a character beyond the first plane a pair of them.
-/

namespace PlainSteps.Json

/-- A code unit as an escape. -/
def unitEscape (n : Nat) : Text := "\\u".toList ++ Text.hex 4 n

/-- A character of a string. -/
def writeChar (c : Char) : Text :=
  let n := c.toNat
  if c == '"' then "\\\""
  else if c == '\\' then "\\\\"
  else if c == '\n' then "\\n"
  else if c == '\r' then "\\r"
  else if c == '\t' then "\\t"
  else if n == 0x0c then "\\f"
  else if n == 0x08 then "\\b"
  else if 32 ≤ n && n < 127 then [c]
  else if n < 0x10000 then unitEscape n
  else unitEscape (0xd800 + (n - 0x10000) / 0x400) ++ unitEscape (0xdc00 + (n - 0x10000) % 0x400)

/-- A string between its quotes. -/
def writeString (t : Text) : Text := '"' :: t.flatMap writeChar ++ ['"']

/-- A fraction, or one of the words for what is no finite number. -/
def writeFloat (x : Binary64) : Text :=
  match x with
  | .nan => "NaN"
  | .infinite false => "Infinity"
  | .infinite true => "-Infinity"
  | x => x.shortest

/-- A value that holds no other. -/
def writeScalar : Json → Text
  | null => "null"
  | bool true => "true"
  | bool false => "false"
  | int i => Text.ofInt i
  | float x => writeFloat x
  | str t => writeString t
  | _ => []

mutual

/-- A value on one line, without blanks between its parts. -/
def compact : Json → Text
  | arr [] => "[]"
  | arr (x :: xs) => '[' :: compact x ++ compactItems xs
  | obj [] => "\x7b\x7d"
  | obj ((k, v) :: ms) => '\x7b' :: writeString k ++ ':' :: compact v ++ compactMembers ms
  | x => writeScalar x

/-- The further items of a list, and its closing bracket. -/
def compactItems : List Json → Text
  | [] => [']']
  | x :: xs => ',' :: compact x ++ compactItems xs

/-- The further members of an object, and its closing brace. -/
def compactMembers : List (Text × Json) → Text
  | [] => ['\x7d']
  | (k, v) :: ms => ',' :: writeString k ++ ':' :: compact v ++ compactMembers ms

end

/-- A line feed and the indentation of a level. -/
def newLine (level : Nat) : Text := '\n' :: List.replicate (2 * level) ' '

mutual

/-- A value over several lines, its parts indented one level deeper than itself. -/
def indented (level : Nat) : Json → Text
  | arr [] => "[]"
  | arr (x :: xs) => '[' :: newLine (level + 1) ++ indented (level + 1) x ++ indentedItems level xs
  | obj [] => "\x7b\x7d"
  | obj ((k, v) :: ms) =>
    '\x7b' :: newLine (level + 1) ++ writeString k ++ ": ".toList ++ indented (level + 1) v ++
      indentedMembers level ms
  | x => writeScalar x

/-- The further items of a list, and its closing bracket. -/
def indentedItems (level : Nat) : List Json → Text
  | [] => newLine level ++ [']']
  | x :: xs => ',' :: newLine (level + 1) ++ indented (level + 1) x ++ indentedItems level xs

/-- The further members of an object, and its closing brace. -/
def indentedMembers (level : Nat) : List (Text × Json) → Text
  | [] => newLine level ++ ['\x7d']
  | (k, v) :: ms =>
    ',' :: newLine (level + 1) ++ writeString k ++ ": ".toList ++ indented (level + 1) v ++
      indentedMembers level ms

end

/-- A value over several lines, as it is saved. -/
def pretty (x : Json) : Text := indented 0 x

end PlainSteps.Json
