import PlainSteps.Text.Basic

/-! # Quoted texts

How a text is shown inside a message: between single quotes, or between double quotes when it holds
a single quote and no double one; what cannot be seen is written as an escape.
-/

namespace PlainSteps.Text

/-- The lower case hexadecimal digits of a number, with zeros in front up to a width. -/
def hex (width n : Nat) : Text :=
  let digits := Nat.toDigits 16 n
  List.replicate (width - digits.length) '0' ++ digits

/-- A character inside a text between the given quotes. -/
def quoteChar (quote c : Char) : Text :=
  let n := c.toNat
  if c == quote || c == '\\' then ['\\', c]
  else if c == '\n' then "\\n"
  else if c == '\r' then "\\r"
  else if c == '\t' then "\\t"
  else if isHidden c then
    if n < 0x100 then "\\x".toList ++ hex 2 n
    else if n < 0x10000 then "\\u".toList ++ hex 4 n
    else "\\U".toList ++ hex 8 n
  else [c]

/-- A text between quotes. -/
def quoted (t : Text) : Text :=
  let quote := if t.contains '\x27' && !t.contains '"' then '"' else '\x27'
  quote :: t.flatMap (quoteChar quote) ++ [quote]

example : quoted "it's" = "\"it's\"".toList := by decide
example : quoted "a\u00a0b\n" = "'a\\xa0b\\n'".toList := by decide

end PlainSteps.Text
