import PlainSteps.Text.Character

/-! # Text

A text is its list of code points, so that lengths and cuts count code points. Here are the cuts
that reading a prompt needs (trimming, lines, words, fields), joining, searching, lower case and
decimal numerals.
-/

namespace PlainSteps

/-- A text is the list of its code points. -/
abbrev Text := List Char

instance : Coe String Text := ⟨String.toList⟩

namespace Text

/-! ### Trimming -/

/-- The text without the characters of a class at its left end. -/
def trimLeftOf (p : Char → Bool) (t : Text) : Text := t.dropWhile p

/-- The text without the characters of a class at its right end. -/
def trimRightOf (p : Char → Bool) (t : Text) : Text := (t.reverse.dropWhile p).reverse

/-- The text without the characters of a class at either end. -/
def trimOf (p : Char → Bool) (t : Text) : Text := trimRightOf p (trimLeftOf p t)

/-- The text without white space at either end. -/
def trim (t : Text) : Text := trimOf isBlank t

@[simp] theorem trimLeftOf_nil (p : Char → Bool) : trimLeftOf p [] = [] := rfl

@[simp] theorem trimRightOf_nil (p : Char → Bool) : trimRightOf p [] = [] := rfl

@[simp] theorem trim_nil : trim [] = [] := rfl

/-! ### Cutting -/

/-- The pieces between the characters of a class; a text without one is a single piece. -/
def splitWhere (p : Char → Bool) : Text → List Text
  | [] => [[]]
  | c :: cs =>
    if p c then [] :: splitWhere p cs
    else match splitWhere p cs with
      | [] => [[c]]
      | piece :: pieces => (c :: piece) :: pieces

/-- The pieces between the occurrences of a separator. -/
def splitOn (separator : Char) (t : Text) : List Text := splitWhere (· == separator) t

/-- The non-empty pieces between white space. -/
def words (t : Text) : List Text := (splitWhere isBlank t).filter (!·.isEmpty)

/-- The lines of a text without their ends; nothing follows the end of the last line. -/
def lines : Text → List Text
  | [] => []
  | '\r' :: '\n' :: cs => [] :: lines cs
  | c :: cs =>
    if isLineBreak c then [] :: lines cs
    else match lines cs with
      | [] => [[c]]
      | line :: rest => (c :: line) :: rest

/-- The text with every line end written as one line feed, as a text file is read. -/
def unifyNewlines : Text → Text
  | [] => []
  | '\r' :: '\n' :: cs => '\n' :: unifyNewlines cs
  | '\r' :: cs => '\n' :: unifyNewlines cs
  | c :: cs => c :: unifyNewlines cs

/-- The texts in order with a separator between neighbours. -/
def joinWith (separator : Text) : List Text → Text
  | [] => []
  | [t] => t
  | t :: rest => t ++ separator ++ joinWith separator rest

theorem splitWhere_ne_nil (p : Char → Bool) (t : Text) : splitWhere p t ≠ [] := by
  cases t with
  | nil => simp [splitWhere]
  | cons c cs =>
    unfold splitWhere
    split
    · simp
    · split <;> simp

/-! ### Searching -/

/-- Whether a text begins with another. -/
def startsWith (start t : Text) : Bool := start.isPrefixOf t

/-- Whether a text ends with another. -/
def endsWith (finish t : Text) : Bool := finish.isSuffixOf t

/-- Whether a part occurs in a text as consecutive characters. -/
def includes (part : Text) : Text → Bool
  | [] => part.isEmpty
  | c :: cs => startsWith part (c :: cs) || includes part cs

/-- Whether a text stands before another or is equal to it, by the code points of the first
difference. -/
def notAfter : Text → Text → Bool
  | [], _ => true
  | _ :: _, [] => false
  | a :: as, b :: bs => if a == b then notAfter as bs else a < b

/-! ### Lower case -/

/-- Whether the first character that is not case-ignorable is cased. -/
def nextCased : Text → Bool
  | [] => false
  | c :: cs => if isCaseIgnorable c then nextCased cs else isCased c

/-- Lower case, knowing whether a cased character comes before. A sigma is written in its final form
when its word ends with it, and the dotted capital I keeps its dot as a mark of its own. -/
def lowerAfter (cased : Bool) : Text → Text
  | [] => []
  | c :: cs =>
    (if c == 'Σ' then [if cased && !nextCased cs then 'ς' else 'σ']
     else if c == 'İ' then ['i', '\u0307']
     else [lowerChar c])
    ++ lowerAfter (if isCaseIgnorable c then cased else isCased c) cs

/-- The text in lower case. -/
def lower (t : Text) : Text := lowerAfter false t

/-! ### Numerals -/

/-- A natural number in decimal digits. -/
def ofNat (n : Nat) : Text := Nat.toDigits 10 n

/-- A whole number in decimal digits, with a minus sign when it is negative. -/
def ofInt (i : Int) : Text := if i < 0 then '-' :: ofNat i.natAbs else ofNat i.natAbs

/-- A whole number with zeros in front until it takes up the given width, sign included. -/
def ofIntPadded (width : Nat) (i : Int) : Text :=
  let digits := ofNat i.natAbs
  if i < 0 then '-' :: (List.replicate (width - 1 - digits.length) '0' ++ digits)
  else List.replicate (width - digits.length) '0' ++ digits

/-- A character repeated. -/
def rule (width : Nat) (c : Char) : Text := List.replicate width c

example : lines "a\r\nb\n\nc" = ["a".toList, "b".toList, [], "c".toList] := by decide
example : lower "ΑΣ ΣΑ İ" = "ας σα i\u0307".toList := by decide
example : words " a  b\t" = ["a".toList, "b".toList] := by decide
example : ofIntPadded 2 7 = "07".toList ∧ ofIntPadded 2 (-7) = "-7".toList := by decide

end Text

end PlainSteps
