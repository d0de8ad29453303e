import PlainSteps.Pattern.Search

/-! # Written patterns

Patterns as a configuration writes them, without regard to case: literal characters, `.`, `^`, `$`,
`|`, groups, sets in brackets, escapes, and the repetitions `*`, `+`, `?` and `{m,n}`, each of which
may be lazy or, with a `+` behind it, firm. A text that is no pattern is refused with the first
fault and its position.

This is a part of what patterns can be. Left out are lookahead and lookbehind, flags within a
pattern (`(?i)`), named and atomic groups, references to groups, conditionals, comments, and the
escapes `\x`, `\u`, `\U`, `\N` and those of octal digits. A text that needs one of them is refused
here in the same way as a text that is no pattern. Nor is there a bound on how often anything may
repeat. So where a result is about all patterns, the check of them is taken from the libraries
(`Libraries.pattern`), and this reader only stands in for it when a program is to run.
-/

namespace PlainSteps.Pattern

/-- Why a text is no pattern. -/
inductive Fault where
  | unterminatedGroup
  | unterminatedSet
  | nothingToRepeat
  | multipleRepeat
  | unbalancedGroup
  | danglingEscape
  | badEscape (c : Char)
  | badRange (first last : Text)
  | minAboveMax
  | unknownExtension (c : Char)
  | unexpectedEnd
  deriving DecidableEq, Repr

/-- The first fault of a written pattern and where it stands. -/
structure PatternError where
  fault : Fault
  position : Nat
  deriving DecidableEq, Repr

/-- The words for a fault. -/
def Fault.words : Fault → Text
  | unterminatedGroup => "missing ), unterminated subpattern"
  | unterminatedSet => "unterminated character set"
  | nothingToRepeat => "nothing to repeat"
  | multipleRepeat => "multiple repeat"
  | unbalancedGroup => "unbalanced parenthesis"
  | danglingEscape => "bad escape (end of pattern)"
  | badEscape c => "bad escape \\".toList ++ [c]
  | badRange first last => "bad character range ".toList ++ first ++ "-".toList ++ last
  | minAboveMax => "min repeat greater than max repeat"
  | unknownExtension c => "unknown extension ?".toList ++ [c]
  | unexpectedEnd => "unexpected end of pattern"

/-- The message for a fault of a pattern; one of several lines also gets its line and column. -/
def PatternError.message (written : Text) (e : PatternError) : Text :=
  let before := written.take e.position
  e.fault.words ++ " at position " ++ Text.ofNat e.position ++
    (if written.contains '\n' then
      " (line ".toList ++ Text.ofNat (before.count '\n' + 1) ++ ", column " ++
        Text.ofNat ((before.reverse.takeWhile (· != '\n')).length + 1) ++ ")"
    else [])

/-! ### Tokens -/

/-- A character of a written pattern, plain or behind a backslash. -/
inductive Token where
  | plain (c : Char)
  | escaped (c : Char)
  deriving DecidableEq, Repr

/-- Tokens with their positions, and whether a lone backslash ends the text. -/
def tokens (at' : Nat) : Text → List (Nat × Token) × Bool
  | [] => ([], false)
  | ['\\'] => ([], true)
  | '\\' :: c :: cs => let r := tokens (at' + 2) cs; ((at', .escaped c) :: r.1, r.2)
  | c :: cs => let r := tokens (at' + 1) cs; ((at', .plain c) :: r.1, r.2)

/-- What is left to read, with the length of the whole and whether a lone backslash ends it. -/
structure Source where
  left : List (Nat × Token)
  length : Nat
  dangling : Bool

/-- The position of the next token. -/
def Source.position (s : Source) : Nat :=
  match s.left with
  | [] => if s.dangling then s.length - 1 else s.length
  | (n, _) :: _ => n

/-- A source may be read on unless only a lone backslash is left. -/
def Source.checked (s : Source) : Except PatternError Source :=
  if s.left.isEmpty && s.dangling then .error ⟨.danglingEscape, s.length - 1⟩ else .ok s

/-- Moves over a given number of tokens. -/
def Source.skip (s : Source) (n : Nat) : Except PatternError Source :=
  Source.checked { s with left := s.left.drop n }

/-- Moves over the next token if it is the given character. -/
def Source.eat (s : Source) (c : Char) : Except PatternError (Bool × Source) :=
  match s.left with
  | (_, .plain d) :: _ => if d == c then (s.skip 1).map (true, ·) else .ok (false, s)
  | _ => .ok (false, s)

/-! ### Classes -/

/-- The class a letter names behind a backslash. -/
def classOf? : Char → Option (Char → Bool)
  | 'd' => some Text.isDigit
  | 'D' => some (!Text.isDigit ·)
  | 's' => some Text.isBlank
  | 'S' => some (!Text.isBlank ·)
  | 'w' => some Text.isWord
  | 'W' => some (!Text.isWord ·)
  | _ => none

/-- The control character a letter names behind a backslash. -/
def controlOf? : Char → Option Char
  | 'a' => some '\x07'
  | 'f' => some '\x0c'
  | 'n' => some '\n'
  | 'r' => some '\r'
  | 't' => some '\t'
  | 'v' => some '\x0b'
  | _ => none

/-- The character an escape stands for. -/
def escapedChar (position : Nat) (c : Char) : Except PatternError Char :=
  match controlOf? c with
  | some d => .ok d
  | none => if c.isAlphanum then .error ⟨.badEscape c, position⟩ else .ok c

/-- A range of characters, letters in either case. -/
def within (first last : Char) (c : Char) : Bool :=
  let inside := fun d : Char => decide (first ≤ d) && decide (d ≤ last)
  inside c || inside (Text.lowerChar c) || inside c.toUpper

/-- A member of a set: a class or a single character. -/
inductive Member where
  | inClass (p : Char → Bool)
  | single (c : Char)

/-- The characters a member admits. -/
def Member.admits : Member → Char → Bool
  | inClass p => p
  | single c => Text.sameLetter c

/-- One member of a set at its start token. -/
def member (position : Nat) : Token → Except PatternError Member
  | .plain c => .ok (.single c)
  | .escaped c =>
    match classOf? c with
    | some p => .ok (.inClass p)
    | none => if c == 'b' then .ok (.single '\x08') else (escapedChar position c).map .single

/-- A token as it is written. -/
def Token.written : Token → Text
  | .plain c => [c]
  | .escaped c => ['\\', c]

/-- The members of a set up to its closing bracket; a closing bracket in first place is a member. -/
def members (start : Nat) :
    Nat → Bool → (Char → Bool) → Source → Except PatternError ((Char → Bool) × Source)
  | 0, _, _, _ => .error ⟨.unterminatedSet, start⟩
  | fuel + 1, first, sofar, s =>
    match s.left with
    | [] => .error ⟨.unterminatedSet, start⟩
    | (n, token) :: _ => do
      let s ← s.skip 1
      if token == .plain ']' && !first then return (sofar, s)
      let low ← member n token
      let (dash, s') ← s.eat '-'
      if !dash then members start fuel false (fun c => sofar c || low.admits c) s
      else match s'.left with
        | [] => .error ⟨.unterminatedSet, start⟩
        | (m, token') :: _ => do
          let s'' ← s'.skip 1
          if token' == .plain ']' then
            return (fun c => sofar c || low.admits c || c == '-', s'')
          let high ← member m token'
          match low, high with
          | .single a, .single b =>
            if b < a then .error ⟨.badRange token.written token'.written, n⟩
            else members start fuel false (fun c => sofar c || within a b c) s''
          | _, _ => .error ⟨.badRange token.written token'.written, n⟩

/-! ### Repetition -/

/-- What may follow an item: nothing can repeat a place, and a repetition is not repeated again. -/
inductive ItemKind where
  | place
  | repetition
  | piece
  deriving DecidableEq

/-- A pattern at most `n` times. -/
def upTo (eager : Bool) (a : Pattern) : Nat → Pattern
  | 0 => empty
  | n + 1 => if eager then alt (cat a (upTo eager a n)) empty
      else alt empty (cat a (upTo eager a n))

/-- A pattern any number of times. -/
def anyTimes (eager : Bool) : Pattern → Pattern
  | one p => if eager then many p else few p
  | a => times eager a

/-- A pattern at least `least` times and, if there is a bound, at most `most` times. -/
def bounded (eager : Bool) (a : Pattern) : Nat → Option Nat → Pattern
  | 0, none => anyTimes eager a
  | 0, some most => upTo eager a most
  | least + 1, most => cat a (bounded eager a least (most.map (· - 1)))

/-- The decimal digits at the start of a source. -/
def digitsOf (s : Source) : Text :=
  s.left.takeWhile (fun t => match t.2 with | .plain c => c.isDigit | _ => false) |>.filterMap
    fun t => match t.2 with | .plain c => some c | _ => none

/-- The number that decimal digits write. -/
def numberOf (digits : Text) : Nat := digits.foldl (fun n c => n * 10 + (c.toNat - 48)) 0

/-- The bounds in braces, with the source behind them; nothing when the brace is a plain
character. -/
def bounds? (s : Source) : Option (Nat × Option Nat × Nat) :=
  let low := digitsOf s
  let s1 : Source := { s with left := s.left.drop low.length }
  let close := fun (s : Source) => match s.left with
    | (_, .plain '}') :: _ => true
    | _ => false
  match s1.left with
  | (_, .plain ',') :: rest =>
    let s2 : Source := { s1 with left := rest }
    let high := digitsOf s2
    let s3 : Source := { s2 with left := s2.left.drop high.length }
    if close s3 then
      some (numberOf low, if high.isEmpty then none else some (numberOf high),
        low.length + high.length + 2)
    else none
  | _ =>
    if low.isEmpty then none
    else if close s1 then some (numberOf low, some (numberOf low), low.length + 1) else none

/-! ### The reader -/

/-- Reads alternatives up to a closing parenthesis or the end; `sofar` holds the items of the
current alternative, the latest first, and `before` the alternatives already read. -/
def readItems (fuel : Nat) (sofar : List (ItemKind × Pattern)) (before : List Pattern)
    (s : Source) :
    Except PatternError (Pattern × Source) :=
  let finished := fun (_ : Unit) => seq (sofar.reverse.map (·.2))
  match fuel with
  | 0 => .ok (empty, s)
  | fuel + 1 =>
    match s.left with
    | [] => .ok (choice (before.reverse ++ [finished ()]), s)
    | (n, token) :: _ =>
      if token == .plain ')' then .ok (choice (before.reverse ++ [finished ()]), s) else do
      let s ← s.skip 1
      let item := fun (kind : ItemKind) (p : Pattern) =>
        readItems fuel ((kind, p) :: sofar) before s
      let repeated := fun (least : Nat) (most : Option Nat) (s : Source) => do
        match sofar with
        | [] => .error ⟨.nothingToRepeat, n⟩
        | (.place, _) :: _ => .error ⟨.nothingToRepeat, n⟩
        | (.repetition, _) :: _ => .error ⟨.multipleRepeat, n⟩
        | (.piece, p) :: sofar =>
          let (isLazy, s) ← s.eat '?'
          let (isFirm, s) ← if isLazy then .ok (false, s) else s.eat '+'
          let r := bounded (!isLazy) p least most
          readItems fuel ((.repetition, if isFirm then firm r else r) :: sofar) before s
      match token with
      | .plain '|' => readItems fuel [] (finished () :: before) s
      | .plain '.' => item .piece (one inLine)
      | .plain '^' => item .place atStart
      | .plain '$' => item .place (atEnd true)
      | .plain '*' => repeated 0 none s
      | .plain '+' => repeated 1 none s
      | .plain '?' => repeated 0 (some 1) s
      | .plain '\x7b' =>
        match bounds? s with
        | none => item .piece (letter '\x7b')
        | some (least, most, width) => do
          let s ← s.skip width
          if most.any (· < least) then .error ⟨.minAboveMax, n + 1⟩ else repeated least most s
      | .plain '[' => do
        let (negated, s) ← s.eat '^'
        let (p, s) ← members n (s.left.length + 1) true (fun _ => false) s
        readItems fuel ((.piece, one fun c => p c != negated) :: sofar) before s
      | .plain '(' => do
        let (extended, s) ← s.eat '?'
        let s ← if !extended then .ok s else match s.left with
          | [] => .error ⟨.unexpectedEnd, s.position⟩
          | (_, .plain ':') :: _ => s.skip 1
          | (m, .plain c) :: _ => .error ⟨.unknownExtension c, m - 1⟩
          | (m, .escaped c) :: _ => .error ⟨.unknownExtension c, m - 1⟩
        let (inner, s) ← readItems fuel [] [] s
        let (closed, s) ← s.eat ')'
        if closed then readItems fuel ((.piece, inner) :: sofar) before s
        else .error ⟨.unterminatedGroup, n⟩
      | .plain c => item .piece (letter c)
      | .escaped 'b' => item .place (edge true)
      | .escaped 'B' => item .place (edge false)
      | .escaped 'A' => item .place atStart
      | .escaped 'Z' => item .place (atEnd false)
      | .escaped c =>
        match classOf? c with
        | some p => item .piece (one p)
        | none => do
          let d ← escapedChar n c
          item .piece (letter d)

/-- Reads a whole text as a pattern. -/
def read (written : Text) : Except PatternError Pattern := do
  let (left, dangling) := tokens 0 written
  let s ← Source.checked ⟨left, written.length, dangling⟩
  let (r, s) ← readItems (written.length + 1) [] [] s
  match s.left with
  | [] => return r
  | (n, _) :: _ => throw ⟨.unbalancedGroup, n⟩

/-! ### Literal patterns -/

/-- Whether a character must be escaped to stand for itself in a written pattern. -/
def isSpecial (c : Char) : Bool :=
  "()[]\x7b\x7d?*+-|^$\\.&~# \t\n\r\x0b\x0c".toList.contains c

/-- The written pattern that matches a text and nothing else, up to case. -/
def escape (t : Text) : Text := t.flatMap fun c => if isSpecial c then ['\\', c] else [c]

end PlainSteps.Pattern
