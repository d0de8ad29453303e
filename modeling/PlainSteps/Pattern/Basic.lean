import PlainSteps.Text.Basic

/-! # Patterns

A pattern describes pieces of text. Matching tries the ways a pattern can match in a fixed order of
preference (the first alternative first, the longest repetition first unless it is a lazy one) and
hands each way to what follows, so that the first way the rest agrees with is the one that is taken.
-/

namespace PlainSteps

/-- A pattern over characters. -/
inductive Pattern where
  /-- The empty piece. -/
  | empty
  /-- One character of a class. -/
  | one (p : Char → Bool)
  /-- As many characters of a class as possible. -/
  | many (p : Char → Bool)
  /-- As few characters of a class as possible. -/
  | few (p : Char → Bool)
  /-- One pattern after the other. -/
  | cat (a b : Pattern)
  /-- The first pattern, or else the second. -/
  | alt (a b : Pattern)
  /-- A pattern any number of times, as often as possible when `eager`. -/
  | times (eager : Bool) (a : Pattern)
  /-- A pattern that keeps to the first way it matches, whatever follows. -/
  | firm (a : Pattern)
  /-- A pattern whose piece is kept under a number. -/
  | group (n : Nat) (a : Pattern)
  /-- A place where a word begins or ends, or, when `present` is false, one where none does. An
  empty text has neither. -/
  | edge (present : Bool)
  /-- The start of the text. -/
  | atStart
  /-- The end of the text, or also the place before a line feed that ends it. -/
  | atEnd (beforeFeed : Bool)

namespace Pattern

/-- A place in a text: the character before it and the text after it. -/
structure Spot where
  previous : Option Char
  rest : Text

/-- The pieces kept so far, the latest first. -/
abbrev Captures := List (Nat × Text)

/-- Whether exactly one of the two characters around a place belongs to a word. -/
def Spot.isEdge (s : Spot) : Bool :=
  (s.previous.any Text.isWord) != (s.rest.head?.any Text.isWord)

/-- The longest run of a class first, then shorter ones. -/
def runMany {α : Type} (p : Char → Bool) (k : Spot → Option α) : Option Char → Text → Option α
  | previous, [] => k ⟨previous, []⟩
  | previous, c :: cs =>
    if p c then (runMany p k (some c) cs).orElse fun _ => k ⟨previous, c :: cs⟩
    else k ⟨previous, c :: cs⟩

/-- The shortest run of a class first, then longer ones. -/
def runFew {α : Type} (p : Char → Bool) (k : Spot → Option α) : Option Char → Text → Option α
  | previous, [] => k ⟨previous, []⟩
  | previous, c :: cs =>
    (k ⟨previous, c :: cs⟩).orElse fun _ => if p c then runFew p k (some c) cs else none

/-- Repeats a match. A round that moves no further ends the repetition, so `fuel` above the length
of the text is never used up. -/
def runTimes {α : Type} (eager : Bool)
    (body : Spot → Captures → (Spot → Captures → Option α) → Option α)
    (k : Spot → Captures → Option α) :
    Nat → Spot → Captures → Option α
  | 0, s, g => k s g
  | fuel + 1, s, g =>
    let again := fun (_ : Unit) => body s g fun s' g' =>
      if s'.rest.length < s.rest.length then runTimes eager body k fuel s' g' else k s' g'
    if eager then (again ()).orElse fun _ => k s g
    else (k s g).orElse again

/-- Matches a pattern at a place and hands every way it matches, in order of preference, to `k`,
until `k` accepts one. -/
def run : Pattern → {α : Type} → Spot → Captures → (Spot → Captures → Option α) → Option α
  | empty, _, s, g, k => k s g
  | one p, _, s, g, k =>
    match s.rest with
    | [] => none
    | c :: cs => if p c then k ⟨some c, cs⟩ g else none
  | many p, _, s, g, k => runMany p (fun s' => k s' g) s.previous s.rest
  | few p, _, s, g, k => runFew p (fun s' => k s' g) s.previous s.rest
  | cat a b, _, s, g, k => run a s g fun s' g' => run b s' g' k
  | alt a b, _, s, g, k => (run a s g k).orElse fun _ => run b s g k
  | times eager a, _, s, g, k => runTimes eager (run a) k (s.rest.length + 1) s g
  | firm a, _, s, g, k => (run a s g fun s' g' => some (s', g')).bind fun (s', g') => k s' g'
  | group n a, _, s, g, k =>
    run a s g fun s' g' => k s' ((n, s.rest.take (s.rest.length - s'.rest.length)) :: g')
  | edge present, _, s, g, k =>
    if s.isEdge == present && !(s.previous.isNone && s.rest.isEmpty) then k s g else none
  | atStart, _, s, g, k => if s.previous.isNone then k s g else none
  | atEnd beforeFeed, _, s, g, k =>
    if s.rest == [] || (beforeFeed && s.rest == ['\n']) then k s g else none

/-- A class reads a character of its own. -/
theorem run_one_cons {α : Type} {p : Char → Bool} {previous : Option Char} {g : Captures}
    {k : Spot → Captures → Option α} {c : Char} (hc : p c = true) (cs : Text) :
    run (one p) ⟨previous, c :: cs⟩ g k = k ⟨some c, cs⟩ g := by
  simp [run, hc]

/-! ### Building blocks -/

/-- A class of characters, at least once, as often as possible. -/
def oneOrMore (p : Char → Bool) : Pattern := cat (one p) (many p)

/-- A pattern, if it matches, or else the empty piece. -/
def maybe (a : Pattern) : Pattern := alt a empty

/-- Patterns one after the other. -/
def seq : List Pattern → Pattern
  | [] => empty
  | [a] => a
  | a :: rest => cat a (seq rest)

/-- The first pattern of a list that matches. -/
def choice : List Pattern → Pattern
  | [] => one fun _ => false
  | [a] => a
  | a :: rest => alt a (choice rest)

/-- A letter in either case. -/
def letter (c : Char) : Pattern :=
  let f := Text.fold c
  one fun d => Text.fold d == f

/-- A fixed text, letters in either case. -/
def letters (t : Text) : Pattern := seq (t.map letter)

/-- Any character but a line feed. -/
def inLine (c : Char) : Bool := c != '\n'

/-- A pattern that stands as a word of its own, or as words of their own. -/
def wordOf (a : Pattern) : Pattern := seq [edge true, a, edge true]

end Pattern

end PlainSteps
