import PlainSteps.Pattern.Basic

/-! # Searching

The leftmost place where a pattern matches, all places from left to right, and the pieces between
them.
-/

namespace PlainSteps.Pattern

/-- Where a pattern matches: the text before, the piece itself, what it kept, and the text after. -/
structure Found where
  before : Text
  whole : Text
  captures : Captures
  after : Text

/-- The piece kept under a number, by the last match of its group. -/
def Found.group? (f : Found) (n : Nat) : Option Text :=
  (f.captures.find? (·.1 == n)).map (·.2)

/-- The piece kept under a number, or nothing. -/
def Found.group (f : Found) (n : Nat) : Text := (f.group? n).getD []

/-- The preferred match at one place: what was kept and the text after it. -/
def matchAt (r : Pattern) (s : Spot) : Option (Captures × Text) :=
  r.run s [] fun s' g => some (g, s'.rest)

/-- The leftmost match in a text with the given character before it. -/
def findFrom (r : Pattern) (previous : Option Char) : Text → Option Found
  | [] => (r.matchAt ⟨previous, []⟩).map fun (g, rest) => ⟨[], [], g, rest⟩
  | c :: cs =>
    match r.matchAt ⟨previous, c :: cs⟩ with
    | some (g, rest) => some ⟨[], (c :: cs).take ((c :: cs).length - rest.length), g, rest⟩
    | none => (findFrom r (some c) cs).map fun f => { f with before := c :: f.before }

/-- The leftmost match in a text. -/
def find? (r : Pattern) (t : Text) : Option Found := r.findFrom none t

/-- Whether a pattern matches anywhere in a text. -/
def occursIn (r : Pattern) (t : Text) : Bool := (r.find? t).isSome

/-- Whether a pattern matches at the start of a text. -/
def opens (r : Pattern) (t : Text) : Bool := (r.matchAt ⟨none, t⟩).isSome

/-- All matches, each with the text since the one before it; the search goes on behind each match.
An empty piece ends the search. -/
def findAllFrom (r : Pattern) : Nat → Option Char → Text → List Found
  | 0, _, _ => []
  | fuel + 1, previous, t =>
    match r.findFrom previous t with
    | none => []
    | some f => if f.whole.isEmpty then [f] else f :: findAllFrom r fuel f.whole.getLast? f.after

/-- All matches from left to right, for patterns that match no empty piece. -/
def findAll (r : Pattern) (t : Text) : List Found := r.findAllFrom (t.length + 1) none t

/-- The text after the last of the matches. -/
def lastAfter (t : Text) : List Found → Text
  | [] => t
  | [f] => f.after
  | _ :: rest => lastAfter t rest

/-- The pieces of a text between the matches of a separator. -/
def split (r : Pattern) (t : Text) : List Text :=
  let found := r.findAll t
  found.map (·.before) ++ [lastAfter t found]

/-- The matches with their positions in the text. -/
def withStarts (found : List Found) : List (Nat × Found) :=
  let step := fun (acc : Nat × List (Nat × Found)) (f : Found) =>
    let start := acc.1 + f.before.length
    (start + f.whole.length, (start, f) :: acc.2)
  (found.foldl step (0, [])).2.reverse

end PlainSteps.Pattern
