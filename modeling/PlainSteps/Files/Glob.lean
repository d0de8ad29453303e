import PlainSteps.Files.Tree

/-! # Finding files by pattern

Path patterns with the wildcards `*`, `?` and `[...]` for parts of a name and `**` for any number of
directories. Names that begin with a point are passed over unless the pattern of the name does too.
-/

namespace PlainSteps.Glob

/-! ### Patterns for names -/

/-- Whether a character is in a set, in which `a-z` stands for a range. -/
def inSet (c : Char) : Text → Bool
  | [] => false
  | a :: '-' :: b :: rest => (decide (a ≤ c) && decide (c ≤ b)) || inSet c rest
  | a :: rest => a == c || inSet c rest

/-- The members of a set and what follows its closing bracket; a bracket in first place is a
member. -/
def splitSet (t : Text) : Option (Text × Text) :=
  let (first, rest) := match t with
    | ']' :: rest => ([']'], rest)
    | rest => ([], rest)
  let body := rest.takeWhile (· != ']')
  match rest.drop body.length with
  | [] => none
  | _ :: behind => some (first ++ body, behind)

/-- One item of a pattern for names. -/
inductive Item where
  | any
  | one
  | char (c : Char)
  | set (negated : Bool) (members : Text)
  deriving Repr

/-- The items of a pattern; a bracket that is never closed stands for itself. -/
def items : Nat → Text → List Item
  | 0, _ => []
  | _, [] => []
  | fuel + 1, '*' :: rest => .any :: items fuel rest
  | fuel + 1, '?' :: rest => .one :: items fuel rest
  | fuel + 1, '[' :: rest =>
    let (negated, body) := match rest with
      | '!' :: body => (true, body)
      | body => (false, body)
    match splitSet body with
    | some (members, behind) => .set negated members :: items fuel behind
    | none => .char '[' :: items fuel rest
  | fuel + 1, c :: rest => .char c :: items fuel rest

/-- Whether items match some end of a name. -/
def anyEnd (rest : Text → Bool) : Text → Bool
  | [] => rest []
  | c :: cs => rest (c :: cs) || anyEnd rest cs

/-- Whether items match a whole name. -/
def admits : List Item → Text → Bool
  | [], name => name.isEmpty
  | .any :: rest, name => anyEnd (admits rest) name
  | _ :: _, [] => false
  | .one :: rest, _ :: cs => admits rest cs
  | .char d :: rest, c :: cs => c == d && admits rest cs
  | .set negated members :: rest, c :: cs => inSet c members != negated && admits rest cs

/-- Whether a pattern matches a whole name. -/
def matchesName (pattern name : Text) : Bool := admits (items pattern.length pattern) name

/-! ### Patterns for paths -/

/-- Whether a text has a wildcard. -/
def hasWildcard (t : Text) : Bool := t.any fun c => c == '*' || c == '?' || c == '['

/-- Whether a name is passed over. -/
def isHidden (name : Text) : Bool := Text.startsWith ['.'] name

/-- Whether a node is a directory. -/
def isDirectory : Node → Bool
  | .directory _ => true
  | .file _ => false

mutual

/-- The paths of all directories below a node. -/
def directoriesBelow : Node → List Text
  | .file _ => []
  | .directory entries => directoriesAmong entries

/-- The paths of all directories among entries and below them. -/
def directoriesAmong : List (Text × Node) → List Text
  | [] => []
  | (name, node) :: rest =>
    let own := if isHidden name || !isDirectory node then []
      else name :: (directoriesBelow node).map fun p => Path.join name p
    own ++ directoriesAmong rest

end

/-- The node at a path, where the empty path is the working directory. -/
def nodeAt (f : Files) (path : Text) : Node :=
  match f.find (if path.isEmpty then ['.'] else path) with
  | .ok node => node
  | .error _ => .directory []

/-- The names in a directory that a pattern for names matches. -/
def namesIn (f : Files) (directories : Bool) (path pattern : Text) : List Text :=
  match nodeAt f path with
  | .file _ => []
  | .directory entries =>
    let shown := entries.filter fun e =>
      (!directories || isDirectory e.2) && (isHidden pattern || !isHidden e.1)
    (shown.map (·.1)).filter (matchesName pattern)

/-- The paths below a directory that the last part of a pattern matches. -/
def below (f : Files) (directories : Bool) (path last : Text) : List Text :=
  if last == "**".toList then [] :: directoriesBelow (nodeAt f path)
  else if hasWildcard last then namesIn f directories path last
  else if last.isEmpty then (if f.isDirectory path then [[]] else [])
  else if f.exists? (Path.join path last) then [last] else []

/-- The paths that a pattern matches; `directories` asks for directories alone. -/
def expand (f : Files) : Nat → Bool → Text → List Text
  | 0, _, _ => []
  | fuel + 1, directories, pattern =>
    let last := Path.baseName pattern
    let front := Path.parent pattern
    if !hasWildcard pattern then if f.exists? pattern then [pattern] else []
    else if front.isEmpty then below f directories [] last
    else
      let starts := if front != pattern && hasWildcard front then
        expand f fuel true front else [front]
      starts.flatMap fun start => (below f directories start last).map (Path.join start)

/-- The paths of a tree that a pattern matches. -/
def find (f : Files) (pattern : Text) : List Text := expand f (pattern.length + 1) false pattern

example : matchesName "a*[b-d]?" "axxcz" = true ∧ matchesName "[!a]" "a" = false := by decide

end PlainSteps.Glob
