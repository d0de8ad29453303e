import PlainSteps.Text.Quoted

/-! # Paths

Paths as texts with slashes between their names. These functions look at the text alone, not at what
is stored there.
-/

namespace PlainSteps.Path

/-- Whether a path begins at the root. -/
def isAbsolute (p : Text) : Bool := Text.startsWith ['/'] p

/-- A path below another one; an absolute path stands for itself. -/
def join (base p : Text) : Text :=
  if isAbsolute p then p
  else if base.isEmpty || Text.endsWith ['/'] base then base ++ p
  else base ++ '/' :: p

/-- The last name of a path. -/
def baseName (p : Text) : Text := (p.reverse.takeWhile (· != '/')).reverse

/-- The path in front of the last name, without slashes at its end unless it is the root. -/
def parent (p : Text) : Text :=
  let front := (p.reverse.dropWhile (· != '/')).reverse
  let trimmed := Text.trimRightOf (· == '/') front
  if trimmed.isEmpty then front else trimmed

/-- A path without the extension of its last name. Dots in front of a name begin no extension. -/
def stem (p : Text) : Text :=
  let name := baseName p
  let dots := name.takeWhile (· == '.')
  let body := name.drop dots.length
  let extension := body.reverse.takeWhile (· != '.')
  if extension.length == body.length then p else p.take (p.length - extension.length - 1)

/-- One step of a path from a place given by the names above it, the nearest first. -/
def enter (above : List Text) (name : Text) : List Text :=
  if name.isEmpty || name == ['.'] then above
  else if name == "..".toList then above.tail
  else name :: above

/-- The absolute path that a path means in a directory, by its text alone. -/
def absolute (directory p : Text) : Text :=
  let full := join directory p
  let names := ((Text.splitOn '/' full).foldl enter []).reverse
  let root := if Text.startsWith "//" full && !Text.startsWith "///" full then
    "//".toList else ['/']
  root ++ Text.joinWith ['/'] names

example : stem "a/b.c.txt" = "a/b.c".toList ∧ stem "a.b/.x" = "a.b/.x".toList := by decide
example : join "d" "x.csv" = "d/x.csv".toList ∧ join "d" "/x" = "/x".toList := by decide
example : absolute "/w" "a/../b/." = "/w/b".toList := by decide

end PlainSteps.Path
