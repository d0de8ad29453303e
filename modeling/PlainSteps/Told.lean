import PlainSteps.Text.Basic

/-! # Results with a log

A computation that tells its reader, line by line, what it does. The lines are part of the result,
in the order in which they were told.
-/

namespace PlainSteps

/-- A value with the lines told while it was found. -/
structure Told (α : Type) where
  value : α
  lines : List Text
  deriving DecidableEq, Repr

namespace Told

/-- A value with nothing told. -/
def pure {α : Type} (a : α) : Told α := ⟨a, []⟩

/-- One computation after another: the lines of the first come first. -/
def bind {α β : Type} (x : Told α) (f : α → Told β) : Told β :=
  let y := f x.value
  ⟨y.value, x.lines ++ y.lines⟩

instance : Monad Told where
  pure := Told.pure
  bind := Told.bind

/-- Tells one line. -/
def say (line : Text) : Told Unit := ⟨(), [line]⟩

@[simp] theorem value_pure {α : Type} (a : α) : (Pure.pure a : Told α).value = a := rfl

@[simp] theorem lines_pure {α : Type} (a : α) : (Pure.pure a : Told α).lines = [] := rfl

@[simp] theorem value_bind {α β : Type} (x : Told α) (f : α → Told β) :
    (x >>= f).value = (f x.value).value := rfl

@[simp] theorem lines_bind {α β : Type} (x : Told α) (f : α → Told β) :
    (x >>= f).lines = x.lines ++ (f x.value).lines := rfl

@[simp] theorem value_say (line : Text) : (say line).value = () := rfl

@[simp] theorem lines_say (line : Text) : (say line).lines = [line] := rfl

instance : LawfulMonad Told := LawfulMonad.mk' Told
  (fun x => by cases x; simp [Functor.map, bind, pure])
  (fun _ _ => rfl)
  (fun x f g => by simp [Bind.bind, bind, List.append_assoc])

/-- The lines as one text, each ended by a line feed. -/
def transcript (lines : List Text) : Text := lines.flatMap (· ++ ['\n'])

end Told

end PlainSteps
