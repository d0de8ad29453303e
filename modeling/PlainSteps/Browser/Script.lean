import PlainSteps.Config.Application
import PlainSteps.Files.Tree
import PlainSteps.Told

/-! # Scripts

A script is a conversation with a browser and the files beside it: it tells lines, reads the clock,
and makes requests, going on with whatever is answered. Nothing is assumed of the answers: every
request may fail in every way. A host is one behaviour of a browser; playing a script on it gives
the script's result.
-/

namespace PlainSteps

/-- How a request fails. -/
inductive Fault where
  /-- The browser gave up waiting. -/
  | timeout (message : Text)
  /-- Another error of the browser. -/
  | browser (message : Text)
  /-- A directory cannot be made, or a file not be written. -/
  | file (e : FileError)
  /-- Another error from outside the browser. -/
  | other (message : Text)
  deriving DecidableEq, Repr

namespace Fault

/-- The message of a fault. -/
def message : Fault → Text
  | timeout m => m
  | browser m => m
  | file e => e.message
  | other m => m

/-- Whether a fault comes from the browser. -/
def isBrowser : Fault → Bool
  | timeout _ => true
  | browser _ => true
  | _ => false

end Fault

/-- How elements are looked up on a page; the patterns are written ones. -/
inductive Query where
  | selector (css : Text)
  | role (role name : Text)
  | label (pattern : Text)
  | placeholder (pattern : Text)
  | text (pattern : Text)
  deriving DecidableEq, Repr

/-- What a script asks for. Requests about elements mean the first one that the query finds. -/
inductive Request where
  | goto (url : Option Text)
  | pause (ms : Int)
  | awaitUrl (pattern : Text) (timeout : Int)
  | awaitVisible (query : Query) (timeout : Int)
  | fill (query : Query) (value : Text)
  | click (query : Query)
  | innerText (query : Query)
  | screenshot (path : Text)
  | makeDirectory (path : Text)
  | writeText (path text : Text)
  | launch (engine : Text) (headless : Bool) (channel : Option Text)
  | newPage
  | close
  deriving DecidableEq, Repr

/-- What a request is answered with. -/
abbrev Request.Reply : Request → Type
  | innerText _ => Text
  | _ => Unit

/-- A conversation that ends in a value. -/
inductive Script (α : Type) where
  | done (a : α)
  | say (line : Text) (next : Script α)
  | clock (next : Int → Script α)
  | ask (request : Request) (next : Except Fault request.Reply → Script α)

namespace Script

/-- One script after another. -/
def bind {α β : Type} : Script α → (α → Script β) → Script β
  | done a, f => f a
  | say line next, f => say line (bind next f)
  | clock next, f => clock fun t => bind (next t) f
  | ask q next, f => ask q fun r => bind (next r) f

instance : Monad Script where
  pure := done
  bind := bind

/-- Tells one line. -/
def tell (line : Text) : Script Unit := say line (done ())

/-- The time in milliseconds. -/
def now : Script Int := clock done

/-- Makes a request. -/
def request (q : Request) : Script (Except Fault q.Reply) := ask q done

@[simp] theorem pure_bind' {α β : Type} (a : α) (f : α → Script β) : (done a).bind f = f a := rfl

theorem bind_done {α : Type} (x : Script α) : x.bind done = x := by
  induction x with
  | done a => rfl
  | say line next ih => simp [bind, ih]
  | clock next ih => simp [bind, ih]
  | ask q next ih => simp [bind, ih]

theorem bind_assoc' {α β γ : Type} (x : Script α) (f : α → Script β) (g : β → Script γ) :
    (x.bind f).bind g = x.bind fun a => (f a).bind g := by
  induction x with
  | done a => rfl
  | say line next ih => simp [bind, ih]
  | clock next ih => simp [bind, ih]
  | ask q next ih => simp [bind, ih]

instance : LawfulMonad Script := LawfulMonad.mk' Script
  (fun x => bind_done x)
  (fun _ _ => rfl)
  (fun x f g => bind_assoc' x f g)

end Script

/-- One behaviour of a browser, over states that are its own business. -/
structure Host (σ : Type) where
  time : σ → Int
  answer : (q : Request) → σ → Except Fault q.Reply × σ

namespace Script

/-- Plays a script on a host: its value, the host's state afterwards, and the lines told. -/
def play {σ α : Type} (h : Host σ) : Script α → σ → Told (α × σ)
  | done a, s => ⟨(a, s), []⟩
  | say line next, s => let r := play h next s; ⟨r.value, line :: r.lines⟩
  | clock next, s => play h (next (h.time s)) s
  | ask q next, s => let (r, s) := h.answer q s; play h (next r) s

end Script

end PlainSteps
