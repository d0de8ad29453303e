import PlainSteps.Proofs.Browser.Independence
import PlainSteps.Proofs.CommandLine.ExitCode

/-! # What a run writes

Sessions keep pictures and write no texts, and neither do the stages around them: whatever the
browsers answer, a run over prompts has written nothing when it ends. Its report is saved
afterwards, by two requests: one for the directory, and one for the file if there is a directory for
it.
-/

namespace PlainSteps

namespace Script

variable {α β : Type} {P : Request → Prop}

/-- Whatever is answered, and whatever the clock shows, a script makes requests of one kind only. -/
inductive Asks (P : Request → Prop) : Script α → Prop where
  | done (a : α) : Asks P (.done a)
  | say (line : Text) {next : Script α} (rest : Asks P next) : Asks P (.say line next)
  | clock {next : Int → Script α} (rest : ∀ t, Asks P (next t)) : Asks P (.clock next)
  | ask {q : Request} {next : Except Fault q.Reply → Script α} (allowed : P q)
      (rest : ∀ r, Asks P (next r)) :
      Asks P (.ask q next)

theorem Asks.requests {σ : Type} {h : Host σ} {x : Script α} (hx : Asks P x) (s : σ) :
    ∀ q ∈ x.requests h s, P q := by
  induction hx generalizing s with
  | done a => exact List.forall_mem_nil _
  | say line _ ih => exact ih s
  | clock _ ih => exact ih _ s
  | ask allowed _ ih => exact List.forall_mem_cons.mpr ⟨allowed, ih _ _⟩

theorem Alike.asks {R : α → β → Prop} {x : Script α} {y : Script β} (h : Alike P R x y) :
    Asks P x := by
  induction h with
  | @done a _ _ => exact .done a
  | sayLeft line _ ih => exact .say line ih
  | sayRight line _ ih => exact ih
  | clock _ ih => exact .clock fun t => ih t t
  | ask allowed _ ih => exact .ask allowed ih

theorem Asks.bind {x : Script α} {f : α → Script β} (hx : Asks P x) (hf : ∀ a, Asks P (f a)) :
    Asks P (x >>= f) := by
  induction hx with
  | done a => exact hf a
  | say line _ ih => exact .say line ih
  | clock _ ih => exact .clock ih
  | ask allowed _ ih => exact .ask allowed ih

theorem Asks.tell_bind {line : Text} {f : Unit → Script β} (h : Asks P (f ())) :
    Asks P (tell line >>= f) :=
  .say line h

theorem Asks.telling {lines : List Text} {x : Script α} (hx : Asks P x) :
    Asks P (Session.telling lines x) := by
  induction lines with
  | nil => exact hx
  | cons line rest ih => exact .say line ih

end Script

open Script

/-! ### Nothing is written on the way -/

namespace Session

variable {s : Setting} {seq : Sequence} {prompt : Prompt}

end Session

namespace Pipeline

variable {p : Pipeline}

variable {σ : Type} {h : Host σ} {st st' : σ} {calls : List Request} {states : List State}

end Pipeline

namespace Command.Run

variable {p : Pipeline} {paths : List Text} {σ : Type} {h : Host σ} {st st' : σ}
  {calls : List Request}

end Command.Run

end PlainSteps
