import PlainSteps.Proofs.Browser.Independence
import PlainSteps.Proofs.Pipeline.Passing

/-! # Failures in a report

A prompt comes out of the pipeline in one of two ways: with a run on each browser, or stopped by an
error and then without runs. A run without success is an entry of the report, and an error stands
among its errors if it has a message. What is left out are the errors without one: they keep a
prompt from being a success, and the report says nothing of them.
-/

namespace PlainSteps

open Script

variable {σ : Type} {h : Host σ} {st st' : σ} {calls : List Request}

/-! ### Where errors come from -/

theorem GenerationError.message_ne_nil (e : GenerationError) : e.message ≠ [] := by
  cases e with
  | duration e => cases e; decide
  | number e =>
    cases e with
    | invalid t => exact List.append_ne_nil_of_left_ne_nil (List.cons_ne_nil _ _) _
    | tooLong n =>
      exact List.append_ne_nil_of_left_ne_nil
        (List.append_ne_nil_of_left_ne_nil (List.cons_ne_nil _ _) _) _

namespace Session

variable {s : Setting} {seq : Sequence} {prompt : Prompt} {requested : List Text} {parallel : Bool}
  {e : SessionError}

/-- An error of all browsers together is that of a session. -/
theorem Collects.error {session : Text → Script (Except SessionError Run)}
    {mode : List Text → Script (Except SessionError (List Run))} (hmode : Collects h session mode)
    {browsers : List Text} (herror : ((mode browsers).play h st).value.1 = .error e) :
    ∃ b ∈ browsers, ∃ st₁, ((session b).play h st₁).value.1 = .error e := by
  induction browsers generalizing st with
  | nil =>
    rw [hmode.nil] at herror
    cases herror
  | cons b rest ih =>
    rw [hmode.cons] at herror
    cases hfirst : ((session b).play h st).value.1 with
    | error d =>
      rw [hfirst] at herror
      cases herror
      exact ⟨b, .head _, st, hfirst⟩
    | ok r =>
      rw [hfirst] at herror
      cases hrest : ((mode rest).play h ((session b).play h st).value.2).value.1 with
      | ok others =>
        rw [hrest] at herror
        cases herror
      | error d =>
        rw [hrest] at herror
        cases herror
        obtain ⟨b', hb', hsession⟩ := ih hrest
        exact ⟨b', .tail _ hb', hsession⟩

end Session

/-! ### How a prompt comes out of the pipeline -/

namespace Pipeline

variable {p : Pipeline}

end Pipeline

/-! ### What a report mentions -/

namespace Report

/-- The failure of a prompt can be seen in a report: its error is among the errors, or one of its
runs is an entry without success. -/
def Mentions (report : Report) (t : State) : Prop :=
  (∃ e, t.error = some e ∧ (t.prompt.file, e) ∈ report.errors) ∨
    ∃ r ∈ t.runs, r.success = false ∧ entryOf t r ∈ report.entries

section OfStates

variable {app : Text} {browsers : List Text} {parallel : Bool} {now : Moment} {states : List State}

end OfStates

end Report

namespace Pipeline

end Pipeline

end PlainSteps
