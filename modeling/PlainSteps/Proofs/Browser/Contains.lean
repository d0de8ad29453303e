import PlainSteps.Proofs.Browser.Targets
import PlainSteps.Proofs.Compilation.Templates
import PlainSteps.Proofs.Facts.Target
import PlainSteps.Proofs.Text.Lower

/-! # Checks for a quoted text

A step that checks for a quoted text becomes an action that finds the element, reads its visible
text and looks for the quoted text in it. Both are put in lower case first, each by itself, and
whether the action passes is decided by these two texts alone (`contains_passes`). Where the quoted
text has a loose sigma, its lower case is not that of the same letters inside a longer word: there
the action fails, and its result says that the element does not contain what it does contain.
-/

namespace PlainSteps

open Script Locator

variable {σ : Type} {h : Host σ}

namespace Execution

variable {config : Application} {element quoted description t : Text}
  {found : Option Query} {st st₁ st₂ : σ} {own : List Request}

/-- What the visible text of an element makes of a check for a quoted text. -/
def containsVerdict (element quoted t : Text) : Except StepError Text :=
  if Text.includes (Text.lower quoted) (Text.lower t) then
    .ok ("Assert successful: ".toList ++ element ++ ' ' :: (containsMark ++ quoted))
  else .error (.lacks element quoted)

theorem containsVerdict_ok_iff (element quoted t : Text) :
    (∃ details, containsVerdict element quoted t = .ok details) ↔
      Text.includes (Text.lower quoted) (Text.lower t) = true := by
  unfold containsVerdict
  split <;> simp [*]

/-- A condition that quotes a text does not ask for hiding, whatever the text says. -/
theorem perform_containing (config : Application) (element quoted description : Text) :
    perform config (.assert element (containsMark ++ quoted) description) =
      assertFound config element (containsMark ++ quoted) := rfl

/-- Once the element is found and its text is read, the check ends with the verdict on that text. -/
theorem perform_containing_plays (quoted description : Text)
    (hsearch : (resolve config element).run.Plays h st (.ok found) st₁ own)
    (hread : h.answer (.innerText (found.getD (.selector "body"))) st₁ = (.ok t, st₂)) :
    (perform config (.assert element (containsMark ++ quoted) description)).run.Plays h st
      (containsVerdict element quoted t) st₂ (own ++
        [.innerText (found.getD (.selector "body"))]) := by
  have hmark : Text.startsWith containsMark (containsMark ++ quoted) = true :=
    by simp [Text.startsWith]
  have htaken : (containsMark ++ quoted).drop containsMark.length = quoted := List.drop_left
  rw [perform_containing]
  unfold assertFound
  rw [hmark]
  refine plays_run_bind_iff.mpr (.inr ⟨found, st₁, own, _, hsearch, ?_, rfl⟩)
  rw [if_pos rfl, htaken]
  refine plays_run_bind_iff.mpr
    (.inr ⟨t, st₂, [_], [], Acting.request_plays_iff.mpr ⟨_, hread, rfl, rfl⟩, ?_, rfl⟩)
  unfold containsVerdict
  cases Text.includes (Text.lower quoted) (Text.lower t) with
  | true => exact ⟨rfl, rfl⟩
  | false => exact ⟨rfl, rfl⟩

/-- The check passes just when its verdict is good. -/
theorem containing_passes_iff {s : Setting} {n : Int}
    (hsearch : (resolve s.config element).run.Plays h st (.ok found) st₁ own)
    (hread : h.answer (.innerText (found.getD (.selector "body"))) st₁ = (.ok t, st₂))
    (description : Text) :
    (∃ r st' calls,
      (execute s (.assert element (containsMark ++ quoted) description) n).run.Plays h st
        (.ok r) st'
        calls ∧ r.status = StepResult.passed) ↔
        Text.includes (Text.lower quoted) (Text.lower t) = true := by
  have hdone := perform_containing_plays quoted description hsearch hread
  rw [← containsVerdict_ok_iff element]
  constructor
  · rintro ⟨r, st', calls, hplays, hpassed⟩
    obtain ⟨details, hperform⟩ := perform_ok_of_passed hplays hpassed
    exact ⟨details, (hdone.unique hperform).1⟩
  · rintro ⟨details, hverdict⟩
    rw [hverdict] at hdone
    exact ⟨_, _, _, execute_of_perform_ok hdone, rfl⟩

/-- **A check for a quoted text is decided by that text and the text of the element.** A step that
checks and quotes a text compiles to one action, whose condition holds what is quoted as it stands.
Wherever the element is found and its text is read, the action passes just when the quoted text, in
lower case, is part of the text of the element, in lower case too; so a quoted text without a loose
sigma passes wherever it occurs, and one with a loose sigma fails in some text that it occurs in. -/
theorem contains_passes (c : Compiler) (h : Host σ) (s : Setting) (element quoted : Text) :
    (∀ (number depth : Int) (text : Text) (f : Pattern.Found),
      Rule.intentOf (Text.trim text) = .verifyElement →
      Facts.quotedText.find? (Text.trim text) = some f → f.group 1 = quoted →
        let check := Facts.verification c.config (Text.trim text)
        quoted ≠ [] ∧ (c.generator.generate number depth text).result =
          .ok [Action.assert check.element ("contains:".toList ++ quoted)
            (Generator.step number ("Verify ".toList ++ check.description))]) ∧
    (∀ (description t : Text) (n : Int) (st st₁ st₂ : σ) (found : Option Query)
      (own : List Request), (resolve s.config element).run.Plays h st (.ok found) st₁ own →
      h.answer (.innerText (found.getD (.selector "body"))) st₁ = (.ok t, st₂) →
        ((∃ r st' calls,
          (execute s (.assert element ("contains:".toList ++ quoted) description) n).run.Plays h st
            (.ok r) st' calls ∧ r.status = StepResult.passed) ↔
          Text.lower quoted <:+: Text.lower t)) ∧
    ((∀ t, quoted <:+: t → Text.lower quoted <:+: Text.lower t) ↔ ¬ Text.HasLooseSigma quoted) := by
  refine ⟨?_, ?_, ?_⟩
  · rintro number depth text f hintent hquoted rfl
    -- a quote decides the condition, before any words for hiding
    have hcondition : (Facts.verification c.config (Text.trim text)).condition =
        "contains:".toList ++ f.group 1 := by
      unfold Facts.verification
      rw [hquoted]
    refine ⟨(Facts.quotedText_parts hquoted).1, ?_⟩
    rw [← hcondition]
    exact Compiler.generate_verification hintent number depth
  · intro description t n st st₁ st₂ found own hsearch hread
    rw [← Text.includes_iff]
    exact containing_passes_iff hsearch hread description
  · rw [← Text.includes_lower_iff]
    exact forall₂_congr fun t _ => Text.includes_iff.symm

/-- A page whose menu shows a text. -/
def menuShowing (t : Text) : Stage :=
  { page := { elements := [.mk (some "#menu") none [] none none t 0 false none none []] } }

/-- A text that a step quotes is found between others, whatever its case. -/
theorem contains_passes_saved :
    (Compiler.bare.generator.generate 1 0 "Verify \"Saved\" is shown").result =
      .ok
      [Action.assert "page content" "contains:Saved"
        "Step 1: Verify page content contains \"Saved\""] ∧
    ∃ r st' calls,
      (execute ⟨withMenuId, none⟩ (.assert "menu" "contains:Saved" "check") 1).run.Plays Stage.host
      (menuShowing "3 files SAVED") (.ok r) st' calls ∧ r.status = StepResult.passed := by
  obtain ⟨hcompiled, hpasses, -⟩ :=
    contains_passes Compiler.bare Stage.host ⟨withMenuId, none⟩ "menu" "Saved"
  refine ⟨(hcompiled 1 0 "Verify \"Saved\" is shown" _ rfl rfl rfl).2, ?_⟩
  refine (hpasses "check" "3 files SAVED" 1 (menuShowing "3 files SAVED") _ _
    (some (.selector "#menu"))
    [.awaitVisible (.selector "#menu") 2000] ⟨rfl, rfl⟩ rfl).mpr ?_
  exact ⟨"3 files ", [], by decide⟩

/-- A word that ends in a sigma is not found at the beginning of a longer word, although it stands
there. -/
theorem contains_fails_sigma :
    "ΦΩΣ".toList <:+: "ΦΩΣΦΟΡΟΣ".toList ∧
    (Compiler.bare.generator.generate 1 0 "Verify \"ΦΩΣ\"").result =
      .ok
      [Action.assert "page content" "contains:ΦΩΣ" "Step 1: Verify page content contains \"ΦΩΣ\""] ∧
    ∃ st₁ st₂ st' r calls,
      (resolve withMenuId "menu").run.Plays Stage.host (menuShowing "ΦΩΣΦΟΡΟΣ")
        (.ok (some (.selector "#menu"))) st₁
        [.awaitVisible (.selector "#menu") 2000] ∧
      Stage.answer (.innerText (.selector "#menu")) st₁ = (.ok "ΦΩΣΦΟΡΟΣ".toList, st₂) ∧
      (execute ⟨withMenuId, none⟩ (.assert "menu" "contains:ΦΩΣ" "check") 1).run.Plays Stage.host
        (menuShowing "ΦΩΣΦΟΡΟΣ") (.ok r) st' calls ∧
      r.status = StepResult.failed ∧ r.error = some "\"menu\" does not contain \"ΦΩΣ\"" :=
  ⟨⟨[], "ΦΟΡΟΣ", by decide⟩, rfl, _, _, _, _, _, ⟨rfl, rfl⟩, rfl, ⟨rfl, rfl⟩, rfl, rfl⟩

end Execution

end PlainSteps
