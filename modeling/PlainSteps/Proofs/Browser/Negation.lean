import PlainSteps.Config.Shipped
import PlainSteps.Proofs.Browser.Contains

/-! # Checks that something is not to be seen

A step with words for hiding asks for a check that only the absence of its element passes, and
without quotes that is what it gets. But a text between quotes is looked for before these words are,
wherever in the step it stands, and then they are not looked for at all: the check is the one for a
text that the element should contain. It passes on a page where the element is found, and does so
just when the element shows what the step says is not to be seen.
-/

namespace PlainSteps

open Script Locator

variable {σ : Type} {h : Host σ}

/-! ### The condition of a negated check -/

namespace Facts

variable {text : Text} {f : Pattern.Found}

theorem condition_of_quoted (config : Config) (hquoted : quotedText.find? text = some f) :
    (verification config text).condition = "contains:".toList ++ f.group 1 := by
  unfold verification
  rw [hquoted]

theorem condition_of_hidden (config : Config) (hnone : quotedText.find? text = none)
    (hhidden : hiddenWords.occursIn text = true) :
    (verification config text).condition = "hidden" := by
  unfold verification
  rw [hnone]
  dsimp only
  rw [if_pos hhidden]

end Facts

/-! ### When it passes -/

namespace Execution

variable {s : Setting} {element quoted description : Text} {n : Int}
  {found : Option Query} {st st₁ : σ} {own : List Request}

/-- An action on a page that passes. -/
def Passes (h : Host σ) (s : Setting) (a : Action) (n : Int) (st : σ) : Prop :=
  ∃ r st' calls, (execute s a n).run.Plays h st (.ok r) st' calls ∧ r.status = StepResult.passed

theorem perform_hidden_run (config : Application) (element description : Text) :
    (perform config (.assert element "hidden" description)).run =
      hiddenVerdict element <$> (resolve config element).run :=
  assertHidden_run config element

/-- Only the absence of its element passes a check for hiding. -/
theorem passes_hidden_iff : Passes h s (.assert element "hidden" description) n st ↔
    ∃ tried st' calls, (resolve s.config element).run.Plays h st
      (.error (.notFound element tried)) st' calls := by
  constructor
  · rintro ⟨r, st', calls, hplays, hpassed⟩
    obtain ⟨details, hdone⟩ := perform_ok_of_passed hplays hpassed
    rw [perform_hidden_run, plays_map_iff] at hdone
    obtain ⟨outcome, hsearch, hverdict⟩ := hdone
    obtain ⟨name, tried, rfl⟩ := hiddenVerdict_ok hverdict.symm
    obtain rfl := (resolve_notFound_iff.mp hsearch).2.1
    exact ⟨tried, st', calls, hsearch⟩
  · rintro ⟨tried, st', calls, hsearch⟩
    have hdone : (perform s.config (.assert element "hidden" description)).run.Plays h st
        (.ok ("Assert successful: ".toList ++ element ++ " hidden")) st' calls := by
      rw [perform_hidden_run, plays_map_iff]
      exact ⟨_, hsearch, rfl⟩
    exact ⟨_, _, _, execute_of_perform_ok hdone, rfl⟩

/-- A check for a quoted text passes only where the text of its element is read. -/
theorem read_of_containing_passes
    (hsearch : (resolve s.config element).run.Plays h st (.ok found) st₁ own)
    (hpasses : Passes h s (.assert element (containsMark ++ quoted) description) n st) :
    ∃ t st₂, h.answer (.innerText (found.getD (.selector "body"))) st₁ = (.ok t, st₂) := by
  obtain ⟨r, st', calls, hplays, hpassed⟩ := hpasses
  obtain ⟨details, hdone⟩ := perform_ok_of_passed hplays hpassed
  have hmark : Text.startsWith containsMark (containsMark ++ quoted) = true :=
    by simp [Text.startsWith]
  rw [perform_containing] at hdone
  unfold assertFound at hdone
  rw [hmark] at hdone
  obtain ⟨found', st₁', _, _, hfound, hrest, -⟩ := plays_run_bind_ok_iff.mp hdone
  obtain ⟨hsame, rfl, -⟩ := hfound.unique hsearch
  obtain rfl := Except.ok.inj hsame
  rw [if_pos rfl] at hrest
  obtain ⟨t, st₂, _, _, hread, -, -⟩ := plays_run_bind_ok_iff.mp hrest
  obtain ⟨answer, hanswer, hok, -⟩ := Acting.request_plays_iff.mp hread
  cases answer with
  | error f => cases hok
  | ok t' => exact ⟨t', st₂, hanswer⟩

/-- Where its element is found, a check for a quoted text passes just when the text of the element
shows it. -/
theorem passes_containing_iff
    (hsearch : (resolve s.config element).run.Plays h st (.ok found) st₁ own) :
    Passes h s (.assert element (containsMark ++ quoted) description) n st ↔
      ∃ t st₂, h.answer (.innerText (found.getD (.selector "body"))) st₁ = (.ok t, st₂) ∧
        Text.lower quoted <:+: Text.lower t := by
  constructor
  · intro hpasses
    obtain ⟨t, st₂, hread⟩ := read_of_containing_passes hsearch hpasses
    exact ⟨t, st₂, hread,
      Text.includes_iff.mp ((containing_passes_iff hsearch hread description).mp hpasses)⟩
  · rintro ⟨t, st₂, hread, hshown⟩
    exact (containing_passes_iff hsearch hread description).mpr (Text.includes_iff.mpr hshown)

/-- **Words for hiding are lost where something is quoted.** For a step with such words, on every
page and under every configuration: without a text between quotes its check passes just when the
search does not find its element. With one it passes, where the element is found, just when the text
of the element is read and shows what is quoted. -/
theorem negated_passes (config : Config) (text : Text)
    (hhidden : Facts.hiddenWords.occursIn text = true) (h : Host σ) (s : Setting)
    (description : Text) (n : Int) (st : σ) :
    let check := Facts.verification config text
    (Facts.quotedText.find? text = none →
      (Passes h s (.assert check.element check.condition description) n st ↔ ∃ tried st' calls,
        (resolve s.config check.element).run.Plays h st
          (.error (.notFound check.element tried)) st' calls)) ∧
    ∀ found st₁ own, (resolve s.config check.element).run.Plays h st (.ok found) st₁ own →
      (Passes h s (.assert check.element check.condition description) n st ↔
        ∃ f t st₂, Facts.quotedText.find? text = some f ∧
          h.answer (.innerText (found.getD (.selector "body"))) st₁ = (.ok t, st₂) ∧
          Text.lower (f.group 1) <:+: Text.lower t) := by
  intro check
  refine ⟨fun hnone => ?_, fun found st₁ own hsearch => ?_⟩
  · rw [show check.condition = _ from Facts.condition_of_hidden config hnone hhidden]
    exact passes_hidden_iff
  · cases hquoted : Facts.quotedText.find? text with
    | none =>
      rw [show check.condition = _ from Facts.condition_of_hidden config hquoted hhidden,
        passes_hidden_iff]
      constructor
      · rintro ⟨tried, st', calls, hmissing⟩
        cases (hmissing.unique hsearch).1
      · rintro ⟨f, -, -, hf, -⟩
        cases hf
    | some f =>
      rw [show check.condition = _ from Facts.condition_of_quoted config hquoted]
      refine (passes_containing_iff hsearch).trans ?_
      simp

/-- A page that shows nothing but a text. -/
def bodyShowing (t : Text) : Stage :=
  { page := { elements := [.mk (some "body") none [] none none t 0 false none none []] } }

/-- Without quotes the check passes on a page that has no body to be found, and not on one that
has. -/
theorem negated_passes_unquoted :
    Facts.hiddenWords.occursIn "Verify it is not visible" = true ∧
      Passes Stage.host ⟨Config.shipped, none⟩ (.assert "page content" "hidden" "check") 1 {} ∧
      ¬ Passes Stage.host ⟨Config.shipped, none⟩ (.assert "page content" "hidden" "check") 1
        (bodyShowing "Saved") := by
  have hhidden : Facts.hiddenWords.occursIn "Verify it is not visible" = true := by decide +kernel
  have hcheck : Facts.verification Config.shipped "Verify it is not visible" =
      ⟨"page content", "hidden", "page content is hidden"⟩ := by decide +kernel
  have hnone : (Facts.quotedText.find? "Verify it is not visible").isNone = true :=
    by decide +kernel
  have hpasses := negated_passes Config.shipped "Verify it is not visible" hhidden Stage.host
    ⟨Config.shipped, none⟩
    "check" 1
  rw [hcheck] at hpasses
  refine ⟨hhidden, ((hpasses {}).1 (Option.isNone_iff_eq_none.mp hnone)).mpr ⟨_, _, _, rfl, rfl⟩,
    ?_⟩
  rw [(hpasses (bodyShowing "Saved")).2 _ _ _ ⟨rfl, rfl⟩]
  rintro ⟨f, -, -, hf, -⟩
  rw [Option.isNone_iff_eq_none.mp hnone] at hf
  cases hf

/-- A step says, outside its quotes, that a quoted text is not visible, and its check passes on a
page that is found and shows the text. -/
theorem negated_quote_passes :
    Facts.hiddenWords.occursIn " is not visible" = true ∧
    Facts.verification Config.shipped ("Verify ".toList ++
      ("\"Saved\"".toList ++ " is not visible")) =
      ⟨"page content", "contains:Saved", "page content contains \"Saved\""⟩ ∧
    (∃ st₁ own, (resolve Config.shipped "page content").run.Plays Stage.host (bodyShowing "Saved")
      (.ok (some (.selector "body"))) st₁ own) ∧
    Passes Stage.host ⟨Config.shipped, none⟩ (.assert "page content" "contains:Saved" "check") 1
      (bodyShowing "Saved") :=
  ⟨by decide +kernel, by decide +kernel, ⟨_, _, rfl, rfl⟩, _, _, _, ⟨rfl, rfl⟩, rfl⟩

end Execution

end PlainSteps
