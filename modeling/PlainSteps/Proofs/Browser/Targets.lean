import PlainSteps.Proofs.Browser.Breakage
import PlainSteps.Proofs.Browser.Resolution
import PlainSteps.Config.Record

/-! # What actions make of a search

An action on an element begins with the search for it. Most actions need what the search finds and
hand its error on; the check that an element is hidden is the other way round, since it passes just
when every strategy is rejected. A search itself ends in an error that nothing expects only where it
comes to a text that the libraries take for no pattern, as long as the page fails by its browser
alone: then the strategies behind that one are not tried.
-/

namespace PlainSteps

open Script Locator

variable {σ : Type} {h : Host σ}

/-- Whether a request is a call of the page or of an element on it. -/
def Request.isPageCall : Request → Bool
  | .goto .. | .pause .. | .awaitUrl .. | .awaitVisible .. | .fill .. | .click .. | .innerText
      .. | .screenshot .. =>
    true
  | _ => false

/-- The calls of the page fail by the browser alone. -/
def Host.FailsByBrowser (h : Host σ) : Prop :=
  ∀ (q : Request) (st : σ) (f : Fault), q.isPageCall = true → (h.answer q st).1 = .error f →
    f.isBrowser = true

theorem Host.FailsByBrowser.staysWithBrowser (hpage : h.FailsByBrowser) (config : Application) :
    ∀ (ss : List Strategy) (st : σ), StaysWithBrowser h config ss st
  | [], _ => trivial
  | s :: rest, st => by
    intro f st₁ hrefused
    refine ⟨?_, staysWithBrowser hpage config rest st₁⟩
    unfold answerTo at hrefused
    split at hrefused
    · exact hpage _ st f rfl (congrArg Prod.fst hrefused)
    · exact hpage _ st f rfl (congrArg Prod.fst hrefused)

namespace Locator

variable {config : Application} {element : Text} {st st' : σ} {calls : List Request}

/-- The search for an element comes to a text that is no pattern: all strategies before it are
rejected. -/
def MeetsUnreadable (h : Host σ) (config : Application) (element : Text) (st : σ) : Prop :=
  ∃ before s rest faults st₁, strategies config element = before ++ s :: rest ∧
    Rejected h config before faults st st₁ ∧ ¬ IsUsable config s

theorem meetsUnreadable_iff : MeetsUnreadable h config element st ↔
    ∃ message st' calls, (resolve config element).run.Plays h st
      (.error (.pattern message)) st' calls := by
  unfold resolve
  simp only [tryEach_plays_iff]
  constructor
  · rintro ⟨before, s, rest, faults, st₁, hss, hrejected, hunusable⟩
    obtain ⟨hkind, message, hunread⟩ := not_isUsable_iff.mp hunusable
    have hdecides : Decides h config s st₁ (.error (.pattern message)) st₁ [] :=
      .unreadable hkind hunread
    exact ⟨message, st₁, _, .inr ⟨before, s, rest, faults, st₁, [], hss, hrejected, hdecides, rfl⟩⟩
  · rintro ⟨message, st', calls,
      ⟨_, -, hr, -⟩ | ⟨before, s, rest, faults, st₁, own, hss, hrejected, hdecides, -⟩⟩
    · cases hr
    · cases hdecides with
      | unreadable hkind hunread =>
        exact ⟨before, s, rest, faults, _, hss, hrejected,
          not_isUsable_iff.mpr ⟨hkind, message, hunread⟩⟩

end Locator

theorem ErrorType.word_injective {t u : ErrorType} (hword : t.word = u.word) : t = u := by
  cases t <;> cases u <;> first | rfl | exact absurd hword (by decide)

namespace Execution

variable {config : Application} {element : Text} {a : Action} {st st' : σ} {calls : List Request}

/-! ### Failing unexpectedly -/

/-- A script fails from a state, and nothing expects it. -/
def FailsUnexpectedly {α : Type} (h : Host σ) (x : Acting α) (st : σ) : Prop :=
  ∃ e st' calls, x.run.Plays h st (.error e) st' calls ∧ e.type = .unexpected

section Parts

variable {α β : Type} {x : Acting α} {f : α → Acting β}

theorem not_failsUnexpectedly_pure (v : α) : ¬ FailsUnexpectedly h (pure v : Acting α) st := by
  rintro ⟨e, st', calls, hplays, -⟩
  cases (plays_run_pure_iff.mp hplays).1

theorem not_failsUnexpectedly_throw {e : StepError} (he : e.type ≠ .unexpected) :
    ¬ FailsUnexpectedly h (throw e : Acting α) st := by
  rintro ⟨e', st', calls, hplays, htype⟩
  obtain ⟨hsame, -, -⟩ := plays_pure_iff.mp hplays
  cases hsame
  exact he htype

/-- A call of the page fails by the browser, which is expected. -/
theorem not_failsUnexpectedly_request (hpage : h.FailsByBrowser) {q : Request}
    (hq : q.isPageCall = true) :
    ¬ FailsUnexpectedly h (Acting.request q) st := by
  rintro ⟨e, st', calls, hplays, htype⟩
  obtain ⟨answer, hanswer, he, -⟩ := Acting.request_plays_iff.mp hplays
  obtain ⟨fault, rfl, rfl⟩ := mapError_eq_error_iff.mp he.symm
  have hbrowser := hpage q st fault hq (congrArg Prod.fst hanswer)
  cases fault with
  | timeout => cases htype
  | browser => cases htype
  | file => cases hbrowser
  | other => cases hbrowser

/-- Where the second part never fails unexpectedly, it is the first that decides. -/
theorem failsUnexpectedly_bind_iff (hf : ∀ v st, ¬ FailsUnexpectedly h (f v) st) :
    FailsUnexpectedly h (x >>= f) st ↔ FailsUnexpectedly h x st := by
  constructor
  · rintro ⟨e, st', calls, hplays, htype⟩
    rcases plays_run_bind_iff.mp hplays with ⟨e', hfirst, he⟩ | ⟨v, st₁, _, after, -, hsecond, -⟩
    · cases he
      exact ⟨e, st', calls, hfirst, htype⟩
    · exact absurd ⟨e, st', after, hsecond, htype⟩ (hf v st₁)
  · rintro ⟨e, st', calls, hplays, htype⟩
    exact ⟨e, st', calls, plays_run_bind_iff.mpr (.inl ⟨e, hplays, rfl⟩), htype⟩

theorem not_failsUnexpectedly_bind (hx : ¬ FailsUnexpectedly h x st)
    (hf : ∀ v st, ¬ FailsUnexpectedly h (f v) st) :
    ¬ FailsUnexpectedly h (x >>= f) st := mt (failsUnexpectedly_bind_iff hf).mp hx

end Parts

/-- A search fails by not finding the element or by a pattern. -/
theorem resolve_error (hpage : h.FailsByBrowser) {e : StepError}
    (hplays : (resolve config element).run.Plays h st (.error e) st' calls) :
    (∃ tried, e = .notFound element tried) ∨ ∃ message, e = .pattern message := by
  have hstays := hpage.staysWithBrowser config (strategies config element) st
  rcases (resolve_error_iff hstays).mp hplays with ⟨-, he, -⟩ | ⟨_, _, _, _, _, -, -, -, -, he, -⟩
  · exact .inl ⟨_, he⟩
  · exact .inr ⟨_, he⟩

/-- A search fails unexpectedly just where it comes to a text that is no pattern. -/
theorem resolve_failsUnexpectedly_iff (hpage : h.FailsByBrowser) :
    FailsUnexpectedly h (resolve config element) st ↔ MeetsUnreadable h config element st := by
  rw [meetsUnreadable_iff]
  constructor
  · rintro ⟨e, st', calls, hplays, htype⟩
    rcases resolve_error hpage hplays with ⟨tried, rfl⟩ | ⟨message, rfl⟩
    · cases htype
    · exact ⟨message, st', calls, hplays⟩
  · rintro ⟨message, st', calls, hplays⟩
    exact ⟨_, st', calls, hplays, rfl⟩

/-! ### Actions on an element -/

/-- What goes on with the element that was found, which the page itself is not. -/
def withFound (element : Text) (next : Query → Acting Text) : Option Query → Acting Text
  | none => throw (.notFound element ["url match is not an interactive element"])
  | some q => next q

theorem target_eq (htarget : a.target = some element) : target a = pure element := by
  rw [target, htarget]

theorem elementOf_bind (htarget : a.target = some element) (next : Query → Acting Text) :
    elementOf config a >>= next = resolve config element >>= withFound element next := by
  unfold elementOf
  rw [target_eq htarget, pure_bind, bind_assoc]
  congr 1
  funext found
  cases found with
  | none => rfl
  | some q => exact pure_bind q next

/-- An action that needs its element and then makes one call of the page. -/
theorem failsUnexpectedly_elementOf_iff (hpage : h.FailsByBrowser)
    (htarget : a.target = some element) {q : Query → Request}
    (hq : ∀ found, (q found).isPageCall = true) (details : Text) :
    FailsUnexpectedly h (elementOf config a >>= fun found => Acting.request (q found) >>=
      fun _ => pure details) st ↔
      MeetsUnreadable h config element st := by
  rw [elementOf_bind htarget, failsUnexpectedly_bind_iff, resolve_failsUnexpectedly_iff hpage]
  intro found st
  cases found with
  | none => exact not_failsUnexpectedly_throw nofun
  | some found =>
    exact not_failsUnexpectedly_bind (not_failsUnexpectedly_request hpage (hq found))
      fun _ _ => not_failsUnexpectedly_pure details

/-- What the check that an element is hidden makes of a search. -/
def hiddenVerdict (element : Text) : Except StepError (Option Query) → Except StepError Text
  | .error (.notFound _ _) => .ok ("Assert successful: ".toList ++ element ++ " hidden")
  | .error e => .error e
  | .ok _ => .error (.visible element)

theorem assertHidden_run (config : Application) (element : Text) :
    (assertHidden config element).run = hiddenVerdict element <$> (resolve config element).run := by
  rw [map_eq_pure_bind]
  unfold assertHidden
  show (_ >>= _ : Script (Except StepError Text)) = _
  congr 1
  funext outcome
  cases outcome with
  | ok found => rfl
  | error e => cases e <;> rfl

/-- Errors other than the expected ones pass through the check for hiding. -/
theorem hiddenVerdict_unexpected_iff {outcome : Except StepError (Option Query)} {e : StepError}
    (htype : e.type = .unexpected) :
    hiddenVerdict element outcome = .error e ↔ outcome = .error e := by
  cases outcome with
  | ok found =>
    refine ⟨fun he => ?_, nofun⟩
    cases he
    cases htype
  | error e' =>
    cases e' with
    | notFound =>
      refine ⟨nofun, fun he => ?_⟩
      cases he
      cases htype
    | _ =>
      exact ⟨fun he => congrArg _ (Except.error.inj he), fun he => congrArg _ (Except.error.inj he)⟩

theorem failsUnexpectedly_assertHidden_iff (hpage : h.FailsByBrowser) :
    FailsUnexpectedly h (assertHidden config element) st ↔ MeetsUnreadable h config element st := by
  rw [← resolve_failsUnexpectedly_iff hpage]
  unfold FailsUnexpectedly
  rw [assertHidden_run]
  simp only [plays_map_iff]
  constructor
  · rintro ⟨e, st', calls, ⟨outcome, hplays, he⟩, htype⟩
    obtain rfl := (hiddenVerdict_unexpected_iff htype).mp he.symm
    exact ⟨e, st', calls, hplays, htype⟩
  · rintro ⟨e, st', calls, hplays, htype⟩
    exact ⟨e, st', calls, ⟨_, hplays, ((hiddenVerdict_unexpected_iff htype).mpr rfl).symm⟩, htype⟩

theorem failsUnexpectedly_assertFound_iff (hpage : h.FailsByBrowser) (condition : Text) :
    FailsUnexpectedly h (assertFound config element condition) st ↔
    MeetsUnreadable h config element st := by
  unfold assertFound
  rw [failsUnexpectedly_bind_iff, resolve_failsUnexpectedly_iff hpage]
  intro found st
  split
  · refine not_failsUnexpectedly_bind (not_failsUnexpectedly_request hpage rfl) fun text st => ?_
    split
    · exact not_failsUnexpectedly_bind (not_failsUnexpectedly_throw nofun) fun _ _ =>
        not_failsUnexpectedly_pure _
    · exact not_failsUnexpectedly_pure _
  · exact not_failsUnexpectedly_pure _

/-- **An action on an element fails unexpectedly just where its search comes to a text that is no
pattern.** -/
theorem perform_failsUnexpectedly_iff (hpage : h.FailsByBrowser) (htarget : a.target = some element)
    (hkind : a.kind = .fill ∨ a.kind = .click ∨ a.kind = .assert) :
    FailsUnexpectedly h (perform config a) st ↔ MeetsUnreadable h config element st := by
  unfold perform
  rcases hkind with hkind | hkind | hkind
  · rw [hkind]
    exact failsUnexpectedly_elementOf_iff hpage htarget (fun _ => rfl) _
  · rw [hkind]
    exact failsUnexpectedly_elementOf_iff hpage htarget (fun _ => rfl) _
  · rw [hkind]
    dsimp only
    rw [target_eq htarget, pure_bind]
    split
    · exact failsUnexpectedly_assertHidden_iff hpage
    · exact failsUnexpectedly_assertFound_iff hpage (conditionOf a)

/-! ### What is unexpected -/

/-- A result names the failure of its action. -/
theorem errorType_iff {s : Setting} {n : Int} {r : StepResult} {t : ErrorType}
    (hplays : (execute s a n).run.Plays h st (.ok r) st' calls) :
    r.errorType = some t.word ↔
      ∃ e st₁ own, (perform s.config a).run.Plays h st (.error e) st₁ own ∧ e.type = t := by
  rcases execute_plays hplays with ⟨details, duration, hperform, rfl⟩ |
    ⟨e, duration, st₁, own, _, hperform, -, -, rfl⟩
  · constructor
    · exact nofun
    · rintro ⟨e, st₁, own, herror, -⟩
      cases (hperform.unique herror).1
  · constructor
    · intro hword
      exact ⟨e, st₁, own, hperform, ErrorType.word_injective (Option.some.inj hword)⟩
    · rintro ⟨e', _, _, herror, rfl⟩
      cases (hperform.unique herror).1
      rfl

/-- On a page that fails by its browser alone only a directory that cannot be made keeps an action
from its result. -/
theorem execute_error_directory (hpage : h.FailsByBrowser) {s : Setting} {n : Int} {f : Fault}
    (hplays : (execute s a n).run.Plays h st (.error f) st' calls) :
    ∃ directory st₁, s.pictures = some directory ∧
      h.answer (.makeDirectory directory) st₁ = (.error f, st') := by
  obtain ⟨_, directory, st₁, _, _, -, hpictures, hbreaks, -⟩ := execute_error_iff.mp hplays
  cases hbreaks with
  | directory hrefused => exact ⟨directory, st₁, hpictures, hrefused⟩
  | screenshot _ hrefused hforeign =>
    have hbrowser := hpage _ _ f rfl (congrArg Prod.fst hrefused)
    rw [hforeign] at hbrowser
    cases hbrowser

/-- **Only a text that is no pattern is unexpected.** Whatever texts the libraries take for
patterns, on a page that fails by its browser alone: a search finds the element by its first
strategy that is not rejected, if its text is a pattern; it fails by naming every strategy just when
all are rejected; and it ends in another error just when it comes to a text that is no pattern,
whatever strategies stand behind that. An action on the element has a result unless the directory
for its picture cannot be made, and fails unexpectedly just when its search comes to such a text. -/
theorem unexpected_iff_meetsUnreadable (h : Host σ) (hpage : h.FailsByBrowser)
    (config : Application) (element : Text) (st : σ) :
    (∀ found st' calls, (resolve config element).run.Plays h st (.ok found) st' calls ↔
      ∃ before s rest faults st₁, strategies config element = before ++ s :: rest ∧
        Rejected h config before faults st st₁ ∧ IsUsable config s ∧
        answerTo h config s st₁ = (.ok (), st') ∧
        found = finding s ∧ calls = (before ++ [s]).map (requestOf config)) ∧
    (∀ tried,
      (∃ st' calls, (resolve config element).run.Plays h st
        (.error (.notFound element tried)) st' calls) ↔
      tried = (strategies config element).map Strategy.describe ∧
        ∃ faults st', Rejected h config (strategies config element) faults st st') ∧
    ((∃ r st' calls, (resolve config element).run.Plays h st r st' calls ∧
        ∀ e, r = .error e → ∃ tried, e = .notFound element tried) ↔
        ¬ MeetsUnreadable h config element st) ∧
    ∀ pictures a n, a.target = some element →
      (a.kind = .fill ∨ a.kind = .click ∨ a.kind = .assert) →
      (∀ r st' calls, (execute ⟨config, pictures⟩ a n).run.Plays h st (.ok r) st' calls →
        (r.errorType = some ErrorType.unexpected.word ↔ MeetsUnreadable h config element st)) ∧
      ∀ f st' calls, (execute ⟨config, pictures⟩ a n).run.Plays h st (.error f) st' calls →
        ∃ directory st₁, pictures = some directory ∧
        h.answer (.makeDirectory directory) st₁ = (.error f, st') := by
  refine ⟨fun _ _ _ => resolve_ok_iff, fun tried => ?_, ?_,
    fun pictures a n htarget hkind => ⟨?_, ?_⟩⟩
  · constructor
    · rintro ⟨st', calls, hplays⟩
      obtain ⟨⟨faults, hrejected⟩, -, htried, -⟩ := resolve_notFound_iff.mp hplays
      exact ⟨htried, faults, st', hrejected⟩
    · rintro ⟨htried, faults, st', hrejected⟩
      exact ⟨st', _, resolve_notFound_iff.mpr ⟨⟨faults, hrejected⟩, rfl, htried, rfl⟩⟩
  · rw [meetsUnreadable_iff]
    constructor
    · rintro ⟨r, st', calls, hplays, hexpected⟩ ⟨message, st₁, own, hunread⟩
      -- the search has one course only, so it cannot end in two ways
      obtain rfl := (hplays.unique hunread).1
      obtain ⟨tried, he⟩ := hexpected _ rfl
      cases he
    · intro hnever
      refine ⟨_, _, _, plays_self h _ st, fun e he => ?_⟩
      have hplays := plays_self h (resolve config element).run st
      rw [he] at hplays
      rcases resolve_error hpage hplays with hnotFound | ⟨message, rfl⟩
      · exact hnotFound
      · exact absurd ⟨message, _, _, hplays⟩ hnever
  · intro r st' calls hplays
    rw [← perform_failsUnexpectedly_iff hpage htarget hkind]
    exact errorType_iff hplays
  · intro f st' calls hplays
    obtain ⟨directory, st₁, hpictures, hrefused⟩ := execute_error_directory hpage hplays
    exact ⟨directory, st₁, (Option.filter_eq_some_iff.mp hpictures).1, hrefused⟩

/-- An application whose menu is looked for by a text that is no pattern, and then by an
attribute. -/
def withUnreadableMenu : Config where
  name := "demo"
  baseUrl := "http://app"
  elements := [("menu", [⟨.text, "(", none⟩, ⟨.selector, "#menu", none⟩])]

/-- A step that opens the menu. -/
def openMenu : Action := .click "menu" "open the menu"

/-- A browser that has the menu alone and waits for anything else in vain. -/
def menuOnly : Host Unit where
  time _ := 0
  answer
    | .awaitVisible q _, _ =>
      (if q = .selector "#menu" then .ok () else .error (.timeout "timed out"), ())
    | .awaitUrl .., _ => (.error (.timeout "timed out"), ())
    | .innerText _, _ => (.ok [], ())
    | .goto _, _ => (.ok (), ())
    | .pause _, _ => (.ok (), ())
    | .fill .., _ => (.ok (), ())
    | .click _, _ => (.ok (), ())
    | .screenshot _, _ => (.ok (), ())
    | .makeDirectory _, _ => (.ok (), ())
    | .writeText .., _ => (.ok (), ())
    | .launch .., _ => (.ok (), ())
    | .newPage, _ => (.ok (), ())
    | .close, _ => (.ok (), ())

theorem failsByBrowser_menuOnly : menuOnly.FailsByBrowser := by
  intro q st f hq hfault
  cases q with
  | awaitVisible q timeout =>
    unfold menuOnly at hfault
    dsimp only at hfault
    split at hfault
    · cases hfault
    · cases hfault
      rfl
  | awaitUrl => cases hfault; rfl
  | _ => cases hfault

/-- A click on a menu whose strategies can all be read does not fail unexpectedly. -/
theorem unexpected_iff_meetsUnreadable_readable : menuOnly.FailsByBrowser ∧
    ∃ r calls, (execute ⟨withMenu, none⟩ openMenu 1).run.Plays menuOnly () (.ok r) () calls ∧
      r.errorType ≠ some ErrorType.unexpected.word := by
  refine ⟨failsByBrowser_menuOnly, _, _, plays_self menuOnly _ (), ?_⟩
  rw [Ne,
    ((unexpected_iff_meetsUnreadable menuOnly failsByBrowser_menuOnly withMenu "menu" ()).2.2.2 none
      openMenu 1
    rfl (.inr (.inl rfl))).1 _ _ _ (plays_self menuOnly _ ())]
  rintro ⟨before, s, rest, _, _, hss, -, hunusable⟩
  have hmem : s ∈ withMenu.strategiesFor "menu" := by
    show s ∈ strategies withMenu "menu"
    rw [hss]
    exact List.mem_append_right before (.head rest)
  exact hunusable (isUsable_withMenu s hmem)

/-- The configuration is accepted, the page fails by its browser alone and has the menu, and yet the
search ends at the pattern, and a click fails unexpectedly. -/
theorem click_unreadable :
    (Config.ofJson withUnreadableMenu.toJson).toExcept = .ok withUnreadableMenu ∧
    menuOnly.FailsByBrowser ∧
    ⟨.selector, "#menu", none⟩ ∈ withUnreadableMenu.strategiesFor "menu" ∧
    answerTo menuOnly withUnreadableMenu ⟨.selector, "#menu", none⟩ () = (.ok (), ()) ∧
    (resolve withUnreadableMenu "menu").run.Plays menuOnly ()
      (.error (.pattern "missing ), unterminated subpattern at position 0")) () [] ∧
    ∃ r, (execute ⟨withUnreadableMenu, none⟩ openMenu 1).run.Plays menuOnly () (.ok r) () [] ∧
      r.errorType = some "unexpected_error" := by
  refine ⟨rfl, failsByBrowser_menuOnly, ?_, rfl, ⟨rfl, rfl⟩, _, ⟨rfl, rfl⟩, rfl⟩
  exact .tail _ (.head _)

/-! ### When a check for hiding passes -/

theorem hiddenVerdict_ok {outcome : Except StepError (Option Query)} {details : Text}
    (hverdict : hiddenVerdict element outcome = .ok details) :
    ∃ name tried, outcome = .error (.notFound name tried) := by
  unfold hiddenVerdict at hverdict
  split at hverdict
  · exact ⟨_, _, rfl⟩
  · cases hverdict
  · cases hverdict

theorem perform_ok_of_passed {s : Setting} {n : Int} {r : StepResult}
    (hplays : (execute s a n).run.Plays h st (.ok r) st' calls)
    (hpassed : r.status = StepResult.passed) :
    ∃ details, (perform s.config a).run.Plays h st (.ok details) st' calls := by
  rcases execute_plays hplays with ⟨details, _, hperform, -⟩ | ⟨_, _, _, _, _, -, -, -, rfl⟩
  · exact ⟨details, hperform⟩
  · exact absurd hpassed.symm StepResult.passed_ne_failed

/-- **An element passes for hidden just when the browser rejects each of its strategies,** by a
timeout or by any other error of its own. The strategies are then tried in their order, and nothing
else is asked of the page. -/
theorem hidden_passes_iff (h : Host σ) (s : Setting) (a : Action) (n : Int) (element : Text)
    (st st' : σ) (calls : List Request) (hkind : a.kind = .assert)
    (htarget : a.target = some element) (hcondition : a.condition = some "hidden") :
    (∃ r, (execute s a n).run.Plays h st (.ok r) st' calls ∧ r.status = StepResult.passed) ↔
      (∃ faults, Rejected h s.config (strategies s.config element) faults st st') ∧
        calls = (strategies s.config element).map (requestOf s.config) := by
  -- what the check says hangs on the outcome of the search alone
  have hperform : (perform s.config a).run = hiddenVerdict element <$>
      (resolve s.config element).run := by
    rw [← assertHidden_run]
    unfold perform conditionOf
    rw [hkind, hcondition]
    dsimp only
    rw [target_eq htarget, pure_bind]
    rfl
  constructor
  · rintro ⟨r, hplays, hpassed⟩
    obtain ⟨details, hdone⟩ := perform_ok_of_passed hplays hpassed
    rw [hperform, plays_map_iff] at hdone
    obtain ⟨outcome, hsearch, hverdict⟩ := hdone
    obtain ⟨name, tried, rfl⟩ := hiddenVerdict_ok hverdict.symm
    obtain ⟨hrejected, -, -, hcalls⟩ := resolve_notFound_iff.mp hsearch
    exact ⟨hrejected, hcalls⟩
  · rintro ⟨hrejected, hcalls⟩
    have hsearch := resolve_notFound_iff.mpr ⟨hrejected, rfl, rfl, hcalls⟩
    have hdone : (perform s.config a).run.Plays h st
      (.ok ("Assert successful: ".toList ++ element ++ " hidden")) st'
        calls := by
      rw [hperform, plays_map_iff]
      exact ⟨_, hsearch, rfl⟩
    exact ⟨_, execute_of_perform_ok hdone, rfl⟩

/-- A step that checks that the menu is hidden. -/
def checkNoMenu : Action :=
  { kind := .assert, target := some "menu", condition := some "hidden", description := "no menu" }

/-- A page whose menu cannot be waited for, as its browser is gone. -/
def gonePage : Stage :=
  { page := { elements := [.mk (some "#menu") none [] none none [] 0 false none none
      [("wait_for", .browser "Target closed")]] } }

/-- Where the menu is neither a button nor to be waited for, it passes for hidden. -/
theorem hidden_passes_iff_rejected : ∃ r st',
    (execute ⟨withMenu, none⟩ checkNoMenu 1).run.Plays Stage.host gonePage (.ok r) st'
      [.awaitVisible (.role "button" "more") 2000, .awaitVisible (.selector "#menu") 2000] ∧
    r.status = StepResult.passed := by
  have hrejected : Rejected Stage.host withMenu (strategies withMenu "menu") [_, _] gonePage _ :=
    .cons ⟨.inr (Libraries.acceptsEscaped_own "more"), rfl, rfl⟩
      (.cons ⟨.inl rfl, rfl, rfl⟩ (.nil _))
  obtain ⟨r, hplays⟩ :=
    (hidden_passes_iff Stage.host ⟨withMenu, none⟩ checkNoMenu 1 "menu" gonePage _ _
    rfl rfl rfl).mpr ⟨⟨_, hrejected⟩, rfl⟩
  exact ⟨r, _, hplays⟩

/-- An application whose menu is found by an attribute. -/
def withMenuId : Application where
  name := "demo"
  baseUrl := "http://app"
  elements := [("menu", [⟨.selector, "#menu", none⟩])]

/-- The browser is gone and nothing timed out, and yet the menu passes for hidden. -/
theorem hidden_passes_closed :
    (∃ st', answerTo Stage.host withMenuId ⟨.selector, "#menu", none⟩ gonePage =
      (.error (.browser "Target closed"), st')) ∧
    withMenuId.strategiesFor "menu" = [⟨.selector, "#menu", none⟩] ∧
    ∃ r st', (execute ⟨withMenuId, none⟩ checkNoMenu 1).run.Plays Stage.host gonePage (.ok r) st'
        [.awaitVisible (.selector "#menu") 2000] ∧
      r.status = StepResult.passed :=
  ⟨⟨_, rfl⟩, rfl, _, _, ⟨rfl, rfl⟩, rfl⟩

end Execution

end PlainSteps
