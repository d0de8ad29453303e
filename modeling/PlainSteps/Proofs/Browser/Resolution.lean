import PlainSteps.Proofs.Browser.Playing
import PlainSteps.Browser.Locator
import PlainSteps.Browser.Page
import PlainSteps.Proofs.Pattern.Escape

/-! # Which strategy finds an element

The strategies of an element are tried in their order, each with one request. An attempt is either
rejected, by an error of the browser, and then the next strategy is tried; or it decides: it finds
the element, or it fails by something that is no error of the browser, be it a fault from elsewhere
or a pattern that is none. So the course of a search is a run of rejected attempts, and behind it
either one that decides or nothing more (`tryEach_plays_iff`); what a search asks for and how it
ends is read off that.
-/

namespace PlainSteps

open Script

variable {σ : Type} {h : Host σ}

/-- A request of an action ends as it is answered. -/
theorem Acting.request_plays_iff {st st' : σ} {calls : List Request} {q : Request}
    {r : Except StepError q.Reply} :
    (Acting.request q).run.Plays h st r st' calls ↔
      ∃ answer, h.answer q st = (answer, st') ∧ r = answer.mapError .fault ∧ calls = [q] := by
  show (Script.request q >>= fun answer => pure (answer.mapError StepError.fault)).Plays h
    st r st' calls ↔ _
  rw [plays_bind_iff]
  constructor
  · rintro ⟨answer, st₁, before, after, hask, hpure, rfl⟩
    obtain ⟨hanswer, rfl⟩ := plays_request_iff.mp hask
    obtain ⟨rfl, rfl, rfl⟩ := plays_pure_iff.mp hpure
    exact ⟨answer, hanswer, rfl, rfl⟩
  · rintro ⟨answer, hanswer, rfl, rfl⟩
    exact ⟨answer, st', [q], [], plays_request_iff.mpr ⟨hanswer, rfl⟩,
      plays_pure_iff.mpr ⟨rfl, rfl, rfl⟩, rfl⟩

/-- A request with something behind it that asks for nothing and cannot fail. -/
theorem Acting.request_then_plays_iff {α : Type} {st st' : σ} {calls : List Request} {q : Request}
    {next : Acting α} {v : α} {r : Except StepError α}
    (hnext : ∀ st₁ calls₁, next.run.Plays h st₁ r st' calls₁ ↔ r = .ok v ∧ st' = st₁ ∧
      calls₁ = []) :
    (Acting.request q >>= fun _ => next).run.Plays h st r st' calls ↔
      ∃ answer, h.answer q st = (answer, st') ∧ r = (answer.mapError .fault).map (fun _ => v) ∧
      calls = [q] := by
  rw [plays_run_bind_iff]
  simp only [Acting.request_plays_iff, hnext]
  constructor
  · rintro (⟨e, ⟨answer, hanswer, he, rfl⟩, rfl⟩ | ⟨a, st₁, _, _, ⟨answer, hanswer, ha, rfl⟩,
      ⟨rfl, rfl, rfl⟩, rfl⟩)
    · exact ⟨answer, hanswer, by rw [← he]; rfl, rfl⟩
    · exact ⟨answer, hanswer, by rw [← ha]; rfl, rfl⟩
  · rintro ⟨answer, hanswer, rfl, rfl⟩
    cases answer with
    | error f => exact .inl ⟨.fault f, ⟨_, hanswer, rfl, rfl⟩, rfl⟩
    | ok a => exact .inr ⟨a, st', [q], [], ⟨_, hanswer, rfl, rfl⟩, ⟨rfl, rfl, rfl⟩, rfl⟩

/-- Every escaped text is a pattern, which is what escaping is for. -/
def Libraries.AcceptsEscaped (l : Libraries) : Prop := ∀ t, l.pattern (Pattern.escape t) = .ok ()

theorem Libraries.acceptsEscaped_own : Libraries.own.AcceptsEscaped := fun t => by
  show ownPattern (Pattern.escape t) = .ok ()
  rw [ownPattern, Pattern.read_escape]

namespace Locator

variable {config : Application} {element : Text} {s : Strategy}
  {ss rest : List Strategy} {st st₁ st' : σ}
  {r : Except StepError (Option Query)} {calls : List Request}

/-! ### Looking up strategies -/

/-- The strategies declared for an element: those of the entry of its own name, or else of the first
entry whose name differs in case alone. -/
inductive Declares (config : Application) (element : Text) : List Strategy → Prop where
  | exact {before after : List (Text × List Strategy)} {ss : List Strategy}
      (entry : config.elements = before ++ (element, ss) :: after) (first : ∀ e ∈ before,
        e.1 ≠ element) :
      Declares config element ss
  | similar {before after : List (Text × List Strategy)} {name : Text} {ss : List Strategy}
      (entry : config.elements = before ++ (name, ss) :: after)
        (same : Text.lower name = Text.lower element)
      (first : ∀ e ∈ before, Text.lower e.1 ≠ Text.lower element) (other : ∀ e ∈ config.elements,
        e.1 ≠ element) :
      Declares config element ss
  | none (other : ∀ e ∈ config.elements, Text.lower e.1 ≠ Text.lower element) :
      Declares config element []

theorem declares_strategiesFor (config : Application) (element : Text) :
    Declares config element (config.strategiesFor element) := by
  unfold Config.strategiesFor
  cases hexact : config.elements.find? (·.1 == element) with
  | some e =>
    obtain ⟨name, ss⟩ := e
    obtain ⟨hname, before, after, hentry, hfirst⟩ := List.find?_eq_some_iff_append.mp hexact
    obtain rfl : name = element := by simpa using hname
    exact .exact hentry fun e he => by simpa using hfirst e he
  | none =>
    have hother : ∀ e ∈ config.elements, e.1 ≠ element := by simpa using hexact
    cases hsimilar : config.elements.find? fun e => Text.lower e.1 == Text.lower element with
    | some e =>
      obtain ⟨name, ss⟩ := e
      obtain ⟨hname, before, after, hentry, hfirst⟩ := List.find?_eq_some_iff_append.mp hsimilar
      exact .similar hentry (by simpa using hname) (fun e he => by simpa using hfirst e he) hother
    | none => exact .none (by simpa using hsimilar)

/-- A strategy whose pattern, if it has one, is a pattern. -/
def IsUsable (config : Application) (s : Strategy) : Prop :=
  s.kind = .selector ∨ config.libraries.pattern s.pattern = .ok ()

theorem not_isUsable_iff : ¬ IsUsable config s ↔
    s.kind ≠ .selector ∧ ∃ message, config.libraries.pattern s.pattern = .error message := by
  unfold IsUsable
  rw [not_or]
  refine and_congr_right fun _ => ?_
  cases config.libraries.pattern s.pattern <;> simp

/-- Where escaped texts are patterns, so are an element's own words. -/
theorem isUsable_of_mem_strategies (hescaped : config.libraries.AcceptsEscaped)
    (husable : ∀ s ∈ config.strategiesFor element, IsUsable config s) :
    ∀ s ∈ strategies config element, IsUsable config s := by
  unfold strategies
  dsimp only
  split
  · exact List.forall_mem_singleton.mpr (.inr (hescaped element))
  · exact husable

theorem checkPattern_ok_iff : checkPattern config s = .ok () ↔ IsUsable config s := by
  unfold checkPattern IsUsable
  by_cases hkind : s.kind = .selector
  · simp [hkind]
  · cases hread : config.libraries.pattern s.pattern <;> simp [hkind]

theorem checkPattern_error_iff {e : StepError} :
    checkPattern config s = .error e ↔
      s.kind ≠ .selector ∧ ∃ message, config.libraries.pattern s.pattern = .error message ∧
        e = .pattern message := by
  unfold checkPattern
  by_cases hkind : s.kind = .selector
  · simp [hkind]
  · cases hread : config.libraries.pattern s.pattern <;> simp [hkind, eq_comm]

/-! ### One attempt -/

/-- The request of an attempt. -/
def requestOf (config : Application) (s : Strategy) : Request :=
  if s.kind = .url then .awaitUrl s.pattern config.strategyTimeout
  else .awaitVisible (query s) config.strategyTimeout

/-- What a strategy finds; the page itself has no query. -/
def finding (s : Strategy) : Option Query := if s.kind = .url then none else some (query s)

/-- How a host answers the request of an attempt. -/
def answerTo (h : Host σ) (config : Application) (s : Strategy) (st : σ) : Except Fault Unit × σ :=
  if s.kind = .url then h.answer (.awaitUrl s.pattern config.strategyTimeout) st
  else h.answer (.awaitVisible (query s) config.strategyTimeout) st

/-- An attempt that the browser fails. -/
structure Rejects (h : Host σ) (config : Application) (s : Strategy) (f : Fault) (st st' : σ) :
    Prop where
  usable : IsUsable config s
  refused : answerTo h config s st = (.error f, st')
  browser : f.isBrowser = true

/-- An attempt that ends the search. -/
inductive Decides (h : Host σ) (config : Application) (s : Strategy) (st : σ) :
    Except StepError (Option Query) → σ → List Request → Prop where
  | finds {st' : σ} (usable : IsUsable config s)
      (answered : answerTo h config s st = (.ok (), st')) :
      Decides h config s st (.ok (finding s)) st' [requestOf config s]
  | foreign {f : Fault} {st' : σ} (usable : IsUsable config s)
      (refused : answerTo h config s st = (.error f, st'))
      (foreign : f.isBrowser = false) : Decides h config s st (.error (.fault f)) st'
        [requestOf config s]
  | unreadable {message : Text} (written : s.kind ≠ .selector)
      (unread : config.libraries.pattern s.pattern = .error message) :
      Decides h config s st (.error (.pattern message)) st []

/-- A request, with a line and a value behind it. -/
theorem asking_plays_iff {q : Request} {line : Text} {found : Option Query} :
    (Acting.request q >>= fun _ => Acting.tell line >>=
      fun _ => pure found).run.Plays h st r st' calls ↔
      ∃ answer, h.answer q st = (answer, st') ∧ r = (answer.mapError .fault).map (fun _ => found) ∧
      calls = [q] := by
  refine Acting.request_then_plays_iff fun st₁ calls₁ => ?_
  unfold Acting.tell
  rw [run_lift_bind, plays_tell_bind_iff]
  exact plays_run_pure_iff

theorem attempt_of_usable (husable : IsUsable config s) :
    (attempt config element s).run.Plays h st r st' calls ↔
      ∃ answer, answerTo h config s st = (answer, st') ∧
      r = (answer.mapError .fault).map (fun _ => finding s) ∧
        calls = [requestOf config s] := by
  have hcheck := checkPattern_ok_iff.mpr husable
  unfold attempt answerTo finding requestOf
  rw [hcheck]
  show (if s.kind = .url then _ else _ : Acting (Option Query)).run.Plays h st r st' calls ↔ _
  by_cases hkind : s.kind = .url
  · simp only [if_pos hkind]
    exact asking_plays_iff
  · simp only [if_neg hkind]
    exact asking_plays_iff

theorem attempt_of_unreadable {message : Text} (hkind : s.kind ≠ .selector)
    (hread : config.libraries.pattern s.pattern = .error message) :
    (attempt config element s).run.Plays h st r st' calls ↔
      r = .error (.pattern message) ∧ st' = st ∧ calls = [] := by
  have hattempt : (attempt config element s).run = pure (.error (.pattern message)) := by
    unfold attempt
    rw [checkPattern_error_iff.mpr ⟨hkind, message, hread, rfl⟩]
    rfl
  rw [hattempt, plays_pure_iff]

/-- **An attempt decides the search or is rejected.** -/
theorem attempt_plays_iff :
    (attempt config element s).run.Plays h st r st' calls ↔
      Decides h config s st r st' calls ∨
        ∃ f, Rejects h config s f st st' ∧ r = .error (.fault f) ∧
        calls = [requestOf config s] := by
  by_cases husable : IsUsable config s
  · rw [attempt_of_usable husable]
    constructor
    · rintro ⟨answer, hanswer, rfl, rfl⟩
      cases answer with
      | ok u => exact .inl (.finds husable hanswer)
      | error f =>
        cases hbrowser : f.isBrowser with
        | true => exact .inr ⟨f, ⟨husable, hanswer, hbrowser⟩, rfl, rfl⟩
        | false => exact .inl (.foreign husable hanswer hbrowser)
    · rintro (hdecides | ⟨f, hrejects, rfl, rfl⟩)
      · cases hdecides with
        | finds _ hanswer => exact ⟨.ok (), hanswer, rfl, rfl⟩
        | foreign _ hrefused => exact ⟨_, hrefused, rfl, rfl⟩
        | unreadable hkind hunread =>
          exact absurd husable (not_isUsable_iff.mpr ⟨hkind, _, hunread⟩)
      · exact ⟨_, hrejects.refused, rfl, rfl⟩
  · obtain ⟨hkind, message, hread⟩ := not_isUsable_iff.mp husable
    rw [attempt_of_unreadable hkind hread]
    constructor
    · rintro ⟨rfl, rfl, rfl⟩
      exact .inl (.unreadable hkind hread)
    · rintro (hdecides | ⟨f, hrejects, -⟩)
      · cases hdecides with
        | finds usable => exact absurd usable husable
        | foreign usable => exact absurd usable husable
        | unreadable _ hunread =>
          obtain rfl : message = _ := Except.error.inj (hread.symm.trans hunread)
          exact ⟨rfl, rfl, rfl⟩
      · exact absurd hrejects.usable husable

/-! ### A search -/

/-- Strategies that are rejected one after the other, with their faults. -/
inductive Rejected (h : Host σ) (config : Application) :
    List Strategy → List Fault → σ → σ → Prop where
  | nil (st : σ) : Rejected h config [] [] st st
  | cons {s : Strategy} {ss : List Strategy} {f : Fault} {fs : List Fault} {st st₁ st₂ : σ}
      (first : Rejects h config s f st st₁) (others : Rejected h config ss fs st₁ st₂) :
      Rejected h config (s :: ss) (f :: fs) st st₂

theorem Rejects.isBrowserFault {f : Fault} (hrejects : Rejects h config s f st st') :
    isBrowserFault (.fault f) = true := hrejects.browser

theorem Decides.not_isBrowserFault {e : StepError}
    (hdecides : Decides h config s st (.error e) st' calls) :
    isBrowserFault e = false := by
  cases hdecides with
  | foreign _ _ hforeign => exact hforeign
  | unreadable => rfl

/-- Behind a rejected attempt the search goes on; any other one ends it. -/
theorem tryEach_cons_plays_iff {tried : List Text} :
    (tryEach config element tried (s :: rest)).run.Plays h st r st' calls ↔
      Decides h config s st r st' calls ∨
        ∃ f st₁ later, Rejects h config s f st st₁ ∧
          (tryEach config element (tried ++ [s.describe]) rest).run.Plays h st₁ r st' later ∧
          calls = requestOf config s :: later := by
  rw [tryEach]
  show (_ >>= _ : Script (Except StepError (Option Query))).Plays h st r st' calls ↔ _
  rw [plays_bind_iff]
  constructor
  · rintro ⟨outcome, st₁, own, later, hattempt, hlater, rfl⟩
    rcases attempt_plays_iff.mp hattempt with hdecides | ⟨f, hrejects, rfl, rfl⟩
    · -- what decides is no error of the browser, so it is not caught
      have hend : r = outcome ∧ st' = st₁ ∧ later = [] := by
        cases outcome with
        | ok found => exact plays_pure_iff.mp hlater
        | error e =>
          dsimp only at hlater
          rw [if_neg (by simp [hdecides.not_isBrowserFault])] at hlater
          exact plays_pure_iff.mp hlater
      obtain ⟨rfl, rfl, rfl⟩ := hend
      exact .inl (by rwa [List.append_nil])
    · dsimp only at hlater
      rw [if_pos hrejects.isBrowserFault, plays_tell_bind_iff] at hlater
      exact .inr ⟨f, st₁, later, hrejects, hlater, rfl⟩
  · rintro (hdecides | ⟨f, st₁, later, hrejects, hlater, rfl⟩)
    · refine ⟨r, st', calls, [], attempt_plays_iff.mpr (.inl hdecides), ?_,
        (List.append_nil calls).symm⟩
      cases r with
      | ok found => exact plays_pure_iff.mpr ⟨rfl, rfl, rfl⟩
      | error e =>
        dsimp only
        rw [if_neg (by simp [hdecides.not_isBrowserFault])]
        exact plays_pure_iff.mpr ⟨rfl, rfl, rfl⟩
    · refine ⟨_, st₁, [requestOf config s], later,
        attempt_plays_iff.mpr (.inr ⟨f, hrejects, rfl, rfl⟩), ?_, rfl⟩
      dsimp only
      rw [if_pos hrejects.isBrowserFault, plays_tell_bind_iff]
      exact hlater

/-- **The course of a search.** -/
theorem tryEach_plays_iff {tried : List Text} :
    (tryEach config element tried ss).run.Plays h st r st' calls ↔
      (∃ faults, Rejected h config ss faults st st' ∧
        r = .error (.notFound element (tried ++ ss.map Strategy.describe)) ∧
        calls = ss.map (requestOf config)) ∨
      ∃ before s rest faults st₁ own, ss = before ++ s :: rest ∧
        Rejected h config before faults st st₁ ∧
        Decides h config s st₁ r st' own ∧ calls = before.map (requestOf config) ++ own := by
  induction ss generalizing tried st calls with
  | nil =>
    have hend : (tryEach config element tried []).run = pure (.error (.notFound element tried)) :=
      rfl
    rw [hend, plays_pure_iff]
    constructor
    · rintro ⟨rfl, rfl, rfl⟩
      exact .inl ⟨[], .nil _, by simp, rfl⟩
    · rintro (⟨faults, hrejected, rfl, rfl⟩ | ⟨before, s, rest, _, _, _, hss, -⟩)
      · cases hrejected
        exact ⟨by simp, rfl, rfl⟩
      · simp at hss
  | cons s ss ih =>
    rw [tryEach_cons_plays_iff]
    simp only [ih]
    constructor
    · rintro (hdecides | ⟨f, st₁, later, hrejects, hsearch, rfl⟩)
      · exact .inr ⟨[], s, ss, [], st, calls, rfl, .nil st, hdecides, rfl⟩
      · rcases hsearch with ⟨fs, hrejected, rfl, rfl⟩ |
          ⟨before, t, rest, fs, st₂, own, rfl, hrejected, hdecides, rfl⟩
        · exact .inl ⟨f :: fs, .cons hrejects hrejected, by simp, rfl⟩
        · exact .inr ⟨s :: before, t, rest, f :: fs, st₂, own, rfl,
            .cons hrejects hrejected, hdecides, rfl⟩
    · rintro (⟨faults, hrejected, rfl, rfl⟩ | ⟨before, t, rest, faults, st₂, own, hss,
        hrejected, hdecides, rfl⟩)
      · cases hrejected with
        | @cons _ _ f fs _ st₁ _ hrejects hothers =>
          exact .inr ⟨f, st₁, _, hrejects, .inl ⟨fs, hothers, by simp, rfl⟩, rfl⟩
      · cases hrejected with
        | nil =>
          obtain ⟨rfl, rfl⟩ := List.cons.inj hss
          exact .inl hdecides
        | @cons _ before f fs _ st₁ _ hrejects hothers =>
          obtain ⟨rfl, rfl⟩ := List.cons.inj hss
          exact .inr ⟨f, st₁, _, hrejects,
            .inr ⟨before, t, rest, fs, st₂, own, rfl, hothers, hdecides, rfl⟩, rfl⟩

/-- Each attempt that is made, in turn, succeeds or is failed by the browser. -/
def StaysWithBrowser (h : Host σ) (config : Application) : List Strategy → σ → Prop
  | [], _ => True
  | s :: rest, st => ∀ f st₁, answerTo h config s st = (.error f, st₁) →
      f.isBrowser = true ∧ StaysWithBrowser h config rest st₁

theorem Rejected.staysWithBrowser {before : List Strategy} {faults : List Fault}
    (hrejected : Rejected h config before faults st st₁)
    (hstays : StaysWithBrowser h config (before ++ ss) st) :
    StaysWithBrowser h config ss st₁ := by
  induction hrejected with
  | nil => exact hstays
  | cons hrejects _ ih => exact ih (hstays _ _ hrejects.refused).2

/-- A search that finds the element does so by the first strategy that is not rejected. -/
theorem resolve_ok_iff {found : Option Query} :
    (resolve config element).run.Plays h st (.ok found) st' calls ↔
      ∃ before s rest faults st₁, strategies config element = before ++ s :: rest ∧
        Rejected h config before faults st st₁ ∧ IsUsable config s ∧
        answerTo h config s st₁ = (.ok (), st') ∧
        found = finding s ∧ calls = (before ++ [s]).map (requestOf config) := by
  unfold resolve
  rw [tryEach_plays_iff]
  constructor
  · rintro (⟨_, -, hr, -⟩ | ⟨before, s, rest, faults, st₁, own, hss, hrejected, hdecides, rfl⟩)
    · cases hr
    · cases hdecides with
      | finds husable hanswered =>
        exact ⟨before, s, rest, faults, st₁, hss, hrejected, husable, hanswered, rfl, by simp⟩
  · rintro ⟨before, s, rest, faults, st₁, hss, hrejected, husable, hanswered, rfl, rfl⟩
    exact .inr ⟨before, s, rest, faults, st₁, _, hss, hrejected, .finds husable hanswered, by simp⟩

/-- A search that does not find the element has had every strategy rejected. -/
theorem resolve_notFound_iff {name : Text} {tried : List Text} :
    (resolve config element).run.Plays h st (.error (.notFound name tried)) st' calls ↔
      (∃ faults, Rejected h config (strategies config element) faults st st') ∧ name = element ∧
        tried = (strategies config element).map Strategy.describe ∧
        calls = (strategies config element).map (requestOf config) := by
  unfold resolve
  rw [tryEach_plays_iff]
  constructor
  · rintro (⟨faults, hrejected, he, rfl⟩ | ⟨_, _, _, _, _, _, -, -, hdecides, -⟩)
    · obtain ⟨rfl, rfl⟩ := StepError.notFound.inj (Except.error.inj he)
      exact ⟨⟨faults, hrejected⟩, rfl, rfl, rfl⟩
    · cases hdecides
  · rintro ⟨⟨faults, hrejected⟩, rfl, rfl, rfl⟩
    exact .inl ⟨faults, hrejected, rfl, rfl⟩

/-- A search without a finding has tried every strategy, or has come to a pattern that is none. -/
theorem resolve_error_iff (hstays : StaysWithBrowser h config (strategies config element) st)
    {e : StepError} :
    (resolve config element).run.Plays h st (.error e) st' calls ↔
      (∃ faults, Rejected h config (strategies config element) faults st st') ∧
        e = .notFound element ((strategies config element).map Strategy.describe) ∧
        calls = (strategies config element).map (requestOf config) ∨
      ∃ before s rest faults message, strategies config element = before ++ s :: rest ∧
        Rejected h config before faults st st' ∧ s.kind ≠ .selector ∧
        config.libraries.pattern s.pattern = .error message ∧ e = .pattern message ∧
        calls = before.map (requestOf config) := by
  unfold resolve
  rw [tryEach_plays_iff]
  constructor
  · rintro (⟨faults, hrejected, he, rfl⟩ | ⟨before, s, rest, faults, st₁, own, hss,
      hrejected, hdecides, rfl⟩)
    · exact .inl ⟨⟨faults, hrejected⟩, Except.error.inj he, rfl⟩
    · cases hdecides with
      | foreign _ hrefused hforeign =>
        rw [hss] at hstays
        have hbrowser := (hrejected.staysWithBrowser hstays _ _ hrefused).1
        rw [hforeign] at hbrowser
        cases hbrowser
      | unreadable hkind hunread =>
        exact .inr ⟨before, s, rest, faults, _, hss, hrejected, hkind, hunread, rfl,
          List.append_nil _⟩
  · rintro (⟨⟨faults, hrejected⟩, rfl, rfl⟩ | ⟨before, s, rest, faults, message, hss, hrejected,
      hkind, hunread, rfl, rfl⟩)
    · exact .inl ⟨faults, hrejected, rfl, rfl⟩
    · exact .inr ⟨before, s, rest, faults, st', [], hss, hrejected, .unreadable hkind hunread,
        (List.append_nil _).symm⟩

/-- **The first strategy that works finds the element.** Whatever texts the libraries take for
patterns, escaped texts among them: when those of an element's strategies are patterns, and each
attempt succeeds or is failed by the browser, a search tries the strategies in their order, each
once and with the configured timeout, up to the first that succeeds, and has what that finds; it
fails just when all strategies are rejected, and then names each of them. The strategies are those
of the element's own entry, or of the first entry whose name differs in case alone, or else one that
looks for the element's own words. -/
theorem resolve_takes_first (h : Host σ) (config : Application) (element : Text) (st : σ)
    (hescaped : config.libraries.AcceptsEscaped)
    (husable : ∀ s ∈ config.strategiesFor element, IsUsable config s)
    (hstays : StaysWithBrowser h config (strategies config element) st) :
    Declares config element (config.strategiesFor element) ∧
    strategies config element = (if config.strategiesFor element = [] then
      [⟨.text, Pattern.escape element, none⟩]
      else config.strategiesFor element) ∧
    (∃ r st' calls, (resolve config element).run.Plays h st r st' calls) ∧
    (∀ found st' calls, (resolve config element).run.Plays h st (.ok found) st' calls ↔
      ∃ before s rest faults st₁, strategies config element = before ++ s :: rest ∧
        Rejected h config before faults st st₁ ∧ answerTo h config s st₁ = (.ok (), st') ∧
        found = finding s ∧ calls = (before ++ [s]).map (requestOf config)) ∧
    ∀ e st' calls, (resolve config element).run.Plays h st (.error e) st' calls ↔
      (∃ faults, Rejected h config (strategies config element) faults st st') ∧
        e = .notFound element ((strategies config element).map Strategy.describe) ∧
        calls = (strategies config element).map (requestOf config) := by
  have hall := isUsable_of_mem_strategies hescaped husable
  refine ⟨declares_strategiesFor config element, ?_, ⟨_, _, _, plays_self h _ st⟩,
    fun found st' calls => ?_, fun e st' calls => ?_⟩
  · unfold strategies
    simp only [List.isEmpty_iff]
  · rw [resolve_ok_iff]
    constructor
    · rintro ⟨before, s, rest, faults, st₁, hss, hrejected, -, hfound⟩
      exact ⟨before, s, rest, faults, st₁, hss, hrejected, hfound⟩
    · rintro ⟨before, s, rest, faults, st₁, hss, hrejected, hfound⟩
      have hmem : s ∈ strategies config element := by simp [hss]
      exact ⟨before, s, rest, faults, st₁, hss, hrejected, hall s hmem, hfound⟩
  · rw [resolve_error_iff hstays, or_iff_left]
    rintro ⟨before, s, rest, faults, message, hss, -, hkind, hunread, -⟩
    have hmem : s ∈ strategies config element := by simp [hss]
    exact not_isUsable_iff.mpr ⟨hkind, message, hunread⟩ (hall s hmem)

/-- An application whose menu is found by its role or else by an attribute. -/
def withMenu : Application where
  name := "demo"
  baseUrl := "http://app"
  elements := [("Menu", [⟨.role, "more", some "button"⟩, ⟨.selector, "#menu", none⟩])]

theorem isUsable_withMenu : ∀ s ∈ withMenu.strategiesFor "menu", IsUsable withMenu s := by
  show ∀ s ∈ [_, _], IsUsable withMenu s
  exact List.forall_mem_cons.mpr
    ⟨.inr (Libraries.acceptsEscaped_own "more"), List.forall_mem_singleton.mpr (.inl rfl)⟩

/-- A page whose menu is no button. -/
def plainMenu : Stage :=
  { page := { elements := [.mk (some "#menu") none [] none none [] 0 false none none []] } }

/-- Under a name in lower case the menu is found by the second of its strategies. -/
theorem resolve_takes_first_second : ∃ st',
    (resolve withMenu "menu").run.Plays Stage.host plainMenu (.ok (some (.selector "#menu"))) st'
      [.awaitVisible (.role "button" "more") 2000, .awaitVisible (.selector "#menu") 2000] := by
  have hstays : StaysWithBrowser Stage.host withMenu (strategies withMenu "menu") plainMenu := by
    rintro f st₁ ⟨⟩
    refine ⟨rfl, ?_⟩
    rintro f st₁ ⟨⟩
  have hfinds :=
    (resolve_takes_first Stage.host withMenu "menu" plainMenu Libraries.acceptsEscaped_own
    isUsable_withMenu hstays).2.2.2.1
  exact ⟨_,
    (hfinds _ _ _).mpr ⟨[⟨.role, "more", some "button"⟩], ⟨.selector, "#menu", none⟩, [], _, _, rfl,
      .cons ⟨.inr (Libraries.acceptsEscaped_own "more"), rfl, rfl⟩ (.nil _), rfl, rfl, rfl⟩⟩

end Locator

end PlainSteps
