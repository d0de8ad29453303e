import PlainSteps.Proofs.Browser.FailFast
import PlainSteps.Proofs.Json.Members
import PlainSteps.Proofs.Text.Lower
import PlainSteps.Proofs.Validation.Agreement

/-! # What is suggested for a failure

A step of a run that is not valid was skipped, or its action failed (`Cause`). A skipped step has a
suggestion of its own. For a failure it is first the one for its kind, and a failure of no such kind
has at least the general one, if it has a message. What is left is an unexpected failure without a
message. The failures that the runner finds by itself all have one, so it takes a fault from outside
the browser that says nothing, or a pattern that is refused without a word: just then nothing is
suggested (`fixes_suggested`).
-/

namespace PlainSteps

open Script Execution

/-! ### Messages -/

theorem FileError.message_ne_nil (e : FileError) : e.message ≠ [] := by
  have hcolon : ": ".toList ≠ [] := by decide
  have hpath : ∀ words path : Text, words ++ ": ".toList ++ Text.quoted path ≠ [] :=
    fun words path =>
    List.append_ne_nil_of_left_ne_nil (List.append_ne_nil_of_right_ne_nil _ hcolon) _
  unfold message
  split
  · exact (by decide : FileProblem.words .nul ≠ [])
  · exact hpath _ _
  · exact hpath _ _
  · exact List.append_ne_nil_of_left_ne_nil (by decide) _

/-- What stops an action without a word, and is none of the browser's doing: a fault from elsewhere,
or the libraries' refusal of a pattern. -/
inductive StepError.Speechless : StepError → Prop where
  | outside : Speechless (.fault (.other []))
  | pattern : Speechless (.pattern [])

theorem StepError.message_eq_nil_iff {e : StepError} (h : e.type = .unexpected) :
    e.message = [] ↔ e.Speechless := by
  unfold message
  -- the other unexpected failures have words of their own
  cases e with
  | notFound element tried => cases h
  | visible element => cases h
  | lacks element expected => cases h
  | fault f =>
    cases f with
    | timeout m => cases h
    | browser m => cases h
    | file e =>
      have hsays : (Fault.file e).message ≠ [] := e.message_ne_nil
      exact iff_of_false hsays nofun
    | other m =>
      refine ⟨fun hm : m = [] => hm ▸ .outside, ?_⟩
      rintro ⟨⟩
      rfl
  | pattern message =>
    refine ⟨fun hm : message = [] => hm ▸ .pattern, ?_⟩
    rintro ⟨⟩
    rfl
  | noTarget =>
    have hsays : "'NoneType' object has no attribute 'lower'".toList ≠ [] := by decide
    exact iff_of_false hsays nofun

/-! ### Suggestions -/

namespace Validation

/-- There is a suggestion for every kind of failure but the unexpected one. -/
theorem fixOfType?_eq_none_iff {type : ErrorType} :
    fixOfType? (some type.word) = none ↔ type = .unexpected := by
  cases type <;> decide

theorem exists_fixOfType? {type : ErrorType} (h : type ≠ .unexpected) :
    ∃ fix, fixOfType? (some type.word) = some fix :=
  Option.ne_none_iff_exists'.mp (mt fixOfType?_eq_none_iff.mp h)

section Failure

variable {n : Int} {a : Action} {e : StepError} {duration : Int}

theorem not_isSkipped_fail :
    ¬ ((StepResult.fail n a e duration).status == StepResult.skipped) = true := by
  rw [StepResult.status_fail]
  decide

/-- The suggestion for its kind is the first for a failure. -/
theorem head?_fixes_fail {fix : Text} (h : fixOfType? (some e.type.word) = some fix) :
    (suggestFixes (.fail n a e duration)).head? = some fix := by
  have hkind : fixOfType? (StepResult.fail n a e duration).errorType = some fix := h
  unfold suggestFixes
  rw [if_neg not_isSkipped_fail, hkind]
  rfl

/-- Nothing is suggested for an unexpected failure just when it has no message. -/
theorem fixes_unexpected_eq_nil_iff (h : e.type = .unexpected) :
    suggestFixes (.fail n a e duration) = [] ↔ e.message = [] := by
  have hkind : fixOfType? (StepResult.fail n a e duration).errorType = none :=
    fixOfType?_eq_none_iff.mpr h
  have hlowered : loweredError (.fail n a e duration) = Text.lower e.message := rfl
  unfold suggestFixes
  rw [if_neg not_isSkipped_fail, hkind, hlowered, Option.toList_none, List.nil_append,
    ← Text.lower_eq_nil_iff (t := e.message)]
  dsimp only
  by_cases hmessage : Text.lower e.message = []
  · -- without a message no word for a network is in it either
    have hnetwork : isNetwork (.fail n a e duration) = false := by
      unfold isNetwork
      rw [hlowered, hmessage]
      simp only [List.isEmpty_nil, Bool.not_true, Bool.and_false, Bool.or_false]
      decide
    rw [hnetwork, hmessage]
    decide
  · refine iff_of_false ?_ hmessage
    have hspoken : (Text.lower e.message).isEmpty = false := by simpa using hmessage
    rw [hspoken]
    cases isNetwork (.fail n a e duration) with
    | true => exact List.cons_ne_nil _ _
    | false => exact List.cons_ne_nil _ _

/-- Nothing is suggested for a failure just when it is unexpected and says nothing. -/
theorem fixes_fail_eq_nil_iff : suggestFixes (.fail n a e duration) = [] ↔ e.Speechless := by
  by_cases htype : e.type = .unexpected
  · exact (fixes_unexpected_eq_nil_iff htype).trans (StepError.message_eq_nil_iff htype)
  · obtain ⟨fix, hfix⟩ := exists_fixOfType? htype
    refine iff_of_false (fun hnil => ?_) ?_
    · have hhead : (suggestFixes (.fail n a e duration)).head? = some fix := head?_fixes_fail hfix
      rw [hnil] at hhead
      cases hhead
    · rintro ⟨⟩ <;> exact htype rfl

end Failure

end Validation

/-! ### Steps that did not pass -/

namespace Execution

variable {σ : Type} {h : Host σ} {s : Setting} {st st' : σ} {seq : Sequence}
  {results : List StepResult} {calls : List Request}

/-- Why there is a step that did not pass: its action failed after all actions in front of it were
done, or it stands behind such an action. -/
inductive Cause (h : Host σ) (config : Application) (actions : List Action) (st : σ) :
    StepResult → Prop where
  | failed {n : Int} {a : Action} {e : StepError} {front rest : List Action} {st₁ st₂ : σ}
      {before own : List Request} (duration : Int) (split : actions = front ++ a :: rest)
        (done : Performs h config front st st₁ before)
      (acts : (perform config a).run.Plays h st₁ (.error e) st₂ own) :
      Cause h config actions st (.fail n a e duration)
  | skipped {n failedAt : Int} {a : Action} (mem : a ∈ actions) :
      Cause h config actions st (.skip n a failedAt)

theorem exists_skip_of_mem {failedAt : Int} {r : StepResult} : ∀ {n : Int} {actions : List Action},
    r ∈ skipAll failedAt n actions → ∃ a ∈ actions, ∃ k, r = .skip k a failedAt
  | n, a :: rest, hr => by
    rcases List.mem_cons.mp hr with rfl | hr
    · exact ⟨a, .head rest, n, rfl⟩
    · obtain ⟨b, hb, k, rfl⟩ := exists_skip_of_mem hr
      exact ⟨b, .tail a hb, k, rfl⟩

/-- What causes a step behind an action that was done causes it with that action in front. -/
theorem Cause.cons {config : Application} {actions : List Action} {a : Action} {details : Text}
    {st₁ : σ} {own : List Request} {r : StepResult}
    (acts : (perform config a).run.Plays h st (.ok details) st₁ own)
    (hr : Cause h config actions st₁ r) : Cause h config (a :: actions) st r := by
  cases hr with
  | failed duration split done fails =>
    exact .failed duration (congrArg (a :: ·) split) (.cons acts done) fails
  | skipped mem => exact .skipped (.tail a mem)

theorem Runs.cause {n : Int} {actions : List Action} (hr : Runs h s n actions st results calls) :
    ∀ r ∈ results, r.status ≠ StepResult.passed → Cause h s.config actions st r := by
  induction hr with
  | done => exact List.forall_mem_nil _
  | @pass n a _ _ _ _ _ details _ duration acts _ ih =>
    refine List.forall_mem_cons.mpr ⟨fun hstatus => ?_,
      fun r hmem hstatus => (ih r hmem hstatus).cons acts⟩
    exact absurd (StepResult.status_pass n a details duration) hstatus
  | @fail n a rest st _ _ _ _ duration acts =>
    refine List.forall_mem_cons.mpr ⟨fun _ => .failed duration rfl (.nil st) acts,
      fun r hmem _ => ?_⟩
    obtain ⟨b, hb, k, rfl⟩ := exists_skip_of_mem hmem
    exact .skipped (.tail a hb)

end Execution

namespace Validation

variable {σ : Type} {h : Host σ} {s : Setting} {st st' : σ} {seq : Sequence}
  {results : List StepResult} {calls : List Request}

/-- **What is suggested for a step that did not pass.** For every behaviour of the host and every
step of a run that did not pass, the verdict is invalid. A skipped step has its one suggestion. A
failed step is that of an action that failed after those in front of it were done. The suggestion
for its kind, which only an unexpected failure lacks, is the first, and nothing is suggested just
when the action was stopped without a word by a fault from outside the browser, or by a refusal of
its pattern. -/
theorem fixes_suggested (browser : Text)
    (hp : (runSequence s seq).run.Plays h st (.ok results) st' calls) :
    ∀ r ∈ results, r.status ≠ StepResult.passed →
      (validateStep browser r).isValid = false ∧
      (r.status = StepResult.skipped ∧ (validateStep browser r).fixes =
        ["Check previous step dependencies".toList] ∨
        r.status = StepResult.failed ∧ ∃ front a rest e st₁ st₂ before own,
          seq.actions = front ++ a :: rest ∧ Performs h s.config front st st₁ before ∧
          (perform s.config a).run.Plays h st₁ (.error e) st₂ own ∧
          r.action = a.kind.word ∧ r.error = some e.message ∧ r.errorType = some e.type.word ∧
          (e.type ≠ .unexpected →
            ∃ fix, (e.type.word, fix) ∈ fixesByType ∧
            (validateStep browser r).fixes.head? = some fix) ∧
          ((validateStep browser r).fixes = [] ↔ e.Speechless)) := by
  intro r hr hstatus
  have hinvalid : (validateStep browser r).isValid = false := isValid_validateStep_of_ne hstatus
  have hfixes : (validateStep browser r).fixes = suggestFixes r :=
    if_neg (Bool.eq_false_iff.mp hinvalid)
  have hruns : Runs h s 1 seq.actions st results calls := runFrom_runs hp
  rw [hfixes]
  refine ⟨hinvalid, ?_⟩
  cases hruns.cause r hr hstatus with
  | @failed n a e front rest st₁ st₂ before own duration split done acts =>
    refine .inr ⟨rfl, front, a, rest, e, st₁, st₂, before, own, split, done, acts, rfl, rfl,
      rfl, fun htype => ?_, fixes_fail_eq_nil_iff⟩
    obtain ⟨fix, hfix⟩ := exists_fixOfType? htype
    exact ⟨fix, Json.mem_of_lookup? hfix, head?_fixes_fail hfix⟩
  | skipped mem => exact .inl ⟨rfl, rfl⟩

/-- The click that finds nothing has the suggestion for that first, and the pause behind it that of
a skipped step. -/
theorem fixes_suggested_empty_page :
    ∃ (passed failed skipped : StepResult) (st : Stage) (calls : List Request),
      (runSequence (Session.execution Session.pictured "chromium") clickBetweenPauses).run.Plays
        Stage.host {}
        (.ok [passed, failed, skipped]) st calls ∧
      failed.status ≠ StepResult.passed ∧ skipped.status ≠ StepResult.passed ∧
      (∃ fix, (ErrorType.elementNotFound.word, fix) ∈ fixesByType ∧
        (validateStep "chromium" failed).fixes.head? = some fix) ∧
      (validateStep "chromium" skipped).fixes = ["Check previous step dependencies".toList] := by
  have hfixes := fixes_suggested "chromium"
    (show (runSequence (Session.execution Session.pictured "chromium") clickBetweenPauses).run.Plays
      Stage.host {}
      (.ok _) _ _ from ⟨rfl, rfl⟩)
  refine ⟨_, _, _, _, _, ⟨rfl, rfl⟩, by decide, by decide, ?_, ?_⟩
  · rcases (hfixes _ (.tail _ (.head _)) (by decide)).2 with
      ⟨hskipped, -⟩ | ⟨-, _, _, _, e, _, _, _, _, -, -, -, -, -, htype, hfirst, -⟩
    · exact absurd hskipped (by decide)
    · have hword : ErrorType.elementNotFound.word = e.type.word := Option.some.inj htype
      rw [hword]
      refine hfirst fun hunexpected => ?_
      rw [hunexpected] at hword
      exact absurd hword (by decide)
  · rcases (hfixes _ (.tail _ (.tail _ (.head _))) (by decide)).2 with ⟨-, hfix⟩ | ⟨hfailed, -⟩
    · exact hfix
    · exact absurd hfailed (by decide)

/-- A page that stops everything that wants to go somewhere, without a word. -/
def speechless : Page := { faults := [("goto", .other [])] }

/-- Nothing is suggested for going to an address that is stopped without a word. -/
theorem fixes_speechless :
    ∃ (r : StepResult) (st : Stage) (calls : List Request),
      (runSequence (Session.execution Session.pictured "chromium")
        ⟨[Action.navigate "http://app" "Go"]⟩).run.Plays
        Stage.host { page := speechless } (.ok [r]) st calls ∧
      r.status = StepResult.failed ∧
      validateStep "chromium" r = ⟨"chromium", 1, false, "Step execution failed".toList, []⟩ :=
  ⟨_, _, _, ⟨rfl, rfl⟩, rfl, rfl⟩

end Validation

end PlainSteps
