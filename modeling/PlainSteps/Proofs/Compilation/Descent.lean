import PlainSteps.Proofs.Compilation.Splitting

/-! # Splitting comes to an end

A text that is read as several steps is followed by its clauses, each of which is read in its turn
one level deeper. That recursion has no bound of its own: a clause need not be shorter than its text
and may be the very same, and a reading that is given does not come from the classifier at all.
`Performs` is the recursion as it stands, without any limit on how often it goes on, so that a
derivation is a course of it that ends. What brings it to an end is the classifier alone, which
reads a text as several steps only above its greatest depth; so the measure is the depth that is
left. By induction on it every text and every reading has a course, with just the actions and
messages that the generator computes from the splits that are left, and no other course
(`splitting_ends`).
-/

namespace PlainSteps

open Trying

/-- After an error nothing more is done. -/
theorem Trying.bind_of_error {ε α : Type} {x : Trying ε α} {e : ε} (h : x.result = .error e)
    (f : α → Trying ε α) :
    x >>= f = x := by
  obtain ⟨value, lines⟩ := x
  obtain rfl : value = .error e := h
  show Told.mk (Except.error e) (lines ++ []) = _
  rw [List.append_nil]

/-! ### Readings -/

namespace Classifier

variable {cl : Classifier} {depth : Int} {text : Text} {r : Reading}

/-- Whatever the rules are, a text is read as several steps only above the greatest depth, and only
if it has two clauses or more. -/
theorem compound_of_classify (h : (cl.classify depth text).result = .ok r)
    (hintent : r.intent = .complexWorkflow) :
    depth < cl.maxDepth ∧ 2 ≤ r.findings.clauses.length := by
  obtain ⟨-, -, -, -, hdepth, hlength⟩ := classify_compound h hintent
  exact ⟨hdepth, hlength⟩

end Classifier

namespace Generator

/-! ### The recursion -/

/-- What there is to do on the way to actions: a text to read, a reading to fill in, or clauses to
go through. -/
inductive Task where
  | text (depth : Int) (text : Text)
  | reading (depth : Int) (text : Text) (r : Reading)
  | clauses (depth : Int) (texts : List Text)

/-- A course of a task that ends: the texts that are read on the way, each with the depth at which
that is done, and the outcome. -/
inductive Performs (g : Generator) (number : Int) :
    Task → List (Int × Text) → Trying GenerationError (List Action) → Prop where
  /-- A text whose facts cannot be read. -/
  | unread {depth : Int} {text : Text} {e : GenerationError}
      (refused : (g.classify depth text).result = .error e) :
      Performs g number (.text depth text) [(depth, text)]
        (g.classify depth text >>= fun _ => pure [])
  /-- A text is read first, and then its reading is filled in. -/
  | read {depth : Int} {text : Text} {r : Reading} {visits : List (Int × Text)}
      {x : Trying GenerationError (List Action)} (found : (g.classify depth text).result = .ok r)
      (rest : Performs g number (.reading depth text r) visits x) :
      Performs g number (.text depth text) ((depth, text) :: visits)
        (g.classify depth text >>= fun _ => x)
  /-- A reading of any other intent fills in a template. -/
  | template {depth : Int} {text : Text} {r : Reading} (single : r.intent ≠ .complexWorkflow) :
      Performs g number (.reading depth text r) [] (g.fillIn number text r fun _ => pure [])
  /-- A reading of several steps goes through its clauses, one level deeper. -/
  | several {depth : Int} {text : Text} {r : Reading} {visits : List (Int × Text)}
      {x : Trying GenerationError (List Action)} (compound : r.intent = .complexWorkflow)
      (rest : Performs g number (.clauses (depth + 1) r.findings.clauses) visits x) :
      Performs g number (.reading depth text r) visits x
  | none {depth : Int} : Performs g number (.clauses depth []) [] (pure [])
  /-- The first error ends the course. -/
  | stop {depth : Int} {clause : Text} {others : List Text} {visits : List (Int × Text)}
      {x : Trying GenerationError (List Action)} {e : GenerationError}
      (first : Performs g number (.text depth clause) visits x) (failed : x.result = .error e) :
      Performs g number (.clauses depth (clause :: others)) visits x
  | next {depth : Int} {clause : Text} {others : List Text} {visits later : List (Int × Text)}
      {x y : Trying GenerationError (List Action)} {actions : List Action}
      (first : Performs g number (.text depth clause) visits x) (done : x.result = .ok actions)
      (rest : Performs g number (.clauses depth others) later y) :
      Performs g number (.clauses depth (clause :: others)) (visits ++ later)
        (do return (← x) ++ (← y))

variable {g : Generator} {number depth bound : Int} {text : Text} {task : Task}
  {visits visits' : List (Int × Text)} {x x' : Trying GenerationError (List Action)}

/-- A task has one course at most. -/
theorem Performs.unique (h : g.Performs number task visits x)
    (h' : g.Performs number task visits' x') :
    visits' = visits ∧ x' = x := by
  -- what the first part of a task comes to decides in which way it goes on
  induction h generalizing visits' x' with
  | unread refused =>
    cases h' with
    | unread _ => exact ⟨rfl, rfl⟩
    | read found _ =>
      rw [refused] at found
      cases found
  | read found _ ih =>
    cases h' with
    | unread refused =>
      rw [found] at refused
      cases refused
    | read found' rest' =>
      rw [found] at found'
      cases found'
      obtain ⟨rfl, rfl⟩ := ih rest'
      exact ⟨rfl, rfl⟩
  | template single =>
    cases h' with
    | template _ => exact ⟨rfl, rfl⟩
    | several compound _ => exact absurd compound single
  | several compound _ ih =>
    cases h' with
    | template single => exact absurd compound single
    | several _ rest' => exact ih rest'
  | none =>
    cases h'
    exact ⟨rfl, rfl⟩
  | stop _ failed ih =>
    cases h' with
    | stop first' _ => exact ih first'
    | next first' done' _ =>
      obtain ⟨-, rfl⟩ := ih first'
      rw [failed] at done'
      cases done'
  | next _ done _ ihFirst ihRest =>
    cases h' with
    | stop first' failed' =>
      obtain ⟨-, rfl⟩ := ihFirst first'
      rw [done] at failed'
      cases failed'
    | next first' _ rest' =>
      obtain ⟨rfl, rfl⟩ := ihFirst first'
      obtain ⟨rfl, rfl⟩ := ihRest rest'
      exact ⟨rfl, rfl⟩

/-! ### The splits that are left -/

theorem compound_of_classify {r : Reading} (h : (g.classify depth text).result = .ok r)
    (hintent : r.intent = .complexWorkflow) : depth < g.classifier.maxDepth :=
  (Classifier.compound_of_classify (mapError_eq_ok_iff.mp h) hintent).1

theorem splitsLeft_succ {left : Nat} (h : g.splitsLeft depth = left + 1) :
    g.splitsLeft (depth + 1) = left := by
  unfold splitsLeft at h ⊢
  omega

/-- The actions of a text are those of its reading, and those of a reading of several steps are
those of its clauses: the splits that are left are always enough. -/
theorem generate_eq (g : Generator) (number depth : Int) (text : Text) :
    g.generate number depth text = g.classify depth text >>=
      g.generateReading number depth text := by
  unfold generate
  cases hleft : g.splitsLeft depth with
  | zero =>
    refine bind_congr fun r hr => fillIn_congr rfl (fun _ => rfl) fun hintent => ?_
    have hdepth := compound_of_classify hr hintent
    unfold splitsLeft at hleft
    omega
  | succ left =>
    refine bind_congr fun r _ => fillIn_congr rfl (fun _ => rfl) fun _ =>
      each_congr fun clause _ => ?_
    rw [generate, splitsLeft_succ hleft]

/-- A task has a course with this outcome, on which no text is read deeper than a bound. -/
def Ends (g : Generator) (number bound : Int) (task : Task)
    (x : Trying GenerationError (List Action)) : Prop :=
  ∃ visits, g.Performs number task visits x ∧ ∀ visit ∈ visits, visit.1 ≤ bound

theorem ends_clauses
    (h : ∀ text, g.Ends number bound (.text depth text) (g.generate number depth text))
    (clauses : List Text) :
    g.Ends number bound (.clauses depth clauses) (each (g.generate number depth) clauses) := by
  induction clauses with
  | nil => exact ⟨[], .none, List.forall_mem_nil _⟩
  | cons clause others ih =>
    obtain ⟨visits, hfirst, hvisits⟩ := h clause
    cases hresult : (g.generate number depth clause).result with
    | error e =>
      refine ⟨visits, ?_, hvisits⟩
      rw [each, bind_of_error hresult]
      exact .stop hfirst hresult
    | ok actions =>
      obtain ⟨later, hrest, hlater⟩ := ih
      exact ⟨visits ++ later, .next hfirst hresult hrest,
        List.forall_mem_append.mpr ⟨hvisits, hlater⟩⟩

theorem ends_reading {r : Reading}
    (h : r.intent = .complexWorkflow → ∀ clause,
      g.Ends number bound (.text (depth + 1) clause) (g.generate number (depth + 1) clause)) :
    g.Ends number bound (.reading depth text r) (g.generateReading number depth text r) := by
  by_cases hintent : r.intent = .complexWorkflow
  · obtain ⟨visits, hclauses, hvisits⟩ := ends_clauses (h hintent) r.findings.clauses
    have hfill : g.generateReading number depth text r =
        each (g.generate number (depth + 1)) r.findings.clauses := by
      rw [generateReading, fillIn, hintent]
    exact ⟨visits, .several hintent (hfill ▸ hclauses), hvisits⟩
  · have hfill : g.generateReading number depth text r = g.fillIn number text r fun _ => pure [] :=
      fillIn_congr rfl (fun _ => rfl) fun hcompound => absurd hcompound hintent
    exact ⟨[], hfill ▸ .template hintent, List.forall_mem_nil _⟩

/-- **Every text has a course that ends**, on which no text is read deeper than the classifier lets
it be split. -/
theorem ends_text (g : Generator) (number depth : Int) (text : Text) :
    g.Ends number (max depth g.classifier.maxDepth) (.text depth text)
      (g.generate number depth text) := by
  -- the clauses may be any texts, so the induction is on the splits that are left and not on the
  -- text
  induction hleft : g.splitsLeft depth using Nat.strong_induction_on generalizing depth text with
  | _ left ih =>
    rw [generate_eq]
    cases hresult : (g.classify depth text).result with
    | error e =>
      have hunread : g.classify depth text >>= g.generateReading number depth text =
          g.classify depth text >>= fun _ => pure [] := bind_congr fun r hr => by
        rw [hresult] at hr
        cases hr
      rw [hunread]
      exact ⟨_, .unread hresult, List.forall_mem_singleton.mpr (le_max_left _ _)⟩
    | ok r =>
      have hdeeper : r.intent = .complexWorkflow → ∀ clause,
        g.Ends number (max depth g.classifier.maxDepth)
          (.text (depth + 1) clause) (g.generate number (depth + 1) clause) := by
        intro hintent clause
        have hdepth := compound_of_classify hresult hintent
        have hends := ih _ (by unfold splitsLeft at hleft ⊢; omega) (depth + 1) clause rfl
        rwa [max_eq_right hdepth, ← max_eq_right hdepth.le] at hends
      have hfilled : g.Ends number (max depth g.classifier.maxDepth) (.reading depth text r)
          (g.generateReading number depth text r) := ends_reading hdeeper
      obtain ⟨visits, hreading, hvisits⟩ := hfilled
      have hread : g.classify depth text >>= g.generateReading number depth text =
          g.classify depth text >>= fun _ => g.generateReading number depth text r :=
            bind_congr fun r' hr' => by
        rw [hresult] at hr'
        cases hr'
        rfl
      rw [hread]
      exact ⟨_, .read hresult hreading, List.forall_mem_cons.mpr ⟨le_max_left _ _, hvisits⟩⟩

/-- A task that ends has that course alone. -/
theorem Ends.exists_unique (h : g.Ends number bound task x) :
    ∃ visits, (∀ visits' x', g.Performs number task visits' x' ↔ visits' = visits ∧ x' = x) ∧
      ∀ visit ∈ visits, visit.1 ≤ bound := by
  obtain ⟨visits, hperforms, hvisits⟩ := h
  refine ⟨visits, fun visits' x' => ⟨hperforms.unique, ?_⟩, hvisits⟩
  rintro ⟨rfl, rfl⟩
  exact hperforms

/-- **Splitting ends.** For every classifier, whatever its rules fire on and find, and whatever its
greatest depth is: every text has exactly one course, with the actions that are generated for it,
and no text is read on it deeper than the greatest depth, or than where it began if that was deeper
still. A text is read as several steps only above the greatest depth, and only with two clauses or
more. And every reading that is given has exactly one course as well, at every depth; only its own
clauses are read one level deeper without regard to the greatest depth. -/
theorem splitting_ends (g : Generator) (number : Int) :
    (∀ depth text, ∃ visits,
      (∀ visits' x, g.Performs number (.text depth text) visits' x ↔
        visits' = visits ∧ x = g.generate number depth text) ∧
      ∀ visit ∈ visits, visit.1 ≤ max depth g.classifier.maxDepth) ∧
    (∀ depth text r, (g.classifier.classify depth text).result = .ok r →
      r.intent = .complexWorkflow →
      depth < g.classifier.maxDepth ∧ 2 ≤ r.findings.clauses.length) ∧
    ∀ depth text r, ∃ visits,
      (∀ visits' x, g.Performs number (.reading depth text r) visits' x ↔
        visits' = visits ∧ x = g.generateReading number depth text r) ∧
      ∀ visit ∈ visits, visit.1 ≤ max (depth + 1) g.classifier.maxDepth := by
  refine ⟨fun depth text => (ends_text g number depth text).exists_unique,
    fun depth text r hr hintent => ?_, fun depth text r => ?_⟩
  · exact Classifier.compound_of_classify hr hintent
  · exact (ends_reading fun _ clause => ends_text g number (depth + 1) clause).exists_unique

/-- A generator whose one rule takes every text for itself twice over. -/
def echo : Generator where
  classifier :=
    { config := Compiler.bare.config
      rules :=
        [Rule.always .complexWorkflow (fun _ => true) fun _ text => { clauses := [text, text] }] }
  source := Compiler.bare.source

/-- Clauses that are their own text come to an end all the same. -/
theorem splitting_ends_echo :
    (echo.classifier.classify 1 "again").result =
      .ok ⟨.complexWorkflow, { clauses := ["again", "again"] }⟩ ∧
      (1 : Int) < echo.classifier.maxDepth ∧
      ∃ visits, echo.Performs 7 (.text 0 "again") visits (echo.generate 7 0 "again") ∧
        ∀ visit ∈ visits, visit.1 ≤ 2 := by
  have hread : (echo.classifier.classify 1 "again").result =
      .ok ⟨.complexWorkflow, { clauses := ["again", "again"] }⟩ := by decide
  obtain ⟨hends, hseveral, -⟩ := splitting_ends echo 7
  obtain ⟨visits, hcourse, hvisits⟩ := hends 0 "again"
  exact ⟨hread, (hseveral 1 "again" _ hread rfl).1, visits, (hcourse _ _).mpr ⟨rfl, rfl⟩, hvisits⟩

end Generator

end PlainSteps
