import PlainSteps.Proofs.Compilation.Failure
import PlainSteps.Proofs.Intent.Clauses

/-! # Steps of several clauses

A text is taken for several steps only when it sets off none of the rules in front of that. Its
clauses are cut from it, so they set off none of those rules either, and splitting them again
changes nothing about that. Splitting a text therefore never leads to an action: what such a step
compiles to is the wait of a step that was not understood, and how often a text may be split makes
no difference to its actions.
-/

namespace PlainSteps

open Trying Pattern

namespace Rule

/-- A text that sets off no keyed rule. -/
def Quiet (text : Text) : Prop := ∀ rule ∈ keyed, rule.fires text = false

theorem Quiet.of_cutFrom {piece text : Text} (h : Quiet text) (hcut : CutFrom piece text) :
    Quiet piece := by
  intro rule hrule
  by_contra hfires
  have htext : rule.fires text = true := fires_of_cutFrom hrule hcut (by simpa using hfires)
  rw [h rule hrule] at htext
  cases htext

/-- The clauses of a quiet text are quiet. -/
theorem Quiet.clause {text clause : Text} (h : Quiet text) (hclause : clause ∈ clauses text) :
    Quiet clause :=
  h.of_cutFrom (cutFrom_of_mem_clauses hclause)

theorem quiet_iff {text : Text} : Quiet text ↔ keyed.find? (·.fires text) = none := by
  simp [Quiet, List.find?_eq_none]

theorem keyed_intent : ∀ rule ∈ keyed, rule.intent ≠ .complexWorkflow := by
  simp only [keyed, List.forall_mem_cons]
  decide

/-- Only a quiet text is taken for several steps. -/
theorem quiet_of_intentOf {text : Text} (h : intentOf text = .complexWorkflow) : Quiet text := by
  rw [quiet_iff]
  cases hfind : keyed.find? (·.fires text) with
  | none => rfl
  | some rule =>
    rw [intentOf_of_find (find?_of_append table_eq hfind)] at h
    exact absurd h (keyed_intent rule (List.mem_of_find?_eq_some hfind))

theorem find?_of_quiet {text : Text} (h : Quiet text) :
    table.find? (·.fires text) = some (if compound.fires text then compound else other) := by
  rw [table_eq, List.find?_append, quiet_iff.mp h, Option.none_or, List.find?_cons]
  cases compound.fires text <;> rfl

end Rule

namespace Generator

variable {g g' : Generator} {number : Int} {text : Text} {r : Reading}

theorem each_congr {f f' : Text → Trying GenerationError (List Action)} : ∀ {ts : List Text},
    (∀ t ∈ ts, f t = f' t) → each f ts = each f' ts
  | [], _ => rfl
  | t :: rest, h => by rw [each, each, h t (.head _), each_congr fun u hu => h u (.tail _ hu)]

/-- The files matter only for a reading over a dataset, and the clauses only for one of several
steps. -/
theorem fillIn_congr {f f' : List Text → Trying GenerationError (List Action)}
    (hconfig : g.config = g'.config)
    (hdata : r.intent = .dataDrivenTest → Expansion.expand g.config g.source text number =
      Expansion.expand g'.config g'.source text number)
    (hclauses : r.intent = .complexWorkflow → f r.findings.clauses = f' r.findings.clauses) :
    g.fillIn number text r f = g'.fillIn number text r f' := by
  unfold fillIn
  rw [← hconfig] at hdata ⊢
  cases hintent : r.intent
  case dataDrivenTest => exact congrArg ExceptT.lift (hdata hintent)
  case complexWorkflow => exact hclauses hintent
  all_goals rfl

end Generator

namespace Compiler

variable {c : Compiler} {depth : Int} {text : Text}

/-! ### Quiet texts -/

/-- A quiet text is read as several clauses or as nothing. -/
theorem classify_quiet (c : Compiler) (depth : Int) (h : Rule.Quiet (Text.trim text)) :
    ∃ r, (c.generator.classify depth text).result = .ok r ∧
      (r.intent = .unknown ∨ r.intent = .complexWorkflow ∧
        r.findings.clauses = Rule.clauses (Text.trim text)) := by
  rw [classify_result, Rule.find?_of_quiet h]
  dsimp only
  split
  · rw [Classifier.readBy_of_ok rfl]
    refine ⟨_, rfl, ?_⟩
    split
    · exact .inl rfl
    · exact .inr ⟨rfl, rfl⟩
  · rw [Classifier.readBy_of_ok rfl]
    exact ⟨_, rfl, .inl rfl⟩

theorem each_eq_nil {f : Text → Trying GenerationError (List Action)} : ∀ {ts : List Text},
    (∀ t ∈ ts, (f t).result = .ok []) → (Generator.each f ts).result = .ok []
  | [], _ => rfl
  | t :: rest, h => by
    have hrest : (Generator.each f rest).result = .ok [] := each_eq_nil fun u hu => h u (.tail _ hu)
    unfold Generator.each
    rw [result_bind, h t (.head _)]
    show Trying.result _ = _
    rw [result_bind, hrest]
    rfl

theorem fillIn_eq_nil {number : Int} {r : Reading}
    {ofClauses : List Text → Trying GenerationError (List Action)}
    (h : r.intent = .unknown ∨ r.intent = .complexWorkflow ∧
      (ofClauses r.findings.clauses).result = .ok []) :
    (c.generator.fillIn number text r ofClauses).result = .ok [] := by
  unfold Generator.fillIn
  rcases h with hintent | ⟨hintent, hclauses⟩
  · rw [hintent]
    rfl
  · rw [hintent]
    exact hclauses

/-- A quiet text has no actions, however often it is split: its clauses are quiet in their turn. -/
theorem generateWithin_quiet (c : Compiler) (number : Int) (left : Nat) :
    ∀ (depth : Int) (text : Text), Rule.Quiet (Text.trim text) →
      (c.generator.generateWithin number left depth text).result = .ok [] := by
  induction left with
  | zero =>
    intro depth text h
    obtain ⟨r, hr, hintent⟩ := classify_quiet c depth h
    unfold Generator.generateWithin
    rw [result_bind, hr]
    exact fillIn_eq_nil (hintent.imp_right fun hboth => ⟨hboth.1, rfl⟩)
  | succ left ih =>
    intro depth text h
    obtain ⟨r, hr, hintent⟩ := classify_quiet c depth h
    unfold Generator.generateWithin
    rw [result_bind, hr]
    refine fillIn_eq_nil (hintent.imp_right fun hboth => ⟨hboth.1, ?_⟩)
    rw [hboth.2]
    exact each_eq_nil fun clause hclause =>
      ih _ _ ((h.clause hclause).of_cutFrom (cutFrom_trim clause))

/-! ### Other texts -/

/-- A text that sets off a keyed rule is read the same at every depth, and not as several
clauses. -/
theorem classify_keyed {rule : Rule} (h : Rule.keyed.find? (·.fires (Text.trim text)) = some rule)
    (depth : Int) :
    (c.generator.classify depth text).result =
      ((rule.findings c.config (Text.trim text)).map (Reading.mk rule.intent)).mapError
        .duration := by
  have hintent : rule.intent ≠ .complexWorkflow :=
    Rule.keyed_intent rule (List.mem_of_find?_eq_some h)
  rw [classify_result, Rule.find?_of_append Rule.table_eq h]
  dsimp only
  have hconfig : c.generator.classifier.config = c.config := rfl
  cases hfindings : rule.findings c.config (Text.trim text) with
  | error e => rw [Classifier.readBy_of_error (hconfig ▸ hfindings)]; rfl
  | ok f =>
    rw [Classifier.readBy_of_ok (hconfig ▸ hfindings), if_neg fun hboth => hintent hboth.1]; rfl

/-- What a text that sets off a keyed rule leads to depends neither on its depth nor on the splits
left. -/
theorem generateWithin_keyed {rule : Rule}
    (h : Rule.keyed.find? (·.fires (Text.trim text)) = some rule) (number : Int) (left : Nat)
    (depth : Int) :
    (c.generator.generateWithin number left depth text).result =
      (((rule.findings c.config (Text.trim text)).map (Reading.mk rule.intent)).mapError
        .duration).bind
        fun r => (c.generator.fillIn number text r fun _ => return []).result := by
  have hintent : rule.intent ≠ .complexWorkflow :=
    Rule.keyed_intent rule (List.mem_of_find?_eq_some h)
  cases left with
  | zero =>
    unfold Generator.generateWithin
    rw [result_bind, classify_keyed h]
  | succ left =>
    unfold Generator.generateWithin
    rw [result_bind, classify_keyed h]
    cases rule.findings c.config (Text.trim text) with
    | error e => rfl
    | ok f =>
      exact congrArg Trying.result (Generator.fillIn_congr rfl (fun _ => rfl) fun hcompound =>
        absurd hcompound hintent)

/-! ### Compounds -/

/-- The actions of a text do not depend on the depth at which it is reached. -/
theorem generate_depth (c : Compiler) (number : Int) (text : Text) (depth depth' : Int) :
    (c.generator.generate number depth text).result =
      (c.generator.generate number depth' text).result := by
  unfold Generator.generate
  cases hfind : Rule.keyed.find? (·.fires (Text.trim text)) with
  | none =>
    have hquiet := Rule.quiet_iff.mpr hfind
    rw [generateWithin_quiet c number _ depth text hquiet,
      generateWithin_quiet c number _ depth' text hquiet]
  | some rule => rw [generateWithin_keyed hfind, generateWithin_keyed hfind]

theorem generate_compound {r : Reading} (hr : (c.generator.classify 0 text).result = .ok r)
    (hintent : r.intent = .complexWorkflow) (number depth : Int) :
    (c.generator.generate number depth text).result = .ok [] :=
  generateWithin_quiet c number _ depth text
    (Rule.quiet_of_intentOf ((classify_ok hr).2.1.mp hintent).1)

/-- **Steps of several clauses are inert.** No clause sets off a keyed rule that its text does not
set off; so a text that is read as several clauses has no actions, under any number and at any
depth, the depth makes no difference to the actions of any text, and a unit of several clauses
compiles to a single wait that says it was not understood. -/
theorem compounds_inert (c : Compiler) :
    (∀ text, (∀ rule ∈ Rule.keyed, rule.fires text = false) →
      ∀ clause ∈ Rule.clauses text, ∀ rule ∈ Rule.keyed, rule.fires clause = false) ∧
    (∀ text r, (c.generator.classify 0 text).result = .ok r → r.intent = .complexWorkflow →
      ∀ number depth, (c.generator.generate number depth text).result = .ok []) ∧
    (∀ text number depth depth',
      (c.generator.generate number depth text).result =
        (c.generator.generate number depth' text).result) ∧
    ∀ (u : StepUnit) r, (c.generator.classify 0 u.text).result = .ok r →
      r.intent = .complexWorkflow →
      (c.compileUnit u).result =
        .ok [Action.wait 1000 ("Step ".toList ++ Text.ofNat u.index ++ ": unclassified step")] := by
  refine ⟨fun text hquiet clause hclause => Rule.Quiet.clause hquiet hclause, ?_, ?_, ?_⟩
  · exact fun text r hr hintent number depth => generate_compound hr hintent number depth
  · exact fun text number depth depth' => generate_depth c number text depth depth'
  · intro u r hr hintent
    unfold compileUnit
    rw [result_bind, generate_compound hr hintent]
    rfl

/-- Two clauses without a keyword are read as several clauses, and compile to the wait. -/
theorem compounds_inert_tidy :
    (bare.generator.classify 0 "Tidy up the desk and sort the files").result.toOption.map
      (·.intent) =
        some .complexWorkflow ∧
      (bare.compileUnit ⟨3, "Tidy up the desk and sort the files"⟩).result =
        .ok [Action.wait 1000 "Step 3: unclassified step"] := by
  have hread : (bare.generator.classify 0 "Tidy up the desk and sort the files").result =
      .ok ⟨.complexWorkflow, { clauses := ["Tidy up the desk", "sort the files"] }⟩ := rfl
  obtain ⟨-, -, -, hunit⟩ := compounds_inert bare
  exact ⟨by rw [hread]; rfl, hunit ⟨3, "Tidy up the desk and sort the files"⟩ _ hread rfl⟩

end Compiler

end PlainSteps
