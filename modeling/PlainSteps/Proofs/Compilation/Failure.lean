import PlainSteps.Proofs.Compilation.Blocks
import PlainSteps.Proofs.Facts.Duration

/-! # When compiling fails

Compiling has one way to fail: a wait whose duration is beyond every number of double precision. It
need not be a step of its own; a step of several clauses hands it on, as often as it may be split.
Everything else that is read out of a text has a value for every text, so the condition is exact.
The induction is on the splits that are left, with one lemma for a single reading.
-/

namespace PlainSteps

open Trying

/-- The intent that the rules give a text. -/
def Rule.intentOf (text : Text) : Intent :=
  ((table.find? (·.fires text)).map (·.intent)).getD .unknown

/-- A text that asks for an endless wait, by itself or in a clause that at most `left` splits
reach. -/
inductive Overlong : Nat → Text → Prop where
  | wait {left : Nat} {text : Text} (intent : Rule.intentOf (Text.trim text) = .waitAction)
      (endless : Facts.Endless (Text.trim text)) : Overlong left text
  | clause {left : Nat} {text clause : Text}
      (intent : Rule.intentOf (Text.trim text) = .complexWorkflow)
      (several : 2 ≤ (Rule.clauses (Text.trim text)).length)
        (member : clause ∈ Rule.clauses (Text.trim text))
      (within : Overlong left clause) : Overlong (left + 1) text

/-! ### Readings -/

/-- The reason for every failure. -/
abbrev GenerationError.overflow : GenerationError := .duration .infinite

namespace Rule

/-- Only the facts of a wait may be missing. -/
theorem mem_table {rule : Rule} (h : rule ∈ table) :
    rule = wait ∨ rule = compound ∨ rule.intent ≠ .waitAction ∧ rule.intent ≠ .complexWorkflow ∧
      ∀ config text, ∃ f, rule.findings config text = .ok f := by
  simp only [table, List.mem_cons, List.not_mem_nil, or_false] at h
  rcases h with rfl | rfl | rfl | rfl | rfl | rfl | rfl | rfl | rfl
  case inr.inr.inr.inr.inr.inr.inl => exact .inl rfl
  case inr.inr.inr.inr.inr.inr.inr.inl => exact .inr (.inl rfl)
  all_goals exact .inr (.inr ⟨by decide, by decide, fun _ _ => ⟨_, rfl⟩⟩)

theorem intentOf_of_find {text : Text} {rule : Rule} (h : table.find? (·.fires text) = some rule) :
    intentOf text = rule.intent := by
  rw [intentOf, h]
  rfl

/-- Whatever the rules in front of the others find decides. -/
theorem find?_of_append {text : Text} {first later : List Rule} (htable : table = first ++ later)
    {rule : Rule} (h : first.find? (·.fires text) = some rule) :
    table.find? (·.fires text) = some rule := by
  rw [htable, List.find?_append, h]
  rfl

theorem wait_findings (config : Config) (text : Text) :
    wait.findings config text =
      (Facts.wait text).map fun ms =>
        { values := [Text.ofInt ms], modifiers := Facts.waitConditions text } := rfl

end Rule

namespace Classifier

variable {cl : Classifier} {depth : Int} {text : Text} {rule : Rule}

theorem readBy_of_error {e : Facts.DurationError} (h : rule.findings cl.config text = .error e) :
    (cl.readBy depth text rule).result = .error e := by
  unfold readBy
  rw [result_bind, result_mk, h]
  rfl

theorem readBy_of_ok {f : Findings} (h : rule.findings cl.config text = .ok f) :
    (cl.readBy depth text rule).result =
      .ok (if rule.intent = .complexWorkflow ∧ (cl.maxDepth ≤ depth ∨ f.clauses.length < 2) then
        .unknown
        else ⟨rule.intent, f⟩) := by
  unfold readBy
  rw [result_bind, result_mk, h]
  show Trying.result _ = _
  by_cases hintent : rule.intent = .complexWorkflow
  · by_cases hdepth : cl.maxDepth ≤ depth
    · simp [hintent, hdepth, Except.map]
    · by_cases hfew : f.clauses.length < 2
      · simp [hintent, hdepth, hfew, Except.map]
      · simp [hintent, hdepth, hfew]
  · simp [hintent]

end Classifier

/-- The length of a wait is that of its text. -/
theorem Generator.wait_of_values {number : Int} {f : Findings} {text : Text} {ms : Int}
    (hms : Facts.wait text = .ok ms) (hvalues : f.values = [Text.ofInt ms]) :
    wait number f = .ok
    [Action.wait ms (step number ("Wait ".toList ++ Text.ofInt ms ++ "ms"))] := by
  unfold wait
  rw [hvalues]
  dsimp only
  rw [Facts.whole_ofInt_of_wait hms]
  rfl

namespace Compiler

variable {c : Compiler} {depth : Int} {text : Text}

/-- A text is read by the first rule it sets off, the empty one too. -/
theorem classify_result (c : Compiler) (depth : Int) (text : Text) :
    (c.generator.classify depth text).result =
      match Rule.table.find? (·.fires (Text.trim text)) with
      | some rule =>
        (c.generator.classifier.readBy depth (Text.trim text) rule).result.mapError .duration
      | none => .ok .unknown := by
  unfold Generator.classify Classifier.classify
  rw [result_adapt]
  dsimp only
  split
  · rename_i hempty
    rw [List.isEmpty_iff.mp hempty]
    rfl
  · have hrules : c.generator.classifier.rules = Rule.table := rfl
    rw [hrules]
    cases Rule.table.find? (·.fires (Text.trim text)) <;> rfl

/-- Reading fails just on an endless wait. -/
theorem classify_failsWhen (c : Compiler) (depth : Int) (text : Text) :
    FailsWhen (c.generator.classify depth text) .overflow
      (Rule.intentOf (Text.trim text) = .waitAction ∧ Facts.Endless (Text.trim text)) := by
  intro e
  rw [classify_result]
  cases hfind : Rule.table.find? (·.fires (Text.trim text)) with
  | none =>
    have hintent : Rule.intentOf (Text.trim text) ≠ .waitAction := by
      rw [Rule.intentOf, hfind]
      exact Intent.noConfusion
    simp [hintent]
  | some rule =>
    rw [Rule.intentOf_of_find hfind]
    dsimp only
    -- only the rule for waits can fail to find its facts
    rcases Rule.mem_table (List.mem_of_find?_eq_some hfind) with rfl | rfl | ⟨hwait, -, hok⟩
    · cases hms : Facts.wait (Text.trim text) with
      | error d =>
        cases d
        rw [Classifier.readBy_of_error (by rw [Rule.wait_findings, hms]; rfl)]
        have hendless := (Facts.wait_eq_error_iff _ _).mp hms
        simp [hendless, Rule.wait, eq_comm]
      | ok ms =>
        have hfinite : ¬ Facts.Endless (Text.trim text) := fun hendless => by
          rw [(Facts.wait_eq_error_iff _ .infinite).mpr hendless] at hms
          cases hms
        rw [Classifier.readBy_of_ok (by rw [Rule.wait_findings, hms]; rfl)]
        simp [hfinite]
    · rw [Classifier.readBy_of_ok rfl]
      simp [Rule.compound, Rule.always]
    · obtain ⟨f, hf⟩ := hok c.generator.classifier.config (Text.trim text)
      rw [Classifier.readBy_of_ok hf]
      simp [hwait]

/-- What a reading of several clauses, or of a wait, says. -/
theorem classify_ok {r : Reading} (h : (c.generator.classify depth text).result = .ok r) :
    (r.intent = .waitAction → ∃ ms, Facts.wait (Text.trim text) = .ok ms ∧
      r.findings.values = [Text.ofInt ms]) ∧
    (r.intent = .complexWorkflow ↔ Rule.intentOf (Text.trim text) = .complexWorkflow ∧ depth < 2 ∧
      2 ≤ (Rule.clauses (Text.trim text)).length) ∧
    (r.intent = .complexWorkflow → r.findings.clauses = Rule.clauses (Text.trim text)) := by
  rw [classify_result] at h
  cases hfind : Rule.table.find? (·.fires (Text.trim text)) with
  | none =>
    have hintent : Rule.intentOf (Text.trim text) = .unknown := by
      rw [Rule.intentOf, hfind]
      rfl
    rw [hfind] at h
    cases h
    exact ⟨nofun, iff_of_false nofun (by simp [hintent]), nofun⟩
  | some rule =>
    rw [hfind] at h
    rw [Rule.intentOf_of_find hfind]
    dsimp only at h
    rcases Rule.mem_table (List.mem_of_find?_eq_some hfind) with rfl | rfl | ⟨hwait, hcompound, hok⟩
    · cases hms : Facts.wait (Text.trim text) with
      | error d =>
        rw [Classifier.readBy_of_error (by rw [Rule.wait_findings, hms]; rfl)] at h
        cases h
      | ok ms =>
        have hne : Rule.wait.intent ≠ .complexWorkflow := by decide
        rw [Classifier.readBy_of_ok (by rw [Rule.wait_findings, hms]; rfl),
          if_neg fun hboth => hne hboth.1] at h
        cases h
        exact ⟨fun _ => ⟨ms, rfl, rfl⟩, iff_of_false hne fun hall => hne hall.1,
          fun h => absurd h hne⟩
    · rw [Classifier.readBy_of_ok rfl] at h
      -- clauses that are too few or too deep are read as nothing
      by_cases hsplit : depth < 2 ∧ 2 ≤ (Rule.clauses (Text.trim text)).length
      · rw [if_neg fun hboth => hboth.2.elim (not_le.mpr hsplit.1) (not_lt.mpr hsplit.2)] at h
        cases h
        exact ⟨nofun, iff_of_true rfl ⟨rfl, hsplit⟩, fun _ => rfl⟩
      · have hunsplit : 2 ≤ depth ∨ (Rule.clauses (Text.trim text)).length < 2 := by omega
        rw [if_pos ⟨rfl, hunsplit⟩] at h
        cases h
        exact ⟨nofun, iff_of_false nofun fun hall => hsplit hall.2, nofun⟩
    · obtain ⟨f, hf⟩ := hok c.generator.classifier.config (Text.trim text)
      rw [Classifier.readBy_of_ok hf, if_neg fun hboth => hcompound hboth.1] at h
      cases h
      simp [hwait, hcompound]

/-! ### Texts -/

/-- Of the templates only the one for clauses may fail once a text is read. -/
theorem fillIn_failsWhen {number : Int} {r : Reading}
    {ofClauses : List Text → Trying GenerationError (List Action)} {Q : Prop}
    (hr : (c.generator.classify depth text).result = .ok r)
    (hc : r.intent = .complexWorkflow →
      FailsWhen (ofClauses (Rule.clauses (Text.trim text))) .overflow Q) :
    FailsWhen (c.generator.fillIn number text r ofClauses) .overflow
      (r.intent = .complexWorkflow ∧ Q) := by
  obtain ⟨hwait, -, hclauses⟩ := classify_ok hr
  unfold Generator.fillIn
  cases hintent : r.intent
  case waitAction =>
    obtain ⟨ms, hms, hvalues⟩ := hwait hintent
    exact (failsWhen_of_ok (by rw [result_mk, Generator.wait_of_values hms hvalues])).congr
      (by simp)
  case complexWorkflow =>
    rw [hclauses hintent]
    exact (hc hintent).congr (by simp)
  all_goals exact (failsWhen_of_ok rfl).congr (by simp)

theorem each_failsWhen {f : Text → Trying GenerationError (List Action)} {why : GenerationError}
    {P : Text → Prop} (hf : ∀ t, FailsWhen (f t) why (P t)) :
    ∀ ts : List Text, FailsWhen (Generator.each f ts) why (∃ t ∈ ts, P t)
  | [] => (failsWhen_of_ok rfl).congr (by simp)
  | t :: rest => by
    refine ((hf t).both (each_failsWhen hf rest) (· ++ ·)).congr ?_
    simp

theorem overlong_zero_iff : Overlong 0 text ↔
    Rule.intentOf (Text.trim text) = .waitAction ∧ Facts.Endless (Text.trim text) := by
  constructor
  · rintro ⟨hintent, hendless⟩
    exact ⟨hintent, hendless⟩
  · rintro ⟨hintent, hendless⟩
    exact .wait hintent hendless

theorem overlong_succ_iff {left : Nat} : Overlong (left + 1) text ↔
    Rule.intentOf (Text.trim text) = .waitAction ∧ Facts.Endless (Text.trim text) ∨
      (Rule.intentOf (Text.trim text) = .complexWorkflow ∧
        2 ≤ (Rule.clauses (Text.trim text)).length) ∧
        ∃ clause ∈ Rule.clauses (Text.trim text), Overlong left clause := by
  constructor
  · rintro (⟨hintent, hendless⟩ | ⟨hintent, hseveral, hmember, hwithin⟩)
    · exact .inl ⟨hintent, hendless⟩
    · exact .inr ⟨⟨hintent, hseveral⟩, _, hmember, hwithin⟩
  · rintro (⟨hintent, hendless⟩ | ⟨⟨hintent, hseveral⟩, clause, hmember, hwithin⟩)
    · exact .wait hintent hendless
    · exact .clause hintent hseveral hmember hwithin

/-- A text fails just when it is overlong; the depth and the splits that are left make up the
greatest depth. -/
theorem generateWithin_failsWhen (c : Compiler) (number : Int) (left : Nat) :
    ∀ (depth : Int) (text : Text), depth + left = 2 →
      FailsWhen (c.generator.generateWithin number left depth text) .overflow
        (Overlong left text) := by
  induction left with
  | zero =>
    intro depth text hdepth
    -- no reading at the greatest depth is one of several clauses
    have hnever : ∀ r, (c.generator.classify depth text).result = .ok r →
        r.intent ≠ .complexWorkflow := by
      intro r hr hintent
      have := ((classify_ok hr).2.1.mp hintent).2.1
      omega
    have hfill : ∀ r, (c.generator.classify depth text).result = .ok r →
        FailsWhen (c.generator.fillIn number text r fun _ => return []) .overflow False :=
          fun r hr =>
      (fillIn_failsWhen (Q := False) hr fun hintent => absurd hintent (hnever r hr)).congr
        (iff_of_eq (and_false _))
    exact ((classify_failsWhen c depth text).bind hfill).congr (by rw [overlong_zero_iff, or_false])
  | succ left ih =>
    intro depth text hdepth
    have hshallow : depth < 2 := by omega
    refine ((classify_failsWhen c depth text).bind fun r hr => ?_).congr overlong_succ_iff.symm
    refine (fillIn_failsWhen hr fun _ => each_failsWhen
      (fun t => ih (depth + 1) t (by omega)) _).congr ?_
    rw [(classify_ok hr).2.1]
    simp [hshallow]

/-! ### Prompts -/

theorem compileUnit_failsWhen (c : Compiler) (u : StepUnit) :
    FailsWhen (c.compileUnit u) .overflow (Overlong 2 u.text) := by
  have hgenerate : FailsWhen (c.generator.generate u.index 0 u.text) .overflow
      (Overlong 2 u.text) :=
    generateWithin_failsWhen c u.index 2 0 u.text rfl
  refine (hgenerate.bind fun actions _ => ?_).congr (or_iff_left id)
  split
  · exact failsWhen_of_ok rfl
  · exact failsWhen_of_ok rfl

theorem compileEach_failsWhen (c : Compiler) :
    ∀ units : List StepUnit, FailsWhen (c.compileEach units) .overflow
      (∃ u ∈ units, Overlong 2 u.text)
  | [] => (failsWhen_of_ok rfl).congr (by simp)
  | u :: rest => by
    refine ((compileUnit_failsWhen c u).both (compileEach_failsWhen c rest) (· ++ ·)).congr ?_
    simp

theorem compileBody_failsWhen (c : Compiler) (body : Text) :
    FailsWhen (c.compileBody body (Prompt.units body)) .overflow
      (runsInline body = false ∧ ∃ u ∈ Prompt.units body, Overlong 2 u.text) := by
  unfold compileBody
  cases hinline : runsInline body with
  | true => exact (failsWhen_of_ok rfl).congr (by simp)
  | false =>
    rw [if_neg Bool.false_ne_true]
    unfold compileUnits
    split
    · rename_i hnone
      rw [List.isEmpty_iff.mp hnone]
      exact (failsWhen_of_ok rfl).congr (by simp)
    · exact ((compileEach_failsWhen c _).map Sequence.mk).congr (by simp)

theorem compile_failsWhen (c : Compiler) (text : Text) :
    FailsWhen (c.compile text) .overflow (runsInline (Prompt.parse text []).body = false ∧
      ∃ u ∈ Prompt.units (Prompt.parse text []).body, Overlong 2 u.text) := by
  intro e
  rw [compile_result]
  exact compileBody_failsWhen c _ e

/-- **Compiling fails exactly on an endless wait.** Every text has a wait except one whose first
duration is too long; and a prompt is compiled unless it goes step by step and one of its steps asks
for such a wait, which is then the error. -/
theorem compile_error_iff (c : Compiler) (text : Text) (e : GenerationError) :
    (∀ t, (∃ ms, Facts.wait t = .ok ms) ↔ ¬ Facts.Endless t) ∧
    ((c.compile text).result = .error e ↔ e = .duration .infinite ∧
      runsInline (Prompt.parse text []).body = false ∧
      ∃ u ∈ Prompt.units (Prompt.parse text []).body, Overlong 2 u.text) := by
  constructor
  · intro t
    rw [← Facts.wait_eq_error_iff t .infinite]
    cases Facts.wait t with
    | error d => cases d; simp
    | ok ms => simp
  · exact compile_failsWhen c text e

/-- A wait of `2 · 10 ^ 308` milliseconds is not compiled. -/
theorem compile_endless_wait :
    (bare.compile ("Wait 2".toList ++ List.replicate 308 '0' ++ "ms".toList)).result =
      .error (.duration .infinite) := by
  have hfails :
      (bare.compile ("Wait 2".toList ++ List.replicate 308 '0' ++ "ms".toList)).result.isOk =
        false := by
    decide +kernel
  cases hresult : (bare.compile ("Wait 2".toList ++ List.replicate 308 '0' ++ "ms".toList)).result
    with
  | error e => rw [((compile_failsWhen _ _ e).mp hresult).1]
  | ok s =>
    rw [hresult] at hfails
    cases hfails

end Compiler

end PlainSteps
