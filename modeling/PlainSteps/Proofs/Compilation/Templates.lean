import Mathlib.Data.List.Nodup
import PlainSteps.Proofs.Compilation.Compound

/-! # What a text of one intent compiles to

Each intent but the last two has one rule, so the intent of a text gives away the rule that decided
it. The actions of such a text are what the template of the rule makes of the facts that the rule
reads, wherever the text stands.
-/

namespace PlainSteps

open Trying

namespace Rule

theorem nodup_intents : (keyed.map Rule.intent).Nodup := by decide

/-- The intent of a keyed rule is given by that rule alone. -/
theorem find?_of_intentOf {text : Text} {rule : Rule} (hrule : rule ∈ keyed)
    (h : intentOf text = rule.intent) :
    keyed.find? (·.fires text) = some rule := by
  cases hfind : keyed.find? (·.fires text) with
  | none =>
    -- a quiet text has one of the two intents without a keyed rule
    have hothers : ∀ r ∈ keyed, r.intent ≠ compound.intent ∧ r.intent ≠ other.intent := by decide
    obtain ⟨hcompound, hother⟩ := hothers rule hrule
    rw [intentOf_of_find (find?_of_quiet (quiet_iff.mpr hfind))] at h
    split at h
    · exact absurd h.symm hcompound
    · exact absurd h.symm hother
  | some r =>
    have hr : r ∈ keyed := List.mem_of_find?_eq_some hfind
    rw [intentOf_of_find (find?_of_append table_eq hfind)] at h
    rw [List.inj_on_of_nodup_map nodup_intents hr hrule h]

end Rule

namespace Compiler

variable {c : Compiler} {text : Text}

theorem generate_of_intentOf (rule : Rule) (hrule : rule ∈ Rule.keyed)
    (h : Rule.intentOf (Text.trim text) = rule.intent) (number depth : Int) :
    (c.generator.generate number depth text).result =
      (((rule.findings c.config (Text.trim text)).map (Reading.mk rule.intent)).mapError
        .duration).bind
        fun r => (c.generator.fillIn number text r fun _ => return []).result :=
  generateWithin_keyed (Rule.find?_of_intentOf hrule h) number _ depth

/-- A text that checks something compiles to that one check. -/
theorem generate_verification (h : Rule.intentOf (Text.trim text) = .verifyElement)
    (number depth : Int) :
    (c.generator.generate number depth text).result =
      let check := Facts.verification c.config (Text.trim text)
      .ok [Action.assert check.element check.condition
        (Generator.step number ("Verify ".toList ++ check.description))] := by
  rw [generate_of_intentOf Rule.verify (by simp [Rule.keyed]) h]
  rfl

/-- A text that waits compiles to that one wait, if its duration is not too long. -/
theorem generate_wait (h : Rule.intentOf (Text.trim text) = .waitAction) (number depth : Int) :
    (c.generator.generate number depth text).result =
      ((Facts.wait (Text.trim text)).mapError .duration).map fun ms =>
        [Action.wait ms (Generator.step number ("Wait ".toList ++ Text.ofInt ms ++ "ms"))] := by
  rw [generate_of_intentOf Rule.wait (by simp [Rule.keyed]) h, Rule.wait_findings]
  cases hms : Facts.wait (Text.trim text) with
  | error e => rfl
  | ok ms =>
    let found : Findings :=
      { values := [Text.ofInt ms], modifiers := Facts.waitConditions (Text.trim text) }
    exact Generator.wait_of_values (f := found) hms rfl

end Compiler

end PlainSteps
