import PlainSteps.Config.Shipped
import PlainSteps.Proofs.Compilation.Compound
import PlainSteps.Proofs.Compilation.InlineRows

/-! # What a sequence is made up of

Every compiled sequence is a row of passages: what one template makes of the facts of one text, the
login of one row of a dataset, a pause between two rows, or the action that stands where there is
none of these. The cases of a passage are all the ways an action can come about, each with what is
known of the text behind it, so that a property of compiled actions is proved by going through them.
Splitting a step adds no way, since it never leads to an action.
-/

namespace PlainSteps

open Trying

/-- Actions that one template writes. -/
inductive Passage (config : Config) : List Action → Prop
  /-- A prompt without steps opens the application. -/
  | opening :
      Passage config [Action.navigate config.baseUrl "Navigate to application (default action)"]
  /-- A step without any actions waits. -/
  | unclassified (index : Nat) : Passage config
      [Action.wait Compiler.unclassifiedWait ("Step ".toList ++ Text.ofNat index ++
        ": unclassified step")]
  | navigation (number : Int) (f : Findings) : Passage config (Generator.navigation config number f)
  | login (number : Int) (f : Findings) : Passage config (Generator.login config number f)
  | form {text : Text} {f : Findings} (number : Int)
      (facts : Rule.fillForm.findings config text = .ok f) :
      Passage config (Generator.form number f)
  | click {text : Text} {f : Findings} (number : Int) (intent : Rule.intentOf text = .clickElement)
      (facts : Rule.click.findings config text = .ok f) :
      Passage config (Generator.click config number f)
  | verification {text : Text} {f : Findings} (number : Int)
      (intent : Rule.intentOf text = .verifyElement)
      (facts : Rule.verify.findings config text = .ok f) :
      Passage config (Generator.verification number f)
  | wait {text : Text} {ms : Int} (number : Int) (facts : Facts.wait text = .ok ms) : Passage config
      [Action.wait ms (Generator.step number ("Wait ".toList ++ Text.ofInt ms ++ "ms"))]
  /-- The login of one row. -/
  | row (number : Int) {position : Nat} (counted : 1 ≤ position) (row : Row) (logout : Bool) :
      Passage config (Expansion.rowActions config row (Expansion.rowLabel number position) logout)
  /-- The pause behind a row. -/
  | pause (number : Int) (position : Nat) : Passage config [Expansion.pause number position]

/-- Actions that are passages, one after the other. -/
def Passages (config : Config) (actions : List Action) : Prop :=
  ∃ parts : List (List Action), actions = parts.flatten ∧ ∀ part ∈ parts, Passage config part

/-- Whether an action, as it stands between others, is part of some actions that stand there as a
whole. -/
def StandsIn (part before : List Action) (a : Action) (after : List Action) : Prop :=
  ∃ front back, part = front ++ a :: back ∧ front <:+ before ∧ back <+: after

theorem StandsIn.mem {part before after : List Action} {a : Action}
    (h : StandsIn part before a after) :
    a ∈ part := by
  obtain ⟨front, back, rfl, -, -⟩ := h
  simp

namespace Passages

variable {config : Config} {actions others : List Action}

theorem nil : Passages config [] := ⟨[], rfl, nofun⟩

theorem of_passage (h : Passage config actions) : Passages config actions :=
  ⟨[actions], by simp, by simpa using h⟩

theorem append :
    Passages config actions → Passages config others → Passages config (actions ++ others)
  | ⟨parts, hactions, hparts⟩, ⟨more, hothers, hmore⟩ => by
    refine ⟨parts ++ more, by rw [List.flatten_append, hactions, hothers], fun part hpart => ?_⟩
    exact (List.mem_append.mp hpart).elim (hparts part) (hmore part)

theorem flatten {lists : List (List Action)} (h : ∀ actions ∈ lists, Passages config actions) :
    Passages config lists.flatten := by
  induction lists with
  | nil => exact nil
  | cons actions rest ih =>
    exact (h actions (.head _)).append (ih fun others hothers => h others (.tail _ hothers))

/-- An action of passages stands in one of them. -/
theorem exists_passage {before after : List Action} {a : Action}
    (h : Passages config (before ++ a :: after)) :
    ∃ part, Passage config part ∧ StandsIn part before a after := by
  obtain ⟨parts, hactions, hparts⟩ := h
  rcases List.flatten_eq_append_iff.mp hactions.symm with
    ⟨earlier, later, rfl, rfl, hlater⟩ | ⟨earlier, front, b, back, later, rfl, rfl, hlater⟩
  · obtain ⟨empty, back, rest, rfl, -, rfl⟩ := List.flatten_eq_cons_iff.mp hlater.symm
    exact ⟨a :: back, hparts _ (by simp), [], back, rfl, List.nil_suffix, List.prefix_append _ _⟩
  · cases hlater
    exact ⟨_, hparts _ (by simp), front, back, rfl, List.suffix_append _ _, List.prefix_append _ _⟩

end Passages

/-! ### Rows -/

theorem Expansion.expand_passages (config : Config) (source : DataSource) (text : Text)
    (number : Int) :
    Passages config (expand config source text number).value := by
  rw [expand_value, actionsOf_eq_flatMap]
  refine Passages.flatten fun actions hactions => ?_
  obtain ⟨⟨row, position⟩, hrow, rfl⟩ := List.mem_map.mp hactions
  have hposition : 1 ≤ position := (List.mem_zipIdx hrow).1
  refine (Passages.of_passage (.row number hposition row _)).append ?_
  split
  · exact .of_passage (.pause number position)
  · exact .nil

/-! ### Texts -/

namespace Compiler

variable {c : Compiler} {text : Text} {actions : List Action}

theorem fillIn_passages {rule : Rule}
    (hfind : Rule.keyed.find? (·.fires (Text.trim text)) = some rule) {number : Int} {f : Findings}
    (hfacts : rule.findings c.config (Text.trim text) = .ok f)
    {ofClauses : List Text → Trying GenerationError (List Action)}
    (h : (c.generator.fillIn number text ⟨rule.intent, f⟩ ofClauses).result = .ok actions) :
    Passages c.config actions := by
  have hintent : Rule.intentOf (Text.trim text) = rule.intent :=
    Rule.intentOf_of_find (Rule.find?_of_append Rule.table_eq hfind)
  have hrule : rule ∈ Rule.keyed := List.mem_of_find?_eq_some hfind
  simp only [Rule.keyed, List.mem_cons, List.not_mem_nil, or_false] at hrule
  -- one passage for each rule of a single intent
  rcases hrule with rfl | rfl | rfl | rfl | rfl | rfl | rfl
  · cases h
    exact Expansion.expand_passages _ _ _ _
  · cases h
    exact .of_passage (.navigation number f)
  · cases h
    exact .of_passage (.login number f)
  · cases h
    exact .of_passage (.form number hfacts)
  · cases h
    exact .of_passage (.click number hintent hfacts)
  · cases h
    exact .of_passage (.verification number hintent hfacts)
  · rw [Rule.wait_findings, map_eq_ok_iff] at hfacts
    obtain ⟨ms, hms, hf⟩ := hfacts
    have hwait : Generator.wait number f = .ok actions := h
    rw [Generator.wait_of_values hms (by rw [← hf])] at hwait
    cases hwait
    exact .of_passage (.wait number hms)

theorem generate_passages {number depth : Int}
    (h : (c.generator.generate number depth text).result = .ok actions) :
    Passages c.config actions := by
  unfold Generator.generate at h
  cases hfind : Rule.keyed.find? (·.fires (Text.trim text)) with
  | none =>
    rw [generateWithin_quiet c number _ depth text (Rule.quiet_iff.mpr hfind)] at h
    cases h
    exact .nil
  | some rule =>
    rw [generateWithin_keyed hfind, bind_eq_ok_iff] at h
    obtain ⟨r, hr, h⟩ := h
    obtain ⟨f, hfacts, rfl⟩ := map_eq_ok_iff.mp (mapError_eq_ok_iff.mp hr)
    exact fillIn_passages hfind hfacts h

theorem compileUnit_passages {u : StepUnit} (h : (c.compileUnit u).result = .ok actions) :
    Passages c.config actions := by
  rcases compileUnit_ok h with ⟨hgenerate, -⟩ | rfl
  · exact generate_passages hgenerate
  · exact .of_passage (.unclassified u.index)

/-- **Every sequence is made up of passages.** -/
theorem compile_passages {s : Sequence} (h : (c.compile text).result = .ok s) :
    Passages c.config s.actions := by
  rw [compile_result] at h
  unfold compileBody at h
  split at h
  · simp only [result_bind, result_say, result_lift] at h
    cases h
    exact Expansion.expand_passages _ _ _ _
  · unfold compileUnits at h
    split at h
    · cases h
      exact .of_passage .opening
    · rw [result_map, map_eq_ok_iff] at h
      obtain ⟨actions, hactions, rfl⟩ := h
      obtain ⟨rfl, hblocks⟩ := compileEach_ok hactions
      refine Passages.flatten fun block hblock => ?_
      obtain ⟨u, hu, rfl⟩ := List.mem_map.mp hblock
      exact compileUnit_passages (hblocks u hu)

/-- The shipped configuration over a directory without data files. -/
def ofShipped : Compiler := ⟨Config.shipped, ⟨"test-data", fun _ => .missing, .own⟩⟩

end Compiler

end PlainSteps
