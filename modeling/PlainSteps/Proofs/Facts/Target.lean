import PlainSteps.Facts.Target
import PlainSteps.Proofs.Pattern.Run

/-! # What a step can name

The elements that a click, a check or a form acts on are those of the configuration, or the ones
that stand for any other. The condition of a check is that of a rule too, unless a quoted text or a
word for hiding takes its place; and between the quotes there is always something.
-/

namespace PlainSteps.Facts

open Pattern

variable {config : Config} {text : Text}

/-- A quoted text is not empty, and stands between two quotes. -/
theorem quotedText_parts {f : Found} (h : quotedText.find? text = some f) :
    f.group 1 ≠ [] ∧ text = f.before ++ '"' :: (f.group 1 ++ '"' :: f.after) := by
  obtain ⟨hparts, hmatch⟩ := findFrom_parts h
  unfold matchAt quotedText at hmatch
  rw [run_seq_cons] at hmatch
  obtain ⟨rest₁, hrest₁, hmatch⟩ := run_mark_taken (by decide) hmatch
  rw [run_seq_cons, run_group] at hmatch
  obtain ⟨c, cs, rest₂, hrest₂, -, hmatch⟩ := run_oneOrMore_taken hmatch
  obtain ⟨rest, hrest, hmatch⟩ := run_mark_taken (by decide) hmatch
  dsimp only at hrest₁ hrest₂ hrest hmatch
  obtain ⟨hkept, rfl⟩ := Prod.mk.inj (Option.some.inj hmatch)
  have hgroup : f.group 1 = c :: cs := by
    rw [Found.group, Found.group?, ← hkept, hrest₂, take_piece]
    rfl
  rw [hgroup]
  refine ⟨List.cons_ne_nil _ _, hparts.trans ?_⟩
  rw [hrest₁, hrest₂, hrest]

theorem find?_fires {rules : List KeywordRule} {r : KeywordRule}
    (h : rules.find? (·.fires text) = some r) :
    r.fires text = true := by
  simpa using List.find?_some h

/-- The element of a click is that of a rule that fires, if there is one. -/
theorem clickTarget_eq (config : Config) (text : Text) :
    (∃ r ∈ config.clickTargets, r.fires text = true ∧ clickTarget config text = r.element) ∨
      clickTarget config text = defaultClickTarget := by
  unfold clickTarget
  cases hfind : config.clickTargets.find? (·.fires text) with
  | none => exact .inr rfl
  | some r => exact .inl ⟨r, List.mem_of_find?_eq_some hfind, find?_fires hfind, rfl⟩

/-- The check a text asks for by a rule that fires, or the default one. -/
def ruledCheck (config : Config) (text : Text) : Verification :=
  match config.verificationTargets.find? (·.fires text) with
  | some rule => checkOf rule
  | none => defaultVerification

theorem ruledCheck_eq (config : Config) (text : Text) :
    (∃ r ∈ config.verificationTargets, r.fires text = true ∧ ruledCheck config text = checkOf r) ∨
      ruledCheck config text = defaultVerification := by
  unfold ruledCheck
  cases hfind : config.verificationTargets.find? (·.fires text) with
  | none => exact .inr rfl
  | some r => exact .inl ⟨r, List.mem_of_find?_eq_some hfind, find?_fires hfind, rfl⟩

/-- Whether a condition stands in a text itself: there are words for hiding, or it is a text between
quotes. -/
def Worded (text condition : Text) : Prop :=
  condition = "hidden" ∨ ∃ before quoted after, text = before ++ '"' :: (quoted ++ '"' :: after) ∧
    quoted ≠ [] ∧
    condition = "contains:".toList ++ quoted

/-- The words of a text may change the condition of its check, but never the element. -/
theorem verification_eq (config : Config) (text : Text) :
    (verification config text).element = (ruledCheck config text).element ∧
      ((verification config text).condition = (ruledCheck config text).condition ∨
        Worded text (verification config text).condition) := by
  unfold verification
  cases hquoted : quotedText.find? text with
  | some f =>
    obtain ⟨hnonempty, hparts⟩ := quotedText_parts hquoted
    exact ⟨rfl, .inr (.inr ⟨_, _, _, hparts, hnonempty, rfl⟩)⟩
  | none =>
    dsimp only
    split
    · exact ⟨rfl, .inr (.inl rfl)⟩
    · exact ⟨rfl, .inl rfl⟩

/-- The element of a field is declared for a form. -/
theorem element_of_mem_formFields {field : FormField} (h : field ∈ formFields config text) :
    ∃ label, (label, field.element) ∈ config.formFields := by
  unfold formFields at h
  obtain ⟨⟨start, field⟩, hfound, rfl⟩ := List.mem_map.mp h
  obtain ⟨⟨label, element⟩, hdeclared, hfields⟩ :=
    List.mem_flatMap.mp (List.mem_mergeSort.mp hfound)
  obtain ⟨⟨start', f⟩, -, heq⟩ := List.mem_map.mp hfields
  cases heq
  exact ⟨label, hdeclared⟩

end PlainSteps.Facts
