import PlainSteps.Proofs.Compilation.Blocks
import PlainSteps.Proofs.Intent.Clauses
import PlainSteps.Proofs.Text.Trimming

/-! # Numbered steps among other lines

A line is a step if it begins with digits, a point and a blank, and what stands behind that is the
text of the step. The number is taken off by another pattern than the one that finds the line, which
also takes all blanks behind the point; both read the same digits, since neither a blank nor a point
is one. So the text of a step may itself begin like a numbered line, and the numbers written make no
difference: steps are counted as they come (`segment_numbered`).
-/

namespace PlainSteps.Prompt

open Pattern

/-! ### Numbered lines -/

/-- A line that begins with digits, a point and a blank, perhaps with blanks in front. -/
structure IsNumbered (line : Text) : Prop where
  parts : ∃ indent number blank rest, line = indent ++ (number ++ '.' :: blank :: rest) ∧
    (∀ c ∈ indent, Text.isBlank c = true) ∧ number ≠ [] ∧ (∀ c ∈ number, Text.isDigit c = true) ∧
    Text.isBlank blank = true

section Numbers

variable {α : Type} {g : Captures} {k : Spot → Captures → Option α} {r : α}

/-- A step number takes the blanks in front, all digits and the point. -/
theorem run_stepNumber {indent number : Text} (hindent : ∀ c ∈ indent, Text.isBlank c = true)
    (hsome : number ≠ []) (hnumber : ∀ c ∈ number, Text.isDigit c = true) (rest : Text)
    (h : k ⟨some '.', rest⟩ g = some r) :
    run stepNumber ⟨none, indent ++ (number ++ '.' :: rest)⟩ g k = some r := by
  have hdigit : ∀ c ∈ (number ++ '.' :: rest).head?, Text.isBlank c = false := by
    intro c hc
    rw [List.head?_append, Option.or_of_isSome (by simpa using hsome)] at hc
    refine Bool.eq_false_iff.mpr fun hblank => ?_
    have hno := Text.isDigit_of_isBlank hblank
    rw [hnumber c (List.mem_of_mem_head? hc)] at hno
    cases hno
  have hpoint : ∀ c ∈ ('.' :: rest).head?, Text.isDigit c = false :=
    forall_head_cons (by decide) rest
  rw [stepNumber, run_seq_cons]
  show run (seq _) _ g k = _
  rw [run_seq_cons]
  refine run_many_append indent hindent hdigit ?_
  rw [run_seq_cons]
  refine run_oneOrMore_append hsome hnumber hpoint ?_
  exact (run_letter_self '.' rest).trans h

/-- What is read behind a step number stands behind blanks, digits and a point. -/
theorem run_stepNumber_taken {line : Text} (h : run stepNumber ⟨none, line⟩ g k = some r) :
    ∃ indent number rest, line = indent ++ (number ++ '.' :: rest) ∧
    (∀ c ∈ indent, Text.isBlank c = true) ∧
      number ≠ [] ∧ (∀ c ∈ number, Text.isDigit c = true) ∧ k ⟨some '.', rest⟩ g = some r := by
  have hmark : Text.IsMark '.' := by decide
  rw [stepNumber, run_seq_cons] at h
  replace h : run (seq [many Text.isBlank, oneOrMore Text.isDigit, letter '.']) ⟨none, line⟩ g k =
    some r := h
  rw [run_seq_cons] at h
  obtain ⟨indent, rest₁, hline, hindent, hdigits⟩ := runMany_taken h
  dsimp only at hline hdigits
  rw [run_seq_cons] at hdigits
  obtain ⟨d, digits, rest₂, hrest₁, hnumber, hpoint⟩ := run_oneOrMore_taken hdigits
  obtain ⟨rest, hrest₂, hbehind⟩ := run_mark_taken hmark hpoint
  dsimp only at hrest₁ hrest₂
  subst hline hrest₁ hrest₂
  exact ⟨indent, d :: digits, rest, rfl, hindent, List.cons_ne_nil d digits, hnumber, hbehind⟩

end Numbers

/-- **The lines taken for steps are the numbered ones.** -/
theorem stepLine_opens_iff {line : Text} : stepLine.opens line = true ↔ IsNumbered line := by
  unfold opens matchAt stepLine
  rw [run_seq_cons]
  constructor
  · intro h
    obtain ⟨m, hm⟩ := Option.isSome_iff_exists.mp h
    obtain ⟨indent, number, rest, rfl, hindent, hsome, hnumber, hbehind⟩ := run_stepNumber_taken hm
    obtain ⟨blank, behind, hrest, hblank, -⟩ := run_one_taken hbehind
    dsimp only at hrest
    subst hrest
    exact ⟨indent, number, blank, behind, rfl, hindent, hsome, hnumber, hblank⟩
  · intro h
    obtain ⟨indent, number, blank, rest, rfl, hindent, hsome, hnumber, hblank⟩ := h.parts
    rw [run_stepNumber hindent hsome hnumber (blank :: rest) (run_one_cons hblank rest)]
    rfl

/-! ### Steps as lines -/

/-- A step as a line writes it: blanks, the digits of any number, a point, blanks, and the text of
the step. -/
structure NumberedStep where
  indent : Text
  number : Text
  gap : Text
  text : Text
  indent_blank : ∀ c ∈ indent, Text.isBlank c = true
  number_ne_nil : number ≠ []
  number_digits : ∀ c ∈ number, Text.isDigit c = true
  gap_ne_nil : gap ≠ []
  gap_blank : ∀ c ∈ gap, Text.isBlank c = true
  text_trimmed : Text.trim text = text

namespace NumberedStep

/-- The line of a step. -/
def line (s : NumberedStep) : Text := s.indent ++ (s.number ++ '.' :: (s.gap ++ s.text))

variable (s : NumberedStep)

theorem isNumbered_line : IsNumbered s.line := by
  obtain ⟨blank, blanks, hgap⟩ := List.exists_cons_of_ne_nil s.gap_ne_nil
  have hblank : Text.isBlank blank = true := s.gap_blank blank (by rw [hgap]; exact .head _)
  refine ⟨s.indent, s.number, blank, blanks ++ s.text, ?_, s.indent_blank, s.number_ne_nil,
    s.number_digits, hblank⟩
  rw [line, hgap, List.cons_append]

theorem line_ne_nil : s.line ≠ [] := by simp [line]

/-- A line holds more than blanks. -/
theorem exists_not_isBlank : ∃ c ∈ s.line, Text.isBlank c = false :=
  ⟨'.', by simp [line], by decide⟩

/-- The text of a step begins outside blanks. -/
theorem text_starts : ∀ c ∈ s.text.head?, Text.isBlank c = false := by
  rw [← s.text_trimmed]
  exact Text.starts_trimOf

/-- **The text of a step is read back from its line,** whatever it begins with. -/
theorem stepText_line : stepText s.line = s.text := by
  have hmark : stepMark.matchAt ⟨none, s.line⟩ = some ([], s.text) := by
    unfold matchAt stepMark line
    rw [run_seq_cons]
    refine run_stepNumber s.indent_blank s.number_ne_nil s.number_digits (s.gap ++ s.text) ?_
    exact run_many_append s.gap s.gap_blank s.text_starts rfl
  rw [stepText, hmark]
  exact s.text_trimmed

end NumberedStep

/-! ### Bodies -/

/-- The lines of steps in order, with lines that are not numbered in front of them, between them and
behind them. -/
inductive Among : List NumberedStep → List Text → Prop
  | nil : Among [] []
  | step {steps : List NumberedStep} {lines : List Text} (s : NumberedStep)
      (rest : Among steps lines) :
      Among (s :: steps) (s.line :: lines)
  | other {steps : List NumberedStep} {line : Text} {lines : List Text} (plain : ¬ IsNumbered line)
      (rest : Among steps lines) : Among steps (line :: lines)

variable {steps : List NumberedStep} {lines : List Text}

theorem Among.mem_lines (h : Among steps lines) {s : NumberedStep} (hs : s ∈ steps) :
    s.line ∈ lines := by
  induction h with
  | nil => cases hs
  | step t _ ih =>
    rcases List.mem_cons.mp hs with rfl | hs
    · exact .head _
    · exact .tail _ (ih hs)
  | other _ _ ih => exact .tail _ (ih hs)

/-- An empty line at the end may be left out. -/
theorem Among.of_append_nil (h : Among steps (lines ++ [[]])) : Among steps lines := by
  induction lines generalizing steps with
  | nil =>
    generalize hlast : ([] ++ [[]] : List Text) = ls at h
    cases h with
    | nil => cases hlast
    | step s _ => exact absurd (List.cons.inj hlast).1.symm s.line_ne_nil
    | other _ rest =>
      obtain ⟨-, rfl⟩ := List.cons.inj hlast
      exact rest
  | cons line lines ih =>
    generalize hlines : line :: lines ++ [[]] = ls at h
    cases h with
    | nil => cases hlines
    | step s rest =>
      obtain ⟨rfl, rfl⟩ := List.cons.inj hlines
      exact .step s (ih rest)
    | other plain rest =>
      obtain ⟨rfl, rfl⟩ := List.cons.inj hlines
      exact .other plain (ih rest)

/-- Joined by line feeds, lines among which steps stand are the lines of a body that has the same
steps. -/
theorem Among.joined (h : Among steps lines) (hlines : ∀ line ∈ lines, Text.IsOneLine line) :
    Among steps (Text.lines (Text.joinWith ['\n'] lines)) := by
  rcases List.eq_nil_or_concat lines with rfl | ⟨front, last, rfl⟩
  · exact h
  · rw [List.concat_eq_append] at h hlines ⊢
    rw [Text.lines_joinWith_append fun l hl => hlines l (List.mem_append_left _ hl)]
    by_cases hlast : last = []
    · subst hlast
      rw [Text.lines, List.append_nil]
      exact h.of_append_nil
    · rwa [Text.lines_of_isOneLine (hlines last (by simp)) hlast]

/-- Of the lines of a body only those of its steps are taken. -/
theorem Among.filter_opens (h : Among steps lines) :
    lines.filter stepLine.opens = steps.map NumberedStep.line := by
  induction h with
  | nil => rfl
  | step s _ ih => rw [List.filter_cons_of_pos (stepLine_opens_iff.mpr s.isNumbered_line),
      ih, List.map_cons]
  | other plain _ ih => rw [List.filter_cons_of_neg (mt stepLine_opens_iff.mp plain), ih]

/-- A body with a step is not blank. -/
theorem Among.trim_ne_nil {body : Text} (h : Among steps (Text.lines body)) (hsome : steps ≠ []) :
    Text.trim body ≠ [] := by
  obtain ⟨s, rest, rfl⟩ := List.exists_cons_of_ne_nil hsome
  obtain ⟨c, hc, hblank⟩ := s.exists_not_isBlank
  obtain ⟨before, after, hbody, -⟩ := (cutFrom_of_mem_lines (h.mem_lines (.head rest))).parts
  intro hnil
  have hall := Text.trimOf_eq_nil_iff.mp hnil c (by rw [hbody]; simp [hc])
  rw [hall] at hblank
  cases hblank

theorem Among.units_eq {body : Text} (h : Among steps (Text.lines body)) (hsome : steps ≠ []) :
    units body = (steps.zipIdx 1).map fun (s, i) => ⟨i, s.text⟩ := by
  have hlines : stepLines body = steps.map NumberedStep.line := h.filter_opens
  unfold units
  rw [if_neg (by simpa using h.trim_ne_nil hsome)]
  dsimp only
  rw [hlines, if_neg (by simpa using hsome), List.zipIdx_map, List.map_map]
  refine List.map_congr_left fun (s, i) _ => ?_
  exact congrArg (StepUnit.mk i) s.stepText_line

/-- **Numbered steps are segmented without loss.** The steps of a body are the texts of its numbered
lines, in their order and counted from one, whatever their numbers and whatever other lines stand
among them, however the lines are ended; they are told by how many they are, and nothing else is. -/
theorem segment_numbered (hsome : steps ≠ []) :
    (∀ body, Among steps (Text.lines body) → Compiler.segment body =
      ⟨(steps.zipIdx 1).map fun (s, i) => ⟨i, s.text⟩,
        ["🔍 Found ".toList ++ Text.ofNat steps.length ++ " numbered steps to parse"]⟩) ∧
    ∀ lines, Among steps lines → (∀ line ∈ lines, Text.IsOneLine line) →
      (Compiler.segment (Text.joinWith ['\n'] lines)).value = (steps.zipIdx 1).map fun (s, i) =>
        ⟨i, s.text⟩ := by
  constructor
  · intro body h
    have hlines : stepLines body = steps.map NumberedStep.line := h.filter_opens
    have hblank := h.trim_ne_nil hsome
    unfold Compiler.segment
    dsimp only
    rw [hlines, if_pos (by simp [hblank, hsome]), List.length_map, h.units_eq hsome]
    rfl
  · intro lines h hlines
    rw [Compiler.segment_value]
    exact (h.joined hlines).units_eq hsome

/-- A step whose text begins like a numbered line. -/
def versionStep : NumberedStep where
  indent := "  "
  number := "7"
  gap := " "
  text := "2. Open the page"
  indent_blank := List.all_eq_true.mp (by decide)
  number_ne_nil := by decide
  number_digits := List.all_eq_true.mp (by decide)
  gap_ne_nil := by decide
  gap_blank := List.all_eq_true.mp (by decide)
  text_trimmed := by decide

/-- A step with a number in digits of another script, and a tab behind the point. -/
def saveStep : NumberedStep where
  indent := []
  number := "٣"
  gap := "\t"
  text := "Click save"
  indent_blank := nofun
  number_ne_nil := by decide
  number_digits := List.all_eq_true.mp (by decide)
  gap_ne_nil := by decide
  gap_blank := List.all_eq_true.mp (by decide)
  text_trimmed := by decide

/-- Only the numbers in front are taken off, and a number without a blank behind its point is
none. -/
theorem segment_numbered_two :
    (∀ line ∈ ["Log in first".toList, "4.5 stars".toList], ¬ IsNumbered line) ∧
    Compiler.segment "Log in first\r\n  7. 2. Open the page\n4.5 stars\n٣.\tClick save\n" =
      ⟨[⟨1, "2. Open the page"⟩, ⟨2, "Click save"⟩], ["🔍 Found 2 numbered steps to parse"]⟩ := by
  have hother : ∀ line ∈ ["Log in first".toList, "4.5 stars".toList], ¬ IsNumbered line := by
    intro line hline
    rw [← stepLine_opens_iff]
    revert line
    decide
  have hamong : Among [versionStep, saveStep]
      (Text.lines "Log in first\r\n  7. 2. Open the page\n4.5 stars\n٣.\tClick save\n") :=
    .other (hother _ (.head _))
      (.step versionStep (.other (hother _ (.tail _ (.head _))) (.step saveStep .nil)))
  exact ⟨hother, (segment_numbered (List.cons_ne_nil _ _)).1 _ hamong⟩

end PlainSteps.Prompt
