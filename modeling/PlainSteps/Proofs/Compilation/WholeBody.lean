import PlainSteps.Proofs.Dataset.InlineGate
import PlainSteps.Proofs.Dataset.UsableRecords

/-! # Rows belong to the whole body

A body is asked for rows before it is cut into steps, and a step is asked again. The step is a piece
of the body, cut out where no word goes on: a numbered line without its number, or the body itself
without the white space around it. Each line of such a piece lies within a line of the body, and the
patterns look at nothing but a line and the words around it; so a piece that has rows to run shows
that the body has. A body that is compiled step by step therefore has no step with rows of its own,
and a step over a dataset runs those of a file or the default credentials.
-/

namespace PlainSteps

open Pattern Trying Dataset

/-! ### Pieces of a body -/

section Pieces

variable {piece text : Text}

/-- What occurs on a line of a piece occurs on a line of the text. -/
theorem exists_line_of_piece {a : Pattern} (hlocal : a.isLocal = true)
    (hempty : a.occursIn [] = false) (hcut : CutFrom piece text)
    (h : ∃ line ∈ Text.lines piece, a.occursIn line = true) :
    ∃ line ∈ Text.lines text, a.occursIn line = true := by
  obtain ⟨line, hline, ha⟩ := h
  have hsome : line ≠ [] := by
    rintro rfl
    rw [hempty] at ha
    cases ha
  obtain ⟨whole, hwhole, hin⟩ := exists_line_of_cutFrom ((cutFrom_of_mem_lines hline).trans hcut)
    (Text.isOneLine_of_mem_lines hline) hsome
  exact ⟨whole, hwhole, occursIn_of_cutFrom hlocal hin ha⟩

theorem Dataset.inlineRows_of_cutFrom (hcut : CutFrom piece text) (h : inlineRows piece ≠ []) :
    inlineRows text ≠ [] := by
  rw [inlineRows_ne_nil_iff] at h ⊢
  rcases h with hwhole | hparts
  · simp only [rowOfLine?_ne_none_iff] at hwhole ⊢
    exact .inl (exists_line_of_piece rfl rfl hcut hwhole)
  · refine .inr fun part => exists_line_of_piece ?_ ?_ hcut (hparts part)
    · cases part <;> rfl
    · cases part <;> rfl

/-- **A text runs rows if a piece of it does.** -/
theorem Compiler.runsInline_of_cutFrom (hcut : CutFrom piece text) (h : runsInline piece = true) :
    runsInline text = true := by
  obtain ⟨hlabels, hrows⟩ := Bool.and_eq_true_iff.mp h
  rw [runsInline_of_rows (inlineRows_of_cutFrom hcut (by simpa using hrows))]
  exact Rule.hasInlineRow_of_cutFrom hcut hlabels

end Pieces

/-! ### Steps as pieces -/

section Steps

variable {line body : Text}

/-- Behind its number a line is cut where no word goes on: there is a point, and blanks at most. -/
theorem cutFrom_of_stepMark {g : Captures} {rest : Text}
    (h : Prompt.stepMark.matchAt ⟨none, line⟩ = some (g, rest)) :
    CutFrom rest line := by
  unfold matchAt Prompt.stepMark Prompt.stepNumber at h
  simp only [run_seq_cons] at h
  obtain ⟨start, rest₁, g₁, hrest₁, h⟩ := run_taken _ h
  obtain ⟨indent, rest₂, hrest₂, -, h⟩ := runMany_taken h
  obtain ⟨d, digits, rest₃, hrest₃, -, h⟩ := run_oneOrMore_taken h
  have hmark : Text.IsMark '.' := by decide
  obtain ⟨rest₄, hrest₄, h⟩ := run_mark_taken hmark h
  obtain ⟨blanks, rest₅, hrest₅, hblanks, h⟩ := runMany_taken h
  cases h
  dsimp only at hrest₁ hrest₂ hrest₃ hrest₄ hrest₅
  have hpoint : Text.isWord '.' = false := by decide
  refine ⟨(start ++ (indent ++ d :: digits) ++ ['.']) ++ blanks, [], ?_,
    getLast?_append_outside ?_ ?_, rfl⟩
  · rw [hrest₁, hrest₂, hrest₃, hrest₄, hrest₅]
    simp only [List.append_assoc, List.append_nil, List.nil_append, List.cons_append]
  · rw [List.getLast?_concat]
    exact hpoint
  · exact outsideWord_of_forall (fun _ => Text.isWord_of_isBlank) fun c hc =>
      hblanks c (List.mem_of_getLast? hc)

theorem cutFrom_stepText (line : Text) : CutFrom (Prompt.stepText line) line := by
  unfold Prompt.stepText
  split
  · rename_i g rest hmark
    exact (cutFrom_trim rest).trans (cutFrom_of_stepMark hmark)
  · exact cutFrom_trim line

/-- A step is cut from its body. -/
theorem cutFrom_of_mem_units {u : StepUnit} (h : u ∈ Prompt.units body) : CutFrom u.text body := by
  unfold Prompt.units at h
  split at h
  · cases h
  · dsimp only at h
    split at h
    · obtain rfl := List.mem_singleton.mp h
      exact cutFrom_trim body
    · obtain ⟨⟨line, i⟩, hline, rfl⟩ := List.mem_map.mp h
      have hmem : line ∈ Text.lines body :=
        (List.mem_filter.mp (List.fst_mem_of_mem_zipIdx hline)).1
      exact (cutFrom_stepText line).trans (cutFrom_of_mem_lines hmem)

end Steps

namespace Compiler

variable {c : Compiler} {text : Text}

/-! ### Steps over a dataset -/

/-- Rows that a text does not carry itself: those of the file that it names, or the default
credentials. -/
inductive Supplied (c : Compiler) (text : Text) : List Row → Prop
  | file {name : Text} {dataset : Dataset} (named : Facts.dataset? text = some name)
      (loaded : (c.source.load name).value = some dataset)
      (external : dataset.origin = .external name)
      (some : dataset.rows ≠ []) : Supplied c text dataset.rows
  | defaults : Supplied c text [Expansion.defaultRow c.config]

/-- A text that does not run rows of its own is given its rows. -/
theorem supplied_of_not_runsInline (h : runsInline text = false) :
    Supplied c text (Expansion.usableRows c.config (resolve c.source text).value) := by
  unfold Expansion.usableRows
  by_cases hrows : (resolve c.source text).value.rows = []
  · rw [hrows]
    exact .defaults
  · rw [if_neg (by simpa using hrows)]
    obtain ⟨name, hname, hload⟩ := (rows_of_not_runsInline h c.source).resolve_left hrows
    exact .file hname hload (DataSource.named_of_load hload).1 hrows

/-- A text that does not run rows of its own has no dataset of such rows. -/
theorem rows_eq_nil_of_not_runsInline (h : runsInline text = false)
    (horigin : (resolve c.source text).value.origin = .inline) :
    (resolve c.source text).value.rows = [] := by
  rcases rows_of_not_runsInline h c.source with hrows | ⟨name, -, hload⟩
  · exact hrows
  · rw [(DataSource.named_of_load hload).1] at horigin
    cases horigin

/-- A step that is read as one over a dataset compiles to the logins of its rows. -/
theorem compileUnit_of_dataDriven {u : StepUnit} {r : Reading}
    (hr : (c.generator.classify 0 u.text).result = .ok r) (hintent : r.intent = .dataDrivenTest) :
    (c.compileUnit u).result =
      .ok (Expansion.actionsOf c.config u.index (Expansion.logoutWords.occursIn u.text) 1
      (Expansion.usableRows c.config (resolve c.source u.text).value)) := by
  have hfill : ∀ ofClauses, (c.generator.fillIn u.index u.text r ofClauses).result =
      .ok (Expansion.expand c.config c.source u.text u.index).value := by
    intro ofClauses
    unfold Generator.fillIn
    rw [hintent]
    rfl
  have hgenerate : (c.generator.generate u.index 0 u.text).result =
      .ok (Expansion.expand c.config c.source u.text u.index).value := by
    unfold Generator.generate
    cases c.generator.splitsLeft 0 with
    | zero =>
      unfold Generator.generateWithin
      rw [result_bind, hr]
      exact hfill _
    | succ left =>
      unfold Generator.generateWithin
      rw [result_bind, hr]
      exact hfill _
  -- at least the default credentials are tried, so the step does not count as unclassified
  have hsome : ¬ (Expansion.expand c.config c.source u.text u.index).value.isEmpty = true := by
    simpa using Expansion.expand_ne_nil c.config c.source u.text u.index
  rw [← Expansion.expand_value]
  unfold compileUnit
  rw [result_bind, hgenerate]
  dsimp only [Except.bind]
  rw [if_neg hsome]
  rfl

/-- A step of several clauses compiles to the wait of a step that was not understood. -/
theorem compileUnit_of_compound {u : StepUnit} {r : Reading}
    (hr : (c.generator.classify 0 u.text).result = .ok r) (hintent : r.intent = .complexWorkflow) :
    (c.compileUnit u).result =
      .ok [Action.wait 1000 ("Step ".toList ++ Text.ofNat u.index ++ ": unclassified step")] := by
  unfold compileUnit
  rw [result_bind, generate_compound hr hintent]
  rfl

/-- **Rows in a prompt are run for its whole body or not at all.** Where the body does not run its
rows it compiles step by step, and no step has a dataset of rows of its own: a step over a dataset
logs in with the rows of the file that it names or with the default credentials, and a step of
several clauses has no actions, so that none of its clauses is run over rows either. Where the body
runs its rows, these are its dataset and what it compiles to is their logins, over every directory
of data files and for every credentials. -/
theorem rows_run_for_whole_body (c : Compiler) (text file : Text) :
    let body := (Prompt.parse text file).body
    (runsInline body = false →
      c.compileBody body (Prompt.units body) = c.compileUnits (Prompt.units body) ∧
      ∀ u ∈ Prompt.units body,
        ((resolve c.source u.text).value.origin = .inline →
          (resolve c.source u.text).value.rows = []) ∧
        ∀ r, (c.generator.classify 0 u.text).result = .ok r →
          (r.intent = .dataDrivenTest → ∃ rows, Supplied c u.text rows ∧ (c.compileUnit u).result =
            .ok (Expansion.actionsOf c.config u.index
              (Expansion.logoutWords.occursIn u.text) 1 rows)) ∧
          (r.intent = .complexWorkflow → (c.compileUnit u).result = .ok [Action.wait 1000
            ("Step ".toList ++ Text.ofNat u.index ++ ": unclassified step")])) ∧
    (runsInline body = true →
      inlineRows body ≠ [] ∧ (resolve c.source body).value = ⟨.inline, inlineRows body⟩ ∧
      (c.compileBody body (Prompt.units body)).result = .ok
        ⟨Expansion.actionsOf c.config 1 (Expansion.logoutWords.occursIn body) 1
          (inlineRows body)⟩) := by
  intro body
  constructor
  · intro hbody
    refine ⟨if_neg (Bool.eq_false_iff.mp hbody), fun u hu => ?_⟩
    -- what a step runs inline the whole body would run inline
    have hunit : runsInline u.text = false := by
      by_contra hruns
      rw [runsInline_of_cutFrom (cutFrom_of_mem_units hu) (by simpa using hruns)] at hbody
      cases hbody
    refine ⟨rows_eq_nil_of_not_runsInline hunit,
      fun r hr => ⟨fun hintent => ?_, compileUnit_of_compound hr⟩⟩
    exact ⟨_, supplied_of_not_runsInline hunit, compileUnit_of_dataDriven hr hintent⟩
  · intro hbody
    obtain ⟨-, hrows⟩ := Bool.and_eq_true_iff.mp hbody
    refine ⟨by simpa using hrows, ?_, compileBody_of_runsInline hbody c _⟩
    rw [resolve_of_runsInline hbody]
    rfl

end Compiler

end PlainSteps
