import PlainSteps.Proofs.Compilation.Lookups
import PlainSteps.Proofs.Dataset.LabelledLine
import PlainSteps.Proofs.Json.Members

/-! # Labels that the rows of a text have to show

The rows of a text are run only if all their labels stand in it as words. A row that is put together
over several lines comes from labels that do: each of its patterns asks for the edge of a word. The
pattern of a whole row on one line does not, so it also takes a label for one that goes on a longer
word, as in `db_username:`. A text whose rows are found on such lines only has rows and does not run
them, and there is no other way to lose rows.
-/

namespace PlainSteps

open Pattern

namespace Dataset

/-! ### Labels as words -/

/-- A text holds the word of a label where a word begins, with blanks at most between it and a
colon. -/
def StandsAlone (name t : Text) : Prop :=
  ∃ before written blanks after, t = before ++ (written ++ (blanks ++ ':' :: after)) ∧
    written.map Text.fold = name.map Text.fold ∧ (∀ c ∈ blanks, Text.isBlank c = true) ∧
    OutsideWord before.getLast?

/-- A text mentions a label, but only where it goes on a longer word. -/
def Buried (name t : Text) : Prop := Mentions name t ∧ ¬ StandsAlone name t

theorem StandsAlone.mentions {name t : Text} (h : StandsAlone name t) : Mentions name t := by
  obtain ⟨before, written, blanks, after, heq, hwritten, hblanks, -⟩ := h
  exact ⟨before, written, blanks, after, heq, hwritten, hblanks⟩

section Labels

variable {α : Type} {name written t : Text} {s : Spot} {g : Captures} {k : Spot →
  Captures → Option α} {r : α}

theorem isLabel_of_mem (h : name ∈ Facts.rowLabels) : IsLabel name := by
  simp only [Facts.rowLabels, List.mem_cons, List.not_mem_nil, or_false] at h
  rcases h with rfl | rfl | rfl
  · exact ⟨'u', _, rfl, by decide⟩
  · exact ⟨'p', _, rfl, by decide⟩
  · exact ⟨'e', _, rfl, by decide⟩

/-- Where the edge of a word is asked for in front of a label, the label stands alone. -/
theorem standsAlone_of_edge (hname : name ∈ Facts.rowLabels) {before rest : Text}
    (hparts : ∃ written blanks after, rest = written ++ (blanks ++ ':' :: after) ∧
      written.map Text.fold = name.map Text.fold ∧ ∀ c ∈ blanks, Text.isBlank c = true)
    (h : run (edge true) ⟨lastOf none before, rest⟩ g k = some r) :
    StandsAlone name (before ++ rest) := by
  obtain ⟨written, blanks, after, rfl, hwritten, hblanks⟩ := hparts
  rw [run_edge_of_word ((isLabel_of_mem hname).isWord_written hwritten _)] at h
  split at h
  · cases h
  · rename_i houtside
    refine ⟨before, written, blanks, after, rfl, hwritten, hblanks, ?_⟩
    rw [lastOf_eq, Option.or_none] at houtside
    exact Bool.eq_false_iff.mpr houtside

/-- **A text shows a label with its colon just when the label stands alone in it.** -/
theorem rowLabel_occursIn_iff (hname : name ∈ Facts.rowLabels) :
    (Facts.rowLabel name).occursIn t = true ↔ StandsAlone name t := by
  constructor
  · intro h
    obtain ⟨before, rest, rfl, hmatch⟩ := exists_matchAt_of_findFrom h
    obtain ⟨r, hr⟩ := Option.isSome_iff_exists.mp hmatch
    unfold matchAt Facts.rowLabel at hr
    rw [run_seq_cons] at hr
    -- the edge in front of the label says that no word comes before
    refine standsAlone_of_edge hname ?_ hr
    have hlabel := run_edge_taken hr
    rw [run_seq_cons] at hlabel
    obtain ⟨written, behind, hrest, hwritten, hbehind⟩ := run_letters_taken hlabel
    rw [run_seq_cons] at hbehind
    obtain ⟨blanks, ahead, rfl, hblanks, hahead⟩ := runMany_taken hbehind
    have hmark : Text.IsMark ':' := by decide
    obtain ⟨after, hafter, -⟩ := run_mark_taken hmark hahead
    obtain rfl : ahead = ':' :: after := hafter
    exact ⟨written, blanks, after, hrest, hwritten, hblanks⟩
  · rintro ⟨before, written, blanks, after, rfl, hwritten, hblanks, hbefore⟩
    apply occursIn_append
    have houtside : OutsideWord (lastOf none before) := by rwa [lastOf_eq, Option.or_none]
    have hcolon : ∀ c ∈ (':' :: after).head?, Text.isBlank c = false :=
      forall_head_cons (by decide) _
    have hbehind : run (many Text.isBlank) ⟨lastOf (lastOf none before) written,
      blanks ++ ':' :: after⟩ []
        (fun s' g' => run (letter ':') s' g' fun s'' g'' => some (g'', s''.rest)) =
          some ([], after) :=
      run_many_append blanks hblanks hcolon (run_letter_self ':' after)
    unfold matchAt Facts.rowLabel
    rw [(isLabel_of_mem hname).run_edge_letters hwritten houtside, run_seq_cons]
    exact Option.isSome_of_eq_some hbehind

theorem standsAlone_of_cutFrom {piece : Text} (hname : name ∈ Facts.rowLabels)
    (hcut : CutFrom piece t) (h : StandsAlone name piece) : StandsAlone name t := by
  rw [← rowLabel_occursIn_iff hname] at h ⊢
  exact occursIn_of_cutFrom (Rule.isLocal_rowLabel name hname) hcut h

end Labels

/-! ### Rows over several lines -/

namespace Part

theorem name_mem_rowLabels (part : Part) : part.name ∈ Facts.rowLabels := by
  cases part <;> decide

/-- On a line with a part of a block its label stands alone. -/
theorem standsAlone_of_occursIn (part : Part) {line : Text}
    (h : part.pattern.occursIn line = true) :
    StandsAlone part.name line := by
  obtain ⟨before, rest, rfl, hmatch⟩ := exists_matchAt_of_findFrom h
  obtain ⟨r, hr⟩ := Option.isSome_iff_exists.mp hmatch
  obtain ⟨ps, hps⟩ := part.pattern_eq
  unfold matchAt at hr
  rw [hps, run_seq_cons] at hr
  refine standsAlone_of_edge part.name_mem_rowLabels ?_ hr
  have hlabel := run_edge_taken hr
  rw [run_seq_cons] at hlabel
  obtain ⟨written, blanks, gap, ahead, hrest, hwritten, hblanks, -, -⟩ := run_label_parts hlabel
  exact ⟨written, blanks, gap ++ ahead, hrest, hwritten, hblanks⟩

end Part

section Blocks

variable {current : List (Text × Text)} {line : Text} {lines : List Text}

/-- Whether a part has been collected. -/
def Has (current : List (Text × Text)) (part : Part) : Prop := part.name ∈ current.map Prod.fst

theorem isComplete_iff : isComplete current = true ↔ ∀ part, Has current part := by
  have hkeys : ∀ part : Part, (current.any fun field => field.1 == part.name) = true ↔
      Has current part := by
    intro part
    simp [Has]
  rw [isComplete, blockLabels_eq, List.all_map, List.all_eq_true]
  constructor
  · intro h part
    exact (hkeys part).mp (h part part.mem_all)
  · intro h part _
    exact (hkeys part).mpr (h part)

theorem has_addPart {part other : Part} :
    Has (addPart line current part) other ↔ Has current other ∨ other = part ∧
    other.pattern.occursIn line = true := by
  unfold addPart Pattern.occursIn
  by_cases hother : other = part
  · subst hother
    cases other.pattern.find? line with
    | none => simp
    | some f => simp [Has, Json.mem_map_fst_put]
  · have hname : other.name ≠ part.name := fun h => hother (Part.name_injective h)
    cases part.pattern.find? line with
    | none => simp [hother]
    | some f => simp [Has, Json.mem_map_fst_put, hname, hother]

/-- A line adds the parts whose patterns it shows. -/
theorem has_addLine {part : Part} :
    Has (addLine current line) part ↔ Has current part ∨ part.pattern.occursIn line = true := by
  have hfold : ∀ (parts : List Part) (current : List (Text × Text)),
    Has (parts.foldl (addPart line) current) part ↔
      Has current part ∨ part ∈ parts ∧ part.pattern.occursIn line = true := by
    intro parts
    induction parts with
    | nil => simp
    | cons first rest ih =>
      intro current
      rw [List.foldl_cons, ih, has_addPart, List.mem_cons, or_assoc, or_and_right]
  rw [addLine_eq, hfold, and_iff_right part.mem_all]

/-- **Lines give a row just when each part is collected or on a line.** -/
theorem blockRows_ne_nil_iff (hcurrent : isComplete current = false) :
    blockRows current lines ≠ [] ↔
      ∀ part : Part, Has current part ∨ ∃ line ∈ lines, part.pattern.occursIn line = true := by
  induction lines generalizing current with
  | nil =>
    have hparts : ¬ ∀ part, Has current part := by
      rw [← isComplete_iff, hcurrent]
      exact Bool.false_ne_true
    simpa [blockRows] using hparts
  | cons line rest ih =>
    -- a part that the line has is collected from then on
    have hline : ∀ part : Part,
      (Has current part ∨ ∃ l ∈ line :: rest, part.pattern.occursIn l = true) ↔
        Has (addLine current line) part ∨ ∃ l ∈ rest, part.pattern.occursIn l = true := by
      intro part
      simp only [has_addLine, List.mem_cons, exists_eq_or_imp, or_assoc]
    simp only [hline]
    unfold blockRows
    dsimp only
    split
    · rename_i hcomplete
      have hall := isComplete_iff.mp hcomplete
      exact iff_of_true (List.cons_ne_nil _ _) fun part => .inl (hall part)
    · rename_i hcomplete
      exact ih (Bool.eq_false_iff.mpr hcomplete)

end Blocks

/-! ### Rows of a text -/

variable {text : Text}

theorem rowOfLine?_ne_none_iff {line : Text} :
    rowOfLine? line ≠ none ↔ lineRow.occursIn line = true := by
  rw [rowOfLine?, Option.map_eq_none_iff.ne, Pattern.occursIn, Option.isSome_iff_ne_none]

theorem inlineRows_ne_nil_iff :
    inlineRows text ≠ [] ↔ (∃ line ∈ Text.lines text, rowOfLine? line ≠ none) ∨
      ∀ part : Part, ∃ line ∈ Text.lines text, part.pattern.occursIn line = true := by
  unfold inlineRows
  dsimp only
  by_cases hwhole : ∃ line ∈ Text.lines text, rowOfLine? line ≠ none
  · have hrows : (Text.lines text).filterMap rowOfLine? ≠ [] := by
      rw [Ne, List.filterMap_eq_nil_iff]
      simpa using hwhole
    rw [if_neg (by simpa using hrows)]
    exact iff_of_true hrows (.inl hwhole)
  · have hnone : (Text.lines text).filterMap rowOfLine? = [] := by
      rw [List.filterMap_eq_nil_iff]
      simpa using hwhole
    have hstart : isComplete [] = false := rfl
    rw [hnone, List.isEmpty_nil, if_pos rfl, blockRows_ne_nil_iff hstart, or_iff_right hwhole]
    simp [Has]

theorem hasInlineRow_iff :
    Facts.hasInlineRow text = true ↔ ∀ name ∈ Facts.rowLabels, StandsAlone name text := by
  rw [Facts.hasInlineRow, List.all_eq_true]
  exact forall₂_congr fun name hname => rowLabel_occursIn_iff hname

/-- The labels of rows that are put together over several lines stand alone. -/
theorem hasInlineRow_of_parts
    (h : ∀ part : Part, ∃ line ∈ Text.lines text, part.pattern.occursIn line = true) :
    Facts.hasInlineRow text = true := by
  rw [hasInlineRow_iff]
  intro name hname
  obtain ⟨part, rfl⟩ : ∃ part : Part, part.name = name := by
    simp only [Facts.rowLabels, List.mem_cons, List.not_mem_nil, or_false] at hname
    rcases hname with rfl | rfl | rfl
    · exact ⟨.username, rfl⟩
    · exact ⟨.password, rfl⟩
    · exact ⟨.expected, rfl⟩
  obtain ⟨line, hline, hpart⟩ := h part
  exact standsAlone_of_cutFrom hname (cutFrom_of_mem_lines hline)
    (part.standsAlone_of_occursIn hpart)

/-- A text with rows mentions their labels. -/
theorem mentions_of_inlineRows (h : inlineRows text ≠ []) :
    ∀ name ∈ Facts.rowLabels, Mentions name text := by
  intro name hname
  rcases inlineRows_ne_nil_iff.mp h with ⟨line, hline, hrow⟩ | hparts
  · obtain ⟨before, after, hcut, -⟩ := (cutFrom_of_mem_lines hline).parts
    rw [hcut]
    exact ((mentions_of_rowOfLine? hrow name hname).ahead after).behind before
  · exact (hasInlineRow_iff.mp (hasInlineRow_of_parts hparts) name hname).mentions

/-! ### Running the rows -/

theorem runsInline_of_rows (h : inlineRows text ≠ []) :
    Compiler.runsInline text = Facts.hasInlineRow text := by
  have hsome : (!(inlineRows text).isEmpty) = true := by simpa using h
  rw [Compiler.runsInline, hsome, Bool.and_true]

end Dataset

/-- A body whose rows are run compiles to their logins, whatever its steps and the files are. -/
theorem Compiler.compileBody_of_runsInline {body : Text} (h : runsInline body = true) (c : Compiler)
    (units : List StepUnit) : (c.compileBody body units).result =
      .ok ⟨Expansion.actionsOf c.config 1 (Expansion.logoutWords.occursIn body) 1
        (Dataset.inlineRows body)⟩ := by
  have hsome : (Dataset.inlineRows body).isEmpty = false := by
    obtain ⟨-, hrows⟩ := Bool.and_eq_true_iff.mp h
    simpa using hrows
  have hactions : (Expansion.expand c.config c.source body 1).value =
      Expansion.actionsOf c.config 1 (Expansion.logoutWords.occursIn body) 1
        (Dataset.inlineRows body) := by
    rw [Expansion.expand_value, Dataset.resolve_of_runsInline h]
    show Expansion.actionsOf _ _ _ _ (Expansion.usableRows _ ⟨.inline, Dataset.inlineRows body⟩) = _
    rw [Expansion.usableRows, hsome]
    rfl
  unfold compileBody
  rw [if_pos h]
  show Except.ok (Sequence.mk (Expansion.expand c.config c.source body 1).value) = _
  rw [hactions]

namespace Dataset

variable {text : Text}

/-- **Rows are run unless a label is buried.** The rows of a text are its dataset and what it
compiles to, just when each of their labels stands alone somewhere in the text. Where they are not
run, some line holds a whole row and no row can be put together over several lines; the text then
compiles step by step, and its dataset is that of a file or none. -/
theorem rows_run_unless_buried (h : inlineRows text ≠ []) :
    (Facts.hasInlineRow text = false ↔ ∃ name ∈ Facts.rowLabels, Buried name text) ∧
    (Facts.hasInlineRow text = false →
      (∃ line ∈ Text.lines text, rowOfLine? line ≠ none) ∧ blockRows [] (Text.lines text) = []) ∧
    ∀ (c : Compiler) (units : List StepUnit),
      (Facts.hasInlineRow text = true →
        (resolve c.source text).value = ⟨.inline, inlineRows text⟩ ∧
        (c.compileBody text units).result = .ok
          ⟨Expansion.actionsOf c.config 1 (Expansion.logoutWords.occursIn text) 1
            (inlineRows text)⟩) ∧
      (Facts.hasInlineRow text = false →
        c.compileBody text units = c.compileUnits units ∧
        ((resolve c.source text).value.rows = [] ∨ ∃ name, Facts.dataset? text = some name ∧
          (c.source.load name).value = some (resolve c.source text).value)) := by
  have hruns := runsInline_of_rows h
  refine ⟨?_, fun hgate => ?_, fun c units => ⟨fun hgate => ?_, fun hgate => ?_⟩⟩
  · rw [← Bool.not_eq_true, hasInlineRow_iff]
    push Not
    constructor
    · rintro ⟨name, hname, hnot⟩
      exact ⟨name, hname, mentions_of_inlineRows h name hname, hnot⟩
    · rintro ⟨name, hname, -, hnot⟩
      exact ⟨name, hname, hnot⟩
  · have hparts : ¬ ∀ part : Part, ∃ line ∈ Text.lines text, part.pattern.occursIn line = true := by
      intro hall
      rw [hasInlineRow_of_parts hall] at hgate
      cases hgate
    refine ⟨(inlineRows_ne_nil_iff.mp h).resolve_right hparts, ?_⟩
    -- a row over several lines has each of its labels in some line, and there it stands alone
    by_contra hblock
    have hstart : isComplete [] = false := rfl
    refine hparts fun part => ?_
    exact ((blockRows_ne_nil_iff hstart).mp hblock part).resolve_left List.not_mem_nil
  · rw [hgate] at hruns
    refine ⟨?_, Compiler.compileBody_of_runsInline hruns c units⟩
    rw [resolve_of_runsInline hruns]
    rfl
  · rw [hgate] at hruns
    exact ⟨if_neg (Bool.eq_false_iff.mp hruns), rows_of_not_runsInline hruns c.source⟩

/-- A record over three lines is run: its labels stand alone. -/
theorem rows_run_unless_buried_block :
    inlineRows "Username: Admin\nPassword: admin123\nExpected: Dashboard" =
        [Row.ofTriple "Admin" "admin123" "Dashboard"] ∧
      (resolve Compiler.bare.source
        "Username: Admin\nPassword: admin123\nExpected: Dashboard").value =
        ⟨.inline, [Row.ofTriple "Admin" "admin123" "Dashboard"]⟩ := by
  have hrows : inlineRows "Username: Admin\nPassword: admin123\nExpected: Dashboard" =
      [Row.ofTriple "Admin" "admin123" "Dashboard"] := by decide +kernel
  obtain ⟨-, -, hrun⟩ := rows_run_unless_buried (hrows ▸ List.cons_ne_nil _ _)
  obtain ⟨hdataset, -⟩ := (hrun Compiler.bare []).1 (by decide +kernel)
  exact ⟨hrows, hrows ▸ hdataset⟩

/-- A row on one line whose labels go on longer words is read, but its text is not known to have
rows. -/
theorem buried_row_not_run :
    inlineRows "db_username: Admin, db_password: admin123, db_expected: Dashboard visible" =
        [Row.ofTriple "Admin" "admin123" "Dashboard visible"] ∧
      Facts.hasInlineRow "db_username: Admin, db_password: admin123, db_expected: Dashboard visible"
        = false := by
  decide +kernel

end Dataset

end PlainSteps
