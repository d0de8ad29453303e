import PlainSteps.Proofs.Compilation.Blocks
import PlainSteps.Proofs.Dataset.LineRecord

/-! # Prompts made of records

A prompt that is nothing but records on lines is compiled to their logins: it has no head, so that
all of it is its body; every record is a row of the body, and the rows are run as a whole, each
under its own number and with one pause before the next.
-/

namespace PlainSteps

open Trying Dataset

namespace Expansion

variable (config : Config) (number : Int) (logout : Bool)

/-- The pause behind a row. -/
def pause (position : Nat) : Action :=
  Action.wait rowWait (step (rowLabel number position) "Wait before next test case")

theorem actionsOf_cons_cons (position : Nat) (row next : Row) (rest : List Row) :
    actionsOf config number logout position (row :: next :: rest) =
      rowActions config row (rowLabel number position) logout ++
        pause number position :: actionsOf config number logout (position + 1) (next :: rest) := rfl

/-- The login of one of several rows, with the pause behind it unless it is the last. -/
def rowBlock (last : Nat) (row : Row × Nat) : List Action :=
  rowActions config row.1 (rowLabel number row.2) logout ++ if row.2 < last then
    [pause number row.2] else []

/-- The logins of rows are their blocks, one after the other. -/
theorem actionsOf_eq_flatMap (rows : List Row) (position : Nat) :
    actionsOf config number logout position rows =
      (rows.zipIdx position).flatMap
        (rowBlock config number logout (position + rows.length - 1)) := by
  induction rows generalizing position with
  | nil => rfl
  | cons row rest ih =>
    cases rest with
    | nil => simp [actionsOf, rowBlock]
    | cons next rest =>
      have hlast : position + (row :: next :: rest).length - 1 = position + 1 +
          (next :: rest).length - 1 := by
        simp only [List.length_cons]
        omega
      have hpause : position < position + 1 + (next :: rest).length - 1 := by
        simp only [List.length_cons]
        omega
      rw [actionsOf_cons_cons, ih, hlast]
      show _ = rowBlock config number logout _ (row, position) ++
        ((next :: rest).zipIdx (position + 1)).flatMap _
      rw [rowBlock, if_pos hpause, List.append_assoc, List.singleton_append]

end Expansion

namespace Dataset.LineRecord

variable (r : LineRecord)

/-! ### The body of records -/

theorem line_head : r.line.head? = some '-' := by
  rw [line_eq]
  rfl

theorem line_ends : ∀ c ∈ r.line.getLast?, Text.isBlank c = false := by
  have hsome : r.expected.getLast?.isSome := by simpa using r.expected_isValue.ne_nil
  intro c hc
  unfold line at hc
  rw [List.getLast?_append, Option.or_of_isSome hsome] at hc
  exact (r.expected_isValue.ends c hc).1

/-- A text that begins with a dash and does not end in white space has nothing to trim. -/
theorem trim_dash {t : Text} (hhead : t.head? = some '-')
    (hlast : ∀ c ∈ t.getLast?, Text.isBlank c = false) :
    Text.trim t = t := by
  refine Text.trimOf_eq_self (fun c hc => ?_) hlast
  obtain rfl : '-' = c := Option.some.inj (hhead.symm.trans hc)
  decide

/-- A line that begins with a dash begins the body of its prompt. -/
theorem readHead_dash {line : Text} (htrim : Text.trim line = line) (hdash : line.head? = some '-')
    (rest : List Text) :
    Prompt.readHead {} (line :: rest) = { body := line :: rest } := by
  obtain ⟨cs, rfl⟩ : ∃ cs, line = '-' :: cs := by
    cases line with
    | nil => cases hdash
    | cons c cs => exact ⟨cs, by rw [Option.some.inj hdash]⟩
  unfold Prompt.readHead
  rw [htrim]
  rfl

theorem line_trim : Text.trim r.line = r.line := trim_dash r.line_head r.line_ends

/-- All of a prompt of records is its body. -/
theorem parse_prompt (records : List LineRecord) :
    (Prompt.parse (prompt records) []).body = prompt records := by
  cases records with
  | nil => rfl
  | cons r rest =>
    have hne : ∀ l ∈ (r :: rest).map line, l ≠ [] := by
      intro l hl
      obtain ⟨r', -, rfl⟩ := List.mem_map.mp hl
      exact r'.line_ne_nil
    have htrim : Text.trim (prompt (r :: rest)) = prompt (r :: rest) := by
      refine trim_dash ?_ ?_
      · rw [prompt, Text.head?_joinWith hne]
        exact r.line_head
      · intro c hc
        rw [prompt, Text.getLast?_joinWith hne, List.getLast?_map] at hc
        obtain ⟨l, hl, hlast⟩ := Option.bind_eq_some_iff.mp hc
        obtain ⟨r', -, rfl⟩ := Option.map_eq_some_iff.mp hl
        exact r'.line_ends c hlast
    unfold Prompt.parse
    dsimp only
    -- the first line already is no part of a head
    rw [lines_prompt, List.map_cons, readHead_dash r.line_trim r.line_head]
    exact htrim

/-! ### Their compilation -/

theorem inlineRows_ne_nil {records : List LineRecord} (h : records ≠ []) :
    (inlineRows (prompt records)).isEmpty = false := by
  rw [inlineRows_prompt]
  simpa using h

theorem runsInline_prompt {records : List LineRecord} (h : records ≠ []) :
    Compiler.runsInline (prompt records) = true := by
  rw [Compiler.runsInline, hasInlineRow_prompt h, inlineRows_ne_nil h]
  rfl

/-- The rows that are run for a prompt of records are its records. -/
theorem usableRows_prompt (config : Config) (source : DataSource) {records : List LineRecord}
    (h : records ≠ []) :
    Expansion.usableRows config (resolve source (prompt records)).value = records.map row := by
  have hrows : (inlineRows (prompt records)).isEmpty = false := inlineRows_ne_nil h
  unfold resolve
  rw [if_pos (hasInlineRow_prompt h)]
  dsimp only
  rw [hrows]
  show Expansion.usableRows config ⟨.inline, inlineRows (prompt records)⟩ = _
  rw [Expansion.usableRows, hrows, inlineRows_prompt]
  rfl

/-- **Records on lines compile to their logins, in order.** Every record is a row, and each row is
one login under its own number; one pause stands between two rows and none behind the last. -/
theorem compile_records (c : Compiler) (records : List LineRecord) (h : records ≠ []) :
    inlineRows (prompt records) = records.map row ∧
    (c.compile (prompt records)).result = .ok ⟨(records.zipIdx 1).flatMap fun (r, i) =>
      Expansion.rowActions c.config r.row ("1.".toList ++ Text.ofNat i)
          (Expansion.logoutWords.occursIn (prompt records)) ++
        if i < records.length then
          [Action.wait 1000
            (Expansion.step ("1.".toList ++ Text.ofNat i) "Wait before next test case")]
        else []⟩ := by
  refine ⟨inlineRows_prompt records, ?_⟩
  have hblocks : (Expansion.expand c.config c.source (prompt records) 1).value =
      ((records.map row).zipIdx 1).flatMap (Expansion.rowBlock c.config 1
        (Expansion.logoutWords.occursIn (prompt records)) records.length) := by
    rw [Expansion.expand_value, usableRows_prompt c.config c.source h,
      Expansion.actionsOf_eq_flatMap, List.length_map, Nat.add_sub_cancel_left]
  rw [Compiler.compile_result, parse_prompt]
  unfold Compiler.compileBody
  rw [if_pos (runsInline_prompt h)]
  show Except.ok (Sequence.mk (Expansion.expand c.config c.source (prompt records) 1).value) = _
  rw [hblocks, List.zipIdx_map, List.flatMap_map]
  rfl

/-- Two records; the values of the first hold labels themselves. -/
def twoRecords : List LineRecord :=
  [⟨"Admin", "password: x", "Dashboard, expected: yes", .of_isValue rfl,
      .of_isValue rfl, .of_isValue rfl, by decide, by decide⟩,
    ⟨"guest", "guest", "Invalid credentials", .of_isValue rfl, .of_isValue rfl, .of_isValue rfl,
      by decide, by decide⟩]

/-- Two records give two logins with a check each, and one pause. -/
theorem compile_records_two :
    inlineRows (prompt twoRecords) = [Row.ofTriple "Admin" "password: x" "Dashboard, expected: yes",
      Row.ofTriple "guest" "guest" "Invalid credentials"] ∧
    ∃ s, (Compiler.bare.compile (prompt twoRecords)).result = .ok s ∧ s.actions.length = 13 := by
  obtain ⟨hrows, hcompile⟩ := compile_records Compiler.bare twoRecords (List.cons_ne_nil _ _)
  exact ⟨hrows, _, hcompile, by decide +kernel⟩

end Dataset.LineRecord

end PlainSteps
