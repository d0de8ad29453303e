import PlainSteps.Proofs.Compilation.Lookups
import PlainSteps.Proofs.Dataset.UsableRecords
import PlainSteps.Proofs.Dataset.WrittenValues

/-! # Rows without a user name or password

The rows of a file are those of its usable records, which have a user name and a password that are
not blank. The rows of a text have what is written behind its labels, and that is cleaned of blanks
and quotes, but not asked whether anything is left. So such a row lacks its user name just when what
is written behind the label is hollow: quotes and blanks only. Cleaning takes off blanks, then
quotes, then blanks again, so that a value is hollow when it has at most one run of blanks between
its quotes.
-/

namespace PlainSteps.Dataset

/-! ### Hollow values -/

/-- The quotes around a value. -/
def isQuote (c : Char) : Bool := c == '"' || c == '\x27'

/-- Nothing but quotes at the ends, with blanks around and between them. -/
def Hollow (t : Text) : Prop :=
  ∃ before opening inside closing after, t = before ++ (opening ++ (inside ++ closing) ++ after) ∧
    (∀ c ∈ opening ++ closing, isQuote c = true) ∧ ∀ c ∈ before ++ inside ++ after,
      Text.isBlank c = true

theorem clean_eq (t : Text) : clean t = Text.trim (Text.trimOf isQuote (Text.trim t)) := rfl

theorem not_isBlank_of_isQuote {c : Char} (h : isQuote c = true) : Text.isBlank c = false := by
  simp only [isQuote, Bool.or_eq_true, beq_iff_eq] at h
  rcases h with rfl | rfl
  · decide
  · decide

theorem trim_quotes {t : Text} (h : ∀ c ∈ t, isQuote c = true) : Text.trim t = t :=
  Text.trimOf_eq_self_of_forall fun c hc => not_isBlank_of_isQuote (h c hc)

/-- Blanks between quotes are all that is left when the quotes are taken off. -/
theorem trimOf_trim_hollow {opening inside closing : Text}
    (hopening : ∀ c ∈ opening, isQuote c = true) (hinside : ∀ c ∈ inside, Text.isBlank c = true)
    (hclosing : ∀ c ∈ closing, isQuote c = true) :
    ∀ c ∈ Text.trimOf isQuote (Text.trim (opening ++ (inside ++ closing))),
      Text.isBlank c = true := by
  have hquotes : ∀ {t : Text}, (∀ c ∈ t, isQuote c = true) →
      Text.trimOf isQuote (Text.trim t) = [] := by
    intro t ht
    rw [trim_quotes ht]
    exact Text.trimOf_eq_nil_iff.mpr ht
  by_cases hopen : opening = []
  · subst hopen
    rw [List.nil_append, Text.trim, Text.trimOf_append_left hinside, ← Text.trim, hquotes hclosing]
    exact fun _ hc => absurd hc List.not_mem_nil
  by_cases hclose : closing = []
  · subst hclose
    rw [List.append_nil, Text.trim, Text.trimOf_append_right hinside, ← Text.trim, hquotes hopening]
    exact fun _ hc => absurd hc List.not_mem_nil
  -- between two quotes the blanks are not taken off with those around
  have htrim : Text.trim (opening ++ (inside ++ closing)) = opening ++ (inside ++ closing) := by
    apply Text.trimOf_eq_self
    · intro c hc
      rw [List.head?_append_of_ne_nil _ hopen] at hc
      exact not_isBlank_of_isQuote (hopening c (List.mem_of_mem_head? hc))
    · intro c hc
      rw [← List.append_assoc, List.getLast?_append_of_ne_nil _ hclose] at hc
      exact not_isBlank_of_isQuote (hclosing c (List.mem_of_mem_getLast? hc))
  rw [htrim, Text.trimOf_append_left hopening, Text.trimOf_append_right hclosing]
  have hkept : Text.trimOf isQuote inside = inside := by
    refine Text.trimOf_eq_self_of_forall fun c hc => ?_
    by_contra hquote
    have hblank := not_isBlank_of_isQuote (Bool.not_eq_false _ ▸ hquote)
    rw [hinside c hc] at hblank
    cases hblank
  rw [hkept]
  exact hinside

/-- **Cleaning leaves nothing just of a hollow value.** -/
theorem clean_eq_nil_iff {t : Text} : clean t = [] ↔ Hollow t := by
  rw [clean_eq, Text.trim, Text.trimOf_eq_nil_iff]
  constructor
  · intro hblank
    obtain ⟨before, after, ht, hbefore, hafter⟩ := Text.trimOf_parts Text.isBlank t
    obtain ⟨opening, closing, htrim, hopening, hclosing⟩ := Text.trimOf_parts isQuote (Text.trim t)
    refine ⟨before, opening, Text.trimOf isQuote (Text.trim t), closing, after, ?_, ?_, ?_⟩
    · rw [← htrim]
      exact ht
    · simp only [List.forall_mem_append]
      exact ⟨hopening, hclosing⟩
    · simp only [List.forall_mem_append]
      exact ⟨⟨hbefore, hblank⟩, hafter⟩
  · rintro ⟨before, opening, inside, closing, after, rfl, hquotes, hblank⟩
    simp only [List.forall_mem_append] at hblank hquotes
    obtain ⟨⟨hbefore, hinside⟩, hafter⟩ := hblank
    rw [Text.trim, Text.trimOf_append_left hbefore, Text.trimOf_append_right hafter]
    exact trimOf_trim_hollow hquotes.1 hinside hquotes.2

/-! ### Rows -/

variable {source : DataSource} {text : Text} {row : Row}

theorem named_of_external (horigin : (resolve source text).value.origin ≠ .inline)
    (hrow : row ∈ (resolve source text).value.rows) : row.username ≠ [] ∧ row.password ≠ [] := by
  cases hinline : Compiler.runsInline text with
  | true =>
    rw [resolve_of_runsInline hinline] at horigin
    exact absurd rfl horigin
  | false =>
    rcases rows_of_not_runsInline hinline source with hnone | ⟨name, -, hload⟩
    · rw [hnone] at hrow
      cases hrow
    · exact (DataSource.named_of_load hload).2 row hrow

theorem mem_inlineRows_of_inline (horigin : (resolve source text).value.origin = .inline)
    (hrow : row ∈ (resolve source text).value.rows) : row ∈ inlineRows text := by
  cases hinline : Compiler.runsInline text with
  | true =>
    rw [resolve_of_runsInline hinline] at hrow
    exact hrow
  | false =>
    rcases rows_of_not_runsInline hinline source with hnone | ⟨name, -, hload⟩
    · rw [hnone] at hrow
      cases hrow
    · rw [(DataSource.named_of_load hload).1] at horigin
      cases horigin

/-- **Rows lack a user name or a password only where the text has a hollow value for it.** The rows
of a file have both. In a row of the text each of them is what a line has behind the label, cleaned,
and it is empty just when that is hollow; so over a text without hollow values every row has
both. -/
theorem rows_named_unless_hollow (source : DataSource) (text : Text) :
    let dataset := (resolve source text).value
    (dataset.origin ≠ .inline → ∀ row ∈ dataset.rows, row.username ≠ [] ∧ row.password ≠ []) ∧
    (dataset.origin = .inline → ∀ row ∈ dataset.rows, ∀ column ∈ DataSource.requiredColumns,
      ∃ line ∈ Text.lines text, ∃ value, Written column value line ∧
      row.value column = clean value ∧
        (row.value column = [] ↔ Hollow value)) ∧
    ((∀ line ∈ Text.lines text, ∀ column ∈ DataSource.requiredColumns, ∀ value,
      Written column value line →
      ¬ Hollow value) → ∀ row ∈ dataset.rows, row.username ≠ [] ∧ row.password ≠ []) := by
  intro dataset
  have hwritten : dataset.origin = .inline → ∀ row ∈ dataset.rows,
      ∀ column ∈ DataSource.requiredColumns, ∃ line ∈ Text.lines text, ∃ value,
        Written column value line ∧ row.value column = clean value ∧
        (row.value column = [] ↔ Hollow value) := by
    intro horigin row hrow column hcolumn
    obtain ⟨line, hline, value, hvalue, hclean⟩ :=
      written_of_mem_inlineRows (mem_inlineRows_of_inline horigin hrow) hcolumn
    exact ⟨line, hline, value, hvalue, hclean, by rw [hclean, clean_eq_nil_iff]⟩
  refine ⟨fun horigin row hrow => named_of_external horigin hrow, hwritten,
    fun hfull row hrow => ?_⟩
  by_cases horigin : dataset.origin = .inline
  · have hnamed : ∀ column ∈ DataSource.requiredColumns, row.value column ≠ [] := by
      intro column hcolumn hempty
      obtain ⟨line, hline, value, hvalue, -, hhollow⟩ := hwritten horigin row hrow column hcolumn
      exact hfull line hline column hcolumn value hvalue (hhollow.mp hempty)
    exact ⟨hnamed "username" (by decide), hnamed "password" (by decide)⟩
  · exact named_of_external horigin hrow

/-- A row without a user name, written with nothing between the label and the comma. -/
theorem unnamed_row_inline :
    (resolve ⟨"test-data", fun _ => .missing,
      .own⟩ "Username: , Password: admin123, Expected: Invalid credentials").value =
      ⟨.inline, [Row.ofTriple [] "admin123" "Invalid credentials"]⟩ := by
  decide +kernel

end PlainSteps.Dataset
