import PlainSteps.Dataset.Source
import PlainSteps.Proofs.Dataset.AnyOrder
import PlainSteps.Proofs.Json.Members
import PlainSteps.Proofs.Text.Trimming

/-! # What is written behind a label

Whichever way the rows of a text are read, a user name or password in them is the cleaned form of
something that a line has behind the label. On a line with a whole row that is all up to the next
comma; in a block it is one token, which may stand between double quotes. A row of a block is put
together over several lines, so that each of its fields has a line of its own behind it: that holds
of what is collected at every line, and so of every row that is taken.
-/

namespace PlainSteps.Dataset

open Pattern

/-- A line has a value behind a label: all up to the next comma, or one token, perhaps between
double quotes. -/
inductive Written (name value : Text) : Text → Prop
  | upToComma {before word blanks after : Text} (named : word.map Text.fold = name.map Text.fold)
      (apart : ∀ c ∈ blanks, Text.isBlank c = true) (plain : ',' ∉ value) :
      Written name value (before ++ (word ++ (blanks ++ ':' :: (value ++ ',' :: after))))
  | token {before word blanks gap quote after : Text}
      (named : word.map Text.fold = name.map Text.fold)
      (apart : ∀ c ∈ blanks ++ gap, Text.isBlank c = true) (quoted : quote = [] ∨ quote = ['"'])
      (some : value ≠ [])
      (plain : ∀ c ∈ value, isToken c = true) (ends : ∀ c ∈ after.head?, isToken c = false) :
      Written name value
        (before ++ (word ++ (blanks ++ ':' :: (gap ++ (quote ++ (value ++ after))))))

theorem Written.behind {name value line : Text} (h : Written name value line) (piece : Text) :
    Written name value (piece ++ line) := by
  cases h with
  | upToComma named apart plain =>
    rw [← List.append_assoc]
    exact .upToComma named apart plain
  | token named apart quoted some plain ends =>
    rw [← List.append_assoc]
    exact .token named apart quoted some plain ends

/-! ### Whole rows on a line -/

section Lines

variable {α : Type} {name : Text} {s : Spot} {g : Captures} {k : Spot → Captures → Option α} {r : α}

/-- A value is cleaned of the blanks around it. -/
theorem clean_append {front back : Text} (hfront : ∀ c ∈ front, Text.isBlank c = true)
    (hback : ∀ c ∈ back, Text.isBlank c = true) (value : Text) :
    clean (front ++ (value ++ back)) = clean value := by
  unfold clean Text.trim
  rw [Text.trimOf_append_left hfront, Text.trimOf_append_right hback]

/-- Up to a comma a value is kept without the blanks behind it. -/
theorem run_valueUpToComma_taken {n : Nat} (h : run (valueUpToComma n) s g k = some r) :
    ∃ kept blanks rest, s.rest = kept ++ (blanks ++ ',' :: rest) ∧ ',' ∉ kept ∧
      (∀ c ∈ blanks, Text.isBlank c = true) ∧ k ⟨some ',', rest⟩ ((n, kept) :: g) = some r := by
  unfold valueUpToComma at h
  rw [run_seq_cons, run_group, run_seq_cons] at h
  obtain ⟨c, cs, hrest, hc, h⟩ := run_one_taken h
  obtain ⟨piece, rest, rfl, hpiece, h⟩ := runFew_taken h
  dsimp only at h
  have hkept : s.rest.take (s.rest.length - rest.length) = c :: piece := by
    rw [hrest]
    exact take_piece (c :: piece) rest
  rw [hkept, run_seq_cons] at h
  obtain ⟨blanks, rest, rfl, hblanks, h⟩ := runMany_taken h
  have hcomma : Text.IsMark ',' := by decide
  obtain ⟨after, hafter, h⟩ := run_mark_taken hcomma h
  obtain rfl : rest = ',' :: after := hafter
  refine ⟨c :: piece, blanks, after, hrest, ?_, hblanks, h⟩
  intro hmem
  -- neither the first character nor those behind it may be a comma
  have hplain : ∀ d ∈ c :: piece, noComma d = true := List.forall_mem_cons.mpr ⟨hc, hpiece⟩
  exact absurd (hplain ',' hmem) (by decide)

/-- A label and a value up to a comma: what is kept is what is written, but for the blanks around
it. -/
theorem run_labelledValue_taken {n : Nat}
    (h : run (label name) s g (fun s' g' => run (valueUpToComma n) s' g' k) = some r) :
    ∃ value kept front rest, Written name value s.rest ∧ clean kept = clean value ∧
      s.rest = front ++ rest ∧
      k ⟨some ',', rest⟩ ((n, kept) :: g) = some r := by
  obtain ⟨word, blanks, gap, rest, hrest, hword, hblanks, hgap, hvalue⟩ := run_label_parts h
  obtain ⟨kept, back, after, hafter, hkept, hback, hk⟩ := run_valueUpToComma_taken hvalue
  obtain rfl : rest = kept ++ (back ++ ',' :: after) := hafter
  have hplain : ',' ∉ gap ++ (kept ++ back) := by
    have hcomma : ∀ {t : Text}, (∀ c ∈ t, Text.isBlank c = true) → ',' ∉ t := by
      intro t ht hmem
      exact absurd (ht ',' hmem) (by decide)
    simp only [List.mem_append, not_or]
    exact ⟨hcomma hgap, hkept, hcomma hback⟩
  have hparts :
      s.rest = [] ++ (word ++ (blanks ++ ':' :: ((gap ++ (kept ++ back)) ++ ',' :: after))) := by
    rw [hrest]
    simp only [List.append_assoc, List.nil_append]
  refine ⟨gap ++ (kept ++ back), kept, word ++
    (blanks ++ ':' :: ((gap ++ (kept ++ back)) ++ [','])), after, ?_,
      (clean_append hgap hback kept).symm, ?_, hk⟩
  · rw [hparts]
    exact .upToComma hword hblanks hplain
  · rw [hrest]
    simp only [List.append_assoc, List.cons_append, List.nil_append]

/-- A whole row keeps what is written behind its first two labels. -/
theorem lineRow_matchAt_taken {rest : Text} (h : lineRow.matchAt s = some (g, rest)) :
    ∃ u p user pass expected, Written "username" u s.rest ∧ Written "password" p s.rest ∧
      clean user = clean u ∧ clean pass = clean p ∧ g = [(3, expected), (2, pass), (1, user)] := by
  unfold matchAt lineRow at h
  rw [run_seq_cons] at h
  simp only [run_seq_cons] at h
  obtain ⟨u, user, front₁, rest₁, hu, huser, hrest₁, h₁⟩ := run_labelledValue_taken h
  obtain ⟨gap, rest₂, hrest₂, -, h₂⟩ := runFew_taken h₁
  obtain ⟨p, pass, front₃, rest₃, hp, hpass, hrest₃, h₃⟩ := run_labelledValue_taken h₂
  obtain ⟨gap', rest₄, hrest₄, -, h₄⟩ := runFew_taken h₃
  obtain ⟨_, _, _, _, -, -, -, -, h₅⟩ := run_label_parts h₄
  obtain ⟨_, _, _, -, -, hkept⟩ := run_oneOrMore_taken h₅
  have hp' : Written "password" p s.rest := by
    dsimp only at hrest₂ hrest₁ hp
    rw [hrest₁, hrest₂]
    exact (hp.behind gap).behind front₁
  exact ⟨u, p, user, pass, _, hu, hp', huser, hpass,
    (congrArg Prod.fst (Option.some.inj hkept)).symm⟩

/-- **A whole row on a line has what is written behind its labels**, cleaned. -/
theorem written_of_rowOfLine? {line : Text} {row : Row} (h : rowOfLine? line = some row) :
    ∃ u p, Written "username" u line ∧ Written "password" p line ∧ row.username = clean u ∧
    row.password = clean p := by
  obtain ⟨f, hfind, rfl⟩ := Option.map_eq_some_iff.mp h
  obtain ⟨hparts, hmatch⟩ := findFrom_parts hfind
  obtain ⟨u, p, user, pass, expected, hu, hp, huser, hpass, hkept⟩ := lineRow_matchAt_taken hmatch
  have hfirst : f.group 1 = user := by simp [Found.group, Found.group?, hkept]
  have hsecond : f.group 2 = pass := by simp [Found.group, Found.group?, hkept]
  rw [hparts]
  refine ⟨u, p, hu.behind f.before, hp.behind f.before, ?_, ?_⟩
  · rw [Row.username_ofTriple, hfirst, huser]
  · rw [Row.password_ofTriple, hsecond, hpass]

end Lines

/-! ### Lines of a block -/

section Blocks

variable {name line : Text} {s : Spot} {g : Captures}

/-- What may follow can always be passed over. -/
theorem isSome_run_maybe {α : Type} {a : Pattern} {k : Spot → Captures → Option α}
    (h : (k s g).isSome) :
    (run (maybe a) s g k).isSome := by
  rw [maybe, run, Option.orElse_eq_or, Option.isSome_or, Bool.or_eq_true]
  exact .inr h

/-- In a block the whole token behind a label is kept. -/
theorem tokenLabel_matchAt_taken {rest : Text} (h : (tokenLabel name).matchAt s = some (g, rest)) :
    ∃ value, Written name value s.rest ∧ g = [(1, value)] := by
  unfold matchAt tokenLabel at h
  rw [run_seq_cons] at h
  have hlabel := run_edge_taken h
  rw [run_seq_cons] at hlabel
  obtain ⟨word, blanks, gap, ahead, hrest, hword, hblanks, hgap, hvalue⟩ := run_label_parts hlabel
  -- a quote in front of the token is skipped, if there is one
  obtain ⟨quote, s', hquote, hahead, htoken⟩ : ∃ quote s', (quote = [] ∨ quote = ['"']) ∧
    ahead = quote ++ s'.rest ∧
      run (seq [group 1 (oneOrMore isToken), maybe (letter '"')]) s' []
        (fun s' g => some (g, s'.rest)) =
        some (g, rest) := by
    rcases run_alt_taken hvalue with hmark | hempty
    · have hmarked : Text.IsMark '"' := by decide
      obtain ⟨after, hafter, hk⟩ := run_mark_taken hmarked hmark
      exact ⟨['"'], ⟨some '"', after⟩, .inr rfl, hafter, hk⟩
    · exact ⟨[], _, .inl rfl, rfl, hempty⟩
  rw [run_seq_cons, run_group] at htoken
  obtain ⟨c, cs, after, hcs, hplain, hends, hk⟩ :=
    run_oneOrMore_longest (fun _ => isSome_run_maybe rfl) htoken
  have hkept : s'.rest.take (s'.rest.length - after.length) = c :: cs := by
    rw [hcs]
    exact take_piece (c :: cs) after
  dsimp only at hk
  rw [hkept] at hk
  refine ⟨c :: cs, ?_, ?_⟩
  · have hparts :
        s.rest = [] ++ (word ++ (blanks ++ ':' :: (gap ++ (quote ++ (c :: cs ++ after))))) := by
      rw [hrest, hahead, hcs]
      rfl
    rw [hparts]
    refine .token hword ?_ hquote (List.cons_ne_nil c cs) hplain hends
    intro d hd
    exact (List.mem_append.mp hd).elim (hblanks d) (hgap d)
  · rcases run_alt_taken hk with hmark | hempty
    · obtain ⟨_, -, hend⟩ := run_mark_taken (by decide) hmark
      exact (congrArg Prod.fst (Option.some.inj hend)).symm
    · exact (congrArg Prod.fst (Option.some.inj hempty)).symm

theorem written_of_tokenLabel {f : Found} (h : (tokenLabel name).find? line = some f) :
    Written name (f.group 1) line := by
  obtain ⟨hparts, hmatch⟩ := findFrom_parts h
  obtain ⟨value, hvalue, hkept⟩ := tokenLabel_matchAt_taken hmatch
  have hgroup : f.group 1 = value := by simp [Found.group, Found.group?, hkept]
  rw [hparts, hgroup]
  exact hvalue.behind f.before

/-- The user names and passwords among some fields are written on some lines. -/
def Collected (lines : List Text) (fields : List (Text × Text)) : Prop :=
  ∀ column ∈ DataSource.requiredColumns, ∀ v, (column, v) ∈ fields →
    ∃ line ∈ lines, ∃ value, Written column value line ∧ v = clean value

variable {lines : List Text} {current : List (Text × Text)}

theorem Collected.nil : Collected lines [] := by
  intro _ _ _ hv
  cases hv

theorem Collected.addPart (h : Collected lines current) (hline : line ∈ lines) (part : Part) :
    Collected lines (addPart line current part) := by
  unfold Dataset.addPart
  cases hfind : part.pattern.find? line with
  | none => exact h
  | some f =>
    intro column hcolumn v hv
    rcases Json.mem_of_mem_put hv with ⟨rfl, rfl⟩ | hold
    · cases part with
      | username => exact ⟨line, hline, _, written_of_tokenLabel hfind, rfl⟩
      | password => exact ⟨line, hline, _, written_of_tokenLabel hfind, rfl⟩
      | expected => exact absurd hcolumn (by decide)
    · exact h column hcolumn v hold

/-- A line adds only what is written on it. -/
theorem Collected.addLine (h : Collected lines current) (hline : line ∈ lines) :
    Collected lines (addLine current line) := by
  rw [addLine_eq]
  exact ((h.addPart hline .username).addPart hline .password).addPart hline .expected

/-- The fields of a row are collected from its lines, and all of them are there. -/
theorem collected_of_mem_blockRows {row : Row} {ahead : List Text}
    (hahead : ∀ line ∈ ahead, line ∈ lines) :
    ∀ {current : List (Text × Text)}, Collected lines current → row ∈ blockRows current ahead →
      Collected lines row.fields ∧ isComplete row.fields = true := by
  induction ahead with
  | nil =>
    intro _ _ hrow
    cases hrow
  | cons line rest ih =>
    intro current hcurrent hrow
    obtain ⟨hline, hrest⟩ := List.forall_mem_cons.mp hahead
    have hadded := hcurrent.addLine hline
    unfold blockRows at hrow
    dsimp only at hrow
    split at hrow
    · rename_i hcomplete
      rcases List.mem_cons.mp hrow with rfl | hrow
      · exact ⟨hadded, hcomplete⟩
      · exact ih hrest .nil hrow
    · exact ih hrest hadded hrow

end Blocks

/-! ### Rows of a text -/

/-- The value of a column that a row has stands among its fields. -/
theorem mem_fields_value {row : Row} {column : Text} (h : column ∈ row.fields.map Prod.fst) :
    (column, row.value column) ∈ row.fields := by
  obtain ⟨v, hv⟩ := Json.exists_lookup? h
  rw [Row.value, hv]
  exact Json.mem_of_lookup? hv

/-- **The user name and the password of a row are written on the lines of its text.** -/
theorem written_of_mem_inlineRows {text : Text} {row : Row} (h : row ∈ inlineRows text)
    {column : Text} (hcolumn : column ∈ DataSource.requiredColumns) :
    ∃ line ∈ Text.lines text, ∃ value, Written column value line ∧
      row.value column = clean value := by
  unfold inlineRows at h
  dsimp only at h
  split at h
  · obtain ⟨hcollected, hcomplete⟩ := collected_of_mem_blockRows (fun _ hline => hline) .nil h
    refine hcollected column hcolumn _ (mem_fields_value ?_)
    have hlabel : ∃ label ∈ blockLabels, label.1 = column := by
      revert column
      simp [DataSource.requiredColumns, blockLabels]
    obtain ⟨label, hlabel, rfl⟩ := hlabel
    -- a row over several lines is complete, so the field is there
    obtain ⟨field, hfield, hname⟩ :=
      List.any_eq_true.mp (List.all_eq_true.mp hcomplete label hlabel)
    exact List.mem_map.mpr ⟨field, hfield, eq_of_beq hname⟩
  · obtain ⟨line, hline, hrow⟩ := List.mem_filterMap.mp h
    obtain ⟨u, p, hu, hp, husername, hpassword⟩ := written_of_rowOfLine? hrow
    simp only [DataSource.requiredColumns, List.mem_cons, List.not_mem_nil, or_false] at hcolumn
    rcases hcolumn with rfl | rfl
    · exact ⟨line, hline, u, hu, husername⟩
    · exact ⟨line, hline, p, hp, hpassword⟩

end PlainSteps.Dataset
