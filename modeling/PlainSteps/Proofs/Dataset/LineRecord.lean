import PlainSteps.Dataset.Inline
import PlainSteps.Proofs.Pattern.Run
import PlainSteps.Proofs.Text.Cutting

/-! # Records on lines of their own

A record written on one line, its three values behind their labels and joined by commas, is read
back as it is, whatever its values hold: the user name ends at the first comma and the password at
the next, since neither holds one, and the labels are looked for no earlier than behind those
commas. A label that a value itself holds is therefore never taken for one.
-/

namespace PlainSteps

namespace Dataset

open Pattern

/-- A value that can be told from what stands around it on a line. -/
structure IsValue (t : Text) : Prop where
  ne_nil : t ≠ []
  oneLine : Text.IsOneLine t
  starts : ∀ c ∈ t.head?, Text.isBlank c = false ∧ c ≠ '"' ∧ c ≠ '\x27'
  ends : ∀ c ∈ t.getLast?, Text.isBlank c = false ∧ c ≠ '"' ∧ c ≠ '\x27'

/-- What may stand at the ends of a value. -/
def isEnd (c : Char) : Bool := !Text.isBlank c && c != '"' && c != '\x27'

/-- The test for a value. -/
def isValue (t : Text) : Bool :=
  !t.isEmpty && t.all (fun c => !Text.isLineBreak c) && t.head?.all isEnd && t.getLast?.all isEnd

theorem IsValue.of_isValue {t : Text} (h : isValue t = true) : IsValue t := by
  simp only [isValue, Bool.and_eq_true] at h
  obtain ⟨⟨⟨hne, hline⟩, hstart⟩, hend⟩ := h
  have hends : ∀ {o : Option Char}, o.all isEnd = true → ∀ c ∈ o, Text.isBlank c = false ∧
      c ≠ '"' ∧ c ≠ '\x27' := by
    rintro o ho c rfl
    simpa [isEnd, and_assoc] using ho
  exact ⟨by simpa using hne, Text.isOneLine_of_all hline, hends hstart, hends hend⟩

theorem IsValue.clean_eq {t : Text} (h : IsValue t) : clean t = t := by
  have htrim : Text.trim t = t :=
    Text.trimOf_eq_self (fun c hc => (h.starts c hc).1) fun c hc => (h.ends c hc).1
  have hquotes : Text.trimOf (fun c => c == '"' || c == '\x27') t = t := by
    refine Text.trimOf_eq_self (fun c hc => ?_) fun c hc => ?_
    · simpa using (h.starts c hc).2
    · simpa using (h.ends c hc).2
  rw [clean, htrim, hquotes, htrim]

/-- A record that can be written on one line. -/
structure LineRecord where
  username : Text
  password : Text
  expected : Text
  username_isValue : IsValue username
  password_isValue : IsValue password
  expected_isValue : IsValue expected
  username_noComma : ',' ∉ username
  password_noComma : ',' ∉ password

/-! ### The parts of a line -/

section Parts

variable {α : Type} {previous : Option Char} {g : Captures} {k : Spot → Captures → Option α} {r : α}

/-- A label ends before the value behind it. -/
theorem run_label_eq_some {name written value : Text}
    (hname : written.map Text.fold = name.map Text.fold)
    (hvalue : ∀ c ∈ value.head?, Text.isBlank c = false) (h : k ⟨some ' ', value⟩ g = some r) :
    run (label name) ⟨previous, written ++ ':' :: ' ' :: value⟩ g k = some r := by
  unfold label
  rw [run_seq_cons, run_letters hname, run_seq_cons, run_many_cons (by decide),
    run_seq_cons, run_letter_self]
  exact run_many_append [' '] (List.forall_mem_singleton.mpr rfl) hvalue h

/-- What cannot begin with the blank behind a comma is looked for behind that. -/
theorem run_gap_eq_some {rest : Text} (hfail : k ⟨previous, ' ' :: rest⟩ g = none)
    (h : k ⟨some ' ', rest⟩ g = some r) :
    run (few inLine) ⟨previous, ' ' :: rest⟩ g k = some r := by
  refine run_few_append [' '] (List.forall_mem_singleton.mpr rfl) (fun a b hab hb => ?_) h
  obtain ⟨rfl, rfl⟩ : a = [] ∧ b = [' '] := by
    cases a with
    | nil => exact ⟨rfl, hab.symm⟩
    | cons c cs =>
      have hnil : cs ++ b = [] := (List.cons.inj hab).2.symm
      exact absurd (List.append_eq_nil_iff.mp hnil).2 hb
  exact hfail

/-- A value without a comma goes up to the comma behind it. -/
theorem run_valueUpToComma_eq_some {n : Nat} {value rest : Text} (hvalue : IsValue value)
    (hcomma : ',' ∉ value) (h : k ⟨some ',', rest⟩ ((n, value) :: g) = some r) :
    run (valueUpToComma n) ⟨previous, value ++ ',' :: rest⟩ g k = some r := by
  obtain ⟨v, vs, rfl⟩ := List.exists_cons_of_ne_nil hvalue.ne_nil
  have hplain : ∀ c ∈ v :: vs, noComma c = true := fun c hc => by
    rw [noComma, bne_iff_ne]
    rintro rfl
    exact hcomma hc
  unfold valueUpToComma
  rw [run_seq_cons, run_group, run_seq_cons, List.cons_append, run_one_cons (hplain v (.head _))]
  refine run_few_append _ (fun c hc => hplain c (.tail _ hc)) ?_ ?_
  · -- inside the value there is no comma behind blanks
    intro a b hab hb
    have hmem : ∀ c ∈ b, c ∈ v :: vs := fun c hc => .tail _ (hab ▸ List.mem_append_right a hc)
    have hlast : (v :: vs).getLast? = b.getLast? := by
      rw [hab, ← List.cons_append, List.getLast?_append, Option.or_of_isSome (by simpa using hb)]
    refine runMany_one_eq_none hb (fun c hc => ?_) (fun c hc => (hvalue.ends c (hlast ▸ hc)).1) _
    have hmark : Text.IsMark ',' := by decide
    exact beq_eq_false_iff_ne.mpr (mt hmark.fold_eq_iff.mp fun hc' => hcomma (hc' ▸ hmem c hc))
  · rw [run_seq_cons, run_many_cons (by decide)]
    show run (letter ',') _ _ _ = _
    have hkept := take_piece (v :: vs) (',' :: rest)
    rw [List.cons_append] at hkept
    rw [run_letter_self, hkept]
    exact h

/-- A value at the end of a line goes up to that. -/
theorem run_restOfLine_eq_some {n : Nat} {value : Text} (hvalue : IsValue value)
    (h : k ⟨lastOf previous value, []⟩ ((n, value) :: g) = some r) :
    run (group n (oneOrMore inLine)) ⟨previous, value⟩ g k = some r := by
  refine run_group_oneOrMore hvalue.ne_nil (fun c hc => ?_) h
  have hbreak := hvalue.oneLine c hc
  unfold inLine
  rw [bne_iff_ne]
  rintro rfl
  exact absurd hbreak (by decide)

end Parts

/-! ### Lines -/

namespace LineRecord

variable (r : LineRecord)

/-- The record as a row. -/
def row : Row := Row.ofTriple r.username r.password r.expected

/-- The line behind its dash. -/
def labels : Text :=
  "Username".toList ++ ':' :: ' ' :: (r.username ++ ',' :: ' ' ::
    ("Password".toList ++ ':' :: ' ' :: (r.password ++ ',' :: ' ' ::
      ("Expected".toList ++ ':' :: ' ' :: r.expected))))

/-- The line of a record. -/
def line : Text :=
  "- Username: ".toList ++ r.username ++ ", Password: " ++ r.password ++
    ", Expected: " ++ r.expected

theorem line_eq : r.line = '-' :: ' ' :: r.labels := by
  have huser : "- Username: ".toList = '-' :: ' ' :: ("Username".toList ++ [':', ' ']) := rfl
  have hpass : ", Password: ".toList = ',' :: ' ' :: ("Password".toList ++ [':', ' ']) := rfl
  have hexp : ", Expected: ".toList = ',' :: ' ' :: ("Expected".toList ++ [':', ' ']) := rfl
  unfold line labels
  rw [huser, hpass, hexp]
  simp only [List.append_assoc, List.cons_append, List.nil_append]

/-- Behind the dash a whole row matches, and keeps the three values. -/
theorem labels_matchAt (previous : Option Char) :
    lineRow.matchAt ⟨previous, r.labels⟩ = some
      ([(3, r.expected), (2, r.password), (1, r.username)], []) := by
  have hblank : ∀ {t : Text}, IsValue t → ∀ rest : Text, ∀ c ∈ (t ++ rest).head?,
      Text.isBlank c = false := by
    intro t ht rest c hc
    obtain ⟨d, ds, rfl⟩ := List.exists_cons_of_ne_nil ht.ne_nil
    exact (ht.starts c hc).1
  unfold matchAt lineRow labels
  rw [run_seq_cons]
  refine run_label_eq_some (by decide) (hblank r.username_isValue _) ?_
  rw [run_seq_cons]
  refine run_valueUpToComma_eq_some r.username_isValue r.username_noComma ?_
  rw [run_seq_cons]
  -- a label does not begin with the blank before it
  refine run_gap_eq_some rfl ?_
  rw [run_seq_cons]
  refine run_label_eq_some (by decide) (hblank r.password_isValue _) ?_
  rw [run_seq_cons]
  refine run_valueUpToComma_eq_some r.password_isValue r.password_noComma ?_
  rw [run_seq_cons]
  refine run_gap_eq_some rfl ?_
  rw [run_seq_cons]
  refine run_label_eq_some (by decide) (by simpa using hblank r.expected_isValue []) ?_
  exact run_restOfLine_eq_some r.expected_isValue rfl

/-- What a match on a line has kept is the record. -/
theorem rowOfLine?_of_captures {line : Text} {f : Found} (hf : lineRow.find? line = some f)
    (hcaptures : f.captures = [(3, r.expected), (2, r.password), (1, r.username)]) :
    rowOfLine? line = some r.row := by
  have huser : f.group 1 = r.username := by simp [Found.group, Found.group?, hcaptures]
  have hpass : f.group 2 = r.password := by simp [Found.group, Found.group?, hcaptures]
  have hexp : f.group 3 = r.expected := by simp [Found.group, Found.group?, hcaptures]
  rw [rowOfLine?, hf, Option.map_some, huser, hpass, hexp, r.username_isValue.clean_eq,
    r.password_isValue.clean_eq, r.expected_isValue.clean_eq]
  rfl

/-- Also without a dash a record on a line is read back. -/
theorem rowOfLine?_labels : rowOfLine? r.labels = some r.row := by
  obtain ⟨f, hf, hcaptures⟩ := findFrom_eq_some (r.labels_matchAt none)
  exact r.rowOfLine?_of_captures hf hcaptures

/-- **A record on a line is read back.** -/
theorem rowOfLine?_line : rowOfLine? r.line = some r.row := by
  -- no row begins at the dash, nor at the blank behind it
  have hdash : lineRow.matchAt ⟨none, '-' :: ' ' :: r.labels⟩ = none := rfl
  have hgap : lineRow.matchAt ⟨some '-', ' ' :: r.labels⟩ = none := rfl
  obtain ⟨f, hf, hcaptures⟩ := findFrom_eq_some (r.labels_matchAt (some ' '))
  have hfind : lineRow.find? r.line = some { f with before := '-' :: ' ' :: f.before } := by
    rw [line_eq, find?, findFrom, hdash]
    dsimp only
    rw [findFrom, hgap]
    dsimp only
    rw [hf]
    rfl
  exact r.rowOfLine?_of_captures hfind hcaptures

theorem line_isOneLine : Text.IsOneLine r.line := by
  have huser : Text.IsOneLine "- Username: ".toList := Text.isOneLine_of_all (by decide)
  have hpass : Text.IsOneLine ", Password: ".toList := Text.isOneLine_of_all (by decide)
  have hexp : Text.IsOneLine ", Expected: ".toList := Text.isOneLine_of_all (by decide)
  intro c hc
  unfold line at hc
  simp only [List.mem_append] at hc
  rcases hc with ((((hc | hc) | hc) | hc) | hc) | hc
  · exact huser c hc
  · exact r.username_isValue.oneLine c hc
  · exact hpass c hc
  · exact r.password_isValue.oneLine c hc
  · exact hexp c hc
  · exact r.expected_isValue.oneLine c hc

theorem line_ne_nil : r.line ≠ [] := by
  rw [line_eq]
  exact List.cons_ne_nil _ _

/-! ### Prompts -/

/-- The text of records, one on each line. -/
def prompt (records : List LineRecord) : Text := Text.joinWith ['\n'] (records.map line)

theorem lines_prompt (records : List LineRecord) :
    Text.lines (prompt records) = records.map line := by
  refine Text.lines_joinWith fun l hl => ?_
  obtain ⟨r, -, rfl⟩ := List.mem_map.mp hl
  exact ⟨r.line_isOneLine, r.line_ne_nil⟩

/-- The rows of records on lines are the records, in order. -/
theorem inlineRows_prompt (records : List LineRecord) :
    inlineRows (prompt records) = records.map row := by
  have hrows : (records.map line).filterMap rowOfLine? = records.map row := by
    have hrow : rowOfLine? ∘ line = some ∘ row := funext fun r => r.rowOfLine?_line
    rw [List.filterMap_map, hrow, List.filterMap_eq_map]
  unfold inlineRows
  rw [lines_prompt]
  dsimp only
  rw [hrows]
  split
  · rename_i hnone
    obtain rfl : records = [] := by simpa using hnone
    rfl
  · rfl

theorem prompt_cons (r : LineRecord) (rest : List LineRecord) :
    ∃ after, prompt (r :: rest) = r.line ++ after := by
  cases rest with
  | nil => exact ⟨[], by simp [prompt, Text.joinWith]⟩
  | cons next rest => exact ⟨'\n' :: prompt (next :: rest), by simp [prompt, Text.joinWith]⟩

/-- A label that stands behind a blank is found. -/
theorem rowLabel_occursIn {name written : Text} (hname : written.map Text.fold = name.map Text.fold)
    (hword : written.head?.any Text.isWord = true) (before rest : Text) :
    (Facts.rowLabel name).occursIn (before ++ ' ' :: (written ++ ':' :: rest)) = true := by
  have hplace : before ++ ' ' :: (written ++ ':' :: rest) = (before ++ [' ']) ++
    (written ++ ':' :: rest) := by simp
  have hprevious : lastOf none (before ++ [' ']) = some ' ' := lastOf_append none before [' ']
  have hhead : (written ++ ':' :: rest).head? = written.head? := by
    cases written with
    | nil => simp at hword
    | cons c cs => rfl
  have hedge : (Spot.mk (some ' ') (written ++ ':' :: rest)).isEdge = true := by
    rw [Spot.isEdge, hhead, hword]
    rfl
  rw [hplace]
  refine occursIn_append ?_
  rw [hprevious]
  unfold matchAt Facts.rowLabel
  rw [run_seq_cons, run, if_pos (by rw [hedge]; rfl), run_seq_cons, run_letters hname, run_seq_cons,
    run_many_cons (by decide)]
  show (run (letter ':') _ _ _).isSome = true
  rw [run_letter_self]
  rfl

/-- The labels of a line are found, whatever follows it. -/
theorem rowLabels_occurIn (after : Text) :
    ∀ label ∈ Facts.rowLabels, (Facts.rowLabel label).occursIn (r.line ++ after) = true := by
  have huser : r.line ++ after = ['-'] ++ ' ' ::
    ("Username".toList ++ ':' :: (' ' :: (r.username ++ ',' :: ' ' ::
      ("Password".toList ++ ':' :: ' ' :: (r.password ++ ',' :: ' ' ::
        ("Expected".toList ++ ':' :: ' ' :: (r.expected ++ after))))))) := by
    rw [line_eq]
    unfold labels
    simp only [List.cons_append, List.append_assoc, List.nil_append]
  have hpass :
      r.line ++ after = ('-' :: ' ' :: ("Username".toList ++ ':' :: ' ' :: (r.username ++ [','])))
        ++ ' ' :: ("Password".toList ++ ':' :: (' ' :: (r.password ++ ',' :: ' ' ::
        ("Expected".toList ++ ':' :: ' ' :: (r.expected ++ after))))) := by
    rw [huser]
    simp only [List.cons_append, List.append_assoc, List.nil_append]
  have hexp : r.line ++ after =
    ('-' :: ' ' :: ("Username".toList ++ ':' :: ' ' :: (r.username ++ ',' :: ' ' ::
      ("Password".toList ++ ':' :: ' ' :: (r.password ++ [',']))))) ++
        ' ' :: ("Expected".toList ++ ':' :: (' ' :: (r.expected ++ after))) := by
    rw [huser]
    simp only [List.cons_append, List.append_assoc, List.nil_append]
  intro label hlabel
  simp only [Facts.rowLabels, List.mem_cons, List.not_mem_nil, or_false] at hlabel
  rcases hlabel with rfl | rfl | rfl
  · rw [huser]
    exact rowLabel_occursIn (by decide) (by decide) _ _
  · rw [hpass]
    exact rowLabel_occursIn (by decide) (by decide) _ _
  · rw [hexp]
    exact rowLabel_occursIn (by decide) (by decide) _ _

theorem hasInlineRow_prompt {records : List LineRecord} (h : records ≠ []) :
    Facts.hasInlineRow (prompt records) = true := by
  obtain ⟨r, rest, rfl⟩ := List.exists_cons_of_ne_nil h
  obtain ⟨after, hprompt⟩ := prompt_cons r rest
  rw [hprompt]
  exact List.all_eq_true.mpr (r.rowLabels_occurIn after)

end LineRecord

end Dataset

end PlainSteps
