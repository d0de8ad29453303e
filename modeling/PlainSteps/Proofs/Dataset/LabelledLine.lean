import Mathlib.Data.List.Infix
import Mathlib.Data.List.TakeWhile
import PlainSteps.Proofs.Dataset.LineRecord
import PlainSteps.Proofs.Pattern.Locality
import PlainSteps.Proofs.Text.Newlines

/-! # Lines with one label

A line that names one part of a row in front of its value is read as that part, and a line that
names none adds nothing. What every label has to have is its word, perhaps blanks, and a colon; so
where a text does not mention a label, no pattern with that label matches. A word in front of a
value mentions no other label, since the words of two labels nowhere begin alike.
-/

namespace PlainSteps.Dataset

open Pattern

/-! ### Mentions -/

/-- A text holds the word of a label, in any case, with blanks at most between it and a colon. -/
def Mentions (name t : Text) : Prop :=
  ∃ before written blanks after, t = before ++ (written ++ (blanks ++ ':' :: after)) ∧
    written.map Text.fold = name.map Text.fold ∧ ∀ c ∈ blanks, Text.isBlank c = true

theorem Mentions.behind {name t : Text} (h : Mentions name t) (piece : Text) :
    Mentions name (piece ++ t) := by
  obtain ⟨before, written, blanks, after, rfl, hwritten, hblanks⟩ := h
  exact ⟨piece ++ before, written, blanks, after, (List.append_assoc ..).symm, hwritten, hblanks⟩

theorem Mentions.ahead {name t : Text} (h : Mentions name t) (piece : Text) :
    Mentions name (t ++ piece) := by
  obtain ⟨before, written, blanks, after, rfl, hwritten, hblanks⟩ := h
  exact ⟨before, written, blanks, after ++ piece, by simp, hwritten, hblanks⟩

section Patterns

variable {α : Type} {name t : Text} {s : Spot} {g : Captures} {k : Spot →
  Captures → Option α} {r : α}

/-- Where a label is read, its word comes first, then a colon with blanks around it, and what
follows is read behind. -/
theorem run_label_parts (h : run (label name) s g k = some r) :
    ∃ word blanks gap rest, s.rest = word ++ (blanks ++ ':' :: (gap ++ rest)) ∧
      word.map Text.fold = name.map Text.fold ∧ (∀ c ∈ blanks, Text.isBlank c = true) ∧
      (∀ c ∈ gap, Text.isBlank c = true) ∧ k ⟨lastOf (some ':') gap, rest⟩ g = some r := by
  unfold label at h
  rw [run_seq_cons] at h
  obtain ⟨word, rest, hrest, hword, h⟩ := run_letters_taken h
  rw [run_seq_cons] at h
  obtain ⟨blanks, rest, rfl, hblanks, h⟩ := runMany_taken h
  dsimp only at h
  rw [run_seq_cons] at h
  have hcolon : Text.IsMark ':' := by decide
  obtain ⟨after, hafter, h⟩ := run_mark_taken hcolon h
  obtain rfl : rest = ':' :: after := hafter
  obtain ⟨gap, rest, rfl, hgap, h⟩ := runMany_taken h
  exact ⟨word, blanks, gap, rest, hrest, hword, hblanks, hgap, h⟩

/-- Where a label is read, the text ahead mentions it, and what follows is read behind it. -/
theorem run_label_taken (h : run (label name) s g k = some r) :
    Mentions name s.rest ∧ ∃ piece rest g', s.rest = piece ++ rest ∧
    k ⟨lastOf s.previous piece, rest⟩ g' = some r := by
  refine ⟨?_, run_taken _ h⟩
  obtain ⟨word, blanks, gap, rest, hrest, hword, hblanks, -, -⟩ := run_label_parts h
  exact ⟨[], word, blanks, gap ++ rest, hrest, hword, hblanks⟩

/-- Only a text that mentions a label shows a pattern that asks for it. -/
theorem mentions_of_find? {a : Pattern} {f : Found}
    (ha : ∀ s, (a.matchAt s).isSome → Mentions name s.rest) (h : a.find? t = some f) :
    Mentions name t := by
  obtain ⟨hparts, hmatch⟩ := findFrom_parts h
  rw [hparts]
  exact (ha _ (Option.isSome_of_mem hmatch)).behind f.before

/-- A pattern that begins with a label matches only where that is mentioned. -/
theorem wordLabel_mentions (ps : List Pattern) (s : Spot)
    (h : ((seq (edge true :: label name :: ps)).matchAt s).isSome) : Mentions name s.rest := by
  obtain ⟨r, hr⟩ := Option.isSome_iff_exists.mp h
  unfold matchAt at hr
  rw [run_seq_cons] at hr
  have hlabel := run_edge_taken hr
  rw [run_seq_cons] at hlabel
  exact (run_label_taken hlabel).1

/-- In front of a value up to a comma a label is mentioned beside all that is mentioned behind the
value. -/
theorem run_labelledValue_mentions {others : List Text} {n : Nat}
    (hk : ∀ s' g', k s' g' = some r → ∀ other ∈ others, Mentions other s'.rest)
    (h : run (label name) s g (fun s₁ g₁ => run (valueUpToComma n) s₁ g₁
      fun s₂ g₂ => run (few inLine) s₂ g₂ k) = some r) :
    ∀ other ∈ name :: others, Mentions other s.rest := by
  obtain ⟨hname, front, rest₁, g₁, hrest₁, h⟩ := run_label_taken h
  obtain ⟨value, rest₂, g₂, hrest₂, h⟩ := run_taken _ h
  obtain ⟨gap, rest₃, g₃, hrest₃, h⟩ := run_taken _ h
  dsimp only at hrest₂ hrest₃
  refine List.forall_mem_cons.mpr ⟨hname, fun other hother => ?_⟩
  rw [hrest₁, hrest₂, hrest₃]
  exact (((hk _ _ h other hother).behind gap).behind value).behind front

/-- A whole row on one line mentions its labels there. -/
theorem lineRow_mentions (s : Spot) (h : (lineRow.matchAt s).isSome) :
    ∀ name ∈ Facts.rowLabels, Mentions name s.rest := by
  obtain ⟨r, hr⟩ := Option.isSome_iff_exists.mp h
  unfold matchAt lineRow at hr
  simp only [run_seq_cons] at hr
  refine run_labelledValue_mentions (fun s₁ g₁ hpassword => ?_) hr
  refine run_labelledValue_mentions (fun s₂ g₂ hexpected => ?_) hpassword
  exact List.forall_mem_singleton.mpr (run_label_taken hexpected).1

end Patterns

/-- A text in front of a value brings no mention of a label if none of its ends begins like the
label's word. -/
theorem not_mentions_append {name front value : Text} (hvalue : ¬ Mentions name value)
    (hfront : ∀ tail ∈ front.tails, tail ≠ [] →
      ¬ tail.map Text.fold <+: name.map Text.fold ∧ ¬ name.map Text.fold <+: tail.map Text.fold) :
    ¬ Mentions name (front ++ value) := by
  rintro ⟨before, written, blanks, after, h, hwritten, hblanks⟩
  rcases List.append_eq_append_iff.mp h with ⟨tail, rfl, htail⟩ | ⟨tail, rfl, htail⟩
  · exact hvalue ⟨tail, written, blanks, after, htail, hwritten, hblanks⟩
  · by_cases hnil : tail = []
    · subst hnil
      exact hvalue ⟨[], written, blanks, after, htail.symm, hwritten, hblanks⟩
    · obtain ⟨hshort, hlong⟩ :=
        hfront tail ((List.mem_tails _ _).mpr (List.suffix_append before tail)) hnil
      -- the word would have to begin within the front and agree with it there
      rcases List.append_eq_append_iff.mp htail with ⟨more, rfl, -⟩ | ⟨more, rfl, -⟩
      · apply hlong
        rw [← hwritten, List.map_append]
        exact List.prefix_append _ _
      · apply hshort
        rw [← hwritten, List.map_append]
        exact List.prefix_append _ _

/-! ### The parts of a row -/

/-- The parts of a row. -/
inductive Part where
  | username
  | password
  | expected
  deriving DecidableEq, Repr

namespace Part

/-- All parts in the order of their labels. -/
def all : List Part := [username, password, expected]

/-- The name of a part as a row has it. -/
def name : Part → Text
  | username => "username"
  | password => "password"
  | expected => "expected"

/-- The word of a part in front of its value. -/
def word : Part → Text
  | username => "Username"
  | password => "Password"
  | expected => "Expected"

/-- The pattern of a part in a block. -/
def pattern : Part → Pattern
  | username => tokenLabel "username"
  | password => tokenLabel "password"
  | expected => restLabel "expected"

theorem mem_all (part : Part) : part ∈ all := by
  cases part <;> decide

theorem name_injective {p q : Part} (h : p.name = q.name) : p = q := by
  revert h
  cases p <;> cases q <;> decide

/-- Every pattern of a block asks for the edge of a word in front of its label. -/
theorem pattern_eq (part : Part) :
    ∃ ps, part.pattern = seq (edge true :: label part.name :: ps) := by
  cases part with
  | username => exact ⟨_, rfl⟩
  | password => exact ⟨_, rfl⟩
  | expected => exact ⟨_, rfl⟩

theorem mentions_of_pattern (part : Part) {t : Text} {f : Found}
    (h : part.pattern.find? t = some f) :
    Mentions part.name t := by
  obtain ⟨ps, hps⟩ := part.pattern_eq
  rw [hps] at h
  exact mentions_of_find? (wordLabel_mentions ps) h

end Part

theorem blockLabels_eq : blockLabels = Part.all.map fun part => (part.name, part.pattern) := rfl

/-- A user name or a password that can be told from what stands around it. -/
structure IsName (t : Text) : Prop where
  ne_nil : t ≠ []
  plain : ∀ c ∈ t, isToken c = true ∧ c ≠ '\x27'

/-- The test for a name. -/
def isName (t : Text) : Bool := !t.isEmpty && t.all fun c => isToken c && c != '\x27'

theorem IsName.of_isName {t : Text} (h : isName t = true) : IsName t := by
  obtain ⟨hne, hplain⟩ := Bool.and_eq_true_iff.mp h
  refine ⟨by simpa using hne, fun c hc => ?_⟩
  simpa using List.all_eq_true.mp hplain c hc

theorem IsName.isValue {t : Text} (h : IsName t) : IsValue t := by
  have hplain : ∀ c ∈ t, Text.isBlank c = false ∧ c ≠ '"' ∧ c ≠ '\x27' := by
    intro c hc
    obtain ⟨htoken, hquote⟩ := h.plain c hc
    simp only [isToken, Bool.not_eq_true', Bool.or_eq_false_iff, beq_eq_false_iff_ne] at htoken
    exact ⟨htoken.1.2, htoken.2, hquote⟩
  refine ⟨h.ne_nil, fun c hc => ?_, fun c hc => hplain c (List.mem_of_mem_head? hc),
    fun c hc => hplain c (List.mem_of_getLast? hc)⟩
  by_contra hbreak
  have hblank := Text.isBlank_of_isLineBreak (Bool.not_eq_false _ ▸ hbreak)
  rw [(hplain c hc).1] at hblank
  cases hblank

/-- A value that can stand behind the label of a part. -/
def Part.Fits : Part → Text → Prop
  | .username => IsName
  | .password => IsName
  | .expected => IsValue

theorem Part.Fits.isValue {part : Part} {v : Text} (h : part.Fits v) : IsValue v := by
  cases part with
  | username => exact IsName.isValue h
  | password => exact IsName.isValue h
  | expected => exact h

/-- A text that mentions no label. -/
def Unlabelled (t : Text) : Prop := ∀ part : Part, ¬ Mentions part.name t

theorem unlabelled_of_noColon {t : Text} (h : ':' ∉ t) : Unlabelled t := by
  rintro part ⟨before, written, blanks, after, rfl, -⟩
  simp at h

/-- A value behind the word of its part. -/
def labelled (part : Part) (v : Text) : Text := part.word ++ ':' :: ' ' :: v

theorem labelled_eq (part : Part) (v : Text) :
    labelled part v = (part.word ++ [':', ' ']) ++ v := by
  simp [labelled]

theorem labelled_isOneLine (part : Part) {v : Text} (hv : Text.IsOneLine v) :
    Text.IsOneLine (labelled part v) := by
  have hfront : Text.IsOneLine (part.word ++ [':', ' ']) := by
    cases part with
    | username => exact Text.isOneLine_of_all (by decide)
    | password => exact Text.isOneLine_of_all (by decide)
    | expected => exact Text.isOneLine_of_all (by decide)
  rw [labelled_eq]
  intro c hc
  exact (List.mem_append.mp hc).elim (hfront c) (hv c)

/-- A line with one label mentions no other one. -/
theorem not_mentions_labelled {part other : Part} {v : Text} (hother : other ≠ part)
    (hv : Unlabelled v) :
    ¬ Mentions other.name (labelled part v) := by
  rw [labelled_eq]
  refine not_mentions_append (hv other) ?_
  revert hother
  cases part <;> cases other <;> decide

/-! ### Reading a line -/

section Read

variable {α : Type} {name written v : Text} {g : Captures} {k : Spot → Captures → Option α} {r : α}

/-- At the start of a text a pattern that begins with a label goes on at the value behind it. -/
theorem run_wordLabel {ps : List Pattern} (hname : written.map Text.fold = name.map Text.fold)
    (hword : written.head?.any Text.isWord = true) (hstarts : ∀ c ∈ v.head?, Text.isBlank c = false)
    (h : run (seq ps) ⟨some ' ', v⟩ g k = some r) :
    run (seq (edge true :: label name :: ps)) ⟨none, written ++ ':' :: ' ' :: v⟩ g k = some r := by
  have hhead : (written ++ ':' :: ' ' :: v).head?.any Text.isWord = true := by
    cases written with
    | nil => cases hword
    | cons c cs => exact hword
  rw [run_seq_cons, run_edge_of_word hhead, if_neg (by simp), run_seq_cons]
  exact run_label_eq_some hname hstarts h

theorem isToken_iff {c : Char} : isToken c = true ↔ c ≠ ',' ∧ Text.isBlank c = false ∧ c ≠ '"' := by
  simp [isToken, and_assoc]

/-- A token goes up to a blank or the end of its line. -/
theorem tokenLabel_matchAt (hname : written.map Text.fold = name.map Text.fold)
    (hword : written.head?.any Text.isWord = true) {token after : Text} (hne : token ≠ [])
    (hplain : ∀ c ∈ token, isToken c = true) (hends : ∀ c ∈ after.head?, Text.isBlank c = true) :
    (tokenLabel name).matchAt ⟨none, written ++ ':' :: ' ' :: (token ++ after)⟩ =
      some ([(1, token)], after) := by
  have hmark : Text.IsMark '"' := by decide
  have hstarts : ∀ c ∈ (token ++ after).head?, isToken c = true := by
    intro c hc
    rw [List.head?_append, Option.or_of_isSome (by simpa using hne)] at hc
    exact hplain c (List.mem_of_mem_head? hc)
  have hnotToken : ∀ c ∈ after.head?, isToken c = false := by
    intro c hc
    simp [isToken, hends c hc]
  have hnotQuote : ∀ c ∈ after.head?, c ≠ '"' := by
    rintro _ hc rfl
    exact absurd (hends _ hc) (by decide)
  refine run_wordLabel hname hword (fun c hc => (isToken_iff.mp (hstarts c hc)).2.1) ?_
  rw [run_seq_cons,
    run_maybe_of_eq_none (run_mark_eq_none hmark fun c hc => (isToken_iff.mp (hstarts c hc)).2.2),
      run_seq_cons]
  refine run_group_oneOrMore_append hne hplain hnotToken ?_
  exact run_maybe_of_eq_none (run_mark_eq_none hmark hnotQuote)

theorem restLabel_matchAt (hname : written.map Text.fold = name.map Text.fold)
    (hword : written.head?.any Text.isWord = true) (hv : IsValue v) :
    (restLabel name).matchAt ⟨none, written ++ ':' :: ' ' :: v⟩ = some ([(1, v)], []) :=
  run_wordLabel hname hword (fun c hc => (hv.starts c hc).1) (run_restOfLine_eq_some hv rfl)

end Read

/-- A text up to its first blank. -/
def firstWord (t : Text) : Text := t.takeWhile fun c => !Text.isBlank c

theorem firstWord_ne_nil {v : Text} (hv : IsValue v) : firstWord v ≠ [] := by
  obtain ⟨c, cs, rfl⟩ := List.exists_cons_of_ne_nil hv.ne_nil
  simp [firstWord, (hv.starts c rfl).1]

theorem isToken_of_mem_firstWord {v : Text} (hplain : ∀ c ∈ v, c ≠ ',' ∧ c ≠ '"') {c : Char}
    (hc : c ∈ firstWord v) :
    isToken c = true := by
  obtain ⟨hcomma, hquote⟩ := hplain c (List.takeWhile_subset _ hc)
  exact isToken_iff.mpr ⟨hcomma, by simpa using List.mem_takeWhile_imp hc, hquote⟩

namespace Part

/-- What a block keeps of a value: all of an expected text, and else the first word. -/
def kept : Part → Text → Text
  | .expected, v => v
  | _, v => firstWord v

variable {part : Part}

theorem fold_word (part : Part) : part.word.map Text.fold = part.name.map Text.fold := by
  cases part <;> decide

theorem isWord_word (part : Part) : part.word.head?.any Text.isWord = true := by
  cases part <;> decide

theorem pattern_of_ne_expected (h : part ≠ .expected) : part.pattern = tokenLabel part.name := by
  cases part with
  | username => rfl
  | password => rfl
  | expected => exact absurd rfl h

theorem kept_of_ne_expected (h : part ≠ .expected) (v : Text) : part.kept v = firstWord v := by
  cases part with
  | username => rfl
  | password => rfl
  | expected => exact absurd rfl h

theorem Fits.isName {v : Text} (h : part.Fits v) (hpart : part ≠ .expected) : IsName v := by
  cases part with
  | username => exact h
  | password => exact h
  | expected => exact absurd rfl hpart

end Part

section Lines

variable {part : Part} {v line : Text}

/-- The pattern of a part finds what a block keeps of its value. -/
theorem find?_labelled_kept (hv : IsValue v)
    (hplain : part ≠ .expected → ∀ c ∈ v, c ≠ ',' ∧ c ≠ '"') :
    ∃ f, part.pattern.find? (labelled part v) = some f ∧ f.group 1 = part.kept v := by
  have hmatch : ∃ rest, part.pattern.matchAt ⟨none, labelled part v⟩ =
      some ([(1, part.kept v)], rest) := by
    by_cases hpart : part = .expected
    · subst hpart
      exact ⟨[], restLabel_matchAt (Part.fold_word .expected) (Part.isWord_word .expected) hv⟩
    · have hparts : firstWord v ++ v.dropWhile (fun c => !Text.isBlank c) = v :=
        List.takeWhile_append_dropWhile
      have htoken : ∀ c ∈ firstWord v, isToken c = true :=
        fun _ => isToken_of_mem_firstWord (hplain hpart)
      have hends : ∀ c ∈ (v.dropWhile fun c => !Text.isBlank c).head?, Text.isBlank c = true :=
        fun c hc => by
        simpa using Text.starts_trimLeftOf c hc
      have htokens :=
        tokenLabel_matchAt part.fold_word part.isWord_word (firstWord_ne_nil hv) htoken hends
      rw [hparts] at htokens
      rw [Part.pattern_of_ne_expected hpart, Part.kept_of_ne_expected hpart]
      exact ⟨_, htokens⟩
  obtain ⟨rest, hmatch⟩ := hmatch
  obtain ⟨f, hf, hcaptures⟩ := findFrom_eq_some hmatch
  exact ⟨f, hf, by simp [Found.group, Found.group?, hcaptures]⟩

/-- A value that fits its part is kept as it is. -/
theorem Part.Fits.kept_eq (h : part.Fits v) : part.kept v = v := by
  by_cases hpart : part = .expected
  · subst hpart
    rfl
  · rw [Part.kept_of_ne_expected hpart]
    refine List.takeWhile_eq_self_iff.mpr fun c hc => ?_
    simp [(isToken_iff.mp ((h.isName hpart).plain c hc).1).2.1]

/-- The pattern of a part finds its value. -/
theorem find?_labelled (hv : part.Fits v) :
    ∃ f, part.pattern.find? (labelled part v) = some f ∧ f.group 1 = v := by
  have hfound := find?_labelled_kept hv.isValue fun hpart c hc => by
    obtain ⟨hcomma, -, hquote⟩ := isToken_iff.mp ((hv.isName hpart).plain c hc).1
    exact ⟨hcomma, hquote⟩
  rwa [hv.kept_eq] at hfound

/-- The value that a line adds to a part. -/
def addPart (line : Text) (current : List (Text × Text)) (part : Part) : List (Text × Text) :=
  match part.pattern.find? line with
  | some f => Json.put part.name (clean (f.group 1)) current
  | none => current

theorem addLine_eq (current : List (Text × Text)) (line : Text) :
    addLine current line = Part.all.foldl (addPart line) current := rfl

theorem addPart_of_not_mentions {current : List (Text × Text)} (h : ¬ Mentions part.name line) :
    addPart line current part = current := by
  unfold addPart
  cases hfind : part.pattern.find? line with
  | none => rfl
  | some f => exact absurd (part.mentions_of_pattern hfind) h

theorem addPart_of_find? {current : List (Text × Text)} {f : Found}
    (hf : part.pattern.find? line = some f) :
    addPart line current part = Json.put part.name (clean (f.group 1)) current := by
  unfold addPart
  rw [hf]

/-- A line with a label adds what is found of the value of its part, and no other. -/
theorem addLine_labelled_of_find? {current : List (Text × Text)} {f : Found}
    (hf : part.pattern.find? (labelled part v) = some f) (hplain : Unlabelled v) :
    addLine current (labelled part v) = Json.put part.name (clean (f.group 1)) current := by
  have hother : ∀ current other, other ≠ part → addPart (labelled part v) current other = current :=
    fun _ _ hne => addPart_of_not_mentions (not_mentions_labelled hne hplain)
  have hown : ∀ current, addPart (labelled part v) current part =
      Json.put part.name (clean (f.group 1)) current :=
    fun _ => addPart_of_find? hf
  rw [addLine_eq]
  show addPart _ (addPart _ (addPart _ current .username) .password) .expected = _
  cases part with
  | username => rw [hother _ .expected (by decide), hother _ .password (by decide), hown]
  | password => rw [hother _ .expected (by decide), hother _ .username (by decide), hown]
  | expected => rw [hother _ .username (by decide), hother _ .password (by decide), hown]

/-- **A line with a label adds the value of its part**, and no other. -/
theorem addLine_labelled {current : List (Text × Text)} (hv : part.Fits v) (hplain : Unlabelled v) :
    addLine current (labelled part v) = Json.put part.name v current := by
  obtain ⟨f, hf, hgroup⟩ := find?_labelled hv
  rw [addLine_labelled_of_find? hf hplain, hgroup, hv.isValue.clean_eq]

/-- A line without labels adds nothing. -/
theorem addLine_unlabelled {current : List (Text × Text)} (h : Unlabelled line) :
    addLine current line = current := by
  have hnone : ∀ current part, addPart line current part = current :=
    fun _ part => addPart_of_not_mentions (h part)
  rw [addLine_eq]
  simp only [Part.all, List.foldl_cons, List.foldl_nil, hnone]

/-- A line that holds a whole row mentions its labels. -/
theorem mentions_of_rowOfLine? (h : rowOfLine? line ≠ none) :
    ∀ name ∈ Facts.rowLabels, Mentions name line := by
  unfold rowOfLine? at h
  rw [Option.map_eq_none_iff.ne] at h
  obtain ⟨f, hf⟩ := Option.ne_none_iff_exists'.mp h
  intro name hname
  exact mentions_of_find? (fun s hs => lineRow_mentions s hs name hname) hf

/-- A line with one label holds no whole row. -/
theorem rowOfLine?_labelled (hplain : Unlabelled v) : rowOfLine? (labelled part v) = none := by
  by_contra hrow
  have hmentions := mentions_of_rowOfLine? hrow
  -- of two labels one is not that of the line
  by_cases hpart : part = .username
  · subst hpart
    exact not_mentions_labelled (by decide) hplain (hmentions Part.password.name (by decide))
  · exact not_mentions_labelled (fun h => hpart h.symm) hplain
      (hmentions Part.username.name (by decide))

theorem rowOfLine?_unlabelled (h : Unlabelled line) : rowOfLine? line = none := by
  by_contra hrow
  exact h .username (mentions_of_rowOfLine? hrow _ (by decide))

end Lines

end PlainSteps.Dataset
