import PlainSteps.Config.Shipped
import PlainSteps.Facts.Labelled
import PlainSteps.Proofs.Pattern.Course
import PlainSteps.Proofs.Pattern.Locality

/-! # Credentials in a sentence

The user name and the password are looked for one after the other, each behind its own label, and
the first place of the whole sentence where the label gives a value counts. What stands between the
quotes of a value belongs to the sentence as well. A quoted user name comes right behind the first
label of its own, so it is read back as it is written. But it comes before the label of the
password, and where it shows one of its own that gives a value, that value is taken for the password
(`credentials_quoted`).
-/

namespace PlainSteps.Facts

open Pattern

/-! ### Values between quotes -/

section Quotes

variable {α : Type} {g : Captures} {k : Spot → Captures → Option α} {r : α} {quote : Char} {n : Nat}

/-- A value between two quotes, kept under a number. -/
def between (quote : Char) (n : Nat) : Pattern :=
  seq [letter quote, group n (many (allBut quote)), letter quote]

theorem run_between {previous : Option Char} {value : Text} (hvalue : quote ∉ value) (rest : Text)
    (h : k ⟨some quote, rest⟩ ((n, value) :: g) = some r) :
    run (between quote n) ⟨previous, quote :: (value ++ quote :: rest)⟩ g k = some r := by
  have hinner : ∀ c ∈ value, allBut quote c = true := by
    intro c hc
    have hne : c ≠ quote := fun heq => hvalue (heq ▸ hc)
    simpa [allBut] using hne
  have hcloses : ∀ c ∈ (quote :: rest).head?, allBut quote c = false := by simp [allBut]
  have hkept := take_piece value (quote :: rest)
  rw [between, run_seq_cons, run_letter_self, run_seq_cons, run_group]
  refine run_many_append value hinner hcloses ?_
  dsimp only
  rw [hkept]
  exact (run_letter_self quote rest).trans h

/-- Nothing is read between quotes where no quote comes next. -/
theorem run_between_eq_none (hquote : Text.IsMark quote) {s : Spot}
    (hnext : ∀ c ∈ s.rest.head?, c ≠ quote) :
    run (between quote n) s g k = none := by
  rw [between, run_seq_cons]
  exact run_mark_eq_none hquote hnext

theorem run_between_taken (hquote : Text.IsMark quote) {s : Spot}
    (h : run (between quote n) s g k = some r) :
    ∃ value rest, s.rest = quote :: (value ++ quote :: rest) ∧ quote ∉ value ∧
      k ⟨some quote, rest⟩ ((n, value) :: g) = some r := by
  rw [between, run_seq_cons] at h
  obtain ⟨after, hafter, h⟩ := run_mark_taken hquote h
  rw [run_seq_cons, run_group] at h
  obtain ⟨value, closing, hparts, hvalue, h⟩ := runMany_taken h
  obtain ⟨rest, hrest, h⟩ := run_mark_taken hquote h
  dsimp only at hparts hrest
  subst hparts
  subst hrest
  dsimp only at h
  rw [take_piece] at h
  refine ⟨value, rest, hafter, fun hin => ?_, h⟩
  exact absurd (hvalue quote hin) (by simp [allBut])

end Quotes

/-! ### Labels in front of values -/

/-- A label as a sentence writes it in front of a value: its word in any case, then a colon or an
equals sign with blanks around it. -/
structure Opens (label opening : Text) : Prop where
  parts : ∃ word blanks mark gap, opening = word ++ (blanks ++ mark :: gap) ∧
    word.map Text.fold = label.map Text.fold ∧ (∀ c ∈ blanks, Text.isBlank c = true) ∧
    isAssign mark = true ∧
    ∀ c ∈ gap, Text.isBlank c = true

/-- The values that a label gives at the start of a text: what stands between two quotes of one
kind, or the characters up to a blank, a comma, a semicolon or a quote, without the marks that end a
sentence. -/
inductive Reads (label : Text) : Text → Text → Prop
  | quoted {opening value : Text} {quote : Char} (opens : Opens label opening)
      (mark : quote = '"' ∨ quote = '\x27')
      (inner : quote ∉ value) (rest : Text) :
      Reads label (opening ++ quote :: (value ++ quote :: rest)) value
  | bare {opening value rest : Text} (opens : Opens label opening) (ne_nil : value ≠ [])
      (inner : ∀ c ∈ value, isBare c = true) (ends : ∀ c ∈ rest.head?, isBare c = false) :
      Reads label (opening ++ (value ++ rest)) (Text.trimRightOf isClosing value)

theorem isLabel_username : IsLabel "username" := ⟨'u', "sername".toList, rfl, by decide⟩

theorem isLabel_password : IsLabel "password" := ⟨'p', "assword".toList, rfl, by decide⟩

section Labels

variable {α : Type} {g : Captures} {k : Spot → Captures → Option α} {r : α} {label opening : Text}

/-- A pattern behind a label. -/
def behindLabel (label : Text) (a : Pattern) : Pattern :=
  seq [edge true, letters label, many Text.isBlank, one isAssign, many Text.isBlank, a]

theorem not_isBlank_of_isAssign {c : Char} (h : isAssign c = true) : Text.isBlank c = false := by
  rcases Bool.or_eq_true_iff.mp h with hc | hc
  · rw [eq_of_beq hc]
    decide
  · rw [eq_of_beq hc]
    decide

/-- Where no word comes before, what stands behind a label is read. -/
theorem run_behindLabel (hlabel : IsLabel label) (hopens : Opens label opening)
    {previous : Option Char} {rest : Text} (hprevious : OutsideWord previous)
    (hrest : ∀ c ∈ rest.head?, Text.isBlank c = false) {a : Pattern}
    (h : ∀ previous, run a ⟨previous, rest⟩ g k = some r) :
    run (behindLabel label a) ⟨previous, opening ++ rest⟩ g k = some r := by
  obtain ⟨word, blanks, mark, gap, rfl, hword, hblanks, hmark, hgap⟩ := hopens.parts
  have hnext : ∀ d ∈ (mark :: (gap ++ rest)).head?, Text.isBlank d = false :=
    forall_head_cons (not_isBlank_of_isAssign hmark) _
  rw [List.append_assoc, List.append_assoc, behindLabel,
    hlabel.run_edge_letters hword hprevious, run_seq_cons]
  refine run_many_append blanks hblanks hnext ?_
  rw [run_seq_cons, List.cons_append, run_one_cons hmark, run_seq_cons]
  exact run_many_append gap hgap hrest (h _)

/-- Where something is read behind a label, no word comes before. -/
theorem run_behindLabel_taken (hlabel : IsLabel label) {s : Spot} {a : Pattern}
    (h : run (behindLabel label a) s g k = some r) :
    OutsideWord s.previous ∧ ∃ opening rest previous, s.rest = opening ++ rest ∧
      Opens label opening ∧
      run a ⟨previous, rest⟩ g k = some r := by
  have houtside := hlabel.outsideWord h
  obtain ⟨word, rest₁, hrest₁, hword, hbehind⟩ := run_edge_letters_taken h
  rw [run_seq_cons] at hbehind
  obtain ⟨blanks, rest₂, hrest₂, hblanks, hbehind⟩ := runMany_taken hbehind
  dsimp only at hbehind
  rw [run_seq_cons] at hbehind
  obtain ⟨mark, rest₃, hrest₃, hmark, hbehind⟩ := run_one_taken hbehind
  rw [run_seq_cons] at hbehind
  obtain ⟨gap, rest, hrest, hgap, hbehind⟩ := runMany_taken hbehind
  dsimp only at hrest₂ hrest₃ hrest
  refine ⟨houtside, word ++ (blanks ++ mark :: gap), rest, _, ?_,
    ⟨word, blanks, mark, gap, rfl, hword, hblanks, hmark, hgap⟩, hbehind⟩
  rw [hrest₁, hrest₂, hrest₃, hrest]
  simp

end Labels

/-! ### Values of a label -/

/-- The forms of a value. -/
def valueForms : List Pattern := [between '"' 1, between '\x27' 2, group 3 (oneOrMore isBare)]

theorem labelled_eq (label : Text) : labelled label = behindLabel label (choice valueForms) := rfl

/-- The value among the pieces that were kept. -/
def valueIn (g : Captures) : Text :=
  match (g.find? (·.1 == 3)).map (·.2) with
  | some bare => Text.trimRightOf isClosing bare
  | none => ((g.find? (·.1 == 1)).map (·.2)).getD (((g.find? (·.1 == 2)).map (·.2)).getD [])

/-- The first value of a label in a text, with the given character before it. -/
def valueFrom? (label : Text) (previous : Option Char) (text : Text) : Option Text :=
  ((labelled label).findFrom previous text).map fun f => valueIn f.captures

theorem labelledValue?_eq (label text : Text) :
    labelledValue? label text = valueFrom? label none text := rfl

section Values

variable {label t v : Text} {previous : Option Char}

theorem isBare_iff {c : Char} :
    isBare c = true ↔ Text.isBlank c = false ∧ c ≠ ',' ∧ c ≠ ';' ∧ c ≠ '"' ∧ c ≠ '\x27' := by
  simp [isBare, and_assoc]

/-- Where no word comes before, a label gives what is read behind it. -/
theorem labelled_matchAt (hlabel : IsLabel label) {opening rest : Text} {m : Captures × Text}
    (hopens : Opens label opening) (hprevious : OutsideWord previous)
    (hrest : ∀ c ∈ rest.head?, Text.isBlank c = false)
    (h : ∀ previous,
      run (choice valueForms) ⟨previous, rest⟩ [] (fun s g => some (g, s.rest)) = some m) :
    (labelled label).matchAt ⟨previous, opening ++ rest⟩ = some m :=
  run_behindLabel hlabel hopens hprevious hrest h

theorem reads_of_matchAt (hlabel : IsLabel label) {m : Captures × Text}
    (h : (labelled label).matchAt ⟨previous, t⟩ = some m) :
    OutsideWord previous ∧ Reads label t (valueIn m.1) := by
  have hdouble : Text.IsMark '"' := by decide
  have hsingle : Text.IsMark '\x27' := by decide
  rw [labelled_eq, matchAt] at h
  obtain ⟨houtside, opening, rest, before, hparts, hopens, hvalue⟩ := run_behindLabel_taken hlabel h
  obtain rfl : t = opening ++ rest := hparts
  refine ⟨houtside, ?_⟩
  obtain ⟨form, hform, hvalue⟩ := run_choice_taken hvalue
  simp only [valueForms, List.mem_cons, List.not_mem_nil, or_false] at hform
  rcases hform with rfl | rfl | rfl
  · obtain ⟨value, rest, rfl, hinner, heq⟩ := run_between_taken hdouble hvalue
    cases heq
    exact .quoted hopens (.inl rfl) hinner rest
  · obtain ⟨value, rest, rfl, hinner, heq⟩ := run_between_taken hsingle hvalue
    cases heq
    exact .quoted hopens (.inr rfl) hinner rest
  · rw [run_group] at hvalue
    obtain ⟨c, cs, rest, rfl, hinner, hends, heq⟩ := run_oneOrMore_longest (fun _ => rfl) hvalue
    cases heq
    rw [take_piece]
    exact .bare hopens (List.cons_ne_nil c cs) hinner hends

/-- The first character of a value tells which of the forms it has. -/
theorem Reads.matchAt (h : Reads label t v) (hlabel : IsLabel label)
    (hprevious : OutsideWord previous) :
    ∃ m, (labelled label).matchAt ⟨previous, t⟩ = some m ∧ valueIn m.1 = v := by
  have hdouble : Text.IsMark '"' := by decide
  have hsingle : Text.IsMark '\x27' := by decide
  cases h with
  | @quoted opening v quote hopens hmark hinner rest =>
    have hblank : Text.isBlank quote = false := by
      rcases hmark with rfl | rfl
      · decide
      · decide
    have hnext : ∀ c ∈ (quote :: (v ++ quote :: rest)).head?, Text.isBlank c = false :=
      forall_head_cons hblank _
    rcases hmark with rfl | rfl
    · refine ⟨([(1, v)], rest), labelled_matchAt hlabel hopens hprevious hnext fun _ => ?_, rfl⟩
      exact run_choice_cons_of_eq_some _ (run_between hinner rest rfl)
    · refine ⟨([(2, v)], rest), labelled_matchAt hlabel hopens hprevious hnext fun _ => ?_, rfl⟩
      rw [valueForms,
        run_choice_cons_of_eq_none _ (run_between_eq_none hdouble (forall_head_cons (by decide) _))]
      exact run_choice_cons_of_eq_some _ (run_between hinner rest rfl)
  | @bare opening value rest hopens hne hinner hends =>
    have hstarts : ∀ c ∈ (value ++ rest).head?, Text.isBlank c = false ∧ c ≠ '"' ∧ c ≠ '\x27' := by
      intro c hc
      rw [List.head?_append, Option.or_of_isSome (by simpa using hne)] at hc
      obtain ⟨hblank, -, -, hquotes⟩ := isBare_iff.mp (hinner c (List.mem_of_mem_head? hc))
      exact ⟨hblank, hquotes⟩
    have hnext : ∀ c ∈ (value ++ rest).head?, Text.isBlank c = false := fun c hc => (hstarts c hc).1
    refine ⟨([(3, value)], rest), labelled_matchAt hlabel hopens hprevious hnext fun _ => ?_, rfl⟩
    -- neither kind of quote stands in front of a bare value, so the third form is tried
    rw [valueForms,
      run_choice_cons_of_eq_none _ (run_between_eq_none hdouble fun c hc => (hstarts c hc).2.1),
        run_choice_cons_of_eq_none _ (run_between_eq_none hsingle fun c hc => (hstarts c hc).2.2)]
    exact run_group_oneOrMore_append hne hinner hends rfl

/-- **At a place a label gives exactly the values it reads there.** -/
theorem labelled_matchAt_iff (hlabel : IsLabel label) :
    (∃ m, (labelled label).matchAt ⟨previous, t⟩ = some m ∧ valueIn m.1 = v) ↔
      OutsideWord previous ∧ Reads label t v := by
  constructor
  · rintro ⟨m, hmatch, rfl⟩
    exact reads_of_matchAt hlabel hmatch
  · rintro ⟨hprevious, hreads⟩
    exact hreads.matchAt hlabel hprevious

end Values

/-! ### The first value -/

section Searching

variable {label own behind front rest t v : Text} {previous : Option Char}

/-- A search for a value passes a front in which the label gives none. -/
theorem valueFrom?_append (h : (labelled label).Passes previous front rest) :
    valueFrom? label previous (front ++ rest) = valueFrom? label (lastOf previous front) rest := by
  rw [valueFrom?, h.findFrom_append, Option.map_map]
  rfl

/-- A front that does not show the label gives no value. -/
theorem valueFrom?_of_clear (h : Clear label front) (previous : Option Char) (rest : Text) :
    valueFrom? label previous (front ++ rest) = valueFrom? label (lastOf previous front) rest :=
  valueFrom?_append (h.passes _ _ _)

theorem valueFrom?_of_matchAt {m : Captures × Text}
    (h : (labelled label).matchAt ⟨previous, t⟩ = some m) :
    valueFrom? label previous t = some (valueIn m.1) := by
  obtain ⟨f, hf, hcaptures⟩ := findFrom_eq_some h
  rw [valueFrom?, hf, Option.map_some, hcaptures]

theorem valueFrom?_of_reads (hlabel : IsLabel label) (hprevious : OutsideWord previous)
    (h : Reads label t v) :
    valueFrom? label previous t = some v := by
  obtain ⟨m, hmatch, rfl⟩ := h.matchAt hlabel hprevious
  exact valueFrom?_of_matchAt hmatch

/-- Behind its beginning `before`, where no word goes on, a piece has a label that gives a value
there. The value may reach into what stands behind the piece. -/
def ReadsAt (label own behind before v : Text) : Prop :=
  ∃ ahead, own = before ++ ahead ∧ ahead ≠ [] ∧ OutsideWord before.getLast? ∧
    Reads label (ahead ++ behind) v

/-- The value at the first place of a piece where the label gives one. -/
def FirstReads (label own behind v : Text) : Prop :=
  ∃ before, ReadsAt label own behind before v ∧
    ∀ earlier w, ReadsAt label own behind earlier w → before <+: earlier

theorem outsideWord_lastOf (hprevious : OutsideWord previous) (before : Text) :
    OutsideWord (lastOf previous before) ↔ OutsideWord before.getLast? := by
  rw [lastOf_eq]
  cases before.getLast? with
  | none => exact iff_of_true hprevious rfl
  | some c => rfl

theorem readsAt_iff (hlabel : IsLabel label) (hprevious : OutsideWord previous) {before : Text} :
    ReadsAt label own behind before v ↔ ∃ ahead, own = before ++ ahead ∧ ahead ≠ [] ∧
      ∃ m, (labelled label).matchAt ⟨lastOf previous before, ahead ++ behind⟩ = some m ∧
      valueIn m.1 = v := by
  simp only [labelled_matchAt_iff hlabel, outsideWord_lastOf hprevious, ReadsAt]

/-- The first value of a piece is read where the search comes first upon a match. -/
theorem firstReads_iff (hlabel : IsLabel label) (hprevious : OutsideWord previous) :
    FirstReads label own behind v ↔ ∃ before ahead, own = before ++ ahead ∧ ahead ≠ [] ∧
      (labelled label).Passes previous before (ahead ++ behind) ∧
      ∃ m, (labelled label).matchAt ⟨lastOf previous before, ahead ++ behind⟩ = some m ∧
        valueIn m.1 = v := by
  constructor
  · rintro ⟨before, hreads, hfirst⟩
    obtain ⟨ahead, rfl, hahead, hmatch⟩ := (readsAt_iff hlabel hprevious).mp hreads
    refine ⟨before, ahead, rfl, hahead, fun earlier later hparts hlater => ?_, hmatch⟩
    by_contra hsome
    obtain ⟨m, hm⟩ := Option.ne_none_iff_exists'.mp hsome
    have hearlier : ReadsAt label (before ++ ahead) behind earlier (valueIn m.1) := by
      refine (readsAt_iff hlabel hprevious).mpr ⟨later ++ ahead, ?_, by simp [hlater], m, ?_, rfl⟩
      · rw [hparts, List.append_assoc]
      · rwa [List.append_assoc]
    -- the place would lie in front of the first one
    have hshort := (hfirst earlier _ hearlier).length_le
    have hlong := List.length_pos_iff.mpr hlater
    rw [hparts, List.length_append] at hshort
    omega
  · rintro ⟨before, ahead, rfl, hahead, hpass, hmatch⟩
    refine ⟨before, (readsAt_iff hlabel hprevious).mpr ⟨ahead, rfl, hahead, hmatch⟩,
      fun earlier w hreads => ?_⟩
    obtain ⟨ahead', hparts, -, m, hm, -⟩ := (readsAt_iff hlabel hprevious).mp hreads
    rcases List.append_eq_append_iff.mp hparts with ⟨later, rfl, -⟩ | ⟨later, rfl, rfl⟩
    · exact List.prefix_append before later
    · by_cases hnil : later = []
      · subst hnil
        rw [List.append_nil]
      · rw [List.append_assoc, hpass earlier later rfl hnil] at hm
        cases hm

/-- The first value of a piece is found, whatever stands behind it. -/
theorem FirstReads.valueFrom?_eq (hlabel : IsLabel label) (hprevious : OutsideWord previous)
    (h : FirstReads label own behind v) : valueFrom? label previous (own ++ behind) = some v := by
  obtain ⟨before, ahead, rfl, -, hpass, m, hm, rfl⟩ := (firstReads_iff hlabel hprevious).mp h
  rw [List.append_assoc, valueFrom?_append hpass]
  exact valueFrom?_of_matchAt hm

/-- A piece in which the label gives no value is passed. -/
theorem passes_of_no_reads (hlabel : IsLabel label) (hprevious : OutsideWord previous)
    (h : ∀ v, ¬ FirstReads label own behind v) : (labelled label).Passes previous own behind := by
  rcases passes_or_first (labelled label) previous own behind
    with hpass | ⟨before, ahead, hown, hahead, hpass, hsome⟩
  · exact hpass
  · obtain ⟨m, hm⟩ := Option.isSome_iff_exists.mp hsome
    exact absurd ((firstReads_iff hlabel hprevious).mpr ⟨before, ahead, hown, hahead, hpass,
      m, hm, rfl⟩) (h _)

/-- A text that has a label with its colon or equals sign somewhere. -/
def Shows (label t : Text) : Prop :=
  ∃ before opening after, t = before ++ (opening ++ after) ∧ Opens label opening

theorem Reads.opens (h : Reads label t v) :
    ∃ opening after, t = opening ++ after ∧ Opens label opening := by
  cases h with
  | quoted hopens _ _ _ => exact ⟨_, _, rfl, hopens⟩
  | bare hopens _ _ _ => exact ⟨_, _, rfl, hopens⟩

theorem Shows.any_isAssign (h : Shows label t) : t.any isAssign = true := by
  obtain ⟨before, opening, after, rfl, hopens⟩ := h
  obtain ⟨word, blanks, mark, gap, rfl, -, -, hmark, -⟩ := hopens.parts
  exact List.any_eq_true.mpr ⟨mark, by simp, hmark⟩

/-- No quote belongs to a label. -/
theorem Opens.quote_not_mem {opening : Text} (h : Opens label opening)
    (hlabel : '"' ∉ label.map Text.fold) :
    '"' ∉ opening := by
  have hmark : Text.IsMark '"' := by decide
  have hblank : Text.isBlank '"' = false := by decide
  obtain ⟨word, blanks, mark, gap, rfl, hword, hblanks, hassign, hgap⟩ := h.parts
  simp only [List.mem_append, List.mem_cons, not_or]
  refine ⟨fun hin => hlabel ?_, fun hin => ?_, ?_, fun hin => ?_⟩
  · rw [← hword, ← hmark.fold_eq]
    exact List.mem_map_of_mem hin
  · exact absurd (hblanks _ hin) (by simp [hblank])
  · rintro rfl
    exact absurd hassign (by decide)
  · exact absurd (hgap _ hin) (by simp [hblank])

/-- Where a piece ends at a quote, the label of its first value stands within the piece. -/
theorem FirstReads.shows (h : FirstReads label own ('"' :: behind) v)
    (hlabel : '"' ∉ label.map Text.fold) :
    Shows label own := by
  obtain ⟨before, ⟨ahead, rfl, -, -, hreads⟩, -⟩ := h
  obtain ⟨opening, after, hparts, hopens⟩ := hreads.opens
  rcases List.append_eq_append_iff.mp hparts with ⟨beyond, rfl, hbeyond⟩ | ⟨inner, rfl, -⟩
  · cases beyond with
    | nil => exact ⟨before, ahead, [], by simp, by rwa [List.append_nil] at hopens⟩
    | cons c cs =>
      obtain ⟨rfl, -⟩ := List.cons.inj hbeyond
      exact absurd (hopens.quote_not_mem hlabel) (by simp)
  · exact ⟨before, opening, inner, rfl, hopens⟩

end Searching

/-! ### A sentence with both credentials -/

/-- What stands behind a user name in a sentence that gives both credentials between quotes. -/
def behindName (p : Text) : Text :=
  '"' :: (" and ".toList ++ ("password: ".toList ++ '"' :: (p ++ ['"'])))

/-- A sentence that gives both credentials between quotes: `Login with username: "u" and password:
"p"`. -/
def quotedLogin (u p : Text) : Text :=
  "Login with ".toList ++ ("username: ".toList ++ '"' :: (u ++ behindName p))

theorem opens_username : Opens "username" "username: " :=
  ⟨"username".toList, [], ':', [' '], rfl, rfl, nofun,
    by decide, List.forall_mem_singleton.mpr (by decide)⟩

theorem opens_password : Opens "password" "password: " :=
  ⟨"password".toList, [], ':', [' '], rfl, rfl, nofun,
    by decide, List.forall_mem_singleton.mpr (by decide)⟩

section Login

variable {u p : Text}

theorem username_quotedLogin (hu : '"' ∉ u) :
    labelledValue? "username" (quotedLogin u p) = some u := by
  have hclear : Clear "username" "Login with " := by decide +kernel
  have hreads : Reads "username" ("username: ".toList ++ '"' :: (u ++ behindName p)) u :=
    .quoted opens_username (.inl rfl) hu _
  unfold quotedLogin
  rw [labelledValue?_eq, valueFrom?_of_clear hclear]
  exact valueFrom?_of_reads isLabel_username rfl hreads

/-- The password is looked for from the quoted user name on. -/
theorem password_quotedLogin (u p : Text) :
    labelledValue? "password" (quotedLogin u p) =
      valueFrom? "password" (some '"') (u ++ behindName p) := by
  have hfront : Clear "password" "Login with " := by decide +kernel
  have hlabel : Clear "password" ("username: ".toList ++ ['"']) := by decide +kernel
  have hparts := List.append_assoc "username: ".toList ['"'] (u ++ behindName p)
  unfold quotedLogin
  rw [labelledValue?_eq, valueFrom?_of_clear hfront]
  exact (congrArg _ hparts).symm.trans (valueFrom?_of_clear hlabel _ _)

theorem password_behindName (hp : '"' ∉ p) :
    valueFrom? "password" (lastOf (some '"') u) (behindName p) = some p := by
  have hclear : Clear "password" ('"' :: " and ".toList) := by decide +kernel
  have hreads : Reads "password" ("password: ".toList ++ '"' :: (p ++ ['"'])) p :=
    .quoted opens_password (.inl rfl) hp []
  exact (valueFrom?_of_clear hclear _ _).trans (valueFrom?_of_reads isLabel_password rfl hreads)

/-- **A quoted user name is read back as it is written, and so is a quoted password unless the user
name shows a password label.** Where the label gives a value within the user name, the first such
value is the password, for every configuration. -/
theorem credentials_quoted (config : Config) (hu : '"' ∉ u) (hp : '"' ∉ p) :
    (credentials config (quotedLogin u p)).username = u ∧
      ((∀ v, ¬ FirstReads "password" u (behindName p) v) →
        (credentials config (quotedLogin u p)).password = p) ∧
      ∀ v, FirstReads "password" u (behindName p) v →
        (credentials config (quotedLogin u p)).password = v ∧ Shows "password" u := by
  have hprevious : OutsideWord (some '"') := by decide
  refine ⟨?_, fun hnone => ?_, fun v hfirst => ⟨?_, hfirst.shows (by decide)⟩⟩
  · rw [credentials, username_quotedLogin hu]
    rfl
  · have hpass := passes_of_no_reads isLabel_password hprevious hnone
    rw [credentials, password_quotedLogin, valueFrom?_append hpass, password_behindName hp]
    rfl
  · rw [credentials, password_quotedLogin, hfirst.valueFrom?_eq isLabel_password hprevious]
    rfl

end Login

/-- A label within the password does no harm, one with a value within the user name does. -/
theorem credentials_quoted_labels :
    (credentials Config.shipped (quotedLogin "the password" "username: eve, password: x")).password
      =
        "username: eve, password: x" ∧
      FirstReads "password" "password: x" (behindName "p") "x" ∧
      (credentials Config.shipped (quotedLogin "password: x" "p")).password = "x" := by
  have hsilent : ∀ v, ¬ FirstReads "password" "the password"
      (behindName "username: eve, password: x") v := by
    intro v hfirst
    have hassigns := (hfirst.shows (by decide)).any_isAssign
    exact absurd hassigns (by decide)
  have hvalue : Reads "password" ("password: ".toList ++ (['x'] ++ behindName "p")) "x" :=
    .bare opens_password (by decide) (List.forall_mem_singleton.mpr (by decide))
      (forall_head_cons (by decide) _)
  have hfirst : FirstReads "password" "password: x" (behindName "p") "x" :=
    ⟨[], ⟨"password: x", rfl, by decide, rfl, hvalue⟩, fun _ _ _ => List.nil_prefix⟩
  have hplain := credentials_quoted Config.shipped (by decide : '"' ∉ "the password".toList)
    (by decide : '"' ∉ "username: eve, password: x".toList)
  have hshown := credentials_quoted Config.shipped (by decide : '"' ∉ "password: x".toList)
    (by decide : '"' ∉ "p".toList)
  exact ⟨hplain.2.1 hsilent, hfirst, (hshown.2.2 _ hfirst).1⟩

/-- A user name that shows a password label with a value takes the place of the password. -/
theorem password_of_username :
    '"' ∉ "password: x".toList ∧ '"' ∉ "p".toList ∧
      credentials Config.shipped (quotedLogin "password: x" "p") = ⟨"password: x", "x"⟩ ∧
      credentials Config.shipped (quotedLogin "password: x" "p") ≠ ⟨"password: x", "p"⟩ := by
  decide +kernel

end PlainSteps.Facts
