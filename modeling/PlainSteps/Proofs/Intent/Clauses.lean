import PlainSteps.Intent.Rule
import PlainSteps.Proofs.Pattern.Pieces

/-! # Clauses and triggers

A text is cut into clauses at white space, and the clauses are trimmed of white space and
punctuation, so that no word is ever cut. The triggers of the table look for words or for labelled
pieces and ask for the edges of words only, and by that they find nothing in a clause that they do
not find in the text.
-/

namespace PlainSteps

open Pattern

/-! ### Characters outside words -/

/-- The code points of white space. -/
def Text.blankCodes : List Nat :=
  List.range' 9 5 ++ List.range' 28 5 ++ List.range' 0x2000 11 ++
    [0x85, 0xa0, 0x1680, 0x2028, 0x2029, 0x202f, 0x205f, 0x3000]

theorem Text.mem_blankCodes {c : Char} (h : Text.isBlank c = true) : c.toNat ∈ blankCodes := by
  simp only [isBlank, Bool.or_eq_true, Bool.and_eq_true, beq_iff_eq, decide_eq_true_eq] at h
  simp only [blankCodes, List.mem_append, List.mem_range'_1, List.mem_cons,
    List.not_mem_nil, or_false]
  omega

theorem Text.isWord_of_isBlank {c : Char} (h : Text.isBlank c = true) : Text.isWord c = false := by
  have hall : ∀ n ∈ blankCodes, isWord (Char.ofNat n) = false := by decide +kernel
  rw [← Char.ofNat_toNat c]
  exact hall _ (mem_blankCodes h)

theorem Text.isDigit_of_isBlank {c : Char} (h : Text.isBlank c = true) :
    Text.isDigit c = false := by
  have hall : ∀ n ∈ blankCodes, isDigit (Char.ofNat n) = false := by decide +kernel
  rw [← Char.ofNat_toNat c]
  exact hall _ (mem_blankCodes h)

theorem Rule.isWord_of_isClauseEnd {c : Char} (h : isClauseEnd c = true) :
    Text.isWord c = false := by
  simp only [isClauseEnd, Bool.or_eq_true, beq_iff_eq] at h
  rcases h with (rfl | rfl) | rfl
  all_goals decide

theorem outsideWord_of_forall {p : Char → Bool} (hp : ∀ c, p c = true → Text.isWord c = false)
    {o : Option Char} (ho : ∀ c ∈ o, p c = true) : OutsideWord o := by
  cases o with
  | none => rfl
  | some c => exact hp c (ho c rfl)

/-- Trimming characters outside words cuts no word. -/
theorem cutFrom_trimOf {p : Char → Bool} (hp : ∀ c, p c = true → Text.isWord c = false) (t : Text) :
    CutFrom (Text.trimOf p t) t := by
  have hleft : CutFrom (Text.trimLeftOf p t) t := by
    refine ⟨t.takeWhile p, [], ?_, outsideWord_of_forall hp fun c hc => ?_, rfl⟩
    · rw [List.append_nil]
      exact List.takeWhile_append_dropWhile.symm
    · exact List.all_eq_true.mp List.all_takeWhile c (List.mem_of_getLast? hc)
  have hright : ∀ u : Text, CutFrom (Text.trimRightOf p u) u := by
    intro u
    refine ⟨[], (u.reverse.takeWhile p).reverse, ?_, rfl, outsideWord_of_forall hp fun c hc => ?_⟩
    · rw [Text.trimRightOf, List.nil_append, ← List.reverse_append, List.takeWhile_append_dropWhile,
        List.reverse_reverse]
    · exact List.all_eq_true.mp List.all_takeWhile c
        (List.mem_reverse.mp (List.mem_of_mem_head? hc))
  exact (hright _).trans hleft

theorem cutFrom_trim (t : Text) : CutFrom (Text.trim t) t :=
  cutFrom_trimOf (fun _ => Text.isWord_of_isBlank) t

/-! ### Lines -/

/-- A line is cut from its text. -/
theorem cutFrom_of_mem_lines {t line : Text} (h : line ∈ Text.lines t) : CutFrom line t := by
  have hbreak : ∀ {c : Char}, Text.isLineBreak c = true → Text.isWord c = false :=
    fun hc => Text.isWord_of_isBlank (Text.isBlank_of_isLineBreak hc)
  generalize hlines : Text.lines t = ls at h
  induction ls generalizing t with
  | nil => cases h
  | cons first rest ih =>
    rcases Text.lines_eq_cons hlines with ⟨rfl, rfl⟩ | ⟨ending, t', rfl, hne, hending, hrest⟩
    · obtain rfl := List.mem_singleton.mp h
      exact CutFrom.refl line
    · rcases List.mem_cons.mp h with rfl | h
      · refine ⟨[], ending ++ t', rfl, rfl, outsideWord_of_forall (fun _ => hbreak) fun c hc => ?_⟩
        rw [List.head?_append, Option.or_of_isSome (by simpa using hne)] at hc
        exact hending c (List.mem_of_mem_head? hc)
      · refine (ih hrest h).trans ⟨first ++ ending, [], by simp, ?_, rfl⟩
        refine outsideWord_of_forall (fun _ => hbreak) fun c hc => ?_
        rw [List.getLast?_append, Option.or_of_isSome (by simpa using hne)] at hc
        exact hending c (List.mem_of_getLast? hc)

/-- A piece on one line is cut from a line of its text. -/
theorem exists_line_of_cutFrom {piece text : Text} (hcut : CutFrom piece text)
    (hpiece : Text.IsOneLine piece) (hsome : piece ≠ []) :
    ∃ line ∈ Text.lines text, CutFrom piece line := by
  obtain ⟨before, after, htext, hbefore, hafter⟩ := hcut.parts
  generalize hlines : Text.lines text = ls
  induction ls generalizing text before with
  | nil =>
    rw [Text.eq_nil_of_lines_eq_nil hlines] at htext
    simp [hsome] at htext
  | cons first rest ih =>
    rcases Text.lines_eq_cons hlines with ⟨rfl, -⟩ | ⟨ending, t', rfl, hne, hending, hrest⟩
    · exact ⟨text, .head _, before, after, htext, hbefore, hafter⟩
    rcases Text.beside_ending hne hending hsome hpiece htext with ⟨more, hfirst, rfl⟩ |
      ⟨more, rfl, hmore⟩
    · refine ⟨first, .head _, before, more, hfirst, hbefore, ?_⟩
      cases more with
      | nil => rfl
      | cons c cs => exact hafter
    · have houtside : OutsideWord more.getLast? := by
        rw [← List.append_assoc, List.getLast?_append] at hbefore
        cases hlast : more.getLast? with
        | none => rfl
        | some c =>
          rw [hlast] at hbefore
          exact hbefore
      obtain ⟨line, hline, hpiece⟩ :=
        ih ⟨more, after, hmore, houtside, hafter⟩ more hmore houtside hrest
      exact ⟨line, .tail _ hline, hpiece⟩

namespace Rule

/-! ### Clauses -/

/-- The comma in front of a clause, if there is one. -/
theorem maybeComma_taken {α : Type} {s : Spot} {g : Captures} {k : Spot → Captures → Option α}
    {r : α} (h : run (maybe (letter ',')) s g k = some r) :
    ∃ comma s', s.rest = comma ++ s'.rest ∧ OutsideWord comma.head? ∧ k s' g = some r := by
  rcases run_alt_taken h with h | h
  · obtain ⟨cs, hrest, hk⟩ := run_mark_taken (by decide) h
    have hcomma : Text.isWord ',' = false := by decide
    exact ⟨[','], ⟨some ',', cs⟩, hrest, hcomma, hk⟩
  · exact ⟨[], s, rfl, rfl, h⟩

/-- Between two clauses there is white space, perhaps with a comma. -/
theorem clauseBreak_cutsNoWord : CutsNoWord clauseBreak := by
  intro previous whole after g h
  have hblank : ∀ {t : Text}, (∀ c ∈ t, Text.isBlank c = true) → OutsideWord t.head? ∧
      OutsideWord t.getLast? :=
    fun ht => ⟨outsideWord_of_forall (fun _ => Text.isWord_of_isBlank) fun c hc =>
      ht c (List.mem_of_mem_head? hc), outsideWord_of_forall (fun _ => Text.isWord_of_isBlank)
        fun c hc => ht c (List.mem_of_getLast? hc)⟩
  unfold matchAt clauseBreak at h
  rw [run_seq_cons] at h
  obtain ⟨comma, s₁, hrest₁, hcomma, h⟩ := maybeComma_taken h
  rw [run_seq_cons] at h
  obtain ⟨b, blanks, rest₂, hrest₂, hblanks, h⟩ := run_oneOrMore_taken h
  rw [run_seq_cons] at h
  obtain ⟨word, rest₃, g₃, hrest₃, h⟩ := run_taken _ h
  obtain ⟨b', blanks', rest, hrest, hblanks', h⟩ := run_oneOrMore_taken h
  cases h
  dsimp only at hrest₁ hrest₂ hrest₃ hrest
  -- what is cut out begins with a comma or a blank and ends with one
  have hwhole : whole = comma ++ (b :: blanks) ++ word ++ (b' :: blanks') := by
    have heq : whole ++ rest = comma ++ (b :: blanks) ++ word ++ (b' :: blanks') ++ rest := by
      rw [hrest₁, hrest₂, hrest₃, hrest]
      simp only [List.append_assoc]
    exact List.append_cancel_right heq
  rw [hwhole]
  refine ⟨by simp, ?_, ?_⟩
  · simp only [List.append_assoc]
    exact head?_append_outside hcomma (hblank hblanks).1
  · rw [List.getLast?_append, Option.or_of_isSome (by simp)]
    exact (hblank hblanks').2

/-- A clause is cut from its text. -/
theorem cutFrom_of_mem_clauses {text clause : Text} (h : clause ∈ clauses text) :
    CutFrom clause text := by
  obtain ⟨piece, hpiece, rfl⟩ := List.mem_map.mp (List.mem_filter.mp h).1
  exact (cutFrom_trimOf (fun _ => isWord_of_isClauseEnd) piece).trans
    (cutFrom_of_mem_split clauseBreak_cutsNoWord hpiece)

/-! ### Triggers -/

/-- The rules in front of that for several steps: each looks for something in the text. -/
def keyed : List Rule := [dataDriven, navigate, login, fillForm, click, verify, wait]

theorem table_eq : table = keyed ++ [compound, other] := rfl

theorem mentions_of_cutFrom {words : List String}
    (hwords : (wordOf (choice (words.map fun w : String => letters w.toList))).isLocal = true)
    {piece text : Text} (hcut : CutFrom piece text) (h : mentions words piece = true) :
    mentions words text = true :=
  occursIn_of_cutFrom hwords hcut h

theorem isLocal_rowLabel : ∀ label ∈ Facts.rowLabels, (Facts.rowLabel label).isLocal = true :=
  by decide

theorem hasInlineRow_of_cutFrom {piece text : Text} (hcut : CutFrom piece text)
    (h : Facts.hasInlineRow piece = true) : Facts.hasInlineRow text = true := by
  rw [Facts.hasInlineRow, List.all_eq_true] at h ⊢
  intro label hlabel
  exact occursIn_of_cutFrom (isLocal_rowLabel label hlabel) hcut (h label hlabel)

theorem isDataDriven_of_cutFrom {piece text : Text} (hcut : CutFrom piece text)
    (h : isDataDriven piece = true) : isDataDriven text = true := by
  have hname : ∀ t, (Facts.dataset? t).isSome = Facts.datasetFile.occursIn t :=
    fun t => Option.isSome_map ..
  rw [isDataDriven, Bool.or_eq_true, hname] at h ⊢
  exact h.imp (occursIn_of_cutFrom rfl hcut) (hasInlineRow_of_cutFrom hcut)

/-- **What sets a keyed rule off in a piece sets it off in the whole text.** -/
theorem fires_of_cutFrom {rule : Rule} (hrule : rule ∈ keyed) {piece text : Text}
    (hcut : CutFrom piece text) (h : rule.fires piece = true) : rule.fires text = true := by
  simp only [keyed, List.mem_cons, List.not_mem_nil, or_false] at hrule
  rcases hrule with rfl | rfl | rfl | rfl | rfl | rfl | rfl
  · exact isDataDriven_of_cutFrom hcut h
  all_goals exact mentions_of_cutFrom rfl hcut h

end Rule

end PlainSteps
