import PlainSteps.Proofs.Dataset.LabelledLine

/-! # The two forms of a record

A record can be written on one line, its parts joined by commas, or as a block, with a line for each
part. On one line a user name and a password go up to the comma behind them. In a block they are one
token: nothing behind the first blank is read. So the two forms mean the same just for a record
whose user name and password are single words (`PlainRecord.inlineRows_forms`); of any other the
block gives the first words of both, a whole row and no less.
-/

namespace PlainSteps.Dataset

/-- A record that can be written in either form. -/
structure PlainRecord extends LineRecord where
  username_noQuote : ∀ c ∈ username, c ≠ '"' ∧ c ≠ '\x27'
  password_noQuote : ∀ c ∈ password, c ≠ '"' ∧ c ≠ '\x27'
  username_plain : Unlabelled username
  password_plain : Unlabelled password
  expected_plain : Unlabelled expected

namespace PlainRecord

variable (r : PlainRecord)

/-- The record on one line. -/
def single : Text :=
  "Username: ".toList ++ r.username ++ ", Password: " ++ r.password ++ ", Expected: " ++ r.expected

/-- The record as a block of lines. -/
def block : Text :=
  Text.joinWith ['\n']
    ["Username: ".toList ++ r.username, "Password: ".toList ++ r.password,
      "Expected: ".toList ++ r.expected]

/-! ### One line -/

theorem single_eq : r.single = r.labels := by
  have huser : "Username: ".toList = "Username".toList ++ [':', ' '] := rfl
  have hpass : ", Password: ".toList = ',' :: ' ' :: ("Password".toList ++ [':', ' ']) := rfl
  have hexp : ", Expected: ".toList = ',' :: ' ' :: ("Expected".toList ++ [':', ' ']) := rfl
  unfold single LineRecord.labels
  rw [huser, hpass, hexp]
  simp only [List.append_assoc, List.cons_append, List.nil_append]

theorem inlineRows_single :
    inlineRows r.single = [Row.ofTriple r.username r.password r.expected] := by
  have hline : Text.IsOneLine r.labels := by
    intro c hc
    apply r.line_isOneLine c
    rw [r.line_eq]
    exact .tail _ (.tail _ hc)
  have hlines : Text.lines r.labels = [r.labels] :=
    Text.lines_of_isOneLine hline (List.cons_ne_nil _ _)
  have hrows : [r.labels].filterMap rowOfLine? = [r.row] := by
    rw [List.filterMap_cons, r.rowOfLine?_labels, List.filterMap_nil]
  unfold inlineRows
  rw [single_eq, hlines]
  dsimp only
  rw [hrows]
  rfl

/-! ### A block -/

section Names

variable {v : Text} {current : List (Text × Text)} {part : Part}

/-- A line with a user name or a password adds its first word. -/
theorem addLine_firstWord (hpart : part ≠ .expected) (hv : IsValue v) (hcomma : ',' ∉ v)
    (hquote : ∀ c ∈ v, c ≠ '"' ∧ c ≠ '\x27') (hplain : Unlabelled v) :
    addLine current (labelled part v) = Json.put part.name (firstWord v) current := by
  have hfree : ∀ c ∈ v, c ≠ ',' ∧ c ≠ '"' := fun c hc => ⟨fun h => hcomma (h ▸ hc), (hquote c hc).1⟩
  have hname : IsName (firstWord v) := ⟨firstWord_ne_nil hv, fun c hc =>
    ⟨isToken_of_mem_firstWord hfree hc, (hquote c (List.takeWhile_subset _ hc)).2⟩⟩
  obtain ⟨f, hf, hgroup⟩ := find?_labelled_kept hv fun _ => hfree
  rw [addLine_labelled_of_find? hf hplain, hgroup, Part.kept_of_ne_expected hpart,
    hname.isValue.clean_eq]

end Names

/-- The lines of a block, each with the part that it names. -/
def blockLines : List Text :=
  [labelled .username r.username, labelled .password r.password, labelled .expected r.expected]

theorem lines_block : Text.lines r.block = r.blockLines := by
  have hblock : r.block = Text.joinWith ['\n'] r.blockLines := rfl
  rw [hblock]
  refine Text.lines_joinWith fun line hline => ?_
  obtain ⟨part, v, hv, rfl⟩ : ∃ part v, IsValue v ∧ labelled part v = line := by
    simp only [blockLines, List.mem_cons, List.not_mem_nil, or_false] at hline
    rcases hline with rfl | rfl | rfl
    · exact ⟨_, _, r.username_isValue, rfl⟩
    · exact ⟨_, _, r.password_isValue, rfl⟩
    · exact ⟨_, _, r.expected_isValue, rfl⟩
  exact ⟨labelled_isOneLine part hv.oneLine, by simp [labelled_eq]⟩

theorem blockRows_blockLines :
    blockRows [] r.blockLines =
    [Row.ofTriple (firstWord r.username) (firstWord r.password) r.expected] := by
  have huser : ∀ current, addLine current (labelled .username r.username) =
      Json.put "username" (firstWord r.username) current := fun _ =>
    addLine_firstWord (by decide) r.username_isValue r.username_noComma
      r.username_noQuote r.username_plain
  have hpass : ∀ current, addLine current (labelled .password r.password) =
      Json.put "password" (firstWord r.password) current := fun _ =>
    addLine_firstWord (by decide) r.password_isValue r.password_noComma
      r.password_noQuote r.password_plain
  have hfits : Part.Fits .expected r.expected := r.expected_isValue
  have hexp : ∀ current, addLine current (labelled .expected r.expected) =
      Json.put "expected" r.expected current :=
    fun _ => addLine_labelled hfits r.expected_plain
  -- the row is complete at the last line and not before
  calc blockRows [] r.blockLines
    _ = blockRows [("username", firstWord r.username)]
          [labelled .password r.password, labelled .expected r.expected] := by
      rw [blockLines, blockRows]
      rw [huser]
      rfl
    _ = blockRows [("username", firstWord r.username), ("password", firstWord r.password)]
          [labelled .expected r.expected] := by
      rw [blockRows]
      rw [hpass]
      rfl
    _ = [Row.ofTriple (firstWord r.username) (firstWord r.password) r.expected] := by
      rw [blockRows]
      rw [hexp]
      rfl

theorem inlineRows_block :
    inlineRows r.block =
    [Row.ofTriple (firstWord r.username) (firstWord r.password) r.expected] := by
  have hnone : r.blockLines.filterMap rowOfLine? = [] := by
    unfold blockLines
    simp only [List.filterMap_cons, rowOfLine?_labelled r.username_plain,
      rowOfLine?_labelled r.password_plain, rowOfLine?_labelled r.expected_plain,
        List.filterMap_nil]
  unfold inlineRows
  rw [lines_block]
  dsimp only
  rw [hnone]
  exact r.blockRows_blockLines

/-! ### Both forms -/

theorem firstWord_eq_self_iff {t : Text} : firstWord t = t ↔ ∀ c ∈ t, Text.isBlank c = false := by
  unfold firstWord
  rw [List.takeWhile_eq_self_iff]
  simp

/-- **The two forms of a record.** On one line a record is read back whole. Its block gives one row
too, with the first word of the user name and of the password. So both give the same row just when
neither of the two has a blank in it. -/
theorem inlineRows_forms :
    inlineRows r.single = [Row.ofTriple r.username r.password r.expected] ∧
      inlineRows r.block = [Row.ofTriple (firstWord r.username) (firstWord r.password) r.expected] ∧
      (inlineRows r.block = inlineRows r.single ↔
        (∀ c ∈ r.username, Text.isBlank c = false) ∧ ∀ c ∈ r.password, Text.isBlank c = false) := by
  refine ⟨r.inlineRows_single, r.inlineRows_block, ?_⟩
  rw [inlineRows_single, inlineRows_block, ← firstWord_eq_self_iff, ← firstWord_eq_self_iff]
  simp [Row.ofTriple]

/-- The test for the values of a record in either form, where these hold no colon. -/
def isPlain (username password expected : Text) : Bool :=
  [username, password, expected].all (fun v => isValue v && !v.contains ':') &&
    [username, password].all fun v => !v.contains ',' && v.all fun c => c != '"' && c != '\x27'

section Plain

variable {username password expected : Text}

theorem values_of_isPlain (h : isPlain username password expected = true) :
    ∀ v ∈ [username, password, expected], IsValue v ∧ Unlabelled v := by
  intro v hv
  obtain ⟨hvalue, hcolon⟩ :=
    Bool.and_eq_true_iff.mp (List.all_eq_true.mp (Bool.and_eq_true_iff.mp h).1 v hv)
  exact ⟨.of_isValue hvalue, unlabelled_of_noColon (by simpa using hcolon)⟩

theorem names_of_isPlain (h : isPlain username password expected = true) :
    ∀ v ∈ [username, password], ',' ∉ v ∧ ∀ c ∈ v, c ≠ '"' ∧ c ≠ '\x27' := by
  intro v hv
  obtain ⟨hcomma, hquote⟩ :=
    Bool.and_eq_true_iff.mp (List.all_eq_true.mp (Bool.and_eq_true_iff.mp h).2 v hv)
  exact ⟨by simpa using hcomma, fun c hc => by simpa using List.all_eq_true.mp hquote c hc⟩

end Plain

/-- A record of values without colons. -/
def ofPlain (username password expected : Text) (h : isPlain username password expected = true) :
    PlainRecord where
  username := username
  password := password
  expected := expected
  username_isValue := (values_of_isPlain h username (.head _)).1
  password_isValue := (values_of_isPlain h password (.tail _ (.head _))).1
  expected_isValue := (values_of_isPlain h expected (.tail _ (.tail _ (.head _)))).1
  username_noComma := (names_of_isPlain h username (.head _)).1
  password_noComma := (names_of_isPlain h password (.tail _ (.head _))).1
  username_noQuote := (names_of_isPlain h username (.head _)).2
  password_noQuote := (names_of_isPlain h password (.tail _ (.head _))).2
  username_plain := (values_of_isPlain h username (.head _)).2
  password_plain := (values_of_isPlain h password (.tail _ (.head _))).2
  expected_plain := (values_of_isPlain h expected (.tail _ (.tail _ (.head _)))).2

/-- A record whose user name is two words. -/
def spaced : PlainRecord := ofPlain "Ad min" "admin123" "Dashboard visible" (by decide)

/-- The block of a record with a user name of two words gives the first one only. -/
theorem forms_of_spaced :
    spaced.single = "Username: Ad min, Password: admin123, Expected: Dashboard visible" ∧
    spaced.block = "Username: Ad min\nPassword: admin123\nExpected: Dashboard visible" ∧
    inlineRows spaced.single = [Row.ofTriple "Ad min" "admin123" "Dashboard visible"] ∧
    inlineRows spaced.block = [Row.ofTriple "Ad" "admin123" "Dashboard visible"] :=
  ⟨rfl, by decide, spaced.inlineRows_single, spaced.inlineRows_block⟩

end PlainRecord

end PlainSteps.Dataset
