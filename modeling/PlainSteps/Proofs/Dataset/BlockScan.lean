import PlainSteps.Proofs.Dataset.LabelledLine

/-! # Records in blocks of lines

A record in a block has one line for each part that it has. What its lines say is added to what the
lines before them have left, and a row is taken as soon as all three parts are there; so a row need
not be one record. What a record leaves decides it. The user name never lasts, since each record
brings its own. A password without expected text is replaced by the next password, and is taken only
if an expected text comes first. An expected text without password is replaced by the next expected
text, but each password comes before that of its own record: the next password takes it in any case.

So rows are read as entries that know the place of their record, and a step over one record says
what is left by then and whether the row that it completes is its own.
-/

namespace PlainSteps.Dataset

/-! ### Entries -/

/-- A part with its value, and the place of the record that it comes from. -/
structure Entry where
  part : Part
  value : Text
  place : Nat
  deriving DecidableEq, Repr

namespace Entry

/-- The entries with one more, in the place of the older one of its part or else at the end. -/
def put (e : Entry) : List Entry → List Entry
  | [] => [e]
  | d :: rest => if d.part = e.part then e :: rest else d :: put e rest

/-- Whether each part has an entry. -/
def isWhole (es : List Entry) : Bool :=
  Part.all.all fun part => es.any fun e => decide (e.part = part)

/-- The entries of each row, when more entries are added to those that are there. -/
def groups (current : List Entry) : List Entry → List (List Entry)
  | [] => []
  | e :: rest => if isWhole (put e current) then put e current :: groups [] rest
      else groups (put e current) rest

/-- Entries as the fields of a row. -/
def fields (es : List Entry) : List (Text × Text) := es.map fun e => (e.part.name, e.value)

/-- A row of entries. -/
def row (es : List Entry) : Row := ⟨fields es⟩

/-- Entries of more than one record. -/
def IsMixed (es : List Entry) : Prop := ∃ d ∈ es, ∃ e ∈ es, d.place ≠ e.place

variable {e : Entry} {es current group : List Entry}

theorem fields_put (e : Entry) (es : List Entry) :
    fields (put e es) = Json.put e.part.name e.value (fields es) := by
  induction es with
  | nil => rfl
  | cons d rest ih =>
    unfold fields at ih
    by_cases hpart : d.part = e.part
    · simp [put, fields, Json.put, hpart]
    · have hname : d.part.name ≠ e.part.name := fun h => hpart (Part.name_injective h)
      simp [put, fields, Json.put, hpart, hname, ih]

theorem isComplete_fields (es : List Entry) : isComplete (fields es) = isWhole es := by
  have hany : ∀ part : Part, (fields es).any (·.1 == part.name) = es.any fun e =>
      decide (e.part = part) := by
    intro part
    rw [fields, List.any_map]
    congr 1
    funext e
    by_cases hpart : e.part = part
    · simp [hpart]
    · have hname : e.part.name ≠ part.name := fun h => hpart (Part.name_injective h)
      simp [hpart, hname]
  unfold isComplete isWhole
  rw [blockLabels_eq, List.all_map]
  congr 1
  funext part
  exact hany part

theorem mem_put {d : Entry} (h : d ∈ put e es) : d = e ∨ d ∈ es := by
  induction es with
  | nil => exact .inl (List.mem_singleton.mp h)
  | cons first rest ih =>
    unfold put at h
    split at h
    · exact (List.mem_cons.mp h).imp_right (List.mem_cons_of_mem first)
    · rcases List.mem_cons.mp h with rfl | h
      · exact .inr (.head _)
      · exact (ih h).imp_right (List.mem_cons_of_mem first)

theorem nodup_put (h : (es.map (·.part)).Nodup) : ((put e es).map (·.part)).Nodup := by
  induction es with
  | nil => exact List.nodup_cons.mpr ⟨List.not_mem_nil, List.nodup_nil⟩
  | cons first rest ih =>
    rw [List.map_cons, List.nodup_cons] at h
    unfold put
    split
    · rename_i hpart
      rw [List.map_cons, List.nodup_cons, ← hpart]
      exact h
    · rename_i hpart
      rw [List.map_cons, List.nodup_cons]
      refine ⟨fun hfirst => ?_, ih h.2⟩
      obtain ⟨d, hd, hsame⟩ := List.mem_map.mp hfirst
      rcases mem_put hd with rfl | hd
      · exact hpart hsame.symm
      · exact h.1 (List.mem_map.mpr ⟨d, hd, hsame⟩)

/-- A row is made of entries that were there or were added. -/
theorem mem_of_mem_groups (hgroup : group ∈ groups current es) (he : e ∈ group) :
    e ∈ current ∨ e ∈ es := by
  induction es generalizing current with
  | nil => cases hgroup
  | cons first rest ih =>
    have hput : e ∈ put first current → e ∈ current ∨ e ∈ first :: rest := by
      intro hput
      rcases mem_put hput with rfl | hput
      · exact .inr (.head _)
      · exact .inl hput
    unfold groups at hgroup
    split at hgroup
    · rcases List.mem_cons.mp hgroup with rfl | hgroup
      · exact hput he
      · exact .inr ((ih hgroup).elim nofun (List.mem_cons_of_mem first))
    · rcases ih hgroup with h | h
      · exact hput h
      · exact .inr (List.mem_cons_of_mem first h)

/-- A row has each part once. -/
theorem parts_of_mem_groups (hnodup : (current.map (·.part)).Nodup)
    (hgroup : group ∈ groups current es) :
    (group.map (·.part)).Perm Part.all := by
  induction es generalizing current with
  | nil => cases hgroup
  | cons first rest ih =>
    have hput : ((put first current).map (·.part)).Nodup := nodup_put hnodup
    unfold groups at hgroup
    split at hgroup
    · rename_i hwhole
      rcases List.mem_cons.mp hgroup with rfl | hgroup
      · refine (List.perm_ext_iff_of_nodup hput (by decide)).mpr fun part =>
          ⟨fun _ => part.mem_all, fun hpart => ?_⟩
        have hany := List.all_eq_true.mp hwhole part hpart
        simpa using hany
      · have hstart : (([] : List Entry).map (·.part)).Nodup := List.nodup_nil
        exact ih hstart hgroup
    · exact ih hput hgroup

end Entry

/-! ### Lines -/

/-- Lines that are read as entries, perhaps with lines between them that are read as nothing. -/
inductive Entered : List Text → List Entry → Prop where
  | nil : Entered [] []
  | entry {e : Entry} {lines : List Text} {es : List Entry} (fits : e.part.Fits e.value)
      (plain : Unlabelled e.value) (rest : Entered lines es) :
      Entered (labelled e.part e.value :: lines) (e :: es)
  | other {line : Text} {lines : List Text} {es : List Entry} (plain : Unlabelled line)
      (rest : Entered lines es) :
      Entered (line :: lines) es

namespace Entered

variable {lines lines' : List Text} {es es' : List Entry}

theorem append (h : Entered lines es) (h' : Entered lines' es') :
    Entered (lines ++ lines') (es ++ es') := by
  induction h with
  | nil => exact h'
  | entry fits plain _ ih => exact .entry fits plain ih
  | other plain _ ih => exact .other plain ih

theorem filterMap_rowOfLine? (h : Entered lines es) : lines.filterMap rowOfLine? = [] := by
  induction h with
  | nil => rfl
  | entry fits plain _ ih => rw [List.filterMap_cons, rowOfLine?_labelled plain, ih]
  | other plain _ ih => rw [List.filterMap_cons, rowOfLine?_unlabelled plain, ih]

/-- **A block of lines gives the rows of its entries.** -/
theorem blockRows_eq (h : Entered lines es) {current : List Entry}
    (hcurrent : Entry.isWhole current = false) :
    blockRows (Entry.fields current) lines = (Entry.groups current es).map Entry.row := by
  induction h generalizing current with
  | nil => rfl
  | @entry e lines es fits plain _ ih =>
    unfold blockRows Entry.groups
    dsimp only
    rw [addLine_labelled fits plain, ← Entry.fields_put, Entry.isComplete_fields]
    -- a whole row is handed on, and the next one begins with nothing collected
    by_cases hwhole : Entry.isWhole (Entry.put e current) = true
    · have hstart : Entry.isWhole [] = false := rfl
      have hrest : blockRows [] lines = (Entry.groups [] es).map Entry.row := ih hstart
      rw [if_pos hwhole, if_pos hwhole, List.map_cons, hrest]
      rfl
    · rw [if_neg hwhole, if_neg hwhole]
      exact ih (Bool.not_eq_true _ ▸ hwhole)
  | other plain _ ih =>
    unfold blockRows
    dsimp only
    rw [addLine_unlabelled plain, Entry.isComplete_fields, hcurrent]
    exact ih hcurrent

/-- The rows of a text are those of its entries. -/
theorem inlineRows_eq {text : Text} (h : Entered (Text.lines text) es) :
    inlineRows text = (Entry.groups [] es).map Entry.row := by
  unfold inlineRows
  dsimp only
  rw [h.filterMap_rowOfLine?]
  have hstart : Entry.isWhole [] = false := rfl
  exact h.blockRows_eq hstart

end Entered

/-! ### Records -/

/-- A record with a user name, and with a password and an expected text or without. -/
structure BlockRecord where
  username : Text
  password : Option Text
  expected : Option Text
  username_isName : IsName username
  password_isName : ∀ v ∈ password, IsName v
  expected_isValue : ∀ v ∈ expected, IsValue v
  username_plain : Unlabelled username
  password_plain : ∀ v ∈ password, Unlabelled v
  expected_plain : ∀ v ∈ expected, Unlabelled v

namespace BlockRecord

variable (r : BlockRecord)

/-- The value of a part, if the record has it. -/
def value? : Part → Option Text
  | .username => some r.username
  | .password => r.password
  | .expected => r.expected

/-- Whether the record has all parts. -/
def isComplete : Bool := r.password.isSome && r.expected.isSome

/-- The record as a row. -/
def row : Row := Row.ofTriple r.username (r.password.getD []) (r.expected.getD [])

/-- The entries of a record at a place. -/
def entries (place : Nat) : List Entry :=
  Part.all.filterMap fun part => (r.value? part).map fun v => ⟨part, v, place⟩

/-- The lines of a record, one for each part that it has. -/
def lines : List Text := Part.all.filterMap fun part => (r.value? part).map (labelled part)

/-- The text of records, with a blank line between each two. -/
def prompt (records : List BlockRecord) : Text :=
  Text.joinWith ['\n', '\n'] (records.map fun r => Text.joinWith ['\n'] r.lines)

/-- The entries of records from a place on. -/
def entriesFrom (place : Nat) (records : List BlockRecord) : List Entry :=
  (records.zipIdx place).flatMap fun (r, i) => r.entries i

/-- The entries of each row that is read from the text of records. -/
def gather (records : List BlockRecord) : List (List Entry) :=
  Entry.groups [] (entriesFrom 0 records)

variable {r}

theorem fits {part : Part} {v : Text} (h : r.value? part = some v) :
    part.Fits v ∧ Unlabelled v := by
  cases part with
  | username =>
    obtain rfl := Option.some.inj h
    exact ⟨r.username_isName, r.username_plain⟩
  | password => exact ⟨r.password_isName v h, r.password_plain v h⟩
  | expected => exact ⟨r.expected_isValue v h, r.expected_plain v h⟩

theorem mem_entries {e : Entry} {place : Nat} (h : e ∈ r.entries place) :
    e.place = place ∧ r.value? e.part = some e.value := by
  obtain ⟨part, -, hpart⟩ := List.mem_filterMap.mp h
  obtain ⟨v, hv, rfl⟩ := Option.map_eq_some_iff.mp hpart
  exact ⟨rfl, hv⟩

theorem mem_entriesFrom {e : Entry} {records : List BlockRecord} (h : e ∈ entriesFrom 0 records) :
    ∃ r, records[e.place]? = some r ∧ r.value? e.part = some e.value := by
  obtain ⟨⟨r, i⟩, hr, he⟩ := List.mem_flatMap.mp h
  obtain ⟨hplace, hvalue⟩ := mem_entries he
  rw [List.mem_zipIdx_iff_getElem?] at hr
  exact ⟨r, hplace ▸ hr, hvalue⟩

theorem entriesFrom_cons (place : Nat) (r : BlockRecord) (records : List BlockRecord) :
    entriesFrom place (r :: records) = r.entries place ++ entriesFrom (place + 1) records := rfl

theorem lines_isOneLine {line : Text} (h : line ∈ r.lines) : Text.IsOneLine line ∧ line ≠ [] := by
  obtain ⟨part, -, hpart⟩ := List.mem_filterMap.mp h
  obtain ⟨v, hv, rfl⟩ := Option.map_eq_some_iff.mp hpart
  exact ⟨labelled_isOneLine part (fits hv).1.isValue.oneLine, by simp [labelled_eq]⟩

theorem entered_lines (r : BlockRecord) (place : Nat) : Entered r.lines (r.entries place) := by
  unfold lines entries
  generalize Part.all = parts
  induction parts with
  | nil => exact .nil
  | cons part rest ih =>
    cases hvalue : r.value? part with
    | none => simpa [hvalue] using ih
    | some v =>
      obtain ⟨hfits, hplain⟩ := fits hvalue
      simpa [hvalue] using Entered.entry (e := ⟨part, v, place⟩) hfits hplain ih

/-- The lines of the first record stand in front of a blank one. -/
theorem lines_prompt_cons {records : List BlockRecord} (h : records ≠ []) (r : BlockRecord) :
    Text.lines (prompt (r :: records)) = r.lines ++ [] :: Text.lines (prompt records) := by
  have hprompt : prompt (r :: records) = Text.joinWith ['\n']
      (r.lines ++ ['\n' :: prompt records]) := by
    have hrest : records.map (fun r => Text.joinWith ['\n'] r.lines) ≠ [] := by simpa using h
    have hlines : r.lines ≠ [] := List.cons_ne_nil _ _
    unfold prompt
    rw [List.map_cons, Text.joinWith_cons hrest, Text.joinWith_append_singleton hlines,
      List.append_assoc, List.append_assoc]
    rfl
  rw [hprompt, Text.lines_joinWith_append fun line hline => (lines_isOneLine hline).1]
  rfl

theorem entered_prompt (place : Nat) (records : List BlockRecord) :
    Entered (Text.lines (prompt records)) (entriesFrom place records) := by
  induction records generalizing place with
  | nil => exact .nil
  | cons r rest ih =>
    rw [entriesFrom_cons]
    by_cases hrest : rest = []
    · subst hrest
      have hlines : Text.lines (prompt [r]) = r.lines := Text.lines_joinWith fun line hline =>
        lines_isOneLine hline
      rw [hlines]
      exact (List.append_nil (r.entries place)).symm ▸ entered_lines r place
    · rw [lines_prompt_cons hrest]
      exact (entered_lines r place).append
        (.other (unlabelled_of_noColon List.not_mem_nil) (ih (place + 1)))

/-- The test for the values of a record, where these hold no colon. -/
def isPlain (username : Text) (password expected : Option Text) : Bool :=
  isName username && password.all isName && expected.all isValue &&
    (username :: (password.toList ++ expected.toList)).all (·.all (· != ':'))

section Plain

variable {username : Text} {password expected : Option Text}

theorem values_of_isPlain (h : isPlain username password expected = true) :
    IsName username ∧ (∀ v ∈ password, IsName v) ∧ ∀ v ∈ expected, IsValue v := by
  simp only [isPlain, Bool.and_eq_true] at h
  obtain ⟨⟨⟨husername, hpassword⟩, hexpected⟩, -⟩ := h
  refine ⟨.of_isName husername, ?_, ?_⟩
  · rintro v rfl
    exact .of_isName hpassword
  · rintro v rfl
    exact .of_isValue hexpected

theorem unlabelled_of_isPlain (h : isPlain username password expected = true) :
    ∀ v ∈ username :: (password.toList ++ expected.toList), Unlabelled v := by
  intro v hv
  obtain ⟨-, hall⟩ := Bool.and_eq_true_iff.mp h
  refine unlabelled_of_noColon fun hcolon => ?_
  simpa using List.all_eq_true.mp (List.all_eq_true.mp hall v hv) ':' hcolon

end Plain

/-- A record of values without colons. -/
def ofPlain (username : Text) (password expected : Option Text)
    (h : isPlain username password expected = true) :
    BlockRecord where
  username := username
  password := password
  expected := expected
  username_isName := (values_of_isPlain h).1
  password_isName := (values_of_isPlain h).2.1
  expected_isValue := (values_of_isPlain h).2.2
  username_plain := unlabelled_of_isPlain h username (.head _)
  password_plain v hv := unlabelled_of_isPlain h v (by simp [Option.mem_def.mp hv])
  expected_plain v hv := unlabelled_of_isPlain h v (by simp [Option.mem_def.mp hv])

/-- The rows of records in blocks are those that their entries give. -/
theorem inlineRows_gathered (records : List BlockRecord) :
    inlineRows (prompt records) = (gather records).map Entry.row :=
  (entered_prompt 0 records).inlineRows_eq

end BlockRecord

end PlainSteps.Dataset
