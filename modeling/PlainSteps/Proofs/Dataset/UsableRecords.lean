import PlainSteps.Dataset.Source
import PlainSteps.Proofs.Dataset.AnyOrder
import PlainSteps.Proofs.Json.Members
import PlainSteps.Proofs.Text.Trimming

/-! # The rows of a data file

A table has the columns that its header names, trimmed and in lower case, and two of them may come
out alike: then a record has in that column what the last of them holds, a missing cell too. A
record makes a row just when it has a user name and a password that are not blank. The rows follow
the order of the records, and each record without a row is told with its position (`rowsOf_spec`).
-/

namespace PlainSteps

namespace DataSource

variable {header : List Text} {record : List (Option Text)} {column t : Text}

/-! ### Cells -/

/-- A record has a text in a column. Of columns of one name the last one counts. -/
def HasText (header : List Text) (record : List (Option Text)) (column t : Text) : Prop :=
  ∃ before after, header.zip record = before ++ (column, some t) :: after ∧
    ∀ cell ∈ after, cell.1 ≠ column

/-- A text with more than white space in it. -/
def IsFilled (t : Text) : Prop := ∃ c ∈ t, Text.isBlank c = false

/-- A record that makes a row: it has all required columns, and none of them is blank. -/
def IsUsable (header : List Text) (record : List (Option Text)) : Prop :=
  ∀ column ∈ requiredColumns, ∃ t, HasText header record column t ∧ IsFilled t

theorem isFilled_iff : IsFilled t ↔ Text.trim t ≠ [] := by
  rw [ne_eq, Text.trim, Text.trimOf_eq_nil_iff]
  simp [IsFilled]

theorem nodup_named (header : List Text) (record : List (Option Text)) :
    ((named header record).map Prod.fst).Nodup := Json.nodup_settle _

theorem mem_named_iff : (column, some t) ∈ named header record ↔ HasText header record column t :=
  Json.mem_settle_iff

theorem hasValue_iff :
    hasValue (named header record) column = true ↔
    ∃ t, HasText header record column t ∧ IsFilled t := by
  unfold hasValue
  constructor
  · intro h
    split at h
    · rename_i t hlookup
      rw [Json.lookup?_eq_some_iff (nodup_named header record), mem_named_iff] at hlookup
      exact ⟨t, hlookup, isFilled_iff.mpr (by simpa using h)⟩
    · cases h
  · rintro ⟨t, htext, hfilled⟩
    rw [← mem_named_iff, ← Json.lookup?_eq_some_iff (nodup_named header record)] at htext
    rw [htext]
    simpa using isFilled_iff.mp hfilled

theorem all_hasValue_iff :
    requiredColumns.all (hasValue (named header record)) = true ↔ IsUsable header record := by
  rw [List.all_eq_true]
  exact forall₂_congr fun column _ => hasValue_iff

instance (header : List Text) (record : List (Option Text)) : Decidable (IsUsable header record) :=
  decidable_of_iff _ all_hasValue_iff

/-! ### Rows -/

/-- The texts of a record, each trimmed, under the names of their columns. -/
def texts (record : List (Text × Option Text)) : List (Text × Text) :=
  record.filterMap fun (name, cell) => cell.map fun t => (name, Text.trim t)

/-- A row of what a record has: a value for each column with a text, trimmed, and an expected text
in any case. -/
structure IsRowOf (header : List Text) (record : List (Option Text)) (row : Row) : Prop where
  once : (row.fields.map Prod.fst).Nodup
  columns : ∀ column, column ∈ row.fields.map Prod.fst ↔
    (∃ t, HasText header record column t) ∨ column = "expected".toList
  values : ∀ column t, HasText header record column t → row.value column = Text.trim t
  unexpected : (∀ t, ¬ HasText header record "expected" t) → row.expected = []
  trimmed : ∀ field ∈ row.fields, Text.trim field.2 = field.2
  username_ne_nil : row.username ≠ []
  password_ne_nil : row.password ≠ []

theorem mem_texts_iff {v : Text} :
    (column, v) ∈ texts (named header record) ↔ ∃ t, HasText header record column t ∧
    Text.trim t = v := by
  unfold texts
  simp only [List.mem_filterMap, Prod.exists, Option.map_eq_some_iff, Prod.mk.injEq]
  constructor
  · rintro ⟨name, cell, hmem, t, rfl, rfl, rfl⟩
    exact ⟨t, mem_named_iff.mp hmem, rfl⟩
  · rintro ⟨t, htext, rfl⟩
    exact ⟨column, some t, mem_named_iff.mpr htext, t, rfl, rfl, rfl⟩

theorem map_fst_texts_sublist : ∀ ms : List (Text × Option Text),
    ((texts ms).map Prod.fst).Sublist (ms.map Prod.fst)
  | [] => .slnil
  | (name, none) :: rest => (map_fst_texts_sublist rest).cons name
  | (name, some _) :: rest => (map_fst_texts_sublist rest).cons_cons name

theorem mem_map_fst_texts_iff :
    column ∈ (texts (named header record)).map Prod.fst ↔ ∃ t, HasText header record column t := by
  simp only [List.mem_map, Prod.exists, mem_texts_iff, exists_and_right, exists_eq_right]
  constructor
  · rintro ⟨v, t, htext, -⟩
    exact ⟨t, htext⟩
  · rintro ⟨t, htext⟩
    exact ⟨_, t, htext, rfl⟩

/-- The fields of a row: those of the record, and an empty expected text where it has none. -/
theorem rowOf_fields (ms : List (Text × Option Text)) :
    (rowOf ms).fields = texts ms ∧ "expected".toList ∈ (texts ms).map Prod.fst ∨
      (rowOf ms).fields = texts ms ++ [("expected".toList, [])] ∧
      "expected".toList ∉ (texts ms).map Prod.fst := by
  have hany : (texts ms).any (·.1 == "expected".toList) = true ↔
      "expected".toList ∈ (texts ms).map Prod.fst := by
    simp [List.any_eq_true, List.mem_map]
  by_cases hexpected : (texts ms).any (·.1 == "expected".toList) = true
  · exact .inl ⟨if_pos hexpected, hany.mp hexpected⟩
  · exact .inr ⟨if_neg hexpected, mt hany.mpr hexpected⟩

theorem nodup_rowOf : ((rowOf (named header record)).fields.map Prod.fst).Nodup := by
  have htexts : ((texts (named header record)).map Prod.fst).Nodup :=
    (map_fst_texts_sublist _).nodup (nodup_named header record)
  rcases rowOf_fields (named header record) with ⟨hfields, -⟩ | ⟨hfields, hnew⟩
  · rwa [hfields]
  · rw [hfields, List.map_append, List.map_singleton, List.nodup_append]
    refine ⟨htexts, List.nodup_singleton _, ?_⟩
    rintro a ha b hb rfl
    obtain rfl := List.mem_singleton.mp hb
    exact hnew ha

theorem mem_rowOf_iff {v : Text} : (column, v) ∈ (rowOf (named header record)).fields ↔
    (∃ t, HasText header record column t ∧ Text.trim t = v) ∨
      column = "expected".toList ∧ v = [] ∧ ∀ t, ¬ HasText header record "expected" t := by
  have hnone : "expected".toList ∉ (texts (named header record)).map Prod.fst ↔
      ∀ t, ¬ HasText header record "expected" t := by
    rw [mem_map_fst_texts_iff, not_exists]
  rcases rowOf_fields (named header record) with ⟨hfields, hold⟩ | ⟨hfields, hnew⟩
  · rw [hfields, mem_texts_iff]
    constructor
    · exact .inl
    · rintro (htext | ⟨-, -, habsent⟩)
      · exact htext
      · exact absurd hold (hnone.mpr habsent)
  · rw [hfields, List.mem_append, mem_texts_iff, List.mem_singleton, Prod.mk.injEq]
    have habsent := hnone.mp hnew
    simp only [habsent, not_false_eq_true, implies_true, and_true]

theorem value_rowOf (h : HasText header record column t) :
    (rowOf (named header record)).value column = Text.trim t :=
  Row.value_of_mem nodup_rowOf (mem_rowOf_iff.mpr (.inl ⟨t, h, rfl⟩))

/-- **A usable record is read as its row.** -/
theorem rowOf_isRowOf (h : IsUsable header record) :
    IsRowOf header record (rowOf (named header record)) := by
  have hfilled : ∀ column ∈ requiredColumns, (rowOf (named header record)).value column ≠ [] := by
    intro column hcolumn
    obtain ⟨t, htext, ht⟩ := h column hcolumn
    rw [value_rowOf htext]
    exact isFilled_iff.mp ht
  refine
    { once := nodup_rowOf
      columns := ?_
      values := fun column t htext => value_rowOf htext
      unexpected :=
        fun hnone => Row.value_of_mem nodup_rowOf (mem_rowOf_iff.mpr (.inr ⟨rfl, rfl, hnone⟩))
      trimmed := ?_
      username_ne_nil := hfilled "username" (by decide)
      password_ne_nil := hfilled "password" (by decide) }
  · intro column
    simp only [List.mem_map, Prod.exists, exists_and_right, exists_eq_right, mem_rowOf_iff]
    constructor
    · rintro ⟨v, ⟨t, htext, -⟩ | ⟨hexpected, -⟩⟩
      · exact .inl ⟨t, htext⟩
      · exact .inr hexpected
    · rintro (⟨t, htext⟩ | rfl)
      · exact ⟨_, .inl ⟨t, htext, rfl⟩⟩
      · -- where the record has no expectation the row has an empty one
        by_cases hexpected : ∃ t, HasText header record "expected" t
        · obtain ⟨t, htext⟩ := hexpected
          exact ⟨_, .inl ⟨t, htext, rfl⟩⟩
        · exact ⟨[], .inr ⟨rfl, rfl, not_exists.mp hexpected⟩⟩
  · rintro ⟨column, v⟩ hfield
    rcases mem_rowOf_iff.mp hfield with ⟨t, -, rfl⟩ | ⟨-, rfl, -⟩
    · exact Text.trim_trim t
    · rfl

/-! ### Records in order -/

/-- What is told of a record without a row. -/
def skipped (name : Text) (position : Nat) : Text :=
  "⚠️  Skipping incomplete row ".toList ++ Text.ofNat position ++ " in " ++ name

/-- The usable records are read as their rows, in order, and each of the others is told with its
position. -/
theorem rowsOf_spec (name : Text) (header : List Text) (records : List (List (Option Text))) :
    ∀ position,
    List.Forall₂ (IsRowOf header) (records.filter fun record => IsUsable header record)
        (rowsOf name position (records.map (named header))).value ∧
      (rowsOf name position (records.map (named header))).lines =
        ((records.zipIdx position).filter fun record => ¬ IsUsable header record.1).map
          (skipped name ·.2) := by
  induction records with
  | nil => exact fun _ => ⟨.nil, rfl⟩
  | cons record rest ih =>
    intro position
    obtain ⟨hrows, hlines⟩ := ih (position + 1)
    by_cases husable : IsUsable header record
    · rw [List.map_cons, rowsOf, if_pos (all_hasValue_iff.mpr husable)]
      simp only [List.filter_cons, husable, decide_true, if_true, List.zipIdx_cons,
        not_true_eq_false, decide_false, Bool.false_eq_true, if_false, Told.value_bind,
        Told.lines_bind, Told.value_pure, Told.lines_pure, List.append_nil]
      exact ⟨.cons (rowOf_isRowOf husable) hrows, hlines⟩
    · rw [List.map_cons, rowsOf, if_neg (mt all_hasValue_iff.mp husable)]
      simp only [List.filter_cons, husable, decide_false, Bool.false_eq_true,
        if_false, List.zipIdx_cons, not_false_eq_true, decide_true, if_true, Told.value_bind,
        Told.lines_bind, Told.lines_say, List.map_cons, List.singleton_append, hlines]
      exact ⟨hrows, rfl⟩

/-! ### Files -/

/-- The columns of a table, as they are looked for. -/
def columnsOf (table : Table) : List Text :=
  table.header.map fun column => Text.lower (Text.trim column)

/-- What is told of the columns of a table. -/
def headersLine (header : List Text) : Text :=
  "📋 Data headers: ".toList ++ Text.joinWith ", " header

/-- What is told of a table without a required column. -/
def missingLine (name : Text) (header : List Text) : Text :=
  "⚠️  Data file ".toList ++ name ++ " has no " ++
    Text.joinWith ", " (requiredColumns.filter fun column => !header.contains column) ++
      " column - no rows usable"

/-- What is told of the rows of a table. -/
def rowsLine (name : Text) (rows : List Row) : Text :=
  "📊 Successfully parsed ".toList ++ Text.ofNat rows.length ++ " data rows from " ++ name

theorem isEmpty_missing_iff :
    (requiredColumns.filter fun column => !header.contains column).isEmpty = true ↔
    ∀ column ∈ requiredColumns, column ∈ header := by
  simp [List.isEmpty_iff, List.filter_eq_nil_iff]

/-- The dataset of a table that has the required columns. -/
theorem datasetOf_of_required (name : Text) {table : Table}
    (h : ∀ column ∈ requiredColumns, column ∈ columnsOf table) :
    let read := rowsOf name 1 (table.records.map (named (columnsOf table)))
    datasetOf name table =
      ⟨⟨.external name, read.value⟩, headersLine (columnsOf table) :: read.lines ++
        [rowsLine name read.value]⟩ := by
  have hnone := isEmpty_missing_iff.mpr h
  unfold columnsOf at hnone
  simp only [datasetOf, hnone, if_true]
  rfl

/-- The dataset of a table that lacks a required column. -/
theorem datasetOf_of_missing (name : Text) {table : Table}
    (h : ¬ ∀ column ∈ requiredColumns, column ∈ columnsOf table) :
    datasetOf name table =
      ⟨⟨.external name, []⟩,
        [headersLine (columnsOf table), missingLine name (columnsOf table)]⟩ := by
  have hsome := mt isEmpty_missing_iff.mp h
  unfold columnsOf at hsome
  simp only [datasetOf, if_neg hsome]
  rfl

theorem load_of_table {s : DataSource} {name : Text} {content : Content} {table : Table}
    (hfile : s.look (s.path name) = .file content) (htable : s.table name content = .ok table) :
    s.load name = some <$> datasetOf name table := by
  have htable : s.tableAt name = .ok (some table) := by
    simp only [tableAt, hfile, htable]
    rfl
  unfold load
  rw [htable]

/-- A dataset that is loaded is that of a table. -/
theorem exists_table_of_load {s : DataSource} {name : Text} {dataset : Dataset}
    (h : (s.load name).value = some dataset) : ∃ table, (datasetOf name table).value = dataset := by
  unfold load at h
  split at h
  · cases h
  · cases h
  · rename_i table _
    exact ⟨table, Option.some.inj h⟩

theorem named_of_isRowOf {records : List (List (Option Text))} {rows : List Row}
    (h : List.Forall₂ (IsRowOf header) records rows) :
    ∀ row ∈ rows, row.username ≠ [] ∧ row.password ≠ [] := by
  induction h with
  | nil => exact nofun
  | cons hrow _ ih =>
    exact List.forall_mem_cons.mpr ⟨⟨hrow.username_ne_nil, hrow.password_ne_nil⟩, ih⟩

/-- **The rows of a data file have a user name and a password.** -/
theorem named_of_load {s : DataSource} {name : Text} {dataset : Dataset}
    (h : (s.load name).value = some dataset) :
    dataset.origin = .external name ∧ ∀ row ∈ dataset.rows, row.username ≠ [] ∧
    row.password ≠ [] := by
  obtain ⟨table, rfl⟩ := exists_table_of_load h
  by_cases hall : ∀ column ∈ requiredColumns, column ∈ columnsOf table
  · rw [datasetOf_of_required name hall]
    exact ⟨rfl, named_of_isRowOf (rowsOf_spec name (columnsOf table) table.records 1).1⟩
  · rw [datasetOf_of_missing name hall]
    exact ⟨rfl, nofun⟩

/-- **The usable records of a data file are its rows.** Whatever table the libraries read in the
file: without a required column the file has no rows. With them each usable record gives one row, in
order, and each other record one warning that names its position. -/
theorem load_keeps_usable {s : DataSource} {name : Text} {content : Content} {table : Table}
    (hfile : s.look (s.path name) = .file content) (htable : s.table name content = .ok table) :
    let header := columnsOf table
    ((∃ column ∈ requiredColumns, column ∉ header) →
      (s.load name).value = some ⟨.external name, []⟩ ∧
      (s.load name).lines = [headersLine header, missingLine name header]) ∧
    ((∀ column ∈ requiredColumns, column ∈ header) → ∃ rows,
      (s.load name).value = some ⟨.external name, rows⟩ ∧
      List.Forall₂ (IsRowOf header)
        (table.records.filter fun record => IsUsable header record) rows ∧
      (s.load name).lines = headersLine header ::
        ((table.records.zipIdx 1).filter fun record => ¬ IsUsable header record.1).map
          (skipped name ·.2) ++ [rowsLine name rows]) := by
  intro header
  rw [load_of_table hfile htable]
  constructor
  · rintro ⟨column, hcolumn, hmissing⟩
    rw [datasetOf_of_missing name fun hall => hmissing (hall column hcolumn)]
    exact ⟨rfl, rfl⟩
  · intro hall
    obtain ⟨hrows, hlines⟩ := rowsOf_spec name header table.records 1
    rw [datasetOf_of_required name hall]
    refine ⟨_, rfl, hrows, ?_⟩
    rw [← hlines]
    exact List.append_nil _

/-- A sheet with two columns for notes, and a record without a user name. -/
def usersSheet : Sheet :=
  [[.text " Username", .text "PASSWORD", .text "Note", .text "note"],
    [.text "bob", .text " pw ", .text "a", .text "b"],
    [.empty, .text "x"]]

/-- The record of a user. -/
def bob : List (Option Text) := [some "bob", some " pw ", some "a", some "b"]

/-- A record that names no user. -/
def nobody : List (Option Text) := [none, some "x", none, none]

/-- The table of the sheet. -/
def usersTable : Table := ⟨[" Username", "PASSWORD", "Note", "note"], [bob, nobody]⟩

/-- The bytes of a workbook with that sheet. -/
def usersBook : Content := .workbook ⟨"byte 0x9c in position 10: invalid start byte", [usersSheet]⟩

/-- A directory in which every path leads to that workbook. -/
def users : DataSource := ⟨"data", fun _ => .file usersBook, .own⟩

/-- The first record is a row with the later of its notes, the second is told. -/
theorem load_keeps_usable_users :
    ∃ row, (users.load "users.xlsx").value = some ⟨.external "users.xlsx", [row]⟩ ∧
    row.password = "pw".toList ∧ row.value "note" = "b".toList ∧ row.expected = [] ∧
    skipped "users.xlsx" 2 ∈ (users.load "users.xlsx").lines := by
  have htable : users.table "users.xlsx" usersBook = .ok usersTable := rfl
  obtain ⟨-, hall⟩ := load_keeps_usable (s := users) rfl htable
  obtain ⟨rows, hvalue, hrows, hlines⟩ := hall (by decide)
  have hfirst : (usersTable.records.filter fun record => IsUsable (columnsOf usersTable) record) =
    [bob] := by decide
  have hsecond : ((usersTable.records.zipIdx 1).filter fun record =>
    ¬ IsUsable (columnsOf usersTable) record.1) =
      [(nobody, 2)] := by decide
  rw [hfirst] at hrows
  obtain ⟨row, rows, hrow, hrest, rfl⟩ := List.forall₂_cons_left_iff.mp hrows
  obtain rfl := List.forall₂_nil_left_iff.mp hrest
  have hpassword := hrow.values "password" " pw " (mem_named_iff.mp (by decide))
  have hnote := hrow.values "note" "b" (mem_named_iff.mp (by decide))
  have hexpected : ∀ t, ¬ HasText (columnsOf usersTable) bob "expected" t := by
    rintro t ⟨before, after, hzip, -⟩
    have hcolumn :=
      (List.of_mem_zip (hzip ▸ List.mem_append_right before (List.mem_cons_self ..))).1
    exact absurd hcolumn (by decide)
  refine ⟨row, hvalue, hpassword, hnote, hrow.unexpected hexpected, ?_⟩
  rw [hlines, hsecond]
  exact .tail _ (.head _)

end DataSource

end PlainSteps
