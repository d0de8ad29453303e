import PlainSteps.Proofs.Dataset.BlockScan
import PlainSteps.Proofs.Json.Members

/-! # Records written in any order

Nothing is left behind a whole record, in whatever order its parts are written: since each part
comes once, the row is complete at the last one and not before (`Entry.groups_append_whole`). So
whole records never mix. A row has an entry for each part, so a last record that lacks one gives no
row.
-/

namespace PlainSteps

/-- A column that comes once has its value. -/
theorem Row.value_of_mem {r : Row} {column v : Text} (hnodup : (r.fields.map Prod.fst).Nodup)
    (h : (column, v) ∈ r.fields) : r.value column = v := by
  rw [value, (Json.lookup?_eq_some_iff hnodup).mpr h]
  rfl

namespace Dataset

/-! ### Entries in any order -/

namespace Entry

variable {e : Entry} {es current later : List Entry}

theorem isWhole_iff : isWhole es = true ↔ ∀ part, part ∈ es.map (·.part) := by
  simp only [isWhole, List.all_eq_true, List.any_eq_true, decide_eq_true_iff, List.mem_map]
  exact ⟨fun h part => h part part.mem_all, fun h part _ => h part⟩

/-- A part that has no entry yet gets one at the end. -/
theorem put_of_new (hnew : e.part ∉ es.map (·.part)) : put e es = es ++ [e] := by
  induction es with
  | nil => rfl
  | cons d rest ih =>
    rw [List.map_cons, List.mem_cons, not_or] at hnew
    rw [put, if_neg fun h => hnew.1 h.symm, ih hnew.2, List.cons_append]

theorem new_of_nodup (hnodup : ((current ++ e :: es).map (·.part)).Nodup) :
    e.part ∉ current.map (·.part) := by
  rw [List.map_append] at hnodup
  exact fun hold => (List.nodup_append.mp hnodup).2.2 _ hold _ (.head _) rfl

/-- **The entries of a whole record are one row**, in any order, and the next row begins behind
them. -/
theorem groups_append_whole (hne : es ≠ []) (hnodup : ((current ++ es).map (·.part)).Nodup)
    (hwhole : isWhole (current ++ es) = true) :
    groups current (es ++ later) = (current ++ es) :: groups [] later := by
  induction es generalizing current with
  | nil => exact absurd rfl hne
  | cons e rest ih =>
    rw [List.cons_append, groups, put_of_new (new_of_nodup hnodup)]
    rw [List.append_cons current e rest] at hnodup hwhole ⊢
    cases rest with
    | nil =>
      rw [List.append_nil] at hwhole ⊢
      rw [if_pos hwhole, List.nil_append]
    | cons e' rest =>
      -- the part of the next entry is not there yet
      have hlacks : ¬ isWhole (current ++ [e]) = true :=
        fun h => new_of_nodup hnodup (isWhole_iff.mp h e'.part)
      rw [if_neg hlacks]
      exact ih (List.cons_ne_nil e' rest) hnodup hwhole

/-- Entries without one of the parts make no row. -/
theorem groups_eq_nil {part : Part} (hlacks : part ∉ es.map (·.part)) : groups [] es = [] := by
  refine List.eq_nil_iff_forall_not_mem.mpr fun group hgroup => hlacks ?_
  have hstart : (([] : List Entry).map (·.part)).Nodup := List.nodup_nil
  have hpart : part ∈ group.map (·.part) :=
    (parts_of_mem_groups hstart hgroup).mem_iff.mpr part.mem_all
  obtain ⟨e, he, hsame⟩ := List.mem_map.mp hpart
  exact List.mem_map.mpr ⟨e, (mem_of_mem_groups hgroup he).resolve_left List.not_mem_nil, hsame⟩

end Entry

/-! ### Lines between -/

/-- Lines with others anywhere between them that mention no label. -/
inductive Interspersed : List Text → List Text → Prop where
  | nil : Interspersed [] []
  | own {line : Text} {own lines : List Text} (rest : Interspersed own lines) :
      Interspersed (line :: own) (line :: lines)
  | other {line : Text} {own lines : List Text} (plain : Unlabelled line)
      (rest : Interspersed own lines) :
      Interspersed own (line :: lines)

/-- Lines with labels are read as entries, whatever lines stand between them. -/
theorem Interspersed.entered {parts : List (Part × Text)} {lines : List Text}
    (h : Interspersed (parts.map fun p => labelled p.1 p.2) lines)
    (hfits : ∀ p ∈ parts, p.1.Fits p.2 ∧ Unlabelled p.2) :
    Entered lines (parts.map fun p => ⟨p.1, p.2, 0⟩) := by
  generalize hown : parts.map (fun p => labelled p.1 p.2) = own at h
  induction h generalizing parts with
  | nil =>
    obtain rfl := List.map_eq_nil_iff.mp hown
    exact .nil
  | own _ ih =>
    obtain ⟨p, rest, rfl, rfl, hrest⟩ := List.map_eq_cons_iff.mp hown
    rw [List.forall_mem_cons] at hfits
    exact Entered.entry (e := ⟨p.1, p.2, 0⟩) hfits.1.1 hfits.1.2 (ih hfits.2 hrest)
  | other hother _ ih => exact .other hother (ih hfits hown)

/-! ### Records -/

/-- The test for a value of a part. -/
def Part.isFit : Part → Text → Bool
  | .username => isName
  | .password => isName
  | .expected => isValue

theorem Part.Fits.of_isFit {part : Part} {v : Text} (h : part.isFit v = true) : part.Fits v := by
  cases part with
  | username => exact IsName.of_isName h
  | password => exact IsName.of_isName h
  | expected => exact IsValue.of_isValue h

/-- A record as it is written: parts with their values, each part once at most. -/
structure WrittenRecord where
  parts : List (Part × Text)
  once : (parts.map Prod.fst).Nodup
  fits : ∀ p ∈ parts, p.1.Fits p.2 ∧ Unlabelled p.2

namespace WrittenRecord

variable {r : WrittenRecord} {records : List WrittenRecord}

/-- The record has all parts. -/
def IsWhole (r : WrittenRecord) : Prop := ∀ part, part ∈ r.parts.map Prod.fst

instance : DecidablePred IsWhole := fun r =>
  decidable_of_iff (∀ part ∈ Part.all, part ∈ r.parts.map Prod.fst)
    ⟨fun h part => h part part.mem_all, fun h part _ => h part⟩

/-- The lines of a record, one for each part. -/
def lines (r : WrittenRecord) : List Text := r.parts.map fun p => labelled p.1 p.2

/-- The record as a row, its fields in the order in which they are written. -/
def row (r : WrittenRecord) : Row := ⟨r.parts.map fun p => (p.1.name, p.2)⟩

/-- The entries of a record. Whole records need not be told apart by their places. -/
def entries (r : WrittenRecord) : List Entry := r.parts.map fun p => ⟨p.1, p.2, 0⟩

theorem map_part_entries (r : WrittenRecord) : r.entries.map (·.part) = r.parts.map Prod.fst := by
  rw [entries, List.map_map]
  rfl

theorem row_entries (r : WrittenRecord) : Entry.row r.entries = r.row := by
  rw [Entry.row, Entry.fields, entries, List.map_map]
  rfl

/-- The row of a record has the values of its parts. -/
theorem value_row {p : Part × Text} (hp : p ∈ r.parts) : r.row.value p.1.name = p.2 := by
  have hnames : r.row.fields.map Prod.fst = (r.parts.map Prod.fst).map Part.name := by
    rw [row, List.map_map, List.map_map]
    rfl
  have hnodup : (r.row.fields.map Prod.fst).Nodup := by
    rw [hnames]
    exact r.once.map fun _ _ => Part.name_injective
  exact Row.value_of_mem hnodup (List.mem_map.mpr ⟨p, hp, rfl⟩)

/-! ### What records give -/

theorem entered {ls : List Text} (h : Interspersed (records.flatMap lines) ls) :
    Entered ls (records.flatMap entries) := by
  have hlines : records.flatMap lines = (records.flatMap parts).map fun p => labelled p.1 p.2 :=
    List.map_flatMap.symm
  have hentries : records.flatMap entries = (records.flatMap parts).map fun p => ⟨p.1, p.2, 0⟩ :=
    List.map_flatMap.symm
  rw [hlines] at h
  rw [hentries]
  refine h.entered fun p hp => ?_
  obtain ⟨r, -, hr⟩ := List.mem_flatMap.mp hp
  exact r.fits p hr

/-- A whole record is a row, and the records behind it begin anew. -/
theorem groups_whole (hwhole : r.IsWhole) (later : List Entry) :
    Entry.groups [] (r.entries ++ later) = r.entries :: Entry.groups [] later := by
  have hentries : Entry.isWhole r.entries = true := by
    rw [Entry.isWhole_iff, map_part_entries]
    exact hwhole
  have hnodup : (r.entries.map (·.part)).Nodup := by
    rw [map_part_entries]
    exact r.once
  have hne : r.entries ≠ [] := by
    intro hnil
    rw [hnil] at hentries
    cases hentries
  show _ = ([] ++ r.entries) :: _
  exact Entry.groups_append_whole hne hnodup hentries

/-- A record that lacks a part is no row. -/
theorem groups_lacking (hlacks : ¬ r.IsWhole) : Entry.groups [] r.entries = [] := by
  obtain ⟨part, hpart⟩ := not_forall.mp hlacks
  rw [← map_part_entries] at hpart
  exact Entry.groups_eq_nil hpart

/-- Whole records are a row each, in front of entries that make none. -/
theorem groups_flatMap (hwhole : ∀ r ∈ records, r.IsWhole) {later : List Entry}
    (hlater : Entry.groups [] later = []) :
    Entry.groups [] (records.flatMap entries ++ later) = records.map entries := by
  induction records with
  | nil => exact hlater
  | cons r rest ih =>
    rw [List.flatMap_cons, List.append_assoc, groups_whole (hwhole r (.head _)),
      ih fun r hr => hwhole r (.tail _ hr), List.map_cons]

/-- **Whole records in any order.** Where the lines of a text are those of whole records, each in an
order of its own, and perhaps of a last one that lacks a part, and all lines between them mention no
label, the rows of the text are the whole records in their order, with their values. -/
theorem inlineRows_anyOrder (records : List WrittenRecord) (last : Option WrittenRecord)
    (text : Text) (hwhole : ∀ r ∈ records, r.IsWhole) (hlast : ∀ r ∈ last, ¬ r.IsWhole)
    (hlines : Interspersed ((records ++ last.toList).flatMap lines) (Text.lines text)) :
    inlineRows text = records.map row ∧ ∀ r ∈ records, ∀ p ∈ r.parts,
      r.row.value p.1.name = p.2 := by
  refine ⟨?_, fun r _ p hp => value_row hp⟩
  have hrest : Entry.groups [] (last.toList.flatMap entries) = [] := by
    cases last with
    | none => rfl
    | some r =>
      rw [Option.toList_some, List.flatMap_singleton]
      exact groups_lacking (hlast r rfl)
  rw [(entered hlines).inlineRows_eq, List.flatMap_append,
    groups_flatMap hwhole hrest, List.map_map]
  exact List.map_congr_left fun r _ => row_entries r

/-- The test for parts whose values hold no colon. -/
def isPlain (parts : List (Part × Text)) : Bool :=
  decide (parts.map Prod.fst).Nodup && parts.all fun p => p.1.isFit p.2 && !p.2.contains ':'

/-- A record of values without colons. -/
def ofPlain (parts : List (Part × Text)) (h : isPlain parts = true) : WrittenRecord where
  parts := parts
  once := of_decide_eq_true (Bool.and_eq_true_iff.mp h).1
  fits p hp := by
    obtain ⟨hfit, hcolon⟩ :=
      Bool.and_eq_true_iff.mp (List.all_eq_true.mp (Bool.and_eq_true_iff.mp h).2 p hp)
    exact ⟨.of_isFit hfit, unlabelled_of_noColon (by simpa using hcolon)⟩

/-- The password first, and the expected text first. -/
def shuffled : List WrittenRecord :=
  [ofPlain [(.password, "p"), (.username, "ann"), (.expected, "Home page")] (by decide),
    ofPlain [(.expected, "Error"), (.username, "bob"), (.password, "q")] (by decide)]

/-- A record without user name. -/
def nameless : WrittenRecord := ofPlain [(.expected, "Home page"), (.password, "r")] (by decide)

/-- Their lines, with others between them. -/
def shuffledLines : List Text :=
  ["Log in", "Password: p", "Username: ann", "Expected: Home page", "", "Expected: Error",
    "as before", "Username: bob", "Password: q", "Expected: Home page", "Password: r"]

/-- Two records in orders of their own, with lines between them and a third one begun. -/
theorem inlineRows_anyOrder_shuffled : inlineRows (Text.joinWith ['\n'] shuffledLines) =
    [⟨[("password", "p"), ("username", "ann"), ("expected", "Home page")]⟩,
      ⟨[("expected", "Error"), ("username", "bob"), ("password", "q")]⟩] := by
  refine (inlineRows_anyOrder shuffled (some nameless) _ (by decide) ?_ ?_).1
  · rintro r ⟨⟩
    decide
  · have hlines : Text.lines (Text.joinWith ['\n'] shuffledLines) = shuffledLines :=
      by decide +kernel
    have hplain : ∀ line ∈ (["Log in", "", "as before"] : List Text), Unlabelled line :=
      fun line hline =>
      unlabelled_of_noColon (by revert line; decide)
    rw [hlines]
    exact .other (hplain "Log in" (by decide))
      (.own (.own (.own (.other (hplain "" (by decide)) (.own
      (.other (hplain "as before" (by decide)) (.own (.own (.own (.own .nil))))))))))

end WrittenRecord

end Dataset

end PlainSteps
