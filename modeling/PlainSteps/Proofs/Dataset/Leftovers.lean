import PlainSteps.Proofs.Dataset.BlockScan

/-! # What incomplete records leave

A row is taken as soon as its three parts are there, whatever records they come from. So whether the
rows of a text are its complete records depends on what the incomplete ones leave:

* a user name never lasts, since each record begins with its own;
* a password is replaced by the next one, so it is taken only if a record with an expected text and
  no password comes before the next complete record;
* an expected text is replaced by the next one too, but the password of a record stands before its
  expected text, so the first password behind it takes it.

`Tidy` says that nothing that is left is taken. A step over one record either keeps to that, and
gives at most the record's own row, or takes what was left and gives a row of two records
(`Leftover.groups_entries`); so a text of records gives its complete records and no others exactly
when the records are tidy.
-/

namespace PlainSteps.Dataset

/-- What is left for the next row, besides a user name. -/
inductive Leftover where
  | nothing
  | password
  | expected
  deriving DecidableEq, Repr

namespace BlockRecord

/-- What a record leaves when nothing was left before it. -/
def leaves (r : BlockRecord) : Leftover :=
  match r.password, r.expected with
  | some _, none => .password
  | none, some _ => .expected
  | _, _ => .nothing

end BlockRecord

namespace Leftover

/-- What is left goes into no row of the records behind it. -/
def IsLost : Leftover → List BlockRecord → Prop
  | nothing, _ => True
  | password, rest => ∀ s ∈ rest.takeWhile (fun s => !s.isComplete), s.leaves ≠ expected
  | expected, rest => ∀ s ∈ rest, s.password = none

/-- What is left behind a further record, unless that takes what was left before it. -/
def next (left : Leftover) (r : BlockRecord) : Option Leftover :=
  match r.password, r.expected with
  | none, none => some left
  | some _, none => if left = expected then none else some password
  | none, some _ => if left = password then none else some expected
  | some _, some _ => if left = expected then none else some nothing

end Leftover

namespace BlockRecord

/-- What a record leaves is lost among those behind it. -/
def Tidy : List BlockRecord → Prop
  | [] => True
  | r :: rest => r.leaves.IsLost rest ∧ Tidy rest

/-- The rows that a record at a place gives by itself. -/
def ownGroups (place : Nat) (r : BlockRecord) : List (List Entry) :=
  if r.isComplete then [r.entries place] else []

end BlockRecord

namespace Leftover

open BlockRecord Entry

variable {left : Leftover} {place : Nat} {current : List Entry} {u v w : Text}

/-! ### One record -/

/-- The entries that are there before a record, by what is left: all but the user name come from an
earlier place. -/
inductive Holds (place : Nat) : List Entry → Leftover → Prop where
  | empty : Holds place [] nothing
  | username (u : Text) (i : Nat) : Holds place [⟨.username, u, i⟩] nothing
  | password (u : Text) (i : Nat) (v : Text) {j : Nat} (before : j < place) :
      Holds place [⟨.username, u, i⟩, ⟨.password, v, j⟩] password
  | expected (u : Text) (i : Nat) (w : Text) {j : Nat} (before : j < place) :
      Holds place [⟨.username, u, i⟩, ⟨.expected, w, j⟩] expected

/-- A user name alone changes nothing else. -/
theorem Holds.add_username (h : Holds place current left) :
    ∃ current', Holds (place + 1) current' left ∧
    ∀ later, groups current (⟨.username, u, place⟩ :: later) = groups current' later := by
  cases h with
  | empty => exact ⟨_, .username u place, fun _ => rfl⟩
  | username => exact ⟨_, .username u place, fun _ => rfl⟩
  | password _ _ v before => exact ⟨_, .password u place v (Nat.lt_succ_of_lt before), fun _ => rfl⟩
  | expected _ _ w before => exact ⟨_, .expected u place w (Nat.lt_succ_of_lt before), fun _ => rfl⟩

/-- A password stays, if no expected text is left. -/
theorem Holds.add_password (h : Holds place current left) (hleft : left ≠ .expected) :
    ∃ current', Holds (place + 1) current' .password ∧
      ∀ later, groups current (⟨.username, u, place⟩ :: ⟨.password, v, place⟩ :: later) =
        groups current' later := by
  refine ⟨_, .password u place v (Nat.lt_succ_self place), fun _ => ?_⟩
  cases h with
  | empty => rfl
  | username => rfl
  | password => rfl
  | expected => exact absurd rfl hleft

/-- An expected text stays, if no password is left. -/
theorem Holds.add_expected (h : Holds place current left) (hleft : left ≠ .password) :
    ∃ current', Holds (place + 1) current' .expected ∧
      ∀ later, groups current (⟨.username, u, place⟩ :: ⟨.expected, w, place⟩ :: later) =
        groups current' later := by
  refine ⟨_, .expected u place w (Nat.lt_succ_self place), fun _ => ?_⟩
  cases h with
  | empty => rfl
  | username => rfl
  | password => exact absurd rfl hleft
  | expected => rfl

/-- A complete record is a row, if no expected text is left. -/
theorem Holds.add_complete (h : Holds place current left) (hleft : left ≠ .expected)
    (later : List Entry) :
    groups current (⟨.username, u, place⟩ :: ⟨.password, v, place⟩ ::
      ⟨.expected, w, place⟩ :: later) =
      [⟨.username, u, place⟩, ⟨.password, v, place⟩, ⟨.expected, w, place⟩] :: groups [] later := by
  cases h with
  | empty => rfl
  | username => rfl
  | password => rfl
  | expected => exact absurd rfl hleft

/-- A password takes the expected text that is left. -/
theorem Holds.take_expected (h : Holds place current .expected) (later : List Entry) :
    ∃ row ∈ groups current (⟨.username, u, place⟩ :: ⟨.password, v, place⟩ :: later),
      IsMixed row := by
  cases h with
  | @expected _ i w j before =>
    refine ⟨[⟨.username, u, place⟩, ⟨.expected, w, j⟩, ⟨.password, v, place⟩], .head _, ?_⟩
    exact ⟨_, .head _, _, .tail _ (.head _), Nat.ne_of_gt before⟩

/-- An expected text takes the password that is left. -/
theorem Holds.take_password (h : Holds place current .password) (later : List Entry) :
    ∃ row ∈ groups current (⟨.username, u, place⟩ :: ⟨.expected, w, place⟩ :: later),
      IsMixed row := by
  cases h with
  | @password _ i v j before =>
    refine ⟨[⟨.username, u, place⟩, ⟨.password, v, j⟩, ⟨.expected, w, place⟩], .head _, ?_⟩
    exact ⟨_, .head _, _, .tail _ (.head _), Nat.ne_of_gt before⟩

/-- **A record takes what is left and gives a row of two records, or gives its own row at most.** -/
theorem groups_entries (h : Holds place current left) (r : BlockRecord) (later : List Entry) :
    (left.next r = none ∧ ∃ row ∈ groups current (r.entries place ++ later), IsMixed row) ∨
    ∃ left' ∈ left.next r, ∃ current', Holds (place + 1) current' left' ∧
      groups current (r.entries place ++ later) = ownGroups place r ++ groups current' later := by
  have hentries : r.entries place = ⟨.username, r.username, place⟩ ::
      ((r.password.map (⟨.password, ·, place⟩)).toList ++
        (r.expected.map (⟨.expected, ·, place⟩)).toList) := by
    cases hpassword : r.password <;> cases hexpected : r.expected <;>
      simp [entries, Part.all, value?, hpassword, hexpected]
  unfold next ownGroups BlockRecord.isComplete
  rw [hentries]
  -- a part that is left over completes the record as soon as the other two are there
  cases r.password with
  | none =>
    cases r.expected with
    | none =>
      obtain ⟨current', hholds, hgroups⟩ := h.add_username
      exact .inr ⟨left, rfl, current', hholds, hgroups later⟩
    | some w =>
      by_cases hleft : left = .password
      · subst hleft
        exact .inl ⟨rfl, h.take_password later⟩
      · obtain ⟨current', hholds, hgroups⟩ := h.add_expected hleft
        exact .inr ⟨.expected, if_neg hleft, current', hholds, hgroups later⟩
  | some v =>
    by_cases hleft : left = .expected
    · subst hleft
      cases r.expected with
      | none => exact .inl ⟨rfl, h.take_expected later⟩
      | some w => exact .inl ⟨rfl, h.take_expected (_ :: later)⟩
    · cases r.expected with
      | none =>
        obtain ⟨current', hholds, hgroups⟩ := h.add_password hleft
        exact .inr ⟨.password, if_neg hleft, current', hholds, hgroups later⟩
      | some w => exact .inr ⟨.nothing, if_neg hleft, [], .empty, h.add_complete hleft later⟩

section Lost

variable {r : BlockRecord} {rest : List BlockRecord}

theorem isLost_password_cons : password.IsLost (r :: rest) ↔
    r.leaves ≠ expected ∧ (r.isComplete = false → password.IsLost rest) := by
  unfold IsLost
  cases hcomplete : r.isComplete with
  | false => simp [hcomplete]
  | true =>
    have hleaves : r.leaves ≠ expected := by
      unfold BlockRecord.isComplete at hcomplete
      unfold leaves
      split <;> simp_all
    simp [hcomplete, hleaves]

theorem isLost_expected_cons :
    expected.IsLost (r :: rest) ↔ r.password = none ∧ expected.IsLost rest :=
  List.forall_mem_cons

/-- What is left is lost if the next record does not take it and what is left then is lost. -/
theorem isLost_cons :
    left.IsLost (r :: rest) ∧ Tidy (r :: rest) ↔ ∃ left' ∈ left.next r,
      left'.IsLost rest ∧ Tidy rest := by
  have htidy : Tidy (r :: rest) ↔ r.leaves.IsLost rest ∧ Tidy rest := Iff.rfl
  rw [htidy]
  cases left with
  | nothing =>
    have hnext : nothing.next r = some r.leaves := by
      unfold next leaves
      cases r.password <;> cases r.expected <;> rfl
    simp [hnext, IsLost]
  | password =>
    rw [isLost_password_cons]
    unfold next leaves BlockRecord.isComplete
    cases r.password <;> cases r.expected <;> simp [IsLost]
  | expected =>
    rw [isLost_expected_cons]
    unfold next leaves
    cases r.password <;> cases r.expected <;> simp [IsLost]

end Lost

/-! ### All records -/

/-- **Records give their own rows if nothing that is left is taken, and else a row of two
records.** -/
theorem groups_entriesFrom (h : Holds place current left) (records : List BlockRecord) :
    ¬ (left.IsLost records ∧ Tidy records) ∧
    (∃ row ∈ groups current (entriesFrom place records), IsMixed row) ∨
    (left.IsLost records ∧ Tidy records) ∧
      groups current (entriesFrom place records) = (records.zipIdx place).flatMap fun (r, i) =>
        ownGroups i r := by
  induction records generalizing place current left with
  | nil =>
    refine .inr ⟨⟨?_, trivial⟩, rfl⟩
    cases left with
    | nothing => trivial
    | password => exact nofun
    | expected => exact nofun
  | cons r rest ih =>
    rw [entriesFrom_cons, isLost_cons]
    -- one record at a time; a row of two records is never taken back
    rcases groups_entries h r (entriesFrom (place + 1) rest) with ⟨hnext, hmixed⟩ |
      ⟨left', hnext, current', hholds, hgroups⟩
    · refine .inl ⟨?_, hmixed⟩
      rintro ⟨left', hleft', -⟩
      rw [hnext] at hleft'
      cases hleft'
    · rw [hgroups]
      rcases ih hholds with ⟨hlost, row, hrow, hmixed⟩ | ⟨hlost, hrest⟩
      · refine .inl ⟨?_, row, List.mem_append_right _ hrow, hmixed⟩
        rintro ⟨left'', hnext', hlost'⟩
        obtain rfl : left' = left'' := Option.some.inj (hnext.symm.trans hnext')
        exact hlost hlost'
      · refine .inr ⟨⟨left', hnext, hlost⟩, ?_⟩
        rw [hrest]
        rfl

end Leftover

namespace BlockRecord

open Entry

/-- A row that a record gives by itself is not mixed. -/
theorem not_isMixed_of_mem_ownGroups {place : Nat} {r : BlockRecord} {group : List Entry}
    (h : group ∈ ownGroups place r) : ¬ IsMixed group := by
  unfold ownGroups at h
  split at h
  · obtain rfl := List.mem_singleton.mp h
    rintro ⟨d, hd, e, he, hne⟩
    exact hne ((mem_entries hd).1.trans (mem_entries he).1.symm)
  · cases h

/-- The entries of a complete record are its row. -/
theorem row_entries {r : BlockRecord} (h : r.isComplete = true) (place : Nat) :
    Entry.row (r.entries place) = r.row := by
  obtain ⟨hpassword, hexpected⟩ := Bool.and_eq_true_iff.mp h
  obtain ⟨v, hv⟩ := Option.isSome_iff_exists.mp hpassword
  obtain ⟨w, hw⟩ := Option.isSome_iff_exists.mp hexpected
  have hentries : r.entries place =
      [⟨.username, r.username, place⟩, ⟨.password, v, place⟩, ⟨.expected, w, place⟩] := by
    simp [entries, Part.all, value?, hv, hw]
  have hrow : r.row = Row.ofTriple r.username v w := by
    rw [row, hv, hw]
    rfl
  rw [hentries, hrow]
  rfl

/-- The rows that records give by themselves are the complete records. -/
theorem map_row_ownGroups (place : Nat) (records : List BlockRecord) :
    ((records.zipIdx place).flatMap fun (r, i) => ownGroups i r).map Entry.row =
      (records.filter (·.isComplete)).map row := by
  induction records generalizing place with
  | nil => rfl
  | cons r rest ih =>
    rw [List.zipIdx_cons, List.flatMap_cons, List.map_append, ih]
    dsimp only
    unfold ownGroups
    by_cases hcomplete : r.isComplete = true
    · rw [List.filter_cons_of_pos hcomplete, if_pos hcomplete, List.map_cons, row_entries hcomplete]
      rfl
    · rw [List.filter_cons_of_neg hcomplete, if_neg hcomplete]
      rfl

/-- Only records that are tidy give no row of two records. -/
theorem not_isMixed_iff_tidy (records : List BlockRecord) :
    (∀ group ∈ gather records, ¬ IsMixed group) ↔ Tidy records := by
  rcases Leftover.groups_entriesFrom .empty records with ⟨huntidy, group, hgroup, hmixed⟩ |
    ⟨⟨-, htidy⟩, hgroups⟩
  · exact ⟨fun h => absurd hmixed (h group hgroup), fun htidy => absurd ⟨trivial, htidy⟩ huntidy⟩
  · refine ⟨fun _ => htidy, fun _ group hgroup => ?_⟩
    rw [gather, hgroups] at hgroup
    obtain ⟨⟨r, i⟩, -, hown⟩ := List.mem_flatMap.mp hgroup
    exact not_isMixed_of_mem_ownGroups hown

/-- Tidy records give the complete ones. -/
theorem map_row_gather {records : List BlockRecord} (h : Tidy records) :
    (gather records).map Entry.row = (records.filter (·.isComplete)).map row := by
  rcases Leftover.groups_entriesFrom .empty records with ⟨huntidy, -⟩ | ⟨-, hgroups⟩
  · exact absurd ⟨trivial, h⟩ huntidy
  · rw [gather, hgroups, map_row_ownGroups]

/-- **The rows of records in blocks.** Each row has each part once, with a value that one of the
records has for it. No row has values of two records exactly when the records are tidy, and then the
rows are the complete records. -/
theorem rows_of_prompt (records : List BlockRecord) :
    inlineRows (prompt records) = (gather records).map Entry.row ∧
    (∀ group ∈ gather records, (group.map (·.part)).Perm Part.all ∧
      ∀ e ∈ group, ∃ r, records[e.place]? = some r ∧ r.value? e.part = some e.value) ∧
    ((∀ group ∈ gather records, ¬ IsMixed group) ↔ Tidy records) ∧
    (Tidy records → inlineRows (prompt records) = (records.filter (·.isComplete)).map row) := by
  refine ⟨inlineRows_gathered records, fun group hgroup => ⟨?_, fun e he => ?_⟩,
    not_isMixed_iff_tidy records, fun htidy => ?_⟩
  · have hstart : (([] : List Entry).map (·.part)).Nodup := List.nodup_nil
    exact parts_of_mem_groups hstart hgroup
  · exact mem_entriesFrom ((mem_of_mem_groups hgroup he).resolve_left List.not_mem_nil)
  · rw [inlineRows_gathered, map_row_gather htidy]

/-- A complete record between incomplete ones. -/
def surrounded : List BlockRecord :=
  [ofPlain "a" (some "p") none (by decide),
    ofPlain "b" none none (by decide),
    ofPlain "c" (some "q") (some "x") (by decide),
    ofPlain "d" none (some "y") (by decide)]

theorem rows_of_surrounded :
    Tidy surrounded ∧ inlineRows (prompt surrounded) = [Row.ofTriple "c" "q" "x"] := by
  have htidy : Tidy surrounded := by
    refine ⟨?_, trivial, trivial, nofun, trivial⟩
    -- before the complete record only the user name alone has to be looked at
    show ∀ s ∈ [_], _
    exact List.forall_mem_singleton.mpr nofun
  exact ⟨htidy, (rows_of_prompt surrounded).2.2.2 htidy⟩

/-- A record without an expected text, and behind it one without a password. -/
def halves : List BlockRecord :=
  [ofPlain "a" (some "p") none (by decide),
    ofPlain "b" none (some "x") (by decide)]

/-- A user name is taken with the password of another record, where no record is complete. -/
theorem rows_of_halves : prompt halves = "Username: a\nPassword: p\n\nUsername: b\nExpected: x" ∧
    inlineRows (prompt halves) = [Row.ofTriple "b" "p" "x"] ∧
    (halves.filter (·.isComplete)).map row = [] := by
  refine ⟨rfl, ?_, rfl⟩
  rw [inlineRows_gathered]
  rfl

end BlockRecord

end PlainSteps.Dataset
