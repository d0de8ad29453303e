import Mathlib.Data.List.Nodup
import Mathlib.Data.List.Sort
import PlainSteps.Generator
import PlainSteps.Proofs.Facts.Credentials
import PlainSteps.Proofs.Intent.Clauses

/-! # Fields of a form

The fields of a form are looked for label by label. So they are found in the order of the labels,
and only those with one label in the order of the text; their positions put them in order again. For
this to give back the fields that were written, a search must stop at the fields with its own label
and nowhere else. The search for a label passes a piece that neither has the label in it nor ends
with the beginning of one, and the labels of the shipped configuration are such that all other
fields are passed, as long as no label occurs in a value.
-/

namespace PlainSteps.Facts

open Pattern

/-- The pieces that may stand between a label and its value. -/
def joints : List Text := [": ", " = ", " as ", " "]

/-- A field as a text writes it: a label of the shipped configuration in any case, and a value
between quotes in which no label occurs. Letters are compared as patterns compare them. -/
structure WrittenField where
  label : Text
  element : Text
  known : (label, element) ∈ Config.Shipped.formFields
  written : Text
  spelled : written.map Text.fold = label.map Text.fold
  joint : Text
  joins : joint ∈ joints
  value : Text
  unquoted : '"' ∉ value
  silent : ∀ known ∈ Config.Shipped.formFields, ¬ known.1.map Text.fold <:+: value.map Text.fold

/-! ### One field -/

section Field

variable {α : Type} {g : Captures} {k : Spot → Captures → Option α} {r : α} {previous : Option Char}

/-- What may stand between a label and a pattern behind it. -/
def behindJoint (a : Pattern) : Pattern :=
  seq [many Text.isBlank, maybe (choice [one isAssign, wordOf (letters "as")]),
    many Text.isBlank, a]

/-- A joint is made of blanks, with a sign of assignment or, apart from the label, the word "as"
among them. -/
inductive IsJoint : Text → Prop
  | blanks {gap : Text} (all : ∀ c ∈ gap, Text.isBlank c = true) : IsJoint gap
  | sign {gap after : Text} {mark : Char} (blanks : ∀ c ∈ gap, Text.isBlank c = true)
      (assigns : isAssign mark = true)
      (behind : ∀ c ∈ after, Text.isBlank c = true) : IsJoint (gap ++ mark :: after)
  | word {gap written after : Text} (apart : gap ≠ []) (blanks : ∀ c ∈ gap, Text.isBlank c = true)
      (spelled : written.map Text.fold = "as".toList.map Text.fold)
      (behind : ∀ c ∈ after, Text.isBlank c = true) :
      IsJoint (gap ++ (written ++ after))

theorem isJoint_of_mem {joint : Text} (h : joint ∈ joints) : IsJoint joint := by
  have hblank : ∀ c ∈ ([' '] : Text), Text.isBlank c = true :=
    List.forall_mem_singleton.mpr (by decide)
  simp only [joints, List.mem_cons, List.not_mem_nil, or_false] at h
  rcases h with rfl | rfl | rfl | rfl
  · exact @IsJoint.sign [] [' '] ':' nofun (by decide) hblank
  · exact @IsJoint.sign [' '] [' '] '=' hblank (by decide) hblank
  · exact @IsJoint.word [' '] "as" [' '] (List.cons_ne_nil _ _) hblank rfl hblank
  · exact .blanks hblank

theorem isLabel_as : IsLabel "as" := ⟨'a', "s".toList, rfl, by decide⟩

/-- A character of a word is neither blank nor a sign of assignment. -/
theorem plain_of_isWord {c : Char} (h : Text.isWord c = true) :
    Text.isBlank c = false ∧ isAssign c = false := by
  refine ⟨?_, ?_⟩
  · by_contra hblank
    rw [Text.isWord_of_isBlank (by simpa using hblank)] at h
    cases h
  · by_contra hassign
    simp only [isAssign, Bool.not_eq_false, Bool.or_eq_true, beq_iff_eq] at hassign
    rcases hassign with rfl | rfl
    · exact absurd h (by decide)
    · exact absurd h (by decide)

/-- In front of a quote there is neither a sign of assignment nor the word "as". -/
theorem run_choice_quote (rest : Text) :
    run (choice [one isAssign, wordOf (letters "as")]) ⟨previous, '"' :: rest⟩ g k = none := by
  by_contra hsome
  obtain ⟨r, hr⟩ := Option.ne_none_iff_exists'.mp hsome
  obtain ⟨a, ha, hr⟩ := run_choice_taken hr
  rcases List.mem_cons.mp ha with rfl | ha
  · obtain ⟨c, cs, heq, hc, -⟩ := run_one_taken hr
    cases heq
    cases hc
  · obtain rfl := List.mem_singleton.mp ha
    obtain ⟨written, behind, hrest, hwritten, -⟩ := run_edge_letters_taken hr
    obtain ⟨c, cs, rfl, hc, -⟩ := List.map_eq_cons_iff.mp hwritten
    cases hrest
    exact absurd hc (by decide)

/-- Behind a word its edge is found where none goes on. -/
theorem run_edge_behind_word {s : Spot} (hprevious : s.previous.any Text.isWord = true)
    (hnext : OutsideWord s.rest.head?) :
    run (edge true) s g k = k s g := by
  have hsome : s.previous.isNone = false := by
    cases hp : s.previous with
    | none =>
      rw [hp] at hprevious
      cases hprevious
    | some c => rfl
  rw [run, Spot.isEdge, hprevious, hnext, hsome]
  rfl

/-- Between the edges of words the word "as" is read in any case. -/
theorem run_choice_as {written behind : Text}
    (hspelled : written.map Text.fold = "as".toList.map Text.fold)
    (hprevious : OutsideWord previous) (hbehind : OutsideWord behind.head?)
    (h : k ⟨lastOf previous written, behind⟩ g = some r) :
    run (choice [one isAssign, wordOf (letters "as")]) ⟨previous, written ++ behind⟩ g k =
      some r := by
  have hword := isLabel_as.isWord_written hspelled behind
  have hunassigned : run (one isAssign) ⟨previous, written ++ behind⟩ g k = none := by
    rw [run]
    cases hhead : written ++ behind with
    | nil => rfl
    | cons c cs =>
      rw [hhead] at hword
      exact if_neg (by simp [(plain_of_isWord hword).2])
  have hends : (lastOf previous written).any Text.isWord = true := by
    obtain ⟨c, cs, rfl, -, hcs⟩ := List.map_eq_cons_iff.mp hspelled
    obtain ⟨d, ds, rfl, hd, hds⟩ := List.map_eq_cons_iff.mp hcs
    obtain rfl := List.map_eq_nil_iff.mp hds
    exact Text.isWord_of_fold (by decide) hd
  rw [run_choice_cons_of_eq_none [] hunassigned]
  show run (seq [edge true, letters "as", edge true]) _ g _ = _
  rw [isLabel_as.run_edge_letters hspelled hprevious]
  show run (edge true) _ g _ = _
  rw [run_edge_behind_word hends hbehind]
  exact h

/-- A joint is read up to the quote behind it. -/
theorem run_behindJoint {joint rest : Text} (hjoint : IsJoint joint) {a : Pattern}
    (h : ∀ previous, run a ⟨previous, '"' :: rest⟩ g k = some r) :
    run (behindJoint a) ⟨previous, joint ++ '"' :: rest⟩ g k = some r := by
  have hquote : ∀ c ∈ ('"' :: rest).head?, Text.isBlank c = false := forall_head_cons (by decide) _
  have hlast : ∀ {after : Text}, (∀ c ∈ after, Text.isBlank c = true) → ∀ previous,
      run (seq [many Text.isBlank, a]) ⟨previous, after ++ '"' :: rest⟩ g k = some r := by
    intro after hafter previous
    rw [run_seq_cons]
    exact run_many_append after hafter hquote (h _)
  rw [behindJoint, run_seq_cons]
  cases hjoint with
  | blanks hall =>
    refine run_many_append joint hall hquote ?_
    rw [run_seq_cons, run_maybe_of_eq_none (run_choice_quote rest)]
    exact @hlast [] nofun _
  | @sign gap after mark hblanks hassigns hbehind =>
    have hnext : ∀ c ∈ (mark :: (after ++ '"' :: rest)).head?, Text.isBlank c = false :=
      forall_head_cons (not_isBlank_of_isAssign hassigns) _
    rw [List.append_assoc, List.cons_append]
    refine run_many_append gap hblanks hnext ?_
    rw [run_seq_cons, maybe]
    refine run_choice_cons_of_eq_some [empty] (run_choice_cons_of_eq_some _ ?_)
    rw [run_one_cons hassigns]
    exact hlast hbehind _
  | @word gap written after hapart hblanks hspelled hbehind =>
    have hnext : ∀ c ∈ (written ++ (after ++ '"' :: rest)).head?, Text.isBlank c = false := by
      intro c hc
      have hword := isLabel_as.isWord_written hspelled (after ++ '"' :: rest)
      rw [hc] at hword
      exact (plain_of_isWord hword).1
    -- blanks set the word off in front, and blanks or the quote behind it
    have houtside : OutsideWord (lastOf previous gap) := by
      rw [lastOf_eq, Option.or_of_isSome (by simpa using hapart)]
      exact outsideWord_of_forall (fun _ => Text.isWord_of_isBlank) fun c hc =>
        hblanks c (List.mem_of_getLast? hc)
    have hbehindWord : OutsideWord (after ++ '"' :: rest).head? := by
      cases after with
      | nil => rfl
      | cons c cs => exact Text.isWord_of_isBlank (hbehind c (.head _))
    rw [List.append_assoc, List.append_assoc]
    refine run_many_append gap hblanks hnext ?_
    rw [run_seq_cons, maybe]
    exact run_choice_cons_of_eq_some [empty]
      (run_choice_as hspelled houtside hbehindWord (hlast hbehind _))

/-- Where no word comes before, a field with a label in any case is read up to the quote that ends
its value. -/
theorem fieldOf_matchAt {label written joint value : Text} (hlabel : IsLabel label)
    (hwritten : written.map Text.fold = label.map Text.fold) (hjoint : IsJoint joint)
    (hvalue : '"' ∉ value)
    (hprevious : OutsideWord previous) (rest : Text) :
    (fieldOf label).matchAt ⟨previous, written ++ (joint ++ '"' :: (value ++ '"' :: rest))⟩ =
      some ([(1, value)], rest) := by
  unfold fieldOf matchAt
  rw [hlabel.run_edge_letters hwritten hprevious]
  exact run_behindJoint hjoint fun _ => run_between hvalue rest rfl

/-- Every field begins with its label. -/
theorem fieldOf_nil {label : Text} (hlabel : IsLabel label) :
    (fieldOf label).findFrom previous [] = none := by
  obtain ⟨c, cs, rfl, -⟩ := hlabel
  rw [findFrom, Option.map_eq_none_iff]
  by_contra hsome
  obtain ⟨m, hm⟩ := Option.ne_none_iff_exists'.mp hsome
  obtain ⟨written, rest, hnil, hwritten, -⟩ := run_edge_letters_taken hm
  obtain ⟨rfl, -⟩ := List.append_eq_nil_iff.mp hnil.symm
  cases hwritten

end Field

/-! ### The labels of the shipped configuration -/

section Labels

variable {known other : Text × Text}

theorem isLabel_of_known (h : known ∈ Config.Shipped.formFields) : IsLabel known.1 := by
  have hall : ∀ known ∈ Config.Shipped.formFields,
    (known.1.head?.any fun c => Text.IsOwnLetter c) = true := by decide
  have hfirst := hall known h
  cases hlabel : known.1 with
  | nil =>
    rw [hlabel] at hfirst
    cases hfirst
  | cons c cs =>
    rw [hlabel] at hfirst
    exact ⟨c, cs, rfl, of_decide_eq_true hfirst⟩

theorem quote_not_mem_known (h : known ∈ Config.Shipped.formFields) :
    '"' ∉ known.1.map Text.fold := by
  revert known
  decide

theorem known_unique (h : known ∈ Config.Shipped.formFields)
    (hother : other ∈ Config.Shipped.formFields) (heq : known.1 = other.1) : known.2 = other.2 := by
  have hall : ∀ known ∈ Config.Shipped.formFields, ∀ other ∈ Config.Shipped.formFields,
    known.1 = other.1 →
      known.2 = other.2 := by
    decide
  exact hall known h other hother heq

/-- The words between fields show no label. -/
theorem clear_words (h : known ∈ Config.Shipped.formFields) :
    Clear known.1 "Enter " ∧ Clear known.1 " and " := by
  revert known
  decide +kernel

/-- A label shows no other one, and none begins at its end. -/
theorem clear_other (h : known ∈ Config.Shipped.formFields)
    (hother : other ∈ Config.Shipped.formFields) (hne : other.1 ≠ known.1) {joint : Text}
    (hjoint : joint ∈ joints) :
    Clear known.1 (other.1 ++ (joint ++ ['"'])) := by
  have hall : ∀ known ∈ Config.Shipped.formFields, ∀ other ∈ Config.Shipped.formFields,
    other.1 ≠ known.1 →
      ∀ joint ∈ joints, Clear known.1 (other.1 ++ (joint ++ ['"'])) := by
    decide +kernel
  exact hall known h other hother hne joint hjoint

end Labels

namespace WrittenField

/-- A field as it stands in a text. -/
def text (w : WrittenField) : Text := w.written ++ (w.joint ++ '"' :: (w.value ++ ['"']))

/-- The field that is written. -/
def field (w : WrittenField) : FormField := ⟨w.label, w.element, w.value⟩

variable {known : Text × Text}

/-- No label shows in a value, and none begins at its end, since a quote comes behind it. -/
theorem clear_value (w : WrittenField) (h : known ∈ Config.Shipped.formFields) :
    Clear known.1 (w.value ++ ['"']) := by
  have hmark : Text.IsMark '"' := by decide
  have hquote := quote_not_mem_known h
  intro ahead hahead hne
  rw [List.map_append, List.map_singleton, hmark.fold_eq, List.mem_tails] at hahead
  obtain rfl | ⟨own, rfl, hown⟩ := List.suffix_concat_iff.mp hahead
  · exact absurd rfl hne
  refine ⟨fun hbegins => hquote (hbegins.subset (by simp)), fun hwhole => ?_⟩
  rcases List.prefix_concat_iff.mp hwhole with heq | hwithin
  · exact hquote (heq ▸ by simp)
  · exact w.silent known h (hwithin.isInfix.trans hown.isInfix)

/-- A field shows no label but its own. -/
theorem clear_text (w : WrittenField) (h : known ∈ Config.Shipped.formFields)
    (hne : w.label ≠ known.1) :
    Clear known.1 w.text := by
  have hfront : Clear known.1 (w.written ++ (w.joint ++ ['"'])) := by
    have hsame : (w.written ++ (w.joint ++ ['"'])).map Text.fold =
        (w.label ++ (w.joint ++ ['"'])).map Text.fold := by
      simp only [List.map_append, w.spelled]
    exact (clear_congr hsame).mpr (clear_other h w.known hne w.joins)
  have hparts : w.text = (w.written ++ (w.joint ++ ['"'])) ++ (w.value ++ ['"']) := by simp [text]
  rw [hparts]
  exact hfront.append (w.clear_value h)

/-- Where no word comes before, a field is read with its own label. -/
theorem matchAt_text (w : WrittenField) {previous : Option Char} (hprevious : OutsideWord previous)
    (rest : Text) :
    (fieldOf w.label).matchAt ⟨previous, w.text ++ rest⟩ = some ([(1, w.value)], rest) := by
  have hread := fieldOf_matchAt (isLabel_of_known w.known) w.spelled
    (isJoint_of_mem w.joins) w.unquoted hprevious rest
  simpa [text] using hread

theorem text_ne_nil (w : WrittenField) : w.text ≠ [] := by simp [text]

end WrittenField

/-! ### A sentence of fields -/

/-- Fields with words between them. -/
def listing (fields : List WrittenField) : Text := Text.joinWith " and " (fields.map (·.text))

/-- A sentence that gives the values of fields. -/
def formPrompt (fields : List WrittenField) : Text := "Enter ".toList ++ listing fields

/-- The words in front of the fields that are left. -/
def lead : List WrittenField → Text
  | [] => []
  | _ :: _ => " and "

/-- The fields with their positions, when the first one has a given one. -/
def placed : Nat → List WrittenField → List (Nat × FormField)
  | _, [] => []
  | n, w :: ws => (n, w.field) :: placed (n + w.text.length + (lead ws).length) ws

/-- The fields of a sentence with their positions. -/
def positions (fields : List WrittenField) : List (Nat × FormField) :=
  placed "Enter ".toList.length fields

theorem listing_cons (w : WrittenField) (ws : List WrittenField) :
    listing (w :: ws) = w.text ++ (lead ws ++ listing ws) := by
  cases ws with
  | nil => simp [listing, lead, Text.joinWith]
  | cons v vs => simp [listing, lead, Text.joinWith]

theorem placed_map (n : Nat) (ws : List WrittenField) :
    (placed n ws).map (·.2) = ws.map (·.field) := by
  induction ws generalizing n with
  | nil => rfl
  | cons w ws ih => rw [placed, List.map_cons, ih, List.map_cons]

theorem le_of_mem_placed {ws : List WrittenField} : ∀ {n : Nat}, ∀ a ∈ placed n ws, n ≤ a.1 := by
  induction ws with
  | nil => exact nofun
  | cons w ws ih =>
    intro n a ha
    rcases List.mem_cons.mp ha with rfl | ha
    · exact le_rfl
    · have hlater := ih a ha
      omega

theorem placed_pairwise (n : Nat) (ws : List WrittenField) :
    (placed n ws).Pairwise fun a b => a.1 < b.1 := by
  induction ws generalizing n with
  | nil => exact .nil
  | cons w ws ih =>
    refine .cons (fun a ha => ?_) (ih _)
    have hlater := le_of_mem_placed a ha
    have hpos := List.length_pos_iff.mpr w.text_ne_nil
    dsimp only
    omega

section Search

variable {known : Text × Text}

theorem clear_lead (h : known ∈ Config.Shipped.formFields) (ws : List WrittenField) :
    Clear known.1 (lead ws) := by
  cases ws with
  | nil =>
    intro ahead hahead hne
    exact absurd (by simpa [lead] using hahead) hne
  | cons w ws => exact (clear_words h).2

theorem outsideWord_lead {ws : List WrittenField} (h : ws ≠ []) (previous : Option Char) :
    OutsideWord (lastOf previous (lead ws)) := by
  obtain ⟨w, vs, rfl⟩ := List.exists_cons_of_ne_nil h
  show OutsideWord (some ' ')
  decide

theorem passes_of_clear {label front : Text} (h : Clear label front) (previous : Option Char)
    (rest : Text) :
    (fieldOf label).Passes previous front rest :=
  h.passes _ _ _

/-- **The matches of a label are its own fields**, each at its position. The front is what the
search has passed since its last match. -/
theorem exists_course (h : known ∈ Config.Shipped.formFields) (ws : List WrittenField) :
    ∀ (front : Text) (previous : Option Char), Clear known.1 front →
      (ws ≠ [] → OutsideWord (lastOf previous front)) →
      ∃ found, Course (fieldOf known.1) previous (front ++ listing ws) found ∧
        ∀ n, (startsFrom n found).map (fun p => (p.1, FormField.mk known.1 known.2 (p.2.group 1))) =
          (placed (n + front.length) ws).filter (·.2.label == known.1) := by
  induction ws with
  | nil =>
    intro front previous hfront _
    have hnone : (fieldOf known.1).findFrom previous (front ++ listing []) = none := by
      show (fieldOf known.1).findFrom previous (front ++ []) = none
      rw [(passes_of_clear hfront _ _).findFrom_append, fieldOf_nil (isLabel_of_known h)]
      rfl
    exact ⟨[], .done hnone, fun _ => rfl⟩
  | cons w ws ih =>
    intro front previous hfront hprevious
    rw [listing_cons]
    by_cases hown : w.label = known.1
    · -- its own field is a match, and the search begins anew behind it
      obtain ⟨found, hcourse, hplaces⟩ := ih (lead ws) w.text.getLast? (clear_lead h ws) fun hne =>
        outsideWord_lead hne _
      have hmatch := w.matchAt_text (hprevious (List.cons_ne_nil w ws)) (lead ws ++ listing ws)
      rw [hown] at hmatch
      refine ⟨⟨front, w.text, [(1, w.value)], lead ws ++ listing ws⟩ :: found, ?_, fun n => ?_⟩
      · exact .next ((passes_of_clear hfront _ _).findFrom_of_matchAt hmatch) w.text_ne_nil hcourse
      · have helement : known.2 = w.element := known_unique h w.known hown.symm
        rw [placed, List.filter_cons_of_pos (by simpa [WrittenField.field] using hown),
          startsFrom, List.map_cons, hplaces, WrittenField.field, hown, helement]
        rfl
    · -- another field is passed like the front before it
      have hpassed : Clear known.1 (front ++ (w.text ++ lead ws)) :=
        hfront.append ((w.clear_text h hown).append (clear_lead h ws))
      obtain ⟨found, hcourse, hplaces⟩ :=
        ih (front ++ (w.text ++ lead ws)) previous hpassed fun hne => by
        rw [lastOf_append, lastOf_append]
        exact outsideWord_lead hne _
      refine ⟨found, by simpa using hcourse, fun n => ?_⟩
      rw [placed, List.filter_cons_of_neg (by simpa [WrittenField.field] using hown), hplaces]
      simp [Nat.add_assoc]

theorem fieldsOf_formPrompt (h : known ∈ Config.Shipped.formFields) (ws : List WrittenField) :
    fieldsOf (formPrompt ws) known.1 known.2 = (positions ws).filter (·.2.label == known.1) := by
  have houtside : OutsideWord (lastOf none "Enter ".toList) := by decide
  obtain ⟨found, hcourse, hplaces⟩ := exists_course h ws "Enter " none (clear_words h).1 fun _ =>
    houtside
  unfold fieldsOf formPrompt
  rw [hcourse.findAll_eq, withStarts_eq]
  have hfound := hplaces 0
  rwa [Nat.zero_add] at hfound

end Search

/-! ### All fields in order -/

/-- A list is put together again from its parts by keys that come once each. -/
theorem flatMap_filter_perm {α β : Type} [BEq β] [LawfulBEq β] (key : α → β) (xs : List α)
    {keys : List β} (hnodup : keys.Nodup) :
    (keys.flatMap fun b => xs.filter (key · == b)).Perm
      (xs.filter fun x => keys.contains (key x)) := by
  induction keys with
  | nil => simp
  | cons b keys ih =>
    obtain ⟨hb, hkeys⟩ := List.nodup_cons.mp hnodup
    have hparts :=
      List.filter_append_perm (key · == b) (xs.filter fun x => (b :: keys).contains (key x))
    rw [List.filter_filter, List.filter_filter] at hparts
    have hfirst : xs.filter (fun x => key x == b && (b :: keys).contains (key x)) =
        xs.filter (key · == b) := by
      refine List.filter_congr fun x _ => ?_
      by_cases hx : key x = b
      · simp [hx]
      · simp [hx]
    have hrest : xs.filter (fun x => !(key x == b) && (b :: keys).contains (key x)) =
        xs.filter fun x => keys.contains (key x) := by
      refine List.filter_congr fun x _ => ?_
      by_cases hx : key x = b
      · simp [hx, hb]
      · simp [hx]
    rw [hfirst, hrest] at hparts
    exact ((ih hkeys).append_left _).trans hparts

/-- The fields found for all labels are those that were written. -/
theorem found_perm (ws : List WrittenField) :
    (Config.Shipped.formFields.flatMap fun known => fieldsOf (formPrompt ws) known.1 known.2).Perm
      (positions ws) := by
  have hfound :
    (Config.Shipped.formFields.flatMap fun known => fieldsOf (formPrompt ws) known.1 known.2) =
      (Config.Shipped.formFields.map (·.1)).flatMap fun label =>
        (positions ws).filter (·.2.label == label) := by
    rw [List.flatMap_map]
    exact List.flatMap_congr fun known h => fieldsOf_formPrompt h ws
  have hall :
      (positions ws).filter (fun a => (Config.Shipped.formFields.map (·.1)).contains a.2.label) =
        positions ws := by
    refine List.filter_eq_self.mpr fun a ha => List.contains_iff_mem.mpr ?_
    have hfield : a.2 ∈ ws.map (·.field) := placed_map _ ws ▸ List.mem_map_of_mem ha
    obtain ⟨w, -, hw⟩ := List.mem_map.mp hfield
    rw [← hw]
    exact List.mem_map_of_mem w.known
  have hnodup : (Config.Shipped.formFields.map (·.1)).Nodup := by decide
  have hparts := flatMap_filter_perm (fun a : Nat × FormField => a.2.label) (positions ws) hnodup
  rwa [hall, ← hfound] at hparts

/-- Sorting by position puts them in the order of the sentence. -/
theorem mergeSort_found {found : List (Nat × FormField)} {n : Nat} {ws : List WrittenField}
    (h : found.Perm (placed n ws)) : (found.mergeSort fun a b => a.1 ≤ b.1) = placed n ws := by
  have hsorted := List.pairwise_mergeSort' (fun a b : Nat × FormField => a.1 ≤ b.1) found
  have hplaced : (placed n ws).Pairwise fun a b => a.1 ≤ b.1 :=
    (placed_pairwise n ws).imp Nat.le_of_lt
  refine List.Perm.eq_of_pairwise (fun a b ha hb hab hba => ?_) hsorted
    hplaced ((List.mergeSort_perm _ _).trans h)
  -- two fields do not stand at one position
  have hin : a ∈ placed n ws := h.subset (List.mem_mergeSort.mp ha)
  have hsame : a.1 = b.1 := Nat.le_antisymm hab hba
  have hdistinct : ((placed n ws).map Prod.fst).Nodup :=
    List.pairwise_map.mpr ((placed_pairwise n ws).imp Nat.ne_of_lt)
  exact List.inj_on_of_nodup_map hdistinct hin hb hsame

/-- **The fields of a sentence are read back as they were written, in their order**, and each is
filled in once. -/
theorem formFields_formPrompt {config : Config}
    (hconfig : config.formFields = Config.Shipped.formFields) (ws : List WrittenField) :
    formFields config (formPrompt ws) = ws.map (·.field) ∧
      ∃ findings, Rule.fillForm.findings config (formPrompt ws) = .ok findings ∧
        ∀ number, Generator.form number findings = ws.map fun w =>
          Action.fill w.element w.value (Generator.step number ("Enter ".toList ++ w.label)) := by
  have hfields : formFields config (formPrompt ws) = ws.map (·.field) := by
    unfold formFields
    rw [hconfig]
    dsimp only
    rw [mergeSort_found (found_perm ws), placed_map]
  refine ⟨hfields, _, rfl, fun number => ?_⟩
  unfold Generator.form
  dsimp only
  rw [hfields]
  simp only [List.map_map, List.zip_map', Function.comp_def, WrittenField.field]

/-- A label that comes again in another case, an empty value, and values with the words between
fields and a line feed in them. -/
def repeatedLabel : List WrittenField :=
  [{ label := "first name", element := "first name input field", known := by decide,
     written := "First Name", spelled := by decide, joint := ": ", joins := by decide,
     value := "Ann and = B", unquoted := by decide, silent := by decide +kernel },
   { label := "email", element := "email input field", known := by decide, written := "EMAIL",
     spelled := by decide, joint := " as ", joins := by decide, value := [], unquoted := by decide,
     silent := by decide +kernel },
   { label := "first name", element := "first name input field", known := by decide,
     written := "first name", spelled := by decide, joint := " ", joins := by decide,
     value := "a\nb", unquoted := by decide, silent := by decide +kernel }]

theorem formFields_repeatedLabel :
    formPrompt repeatedLabel =
      "Enter First Name: \"Ann and = B\" and EMAIL as \"\" and first name \"a\nb\"".toList ∧
      formFields Config.shipped (formPrompt repeatedLabel) =
        [⟨"first name", "first name input field", "Ann and = B"⟩,
          ⟨"email", "email input field", []⟩, ⟨"first name", "first name input field", "a\nb"⟩] :=
  ⟨rfl, (formFields_formPrompt rfl repeatedLabel).1⟩

end PlainSteps.Facts
