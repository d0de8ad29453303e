import Mathlib.Data.List.Pairwise
import PlainSteps.Proofs.Facts.FormFields
import PlainSteps.Proofs.Pattern.Pieces

/-! # The regions of fields

Each label is looked for in the whole text, whatever quotes are open there. A field is read where
its label stands, with a joint and a quoted value behind it. There are no quotes in front of the
value, so the next quote behind a place tells where the opening of a field ends, and none of the
known labels ends another one. So a field that is read further on cannot begin in the opening of
this one. It begins behind the quote that closes the value, or it begins in the value and has its
opening end there: then that quote is taken for the one that opens the other value
(`Place.behind_or_within`). Such a field is always found, since no earlier match of its label comes
so far (`formFields_regions`).
-/

namespace PlainSteps.Facts

open Pattern

/-! ### Where a field is read -/

section Reading

variable {α : Type} {g : Captures} {k : Spot → Captures → Option α} {r : α} {previous : Option Char}
  {label opening value t : Text}

/-- Behind a word, what is taken in front of a pattern is a joint. -/
theorem run_behindJoint_taken {a : Pattern} {s : Spot}
    (hprevious : s.previous.any Text.isWord = true) (h : run (behindJoint a) s g k = some r) :
    ∃ joint rest previous, s.rest = joint ++ rest ∧ IsJoint joint ∧
      run a ⟨previous, rest⟩ g k = some r := by
  rw [behindJoint, run_seq_cons] at h
  obtain ⟨gap, rest, hrest, hgap, h⟩ := runMany_taken h
  dsimp only at h
  rw [run_seq_cons] at h
  rcases run_alt_taken h with hchoice | hempty
  · obtain ⟨b, hb, hchoice⟩ := run_choice_taken hchoice
    rcases List.mem_cons.mp hb with rfl | hb
    · obtain ⟨mark, rest', rfl, hmark, hbehind⟩ := run_one_taken hchoice
      rw [run_seq_cons] at hbehind
      obtain ⟨after, last, rfl, hafter, hlast⟩ := runMany_taken hbehind
      exact ⟨gap ++ mark :: after, last, _, by rw [hrest]; simp, .sign hgap hmark hafter, hlast⟩
    · obtain rfl := List.mem_singleton.mp hb
      have houtside := isLabel_as.outsideWord hchoice
      -- a word comes before, so that another one begins only behind a blank
      have hapart : gap ≠ [] := by
        rintro rfl
        dsimp only [lastOf] at houtside
        rw [OutsideWord, hprevious] at houtside
        cases houtside
      obtain ⟨written, rest', rfl, hwritten, hbehind⟩ := run_edge_letters_taken hchoice
      replace hbehind : run (seq [many Text.isBlank, a]) _ g k = some r := run_edge_taken hbehind
      rw [run_seq_cons] at hbehind
      obtain ⟨after, last, rfl, hafter, hlast⟩ := runMany_taken hbehind
      exact ⟨gap ++ (written ++ after), last, _,
        by rw [hrest]; simp, .word hapart hgap hwritten hafter, hlast⟩
  · replace hempty : run (seq [many Text.isBlank, a]) _ g k = some r := hempty
    rw [run_seq_cons] at hempty
    obtain ⟨after, last, hlast, hafter, h⟩ := runMany_taken hempty
    dsimp only at hlast
    refine ⟨gap ++ after, last, _, by rw [hrest, hlast]; simp, .blanks fun c hc => ?_, h⟩
    exact (List.mem_append.mp hc).elim (hgap c) (hafter c)

/-- A label as a text writes it in front of a value between quotes. -/
structure Announces (label opening : Text) : Prop where
  parts : ∃ written joint, opening = written ++ joint ∧
    written.map Text.fold = label.map Text.fold ∧ IsJoint joint

/-- A label ends with a letter of ASCII that is not one of the word "as". -/
def EndsFirmly (label : Text) : Prop :=
  ∃ c ∈ label.getLast?, 97 ≤ c.toNat ∧ c.toNat ≤ 122 ∧ c ≠ 'a' ∧ c ≠ 's'

theorem EndsFirmly.exists_last (hend : EndsFirmly label) {written : Text}
    (hwritten : written.map Text.fold = label.map Text.fold) :
    ∃ c ∈ written.getLast?, Text.isWord c = true ∧ Text.fold c ≠ 'a' ∧ Text.fold c ≠ 's' := by
  obtain ⟨d, hd, hfirst, hlast, ha, hs⟩ := hend
  have hself : Text.fold d = d := by rw [Text.fold_ascii (by omega), if_neg (by omega)]
  have hends := congrArg List.getLast? hwritten
  rw [List.getLast?_map, List.getLast?_map, Option.mem_def.mp hd, Option.map_some, hself] at hends
  obtain ⟨c, hc, hfold⟩ := Option.map_eq_some_iff.mp hends
  exact ⟨c, hc, Text.isWord_of_fold ⟨hfirst, hlast⟩ hfold, by rwa [hfold], by rwa [hfold]⟩

/-- **At a place, a label gives exactly the values that stand between quotes behind it.** -/
theorem fieldOf_matchAt_iff (hlabel : IsLabel label) (hend : EndsFirmly label)
    {m : Captures × Text} :
    (fieldOf label).matchAt ⟨previous, t⟩ = some m ↔ OutsideWord previous ∧ ∃ opening value rest,
      t = opening ++ '"' :: (value ++ '"' :: rest) ∧ Announces label opening ∧ '"' ∉ value ∧
      m = ([(1, value)], rest) := by
  constructor
  · intro h
    have hquote : Text.IsMark '"' := by decide
    unfold fieldOf matchAt at h
    refine ⟨hlabel.outsideWord h, ?_⟩
    obtain ⟨written, rest, hrest, hwritten, hbehind⟩ := run_edge_letters_taken h
    -- the joint stands behind the last letter of the label
    have hword : (lastOf previous written).any Text.isWord = true := by
      obtain ⟨c, hc, hword, -⟩ := hend.exists_last hwritten
      rw [lastOf_eq, Option.mem_def.mp hc]
      exact hword
    obtain ⟨joint, rest', before, rfl, hjoint, hvalue⟩ :=
      run_behindJoint_taken (a := between '"' 1) hword hbehind
    obtain ⟨value, last, rfl, hinner, heq⟩ := run_between_taken hquote hvalue
    cases heq
    exact ⟨written ++ joint, value, last, by rw [← List.append_assoc] at hrest; exact hrest,
      ⟨written, joint, rfl, hwritten, hjoint⟩, hinner, rfl⟩
  · rintro ⟨hprevious, opening, value, rest, rfl, ⟨written, joint, rfl, hwritten, hjoint⟩, hinner,
      rfl⟩
    rw [List.append_assoc]
    exact fieldOf_matchAt hlabel hwritten hjoint hinner hprevious rest

end Reading

/-! ### Two openings -/

section Openings

variable {label other opening front : Text} {known known' : Text × Text}

theorem IsJoint.of_mem {joint : Text} (h : IsJoint joint) {c : Char} (hc : c ∈ joint) :
    Text.isBlank c = true ∨ isAssign c = true ∨ Text.fold c = 'a' ∨ Text.fold c = 's' := by
  cases h with
  | blanks hall => exact .inl (hall c hc)
  | @sign gap after mark hblanks hassigns hbehind =>
    rcases List.mem_append.mp hc with hc | hc
    · exact .inl (hblanks c hc)
    · rcases List.mem_cons.mp hc with rfl | hc
      · exact .inr (.inl hassigns)
      · exact .inl (hbehind c hc)
  | @word gap written after hapart hblanks hspelled hbehind =>
    rcases List.mem_append.mp hc with hc | hc
    · exact .inl (hblanks c hc)
    · rcases List.mem_append.mp hc with hc | hc
      · have hfold : Text.fold c ∈ "as".toList.map Text.fold := hspelled ▸ List.mem_map_of_mem hc
        have hself : "as".toList.map Text.fold = ['a', 's'] := by decide
        rw [hself] at hfold
        exact .inr (.inr (by simpa using hfold))
      · exact .inl (hbehind c hc)

theorem IsJoint.quote_not_mem {joint : Text} (h : IsJoint joint) : '"' ∉ joint := fun hin =>
  absurd (h.of_mem hin) (by decide)

/-- No piece of a joint ends with the last letter of a label. -/
theorem EndsFirmly.not_in_joint (hend : EndsFirmly label) {written joint own : Text}
    (hwritten : written.map Text.fold = label.map Text.fold) (hjoint : IsJoint joint)
    (hlast : own.getLast? = written.getLast?) : ¬ own ⊆ joint := by
  intro hsub
  obtain ⟨c, hc, hword, ha, hs⟩ := hend.exists_last hwritten
  rw [← hlast] at hc
  obtain ⟨hblank, hassign⟩ := plain_of_isWord hword
  rcases hjoint.of_mem (hsub (List.mem_of_getLast? hc)) with houtside | houtside | hfold | hfold
  · rw [hblank] at houtside
    cases houtside
  · rw [hassign] at houtside
    cases houtside
  · exact ha hfold
  · exact hs hfold

/-- Where one opening ends another one, its label ends that of the other. -/
theorem Announces.written_suffix (h : Announces label (front ++ opening))
    (h' : Announces other opening) (hend : EndsFirmly label) (hend' : EndsFirmly other) :
    label.map Text.fold = front.map Text.fold ++ other.map Text.fold := by
  obtain ⟨written, joint, hparts, hwritten, hjoint⟩ := h.parts
  obtain ⟨written', joint', rfl, hwritten', hjoint'⟩ := h'.parts
  rw [← hwritten, ← hwritten', ← List.map_append]
  congr 1
  rw [← List.append_assoc] at hparts
  -- what one of the joints has in front of the other would end with the last letter of a label
  rcases List.append_eq_append_iff.mp hparts with ⟨own, hown, hrest⟩ | ⟨own, hown, hrest⟩
  · by_cases hnil : own = []
    · rw [hown, hnil, List.append_nil]
    · refine absurd (hrest ▸ List.subset_append_left own joint)
        (hend.not_in_joint hwritten hjoint' ?_)
      rw [hown, List.getLast?_append, Option.or_of_isSome (by simpa using hnil)]
  · by_cases hnil : own = []
    · rw [hnil, List.append_nil] at hown
      exact hown.symm
    · refine absurd (hrest ▸ List.subset_append_left own joint')
        (hend'.not_in_joint hwritten' hjoint ?_)
      obtain ⟨c, hc, -⟩ := hend'.exists_last hwritten'
      have hlast := congrArg List.getLast? hown
      rw [List.getLast?_append, List.getLast?_append, Option.mem_def.mp hc, Option.some_or,
        Option.or_of_isSome (by simpa using hnil)] at hlast
      rw [← hlast, Option.mem_def.mp hc]

theorem endsFirmly_of_known (h : known ∈ Config.Shipped.formFields) : EndsFirmly known.1 := by
  have hall : ∀ known ∈ Config.Shipped.formFields,
      (known.1.getLast?.any fun c => 97 ≤ c.toNat && c.toNat ≤ 122 && c != 'a' && c != 's') =
        true := by decide
  have hlast := hall known h
  cases hends : known.1.getLast? with
  | none =>
    rw [hends] at hlast
    cases hlast
  | some c =>
    rw [hends] at hlast
    exact ⟨c, hends, by simpa [and_assoc] using hlast⟩

/-- No known label ends another one. -/
theorem known_eq_of_suffix (h : known ∈ Config.Shipped.formFields)
    (h' : known' ∈ Config.Shipped.formFields)
    (hends : known'.1.map Text.fold <:+ known.1.map Text.fold) : known' = known := by
  have hall : ∀ known ∈ Config.Shipped.formFields, ∀ known' ∈ Config.Shipped.formFields,
      known'.1.map Text.fold <:+ known.1.map Text.fold → known' = known := by
    decide +kernel
  exact hall known h known' h' hends

/-- **No opening ends another one**, and a text opens with one known label only. -/
theorem Announces.unique (hknown : known ∈ Config.Shipped.formFields)
    (hknown' : known' ∈ Config.Shipped.formFields) (h : Announces known.1 (front ++ opening))
    (h' : Announces known'.1 opening) : front = [] ∧ known' = known := by
  have hparts := h.written_suffix h' (endsFirmly_of_known hknown) (endsFirmly_of_known hknown')
  obtain rfl := known_eq_of_suffix hknown hknown' ⟨_, hparts.symm⟩
  exact ⟨by simpa using hparts, rfl⟩

/-- There is no quote in an opening. -/
theorem Announces.unquoted (hknown : known ∈ Config.Shipped.formFields)
    (h : Announces known.1 opening) : '"' ∉ opening := by
  obtain ⟨written, joint, rfl, hwritten, hjoint⟩ := h.parts
  have hmark : Text.IsMark '"' := by decide
  intro hin
  rcases List.mem_append.mp hin with hin | hin
  · have hfold := List.mem_map_of_mem (f := Text.fold) hin
    rw [hwritten, hmark.fold_eq] at hfold
    exact quote_not_mem_known hknown hfold
  · exact hjoint.quote_not_mem hin

theorem Announces.ne_nil (hlabel : IsLabel label) (h : Announces label opening) : opening ≠ [] := by
  obtain ⟨written, joint, rfl, hwritten, -⟩ := h.parts
  obtain ⟨c, cs, rfl, -⟩ := hlabel
  obtain ⟨d, ds, rfl, -⟩ := List.map_eq_cons_iff.mp hwritten
  exact List.cons_ne_nil _ _

end Openings

/-! ### Two places -/

/-- A place of a text at which a field is read, cut into its parts. -/
structure Place (label text front opening value behind : Text) : Prop where
  parts : text = front ++ (opening ++ '"' :: (value ++ '"' :: behind))
  outside : OutsideWord front.getLast?
  announces : Announces label opening
  unquoted : '"' ∉ value

section Places

variable {known known' : Text × Text}
  {text front opening value behind front' opening' value' behind' : Text}

/-- Up to its first quote a text is cut in one way. -/
theorem append_quote_inj {a b rest rest' : Text} (ha : '"' ∉ a) (hb : '"' ∉ b)
    (h : a ++ '"' :: rest = b ++ '"' :: rest') : a = b ∧ rest = rest' := by
  rcases List.append_eq_append_iff.mp h with ⟨own, rfl, hrest⟩ | ⟨own, rfl, hrest⟩
  · cases own with
    | nil => exact ⟨(List.append_nil a).symm, (List.cons.inj hrest).2⟩
    | cons c cs =>
      obtain ⟨rfl, -⟩ := List.cons.inj hrest
      exact absurd (by simp) hb
  · cases own with
    | nil => exact ⟨List.append_nil b, (List.cons.inj hrest).2.symm⟩
    | cons c cs =>
      obtain ⟨rfl, -⟩ := List.cons.inj hrest
      exact absurd (by simp) ha

/-- At one place one field is read at most. -/
theorem Place.unique (hknown : known ∈ Config.Shipped.formFields)
    (hknown' : known' ∈ Config.Shipped.formFields)
    (h : Place known.1 text front opening value behind)
    (h' : Place known'.1 text front' opening' value' behind')
    (hsame : front.length = front'.length) : known' = known := by
  have hparts := h.parts
  rw [h'.parts] at hparts
  obtain ⟨heq, -⟩ := append_quote_inj (h'.announces.unquoted hknown') (h.announces.unquoted hknown)
    (List.append_inj_right hparts hsame.symm)
  have hlonger : Announces known.1 ([] ++ opening') := by
    rw [List.nil_append, heq]
    exact h.announces
  exact (Announces.unique hknown hknown' hlonger h'.announces).2

/-- **A field that is read further on is read behind another one, or from within its value on**:
then the quote that closes the one value opens the other. -/
theorem Place.behind_or_within (hknown : known ∈ Config.Shipped.formFields)
    (hknown' : known' ∈ Config.Shipped.formFields)
    (h : Place known.1 text front opening value behind)
    (h' : Place known'.1 text front' opening' value' behind')
    (hlater : front.length < front'.length) :
    front.length + opening.length + value.length + 2 ≤ front'.length ∨
      ∃ before, value = before ++ opening' ∧ front' = front ++ (opening ++ '"' :: before) ∧
        behind = value' ++ '"' :: behind' := by
  have hparts := h'.parts
  rw [h.parts] at hparts
  obtain ⟨ahead, rfl, hahead⟩ : ∃ ahead, front' = front ++ ahead ∧
      opening ++ '"' :: (value ++ '"' :: behind) = ahead ++
        (opening' ++ '"' :: (value' ++ '"' :: behind')) := by
    rcases List.append_eq_append_iff.mp hparts with ⟨own, hown, hrest⟩ | ⟨own, hown, hrest⟩
    · exact ⟨own, hown, hrest⟩
    · have hlength := congrArg List.length hown
      rw [List.length_append] at hlength
      omega
  have hquote := h.announces.unquoted hknown
  have hquote' := h'.announces.unquoted hknown'
  rcases List.append_eq_append_iff.mp hahead with ⟨own, rfl, hrest⟩ | ⟨own, rfl, hrest⟩
  · cases own with
    | nil =>
      obtain ⟨c, cs, rfl⟩ :=
        List.exists_cons_of_ne_nil (h'.announces.ne_nil (isLabel_of_known hknown'))
      obtain ⟨rfl, -⟩ := List.cons.inj hrest
      exact absurd (.head _) hquote'
    | cons c before =>
      obtain rfl := (List.cons.inj hrest).1
      have hinside : value ++ '"' :: behind = before ++
          (opening' ++ '"' :: (value' ++ '"' :: behind')) :=
        (List.cons.inj hrest).2
      by_cases hclosed : '"' ∈ before
      · left
        obtain ⟨inner, further, rfl, hinner⟩ := List.eq_append_cons_of_mem hclosed
        rw [List.append_assoc, List.cons_append] at hinside
        obtain ⟨rfl, -⟩ := append_quote_inj h.unquoted hinner hinside
        simp only [List.length_append, List.length_cons]
        omega
      · right
        rw [← List.append_assoc] at hinside
        have hopen : '"' ∉ before ++ opening' := by simp [hclosed, hquote']
        obtain ⟨hvalue, hbehind⟩ := append_quote_inj h.unquoted hopen hinside
        exact ⟨before, hvalue, rfl, hbehind⟩
  · -- the other opening would end this one
    have hown : '"' ∉ own := fun hin => hquote (List.mem_append_right _ hin)
    obtain ⟨rfl, -⟩ := append_quote_inj hown hquote' hrest.symm
    obtain ⟨rfl, -⟩ := Announces.unique hknown hknown' h.announces h'.announces
    simp at hlater

end Places

/-! ### Regions -/

/-- A field with the piece of a text that it is read from, from its label to the quote that closes
its value, and the position of that piece. -/
structure Region where
  start : Nat
  whole : Text
  field : FormField
  deriving DecidableEq

namespace Region

/-- The position behind a region. -/
def finish (r : Region) : Nat := r.start + r.whole.length

/-- A region is the place at which its field is read. -/
structure Reads (r : Region) (text front opening behind : Text) : Prop where
  start : r.start = front.length
  whole : r.whole = opening ++ '"' :: (r.field.value ++ ['"'])
  place : Place r.field.label text front opening r.field.value behind

theorem Reads.finish_eq {r : Region} {text front opening behind : Text}
    (h : r.Reads text front opening behind) :
    r.finish = front.length + opening.length + r.field.value.length + 2 := by
  rw [finish, h.start, h.whole]
  simp only [List.length_append, List.length_cons, List.length_nil]
  omega

theorem Reads.drop_finish {r : Region} {text front opening behind : Text}
    (h : r.Reads text front opening behind) :
    text.drop r.finish = behind := by
  have hparts : text = (front ++ (opening ++ '"' :: (r.field.value ++ ['"']))) ++ behind := by
    rw [h.place.parts]
    simp
  rw [h.finish_eq]
  conv_lhs => rw [hparts]
  refine List.drop_left' ?_
  simp only [List.length_append, List.length_cons, List.length_nil]
  omega

end Region

/-- The regions of the fields with one label. -/
def regionsOf (text label element : Text) : List Region :=
  (withStarts ((fieldOf label).findAll text)).map fun (start, f) =>
    ⟨start, f.whole, ⟨label, element, f.group 1⟩⟩

/-- The regions of all fields, in order. -/
def regions (config : Config) (text : Text) : List Region :=
  (config.formFields.flatMap fun (label, element) => regionsOf text label element).mergeSort
    fun a b => a.start ≤ b.start

/-- The fields of a text are those of its regions. -/
theorem formFields_eq (config : Config) (text : Text) :
    formFields config text = (regions config text).map (·.field) := by
  have hpairs : (regions config text).map (fun r => (r.start, r.field)) =
      (config.formFields.flatMap fun (label, element) => fieldsOf text label element).mergeSort
        fun a b => a.1 ≤ b.1 := by
    refine (List.map_mergeSort (s := fun a b : Nat × FormField => a.1 ≤ b.1)
      fun _ _ _ _ => rfl).trans ?_
    rw [List.map_flatMap]
    refine congrArg (List.mergeSort · _) (List.flatMap_congr fun known _ => ?_)
    exact List.map_map
  unfold formFields
  dsimp only
  rw [← hpairs, List.map_map]
  rfl

section Regions

variable {known known' : Text × Text} {text front opening value behind : Text} {r r' : Region}

theorem takesUp_fieldOf (h : known ∈ Config.Shipped.formFields) : (fieldOf known.1).TakesUp := by
  rintro previous whole after g hmatch rfl
  obtain ⟨-, opening, value, rest, hparts, -, -, heq⟩ :=
    (fieldOf_matchAt_iff (isLabel_of_known h) (endsFirmly_of_known h)).mp hmatch
  cases heq
  have hlength := congrArg List.length hparts
  simp only [List.nil_append, List.length_append, List.length_cons] at hlength
  omega

theorem Region.Reads.of_mem (h : known ∈ Config.Shipped.formFields)
    (hr : r ∈ regionsOf text known.1 known.2) :
    (r.field.label, r.field.element) = known ∧ ∃ front opening behind,
      r.Reads text front opening behind := by
  obtain ⟨⟨start, f⟩, hf, rfl⟩ := List.mem_map.mp hr
  rw [withStarts_eq] at hf
  obtain ⟨front, hparts, hstart, -, hmatch⟩ :=
    ((takesUp_fieldOf h).course_findAll text).exists_front_of_mem hf
  obtain ⟨houtside, opening, value, rest, hwhole, hannounces, hvalue, heq⟩ :=
    (fieldOf_matchAt_iff (isLabel_of_known h) (endsFirmly_of_known h)).mp hmatch
  rw [lastOf_eq, Option.or_none] at houtside
  obtain ⟨hcaptures, rfl⟩ := Prod.mk.inj heq
  have hgroup : f.group 1 = value := by
    rw [Found.group, Found.group?, hcaptures]
    rfl
  refine ⟨rfl, front, opening, f.after, hstart.trans (Nat.zero_add _), ?_, ?_,
    houtside, hannounces, ?_⟩
  · dsimp only
    rw [hgroup]
    refine List.append_cancel_right (hwhole.trans ?_)
    simp
  · dsimp only
    rw [hgroup, ← hwhole]
    exact hparts
  · dsimp only
    rwa [hgroup]

/-- Where a field can be read, a region of its label begins or has not yet ended. -/
theorem Place.exists_region (h : known ∈ Config.Shipped.formFields)
    (hplace : Place known.1 text front opening value behind) :
    ∃ r ∈ regionsOf text known.1 known.2, r.start ≤ front.length ∧ front.length < r.finish := by
  have houtside : OutsideWord (lastOf none front) := by
    rw [lastOf_eq, Option.or_none]
    exact hplace.outside
  have hmatch := (fieldOf_matchAt_iff (isLabel_of_known h) (endsFirmly_of_known h)).mpr
    ⟨houtside, opening, value, behind, rfl, hplace.announces, hplace.unquoted, rfl⟩
  obtain ⟨p, hp, hfirst, hlast⟩ :=
    ((takesUp_fieldOf h).course_findAll text).covers hplace.parts (by simp)
    (Option.isSome_of_eq_some hmatch) 0
  rw [Nat.zero_add] at hfirst hlast
  rw [← withStarts_eq] at hp
  exact ⟨_, List.mem_map_of_mem hp, hfirst, hlast⟩

/-- Regions with one label do not meet. -/
theorem regionsOf_pairwise (text label element : Text) :
    (regionsOf text label element).Pairwise fun a b => a.finish ≤ b.start := by
  rw [regionsOf, withStarts_eq, List.pairwise_map]
  exact startsFrom_pairwise _ _

theorem mem_regions {config : Config} : r ∈ regions config text ↔
    ∃ known ∈ config.formFields, r ∈ regionsOf text known.1 known.2 := by
  rw [regions, List.mem_mergeSort, List.mem_flatMap]

/-- No two regions begin at one place. -/
theorem regions_pairwise {config : Config} (hconfig : config.formFields = Config.Shipped.formFields)
    (text : Text) :
    (regions config text).Pairwise fun a b => a.start < b.start := by
  have hlabels : Config.Shipped.formFields.Pairwise (· ≠ ·) := by decide
  -- sorting keeps the regions and puts them in order, so it is enough that no two begin together
  have hdistinct : (config.formFields.flatMap fun known => regionsOf text known.1 known.2).Pairwise
      fun a b => a.start ≠ b.start := by
    rw [hconfig]
    refine List.pairwise_flatMap.mpr ⟨fun known hknown => ?_,
      hlabels.imp_of_mem fun {known known'} hknown hknown' hne a ha b hb => ?_⟩
    · refine (regionsOf_pairwise text _ _).imp_of_mem fun {a b} ha _ hapart heq => ?_
      obtain ⟨-, front, opening, behind, hreads⟩ := Region.Reads.of_mem hknown ha
      have hfinish := hreads.finish_eq
      rw [← hreads.start] at hfinish
      omega
    · obtain ⟨rfl, front, opening, behind, hreads⟩ := Region.Reads.of_mem hknown ha
      obtain ⟨rfl, front', opening', behind', hreads'⟩ := Region.Reads.of_mem hknown' hb
      intro heq
      rw [hreads.start, hreads'.start] at heq
      exact hne (Place.unique hknown hknown' hreads.place hreads'.place heq).symm
  have hall :=
    (List.Perm.pairwise_iff (fun h => Ne.symm h)
      (List.mergeSort_perm _ fun a b => a.start ≤ b.start)).mpr hdistinct
  exact (List.pairwise_mergeSort' (fun a b : Region => a.start ≤ b.start) _).imp₂
    (fun a b hle hne => Nat.lt_of_le_of_ne hle hne) hall

end Regions

/-! ### Which regions meet -/

/-- A value ends with a label as a text writes it in front of a value. -/
def EndsWith (label value : Text) : Prop :=
  ∃ before opening, value = before ++ opening ∧ OutsideWord before.getLast? ∧
    Announces label opening

/-- A region gives another one its quote: the other begins within its value, and the quote that
closes that value opens the value of the other. -/
def Region.Lends (a b : Region) : Prop :=
  ∃ opening, opening <:+ a.field.value ∧ b.whole = opening ++ '"' :: (b.field.value ++ ['"']) ∧
    b.start + opening.length + 1 = a.finish

section Meeting

variable {known : Text × Text} {text : Text} {a b : Region}

theorem Region.Reads.of_mem_regions {config : Config}
    (hconfig : config.formFields = Config.Shipped.formFields) (ha : a ∈ regions config text) :
    (a.field.label, a.field.element) ∈ Config.Shipped.formFields ∧
      a ∈ regionsOf text a.field.label a.field.element ∧ ∃ front opening behind,
        a.Reads text front opening behind := by
  obtain ⟨known, hknown, ha⟩ := mem_regions.mp ha
  rw [hconfig] at hknown
  obtain ⟨rfl, hreads⟩ := Region.Reads.of_mem hknown ha
  exact ⟨hknown, ha, hreads⟩

/-- **Of two regions the later one begins behind the other, or the other lends it a quote.** -/
theorem apart_or_lends {config : Config} (hconfig : config.formFields = Config.Shipped.formFields)
    (ha : a ∈ regions config text) (hb : b ∈ regions config text) (hlater : a.start < b.start) :
    a.finish ≤ b.start ∨ a.Lends b := by
  obtain ⟨hknown, -, front, opening, behind, hreads⟩ := Region.Reads.of_mem_regions hconfig ha
  obtain ⟨hknown', -, front', opening', behind', hreads'⟩ := Region.Reads.of_mem_regions hconfig hb
  rw [hreads.start, hreads'.start] at hlater
  rcases hreads.place.behind_or_within hknown hknown' hreads'.place hlater
    with hapart | ⟨before, hvalue, hfront, -⟩
  · left
    rwa [hreads.finish_eq, hreads'.start]
  · right
    refine ⟨opening', ⟨before, hvalue.symm⟩, hreads'.whole, ?_⟩
    rw [hreads.finish_eq, hreads'.start, hfront, hvalue]
    simp only [List.length_append, List.length_cons]
    omega

/-- Two regions with one label do not meet. -/
theorem apart_of_label {label element : Text} (ha : a ∈ regionsOf text label element)
    (hb : b ∈ regionsOf text label element) (hne : a ≠ b) :
    a.finish ≤ b.start ∨ b.finish ≤ a.start := by
  have hpairs : (regionsOf text label element).Pairwise fun a b => a.finish ≤ b.start ∨
      b.finish ≤ a.start :=
    (regionsOf_pairwise text label element).imp Or.inl
  have hsymm : Std.Symm fun a b : Region => a.finish ≤ b.start ∨ b.finish ≤ a.start :=
    ⟨fun _ _ h => h.symm⟩
  exact hpairs.forall ha hb hne

theorem outsideWord_quote_append (front before : Text) :
    OutsideWord (front ++ '"' :: before).getLast? ↔ OutsideWord before.getLast? := by
  rw [List.getLast?_append, List.getLast?_cons]
  cases before.getLast? with
  | none => exact iff_of_true rfl rfl
  | some c => exact Iff.rfl

variable {front opening behind : Text}

/-- The value of a region within which another one begins ends with the label of that one. -/
theorem endsWith_of_within {config : Config}
    (hconfig : config.formFields = Config.Shipped.formFields)
    (hown : a ∈ regionsOf text a.field.label a.field.element)
    (hknown : (a.field.label, a.field.element) ∈ Config.Shipped.formFields)
    (hreads : a.Reads text front opening behind) (hb : b ∈ regions config text)
    (hlater : a.start < b.start) (hwithin : b.start < a.finish) :
    b.field.label ≠ a.field.label ∧ EndsWith b.field.label a.field.value ∧ '"' ∈ behind := by
  obtain ⟨hknown', hown', front', opening', behind', hreads'⟩ :=
    Region.Reads.of_mem_regions hconfig hb
  have hstart := hreads.start
  have hfinish := hreads.finish_eq
  have hstart' := hreads'.start
  rcases hreads.place.behind_or_within hknown hknown' hreads'.place (by omega)
    with hapart | ⟨before, hvalue, rfl, hbehind⟩
  · -- a region behind the other one does not begin within it
    omega
  · refine ⟨fun heq => ?_, ⟨before, opening', hvalue, ?_, hreads'.place.announces⟩,
      by simp [hbehind]⟩
    · have helement : b.field.element = a.field.element := known_unique hknown' hknown heq
      rw [heq, helement] at hown'
      have hne : a ≠ b := by
        rintro rfl
        omega
      have hfinish' := hreads'.finish_eq
      have hapart := apart_of_label hown hown' hne
      omega
    · have houtside := hreads'.place.outside
      rwa [← List.append_assoc, outsideWord_quote_append] at houtside

/-- Where the value of a region ends with another label and one more quote comes behind it, a region
of that label begins within it. -/
theorem exists_within_of_endsWith {known : Text × Text}
    (hknown : (a.field.label, a.field.element) ∈ Config.Shipped.formFields)
    (hknown' : known ∈ Config.Shipped.formFields) (hreads : a.Reads text front opening behind)
    (hne : known.1 ≠ a.field.label) (hends : EndsWith known.1 a.field.value)
    (hquote : '"' ∈ behind) :
    ∃ b ∈ regionsOf text known.1 known.2, a.start < b.start ∧ b.start < a.finish := by
  obtain ⟨before, opening', hvalue, houtside, hannounces⟩ := hends
  obtain ⟨value', rest, rfl, hvalue'⟩ := List.eq_append_cons_of_mem hquote
  have hplace : Place known.1 text (front ++ opening ++ '"' :: before) opening' value' rest := by
    refine ⟨?_, (outsideWord_quote_append _ _).mpr houtside, hannounces, hvalue'⟩
    rw [hreads.place.parts, hvalue]
    simp
  obtain ⟨b, hb, hfirst, hlast⟩ := hplace.exists_region hknown'
  obtain ⟨rfl, front', opening'', behind', hreads'⟩ := Region.Reads.of_mem hknown' hb
  have hstart := hreads.start
  have hfinish := hreads.finish_eq
  have hstart' := hreads'.start
  have hfinish' := hreads'.finish_eq
  have hlength := congrArg List.length hvalue
  simp only [List.length_append, List.length_cons] at hfirst hlast hlength
  refine ⟨b, hb, ?_, by omega⟩
  -- a region that began earlier would end where the value begins, in front of the label
  by_contra hearlier
  rcases Nat.lt_or_eq_of_le (Nat.le_of_not_lt hearlier) with hlt | heq
  · rcases hreads'.place.behind_or_within hknown' hknown hreads.place (by omega)
      with hapart | ⟨inner, hinner, hfront, -⟩
    · omega
    · have hlengths := congrArg List.length hfront
      have hinnerLength := congrArg List.length hinner
      simp only [List.length_append, List.length_cons] at hlengths hinnerLength
      omega
  · exact hne
      (congrArg Prod.fst (Place.unique hknown hknown' hreads.place hreads'.place (by omega)))

/-- **Another region begins within a region just when its value ends with another label and one more
quote comes behind it.** -/
theorem exists_within_iff {config : Config}
    (hconfig : config.formFields = Config.Shipped.formFields) (ha : a ∈ regions config text) :
    (∃ b ∈ regions config text, a.start < b.start ∧ b.start < a.finish) ↔
      (∃ known ∈ Config.Shipped.formFields, known.1 ≠ a.field.label ∧
        EndsWith known.1 a.field.value) ∧
        '"' ∈ text.drop a.finish := by
  obtain ⟨hknown, hown, front, opening, behind, hreads⟩ := Region.Reads.of_mem_regions hconfig ha
  rw [hreads.drop_finish]
  constructor
  · rintro ⟨b, hb, hlater, hwithin⟩
    obtain ⟨hknown', -, -⟩ := Region.Reads.of_mem_regions hconfig hb
    obtain ⟨hne, hends, hquote⟩ := endsWith_of_within hconfig hown hknown hreads hb hlater hwithin
    exact ⟨⟨_, hknown', hne, hends⟩, hquote⟩
  · rintro ⟨⟨known, hknown', hne, hends⟩, hquote⟩
    obtain ⟨b, hb, hwithin⟩ := exists_within_of_endsWith hknown hknown' hreads hne hends hquote
    exact ⟨b, mem_regions.mpr ⟨_, hconfig ▸ hknown', hb⟩, hwithin⟩

/-- **Where the regions of fields meet.** The fields of a text are those of its regions, in their
order. Each region is a place at which its field is read, and no two begin at one place. Of two
regions the later one begins behind the other, unless that lends it the quote that closes its value.
A region meets a later one just when its value ends with another label and one more quote comes
behind it. -/
theorem formFields_regions {config : Config}
    (hconfig : config.formFields = Config.Shipped.formFields) (text : Text) :
    formFields config text = (regions config text).map (·.field) ∧
    (regions config text).Pairwise (fun a b => a.start < b.start ∧
      (a.finish ≤ b.start ∨ a.Lends b)) ∧
    ∀ a ∈ regions config text, (a.field.label, a.field.element) ∈ config.formFields ∧
      (∃ front opening behind, a.Reads text front opening behind) ∧
      ((∃ b ∈ regions config text, a.start < b.start ∧ b.start < a.finish) ↔
        (∃ known ∈ config.formFields, known.1 ≠ a.field.label ∧ EndsWith known.1 a.field.value) ∧
          '"' ∈ text.drop a.finish) := by
  refine ⟨formFields_eq config text, ?_, fun a ha => ?_⟩
  · exact (regions_pairwise hconfig text).imp_of_mem fun ha hb hlater =>
      ⟨hlater, apart_or_lends hconfig ha hb hlater⟩
  · obtain ⟨hknown, -, hreads⟩ := Region.Reads.of_mem_regions hconfig ha
    rw [hconfig]
    exact ⟨hknown, hreads, exists_within_iff hconfig ha⟩

/-- Two fields, the value of one of them the label of a third. -/
def labelInside : Text := "first name: \"last name\", middle name: \"Q\""

/-- The first field of this text. -/
def outerRegion : Region :=
  ⟨0, "first name: \"last name\"", ⟨"first name", "first name input field", "last name"⟩⟩

/-- What is read from within its value on. -/
def innerRegion : Region :=
  ⟨13, "last name\", middle name: \"", ⟨"last name", "last name input field", ", middle name: "⟩⟩

/-- The second field. -/
def lastRegion : Region :=
  ⟨25, "middle name: \"Q\"", ⟨"middle name", "middle name input field", "Q"⟩⟩

theorem regions_labelInside :
    regions Config.shipped labelInside = [outerRegion, innerRegion, lastRegion] := by
  have hfound : (Config.shipped.formFields.flatMap fun (label, element) =>
    regionsOf labelInside label element) =
      [outerRegion, lastRegion, innerRegion] := by decide +kernel
  have hperm : (regions Config.shipped labelInside).Perm [outerRegion, innerRegion, lastRegion] := by
    unfold regions
    rw [hfound]
    exact (List.mergeSort_perm _ _).trans ((List.Perm.swap _ _ []).cons _)
  -- no two regions begin at one place, so there is one order of them
  refine hperm.eq_of_pairwise (fun a b _ _ hab hba => (Nat.lt_asymm hab hba).elim)
    (regions_pairwise rfl labelInside) ?_
  decide

/-- The quote behind the first value opens one that nobody wrote, up to the quote in front of the
second value. -/
theorem formFields_labelInside : formFields Config.shipped labelInside =
      [⟨"first name", "first name input field", "last name"⟩,
        ⟨"last name", "last name input field", ", middle name: "⟩,
        ⟨"middle name", "middle name input field", "Q"⟩] ∧
    ∃ a ∈ regions Config.shipped labelInside, ∃ b ∈ regions Config.shipped labelInside,
      a.start < b.start ∧ b.start < a.finish := by
  rw [formFields_eq, regions_labelInside]
  exact ⟨rfl, outerRegion, .head _, innerRegion, .tail _ (.head _), by decide, by decide⟩

/-- In this text each of the fields lends its quote to the next one. -/
theorem formFields_regions_labelInside : Config.shipped.formFields = Config.Shipped.formFields ∧
    outerRegion.Lends innerRegion ∧ innerRegion.Lends lastRegion := by
  have hshipped : Config.shipped.formFields = Config.Shipped.formFields := rfl
  obtain ⟨-, hpairs, -⟩ := formFields_regions hshipped labelInside
  rw [regions_labelInside] at hpairs
  obtain ⟨hfirst, hrest⟩ := List.pairwise_cons.mp hpairs
  obtain ⟨hsecond, -⟩ := List.pairwise_cons.mp hrest
  exact ⟨hshipped, (hfirst _ (.head _)).2.resolve_left (by decide),
    (hsecond _ (.head _)).2.resolve_left (by decide)⟩

end Meeting

end PlainSteps.Facts
