import PlainSteps.Facts.DatasetName
import PlainSteps.Proofs.Pattern.Run

/-! # Names of data files

The name of a data file that is found in a text is a run of word characters and hyphens, one dot and
an extension. Letters beyond ASCII may stand for those of the extension, but nothing that a path is
made of: the marks of a path are equal to no letter, in any case.
-/

namespace PlainSteps.Facts

open Pattern

/-- The extensions of data files. -/
def dataExtensions : List Text := ["csv", "xlsx", "xls"]

/-- Names of a stem and one of the extensions, that in any case. -/
def IsDataFileName (name : Text) : Prop :=
  ∃ stem extension, name = stem ++ '.' :: extension ∧ stem ≠ [] ∧
    (∀ c ∈ stem, isNameChar c = true) ∧
    extension.map Text.fold ∈ dataExtensions

/-- Where a data file is read, its name comes first, and it is kept. -/
theorem datasetFile_taken {s : Spot} {g : Captures} {rest : Text}
    (h : datasetFile.matchAt s = some (g, rest)) :
    ∃ name, s.rest = name ++ rest ∧ g = [(1, name)] ∧ IsDataFileName name := by
  unfold matchAt datasetFile wordOf at h
  rw [run_seq_cons] at h
  replace h := run_edge_taken h
  rw [run_seq_cons, run_group, run_seq_cons] at h
  obtain ⟨c, cs, rest₁, hrest₁, hstem, h⟩ := run_oneOrMore_taken h
  rw [run_seq_cons] at h
  obtain ⟨rest₂, hrest₂, h⟩ := run_mark_taken (by decide) h
  obtain ⟨a, ha, h⟩ := run_choice_taken h
  obtain ⟨e, he, rfl⟩ : ∃ e ∈ dataExtensions, letters e = a :=
    List.mem_map.mp (show a ∈ dataExtensions.map letters from ha)
  obtain ⟨extension, rest₃, hrest₃, hfold, h⟩ := run_letters_taken h
  replace h := run_edge_taken h
  dsimp only at hrest₁ hrest₂ hrest₃ h
  obtain ⟨rfl, rfl⟩ := Prod.mk.inj (Option.some.inj h)
  have hahead : s.rest = c :: cs ++ '.' :: extension ++ rest₃ := by
    rw [hrest₁, hrest₂, hrest₃, List.append_assoc]
    rfl
  refine ⟨c :: cs ++ '.' :: extension, hahead, ?_, c :: cs, extension, rfl,
    List.cons_ne_nil _ _, hstem, ?_⟩
  · rw [hahead, take_piece]
  · rw [hfold]
    have hfolded : ∀ e ∈ dataExtensions, e.map Text.fold = e := by decide
    rwa [hfolded e he]

theorem name_of_findFrom {previous : Option Char} {text : Text} {f : Found}
    (h : datasetFile.findFrom previous text = some f) :
    f.group 1 <:+: text ∧ IsDataFileName (f.group 1) := by
  obtain ⟨hparts, hmatch⟩ := findFrom_parts h
  obtain ⟨name, hahead, hkept, hname⟩ := datasetFile_taken hmatch
  have hgroup : f.group 1 = name := by
    rw [Found.group, Found.group?, hkept]
    rfl
  rw [hgroup]
  refine ⟨⟨f.before, f.after, ?_⟩, hname⟩
  rw [hparts, List.append_assoc]
  exact congrArg (f.before ++ ·) hahead.symm

/-- **What is found as a data file has the name of one.** -/
theorem isDataFileName_of_dataset? {text name : Text} (h : dataset? text = some name) :
    IsDataFileName name := by
  obtain ⟨f, hfind, rfl⟩ := Option.map_eq_some_iff.mp h
  exact (name_of_findFrom hfind).2

namespace IsDataFileName

variable {name : Text}

/-- What is neither in a stem nor equal to a letter of an extension is not in the name, apart from
the dot. -/
theorem not_mem (h : IsDataFileName name) {m : Char} (hm : m ≠ '.') (hstem : isNameChar m = false)
    (hletter : ∀ e ∈ dataExtensions, Text.fold m ∉ e) : m ∉ name := by
  obtain ⟨stem, extension, rfl, -, hchars, hextension⟩ := h
  intro hmem
  rcases List.mem_append.mp hmem with hin | hin
  · rw [hchars m hin] at hstem
    cases hstem
  · rcases List.mem_cons.mp hin with hdot | hin
    · exact hm hdot
    · exact hletter _ hextension (List.mem_map_of_mem hin)

/-- A name is cut into stem and extension at its last dot. -/
theorem isNameChar_of_stem {stem extension : Text} (h : IsDataFileName (stem ++ '.' :: extension)) :
    ∀ c ∈ stem, isNameChar c = true := by
  obtain ⟨stem', extension', hparts, -, hchars, hextension⟩ := h
  rcases List.append_eq_append_iff.mp hparts with ⟨more, rfl, -⟩ | ⟨more, rfl, hmore⟩
  · exact fun c hc => hchars c (List.mem_append_left more hc)
  · cases more with
    | nil => simpa using hchars
    | cons c cs =>
      -- the dot of the shorter stem would be in an extension
      obtain ⟨rfl, rfl⟩ := List.cons.inj hmore
      have hletter : ∀ e ∈ dataExtensions, Text.fold '.' ∉ e := by decide
      exact absurd (List.mem_map_of_mem (by simp)) (hletter _ hextension)

theorem count_dot (h : IsDataFileName name) : name.count '.' = 1 := by
  obtain ⟨stem, extension, rfl, -, hchars, hextension⟩ := h
  have hstem : '.' ∉ stem := fun hin => absurd (hchars '.' hin) (by decide)
  have hrest : '.' ∉ extension := by
    intro hin
    have hletter : ∀ e ∈ dataExtensions, Text.fold '.' ∉ e := by decide
    exact hletter _ hextension (List.mem_map_of_mem hin)
  rw [List.count_append, List.count_cons_self, List.count_eq_zero_of_not_mem hstem,
    List.count_eq_zero_of_not_mem hrest]

end IsDataFileName

end PlainSteps.Facts
