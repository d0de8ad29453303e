import PlainSteps.Proofs.Dataset.InlineGate
import PlainSteps.Proofs.Pattern.Course

/-! # Steps that name a data file

A step over the rows of a data file ends with the name of the file. The name is read back whole just
when its stem consists of word characters and hyphens. Of a name with a further dot, a bracket or
another mark within the stem at most a part is read, since the search begins anew behind the mark,
so another file is looked up, or none.
-/

namespace PlainSteps

open Pattern

namespace Facts

variable {stem extension front rest : Text} {previous : Option Char}

/-- No data file begins in a front without a dot, unless a name goes on behind it. -/
theorem datasetFile_passes (hdot : '.' ∉ front) (hlast : front.getLast?.any isNameChar = false) :
    datasetFile.Passes previous front rest := by
  rintro before ahead rfl hahead
  by_contra hmatch
  obtain ⟨⟨g, rest'⟩, hr⟩ := Option.ne_none_iff_exists'.mp hmatch
  obtain ⟨name, hparts, -, stem, extension, rfl, -, hchars, -⟩ := datasetFile_taken hr
  have hends : isNameChar (ahead.getLast hahead) = false := by
    rwa [List.getLast?_append_of_ne_nil _ hahead, List.getLast?_eq_some_getLast hahead] at hlast
  have hmem := List.getLast_mem hahead
  dsimp only at hparts
  rw [List.append_assoc] at hparts
  -- the dot of the name comes behind the front, so the front would end within the stem
  rcases List.append_eq_append_iff.mp hparts with ⟨more, rfl, -⟩ | ⟨more, rfl, hmore⟩
  · rw [hchars _ (List.mem_append_left more hmem)] at hends
    cases hends
  · cases more with
    | nil =>
      simp only [List.append_nil] at hends hmem
      rw [hchars _ hmem] at hends
      cases hends
    | cons c cs =>
      obtain ⟨rfl, -⟩ := List.cons.inj hmore
      exact hdot (by simp)

/-- A name of a stem and an extension is read whole where no word comes before. -/
theorem datasetFile_matchAt (hstarts : stem.head?.any Text.isWord = true)
    (hchars : ∀ c ∈ stem, isNameChar c = true) (hextension : extension ∈ dataExtensions)
    (hprevious : OutsideWord previous) :
    datasetFile.matchAt ⟨previous, stem ++ '.' :: extension⟩ =
      some ([(1, stem ++ '.' :: extension)], []) := by
  have hne : stem ≠ [] := by
    rintro rfl
    cases hstarts
  have hhead : (stem ++ '.' :: extension).head?.any Text.isWord = true := by
    rwa [List.head?_append_of_ne_nil _ hne]
  have hdot : ∀ c ∈ ('.' :: extension).head?, isNameChar c = false := forall_head_cons (by decide) _
  have hkept := take_piece (stem ++ '.' :: extension) []
  rw [List.append_nil] at hkept
  unfold matchAt datasetFile wordOf
  rw [run_seq_cons, run_edge_of_word hhead, if_neg (Bool.eq_false_iff.mp hprevious),
    run_seq_cons, run_group, run_seq_cons]
  refine run_oneOrMore_append hne hchars hdot ?_
  rw [run_seq_cons, run_letter_self]
  simp only [dataExtensions, List.mem_cons, List.not_mem_nil, or_false] at hextension
  rcases hextension with rfl | rfl | rfl
  all_goals exact congrArg (fun name => some ([(1, name)], [])) hkept

end Facts

namespace Dataset

/-- A step over the rows of a file. -/
def rowStep (file : Text) : Text := "Run the login test for each row in ".toList ++ file

variable {stem extension file : Text}

/-- The name of the file is looked for from its beginning on. -/
theorem dataset?_rowStep (file : Text) :
    Facts.dataset? (rowStep file) = (Facts.datasetFile.findFrom (some ' ') file).map
      (·.group 1) := by
  have hpass : Facts.datasetFile.Passes none "Run the login test for each row in " file :=
    Facts.datasetFile_passes (by decide) (by decide)
  show (Facts.datasetFile.findFrom none ("Run the login test for each row in ".toList ++ file)).map
    _ = _
  rw [hpass.findFrom_append, Option.map_map]
  rfl

theorem dataset?_rowStep_of_chars (hstarts : stem.head?.any Text.isWord = true)
    (hextension : extension ∈ Facts.dataExtensions)
    (hchars : ∀ c ∈ stem, Facts.isNameChar c = true) :
    Facts.dataset? (rowStep (stem ++ '.' :: extension)) = some (stem ++ '.' :: extension) := by
  have houtside : OutsideWord (some ' ') := by decide
  obtain ⟨f, hf, hcaptures⟩ :=
    findFrom_eq_some (Facts.datasetFile_matchAt hstarts hchars hextension houtside)
  rw [dataset?_rowStep, hf, Option.map_some, Found.group, Found.group?, hcaptures]
  rfl

/-- A text without a colon carries no rows. -/
theorem runsInline_of_noColon {text : Text} (h : ':' ∉ text) :
    Compiler.runsInline text = false := by
  have hlabels : Facts.hasInlineRow text = false := by
    rw [← Bool.not_eq_true, hasInlineRow_iff]
    intro hall
    exact unlabelled_of_noColon h .username (hall _ (by decide)).mentions
  rw [Compiler.runsInline, hlabels, Bool.false_and]

theorem colon_not_mem_rowStep (hextension : extension ∈ Facts.dataExtensions)
    (hchars : ∀ c ∈ stem, Facts.isNameChar c = true) :
    ':' ∉ rowStep (stem ++ '.' :: extension) := by
  have hfront : ':' ∉ "Run the login test for each row in ".toList := by decide
  have hend : ∀ e ∈ Facts.dataExtensions, ':' ∉ e := by decide
  unfold rowStep
  intro hin
  rcases List.mem_append.mp hin with hin | hin
  · exact hfront hin
  rcases List.mem_append.mp hin with hin | hin
  · exact absurd (hchars ':' hin) (by decide)
  rcases List.mem_cons.mp hin with hdot | hin
  · exact absurd hdot (by decide)
  · exact hend extension hextension hin

/-- **A step reads the whole name of its data file just when the stem is of word characters and
hyphens.** The rows of the step are then those that the file has. Any other name that is read is a
piece of it. -/
theorem rowStep_names_file (hstarts : stem.head?.any Text.isWord = true)
    (hextension : extension ∈ Facts.dataExtensions) :
    (Facts.dataset? (rowStep (stem ++ '.' :: extension)) = some (stem ++ '.' :: extension) ↔
      ∀ c ∈ stem, Facts.isNameChar c = true) ∧
    ((∀ c ∈ stem, Facts.isNameChar c = true) → ∀ (s : DataSource) (dataset : Dataset),
      (s.load (stem ++ '.' :: extension)).value = some dataset →
        (resolve s (rowStep (stem ++ '.' :: extension))).value = dataset) ∧
    ∀ name, Facts.dataset? (rowStep (stem ++ '.' :: extension)) = some name →
      name <:+: stem ++ '.' :: extension ∧ Facts.IsDataFileName name := by
  refine ⟨⟨fun h => ?_, dataset?_rowStep_of_chars hstarts hextension⟩, ?_, ?_⟩
  · exact (Facts.isDataFileName_of_dataset? h).isNameChar_of_stem
  · intro hchars s dataset hload
    rw [resolve_of_not_runsInline (runsInline_of_noColon (colon_not_mem_rowStep hextension hchars)),
      dataset?_rowStep_of_chars hstarts hextension hchars]
    dsimp only
    rw [Told.value_bind, hload]
    rfl
  · intro name h
    rw [dataset?_rowStep] at h
    obtain ⟨f, hf, rfl⟩ := Option.map_eq_some_iff.mp h
    exact Facts.name_of_findFrom hf

theorem rowStep_names_hyphened :
    Facts.dataset? (rowStep "users-2024.xlsx") = some "users-2024.xlsx".toList := by
  have hstarts : "users-2024".toList.head?.any Text.isWord = true := by decide
  have hextension : "xlsx".toList ∈ Facts.dataExtensions := by decide
  exact (rowStep_names_file hstarts hextension).1.mpr (List.all_eq_true.mp (by decide))

/-- The names of files may have further dots or brackets in them, and a step takes another file for
such a one. -/
theorem rowStep_cuts_names :
    (∀ file ∈ (["my.data.csv", "users(1).csv"] : List Text), file.head?.any Text.isWord = true ∧
      file.all (fun c => !Text.isBlank c && !(['"', '\x27', '/', '\\'] : Text).contains c) = true ∧
      Text.endsWith ".csv" file = true) ∧
    Facts.dataset? (rowStep "my.data.csv") = some "data.csv".toList ∧
    Facts.dataset? (rowStep "users(1).csv") = none := by
  decide +kernel

end Dataset

end PlainSteps
