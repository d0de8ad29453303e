import Mathlib.Data.Char
import Mathlib.Data.List.Lex
import PlainSteps.Proofs.CommandLine.ExitCode
import PlainSteps.Proofs.Files.Globbing
import PlainSteps.Proofs.Text.Lower
import PlainSteps.Proofs.Text.Trimming

/-! # The prompts that tags select

Without a file of its own, a run takes the prompts below a directory in the order of their paths:
the files with the extension of a prompt in any case that names lead to, none of them hidden. Tags
leave those of them that have one of the tags, in any case; for that each prompt is read, and one
that cannot be read stops the run. But a list of tags in which nothing stands between its commas
counts as no list: then all prompts are run (`selected_by_tags`).
-/

namespace PlainSteps

/-! ### The order of paths -/

theorem Text.notAfter_iff {a b : Text} : Text.notAfter a b = true ↔ a = b ∨ a < b := by
  fun_induction Text.notAfter a b with
  | case1 b =>
    cases b with
    | nil => simp
    | cons c cs => simp
  | case2 a as => simp
  | case3 a as b bs heq ih =>
    obtain rfl := eq_of_beq heq
    simp [ih]
  | case4 a as b bs hne =>
    have hne : a ≠ b := by simpa using hne
    simp [List.cons_lt_cons_iff, hne]

/-- Texts without repetition are put in strict order. -/
theorem Text.pairwise_mergeSort {ts : List Text} (h : ts.Nodup) :
    (ts.mergeSort Text.notAfter).Pairwise (· < ·) := by
  have htrans : ∀ a b c : Text, Text.notAfter a b = true → Text.notAfter b c = true →
      Text.notAfter a c = true := by
    intro a b c hab hbc
    rw [Text.notAfter_iff] at hab hbc ⊢
    rcases hab with rfl | hab
    · exact hbc
    · rcases hbc with rfl | hbc
      · exact .inr hab
      · exact .inr (lt_trans hab hbc)
  have htotal : ∀ a b : Text, (Text.notAfter a b || Text.notAfter b a) = true := by
    intro a b
    rw [Bool.or_eq_true, Text.notAfter_iff, Text.notAfter_iff]
    rcases lt_trichotomy a b with hlt | rfl | hlt
    · exact .inl (.inr hlt)
    · exact .inl (.inl rfl)
    · exact .inr (.inr hlt)
  refine (List.pairwise_mergeSort htrans htotal ts).imp₂ (fun a b hle hne => ?_)
    ((List.mergeSort_perm ts Text.notAfter).nodup_iff.mpr h)
  exact (Text.notAfter_iff.mp hle).resolve_left hne

namespace Pipeline

variable {files : Files} {directory path : Text}

/-! ### Prompts below a directory -/

/-- Whether a path has the extension of a prompt, in any case. -/
def NamesPrompt (path : Text) : Prop :=
  ∃ extension ∈ extensions, ∃ front written, path = front ++ written ∧
    written.map Text.fold = extension.map Text.fold

/-- The paths of the prompts below a directory: names that are not hidden lead from there to a file,
and the last of them has the extension. -/
def IsPromptBelow (files : Files) (directory path : Text) : Prop :=
  ∃ names content, Glob.Shows files directory names content ∧
    path = Glob.pathBelow (Glob.baseOf directory) names ∧
    NamesPrompt path

theorem isPrompt_iff :
    isPrompt files path = true ↔ NamesPrompt path ∧ ∃ content,
      files.find path = .ok (.file content) := by
  have hplain : ∀ extension ∈ extensions, ∀ c ∈ extension, Text.IsPlain c := by
    have hall : ∀ extension ∈ extensions, extension.all (Text.IsPlain ·) = true := by decide
    intro extension h c hc
    exact of_decide_eq_true (List.all_eq_true.mp (hall extension h) c hc)
  have hfile : files.isFile path = true ↔ ∃ content, files.find path = .ok (.file content) := by
    unfold Files.isFile
    split
    · rename_i content hfind
      exact iff_of_true rfl ⟨content, hfind⟩
    · rename_i hfind
      exact iff_of_false Bool.false_ne_true fun ⟨content, h⟩ => hfind content h
  rw [isPrompt, Bool.and_eq_true, hfile, List.any_eq_true]
  refine and_congr_left fun _ => exists_congr fun extension => and_congr_right fun h => ?_
  exact Text.endsWith_lower_iff (hplain extension h)

theorem mem_allPrompts_iff (hroot : files.root.WellNamed)
    (hwild : Glob.hasWildcard directory = false) :
    path ∈ allPrompts files directory ↔ IsPromptBelow files directory path := by
  rw [allPrompts, List.mem_mergeSort, List.mem_filter, isPrompt_iff]
  constructor
  · rintro ⟨hfound, hnames, content, hfile⟩
    obtain ⟨names, hshows, hpath⟩ := (Glob.mem_everything_file_iff hroot hwild).mp ⟨hfound, hfile⟩
    exact ⟨names, content, hshows, hpath, hnames⟩
  · rintro ⟨names, content, hshows, hpath, hnames⟩
    obtain ⟨hfound, hfile⟩ := (Glob.mem_everything_file_iff hroot hwild).mpr ⟨names, hshows, hpath⟩
    exact ⟨hfound, hnames, content, hfile⟩

/-- Whether the prompt in a file has one of the tags, in any case. -/
def HasTagOf (tags : List Text) (files : Files) (path : Text) : Prop :=
  ∃ text, files.readText path = .ok text ∧ ∃ tag ∈ (Prompt.parse text path).tags,
    Text.lower tag ∈ tags.map Text.lower

theorem pairwise_allPrompts (hroot : files.root.WellNamed)
    (hwild : Glob.hasWildcard directory = false) :
    (allPrompts files directory).Pairwise (· < ·) :=
  Text.pairwise_mergeSort ((Glob.nodup_everything hroot hwild).filter _)

theorem hasTagOf_iff_hasTag (tags : List Text) {text : Text}
    (hread : files.readText path = .ok text) :
    HasTagOf tags files path ↔ hasTag (tags.map Text.lower) (Prompt.parse text path) = true := by
  simp [HasTagOf, hread, hasTag]

/-- Where all prompts can be read, those with one of the tags are kept. -/
theorem exists_keepTagged (tags : List Text) {paths : List Text}
    (hread : ∀ path ∈ paths, ∃ text, files.readText path = .ok text) :
    ∃ kept, keepTagged files (tags.map Text.lower) paths = .ok kept ∧ kept.Sublist paths ∧
      ∀ path, path ∈ kept ↔ path ∈ paths ∧ HasTagOf tags files path := by
  induction paths with
  | nil => exact ⟨[], rfl, .slnil, by simp⟩
  | cons first rest ih =>
    obtain ⟨⟨text, htext⟩, hrest⟩ := List.forall_mem_cons.mp hread
    obtain ⟨kept, hkept, hsub, hmem⟩ := ih hrest
    have htagged := hasTagOf_iff_hasTag tags htext
    refine ⟨if hasTag (tags.map Text.lower) (Prompt.parse text first) then first :: kept
      else kept, ?_, ?_, fun path => ?_⟩
    · rw [keepTagged, htext, hkept]
      rfl
    · split
      · exact hsub.cons_cons first
      · exact hsub.cons first
    · by_cases hfirst : hasTag (tags.map Text.lower) (Prompt.parse text first) = true
      · rw [if_pos hfirst, List.mem_cons, hmem, List.mem_cons]
        constructor
        · rintro (rfl | ⟨hin, hhas⟩)
          · exact ⟨.inl rfl, htagged.mpr hfirst⟩
          · exact ⟨.inr hin, hhas⟩
        · rintro ⟨rfl | hin, hhas⟩
          · exact .inl rfl
          · exact .inr ⟨hin, hhas⟩
      · rw [if_neg hfirst, hmem, List.mem_cons]
        refine ⟨fun h => ⟨.inr h.1, h.2⟩, ?_⟩
        rintro ⟨rfl | hin, hhas⟩
        · exact absurd (htagged.mp hhas) hfirst
        · exact ⟨hin, hhas⟩

/-- The first prompt that cannot be read ends the search for tags. -/
theorem keepTagged_of_firstUnreadable {wanted paths : List Text} {e : FileError}
    (h : FirstUnreadable files paths e) :
    keepTagged files wanted paths = .error e := by
  induction paths with
  | nil => exact absurd h not_firstUnreadable_nil
  | cons first rest ih =>
    rw [keepTagged]
    rcases firstUnreadable_cons_iff.mp h with herror | ⟨⟨text, htext⟩, hrest⟩
    · rw [herror]
      rfl
    · rw [htext, ih hrest]
      rfl

/-- **What is selected below a directory.** Without tags, or where all prompts can be read, the
prompts in the strict order of their paths, under tags those that have one of them. -/
theorem exists_select (hroot : files.root.WellNamed) (hwild : Glob.hasWildcard directory = false)
    {tags : List Text}
    (hread : (∀ path, IsPromptBelow files directory path →
      ∃ text, files.readText path = .ok text) ∨ tags = []) :
    ∃ paths, select files directory tags = .ok paths ∧ paths.Pairwise (· < ·) ∧
      ∀ path, path ∈ paths ↔
        IsPromptBelow files directory path ∧ (HasTagOf tags files path ∨ tags = []) := by
  have hall := pairwise_allPrompts hroot hwild
  unfold select
  by_cases hnone : tags = []
  · rw [if_pos (List.isEmpty_iff.mpr hnone)]
    refine ⟨_, rfl, hall, fun path => ?_⟩
    rw [mem_allPrompts_iff hroot hwild, and_iff_left (.inr hnone)]
  · rw [if_neg (mt List.isEmpty_iff.mp hnone)]
    have hreadable := hread.resolve_right hnone
    obtain ⟨kept, hkept, hsub, hmem⟩ := exists_keepTagged tags fun path hpath =>
      hreadable path ((mem_allPrompts_iff hroot hwild).mp hpath)
    refine ⟨kept, hkept, hall.sublist hsub, fun path => ?_⟩
    rw [hmem, mem_allPrompts_iff hroot hwild, or_iff_left hnone]

/-- Under tags, the first prompt that cannot be read ends the selection. -/
theorem select_of_unreadable (hroot : files.root.WellNamed)
    (hwild : Glob.hasWildcard directory = false) {tags : List Text} (htags : tags ≠ [])
    {e : FileError} (hbelow : IsPromptBelow files directory path)
    (hunread : files.readText path = .error e)
    (hfirst : ∀ other, IsPromptBelow files directory other → other < path →
      ∃ text, files.readText other = .ok text) :
    select files directory tags = .error e := by
  obtain ⟨before, rest, hsplit⟩ := List.append_of_mem ((mem_allPrompts_iff hroot hwild).mpr hbelow)
  have hall : (allPrompts files directory).Pairwise (· < ·) := pairwise_allPrompts hroot hwild
  rw [hsplit] at hall
  have hbefore : ∀ b ∈ before, ∃ text, files.readText b = .ok text := by
    intro b hb
    refine hfirst b ((mem_allPrompts_iff hroot hwild).mp ?_)
      ((List.pairwise_append.mp hall).2.2 b hb path (.head _))
    rw [hsplit]
    exact List.mem_append_left _ hb
  unfold select
  rw [if_neg (mt List.isEmpty_iff.mp htags)]
  exact keepTagged_of_firstUnreadable ⟨before, path, rest, hsplit, hbefore, hunread⟩

/-- Under tags, the selection ends at some prompt if one cannot be read. -/
theorem exists_select_error (hroot : files.root.WellNamed)
    (hwild : Glob.hasWildcard directory = false) {tags : List Text} (htags : tags ≠ [])
    {e : FileError} (hbelow : IsPromptBelow files directory path)
    (hunread : files.readText path = .error e) : ∃ d, select files directory tags = .error d := by
  unfold select
  rw [if_neg (mt List.isEmpty_iff.mp htags)]
  rcases forall_readable_or_firstUnreadable files (allPrompts files directory)
    with hall | ⟨d, hfirst⟩
  · obtain ⟨text, hread⟩ := hall path ((mem_allPrompts_iff hroot hwild).mpr hbelow)
    cases hread.symm.trans hunread
  · exact ⟨d, keepTagged_of_firstUnreadable hfirst⟩

end Pipeline

namespace Command.Run

open Script

variable {given : Arguments.Given} {t : Text}

/-! ### The tags of a run -/

/-- The tags that a run is given are read as those of a prompt are. -/
theorem tagsOf_eq (htags : given.value? "--tags" = some t) (hne : t ≠ []) :
    tagsOf given = Prompt.tagsOf t := by
  have hgiven : nonEmpty given "--tags" = some t := by
    rw [nonEmpty, htags]
    simp [hne]
  rw [tagsOf, hgiven, Prompt.tagsOf, List.filter_map]
  rfl

/-- There are no tags just when nothing but commas and blanks is given. -/
theorem tagsOf_eq_nil_iff : Prompt.tagsOf t = [] ↔ ∀ c ∈ t, c = ',' ∨ Text.isBlank c = true := by
  have hparts : Prompt.tagsOf t = [] ↔ ∀ part ∈ Text.splitOn ',' t, ∀ c ∈ part,
      Text.isBlank c = true := by
    simp [Prompt.tagsOf, Text.trim, Text.trimOf_eq_nil_iff]
  rw [hparts]
  constructor
  · intro h c hc
    by_cases hcomma : c = ','
    · exact .inl hcomma
    · obtain ⟨part, hpart, hin⟩ :=
        (Text.exists_mem_splitWhere_iff (p := (· == ','))).mpr ⟨hc, by simpa using hcomma⟩
      exact .inr (h part hpart c hin)
  · intro h part hpart c hc
    obtain ⟨hin, hcomma⟩ := Text.exists_mem_splitWhere_iff.mp ⟨part, hpart, hc⟩
    exact (h c hin).resolve_left (by simpa using hcomma)

/-- **What tags select.** A run without a file of its own that is given tags, and can read all
prompts below its directory, goes on with a list of them in the strict order of their paths: all
that have one of the tags in any case, and no others. Only if nothing but commas and blanks is
given, it goes on with all prompts instead, and reads none. The first prompt that cannot be read
stops the run otherwise. -/
theorem selected_by_tags (p : Pipeline) (given : Arguments.Given) (hroot : p.files.root.WellNamed)
    (hfile : nonEmpty given "--file" = none) (htags : given.value? "--tags" = some t) (hne : t ≠ [])
    (hwild : Glob.hasWildcard (given.value "--prompts-dir" defaultDirectory) = false) :
    let IsBelow := Pipeline.IsPromptBelow p.files (given.value "--prompts-dir" defaultDirectory)
    let IsBlank := ∀ c ∈ t, c = ',' ∨ Text.isBlank c = true
    ((∀ path, IsBelow path → ∃ text, p.files.readText path = .ok text) ∨ IsBlank →
      ∃ paths : List Text,
        (∀ {σ β : Type} {h : Host σ} {st st' : σ} {calls : List Request} {r : Except Stop β}
        {f : Option (List Text) → Command β},
          (ExceptT.run (prompts? p given >>= f)).Plays h st r st' calls ↔
          (ExceptT.run (f (if paths = [] then none else some paths))).Plays h st r st' calls) ∧
      paths.Pairwise (· < ·) ∧
      ∀ path, path ∈ paths ↔ IsBelow path ∧
        (Pipeline.HasTagOf (Prompt.tagsOf t) p.files path ∨ IsBlank)) ∧
    (¬ IsBlank → ∀ path e, IsBelow path → p.files.readText path = .error e →
      (∀ other, IsBelow other → other < path → ∃ text, p.files.readText other = .ok text) →
      ∀ {σ β : Type} {h : Host σ} {st st' : σ} {calls : List Request} {r : Except Stop β}
        {f : Option (List Text) → Command β},
          (ExceptT.run (prompts? p given >>= f)).Plays h st r st' calls ↔
          r = .error (.file e) ∧ st' = st ∧ calls = []) := by
  intro IsBelow IsBlank
  have hprompts : promptsOf p.files given =
      Pipeline.select p.files (given.value "--prompts-dir" defaultDirectory) (Prompt.tagsOf t) := by
    rw [promptsOf, hfile, ← tagsOf_eq htags hne]
  have hblank : Prompt.tagsOf t = [] ↔ IsBlank := tagsOf_eq_nil_iff
  constructor
  · intro hread
    obtain ⟨paths, hselect, hpairwise, hmem⟩ :=
      Pipeline.exists_select hroot hwild (hread.imp_right hblank.mpr)
    refine ⟨paths, ?_, hpairwise, fun path => ?_⟩
    · intro σ β h st st' calls r f
      rw [plays_run_prompts_bind_iff, hprompts, hselect]
      cases paths <;> exact Iff.rfl
    · rw [hmem, hblank]
  · intro hnot path e hbelow hunread hfirst σ β h st st' calls r f
    rw [plays_run_prompts_bind_iff, hprompts,
      Pipeline.select_of_unreadable hroot hwild (mt hblank.mp hnot) hbelow hunread hfirst]

/-- A prompt with tags and one without. -/
def fewPrompts : List (Text × Node) :=
  [("b.TXT", .file (.text "Tags: Smoke, nightly\nWait 2 s")), ("a.txt", .file (.text "Wait 1 s"))]

/-- A pipeline over them. -/
def taggedPipeline : Pipeline where
  config := { name := "Demo", baseUrl := "http://a" }
  browsers := ["chromium"]
  files := .ofEntries [("prompts", .directory fewPrompts)]
  now := ⟨2024, 1, 2, 3, 4, 5⟩

/-- A run over them goes on with the prompt that has the tag, and without the one that has none. -/
theorem selected_by_tags_smoke : ∃ paths : List Text,
    (∀ {σ β : Type} {h : Host σ} {st st' : σ} {calls : List Request} {r : Except Stop β}
      {f : Option (List Text) → Command β},
      (ExceptT.run (prompts? taggedPipeline ⟨[("--tags", " smoke,")], false⟩ >>= f)).Plays
        h st r st' calls ↔
        (ExceptT.run (f (some paths))).Plays h st r st' calls) ∧
    "prompts/b.TXT".toList ∈ paths ∧ "prompts/a.txt".toList ∉ paths := by
  have hfew : (Node.directory fewPrompts).WellNamed :=
    .directory (by decide) (by decide) (by decide) (by simpa [fewPrompts] using ⟨.file _, .file _⟩)
  have hroot : taggedPipeline.files.root.WellNamed :=
    .directory (by decide) (by decide) (by decide) (by simpa using hfew)
  -- the prompts are found by running the search, and their texts can be read
  have hread : ∀ path, Pipeline.IsPromptBelow taggedPipeline.files "prompts" path →
      ∃ text, taggedPipeline.files.readText path = .ok text := by
    have hfound : (Glob.find taggedPipeline.files (Path.join "prompts" "**/*")).filter
        (Pipeline.isPrompt taggedPipeline.files) =
          ["prompts/b.TXT".toList, "prompts/a.txt".toList] := by
      decide +kernel
    intro path hbelow
    have hmem := (Pipeline.mem_allPrompts_iff hroot rfl).mpr hbelow
    rw [Pipeline.allPrompts, List.mem_mergeSort, hfound] at hmem
    rcases List.mem_pair.mp hmem with rfl | rfl
    · exact ⟨_, rfl⟩
    · exact ⟨_, rfl⟩
  obtain ⟨paths, hplays, -, hpaths⟩ :=
    (selected_by_tags taggedPipeline ⟨[("--tags", " smoke,")], false⟩ hroot rfl rfl
    (by decide) rfl).1 (.inl hread)
  have htagged : "prompts/b.TXT".toList ∈ paths := by
    refine (hpaths _).mpr
      ⟨⟨["b.TXT".toList], .text "Tags: Smoke, nightly\nWait 2 s", ?_, by decide, ?_⟩, .inl ?_⟩
    · exact ⟨List.cons_ne_nil _ _, ⟨.directory fewPrompts, rfl, .down (.head _) (.here _)⟩,
        by decide, by decide⟩
    · exact ⟨".txt".toList, .head _, "prompts/b".toList, ".TXT".toList, by decide, by decide⟩
    · exact ⟨"Tags: Smoke, nightly\nWait 2 s".toList,
        by decide, "Smoke".toList, by decide, by decide⟩
  rw [if_neg (List.ne_nil_of_mem htagged)] at hplays
  refine ⟨paths, hplays, htagged, fun hmem => ?_⟩
  rcases ((hpaths _).mp hmem).2 with ⟨text, htext, tag, htag, -⟩ | hblank
  · have hown : taggedPipeline.files.readText "prompts/a.txt" = .ok "Wait 1 s" := by decide
    rw [hown] at htext
    cases htext
    have hnone : (Prompt.parse "Wait 1 s" "prompts/a.txt").tags = [] := by decide
    rw [hnone] at htag
    cases htag
  · exact absurd (hblank 's' (by decide)) (by decide)

/-- A directory with one prompt. -/
def onePrompt : Files := .ofEntries [("prompts", .directory [("p.txt", .file (.text "Wait 2 s"))])]

/-- A comma alone selects a prompt that has no tags at all. -/
theorem select_comma :
    Prompt.tagsOf "," = [] ∧ (Prompt.parse "Wait 2 s" "prompts/p.txt").tags = [] ∧
    Pipeline.select onePrompt
      (Arguments.Given.value ⟨[("--tags", ",")], false⟩ "--prompts-dir" defaultDirectory)
      (tagsOf ⟨[("--tags", ",")], false⟩) = .ok ["prompts/p.txt".toList] := by
  decide +kernel

end Command.Run

end PlainSteps
