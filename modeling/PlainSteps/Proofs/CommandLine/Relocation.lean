import Mathlib.Data.List.Sort
import PlainSteps.Proofs.CommandLine.Selection
import PlainSteps.Proofs.Prompt.Hints

/-! # Where a directory of prompts lives

A prompt with tags of its own has them wherever it lives. But the tags of one without any are
inferred from its whole path as well as from its body, and a hint occurs in a path just when it
occurs in one of its names. So beside the hints in the body and in the names below the directory,
those in the path of the directory count for every such prompt: under tags that the directory asks
for, all of them are selected. Two directories that hold the same tree therefore select the same if
they ask for the same, and otherwise only if the tree makes no difference of it
(`selected_alike_iff`). A prompt that is no text stops the selection by tags in both.
-/

namespace PlainSteps

theorem Text.append_lt_append_iff {front a b : Text} : front ++ a < front ++ b ↔ a < b := by
  induction front with
  | nil => exact Iff.rfl
  | cons c cs ih => simp [ih]

namespace Prompt

/-! ### Tags and paths -/

/-- What the lines in front of the body give. -/
def headOf (text : Text) : Head := readHead {} (Text.lines text)

/-- The body behind them. -/
def bodyOf (text : Text) : Text := Text.trim (Text.joinWith ['\n'] (headOf text).body)

theorem parse_tags (text file : Text) : (parse text file).tags =
    if (headOf text).tags = [] then inferTags (file ++ ' ' :: bodyOf text)
      else (headOf text).tags := by
  unfold parse headOf bodyOf
  dsimp only
  congr 1
  exact propext List.isEmpty_iff

/-- The directory in front of a path adds what it hints at, if there are no tags on the lines of the
prompt. -/
theorem mem_tags_parse_append {text lead path tag : Text}
    (hlead : lead = [] ∨ ∃ own, lead = own ++ ['/']) :
    tag ∈ (parse text (lead ++ path)).tags ↔
      tag ∈ (parse text path).tags ∨ (headOf text).tags = [] ∧ tag ∈ inferTags lead := by
  rw [parse_tags, parse_tags]
  by_cases hown : (headOf text).tags = []
  · rw [if_pos hown, if_pos hown, and_iff_right hown]
    rcases hlead with rfl | ⟨own, rfl⟩
    · rw [List.nil_append]
      exact (or_iff_left List.not_mem_nil).symm
    · have hslash : ∀ d ∈ ['/'], d = '/' := fun d hd => List.mem_singleton.mp hd
      rw [List.append_assoc, List.append_assoc, List.singleton_append,
        mem_inferTags_append_cons (.inl rfl), mem_inferTags_append_slashes hslash, or_comm]
  · rw [if_neg hown, if_neg hown]
    exact (or_iff_left fun h => hown h.1).symm

end Prompt

namespace Glob

/-- The path in front of the names below a directory hints at what the path of the directory
does. -/
theorem mem_inferTags_lead_baseOf {directory tag : Text} :
    tag ∈ Prompt.inferTags (Path.lead (baseOf directory)) ↔ tag ∈ Prompt.inferTags directory := by
  have hlead : ∀ base : Text, tag ∈ Prompt.inferTags (Path.lead base) ↔
      tag ∈ Prompt.inferTags base := by
    intro base
    unfold Path.lead
    split
    · exact Iff.rfl
    · exact Prompt.mem_inferTags_append_slashes fun d hd => List.mem_singleton.mp hd
  have htrimmed : ∀ t : Text, tag ∈ Prompt.inferTags (Text.trimRightOf (· == '/') t) ↔
      tag ∈ Prompt.inferTags t := by
    intro t
    have hparts : Text.trimRightOf (· == '/') t ++ t.rtakeWhile (· == '/') = t :=
      List.rdropWhile_append_rtakeWhile
    conv_rhs => rw [← hparts]
    exact (Prompt.mem_inferTags_append_slashes fun d hd =>
      by simpa using List.mem_rtakeWhile_imp hd).symm
  rw [hlead]
  unfold baseOf
  dsimp only
  split
  · exact hlead directory
  · exact (htrimmed _).trans (hlead directory)

end Glob

namespace Pipeline

variable {files files' : Files} {directory directory' lead path : Text} {tree : Node}
  {tags names : List Text} {content : Content}

/-! ### Prompts in a tree -/

/-- A directory that holds a tree: its path has no wildcard and leads there, and no file in it has a
path that is too long or is not to be used. -/
structure Holds (files : Files) (directory : Text) (tree : Node) : Prop where
  wellNamed : files.root.WellNamed
  noWildcard : Glob.hasWildcard directory = false
  stands : files.at? (Glob.baseOf directory) = .ok tree
  fits : ∀ names content, tree.Leads names (.file content) →
    Files.size (Glob.pathBelow (Glob.baseOf directory) names) ≤ Files.maxPath
  allowed : ∀ names content, tree.Leads names (.file content) →
    files.refusal (Glob.pathBelow (Glob.baseOf directory) names) = none

/-- Names, none of them hidden, that lead to a prompt in a tree. -/
structure IsPromptAt (tree : Node) (names : List Text) (content : Content) : Prop where
  ne_nil : names ≠ []
  leads : tree.Leads names (.file content)
  shown : ∀ name ∈ names, Glob.isHidden name = false
  named : NamesPrompt (Text.joinWith ['/'] names)

/-- Every prompt in a tree is a text. -/
def HoldsTexts (tree : Node) : Prop :=
  ∀ names content, IsPromptAt tree names content → ∃ text, content.asText = .ok text

/-- Whether one of the tags asked for is among others, in any case. -/
def Meets (tags others : List Text) : Prop := ∃ tag ∈ others, Text.lower tag ∈ tags.map Text.lower

/-- A path that is selected of the tree, as it is seen from the directory: without tags that of any
prompt, and under tags that of a prompt that has one of them as it is seen from there, or that has
no tags of its own if the path of the directory hints at one. -/
def IsSelected (tree : Node) (directory : Text) (tags : List Text) (path : Text) : Prop :=
  ∃ names content, IsPromptAt tree names content ∧ path = Text.joinWith ['/'] names ∧
    ((∃ text, content.asText = .ok text ∧ (Meets tags (Prompt.parse text path).tags ∨
      (Prompt.headOf text).tags = [] ∧ Meets tags (Prompt.inferTags directory))) ∨ tags = [])

/-- A path as it is seen from a directory. -/
def relative (directory path : Text) : Text := path.drop (Path.lead (Glob.baseOf directory)).length

theorem relative_lead_append (directory path : Text) :
    relative directory (Path.lead (Glob.baseOf directory) ++ path) = path :=
  List.drop_left

/-- The extension stands in the last name, whatever is in front of the names. -/
theorem namesPrompt_append_iff (hlead : lead = [] ∨ ∃ own, lead = own ++ ['/']) :
    NamesPrompt (lead ++ path) ↔ NamesPrompt path := by
  constructor
  · rintro ⟨extension, hextension, front, written, hparts, hfold⟩
    refine ⟨extension, hextension, ?_⟩
    have hslash : '/' ∉ written := by
      intro hin
      have hnone : '/' ∉ extension.map Text.fold := by
        have hall : ∀ extension ∈ extensions, '/' ∉ extension.map Text.fold := by decide
        exact hall extension hextension
      rw [← hfold] at hnone
      exact hnone (List.mem_map_of_mem (f := Text.fold) hin)
    rcases List.append_eq_append_iff.mp hparts with ⟨between, rfl, hpath⟩ | ⟨between, rfl, rfl⟩
    · exact ⟨between, written, hpath, hfold⟩
    · -- the extension cannot reach over the slash in front of the names
      cases between using List.reverseRecOn with
      | nil => exact ⟨[], path, rfl, by simpa using hfold⟩
      | append_singleton own d =>
        rcases hlead with hempty | ⟨before, hbefore⟩
        · simp at hempty
        · rw [← List.append_assoc] at hbefore
          obtain ⟨-, hlast⟩ := List.append_inj' hbefore rfl
          obtain rfl := (List.cons.inj hlast).1
          simp at hslash
  · rintro ⟨extension, hextension, front, written, rfl, hfold⟩
    exact ⟨extension, hextension, lead ++ front, written, (List.append_assoc _ _ _).symm, hfold⟩

namespace Holds

theorem wellNamed_tree (h : Holds files directory tree) : tree.WellNamed :=
  h.wellNamed.of_find h.stands

theorem pathBelow_eq (h : Holds files directory tree) (hprompt : IsPromptAt tree names content) :
    Glob.pathBelow (Glob.baseOf directory) names = Path.lead (Glob.baseOf directory) ++
      Text.joinWith ['/'] names := by
  have hnames := h.wellNamed_tree.entryNames hprompt.leads
  rw [Glob.pathBelow, Path.join_eq_lead_append (Files.isAbsolute_joinWith hprompt.ne_nil hnames)]

theorem readText_eq (h : Holds files directory tree) (hprompt : IsPromptAt tree names content) :
    files.readText (Path.lead (Glob.baseOf directory) ++ Text.joinWith ['/'] names) =
      content.asText := by
  have hnames := h.wellNamed_tree.entryNames hprompt.leads
  obtain ⟨first, rest, hfirst⟩ := List.exists_cons_of_ne_nil hprompt.ne_nil
  obtain ⟨entries, rfl⟩ : ∃ entries, tree = .directory entries := by
    have hleads := hprompt.leads
    rw [hfirst] at hleads
    cases hleads with
    | down _ _ => exact ⟨_, rfl⟩
  have hfind : files.find (Glob.pathBelow (Glob.baseOf directory) names) = .ok (.file content) :=
    (Glob.find_pathBelow h.wellNamed h.stands hprompt.ne_nil hnames).mpr
      ⟨h.fits names content hprompt.leads, hprompt.leads⟩
  have hallowed := h.allowed names content hprompt.leads
  rw [h.pathBelow_eq hprompt] at hfind hallowed
  rw [Files.readText_of_file hfind, hallowed]

/-- The prompts below a directory are those of the tree that it holds. -/
theorem isPromptBelow_iff (h : Holds files directory tree) : IsPromptBelow files directory path ↔
    ∃ names content, IsPromptAt tree names content ∧
      path = Path.lead (Glob.baseOf directory) ++ Text.joinWith ['/'] names := by
  have hlead := Path.lead_eq_nil_or_slash (Glob.baseOf directory)
  constructor
  · rintro ⟨names, content, hshows, rfl, hnamed⟩
    obtain ⟨start, hstart, hleads⟩ := hshows.leads
    obtain rfl : tree = start := Except.ok.inj (h.stands.symm.trans hstart)
    have hnames := h.wellNamed_tree.entryNames hleads
    have hpath : Glob.pathBelow (Glob.baseOf directory) names =
        Path.lead (Glob.baseOf directory) ++ Text.joinWith ['/'] names :=
      Path.join_eq_lead_append (Files.isAbsolute_joinWith hshows.ne_nil hnames)
    rw [hpath, namesPrompt_append_iff hlead] at hnamed
    exact ⟨names, content, ⟨hshows.ne_nil, hleads, hshows.shown, hnamed⟩, hpath⟩
  · rintro ⟨names, content, hprompt, rfl⟩
    refine ⟨names, content, ⟨hprompt.ne_nil, ⟨tree, h.stands, hprompt.leads⟩, hprompt.shown,
      h.fits names content hprompt.leads⟩, (h.pathBelow_eq hprompt).symm, ?_⟩
    exact (namesPrompt_append_iff hlead).mpr hprompt.named

/-- A prompt in the tree has the tags that it has as it is seen from the directory, and without tags
of its own those that the path of the directory hints at. -/
theorem hasTagOf_iff (h : Holds files directory tree) (hprompt : IsPromptAt tree names content) :
    HasTagOf tags files (Path.lead (Glob.baseOf directory) ++ Text.joinWith ['/'] names) ↔
      ∃ text, content.asText = .ok text ∧
        (Meets tags (Prompt.parse text (Text.joinWith ['/'] names)).tags ∨
          (Prompt.headOf text).tags = [] ∧ Meets tags (Prompt.inferTags directory)) := by
  rw [HasTagOf, h.readText_eq hprompt]
  refine exists_congr fun text => and_congr_right fun _ => ?_
  have hmem : ∀ tag, tag ∈
    (Prompt.parse text (Path.lead (Glob.baseOf directory) ++ Text.joinWith ['/'] names)).tags ↔
        tag ∈ (Prompt.parse text (Text.joinWith ['/'] names)).tags ∨
          (Prompt.headOf text).tags = [] ∧ tag ∈ Prompt.inferTags directory := fun tag => by
    rw [Prompt.mem_tags_parse_append (Path.lead_eq_nil_or_slash _), Glob.mem_inferTags_lead_baseOf]
  simp only [Meets, hmem]
  constructor
  · rintro ⟨tag, htag | ⟨hown, htag⟩, hwanted⟩
    · exact .inl ⟨tag, htag, hwanted⟩
    · exact .inr ⟨hown, tag, htag, hwanted⟩
  · rintro (⟨tag, htag, hwanted⟩ | ⟨hown, tag, htag, hwanted⟩)
    · exact ⟨tag, .inl htag, hwanted⟩
    · exact ⟨tag, .inr ⟨hown, htag⟩, hwanted⟩

/-- **What a directory selects of its tree,** in the order of the paths as they are seen from
there. -/
theorem exists_select (h : Holds files directory tree) (hread : tags = [] ∨ HoldsTexts tree) :
    ∃ paths, select files directory tags = .ok paths ∧
    (paths.map (relative directory)).Pairwise (· < ·) ∧
      ∀ path, path ∈ paths.map (relative directory) ↔ IsSelected tree directory tags path := by
  have hreadable : (∀ path, IsPromptBelow files directory path →
      ∃ text, files.readText path = .ok text) ∨ tags = [] := by
    refine hread.symm.imp_left fun htexts path hbelow => ?_
    obtain ⟨names, content, hprompt, rfl⟩ := h.isPromptBelow_iff.mp hbelow
    rw [h.readText_eq hprompt]
    exact htexts names content hprompt
  obtain ⟨paths, hselect, hpairwise, hmem⟩ :=
    Pipeline.exists_select h.wellNamed h.noWildcard hreadable
  have hbelow : ∀ path ∈ paths, ∃ names content, IsPromptAt tree names content ∧
      path = Path.lead (Glob.baseOf directory) ++ Text.joinWith ['/'] names := fun path hpath =>
    h.isPromptBelow_iff.mp ((hmem path).mp hpath).1
  refine ⟨paths, hselect, List.pairwise_map.mpr (hpairwise.imp_of_mem fun {a b} ha hb hlt => ?_),
    fun path => ?_⟩
  · obtain ⟨names, content, hprompt, rfl⟩ := hbelow a ha
    obtain ⟨names', content', hprompt', rfl⟩ := hbelow b hb
    rw [relative_lead_append, relative_lead_append]
    exact Text.append_lt_append_iff.mp hlt
  · rw [List.mem_map]
    constructor
    · rintro ⟨own, hown, rfl⟩
      obtain ⟨names, content, hprompt, rfl⟩ := hbelow own hown
      rw [relative_lead_append]
      exact ⟨names, content, hprompt, rfl,
        ((hmem _).mp hown).2.imp_left (h.hasTagOf_iff hprompt).mp⟩
    · rintro ⟨names, content, hprompt, rfl, hselected⟩
      refine ⟨_, (hmem _).mpr ⟨h.isPromptBelow_iff.mpr ⟨names, content, hprompt, rfl⟩, ?_⟩,
        relative_lead_append _ _⟩
      exact hselected.imp_left (h.hasTagOf_iff hprompt).mpr

/-- Under tags, a prompt that is no text ends the selection. -/
theorem exists_select_error (h : Holds files directory tree) (htags : tags ≠ [])
    (hno : ¬ HoldsTexts tree) :
    ∃ e, select files directory tags = .error e := by
  unfold HoldsTexts at hno
  push Not at hno
  obtain ⟨names, content, hprompt, hnone⟩ := hno
  cases hunread : content.asText with
  | ok text => exact absurd hunread (hnone text)
  | error e =>
    exact Pipeline.exists_select_error h.wellNamed h.noWildcard htags
      (h.isPromptBelow_iff.mpr ⟨names, content, hprompt, rfl⟩)
        ((h.readText_eq hprompt).trans hunread)

end Holds

/-- In a tree, the path of a prompt leads to nothing else. -/
theorem IsPromptAt.unique {names' : List Text} {content' : Content} (htree : tree.WellNamed)
    (h : IsPromptAt tree names content) (h' : IsPromptAt tree names' content')
    (hpath : Text.joinWith ['/'] names = Text.joinWith ['/'] names') : content = content' := by
  have hnames :=
    (Files.joinWith_inj h.ne_nil h'.ne_nil (htree.entryNames h.leads)
      (htree.entryNames h'.leads)).mp hpath
  subst hnames
  have hfound := (Files.descend_eq_ok_iff htree).mpr h.leads
  rw [(Files.descend_eq_ok_iff htree).mpr h'.leads] at hfound
  cases hfound
  rfl

/-- Every prompt without tags of its own has one of the tags by the names that lead to it and its
body alone. -/
def IsSettled (tree : Node) (tags : List Text) : Prop :=
  ∀ names content text, IsPromptAt tree names content → content.asText = .ok text →
    (Prompt.headOf text).tags = [] →
    Meets tags (Prompt.parse text (Text.joinWith ['/'] names)).tags

/-- If the path of one directory hints at one of the tags and that of the other does not, and both
select the same, then the tree is settled without the hint. -/
theorem isSettled_of_alike (htree : tree.WellNamed)
    (halike : ∀ path, IsSelected tree directory tags path ↔ IsSelected tree directory' tags path)
    (hasks : Meets tags (Prompt.inferTags directory))
    (hsilent : ¬ Meets tags (Prompt.inferTags directory')) :
    IsSettled tree tags := by
  intro names content text hprompt htext hown
  obtain ⟨names', content', hprompt', hpath, ⟨text', htext', htagged | ⟨-, hasks'⟩⟩ | hnone⟩ :=
    (halike _).mp ⟨names, content, hprompt, rfl, .inl ⟨text, htext, .inr ⟨hown, hasks⟩⟩⟩
  · obtain rfl := hprompt.unique htree hprompt' hpath
    obtain rfl := Except.ok.inj (htext.symm.trans htext')
    exact htagged
  · exact absurd hasks' hsilent
  · obtain ⟨tag, -, hwanted⟩ := hasks
    rw [hnone] at hwanted
    cases hwanted

/-- Paths are selected alike just when both directories ask for a tag or neither does, or the tree
is settled. -/
theorem isSelected_alike_iff (htree : tree.WellNamed) :
    (∀ path, IsSelected tree directory tags path ↔ IsSelected tree directory' tags path) ↔
      (Meets tags (Prompt.inferTags directory) ↔ Meets tags (Prompt.inferTags directory')) ∨
      IsSettled tree tags := by
  constructor
  · intro halike
    by_cases hasks : Meets tags (Prompt.inferTags directory)
    · by_cases hasks' : Meets tags (Prompt.inferTags directory')
      · exact .inl (iff_of_true hasks hasks')
      · exact .inr (isSettled_of_alike htree halike hasks hasks')
    · by_cases hasks' : Meets tags (Prompt.inferTags directory')
      · exact .inr (isSettled_of_alike htree (fun path => (halike path).symm) hasks' hasks)
      · exact .inl (iff_of_false hasks hasks')
  · intro hsame path
    refine exists_congr fun names => exists_congr fun content => and_congr_right fun hprompt =>
      and_congr_right fun hpath =>
        or_congr_left (exists_congr fun text => and_congr_right fun htext => ?_)
    subst hpath
    rcases hsame with hsame | hsettled
    · rw [hsame]
    · -- the path of neither directory adds a prompt
      have hown := hsettled names content text hprompt htext
      rw [or_iff_left_of_imp fun hhint => hown hhint.1,
        or_iff_left_of_imp fun hhint => hown hhint.1]

/-- **What the place of a directory changes.** Of two directories that hold the same tree of texts,
both select, and they select the same prompts, seen from each of them, just when their paths both
hint at one of the tags or both do not, or when no prompt in the tree hangs on that: each one
without tags of its own has one of the tags by the names that lead to it and its body alone. Under
tags, a prompt that is no text ends the selection of both. -/
theorem selected_alike_iff (h : Holds files directory tree) (h' : Holds files' directory' tree)
    (tags : List Text) :
    (tags = [] ∨ HoldsTexts tree → ∃ paths paths', select files directory tags = .ok paths ∧
      select files' directory' tags = .ok paths' ∧
      (paths.map (relative directory) = paths'.map (relative directory') ↔
        (Meets tags (Prompt.inferTags directory) ↔ Meets tags (Prompt.inferTags directory')) ∨
        IsSettled tree tags)) ∧
    (tags ≠ [] → ¬ HoldsTexts tree →
      (∃ e, select files directory tags = .error e) ∧
      ∃ e, select files' directory' tags = .error e) := by
  refine ⟨fun hread => ?_,
    fun htags hno => ⟨h.exists_select_error htags hno, h'.exists_select_error htags hno⟩⟩
  obtain ⟨paths, hselect, hpairwise, hmem⟩ := h.exists_select hread
  obtain ⟨paths', hselect', hpairwise', hmem'⟩ := h'.exists_select hread
  refine ⟨paths, paths', hselect, hselect', ?_⟩
  rw [← isSelected_alike_iff h.wellNamed_tree]
  simp only [← hmem, ← hmem']
  -- texts in strict order are determined by what they are
  exact ⟨fun heq path => by rw [heq], fun halike => hpairwise.eq_of_mem_iff hpairwise' halike⟩

/-- A tree with one prompt, which gives no tags and hints at none. -/
def untaggedTree : Node := .directory [("p.txt", .file (.text "Wait 2 s"))]

/-- The tree in a directory of some name. -/
def suite (name : Text) : Files := .ofEntries [(name, untaggedTree)]

theorem holds_suite {name : Text} (hname : IsEntryName name)
    (hshort : Files.size name ≤ Files.maxName) (hwild : Glob.hasWildcard name = false)
    (hstands : (suite name).at? (Glob.baseOf name) = .ok untaggedTree)
    (hfits : Files.size (Glob.pathBelow (Glob.baseOf name) ["p.txt".toList]) ≤ Files.maxPath) :
    Holds (suite name) name untaggedTree where
  wellNamed := by
    have htree : untaggedTree.WellNamed :=
      .directory (by decide) (by decide) (by decide) (List.forall_mem_singleton.mpr (.file _))
    exact .directory (by simpa using hname) (by simpa using hshort) (List.nodup_singleton _)
      (by simpa using htree)
  noWildcard := hwild
  stands := hstands
  fits names content hleads := by
    cases hleads with
    | down hentry hfurther =>
      cases List.mem_singleton.mp hentry
      cases hfurther
      exact hfits
  allowed _ _ _ := rfl

theorem holdsTexts_untaggedTree : HoldsTexts untaggedTree := by
  rintro names content ⟨-, hleads, -, -⟩
  cases hleads with
  | down hentry hfurther =>
    cases List.mem_singleton.mp hentry
    cases hfurther
    exact ⟨_, rfl⟩

/-- Two directories that both ask for a tag select the same of a tree, and the one whose name does
not ask for it selects something else. -/
theorem selected_alike_iff_login :
    (∃ paths paths', select (suite "login-suite") "login-suite" ["Login"] = .ok paths ∧
      select (suite "After_LOGIN") "After_LOGIN" ["Login"] = .ok paths' ∧
      paths.map (relative "login-suite") = paths'.map (relative "After_LOGIN")) ∧
    ∃ paths paths', select (suite "login-suite") "login-suite" ["Login"] = .ok paths ∧
      select (suite "suite") "suite" ["Login"] = .ok paths' ∧
      paths.map (relative "login-suite") ≠ paths'.map (relative "suite") := by
  have hsuite : Holds (suite "login-suite") "login-suite" untaggedTree :=
    holds_suite (by decide) (by decide) rfl rfl (by decide)
  have hafter : Holds (suite "After_LOGIN") "After_LOGIN" untaggedTree :=
    holds_suite (by decide) (by decide) rfl rfl (by decide)
  have hplain : Holds (suite "suite") "suite" untaggedTree :=
    holds_suite (by decide) (by decide) rfl rfl (by decide)
  have hlogin : Meets ["Login".toList] (Prompt.inferTags "login-suite") :=
    ⟨"login".toList, by decide, by decide⟩
  have hafterLogin : Meets ["Login".toList] (Prompt.inferTags "After_LOGIN") :=
    ⟨"login".toList, by decide, by decide⟩
  constructor
  · obtain ⟨paths, paths', hselect, hselect', halike⟩ :=
      (selected_alike_iff hsuite hafter ["Login"]).1 (.inr holdsTexts_untaggedTree)
    exact ⟨paths, paths', hselect, hselect', halike.mpr (.inl (iff_of_true hlogin hafterLogin))⟩
  · obtain ⟨paths, paths', hselect, hselect', halike⟩ :=
      (selected_alike_iff hsuite hplain ["Login"]).1 (.inr holdsTexts_untaggedTree)
    refine ⟨paths, paths', hselect, hselect', fun heq => ?_⟩
    rcases halike.mp heq with hboth | hsettled
    · obtain ⟨tag, htag, -⟩ := hboth.mp hlogin
      rw [show Prompt.inferTags "suite" = [] by decide] at htag
      cases htag
    · have hprompt : IsPromptAt untaggedTree ["p.txt".toList] (.text "Wait 2 s") :=
        ⟨List.cons_ne_nil _ _, .down (.head _) (.here _),
          by decide, ".txt".toList, .head _, ['p'], ".txt".toList, by decide, by decide⟩
      obtain ⟨tag, htag, -⟩ := hsettled _ _ _ hprompt rfl (by decide)
      rw [show (Prompt.parse (Text.unifyNewlines "Wait 2 s")
        (Text.joinWith ['/'] ["p.txt".toList])).tags = []
        by decide] at htag
      cases htag

/-- The name of a directory selects a prompt that says nothing of the tag; under another name the
same tree selects none. -/
theorem select_login_suite :
    select (suite "login-suite") "login-suite" ["login"] = .ok ["login-suite/p.txt".toList] ∧
      select (suite "suite") "suite" ["login"] = .ok [] ∧
      Prompt.inferTags "p.txt Wait 2 s" = [] := by
  decide +kernel

end Pipeline

end PlainSteps
