import PlainSteps.Proofs.Compilation.Compound
import PlainSteps.Proofs.Facts.DataFile

/-! # What compiling looks up

Files decide about a compilation only where a step runs over the rows of a dataset and carries no
rows itself: then the one file that the step names is looked up in the directory of the data files.
No clause of a step comes that far, and neither does a body whose rows are run as a whole. Over two
directories that hold the same under the paths looked up, compiling ends alike and tells the same;
and since such a path adds a single name to the directory, nothing outside of it is ever looked at.
-/

namespace PlainSteps

open Trying

/-! ### Datasets -/

/-- The data files of a directory that holds something else. -/
def DataSource.holding (s : DataSource) (look : Text → Stored) : DataSource := { s with look }

variable {s : DataSource} {look : Text → Stored} {text name : Text}

theorem DataSource.load_holding (h : look (s.path name) = s.look (s.path name)) :
    (s.holding look).load name = s.load name := by
  have hlook : (s.holding look).look ((s.holding look).path name) = s.look (s.path name) := h
  have htable : (s.holding look).tableAt name = s.tableAt name := by
    unfold tableAt
    dsimp only
    rw [hlook]
    rfl
  unfold load
  rw [htable]
  rfl

namespace Dataset

/-- The data file behind the rows of a text, unless the text carries rows itself. -/
def file? (text : Text) : Option Text :=
  if Compiler.runsInline text then none else Facts.dataset? text

theorem resolve_of_runsInline (h : Compiler.runsInline text = true) (s : DataSource) :
    resolve s text = do
      Told.say ("📋 Found ".toList ++ Text.ofNat (inlineRows text).length ++ " inline test datasets")
      return ⟨.inline, inlineRows text⟩ := by
  obtain ⟨hlabels, hrows⟩ := Bool.and_eq_true_iff.mp h
  unfold resolve
  rw [hlabels, if_pos rfl]
  dsimp only
  rw [if_pos hrows]

theorem resolve_of_not_runsInline (h : Compiler.runsInline text = false) (s : DataSource) :
    resolve s text = match Facts.dataset? text with
      | none => pure ⟨.inline, []⟩
      | some name => do
        match ← s.load name with
        | some dataset => return dataset
        | none =>
          Told.say ("⚠️  Dataset ".toList ++ name ++
            " unavailable - continuing with an empty dataset")
          return ⟨.external name, []⟩ := by
  have hnone : (!(if Facts.hasInlineRow text then inlineRows text else []).isEmpty) = false := by
    rw [Compiler.runsInline] at h
    cases hlabels : Facts.hasInlineRow text with
    | false => rfl
    | true => rwa [hlabels, Bool.true_and] at h
  unfold resolve
  dsimp only
  rw [hnone]
  rfl

/-- Without rows of its own a text has those of a file, or none. -/
theorem rows_of_not_runsInline (h : Compiler.runsInline text = false) (s : DataSource) :
    (resolve s text).value.rows = [] ∨
      ∃ name, Facts.dataset? text = some name ∧
      (s.load name).value = some (resolve s text).value := by
  rw [resolve_of_not_runsInline h]
  cases hname : Facts.dataset? text with
  | none => exact .inl rfl
  | some name =>
    dsimp only
    rw [Told.value_bind]
    cases hload : (s.load name).value with
    | none => exact .inl rfl
    | some dataset => exact .inr ⟨name, rfl, hload⟩

/-- The rows of a text are the same over what holds the same under the path of its file. -/
theorem resolve_holding (h : ∀ name ∈ file? text, look (s.path name) = s.look (s.path name)) :
    resolve (s.holding look) text = resolve s text := by
  unfold file? at h
  cases hinline : Compiler.runsInline text with
  | true => rw [resolve_of_runsInline hinline, resolve_of_runsInline hinline]
  | false =>
    rw [resolve_of_not_runsInline hinline, resolve_of_not_runsInline hinline]
    rw [hinline, if_neg Bool.false_ne_true] at h
    cases hname : Facts.dataset? text with
    | none => rfl
    | some name =>
      dsimp only
      rw [DataSource.load_holding (h name hname)]

end Dataset

theorem Expansion.expand_holding (config : Config) (number : Int)
    (h : ∀ name ∈ Dataset.file? text, look (s.path name) = s.look (s.path name)) :
    expand config (s.holding look) text number = expand config s text number := by
  unfold expand
  rw [Dataset.resolve_holding h]

namespace Compiler

/-- A compiler over data files that hold something else. -/
def holding (c : Compiler) (look : Text → Stored) : Compiler :=
  { c with source := c.source.holding look }

/-- The paths that are looked up for a prompt, in order: one for each step that names a data file
and carries no rows itself. -/
def lookups (c : Compiler) (text : Text) : List Text :=
  let body := (Prompt.parse text []).body
  if runsInline body then []
  else (Prompt.units body).filterMap fun u => (Dataset.file? u.text).map c.source.path

variable {c : Compiler} {depth : Int}

/-! ### Texts -/

/-- A reading has the intent of its text, unless it is one that nothing is known of. -/
theorem classify_intent {r : Reading} (h : (c.generator.classify depth text).result = .ok r) :
    r.intent = Rule.intentOf (Text.trim text) ∨ r.intent = .unknown := by
  rw [classify_result] at h
  cases hfind : Rule.table.find? (·.fires (Text.trim text)) with
  | none =>
    rw [hfind] at h
    cases h
    exact .inr rfl
  | some rule =>
    rw [hfind] at h
    rw [Rule.intentOf_of_find hfind]
    dsimp only at h
    rw [mapError_eq_ok_iff] at h
    cases hfindings : rule.findings c.generator.classifier.config (Text.trim text) with
    | error e =>
      rw [Classifier.readBy_of_error hfindings] at h
      cases h
    | ok f =>
      rw [Classifier.readBy_of_ok hfindings] at h
      split at h
      · cases h
        exact .inr rfl
      · cases h
        exact .inl rfl

theorem intentOf_of_quiet (h : Rule.Quiet text) : Rule.intentOf text ≠ .dataDrivenTest := by
  rw [Rule.intentOf_of_find (Rule.find?_of_quiet h)]
  split
  · decide
  · decide

/-- What a text leads to is the same over all files that give it the same rows: its clauses run over
none. -/
theorem generateWithin_holding (number : Int) (left : Nat) : ∀ (depth : Int) (text : Text),
    (Rule.intentOf (Text.trim text) = .dataDrivenTest →
      Expansion.expand c.config (c.source.holding look) text number =
        Expansion.expand c.config c.source text number) →
    (c.holding look).generator.generateWithin number left depth text =
      c.generator.generateWithin number left depth text := by
  -- the files are no part of how a text is read
  have hclassify : (c.holding look).generator.classify = c.generator.classify := rfl
  have hfill :
    ∀ {depth : Int} {text : Text} {r : Reading} {f f' : List Text →
      Trying GenerationError (List Action)}, (Rule.intentOf (Text.trim text) = .dataDrivenTest →
        Expansion.expand c.config (c.source.holding look) text number =
          Expansion.expand c.config c.source text number) →
      (c.generator.classify depth text).result = .ok r →
      (r.intent = .complexWorkflow → f r.findings.clauses = f' r.findings.clauses) →
      (c.holding look).generator.fillIn number text r f = c.generator.fillIn number text r f' := by
    intro depth text r f f' h hr hclauses
    refine Generator.fillIn_congr rfl (fun hintent => ?_) hclauses
    rcases classify_intent hr with heq | hunknown
    · exact h (heq.symm.trans hintent)
    · rw [hunknown] at hintent
      cases hintent
  induction left with
  | zero =>
    intro depth text h
    unfold Generator.generateWithin
    rw [hclassify]
    exact bind_congr fun r hr => hfill h hr fun _ => rfl
  | succ left ih =>
    intro depth text h
    unfold Generator.generateWithin
    rw [hclassify]
    refine bind_congr fun r hr => hfill h hr fun hintent => ?_
    obtain ⟨-, hcompound, hclauses⟩ := classify_ok hr
    have hquiet : Rule.Quiet (Text.trim text) := Rule.quiet_of_intentOf (hcompound.mp hintent).1
    rw [hclauses hintent]
    refine Generator.each_congr fun clause hclause => ih _ _ fun hrows => ?_
    exact absurd hrows
      (intentOf_of_quiet ((hquiet.clause hclause).of_cutFrom (cutFrom_trim clause)))

/-! ### Prompts -/

theorem compileUnit_holding {u : StepUnit}
    (h : ∀ name ∈ Dataset.file? u.text, look (c.source.path name) =
      c.source.look (c.source.path name)) :
    (c.holding look).compileUnit u = c.compileUnit u := by
  have hgenerate : (c.holding look).generator.generate u.index 0 u.text =
      c.generator.generate u.index 0 u.text :=
    generateWithin_holding _ _ _ _ fun _ => Expansion.expand_holding _ _ h
  unfold compileUnit
  rw [hgenerate]

theorem compileEach_holding :
    ∀ {units : List StepUnit}, (∀ u ∈ units, ∀ name ∈ Dataset.file? u.text,
      look (c.source.path name) = c.source.look (c.source.path name)) →
    (c.holding look).compileEach units = c.compileEach units
  | [], _ => rfl
  | u :: rest, h => by
    rw [compileEach, compileEach, compileUnit_holding (h u (.head _)),
      compileEach_holding fun v hv => h v (.tail _ hv)]

/-- A prompt compiles to the same over what holds the same under the paths looked up. -/
theorem compile_holding (h : ∀ path ∈ c.lookups text, look path = c.source.look path) :
    (c.holding look).compile text = c.compile text := by
  unfold compile
  refine bind_congr fun units hunits => ?_
  obtain rfl : Prompt.units (Prompt.parse text []).body = units := by
    rw [result_lift, segment_value] at hunits
    exact Except.ok.inj hunits
  unfold compileBody lookups at *
  dsimp only at h ⊢
  -- rows of its own leave nothing to look up; otherwise each step looks up its own name
  cases hinline : runsInline (Prompt.parse text []).body with
  | true =>
    have hexpand : Expansion.expand (c.holding look).config (c.holding look).source
      (Prompt.parse text []).body 1 =
        Expansion.expand c.config c.source (Prompt.parse text []).body 1 := by
      refine Expansion.expand_holding _ _ fun name hname => ?_
      rw [Dataset.file?, hinline, if_pos rfl] at hname
      cases hname
    rw [if_pos rfl, if_pos rfl, hexpand]
  | false =>
    rw [hinline, if_neg Bool.false_ne_true] at h
    rw [if_neg Bool.false_ne_true, if_neg Bool.false_ne_true]
    have heach : (c.holding look).compileEach (Prompt.units (Prompt.parse text []).body) =
        c.compileEach (Prompt.units (Prompt.parse text []).body) :=
      compileEach_holding fun u hu name hname =>
        h _ (List.mem_filterMap.mpr ⟨u, hu, by rw [hname]; rfl⟩)
    unfold compileUnits
    rw [heach]
    rfl

theorem lookups_of_runsInline (h : runsInline (Prompt.parse text []).body = true) :
    c.lookups text = [] := if_pos h

/-- A path is looked up for a step that names its file. -/
theorem mem_lookups {path : Text} (h : path ∈ c.lookups text) :
    ∃ u ∈ Prompt.units (Prompt.parse text []).body, ∃ name, Facts.dataset? u.text = some name ∧
      path = c.source.path name := by
  unfold lookups at h
  dsimp only at h
  split at h
  · cases h
  · obtain ⟨u, hu, hpath⟩ := List.mem_filterMap.mp h
    obtain ⟨name, hname, rfl⟩ := Option.map_eq_some_iff.mp hpath
    unfold Dataset.file? at hname
    split at hname
    · cases hname
    · exact ⟨u, hu, name, hname, rfl⟩

/-- **A prompt reaches no file outside the directory of data files.** Every path that is looked up
adds the name of one data file to the directory, and that is a single name: no mark of a path is in
it and no dot but one, so that it begins at no root and leads nowhere up, where another name might
begin at the root. What is stored elsewhere makes no difference to what compiling ends in and tells,
and nothing is looked up for rows that are run as a whole. -/
theorem lookups_confined (c : Compiler) (text : Text) :
    (∀ path ∈ c.lookups text, ∃ name, path = Path.join c.source.directory name ∧
      (∃ u ∈ Prompt.units (Prompt.parse text []).body, Facts.dataset? u.text = some name) ∧
      Facts.IsDataFileName name ∧ '/' ∉ name ∧ '\\' ∉ name ∧ ':' ∉ name ∧ name.count '.' = 1 ∧
      Path.isAbsolute name = false ∧ ¬ "..".toList <:+: name) ∧
    (∀ look, (∀ path ∈ c.lookups text, look path = c.source.look path) →
      (c.holding look).compile text = c.compile text) ∧
    (runsInline (Prompt.parse text []).body = true → c.lookups text = []) ∧
    ∀ name, Path.isAbsolute name = true → c.source.path name = name := by
  refine ⟨fun path hpath => ?_, fun look => compile_holding, lookups_of_runsInline,
    fun name h => if_pos h⟩
  obtain ⟨u, hu, name, hname, rfl⟩ := mem_lookups hpath
  have hfile : Facts.IsDataFileName name := Facts.isDataFileName_of_dataset? hname
  have hslash : '/' ∉ name := hfile.not_mem (by decide) (by decide) (by decide)
  have hbackslash : '\\' ∉ name := hfile.not_mem (by decide) (by decide) (by decide)
  have hcolon : ':' ∉ name := hfile.not_mem (by decide) (by decide) (by decide)
  refine ⟨name, rfl, ⟨u, hu, hname⟩, hfile, hslash, hbackslash, hcolon, hfile.count_dot, ?_, ?_⟩
  · cases name with
    | nil => rfl
    | cons first rest =>
      have hfirst : first ≠ '/' := fun h => hslash (h ▸ .head _)
      simp [Path.isAbsolute, Text.startsWith, List.isPrefixOf, Ne.symm hfirst]
  · intro hup
    have hle := hup.sublist.count_le '.'
    rw [hfile.count_dot] at hle
    exact absurd hle (by decide)

/-- A compiler over a directory of data files that holds none. -/
def unstocked : Compiler := ⟨bare.config, ⟨"data", fun _ => .missing, .own⟩⟩

/-- A step that names a file in another directory looks the bare name up in the one for data files,
so that it makes no difference what stands at the path it gives. -/
theorem lookups_confined_upwards :
    unstocked.lookups "1. Run the login test for each row in ../secret/users.csv" =
      ["data/users.csv".toList] ∧
      (unstocked.holding fun path => if path = "../secret/users.csv".toList then .directory
        else .missing).compile
          "1. Run the login test for each row in ../secret/users.csv" =
        unstocked.compile "1. Run the login test for each row in ../secret/users.csv" := by
  have hlookups : unstocked.lookups "1. Run the login test for each row in ../secret/users.csv" =
      ["data/users.csv".toList] := by decide +kernel
  obtain ⟨-, hsame, -, -⟩ :=
    lookups_confined unstocked "1. Run the login test for each row in ../secret/users.csv"
  refine ⟨hlookups, hsame _ fun path hpath => ?_⟩
  rw [hlookups] at hpath
  obtain rfl := List.mem_singleton.mp hpath
  rfl

end Compiler

end PlainSteps
