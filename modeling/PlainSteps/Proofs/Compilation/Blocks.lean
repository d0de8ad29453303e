import PlainSteps.Proofs.Step.Label
import PlainSteps.Compilation

/-! # A compilation step by step

Unless the rows in its body are run as a whole, a prompt compiles unit by unit: its sequence is the
concatenation of one block for each unit, in their order. A block is never empty, every action of it
carries the number of its unit, and it is computed from its own unit alone, so other units can
change without touching it. The sequence of a prompt is never empty, whichever way it is compiled.
-/

namespace PlainSteps

/-! ### Units -/

theorem units_ne_nil {body : Text} (h : Text.trim body ≠ []) : Prompt.units body ≠ [] := by
  unfold Prompt.units
  rw [if_neg (by simpa using h)]
  dsimp only
  split
  · simp
  · rename_i hlines
    intro hnil
    apply hlines
    simpa using congrArg List.isEmpty hnil

/-- Units are numbered from one on. -/
theorem index_of_units {body : Text} {i : Nat} {u : StepUnit}
    (h : (Prompt.units body)[i]? = some u) :
    u.index = i + 1 := by
  unfold Prompt.units at h
  split at h
  · simp at h
  · dsimp only at h
    split at h
    · obtain ⟨rfl, rfl⟩ : i = 0 ∧ u = ⟨1, Text.trim body⟩ := by
        cases i with
        | zero => simpa using h.symm
        | succ i => simp at h
      rfl
    · rw [List.getElem?_map, List.getElem?_zipIdx] at h
      obtain ⟨⟨line, n⟩, hline, rfl⟩ := Option.map_eq_some_iff.mp h
      obtain ⟨l, -, hl⟩ := Option.map_eq_some_iff.mp hline
      have hn : n = 1 + i := (congrArg Prod.snd hl).symm
      show n = i + 1
      omega

namespace Compiler

variable (c : Compiler)

/-! ### Blocks -/

/-- The actions of one unit, where it has any. -/
def block (u : StepUnit) : List Action :=
  match (c.compileUnit u).result with
  | .ok actions => actions
  | .error _ => []

/-- The blocks of a body, one for each unit. -/
def blocks (body : Text) : List (List Action) := (Prompt.units body).map c.block

variable {c}

theorem block_of_ok {u : StepUnit} {actions : List Action}
    (h : (c.compileUnit u).result = .ok actions) :
    c.block u = actions := by
  simp only [block, h]

/-- What one unit compiles to: the actions generated for it, or a wait that says it was not
understood. -/
theorem compileUnit_ok {u : StepUnit} {actions : List Action}
    (h : (c.compileUnit u).result = .ok actions) :
    (c.generator.generate u.index 0 u.text).result = .ok actions ∧ actions ≠ [] ∨
      actions =
      [Action.wait unclassifiedWait ("Step ".toList ++ Text.ofNat u.index ++
        ": unclassified step")] := by
  unfold compileUnit at h
  rw [Trying.result_bind, bind_eq_ok_iff] at h
  obtain ⟨found, hfound, h⟩ := h
  split at h
  · cases h
    exact .inr rfl
  · rename_i hne
    cases h
    exact .inl ⟨hfound, by simpa using hne⟩

theorem compileUnit_ne_nil {u : StepUnit} {actions : List Action}
    (h : (c.compileUnit u).result = .ok actions) : actions ≠ [] := by
  rcases compileUnit_ok h with ⟨-, hne⟩ | rfl
  · exact hne
  · exact List.cons_ne_nil _ _

theorem unclassified_labelled (n : Nat) :
    Labelled n ("Step ".toList ++ Text.ofNat n ++ ": unclassified step") := by
  have h : ": unclassified step".toList = ": ".toList ++ "unclassified step".toList := rfl
  have hn : Text.ofNat n = Text.ofInt n := by simp [Text.ofInt]
  rw [h, hn, ← List.append_assoc]
  exact labelled_step n "unclassified step"

theorem compileUnit_labelled {u : StepUnit} {actions : List Action}
    (h : (c.compileUnit u).result = .ok actions) : AllLabelled u.index actions := by
  rcases compileUnit_ok h with ⟨hgen, -⟩ | rfl
  · exact Generator.generate_labelled hgen
  · exact AllLabelled.cons_iff.mpr ⟨unclassified_labelled u.index, AllLabelled.nil⟩

/-- Units compile one by one, each to its block. -/
theorem compileEach_ok : ∀ {units : List StepUnit} {actions : List Action},
    (c.compileEach units).result = .ok actions →
      actions = (units.map c.block).flatten ∧ ∀ u ∈ units,
        (c.compileUnit u).result = .ok (c.block u)
  | [], actions, h => by cases h; simp
  | u :: rest, actions, h => by
    unfold compileEach at h
    rw [Trying.result_bind, bind_eq_ok_iff] at h
    obtain ⟨first, hfirst, h⟩ := h
    rw [Trying.result_bind, bind_eq_ok_iff] at h
    obtain ⟨others, hothers, h⟩ := h
    cases h
    obtain ⟨hflat, hrest⟩ := compileEach_ok hothers
    have hu : c.block u = first := block_of_ok hfirst
    refine ⟨by simp [hu, hflat], ?_⟩
    intro v hv
    rcases List.mem_cons.mp hv with rfl | hv
    · rw [hu]; exact hfirst
    · exact hrest v hv

/-! ### Sequences -/

theorem segment_value (body : Text) : (segment body).value = Prompt.units body := by
  unfold segment
  dsimp only
  split <;> rfl

theorem compile_result (text : Text) :
    (c.compile text).result =
      (c.compileBody (Prompt.parse text []).body
        (Prompt.units (Prompt.parse text []).body)).result := by
  unfold compile
  rw [Trying.result_bind, Trying.result_lift, segment_value]
  rfl

/-- A body without rows to run as a whole compiles to the blocks of its units. -/
theorem compileBody_ok {body : Text} {s : Sequence} (hbody : Text.trim body ≠ [])
    (hinline : runsInline body = false)
    (h : (c.compileBody body (Prompt.units body)).result = .ok s) :
    s.actions = (c.blocks body).flatten ∧
      ∀ u ∈ Prompt.units body, (c.compileUnit u).result = .ok (c.block u) := by
  unfold compileBody at h
  rw [if_neg (by simp [hinline])] at h
  unfold compileUnits at h
  rw [if_neg (by simpa using units_ne_nil hbody), Trying.result_map, map_eq_ok_iff] at h
  obtain ⟨actions, hactions, rfl⟩ := h
  exact compileEach_ok hactions

/-- Whether a body is compiled unit by unit. -/
def RunsByUnit (body : Text) : Prop := Text.trim body ≠ [] ∧ runsInline body = false

theorem compileBody_ne_nil {body : Text} {s : Sequence}
    (h : (c.compileBody body (Prompt.units body)).result = .ok s) : s.actions ≠ [] := by
  unfold compileBody at h
  split at h
  · simp only [Trying.result_bind, Trying.result_say, Trying.result_lift] at h
    cases h
    exact Expansion.expand_ne_nil _ _ _ _
  · unfold compileUnits at h
    split at h
    · cases h
      exact List.cons_ne_nil _ _
    · rename_i hunits
      rw [Trying.result_map, map_eq_ok_iff] at h
      obtain ⟨actions, hactions, rfl⟩ := h
      obtain ⟨rfl, hblocks⟩ := compileEach_ok hactions
      obtain ⟨u, hu⟩ := List.exists_mem_of_ne_nil _ (by simpa using hunits)
      -- the first block already has an action
      intro hnil
      exact compileUnit_ne_nil (hblocks u hu)
        (List.flatten_eq_nil_iff.mp hnil _ (List.mem_map_of_mem hu))

theorem compile_ne_nil {text : Text} {s : Sequence} (h : (c.compile text).result = .ok s) :
    s.actions ≠ [] := by
  rw [compile_result] at h
  exact compileBody_ne_nil h

/-- The prompt of a file compiles to its units and the sequence of its body. -/
theorem compilePrompt_result (text file : Text) :
    (c.compilePrompt text file).result =
      let prompt := Prompt.parse text file
      (c.compileBody prompt.body (Prompt.units prompt.body)).result.map
        (Compilation.mk prompt (Prompt.units prompt.body)) := by
  unfold compilePrompt
  simp only [Trying.result_bind, Trying.result_say, Trying.result_lift, segment_value, Except.bind]
  cases (c.compileBody (Prompt.parse text file).body
    (Prompt.units (Prompt.parse text file).body)).result <;> rfl

theorem compilePrompt_ne_nil {text file : Text} {compilation : Compilation}
    (h : (c.compilePrompt text file).result = .ok compilation) :
    compilation.sequence.actions ≠ [] := by
  rw [compilePrompt_result] at h
  obtain ⟨sequence, hsequence, rfl⟩ := map_eq_ok_iff.mp h
  exact compileBody_ne_nil hsequence

/-- **A compilation is the concatenation of its units' blocks.** No sequence is empty; a body that
is compiled unit by unit gives one non-empty block for each unit, in order, labelled with the number
of the unit, and a unit with the same text at the same place has the same block in every other
prompt. -/
theorem compile_eq_blocks (c : Compiler) {text : Text} {s : Sequence}
    (h : (c.compile text).result = .ok s) :
    s.actions ≠ [] ∧
      ∀ body, body = (Prompt.parse text []).body → RunsByUnit body →
        s.actions = (c.blocks body).flatten ∧
        (c.blocks body).length = (Prompt.units body).length ∧
        (∀ (i : Nat) (block : List Action), (c.blocks body)[i]? = some block →
          block ≠ [] ∧ AllLabelled (i + 1 : Nat) block) ∧
        ∀ (text' : Text) (s' : Sequence), (c.compile text').result = .ok s' →
          ∀ body', body' = (Prompt.parse text' []).body → RunsByUnit body' →
            s'.actions = (c.blocks body').flatten ∧
            ∀ (i : Nat) (u u' : StepUnit), (Prompt.units body)[i]? = some u →
              (Prompt.units body')[i]? = some u' → u.text = u'.text →
              (c.blocks body')[i]? = (c.blocks body)[i]? := by
  -- either prompt is taken apart in the same way
  have parts : ∀ {t : Text} {r : Sequence}, (c.compile t).result = .ok r →
      RunsByUnit (Prompt.parse t []).body →
        r.actions = (c.blocks (Prompt.parse t []).body).flatten ∧
        ∀ u ∈ Prompt.units (Prompt.parse t []).body,
          (c.compileUnit u).result = .ok (c.block u) := by
    intro t r hr hrun
    rw [compile_result] at hr
    exact compileBody_ok hrun.1 hrun.2 hr
  refine ⟨compile_ne_nil h, ?_⟩
  rintro body rfl hrun
  obtain ⟨hflat, hunits⟩ := parts h hrun
  refine ⟨hflat, List.length_map _, ?_, ?_⟩
  · intro i block hblock
    rw [blocks, List.getElem?_map] at hblock
    obtain ⟨u, hu, rfl⟩ := Option.map_eq_some_iff.mp hblock
    have hcompiled := hunits u (List.mem_of_getElem? hu)
    have hlabel := compileUnit_labelled hcompiled
    rw [index_of_units hu] at hlabel
    exact ⟨compileUnit_ne_nil hcompiled, hlabel⟩
  · rintro text' s' h' body' rfl hrun'
    refine ⟨(parts h' hrun').1, ?_⟩
    intro i u u' hu hu' htext
    -- the place gives the number, so that the text is all there is left of a unit
    have hsame : u = u' := by
      obtain ⟨index, unitText⟩ := u
      obtain ⟨index', unitText'⟩ := u'
      obtain rfl : index = i + 1 := index_of_units hu
      obtain rfl : index' = i + 1 := index_of_units hu'
      exact congrArg _ htext
    simp only [blocks, List.getElem?_map, hu, hu', hsame]

/-- A compiler for an application without elements and a directory without files. -/
def bare : Compiler := ⟨{ name := "demo", baseUrl := "http://app" }, ⟨[], fun _ => .missing, .own⟩⟩

/-- Of two steps, the second compiles as it does behind any other first step. -/
theorem compile_eq_blocks_two_steps :
    (bare.blocks "1. Open http://a.b\n2. Whatever").flatten =
        [Action.navigate "http://a.b" "Step 1: Navigate to http://a.b",
          Action.wait 1000 "Step 2: unclassified step"] ∧
      (bare.blocks "1. Wait 5 s\n2. Whatever")[1]? =
        (bare.blocks "1. Open http://a.b\n2. Whatever")[1]? := by
  have hfirst : (bare.compile "1. Open http://a.b\n2. Whatever").result =
      .ok ⟨[Action.navigate "http://a.b" "Step 1: Navigate to http://a.b",
        Action.wait 1000 "Step 2: unclassified step"]⟩ := rfl
  have hother : (bare.compile "1. Wait 5 s\n2. Whatever").result =
      .ok ⟨[Action.wait 5000 "Step 1: Wait 5000ms", Action.wait 1000 "Step 2: unclassified step"]⟩
        := rfl
  obtain ⟨-, hparts⟩ := compile_eq_blocks bare hfirst
  obtain ⟨hflat, -, -, hsame⟩ := hparts _ rfl ⟨by decide, rfl⟩
  exact ⟨hflat.symm, (hsame _ _ hother _ rfl ⟨by decide, rfl⟩).2 1 ⟨2, "Whatever"⟩
    ⟨2, "Whatever"⟩ rfl rfl rfl⟩

end Compiler

end PlainSteps
