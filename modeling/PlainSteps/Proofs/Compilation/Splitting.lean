import PlainSteps.Proofs.Compilation.Compound
import PlainSteps.Proofs.Pattern.Pieces

/-! # Texts are split completely

Between two clauses stands white space with a connective, and nothing of the kind is left within a
clause: what would separate it further would have separated the text at the same place. So every
clause is its own only clause, and a classifier, which asks for two of them before it takes a text
for several steps, never takes a clause for that, whatever triggers the clause sets off and however
deep it is reached. A text is therefore split once or not at all, and a limit of two splits is as
good as every higher one.
-/

namespace PlainSteps

open Trying Pattern

namespace Rule

variable {text clause : Text}

/-! ### Clauses -/

/-- A text with nothing in it that separates clauses. -/
def Unbroken (text : Text) : Prop := clauseBreak.occursIn text = false

theorem Unbroken.of_cutFrom {piece : Text} (h : Unbroken text) (hcut : CutFrom piece text) :
    Unbroken piece := by
  by_contra hbroken
  have hoccurs : clauseBreak.occursIn text = true :=
    occursIn_of_cutFrom rfl hcut (by simpa [Unbroken] using hbroken)
  rw [h] at hoccurs
  cases hoccurs

/-- A text with nothing to separate is one clause, or none when punctuation is all there is. -/
theorem Unbroken.clauses_eq (h : Unbroken text) :
    clauses text = if Text.trimOf isClauseEnd text = [] then [] else
    [Text.trimOf isClauseEnd text] := by
  rw [clauses, split_of_not_occursIn h, List.map_singleton, List.filter_singleton]
  cases Text.trimOf isClauseEnd text <;> rfl

theorem Unbroken.length_clauses (h : Unbroken text) : (clauses text).length ≤ 1 := by
  rw [h.clauses_eq]
  split <;> simp

/-- Nothing is left to separate in a clause. -/
theorem unbroken_of_mem_clauses (h : clause ∈ clauses text) : Unbroken clause := by
  obtain ⟨piece, hpiece, rfl⟩ := List.mem_map.mp (List.mem_filter.mp h).1
  have hwhole : Unbroken piece := not_occursIn_of_mem_split clauseBreak_cutsNoWord rfl hpiece
  exact hwhole.of_cutFrom (cutFrom_trimOf (fun _ => isWord_of_isClauseEnd) piece)

/-- What is left of a piece has no punctuation around it. -/
structure IsClause (clause : Text) : Prop where
  nonempty : clause ≠ []
  starts : ∀ c ∈ clause.head?, isClauseEnd c = false
  ends : ∀ c ∈ clause.getLast?, isClauseEnd c = false

theorem isClause_of_mem_clauses (h : clause ∈ clauses text) : IsClause clause := by
  obtain ⟨hmem, hleft⟩ := List.mem_filter.mp h
  obtain ⟨piece, -, rfl⟩ := List.mem_map.mp hmem
  exact ⟨by simpa using hleft, Text.starts_trimOf, Text.ends_trimOf⟩

/-- A clause is its own only clause. -/
theorem clauses_of_mem_clauses (h : clause ∈ clauses text) : clauses clause = [clause] := by
  have hclause := isClause_of_mem_clauses h
  rw [(unbroken_of_mem_clauses h).clauses_eq, Text.trimOf_eq_self hclause.starts hclause.ends,
    if_neg hclause.nonempty]

/-- All places where a text is separated, one behind the other. -/
theorem course_clauseBreak (text : Text) :
    Course clauseBreak none text (clauseBreak.findAll text) :=
  (takesUp_of_cutsNoWord clauseBreak_cutsNoWord).course_findAll text

theorem inOrder_clauses (text : Text) : InOrder (clauses text) text := by
  have hpieces :=
    (inOrder_woven (lastAfter text (clauseBreak.findAll text)) (clauseBreak.findAll text)).trimmed
    isClauseEnd
  rwa [(course_clauseBreak text).woven_eq] at hpieces

end Rule

/-! ### Readings -/

namespace Classifier

variable {cl : Classifier} {depth : Int} {text : Text} {rule : Rule} {r : Reading}

/-- A classifier whose rules are those of the table, in any number and order. -/
def UsesTable (cl : Classifier) : Prop := ∀ rule ∈ cl.rules, rule ∈ Rule.table

/-- What it takes for a text to be read as several steps by a rule. -/
theorem readBy_compound (h : (cl.readBy depth text rule).result = .ok r)
    (hintent : r.intent = .complexWorkflow) :
    rule.intent = .complexWorkflow ∧ rule.findings cl.config text = .ok r.findings ∧
    depth < cl.maxDepth ∧
      2 ≤ r.findings.clauses.length := by
  cases hfindings : rule.findings cl.config text with
  | error e =>
    rw [readBy_of_error hfindings] at h
    cases h
  | ok f =>
    rw [readBy_of_ok hfindings] at h
    split at h
    · cases h
      cases hintent
    · rename_i hkept
      cases h
      exact ⟨hintent, rfl, not_le.mp fun hdeep => hkept ⟨hintent, .inl hdeep⟩,
        not_lt.mp fun hfew => hkept ⟨hintent, .inr hfew⟩⟩

/-- One of the rules reads a text as several steps, if it is read so. -/
theorem classify_compound (h : (cl.classify depth text).result = .ok r)
    (hintent : r.intent = .complexWorkflow) :
    ∃ rule ∈ cl.rules, rule.intent = .complexWorkflow ∧
      rule.findings cl.config (Text.trim text) = .ok r.findings ∧ depth < cl.maxDepth ∧
      2 ≤ r.findings.clauses.length := by
  unfold classify at h
  dsimp only at h
  split at h
  · cases h
    cases hintent
  split at h
  · rename_i rule hfind
    exact ⟨rule, List.mem_of_find?_eq_some hfind, readBy_compound h hintent⟩
  · cases h
    cases hintent

/-- Only a text of several clauses is read as several steps, at any depth and by any choice of
rules. -/
theorem clauses_of_classify (htable : cl.UsesTable) (h : (cl.classify depth text).result = .ok r)
    (hintent : r.intent = .complexWorkflow) :
    r.findings.clauses = Rule.clauses (Text.trim text) ∧ 2 ≤ r.findings.clauses.length := by
  obtain ⟨rule, hmem, hrule, hfindings, -, hlength⟩ := classify_compound h hintent
  -- of the rules in the table only one is for several steps
  rcases Rule.mem_table (htable rule hmem) with rfl | rfl | ⟨-, hother, -⟩
  · cases hrule
  · exact ⟨congrArg Findings.clauses (Except.ok.inj hfindings).symm, hlength⟩
  · exact absurd hrule hother

/-- **A text with nothing to separate is never read as several steps.** -/
theorem classify_unbroken (htable : cl.UsesTable) (htext : Rule.Unbroken text)
    (h : (cl.classify depth text).result = .ok r) : r.intent ≠ .complexWorkflow := fun hintent => by
  obtain ⟨hclauses, hseveral⟩ := clauses_of_classify htable h hintent
  have hsingle := (htext.of_cutFrom (cutFrom_trim text)).length_clauses
  rw [← hclauses] at hsingle
  omega

/-- A classifier with another limit on the splits. -/
def withLimit (cl : Classifier) (limit : Int) : Classifier := { cl with maxDepth := limit }

/-- Below two limits a text is read alike, and the same is told. -/
theorem classify_withLimit {limit limit' : Int} (h : depth < limit) (h' : depth < limit') :
    (cl.withLimit limit).classify depth text = (cl.withLimit limit').classify depth text := by
  have hread : (cl.withLimit limit).readBy depth = (cl.withLimit limit').readBy depth := by
    funext text rule
    simp only [readBy, withLimit, not_le.mpr h, not_le.mpr h', if_false]
  unfold classify
  rw [hread]
  rfl

end Classifier

/-! ### Actions -/

namespace Generator

variable {g : Generator} {number depth limit limit' : Int} {text : Text}

/-- A generator with another limit on the splits. -/
def withLimit (g : Generator) (limit : Int) : Generator :=
  { g with classifier := g.classifier.withLimit limit }

theorem classify_withLimit (h : depth < limit) (h' : depth < limit') :
    (g.withLimit limit).classify depth text = (g.withLimit limit').classify depth text :=
  congrArg (ExceptT.adapt GenerationError.duration) (Classifier.classify_withLimit h h')

/-- However many splits are left, a text is read first, and the clauses come last. -/
theorem generateWithin_eq (g : Generator) (number : Int) (left : Nat) (depth : Int) (text : Text) :
    ∃ ofClauses, g.generateWithin number left depth text =
      g.classify depth text >>= fun r => g.fillIn number text r ofClauses := by
  cases left with
  | zero => exact ⟨_, rfl⟩
  | succ left => exact ⟨_, rfl⟩

/-- Where there is nothing to separate, neither the limit nor the splits that are left matter. -/
theorem generateWithin_unbroken (htable : g.classifier.UsesTable) (htext : Rule.Unbroken text)
    (h : depth < limit) (h' : depth < limit') (left left' : Nat) :
    (g.withLimit limit).generateWithin number left depth text =
      (g.withLimit limit').generateWithin number left' depth text := by
  obtain ⟨ofClauses, hleft⟩ := generateWithin_eq (g.withLimit limit) number left depth text
  obtain ⟨ofClauses', hleft'⟩ := generateWithin_eq (g.withLimit limit') number left' depth text
  rw [hleft, hleft', classify_withLimit h h']
  refine bind_congr fun r hr => fillIn_congr rfl (fun _ => rfl) fun hintent => ?_
  have hread : ((g.classifier.withLimit limit').classify depth text).result = .ok r :=
    mapError_eq_ok_iff.mp hr
  have hlimited : (g.classifier.withLimit limit').UsesTable := htable
  exact absurd hintent (Classifier.classify_unbroken hlimited htext hread)

/-- **A limit of two is never what stops the splitting of a text.** -/
theorem generate_withLimit (htable : g.classifier.UsesTable) (hlimit : 2 ≤ limit) :
    (g.withLimit limit).generate number 0 text = (g.withLimit 2).generate number 0 text := by
  obtain ⟨left, hleft⟩ : ∃ left, (g.withLimit limit).splitsLeft 0 = left + 1 :=
    ⟨limit.toNat - 1, by simp only [splitsLeft, withLimit, Classifier.withLimit]; omega⟩
  have hfirst : (g.withLimit limit).classify 0 text = (g.withLimit 2).classify 0 text :=
    classify_withLimit (by omega) (by decide)
  unfold generate
  rw [hleft, show (g.withLimit 2).splitsLeft 0 = 1 + 1 from rfl, generateWithin,
    generateWithin, hfirst]
  refine bind_congr fun r hr => fillIn_congr rfl (fun _ => rfl) fun hintent =>
    each_congr fun clause hclause => ?_
  have hread : ((g.classifier.withLimit 2).classify 0 text).result = .ok r :=
    mapError_eq_ok_iff.mp hr
  have hlimited : (g.classifier.withLimit 2).UsesTable := htable
  rw [(Classifier.clauses_of_classify hlimited hread hintent).1] at hclause
  exact generateWithin_unbroken htable (Rule.unbroken_of_mem_clauses hclause) (by omega)
    (by decide) left 1

end Generator

/-- **A text is split completely, and nothing of it is lost.** Each clause is a text of its own,
without punctuation around it, and is its own only clause; the clauses stand in the text one behind
the other; and apart from punctuation they have all characters of the text but those of the places
where it is separated. So no classifier that takes its rules from the table takes a clause for
several steps, at any depth, and from the start a limit of two splits leads to the same actions, and
tells the same, as every higher one. -/
theorem Rule.clauses_complete (text : Text) :
    (∀ clause ∈ clauses text, IsClause clause ∧ clauses clause = [clause]) ∧
    InOrder (clauses text) text ∧
    (∃ found last, Course clauseBreak none text found ∧ woven found last = text ∧
      (clauses text).flatten.filter (!isClauseEnd ·) =
        (found.map (·.before) ++ [last]).flatten.filter (!isClauseEnd ·)) ∧
    (∀ cl : Classifier, cl.UsesTable → ∀ clause ∈ clauses text, ∀ depth r,
      (cl.classify depth clause).result = .ok r → r.intent ≠ .complexWorkflow) ∧
    ∀ g : Generator, g.classifier.UsesTable → ∀ number limit, 2 ≤ limit →
      (g.withLimit limit).generate number 0 text = (g.withLimit 2).generate number 0 text := by
  refine ⟨fun clause h => ⟨isClause_of_mem_clauses h, clauses_of_mem_clauses h⟩,
    inOrder_clauses text, ?_, ?_, ?_⟩
  · have hcourse := course_clauseBreak text
    exact ⟨_, _, hcourse, hcourse.woven_eq, filter_flatten_trimmed isClauseEnd _⟩
  · intro cl htable clause hclause depth r hr
    exact Classifier.classify_unbroken htable (unbroken_of_mem_clauses hclause) hr
  · exact fun g htable number limit hlimit => Generator.generate_withLimit htable hlimit

/-- Of two connectives in a row the second begins a clause; that clause sets off the trigger for
several steps by its words, and is not read as several all the same. -/
theorem Rule.clauses_complete_tidy :
    clauses "And sort, and  then files, then the desk. and " =
      ["And sort".toList, "then files", "the desk"] ∧
      (∀ depth r, (Compiler.bare.generator.classifier.classify depth "then files").result = .ok r →
        r.intent ≠ .complexWorkflow) ∧
      (Compiler.bare.generator.withLimit 7).generate 1 0
        "And sort, and  then files, then the desk. and " =
        (Compiler.bare.generator.withLimit 2).generate 1 0
          "And sort, and  then files, then the desk. and " := by
  have hclauses : clauses "And sort, and  then files, then the desk. and " =
      ["And sort".toList, "then files", "the desk"] := by decide +kernel
  have htable : Compiler.bare.generator.classifier.UsesTable := fun _ hrule => hrule
  obtain ⟨-, -, -, hnever, hlimit⟩ :=
    clauses_complete "And sort, and  then files, then the desk. and "
  refine ⟨hclauses, fun depth r => hnever _ htable _ ?_ depth r, hlimit _ htable 1 7 (by decide)⟩
  rw [hclauses]
  exact .tail _ (.head _)

end PlainSteps
