import PlainSteps.Proofs.Intent.Clauses

/-! # Keywords and triggers

The keywords of a configuration are looked for as a trigger looks for its words: as words of their
own, in any case. A word of a trigger that is the keyword of a rule therefore sets the trigger off
wherever the rule fires. The search for the trigger takes the first of its words that matches, so it
has to be shown that any of them is enough.
-/

namespace PlainSteps

namespace Pattern

variable {α : Type} {s : Spot} {a : Pattern}

theorem isSome_run_choice {g : Captures} {k : Spot → Captures → Option α}
    (h : (run a s g k).isSome) :
    ∀ {as : List Pattern}, a ∈ as → (run (choice as) s g k).isSome
  | [_], .head _ => h
  | _ :: _ :: _, .head _ => isSome_orElse_iff.mpr (.inl h)
  | _ :: _ :: _, .tail _ ha => isSome_orElse_iff.mpr (.inr (isSome_run_choice h ha))

/-- One of several words is enough. -/
theorem isSome_matchAt_wordOf_choice {as : List Pattern} (ha : a ∈ as)
    (h : ((wordOf a).matchAt s).isSome) :
    ((wordOf (choice as)).matchAt s).isSome := by
  unfold matchAt wordOf at h ⊢
  rw [run_seq_cons, run] at h ⊢
  split at h
  · rename_i hedge
    rw [if_pos hedge]
    rw [run_seq_cons] at h ⊢
    exact isSome_run_choice h ha
  · cases h

end Pattern

open Pattern

/-- A keyword sets off a trigger that has it among its words. -/
theorem Rule.mentions_of_hasKeyword {words : List String} {w : String} (hw : w ∈ words)
    {text : Text} (h : hasKeyword text w.toList = true) : mentions words text = true := by
  obtain ⟨before, rest, rfl, hmatch⟩ := exists_matchAt_of_findFrom h
  exact occursIn_append (isSome_matchAt_wordOf_choice (List.mem_map_of_mem hw) hmatch)

end PlainSteps
