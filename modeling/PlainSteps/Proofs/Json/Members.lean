import Mathlib.Data.List.Induction
import Mathlib.Data.List.Nodup
import PlainSteps.Json.Basic

/-! # Members under distinct keys

Setting a member keeps the keys distinct, and so does settling a list of members, in which a key may
stand more than once. Settled, a member is there just when it is the last one of its key.
-/

namespace PlainSteps.Json

variable {α : Type} {key name : Text} {x value : α} {ms : List (Text × α)}

theorem mem_map_fst_put :
    key ∈ (put name value ms).map Prod.fst ↔ key = name ∨ key ∈ ms.map Prod.fst := by
  induction ms with
  | nil => simp [put]
  | cons m rest ih =>
    unfold put
    by_cases hm : m.1 = name
    · simp [hm]
    · simp only [beq_eq_false_iff_ne.mpr hm, Bool.false_eq_true, if_false, List.map_cons,
        List.mem_cons, ih]
      exact or_left_comm

/-- What is there after setting a member was there before, or is that member. -/
theorem mem_of_mem_put (h : (key, x) ∈ put name value ms) :
    key = name ∧ x = value ∨ (key, x) ∈ ms := by
  induction ms with
  | nil => simpa [put] using h
  | cons m rest ih =>
    unfold put at h
    split at h
    · rename_i hname
      rcases List.mem_cons.mp h with hhere | hrest
      · obtain ⟨rfl, rfl⟩ := Prod.mk.inj hhere
        exact .inl ⟨eq_of_beq hname, rfl⟩
      · exact .inr (.tail _ hrest)
    · rcases List.mem_cons.mp h with hhere | hrest
      · exact .inr (hhere ▸ .head _)
      · exact (ih hrest).imp_right (.tail _)

theorem nodup_put (h : (ms.map Prod.fst).Nodup) : ((put name value ms).map Prod.fst).Nodup := by
  induction ms with
  | nil => simp [put]
  | cons m rest ih =>
    obtain ⟨hm, hrest⟩ := List.nodup_cons.mp h
    unfold put
    by_cases hname : m.1 = name
    · simpa [hname] using h
    · simp only [beq_eq_false_iff_ne.mpr hname, Bool.false_eq_true, if_false,
        List.map_cons, List.nodup_cons]
      refine ⟨?_, ih hrest⟩
      rw [mem_map_fst_put, not_or]
      exact ⟨hname, hm⟩

/-- Under distinct keys, setting a member replaces the member of that key and no other. -/
theorem mem_put_iff (h : (ms.map Prod.fst).Nodup) :
    (key, x) ∈ put name value ms ↔ key = name ∧ x = value ∨ key ≠ name ∧ (key, x) ∈ ms := by
  induction ms with
  | nil => simp [put]
  | cons m rest ih =>
    obtain ⟨k, v⟩ := m
    obtain ⟨hm, hrest⟩ := List.nodup_cons.mp h
    unfold put
    by_cases hname : k = name
    · subst hname
      -- the key stands here and, as keys are distinct, not behind
      have hkey : (key, x) ∈ rest → key ≠ k := by
        intro hmem heq
        exact hm (List.mem_map.mpr ⟨(key, x), hmem, heq⟩)
      simp only [beq_self_eq_true, if_true, List.mem_cons, Prod.mk.injEq]
      constructor
      · rintro (hhere | hmem)
        · exact .inl hhere
        · exact .inr ⟨hkey hmem, .inr hmem⟩
      · rintro (hhere | ⟨hne, hold | hmem⟩)
        · exact .inl hhere
        · exact absurd hold.1 hne
        · exact .inr hmem
    · simp only [beq_eq_false_iff_ne.mpr hname, Bool.false_eq_true, if_false, List.mem_cons,
        Prod.mk.injEq, ih hrest]
      constructor
      · rintro (⟨rfl, rfl⟩ | hnew | ⟨hne, hmem⟩)
        · exact .inr ⟨hname, .inl ⟨rfl, rfl⟩⟩
        · exact .inl hnew
        · exact .inr ⟨hne, .inr hmem⟩
      · rintro (hnew | ⟨hne, hold | hmem⟩)
        · exact .inr (.inl hnew)
        · exact .inl hold
        · exact .inr (.inr ⟨hne, hmem⟩)

/-- A member of a new name comes at the end. -/
theorem put_of_not_mem (h : name ∉ ms.map Prod.fst) :
    put name value ms = ms ++ [(name, value)] := by
  induction ms with
  | nil => rfl
  | cons m ms ih =>
    obtain ⟨hm, hms⟩ := not_or.mp (mt List.mem_cons.mpr h)
    rw [put, if_neg (by simpa using Ne.symm hm), ih hms, List.cons_append]

/-- What is looked up is a member. -/
theorem mem_of_lookup? (h : lookup? key ms = some x) : (key, x) ∈ ms := by
  obtain ⟨m, hfind, rfl⟩ := Option.map_eq_some_iff.mp h
  have hkey : m.1 = key := by simpa using List.find?_some hfind
  rw [← hkey]
  exact List.mem_of_find?_eq_some hfind

theorem exists_lookup? (h : key ∈ ms.map Prod.fst) : ∃ x, lookup? key ms = some x := by
  obtain ⟨m, hm, rfl⟩ := List.mem_map.mp h
  rw [← Option.isSome_iff_exists, lookup?, Option.isSome_map, List.find?_isSome]
  exact ⟨m, hm, beq_self_eq_true m.1⟩

/-- Under distinct keys a look-up is membership. -/
theorem lookup?_eq_some_iff (h : (ms.map Prod.fst).Nodup) :
    lookup? key ms = some x ↔ (key, x) ∈ ms := by
  constructor
  · exact mem_of_lookup?
  · intro hmem
    obtain ⟨y, hy⟩ := exists_lookup? (List.mem_map_of_mem hmem)
    have hsame : (key, y) = (key, x) := List.inj_on_of_nodup_map h (mem_of_lookup? hy) hmem rfl
    rw [hy, (Prod.mk.inj hsame).2]

/-! ### Settling -/

theorem settle_concat (ms : List (Text × α)) (m : Text × α) :
    settle (ms ++ [m]) = put m.1 m.2 (settle ms) :=
  List.foldl_concat ..

theorem nodup_settle (ms : List (Text × α)) : ((settle ms).map Prod.fst).Nodup := by
  induction ms using List.reverseRecOn with
  | nil => exact List.nodup_nil
  | append_singleton ms m ih =>
    rw [settle_concat]
    exact nodup_put ih

/-- Members with distinct names are settled as they stand. -/
theorem settle_of_nodup (h : (ms.map Prod.fst).Nodup) : settle ms = ms := by
  induction ms using List.reverseRecOn with
  | nil => rfl
  | append_singleton ms m ih =>
    rw [List.map_append, List.nodup_append] at h
    obtain ⟨hms, -, hdisjoint⟩ := h
    rw [settle_concat, ih hms, put_of_not_mem]
    exact fun hm => hdisjoint _ hm _ (by simp) rfl

/-- **A member of settled members is the last one of its key.** -/
theorem mem_settle_iff : (key, x) ∈ settle ms ↔
    ∃ before after, ms = before ++ (key, x) :: after ∧ ∀ m ∈ after, m.1 ≠ key := by
  -- a later member replaces an earlier one, so they are taken from the end
  induction ms using List.reverseRecOn with
  | nil => simp [settle]
  | append_singleton ms m ih =>
    rw [settle_concat, mem_put_iff (nodup_settle ms), ih]
    constructor
    · rintro (⟨rfl, rfl⟩ | ⟨hne, before, after, rfl, hafter⟩)
      · exact ⟨ms, [], rfl, nofun⟩
      · refine ⟨before, after ++ [m], by simp, fun l hl => ?_⟩
        rcases List.mem_append.mp hl with hl | hl
        · exact hafter l hl
        · rw [List.mem_singleton.mp hl]
          exact hne.symm
    · rintro ⟨before, after, hms, hafter⟩
      rcases List.eq_nil_or_concat after with rfl | ⟨after', last, rfl⟩
      · obtain ⟨-, hlast⟩ := List.append_inj' hms rfl
        obtain rfl : m = (key, x) := (List.cons.inj hlast).1
        exact .inl ⟨rfl, rfl⟩
      · rw [List.concat_eq_append, ← List.cons_append, ← List.append_assoc] at hms
        obtain ⟨rfl, hlast⟩ := List.append_inj' hms rfl
        obtain rfl : m = last := (List.cons.inj hlast).1
        exact .inr ⟨(hafter m (by simp)).symm, before, after', rfl,
          fun l hl => hafter l (by simp [hl])⟩

end PlainSteps.Json
