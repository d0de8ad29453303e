import PlainSteps.Proofs.Config.Loading
import PlainSteps.Proofs.Json.Members
import PlainSteps.Proofs.Text.Cutting

/-! # Paths into a tree of files

A path is walked name by name, and only `..` looks back at the way that was taken. So a path below a
directory leads where its own names lead from that directory (`find_join`), whatever path the
directory itself has, as long as the path is not too long for the system. In a tree in which the
entries of each directory have names of their own, names lead to one node at most.
-/

namespace PlainSteps

/-! ### Names of entries -/

/-- Names that an entry of a directory can have. -/
structure IsEntryName (name : Text) : Prop where
  ne_nil : name ≠ []
  ne_here : name ≠ ['.']
  ne_up : name ≠ "..".toList
  noSlash : '/' ∉ name
  noNul : '\x00' ∉ name

theorem isEntryName_iff {name : Text} :
    IsEntryName name ↔ name ≠ [] ∧ name ≠ ['.'] ∧ name ≠ "..".toList ∧ '/' ∉ name ∧ '\x00' ∉ name :=
  ⟨fun ⟨h₁, h₂, h₃, h₄, h₅⟩ => ⟨h₁, h₂, h₃, h₄, h₅⟩, fun ⟨h₁, h₂, h₃, h₄, h₅⟩ =>
    ⟨h₁, h₂, h₃, h₄, h₅⟩⟩

instance (name : Text) : Decidable (IsEntryName name) := decidable_of_iff _ isEntryName_iff.symm

/-- A tree in which the entries of each directory have names of their own. -/
inductive Node.WellNamed : Node → Prop
  | file (content : Content) : WellNamed (.file content)
  | directory {entries : List (Text × Node)} (names : ∀ e ∈ entries, IsEntryName e.1)
      (short : ∀ e ∈ entries, Files.size e.1 ≤ Files.maxName) (own : (entries.map (·.1)).Nodup)
      (nodes : ∀ e ∈ entries, WellNamed e.2) : WellNamed (.directory entries)

/-- Names that lead down from a node to another one. -/
inductive Node.Leads : Node → List Text → Node → Prop
  | here (node : Node) : Leads node [] node
  | down {entries : List (Text × Node)} {name : Text} {child node : Node} {names : List Text}
      (entry : (name, child) ∈ entries) (further : Leads child names node) :
      Leads (.directory entries) (name :: names) node

namespace Path

/-- What stands in front of the names of a path below a base. -/
def lead (base : Text) : Text :=
  if base.isEmpty || Text.endsWith ['/'] base then base else base ++ ['/']

theorem join_eq_lead_append {base p : Text} (h : isAbsolute p = false) :
    join base p = lead base ++ p := by
  unfold join lead
  rw [if_neg (by simp [h])]
  split
  · rfl
  · rw [List.append_assoc, List.singleton_append]

theorem lead_eq_nil_or_slash (base : Text) :
    lead base = [] ∨ ∃ front, lead base = front ++ ['/'] := by
  unfold lead
  split
  · rename_i h
    rcases Bool.or_eq_true_iff.mp h with hempty | hslash
    · exact .inl (by simpa using hempty)
    · obtain ⟨front, hfront⟩ := List.isSuffixOf_iff_suffix.mp hslash
      exact .inr ⟨front, hfront.symm⟩
  · exact .inr ⟨base, rfl⟩

theorem lead_eq_self {base : Text} (h : base = [] ∨ ∃ front, base = front ++ ['/']) :
    lead base = base := by
  unfold lead
  rw [if_pos]
  rcases h with rfl | ⟨front, rfl⟩
  · rfl
  · simp [Text.endsWith, List.isSuffixOf_iff_suffix]

theorem forall_ne_slash_reverse {last : Text} (h : '/' ∉ last) :
    ∀ c ∈ last.reverse, (c != '/') = true := by
  intro c hc
  have hne : c ≠ '/' := fun heq => h (heq ▸ List.mem_reverse.mp hc)
  simpa using hne

/-- What stands behind the last slash is the name, and what stands in front of it leads to the
parent. -/
theorem baseName_lead_append {front last : Text} (hfront : front = [] ∨ ∃ own, front = own ++ ['/'])
    (hlast : '/' ∉ last) :
    baseName (front ++ last) = last := by
  rw [baseName, List.reverse_append, List.takeWhile_append_of_pos (forall_ne_slash_reverse hlast)]
  rcases hfront with rfl | ⟨own, rfl⟩
  · simp
  · simp

theorem parent_lead_append {front last : Text} (hfront : front = [] ∨ ∃ own, front = own ++ ['/'])
    (hlast : '/' ∉ last) :
    parent (front ++ last) =
      if (Text.trimRightOf (· == '/') front).isEmpty then front
        else Text.trimRightOf (· == '/') front := by
  unfold parent
  dsimp only
  rw [List.reverse_append, List.dropWhile_append_of_pos (forall_ne_slash_reverse hlast)]
  rcases hfront with rfl | ⟨own, rfl⟩
  · rfl
  · simp

end Path

namespace Files

variable {f : Files} {here node : Node} {above : List Node} {entries : List (Text × Node)}
  {name base path : Text} {names : List Text}

/-! ### Walking -/

/-- The entry of a node with a name. -/
def enter (name : Text) : Node → Except FileProblem Node
  | .file _ => .error .notDirectory
  | .directory entries =>
    if maxName < size name then .error .nameTooLong
    else match child? name entries with
      | none => .error .notFound
      | some node => .ok node

/-- Goes down names of entries from a node. -/
def descend : List Text → Node → Except FileProblem Node
  | [], node => .ok node
  | name :: rest, node => (enter name node).bind (descend rest)

theorem walk_directory_cons : walk (.directory entries) above (name :: names) =
    if name.isEmpty || name == ['.'] then walk (.directory entries) above names
    else if name == "..".toList then
      match above with
      | [] => walk (.directory entries) [] names
      | up :: higher => walk up higher names
    else if maxName < size name then .error .nameTooLong
    else match child? name entries with
      | none => .error .notFound
      | some node => walk node (.directory entries :: above) names :=
  walk.eq_def _ _ _

theorem walk_cons_entry (hname : IsEntryName name) (names : List Text) :
    walk here above (name :: names) = (enter name here).bind fun node =>
      walk node (here :: above) names := by
  have hskip : ¬ (name.isEmpty || name == ['.']) = true := by simp [hname.ne_nil, hname.ne_here]
  have hup : ¬ (name == "..".toList) = true := by simpa using hname.ne_up
  cases here with
  | file content => rfl
  | directory entries =>
    rw [walk_directory_cons, if_neg hskip, if_neg hup, enter]
    by_cases hsize : maxName < size name
    · rw [if_pos hsize, if_pos hsize]
      rfl
    · rw [if_neg hsize, if_neg hsize]
      cases child? name entries <;> rfl

/-- Names of entries are walked without regard to what was passed before. -/
theorem walk_entries (hnames : ∀ name ∈ names, IsEntryName name) :
    walk here above names = descend names here := by
  induction names generalizing here above with
  | nil => rfl
  | cons name rest ih =>
    obtain ⟨hname, hrest⟩ := List.forall_mem_cons.mp hnames
    rw [walk_cons_entry hname, descend]
    exact congrArg _ (funext fun node => ih hrest)

theorem walk_append_entries {front : List Text} (hnames : ∀ name ∈ names, IsEntryName name) :
    walk here above (front ++ names) = (walk here above front).bind (descend names) := by
  induction front generalizing here above with
  | nil => exact walk_entries hnames
  | cons name rest ih =>
    cases here with
    | file content => rfl
    | directory entries =>
      rw [List.cons_append, walk_directory_cons, walk_directory_cons]
      split
      · exact ih
      · split
        · cases above with
          | nil => exact ih
          | cons up higher => exact ih
        · split
          · rfl
          · cases child? name entries with
            | none => rfl
            | some child => exact ih

/-- A last name that is passed over asks for no more than a directory. -/
theorem walk_append_skipped {front : List Text} (hskip : (name.isEmpty || name == ['.']) = true) :
    walk here above (front ++ [name]) = .ok (.directory entries) ↔
    walk here above front = .ok (.directory entries) := by
  induction front generalizing here above with
  | nil =>
    cases here with
    | file content => exact iff_of_false nofun nofun
    | directory own =>
      rw [List.nil_append, walk_directory_cons, if_pos hskip]
  | cons next rest ih =>
    cases here with
    | file content => exact Iff.rfl
    | directory own =>
      rw [List.cons_append, walk_directory_cons, walk_directory_cons]
      split
      · exact ih
      · split
        · cases above with
          | nil => exact ih
          | cons up higher => exact ih
        · split
          · exact Iff.rfl
          · cases child? next own with
            | none => exact Iff.rfl
            | some child => exact ih

/-! ### Paths below a directory -/

theorem splitOn_append (a b : Text) :
    Text.splitOn '/' (a ++ '/' :: b) = Text.splitOn '/' a ++ Text.splitOn '/' b := by
  unfold Text.splitOn
  rw [Text.splitWhere_eq_splitOnP, Text.splitWhere_eq_splitOnP, Text.splitWhere_eq_splitOnP]
  exact List.splitOnP_append_cons a b rfl

theorem joinWith_ne_nil (hne : names ≠ []) (hnames : ∀ name ∈ names, IsEntryName name) :
    Text.joinWith ['/'] names ≠ [] := by
  obtain ⟨name, rest, rfl⟩ := List.exists_cons_of_ne_nil hne
  have hname := (hnames name (.head _)).ne_nil
  cases rest with
  | nil => exact hname
  | cons next rest => simp [Text.joinWith, hname]

theorem isAbsolute_joinWith (hne : names ≠ []) (hnames : ∀ name ∈ names, IsEntryName name) :
    Path.isAbsolute (Text.joinWith ['/'] names) = false := by
  obtain ⟨name, rest, rfl⟩ := List.exists_cons_of_ne_nil hne
  obtain ⟨hname, -⟩ := List.forall_mem_cons.mp hnames
  obtain ⟨c, cs, rfl⟩ := List.exists_cons_of_ne_nil hname.ne_nil
  have hc : ('/' == c) = false := by
    have hslash := hname.noSlash
    simp only [List.mem_cons, not_or] at hslash
    simpa using hslash.1
  cases rest with
  | nil => simp [Path.isAbsolute, Text.startsWith, Text.joinWith, List.isPrefixOf, hc]
  | cons next rest => simp [Path.isAbsolute, Text.startsWith, Text.joinWith, List.isPrefixOf, hc]

theorem isAbsolute_of_isEntryName (h : IsEntryName name) : Path.isAbsolute name = false :=
  isAbsolute_joinWith (List.cons_ne_nil name []) (List.forall_mem_singleton.mpr h)

/-- Different names have different paths. -/
theorem joinWith_inj {names' : List Text} (hne : names ≠ []) (hne' : names' ≠ [])
    (hnames : ∀ name ∈ names, IsEntryName name) (hnames' : ∀ name ∈ names', IsEntryName name) :
    Text.joinWith ['/'] names = Text.joinWith ['/'] names' ↔ names = names' := by
  refine ⟨fun h => ?_, fun h => h ▸ rfl⟩
  have hparts := congrArg (Text.splitOn '/') h
  rwa [Text.splitOn_joinWith hne fun name h => (hnames name h).noSlash,
    Text.splitOn_joinWith hne' fun name h => (hnames' name h).noSlash] at hparts

/-- The directory that a base names, where no base at all names the working directory. -/
def at? (f : Files) (base : Text) : Except FileProblem Node :=
  f.find (if base.isEmpty then ['.'] else base)

theorem find_eq_walk (hnul : '\x00' ∉ path) (hne : path ≠ []) :
    f.find path = if maxPath < size path then .error .nameTooLong
      else walk f.root [] (f.names path) := by
  unfold find
  rw [if_neg (by simpa using hnul), if_neg (by simpa using hne)]

theorem find_eq_ok_iff : f.find path = .ok node ↔
    '\x00' ∉ path ∧ path ≠ [] ∧ size path ≤ maxPath ∧ walk f.root [] (f.names path) = .ok node := by
  unfold find
  by_cases hnul : '\x00' ∈ path
  · simp [hnul]
  · by_cases hne : path = []
    · simp [hne]
    · by_cases hsize : maxPath < size path
      · simp [hnul, hne, hsize, Nat.not_le_of_lt hsize]
      · simp [hnul, hne, hsize, Nat.le_of_not_lt hsize]

theorem not_mem_joinWith {c : Char} {separator : Text} (hsep : c ∉ separator) :
    ∀ {ts : List Text}, (∀ t ∈ ts, c ∉ t) →
    c ∉ Text.joinWith separator ts
  | [], _ => List.not_mem_nil
  | [t], h => h t (.head _)
  | t :: next :: rest, h => by
    rw [Text.joinWith]
    simp only [List.mem_append, not_or]
    · exact ⟨⟨h t (.head _), hsep⟩, not_mem_joinWith hsep fun t' ht' => h t' (.tail _ ht')⟩
    · exact List.cons_ne_nil _ _

/-- The pieces of a path below a base are those of the base, but for an empty one behind a slash at
its end, and its own. -/
theorem splitOn_join (hrel : Path.isAbsolute path = false) (hbase : base ≠ []) :
    ∃ front, Text.splitOn '/' (Path.join base path) = front ++ Text.splitOn '/' path ∧
      (Text.splitOn '/' base = front ∨ Text.splitOn '/' base = front ++ [[]]) := by
  unfold Path.join
  rw [if_neg (by simp [hrel])]
  by_cases hslash : Text.endsWith ['/'] base = true
  · obtain ⟨own, rfl⟩ : ['/'] <:+ base := List.isSuffixOf_iff_suffix.mp hslash
    rw [if_pos (by simp [hslash]), List.append_assoc]
    exact ⟨_, splitOn_append own path, .inr (splitOn_append own [])⟩
  · rw [if_neg (by simp [hbase, hslash])]
    exact ⟨_, splitOn_append base path, .inl rfl⟩

theorem isAbsolute_join_eq (hrel : Path.isAbsolute path = false) (hbase : base ≠ []) :
    Path.isAbsolute (Path.join base path) = Path.isAbsolute base := by
  obtain ⟨c, cs, rfl⟩ := List.exists_cons_of_ne_nil hbase
  unfold Path.join
  rw [if_neg (by simp [hrel])]
  split <;> simp [Path.isAbsolute, Text.startsWith, List.isPrefixOf]

/-- The names of a path below a directory begin with names that lead to the directory. -/
theorem names_join (hrel : Path.isAbsolute path = false)
    (hbase : f.at? base = .ok (.directory entries)) :
    ∃ front, f.names (Path.join base path) = front ++ Text.splitOn '/' path ∧
      walk f.root [] front = .ok (.directory entries) := by
  obtain ⟨-, -, -, hwalk⟩ := find_eq_ok_iff.mp hbase
  -- an empty base stands for the directory in which relative paths begin
  by_cases hempty : base = []
  · subst hempty
    have hskip : ((['.'] : Text).isEmpty || (['.'] : Text) == ['.']) = true := rfl
    refine ⟨f.directory, ?_, (walk_append_skipped hskip).mp hwalk⟩
    rw [Path.join, if_neg (by simp [hrel]), if_pos (by rfl), List.nil_append, names]
    exact if_neg (by simp [hrel])
  · rw [if_neg (by simpa using hempty)] at hwalk
    obtain ⟨front, hjoin, hfront⟩ := splitOn_join hrel hempty
    have hlead : ∀ lead : List Text, walk f.root [] (lead ++ Text.splitOn '/' base) =
      .ok (.directory entries) →
        walk f.root [] (lead ++ front) = .ok (.directory entries) := by
      intro lead hlead
      rcases hfront with hfront | hfront
      · rwa [hfront] at hlead
      · rw [hfront, ← List.append_assoc] at hlead
        exact (walk_append_skipped rfl).mp hlead
    unfold names at hwalk ⊢
    dsimp only at hwalk ⊢
    rw [isAbsolute_join_eq hrel hempty, hjoin]
    by_cases hroot : Path.isAbsolute base = true
    · rw [if_pos hroot] at hwalk ⊢
      exact ⟨front, rfl, hlead [] hwalk⟩
    · rw [if_neg hroot] at hwalk ⊢
      exact ⟨f.directory ++ front, (List.append_assoc _ _ _).symm, hlead _ hwalk⟩

/-- **A path below a directory leads where its own names do**, unless it is too long. -/
theorem find_join (hbase : f.at? base = .ok (.directory entries)) (hne : names ≠ [])
    (hnames : ∀ name ∈ names, IsEntryName name) :
    f.find (Path.join base (Text.joinWith ['/'] names)) =
      if maxPath < size (Path.join base (Text.joinWith ['/'] names)) then .error .nameTooLong
      else descend names (.directory entries) := by
  have hrel := isAbsolute_joinWith hne hnames
  -- a path that is found has no nul, and neither have names of entries
  have hnul : '\x00' ∉ Path.join base (Text.joinWith ['/'] names) := by
    have hown : '\x00' ∉ Text.joinWith ['/'] names := not_mem_joinWith (by decide) fun name h =>
      (hnames name h).noNul
    have hnone := (find_eq_ok_iff.mp hbase).1
    have hfront : '\x00' ∉ base := by
      by_cases hempty : base = []
      · simp [hempty]
      · rwa [if_neg (by simpa using hempty)] at hnone
    unfold Path.join
    rw [if_neg (by simp [hrel])]
    split
    · simp [hown, hfront]
    · simp [hown, hfront]
  have hsome : Path.join base (Text.joinWith ['/'] names) ≠ [] := by
    unfold Path.join
    rw [if_neg (by simp [hrel])]
    split
    · exact List.append_ne_nil_of_right_ne_nil _ (joinWith_ne_nil hne hnames)
    · simp
  obtain ⟨front, hparts, hfront⟩ := names_join hrel hbase
  rw [find_eq_walk hnul hsome, hparts, Text.splitOn_joinWith hne fun name h =>
    (hnames name h).noSlash, walk_append_entries hnames, hfront]
  rfl

theorem size_append (a b : Text) : size (a ++ b) = size a + size b := by
  rw [size, List.flatMap_append, List.length_append, size, size]

theorem size_le_size_lead (base : Text) : size base ≤ size (Path.lead base) := by
  unfold Path.lead
  split
  · exact Nat.le_refl _
  · rw [size_append]
    exact Nat.le_add_right _ _

/-- A slash at its end does not change the directory that a base names. -/
theorem at?_lead (hfits : size (Path.lead base) ≤ maxPath) :
    f.at? (Path.lead base) = .ok (.directory entries) ↔ f.at? base = .ok (.directory entries) := by
  have hsize := Nat.le_trans (size_le_size_lead base) hfits
  unfold Path.lead at hfits ⊢
  split
  · exact Iff.rfl
  · rename_i h
    rw [if_neg h] at hfits
    have hbase : base ≠ [] := by
      rintro rfl
      exact h rfl
    have hnames : f.names (base ++ ['/']) = f.names base ++ [[]] := by
      obtain ⟨c, cs, rfl⟩ := List.exists_cons_of_ne_nil hbase
      have habsolute : Path.isAbsolute (c :: cs ++ ['/']) = Path.isAbsolute (c :: cs) := by
        simp [Path.isAbsolute, Text.startsWith, List.isPrefixOf]
      unfold names
      dsimp only
      rw [habsolute, splitOn_append]
      split
      · rfl
      · exact (List.append_assoc _ _ _).symm
    rw [at?, at?, if_neg (by simp), if_neg (by simpa using hbase), find_eq_ok_iff,
      find_eq_ok_iff, hnames, walk_append_skipped rfl]
    simp [hbase, hfits, hsize]

/-! ### Trees -/

theorem child?_eq_some_iff (own : (entries.map (·.1)).Nodup) :
    child? name entries = some node ↔ (name, node) ∈ entries :=
  Json.lookup?_eq_some_iff own

/-- In a well-named tree, going down names finds the node they lead to. -/
theorem descend_eq_ok_iff {start : Node} (h : start.WellNamed) :
    descend names start = .ok node ↔ start.Leads names node := by
  induction names generalizing start with
  | nil =>
    constructor
    · rintro ⟨⟩
      exact .here _
    · rintro ⟨⟩
      rfl
  | cons name rest ih =>
    -- below a file there is nothing; in a directory each name stands for one entry at most
    cases h with
    | file content => exact iff_of_false nofun nofun
    | @directory entries hnames hshort hown hnodes =>
      rw [descend, bind_eq_ok_iff]
      constructor
      · rintro ⟨child, hchild, hrest⟩
        rw [enter] at hchild
        split at hchild
        · cases hchild
        · split at hchild
          · cases hchild
          · rename_i found hfound
            cases hchild
            have hentry := (child?_eq_some_iff hown).mp hfound
            exact .down hentry ((ih (hnodes _ hentry)).mp hrest)
      · intro hleads
        cases hleads with
        | @down _ _ child _ _ hentry hfurther =>
          refine ⟨child, ?_, (ih (hnodes _ hentry)).mpr hfurther⟩
          rw [enter, if_neg (Nat.not_lt_of_le (hshort _ hentry)),
            (child?_eq_some_iff hown).mpr hentry]

end Files

namespace Node

variable {node start : Node} {names : List Text}

theorem leads_append_singleton_iff {front : List Text} {name : Text} :
    start.Leads (front ++ [name]) node ↔ ∃ entries, start.Leads front (.directory entries) ∧
    (name, node) ∈ entries := by
  constructor
  · intro h
    induction front generalizing start with
    | nil =>
      cases h with
      | down hentry hfurther =>
        cases hfurther
        exact ⟨_, .here _, hentry⟩
    | cons first rest ih =>
      cases h with
      | down hentry hfurther =>
        obtain ⟨entries, hleads, hlast⟩ := ih hfurther
        exact ⟨entries, .down hentry hleads, hlast⟩
  · rintro ⟨entries, hleads, hentry⟩
    generalize hend : Node.directory entries = last at hleads
    induction hleads with
    | here last =>
      subst hend
      exact .down hentry (.here _)
    | down hfirst _ ih => exact .down hfirst (ih hend)

/-- Only directories lead on to directories. -/
theorem Leads.exists_directory {entries : List (Text × Node)}
    (h : start.Leads names (.directory entries)) :
    ∃ own, start = .directory own := by
  cases h with
  | here => exact ⟨entries, rfl⟩
  | down => exact ⟨_, rfl⟩

theorem WellNamed.of_cons {name : Text} {entries : List (Text × Node)}
    (h : (Node.directory ((name, node) :: entries)).WellNamed) :
    IsEntryName name ∧ node.WellNamed ∧ name ∉ entries.map (·.1) ∧
      (Node.directory entries).WellNamed := by
  cases h with
  | directory hnames hshort hown hnodes =>
    obtain ⟨hname, hnames⟩ := List.forall_mem_cons.mp hnames
    obtain ⟨hnode, hnodes⟩ := List.forall_mem_cons.mp hnodes
    obtain ⟨hnew, hown⟩ := List.nodup_cons.mp hown
    exact ⟨hname, hnode, hnew, .directory hnames (List.forall_mem_cons.mp hshort).2 hown hnodes⟩

theorem WellNamed.of_walk {here : Node} {above : List Node} (h : here.WellNamed)
    (habove : ∀ up ∈ above, up.WellNamed) (hwalk : Files.walk here above names = .ok node) :
    node.WellNamed := by
  induction names generalizing here above with
  | nil =>
    cases hwalk
    exact h
  | cons name rest ih =>
    cases here with
    | file content => cases hwalk
    | directory entries =>
      rw [Files.walk_directory_cons] at hwalk
      split at hwalk
      · exact ih h habove hwalk
      · split at hwalk
        · cases above with
          | nil => exact ih h habove hwalk
          | cons up higher =>
            exact ih (habove up (.head _)) (fun node hnode => habove node (.tail _ hnode)) hwalk
        · split at hwalk
          · cases hwalk
          · split at hwalk
            · cases hwalk
            · rename_i child hchild
              refine ih ?_ (List.forall_mem_cons.mpr ⟨h, habove⟩) hwalk
              cases h with
              | directory _ _ hown hnodes =>
                exact hnodes _ ((Files.child?_eq_some_iff hown).mp hchild)

/-- What stands at a path of a well-named tree is well-named. -/
theorem WellNamed.of_find {f : Files} {path : Text} (h : f.root.WellNamed)
    (hfind : f.find path = .ok node) :
    node.WellNamed :=
  h.of_walk (fun _ hup => absurd hup List.not_mem_nil) (Files.find_eq_ok_iff.mp hfind).2.2.2

theorem WellNamed.entryNames (h : start.WellNamed) (hleads : start.Leads names node) :
    ∀ name ∈ names, IsEntryName name := by
  induction hleads with
  | here node => exact nofun
  | down hentry _ ih =>
    cases h with
    | directory hnames _ _ hnodes =>
      exact List.forall_mem_cons.mpr ⟨hnames _ hentry, ih (hnodes _ hentry)⟩

end Node

end PlainSteps
