import PlainSteps.Files.Glob
import PlainSteps.Proofs.Files.Trees
import PlainSteps.Proofs.Text.Newlines

/-! # Everything below a directory

The pattern `**/*` below a directory without wildcards matches what names lead to from there, as
long as no name on the way is hidden. The directories on the way are listed first, each once, and
then the names in each of them. Names lead to a path of their own, so in a well-named tree no path
is matched twice.
-/

namespace PlainSteps.Glob

variable {f : Files} {directory base path name : Text} {names front : List Text} {node start : Node}
  {entries : List (Text × Node)}

/-- The path that names have below a base. -/
def pathBelow (base : Text) (names : List Text) : Text := Path.join base (Text.joinWith ['/'] names)

/-! ### Directories -/

theorem isAbsolute_joinWith (hnames : ∀ name ∈ names, IsEntryName name) :
    Path.isAbsolute (Text.joinWith ['/'] names) = false := by
  by_cases hne : names = []
  · subst hne
    rfl
  · exact Files.isAbsolute_joinWith hne hnames

/-- A text that ends with a name has a slash between it and the names below it. -/
theorem lead_append_name (t : Text) (h : IsEntryName name) :
    Path.lead (t ++ name) = t ++ name ++ ['/'] := by
  unfold Path.lead
  rw [if_neg]
  rw [Bool.or_eq_true, not_or]
  refine ⟨by simp [h.ne_nil], fun hslash => h.noSlash ?_⟩
  obtain ⟨own, hown⟩ := List.isSuffixOf_iff_suffix.mp hslash
  have hlast := congrArg List.getLast? hown
  rw [List.getLast?_concat, List.getLast?_append, Option.or_of_isSome (by simpa using h.ne_nil)]
    at hlast
  exact List.mem_of_getLast? hlast.symm

/-- Names below a name are its own path, a slash and their path. -/
theorem pathBelow_name (hname : IsEntryName name) (hne : names ≠ [])
    (hnames : ∀ name ∈ names, IsEntryName name) :
    pathBelow name names = Text.joinWith ['/'] (name :: names) := by
  rw [pathBelow, Path.join_eq_lead_append (isAbsolute_joinWith hnames), ← List.nil_append name,
    lead_append_name [] hname, List.nil_append, Text.joinWith_cons hne]

/-- Different names have different paths below a base. -/
theorem pathBelow_inj {names' : List Text} (hne : names ≠ []) (hne' : names' ≠ [])
    (hnames : ∀ name ∈ names, IsEntryName name) (hnames' : ∀ name ∈ names', IsEntryName name) :
    pathBelow base names = pathBelow base names' ↔ names = names' := by
  rw [pathBelow, pathBelow, Path.join_eq_lead_append (isAbsolute_joinWith hnames),
    Path.join_eq_lead_append (isAbsolute_joinWith hnames'), List.append_cancel_left_eq,
    Files.joinWith_inj hne hne' hnames hnames']

/-- A path below a path below a base is that of all the names. -/
theorem join_pathBelow (hfront : ∀ name ∈ front, IsEntryName name) (hname : IsEntryName name) :
    Path.join (pathBelow base front) name = pathBelow base (front ++ [name]) := by
  have hall : ∀ other ∈ front ++ [name], IsEntryName other :=
    List.forall_mem_append.mpr ⟨hfront, List.forall_mem_singleton.mpr hname⟩
  rw [pathBelow, pathBelow, Path.join_eq_lead_append (Files.isAbsolute_of_isEntryName hname),
    Path.join_eq_lead_append (isAbsolute_joinWith hfront),
      Path.join_eq_lead_append (isAbsolute_joinWith hall)]
  rcases List.eq_nil_or_concat front with rfl | ⟨before, last, rfl⟩
  · rw [show Text.joinWith ['/'] ([] : List Text) = [] from rfl, List.append_nil,
      Path.lead_eq_self (Path.lead_eq_nil_or_slash base)]
    rfl
  · rw [List.concat_eq_append] at hfront ⊢
    have hne : before ++ [last] ≠ [] := by simp
    obtain ⟨t, ht⟩ : ∃ t, Text.joinWith ['/'] (before ++ [last]) = t ++ last := by
      by_cases hbefore : before = []
      · exact ⟨[], by rw [hbefore]; rfl⟩
      · exact ⟨_, Text.joinWith_append_singleton hbefore last⟩
    rw [Text.joinWith_append_singleton hne, ht, ← List.append_assoc,
      lead_append_name _ (hfront last (by simp))]
    simp only [List.append_assoc]

theorem size_pathBelow_le (hfront : ∀ name ∈ front, IsEntryName name) (hname : IsEntryName name) :
    Files.size (pathBelow base front) ≤ Files.size (pathBelow base (front ++ [name])) := by
  rw [← join_pathBelow hfront hname,
    Path.join_eq_lead_append (Files.isAbsolute_of_isEntryName hname), Files.size_append]
  exact Nat.le_trans (Files.size_le_size_lead _) (Nat.le_add_right _ _)

theorem leads_cons_iff {rest : List (Text × Node)} (hne : names ≠ []) :
    (Node.directory ((name, start) :: rest)).Leads names node ↔
      (∃ further, names = name :: further ∧ start.Leads further node) ∨
      (Node.directory rest).Leads names node := by
  constructor
  · intro h
    cases h with
    | here => exact absurd rfl hne
    | down hentry hfurther =>
      rcases List.mem_cons.mp hentry with heq | hrest
      · cases heq
        exact .inl ⟨_, rfl, hfurther⟩
      · exact .inr (.down hrest hfurther)
  · rintro (⟨further, rfl, hfurther⟩ | h)
    · exact .down (.head _) hfurther
    · cases h with
      | here => exact absurd rfl hne
      | down hentry hfurther => exact .down (.tail _ hentry) hfurther

/-- Names, none of them hidden, that lead from a node to a directory below it. -/
structure Passes (start : Node) (names : List Text) : Prop where
  ne_nil : names ≠ []
  shown : ∀ name ∈ names, isHidden name = false
  leads : ∃ entries, start.Leads names (.directory entries)

theorem passes_cons_iff {rest : List (Text × Node)} :
    Passes (.directory ((name, node) :: rest)) names ↔
    (isHidden name = false ∧
      ∃ further, names = name :: further ∧
      (further = [] ∧ isDirectory node = true ∨ Passes node further)) ∨
    Passes (.directory rest) names := by
  constructor
  · rintro ⟨hne, hshown, entries, hleads⟩
    rcases (leads_cons_iff hne).mp hleads with ⟨further, rfl, hfurther⟩ | hrest
    · obtain ⟨hname, hshown⟩ := List.forall_mem_cons.mp hshown
      refine .inl ⟨hname, further, rfl, ?_⟩
      by_cases hend : further = []
      · subst hend
        cases hfurther
        exact .inl ⟨rfl, rfl⟩
      · exact .inr ⟨hend, hshown, entries, hfurther⟩
    · exact .inr ⟨hne, hshown, entries, hrest⟩
  · rintro (⟨hname, further, rfl, ⟨rfl, hnode⟩ | ⟨-, hshown, entries, hleads⟩⟩ | ⟨hne,
      hshown, entries, hleads⟩)
    · cases node with
      | file content => cases hnode
      | directory entries =>
        exact ⟨List.cons_ne_nil _ _, List.forall_mem_singleton.mpr hname, entries,
          .down (.head _) (.here _)⟩
    · exact ⟨List.cons_ne_nil _ _, List.forall_mem_cons.mpr ⟨hname, hshown⟩, entries,
        .down (.head _) hleads⟩
    · exact ⟨hne, hshown, entries, (leads_cons_iff hne).mpr (.inr hleads)⟩

theorem Passes.entryNames (h : Passes start names) (hstart : start.WellNamed) :
    ∀ name ∈ names, IsEntryName name := by
  obtain ⟨entries, hleads⟩ := h.leads
  exact hstart.entryNames hleads

theorem not_passes_file {content : Content} : ¬ Passes (.file content) names := by
  rintro ⟨hne, -, entries, hleads⟩
  cases hleads

theorem not_passes_nil : ¬ Passes (.directory []) names := by
  rintro ⟨hne, -, entries, hleads⟩
  cases hleads with
  | here => exact hne rfl
  | down hentry _ => cases hentry

/-- The paths that an entry adds to those of the directories below a node. -/
theorem mem_ownDirectories (hname : IsEntryName name) (hnode : node.WellNamed)
    (hbelow : ∀ p, p ∈ directoriesBelow node ↔ ∃ names, Passes node names ∧
      p = Text.joinWith ['/'] names) :
    path ∈ (if isHidden name || !isDirectory node then []
        else name :: (directoriesBelow node).map fun p => Path.join name p) ↔
      isHidden name = false ∧ ∃ further,
        (further = [] ∧ isDirectory node = true ∨ Passes node further) ∧
        path = Text.joinWith ['/'] (name :: further) := by
  -- hidden entries and files are left out together with all that is below them
  by_cases hskip : (isHidden name || !isDirectory node) = true
  · rw [if_pos hskip]
    refine iff_of_false List.not_mem_nil ?_
    rintro ⟨hshown, further, ⟨-, hdirectory⟩ | hpasses, -⟩
    · simp [hshown, hdirectory] at hskip
    · rw [hshown, Bool.false_or] at hskip
      cases node with
      | file content => exact not_passes_file hpasses
      | directory entries => cases hskip
  · obtain ⟨hshown, hdirectory⟩ : isHidden name = false ∧ isDirectory node = true :=
      by simpa using hskip
    rw [if_neg hskip, List.mem_cons, List.mem_map]
    constructor
    · rintro (rfl | ⟨p, hp, rfl⟩)
      · exact ⟨hshown, [], .inl ⟨rfl, hdirectory⟩, rfl⟩
      · obtain ⟨further, hpasses, rfl⟩ := (hbelow p).mp hp
        exact ⟨hshown, further, .inr hpasses,
          pathBelow_name hname hpasses.ne_nil (hpasses.entryNames hnode)⟩
    · rintro ⟨-, further, ⟨rfl, -⟩ | hpasses, rfl⟩
      · exact .inl rfl
      · exact .inr ⟨_, (hbelow _).mpr ⟨further, hpasses, rfl⟩,
          pathBelow_name hname hpasses.ne_nil (hpasses.entryNames hnode)⟩

mutual

/-- The directories below a node are those that names lead to, none of them hidden. -/
theorem mem_directoriesBelow : ∀ {node : Node}, node.WellNamed → ∀ path : Text,
    path ∈ directoriesBelow node ↔ ∃ names, Passes node names ∧ path = Text.joinWith ['/'] names
  | .file content, _, path => by
    rw [directoriesBelow]
    exact iff_of_false List.not_mem_nil fun ⟨_, h, _⟩ => not_passes_file h
  | .directory entries, h, path => by
    rw [directoriesBelow]
    exact mem_directoriesAmong h path

theorem mem_directoriesAmong :
    ∀ {entries : List (Text × Node)}, (Node.directory entries).WellNamed →
    ∀ path : Text, path ∈ directoriesAmong entries ↔
      ∃ names, Passes (.directory entries) names ∧ path = Text.joinWith ['/'] names
  | [], _, path => by
    rw [directoriesAmong]
    exact iff_of_false List.not_mem_nil fun ⟨_, h, _⟩ => not_passes_nil h
  | (name, node) :: rest, h, path => by
    obtain ⟨hname, hnode, -, hrest⟩ := h.of_cons
    rw [directoriesAmong, List.mem_append, mem_directoriesAmong hrest path,
      mem_ownDirectories hname hnode (mem_directoriesBelow hnode)]
    constructor
    · rintro (⟨hshown, further, hfurther, rfl⟩ | ⟨names, hpasses, rfl⟩)
      · exact ⟨_, passes_cons_iff.mpr (.inl ⟨hshown, further, rfl, hfurther⟩), rfl⟩
      · exact ⟨names, passes_cons_iff.mpr (.inr hpasses), rfl⟩
    · rintro ⟨names, hpasses, rfl⟩
      rcases passes_cons_iff.mp hpasses with ⟨hshown, further, rfl, hfurther⟩ | hpasses
      · exact .inl ⟨hshown, further, hfurther, rfl⟩
      · exact .inr ⟨names, hpasses, rfl⟩

end

/-- Names that lead on begin with the name of an entry. -/
theorem Passes.head_mem (h : Passes (.directory entries) (name :: names)) :
    name ∈ entries.map (·.1) := by
  obtain ⟨-, -, _, hleads⟩ := h
  cases hleads with
  | down hentry _ => exact List.mem_map_of_mem hentry

/-- An entry adds no path twice. -/
theorem nodup_ownDirectories (hname : IsEntryName name) (hnode : node.WellNamed)
    (hbelow : (directoriesBelow node).Nodup) :
    (if isHidden name || !isDirectory node then []
      else name :: (directoriesBelow node).map fun p => Path.join name p).Nodup := by
  split
  · exact List.nodup_nil
  · refine List.nodup_cons.mpr ⟨fun hmem => ?_, hbelow.map_on fun p hp q hq heq => ?_⟩
    · obtain ⟨p, hp, heq⟩ := List.mem_map.mp hmem
      obtain ⟨names, hpasses, rfl⟩ := (mem_directoriesBelow hnode p).mp hp
      have hnames := hpasses.entryNames hnode
      rw [← pathBelow, pathBelow_name hname hpasses.ne_nil hnames] at heq
      have hsame := (Files.joinWith_inj (List.cons_ne_nil _ _) (List.cons_ne_nil name [])
        (List.forall_mem_cons.mpr ⟨hname, hnames⟩) (List.forall_mem_singleton.mpr hname)).mp heq
      exact hpasses.ne_nil (List.cons.inj hsame).2
    · obtain ⟨names, hpasses, rfl⟩ := (mem_directoriesBelow hnode p).mp hp
      obtain ⟨names', hpasses', rfl⟩ := (mem_directoriesBelow hnode q).mp hq
      rw [(pathBelow_inj hpasses.ne_nil hpasses'.ne_nil (hpasses.entryNames hnode)
        (hpasses'.entryNames hnode)).mp heq]

mutual

/-- No directory below a node is listed twice. -/
theorem nodup_directoriesBelow : ∀ {node : Node}, node.WellNamed → (directoriesBelow node).Nodup
  | .file content, _ => by
    rw [directoriesBelow]
    exact List.nodup_nil
  | .directory entries, h => by
    rw [directoriesBelow]
    exact nodup_directoriesAmong h

theorem nodup_directoriesAmong :
    ∀ {entries : List (Text × Node)}, (Node.directory entries).WellNamed →
    (directoriesAmong entries).Nodup
  | [], _ => by
    rw [directoriesAmong]
    exact List.nodup_nil
  | (name, node) :: rest, h => by
    obtain ⟨hname, hnode, hnew, hrest⟩ := h.of_cons
    rw [directoriesAmong]
    refine List.nodup_append.mpr ⟨nodup_ownDirectories hname hnode (nodup_directoriesBelow hnode),
      nodup_directoriesAmong hrest, fun p hp q hq heq => ?_⟩
    subst heq
    -- a path among the others would begin with the name that only this entry has
    obtain ⟨-, further, hfurther, rfl⟩ :=
      (mem_ownDirectories hname hnode (mem_directoriesBelow hnode)).mp hp
    obtain ⟨names, hpasses, heq⟩ := (mem_directoriesAmong hrest _).mp hq
    have hown : ∀ other ∈ name :: further, IsEntryName other := by
      refine List.forall_mem_cons.mpr ⟨hname, ?_⟩
      rcases hfurther with ⟨rfl, -⟩ | hfurther
      · exact fun _ hmem => absurd hmem List.not_mem_nil
      · exact hfurther.entryNames hnode
    obtain rfl :=
      (Files.joinWith_inj (List.cons_ne_nil _ _) hpasses.ne_nil hown (hpasses.entryNames hrest)).mp
        heq
    exact hnew hpasses.head_mem

end

/-! ### The pattern -/

/-- The path below which a search of a directory begins: that of the directory without slashes at
its end, unless it is the root. -/
def baseOf (directory : Text) : Text :=
  let lead := Path.lead directory
  let trimmed := Text.trimRightOf (· == '/') lead
  if trimmed.isEmpty then lead else trimmed

theorem hasWildcard_baseOf (h : hasWildcard directory = false) :
    hasWildcard (baseOf directory) = false := by
  have hlead : hasWildcard (Path.lead directory) = false := by
    unfold Path.lead
    split
    · exact h
    · rw [hasWildcard, List.any_append]
      exact Bool.or_eq_false_iff.mpr ⟨h, rfl⟩
  unfold baseOf
  dsimp only
  split
  · exact hlead
  · rw [hasWildcard, List.any_eq_false] at hlead ⊢
    intro c hc
    exact hlead c (List.mem_reverse.mp ((List.dropWhile_sublist _).mem (List.mem_reverse.mp hc)))

/-- The directories at and below a directory. -/
theorem expand_directories (h : hasWildcard directory = false) (fuel : Nat) :
    expand f (fuel + 1) true (Path.lead directory ++ "**".toList) =
      (([] : Text) :: directoriesBelow (nodeAt f (baseOf directory))).map
        (Path.join (baseOf directory)) := by
  have hlead := Path.lead_eq_nil_or_slash directory
  have hwild : hasWildcard (Path.lead directory ++ "**".toList) = true := by
    rw [hasWildcard, List.any_append]
    exact Bool.or_true _
  rw [expand, Path.baseName_lead_append hlead (by decide),
    Path.parent_lead_append hlead (by decide), ← baseOf, hwild]
  dsimp only
  rw [if_neg (by decide), hasWildcard_baseOf h]
  generalize baseOf directory = base
  by_cases hbase : base = []
  · subst hbase
    have hself : Path.join [] = id := by
      funext p
      unfold Path.join
      split <;> rfl
    rw [if_pos (by decide), below, if_pos (by decide), hself, List.map_id]
  · rw [if_neg (by simpa using hbase), Bool.and_false, if_neg (by decide),
      List.flatMap_singleton, below, if_pos (by decide)]

/-- What everything below a directory is: the names in the directory and in those below it. -/
theorem find_everything (h : hasWildcard directory = false) : find f (Path.join directory "**/*") =
    (([] : Text) :: directoriesBelow (nodeAt f (baseOf directory))).flatMap fun p =>
      (namesIn f false (Path.join (baseOf directory) p) ['*']).map
        (Path.join (Path.join (baseOf directory) p)) := by
  -- the last stroke divides the pattern into that of the directories and that of the names in them
  have hpattern : Path.join directory "**/*" = (Path.lead directory ++ "**/".toList) ++ ['*'] := by
    rw [Path.join_eq_lead_append (by rfl)]
    simp
  have hslash : Path.lead directory ++ "**/".toList = [] ∨
      ∃ own, Path.lead directory ++ "**/".toList = own ++ ['/'] :=
    .inr ⟨Path.lead directory ++ "**".toList, by simp⟩
  have hfront : Path.parent (Path.join directory "**/*") = Path.lead directory ++ "**".toList := by
    have htrimmed : Text.trimRightOf (· == '/') (Path.lead directory ++ "**/".toList) =
        Path.lead directory ++ "**".toList := by
      simp [Text.trimRightOf]
    rw [hpattern, Path.parent_lead_append hslash (by decide), htrimmed, if_neg (by simp)]
  have hlast : Path.baseName (Path.join directory "**/*") = ['*'] := by
    rw [hpattern, Path.baseName_lead_append hslash (by decide)]
  have hwild : hasWildcard (Path.join directory "**/*") = true := by
    rw [hpattern, hasWildcard, List.any_append]
    exact Bool.or_true _
  have hwildFront : hasWildcard (Path.lead directory ++ "**".toList) = true := by
    rw [hasWildcard, List.any_append]
    exact Bool.or_true _
  obtain ⟨fuel, hfuel⟩ : ∃ fuel, (Path.join directory "**/*").length = fuel + 1 := by
    rw [hpattern, List.length_append]
    exact ⟨_, rfl⟩
  have hshorter : (Path.lead directory ++ "**".toList != Path.join directory "**/*") = true := by
    rw [hpattern]
    simp
  rw [find, hfuel, expand, hlast, hfront, hwild]
  dsimp only
  rw [if_neg (by decide), if_neg (by simp), hshorter, hwildFront, if_pos (by decide),
    expand_directories h, List.flatMap_map]
  rfl

/-! ### What a search finds -/

theorem anyEnd_isEmpty : ∀ t : Text, anyEnd (·.isEmpty) t = true
  | [] => rfl
  | c :: cs => by rw [anyEnd, anyEnd_isEmpty cs, Bool.or_true]

/-- A star matches every name. -/
theorem matchesName_star (name : Text) : matchesName ['*'] name = true := anyEnd_isEmpty name

/-- The node at a path has entries only if there is a directory. -/
theorem nodeAt_eq_directory (h : nodeAt f path = .directory entries) (hsome : entries ≠ []) :
    f.at? path = .ok (.directory entries) := by
  rw [nodeAt] at h
  rw [Files.at?]
  cases hfind : f.find (if path.isEmpty then ['.'] else path) with
  | error problem =>
    rw [hfind] at h
    cases h
    exact absurd rfl hsome
  | ok node =>
    rw [hfind] at h
    exact congrArg _ h

theorem nodeAt_of_at? (h : f.at? path = .ok node) : nodeAt f path = node := by
  rw [Files.at?] at h
  rw [nodeAt, h]

theorem mem_namesIn : name ∈ namesIn f false path ['*'] ↔
    isHidden name = false ∧ ∃ entries node, f.at? path = .ok (.directory entries) ∧
    (name, node) ∈ entries := by
  unfold namesIn
  constructor
  · intro h
    cases hnode : nodeAt f path with
    | file content =>
      rw [hnode] at h
      cases h
    | directory entries =>
      rw [hnode] at h
      obtain ⟨hmem, -⟩ := List.mem_filter.mp h
      obtain ⟨⟨own, node⟩, hentry, rfl⟩ := List.mem_map.mp hmem
      obtain ⟨hentry, hshown⟩ := List.mem_filter.mp hentry
      exact ⟨by simpa [isHidden, Text.startsWith] using hshown, entries, node,
        nodeAt_eq_directory hnode (List.ne_nil_of_mem hentry), hentry⟩
  · rintro ⟨hshown, entries, node, hat, hentry⟩
    rw [nodeAt_of_at? hat]
    refine List.mem_filter.mpr ⟨List.mem_map.mpr ⟨_, List.mem_filter.mpr ⟨hentry, ?_⟩, rfl⟩,
      matchesName_star name⟩
    simp [hshown]

theorem isEntryName_of_mem_namesIn (hroot : f.root.WellNamed)
    (h : name ∈ namesIn f false path ['*']) :
    IsEntryName name := by
  obtain ⟨-, entries, node, hat, hentry⟩ := mem_namesIn.mp h
  cases hroot.of_find hat with
  | directory hnames _ _ _ => exact hnames _ hentry

theorem nodup_namesIn (h : f.root.WellNamed) : (namesIn f false path ['*']).Nodup := by
  unfold namesIn
  cases hnode : nodeAt f path with
  | file content => exact List.nodup_nil
  | directory entries =>
    by_cases hsome : entries = []
    · subst hsome
      exact List.nodup_nil
    · have hentries := h.of_find (nodeAt_eq_directory hnode hsome)
      cases hentries with
      | directory _ _ hown _ => exact (hown.sublist (List.filter_sublist.map _)).filter _

/-- A file below a directory that a search comes to: no name on the way to it is hidden, and its
path is not too long. -/
structure Shows (f : Files) (directory : Text) (names : List Text) (content : Content) : Prop where
  ne_nil : names ≠ []
  leads : ∃ start, f.at? (baseOf directory) = .ok start ∧ start.Leads names (.file content)
  shown : ∀ name ∈ names, isHidden name = false
  fits : Files.size (pathBelow (baseOf directory) names) ≤ Files.maxPath

/-- What stands at the path of names is what they lead to. -/
theorem find_pathBelow (hroot : f.root.WellNamed) (hbase : f.at? base = .ok (.directory entries))
    (hne : names ≠ []) (hnames : ∀ name ∈ names, IsEntryName name) :
    f.find (pathBelow base names) = .ok node ↔
      Files.size (pathBelow base names) ≤ Files.maxPath ∧
      (Node.directory entries).Leads names node := by
  rw [pathBelow, Files.find_join hbase hne hnames, ← Files.descend_eq_ok_iff (hroot.of_find hbase)]
  split
  · rename_i hlong
    exact iff_of_false nofun fun h => absurd h.1 (Nat.not_le_of_lt hlong)
  · rename_i hfits
    exact (and_iff_right (Nat.le_of_not_lt hfits)).symm

/-- A directory is found at the path of the names that lead to it, as long as that is not too
long. -/
theorem at?_pathBelow (hroot : f.root.WellNamed) (hbase : f.at? base = .ok start)
    (hleads : start.Leads front (.directory entries))
    (hfits : Files.size (pathBelow base front) ≤ Files.maxPath) :
    f.at? (pathBelow base front) = .ok (.directory entries) := by
  obtain ⟨own, rfl⟩ := hleads.exists_directory
  have hstart := hroot.of_find hbase
  by_cases hne : front = []
  · subst hne
    cases hleads
    have hlead : pathBelow base [] = Path.lead base := by
      rw [pathBelow, Path.join_eq_lead_append rfl]
      exact List.append_nil _
    rw [hlead] at hfits ⊢
    exact (Files.at?_lead hfits).mpr hbase
  · have hnames := hstart.entryNames hleads
    have hsome : pathBelow base front ≠ [] := by
      rw [pathBelow, Path.join_eq_lead_append (isAbsolute_joinWith hnames)]
      exact List.append_ne_nil_of_right_ne_nil _ (Files.joinWith_ne_nil hne hnames)
    rw [Files.at?, if_neg (by simpa using hsome)]
    exact (find_pathBelow hroot hbase hne hnames).mpr ⟨hfits, hleads⟩

theorem wellNamed_nodeAt (hroot : f.root.WellNamed) : (nodeAt f base).WellNamed := by
  unfold nodeAt
  split
  · rename_i hfind
    exact hroot.of_find hfind
  · exact .directory nofun nofun List.nodup_nil nofun

/-- The directories in which a search below a base looks are the base itself and those that names
lead to. -/
theorem mem_starts_iff (hroot : f.root.WellNamed) :
    path ∈ ([] : Text) :: directoriesBelow (nodeAt f base) ↔
    ∃ front, (front = [] ∨ Passes (nodeAt f base) front) ∧ path = Text.joinWith ['/'] front := by
  rw [List.mem_cons, mem_directoriesBelow (wellNamed_nodeAt hroot)]
  constructor
  · rintro (rfl | ⟨front, hpasses, rfl⟩)
    · exact ⟨[], .inl rfl, rfl⟩
    · exact ⟨front, .inr hpasses, rfl⟩
  · rintro ⟨front, rfl | hpasses, rfl⟩
    · exact .inl rfl
    · exact .inr ⟨front, hpasses, rfl⟩

/-- The names on the way to such a directory are names of entries, and none of them is hidden. -/
theorem names_of_start (hroot : f.root.WellNamed) (h : front = [] ∨ Passes (nodeAt f base) front) :
    (∀ name ∈ front, IsEntryName name) ∧ ∀ name ∈ front, isHidden name = false := by
  rcases h with rfl | hpasses
  · exact ⟨nofun, nofun⟩
  · exact ⟨hpasses.entryNames (wellNamed_nodeAt hroot), hpasses.shown⟩

/-- A search looks into a directory only below one that is there. -/
theorem exists_start {p : Text} (hp : p ∈ ([] : Text) :: directoriesBelow (nodeAt f base))
    (hat : f.at? (Path.join base p) = .ok (.directory entries)) :
    ∃ own, f.at? base = .ok (.directory own) := by
  rcases List.mem_cons.mp hp with rfl | hbelow
  · rw [Path.join_eq_lead_append rfl, List.append_nil] at hat
    by_cases hempty : base = []
    · subst hempty
      exact ⟨entries, hat⟩
    · have hsome : ¬ (Path.lead base).isEmpty = true := by
        unfold Path.lead
        split <;> simp [hempty]
      have hfind := hat
      rw [Files.at?, if_neg hsome] at hfind
      exact ⟨entries, (Files.at?_lead (Files.find_eq_ok_iff.mp hfind).2.2.1).mp hat⟩
  · cases hnode : nodeAt f base with
    | file content =>
      rw [hnode, directoriesBelow] at hbelow
      exact absurd hbelow List.not_mem_nil
    | directory own =>
      refine ⟨own, nodeAt_eq_directory hnode fun hnil => ?_⟩
      rw [hnode, hnil, directoriesBelow, directoriesAmong] at hbelow
      exact absurd hbelow List.not_mem_nil

theorem mem_everything_iff (h : hasWildcard directory = false) :
    path ∈ find f (Path.join directory "**/*") ↔
    ∃ p ∈ ([] : Text) :: directoriesBelow (nodeAt f (baseOf directory)), ∃ name,
      name ∈ namesIn f false (Path.join (baseOf directory) p) ['*'] ∧
        Path.join (Path.join (baseOf directory) p) name = path := by
  simp only [find_everything h, List.mem_flatMap, List.mem_map]

/-- **A search finds the files that names lead to, none of the names hidden.** -/
theorem mem_everything_file_iff (hroot : f.root.WellNamed) (hwild : hasWildcard directory = false)
    {content : Content} :
    path ∈ find f (Path.join directory "**/*") ∧ f.find path = .ok (.file content) ↔
      ∃ names, Shows f directory names content ∧ path = pathBelow (baseOf directory) names := by
  rw [mem_everything_iff hwild]
  generalize hbase : baseOf directory = base
  constructor
  · rintro ⟨⟨p, hp, name, hname, rfl⟩, hfile⟩
    obtain ⟨hnameShown, entries, node, hat, -⟩ := mem_namesIn.mp hname
    obtain ⟨start, hstart⟩ := exists_start hp hat
    obtain ⟨front, hpasses, rfl⟩ := (mem_starts_iff hroot).mp hp
    obtain ⟨hfront, hfrontShown⟩ := names_of_start hroot hpasses
    have hname := isEntryName_of_mem_namesIn hroot hname
    rw [← pathBelow] at hfile ⊢
    have hnames := List.forall_mem_append.mpr ⟨hfront, List.forall_mem_singleton.mpr hname⟩
    have hne : front ++ [name] ≠ [] := by simp
    rw [join_pathBelow hfront hname] at hfile ⊢
    obtain ⟨hfits, hleads⟩ := (find_pathBelow hroot hstart hne hnames).mp hfile
    refine ⟨_, ⟨hne, ⟨_, hbase ▸ hstart, hleads⟩, ?_, hbase ▸ hfits⟩, rfl⟩
    exact List.forall_mem_append.mpr ⟨hfrontShown, List.forall_mem_singleton.mpr hnameShown⟩
  · rintro ⟨names, ⟨hne, ⟨start, hstart, hleads⟩, hshown, hfits⟩, rfl⟩
    rw [hbase] at hstart hfits
    have hnames := (hroot.of_find hstart).entryNames hleads
    -- the search finds the last name in a directory that the names before it lead to
    obtain ⟨front, name, rfl⟩ : ∃ front name, names = front ++ [name] := by
      rcases List.eq_nil_or_concat names with rfl | ⟨front, name, rfl⟩
      · exact absurd rfl hne
      · exact ⟨front, name, List.concat_eq_append⟩
    obtain ⟨entries, hfront, hentry⟩ := Node.leads_append_singleton_iff.mp hleads
    obtain ⟨hfrontNames, hname⟩ := List.forall_mem_append.mp hnames
    obtain ⟨hfrontShown, hnameShown⟩ := List.forall_mem_append.mp hshown
    have hfrontFits := Nat.le_trans (size_pathBelow_le hfrontNames (hname name (.head _))) hfits
    refine ⟨⟨_, (mem_starts_iff hroot).mpr ⟨front, ?_, rfl⟩, name, mem_namesIn.mpr
      ⟨hnameShown name (.head _), entries, _, at?_pathBelow hroot hstart hfront hfrontFits, hentry⟩,
      join_pathBelow hfrontNames (hname name (.head _))⟩, ?_⟩
    · by_cases hend : front = []
      · exact .inl hend
      · exact .inr ⟨hend, hfrontShown, entries, (nodeAt_of_at? hstart).symm ▸ hfront⟩
    · obtain ⟨own, rfl⟩ := hfront.exists_directory
      exact (find_pathBelow hroot hstart hne hnames).mpr ⟨hfits, hleads⟩

/-- **A search finds no path twice.** -/
theorem nodup_everything (hroot : f.root.WellNamed) (hwild : hasWildcard directory = false) :
    (find f (Path.join directory "**/*")).Nodup := by
  rw [find_everything hwild]
  generalize baseOf directory = base
  have hstarts : (([] : Text) :: directoriesBelow (nodeAt f base)).Nodup := by
    refine List.nodup_cons.mpr ⟨fun hnil => ?_, nodup_directoriesBelow (wellNamed_nodeAt hroot)⟩
    obtain ⟨names, hpasses, hnames⟩ := (mem_directoriesBelow (wellNamed_nodeAt hroot) _).mp hnil
    exact Files.joinWith_ne_nil hpasses.ne_nil
      (hpasses.entryNames (wellNamed_nodeAt hroot)) hnames.symm
  -- names that lead to a path are determined by it, the last one as well as those before it
  have hpaths : ∀ p ∈ ([] : Text) :: directoriesBelow (nodeAt f base),
      ∀ q ∈ ([] : Text) :: directoriesBelow (nodeAt f base), ∀ name other,
        name ∈ namesIn f false (Path.join base p) ['*'] →
        other ∈ namesIn f false (Path.join base q) ['*'] →
        Path.join (Path.join base p) name = Path.join (Path.join base q) other → p = q ∧
        name = other := by
    intro p hp q hq name other hname hother heq
    obtain ⟨front, hfront, rfl⟩ := (mem_starts_iff hroot).mp hp
    obtain ⟨front', hfront', rfl⟩ := (mem_starts_iff hroot).mp hq
    have hfront := (names_of_start hroot hfront).1
    have hfront' := (names_of_start hroot hfront').1
    have hname := isEntryName_of_mem_namesIn hroot hname
    have hother := isEntryName_of_mem_namesIn hroot hother
    rw [← pathBelow, ← pathBelow, join_pathBelow hfront hname, join_pathBelow hfront' hother,
      pathBelow_inj (by simp) (by simp)
        (List.forall_mem_append.mpr ⟨hfront, List.forall_mem_singleton.mpr hname⟩)
        (List.forall_mem_append.mpr ⟨hfront', List.forall_mem_singleton.mpr hother⟩)] at heq
    obtain ⟨rfl, hlast⟩ := List.append_inj' heq rfl
    exact ⟨rfl, (List.cons.inj hlast).1⟩
  refine List.nodup_flatMap.mpr ⟨fun p hp => ?_,
    hstarts.imp_of_mem fun {p q} hp hq hne path hpath hagain => ?_⟩
  · exact (nodup_namesIn hroot).map_on fun name hname other hother heq =>
      (hpaths p hp p hp name other hname hother heq).2
  · obtain ⟨name, hname, rfl⟩ := List.mem_map.mp hpath
    obtain ⟨other, hother, heq⟩ := List.mem_map.mp hagain
    exact hne (hpaths p hp q hq name other hname hother heq.symm).1

end PlainSteps.Glob
