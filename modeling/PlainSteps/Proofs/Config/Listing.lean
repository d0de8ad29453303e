import PlainSteps.Proofs.Config.Cache
import PlainSteps.Proofs.Files.Trees
import PlainSteps.Proofs.Text.Lower

/-! # Listed configurations

The listing of a directory takes the extension off the names of its files as they are. A load puts
the name in lower case and the extension behind it. So the load of a listed name comes back to the
file behind it just when the file is tidy (`wanted_eq_iff`): its name is in lower case, and there is
more in front of the extension than dots, since behind dots alone nothing counts as an extension.
From any other file the load goes on to another one, and fails where that one is not there. What is
kept for a listed name is told apart from what is kept for others by its lower case only.
-/

namespace PlainSteps.Loading

/-! ### The name behind a file -/

/-- A file name in lower case, with more in front of its extension than dots. -/
structure IsTidy (file : Text) : Prop where
  lower : Text.lower (Path.stem file) = Path.stem file
  extended : Path.stem file ≠ file

/-- The file name that a load of an application looks for. -/
def wanted (app : Text) : Text := Text.lower app ++ extension

theorem exists_first_not_dot {front : Text} (h : ¬ ∀ c ∈ front, c = '.') :
    ∃ dots c cs, front = dots ++ c :: cs ∧ (∀ d ∈ dots, d = '.') ∧ c ≠ '.' := by
  obtain ⟨c, cs, hrest⟩ : ∃ c cs, front.dropWhile (· == '.') = c :: cs := by
    refine List.exists_cons_of_ne_nil fun hnil => h ?_
    simpa using List.dropWhile_eq_nil_iff.mp hnil
  refine ⟨front.takeWhile (· == '.'), c, cs, ?_, ?_, ?_⟩
  · rw [← hrest, List.takeWhile_append_dropWhile]
  · simpa using List.all_eq_true.mp (List.all_takeWhile (p := (· == '.')) (l := front))
  · have hfirst := List.head?_dropWhile_not (· == '.') front
    rw [hrest] at hfirst
    simpa using hfirst

theorem baseName_append_extension {front : Text} (h : '/' ∉ front) :
    Path.baseName (front ++ extension) = front ++ extension := by
  have hslash : '/' ∉ front ++ extension := by
    rw [List.mem_append, not_or]
    exact ⟨h, by decide⟩
  exact Path.baseName_lead_append (.inl rfl) hslash

/-- Behind dots alone the extension counts as a part of the name. -/
theorem stem_append_of_dots {front : Text} (h : '/' ∉ front) (hdots : ∀ c ∈ front, c = '.') :
    Path.stem (front ++ extension) = front ++ extension := by
  have htake : (front ++ extension).takeWhile (· == '.') = front ++ ['.'] := by
    rw [List.takeWhile_append_of_pos (by simpa using hdots)]
    rfl
  have hdrop : (front ++ extension).drop (front ++ ['.']).length = "json".toList := by
    rw [List.length_append, List.drop_append]
    simp [extension]
  unfold Path.stem
  dsimp only
  rw [baseName_append_extension h, htake, hdrop]
  rfl

/-- The extension comes off a name with more than dots in front of it. -/
theorem stem_append {front : Text} (h : '/' ∉ front) (hdots : ¬ ∀ c ∈ front, c = '.') :
    Path.stem (front ++ extension) = front := by
  unfold Path.stem
  dsimp only
  rw [baseName_append_extension h]
  obtain ⟨dots, c, cs, rfl, hall, hc⟩ := exists_first_not_dot hdots
  have htake : (dots ++ c :: cs ++ extension).takeWhile (· == '.') = dots := by
    rw [List.append_assoc, List.takeWhile_append_of_pos (by simpa using hall), List.cons_append,
      List.takeWhile_cons_of_neg (by simpa using hc), List.append_nil]
  have hextension : (c :: cs ++ extension).reverse.takeWhile (· != '.') =
      "json".toList.reverse := by
    rw [List.reverse_append]
    rfl
  have hlonger : ¬ ("json".toList.reverse.length == (c :: cs ++ extension).length) = true :=
    by simp [extension]
  rw [htake, List.append_assoc, List.drop_left, hextension, if_neg hlonger, ← List.append_assoc]
  refine List.take_left' ?_
  simp only [extension, List.length_append, List.length_cons]
  simp

theorem endsWith_extension_iff {file : Text} :
    Text.endsWith extension file = true ↔ ∃ front, file = front ++ extension := by
  rw [Text.endsWith, List.isSuffixOf_iff_suffix]
  exact exists_congr fun front => eq_comm

/-- **A load of the name behind a file looks for the file itself just when the file is tidy.** -/
theorem wanted_eq_iff {file : Text} (hlisted : Text.endsWith extension file = true)
    (hslash : '/' ∉ file) :
    wanted (Path.stem file) = file ↔ IsTidy file := by
  obtain ⟨front, rfl⟩ := endsWith_extension_iff.mp hlisted
  have hfront : '/' ∉ front := fun h => hslash (List.mem_append_left _ h)
  by_cases hdots : ∀ c ∈ front, c = '.'
  · have hstem := stem_append_of_dots hfront hdots
    refine iff_of_false (fun heq => ?_) fun htidy => htidy.extended hstem
    -- the extension is put behind a name that has kept its own
    have hlength := congrArg List.length heq
    have hlower := Text.length_le_lower (front ++ extension)
    rw [wanted, hstem, List.length_append] at hlength
    have hmore : 0 < extension.length := by decide
    omega
  · have hstem := stem_append hfront hdots
    constructor
    · intro heq
      rw [wanted, hstem] at heq
      refine ⟨by rw [hstem]; exact List.append_cancel_right heq, ?_⟩
      rw [hstem]
      simp [extension]
    · intro htidy
      rw [wanted, htidy.lower, hstem]

/-- The name behind the name of an entry has neither a slash nor a NUL in it. -/
theorem not_mem_stem {file : Text} {c : Char} (h : c ∉ file) : c ∉ Path.stem file := by
  unfold Path.stem
  dsimp only
  split
  · exact h
  · exact fun hin => h (List.mem_of_mem_take hin)

theorem isEntryName_wanted {app : Text} (hslash : '/' ∉ app) (hnul : '\x00' ∉ app) :
    IsEntryName (wanted app) where
  ne_nil := by simp [wanted, extension]
  ne_here := by
    intro h
    have hlength := congrArg List.length h
    simp [wanted, extension] at hlength
  ne_up := by
    intro h
    have hlength := congrArg List.length h
    simp [wanted, extension] at hlength
  noSlash := by
    rw [wanted, List.mem_append, not_or]
    exact ⟨Text.not_mem_lower (.inl (by decide)) hslash, by decide⟩
  noNul := by
    rw [wanted, List.mem_append, not_or]
    exact ⟨Text.not_mem_lower (.inr rfl) hnul, by decide⟩

/-! ### Loads of listed names -/

section Directory

variable {s : Setting} {directory : Option Text} {entries : List (Text × Node)} {app file : Text}

/-- A load looks for a file of its directory by name. -/
theorem find_fileOf (hdirectory : s.files.find (s.directoryOf directory) = .ok (.directory entries))
    (hslash : '/' ∉ app) (hnul : '\x00' ∉ app) : s.files.find (fileOf s app directory) =
      if Files.maxPath < Files.size (fileOf s app directory) then .error .nameTooLong
      else Files.enter (wanted app) (.directory entries) := by
  have hbase : s.files.at? (s.directoryOf directory) = .ok (.directory entries) := by
    rw [Files.at?, if_neg (by simpa using (Files.find_eq_ok_iff.mp hdirectory).2.1)]
    exact hdirectory
  have hfind := Files.find_join hbase (List.cons_ne_nil (wanted app) [])
    (List.forall_mem_singleton.mpr (isEntryName_wanted hslash hnul))
  refine hfind.trans ?_
  show (if Files.maxPath < Files.size (fileOf s app directory) then _ else _) = _
  congr 1
  rw [Files.descend]
  cases Files.enter (wanted app) (.directory entries) <;> rfl

/-- Below one base, two names have one path only if they are the same. -/
theorem join_inj {base a b : Text} (ha : Path.isAbsolute a = false)
    (hb : Path.isAbsolute b = false) :
    Path.join base a = Path.join base b ↔ a = b := by
  rw [Path.join_eq_lead_append ha, Path.join_eq_lead_append hb, List.append_cancel_left_eq]

/-- A directory of regular files whose paths are not too long. -/
structure Holds (s : Setting) (directory : Option Text) (entries : List (Text × Node)) : Prop where
  found : s.files.find (s.directoryOf directory) = .ok (.directory entries)
  named : (Node.directory entries).WellNamed
  regular : ∀ e ∈ entries, ∃ content, e.2 = .file content
  fits : ∀ e ∈ entries, Files.size (Path.join (s.directoryOf directory) e.1) ≤ Files.maxPath

theorem Holds.entryName (h : Holds s directory entries) : ∀ e ∈ entries, IsEntryName e.1 := by
  cases h.named with
  | directory names _ _ _ => exact names

/-- A load finds the entry that it looks for. -/
theorem Holds.find_fileOf (h : Holds s directory entries) {content : Content}
    (hentry : (wanted app, .file content) ∈ entries) (hslash : '/' ∉ app) (hnul : '\x00' ∉ app) :
    s.files.find (fileOf s app directory) = .ok (.file content) := by
  obtain ⟨hfound, hnamed, -, hfits⟩ := h
  have hfit : Files.size (fileOf s app directory) ≤ Files.maxPath := hfits _ hentry
  cases hnamed with
  | directory names short own nodes =>
    rw [Loading.find_fileOf hfound hslash hnul, if_neg (Nat.not_lt_of_le hfit), Files.enter,
      if_neg (Nat.not_lt_of_le (short _ hentry)), (Files.child?_eq_some_iff own).mpr hentry]

/-- Where no entry has the name that a load looks for, it finds nothing. -/
theorem Holds.find_fileOf_error (h : Holds s directory entries)
    (hnone : ∀ e ∈ entries, wanted app ≠ e.1) (hslash : '/' ∉ app) (hnul : '\x00' ∉ app) :
    ∃ problem, (problem = .notFound ∨ problem = .nameTooLong) ∧
      s.files.find (fileOf s app directory) = .error problem := by
  rw [Loading.find_fileOf h.found hslash hnul, Files.enter]
  split
  · exact ⟨_, .inr rfl, rfl⟩
  · split
    · exact ⟨_, .inr rfl, rfl⟩
    · cases h.named with
      | directory names short own nodes =>
        cases hchild : Files.child? (wanted app) entries with
        | none => exact ⟨_, .inl rfl, rfl⟩
        | some node => exact absurd rfl (hnone _ ((Files.child?_eq_some_iff own).mp hchild))

/-- **A load fails for want of a file just when no entry has the name that it looks for.** -/
theorem Holds.unreadable_iff (h : Holds s directory entries) {cache : Cache} (hslash : '/' ∉ app)
    (hnul : '\x00' ∉ app) (hkept : cache.get? (key s app directory) = none) :
    (∃ problem, (problem = .notFound ∨ problem = .nameTooLong) ∧
      (load s cache app directory).value.1 = .error
        (.unreadable app (.unusable problem (fileOf s app directory)))) ↔
      ∀ e ∈ entries, wanted app ≠ e.1 := by
  constructor
  · rintro ⟨problem, -, hload⟩ e he heq
    obtain ⟨content, hcontent⟩ := h.regular e he
    have hentry : (wanted app, .file content) ∈ entries := by
      rw [heq, ← hcontent]
      exact he
    have hfind := h.find_fileOf hentry hslash hnul
    -- what is found may be refused or be no text, but its path is in order
    have hpath : s.files.readText (fileOf s app directory) ≠
        .error (.unusable problem (fileOf s app directory)) := by
      rw [Files.readText_of_file hfind]
      split
      · exact nofun
      · cases content <;> exact nofun
    rcases read_error_iff.mp (load_error_iff.mp hload).2 with
      ⟨d, hd, he⟩ | ⟨_, -, ⟨d, -, hd⟩ | ⟨x, -, ⟨d, -, hd⟩ | ⟨y, -, issues, -, hd⟩⟩⟩
    · cases he
      exact hpath hd
    all_goals cases hd
  · intro hnone
    obtain ⟨problem, hproblem, hfind⟩ := h.find_fileOf_error hnone hslash hnul
    refine ⟨problem, hproblem, load_error_iff.mpr ⟨hkept, read_error_iff.mpr (.inl ⟨_, ?_, rfl⟩)⟩⟩
    rw [Files.readText, hfind]

/-- A configuration that was loaded is that of all names with the same lower case, and leaves all
others alone. -/
theorem load_shared {cache cache' : Cache} {config : Config} {other : Text}
    (hload : (load s cache app directory).value = (.ok config, cache')) :
    (Text.lower other = Text.lower app →
      load s cache' other directory = pure (.ok config, cache')) ∧
      (Text.lower other ≠ Text.lower app →
        cache'.get? (key s other directory) = cache.get? (key s other directory)) := by
  have hafter : (Process.mk s cache).after (.load app directory) = ⟨s, cache'⟩ := by
    show Process.mk s (load s cache app directory).value.2 = _
    rw [hload]
  constructor
  · intro hlower
    have hkey : key s other directory = key s app directory := by rw [key, hlower, key]
    have hok : ((Process.mk s cache).load app directory).value.1 = .ok config :=
      congrArg Prod.fst hload
    have hkept := Process.kept_of_load_ok hok
    rw [hafter] at hkept
    exact Process.load_of_kept (p := ⟨s, cache'⟩) (by rw [← hkept]; exact congrArg _ hkey)
  · intro hlower
    have hkept := Process.kept_after ⟨s, cache⟩ (key s other directory) (.load app directory)
    have hkey : ¬ (Process.mk s cache).key app directory = key s other directory := by
      intro heq
      exact hlower (congrArg Prod.fst heq).symm
    rw [hafter, Process.found?, if_neg hkey, Option.or_none] at hkept
    exact hkept

theorem mem_available_iff (h : s.files.find (s.directoryOf directory) = .ok (.directory entries)) :
    app ∈ available s directory ↔ ∃ e ∈ entries, Text.endsWith extension e.1 = true ∧
    Path.stem e.1 = app := by
  unfold available Files.entries
  rw [h]
  simp [and_assoc]

/-- **Which listed configurations can be loaded.** A directory of regular files lists the names
behind those of its files that have the extension. The load of a listed name reads the file behind
it just when the file is tidy, in lower case and with more than dots in front of its extension. It
fails for want of a file just when it looks for one that the directory does not have, and never for
a tidy one. What is loaded for a listed name is what the loads of the listed names with the same
lower case return from then on, and no others; so two tidy files never share it. -/
theorem listed_loads (s : Setting) {directory : Option Text} {entries : List (Text × Node)}
    (h : Holds s directory entries) :
    (∀ app, app ∈ available s directory ↔
      ∃ e ∈ entries, Text.endsWith extension e.1 = true ∧ Path.stem e.1 = app) ∧
    ∀ file content, (file, .file content) ∈ entries → Text.endsWith extension file = true →
      (fileOf s (Path.stem file) directory = Path.join (s.directoryOf directory) file ↔
        IsTidy file) ∧
      (IsTidy file → s.files.find (fileOf s (Path.stem file) directory) = .ok (.file content)) ∧
      (∀ cache, cache.get? (key s (Path.stem file) directory) = none →
        ((∃ problem, (problem = .notFound ∨ problem = .nameTooLong) ∧
          (load s cache (Path.stem file) directory).value.1 =
            .error (.unreadable (Path.stem file)
              (.unusable problem (fileOf s (Path.stem file) directory)))) ↔
          ∀ e ∈ entries, fileOf s (Path.stem file) directory ≠
            Path.join (s.directoryOf directory) e.1)) ∧
      ∀ other ∈ available s directory, ∀ cache config cache',
        (load s cache (Path.stem file) directory).value = (.ok config, cache') →
        (Text.lower other = Text.lower (Path.stem file) →
          load s cache' other directory = pure (.ok config, cache')) ∧
        (Text.lower other ≠ Text.lower (Path.stem file) →
          cache'.get? (key s other directory) = cache.get? (key s other directory)) := by
  refine ⟨fun app => mem_available_iff h.found, fun file content hentry hlisted => ?_⟩
  have hname := h.entryName _ hentry
  have hslash := not_mem_stem hname.noSlash
  have hnul := not_mem_stem hname.noNul
  -- below the directory a path is told by its name alone
  have hpath : ∀ e ∈ entries, fileOf s (Path.stem file) directory =
    Path.join (s.directoryOf directory) e.1 ↔
      wanted (Path.stem file) = e.1 := fun e he =>
    join_inj (Files.isAbsolute_of_isEntryName (isEntryName_wanted hslash hnul))
      (Files.isAbsolute_of_isEntryName (h.entryName e he))
  refine ⟨(hpath _ hentry).trans (wanted_eq_iff hlisted hname.noSlash), fun htidy => ?_,
    fun cache hkept => ?_, fun other hother cache config cache' hload => load_shared hload⟩
  · refine h.find_fileOf ?_ hslash hnul
    rw [(wanted_eq_iff hlisted hname.noSlash).mpr htidy]
    exact hentry
  · rw [h.unreadable_iff hslash hnul hkept]
    exact forall₂_congr fun e he => not_congr (hpath e he).symm

/-- A directory whose one file has a capital letter in its name. -/
def capital : Setting where
  files := .ofEntries [("cfg", .directory
    [("Demo.json", .file (.text "\x7b\"name\": \"Demo\", \"base_url\": \"http://a\"\x7d"))])]
  env := []
  project := "/p"

/-- It is listed, and its load fails for want of a file. -/
theorem load_listed_capital : "Demo".toList ∈ available capital (some "cfg") ∧
    (load capital [] "Demo" (some "cfg")).value.1 =
      .error (.unreadable "Demo" (.unusable .notFound "cfg/demo.json")) := by
  have hlisted : available capital (some "cfg") = ["Demo".toList] := by decide +kernel
  have hmissing : capital.files.readText (fileOf capital "Demo" (some "cfg")) =
      .error (.unusable .notFound "cfg/demo.json") := by
    decide +kernel
  refine ⟨hlisted ▸ List.mem_singleton_self _,
    load_error_iff.mpr ⟨rfl, read_error_iff.mpr (.inl ⟨_, hmissing, rfl⟩)⟩⟩

/-- The files of a directory in which two names differ in a letter's case and one has nothing in
front of its extension. -/
def threeFiles : List (Text × Node) :=
  [("demo.json", .file (.text "\x7b\"name\": \"Lower\", \"base_url\": \"http://a\"\x7d")),
    ("Demo.json", .file (.text "\x7b\"name\": \"Upper\", \"base_url\": \"http://a\"\x7d")),
      (".json", .file (.text []))]

/-- A setting with this directory. -/
def mixed : Setting where
  files := .ofEntries [("cfg", .directory threeFiles)]
  env := []
  project := "/p"

theorem holds_mixed : Holds mixed (some "cfg") threeFiles where
  found := rfl
  named := .directory (by decide) (by decide) (by decide)
    (by simpa [threeFiles] using ⟨.file _, .file _, .file _⟩)
  regular := by simp [threeFiles]
  fits := by decide

/-- The two names that differ in a letter's case are listed, and only one of their files is ever
read. -/
theorem listed_loads_mixed :
    ("Demo".toList ∈ available mixed (some "cfg") ∧ "demo".toList ∈ available mixed (some "cfg")) ∧
    fileOf mixed "demo" (some "cfg") = "cfg/demo.json" ∧
      fileOf mixed "Demo" (some "cfg") ≠ "cfg/Demo.json" ∧
    fileOf mixed ".json" (some "cfg") ≠ "cfg/.json" := by
  obtain ⟨hlisted, hloads⟩ := listed_loads mixed holds_mixed
  refine ⟨⟨(hlisted _).mpr ⟨_, .tail _ (.head _), by decide, by decide⟩,
    (hlisted _).mpr ⟨_, .head _, by decide, by decide⟩⟩,
      (hloads "demo.json" _ (.head _) (by decide)).1.mpr ⟨by decide, by decide⟩, fun heq =>
        ?_, fun heq => ?_⟩
  · exact absurd ((hloads "Demo.json" _ (.tail _ (.head _)) (by decide)).1.mp heq).lower (by decide)
  · exact absurd ((hloads ".json" _ (.tail _ (.tail _ (.head _))) (by decide)).1.mp heq).extended
      (by decide)

end Directory

end PlainSteps.Loading
