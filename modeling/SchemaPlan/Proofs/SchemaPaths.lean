import SchemaPlan.Files.SchemaDirectory
import SchemaPlan.Proofs.FileTreeLaws

/-!
# Paths of schema directories

Where the paths of a schema directory lead to, and what can be done with them.

* `IsFileName`: the names of single files and directories; `pathNames_joinPath`: a path that goes on
  by one of them.
* `FileTree.resolve`: the place of a path; `FileTree.Opens`: the directory at a path is there.
* `FileTree.locate_joinPath`: a path into a directory that is there.
* `FileTree.created`, `FileTree.createDirectories_again`: directories that are created, once.
* `isSchemaFileName_schemaFileName`: a written file is one that is read.
-/

namespace SchemaPlan

/-! ## Names -/

/-- The name of a single file or directory. -/
structure IsFileName (name : String) : Prop where
  nonempty : name ≠ ""
  ne_here : name ≠ "."
  ne_up : name ≠ ".."
  slashless : '/' ∉ name.toList

instance (name : String) : Decidable (IsFileName name) :=
  decidable_of_iff (name ≠ "" ∧ name ≠ "." ∧ name ≠ ".." ∧ '/' ∉ name.toList)
    ⟨fun ⟨nonempty, ne_here, ne_up, slashless⟩ => ⟨nonempty, ne_here, ne_up, slashless⟩,
      fun h => ⟨h.nonempty, h.ne_here, h.ne_up, h.slashless⟩⟩

theorem isFileName_directory (kind : EntityKind) : IsFileName kind.directory := by
  cases kind <;> exact ⟨by decide, by decide, by decide, by decide⟩

theorem directory_injective {a b : EntityKind} (h : a.directory = b.directory) : a = b := by
  revert h
  cases a <;> cases b <;> decide

theorem toList_schemaFileName (name : String) :
    (schemaFileName name).toList = name.toList ++ ".yaml".toList := by
  simp [schemaFileName]

theorem schemaFileName_injective {a b : String} (h : schemaFileName a = schemaFileName b) :
    a = b := by
  have hlist := congrArg String.toList h
  rw [toList_schemaFileName, toList_schemaFileName] at hlist
  exact String.toList_injective (List.append_cancel_right hlist)

theorem isFileName_schemaFileName {name : String} (h : '/' ∉ name.toList) :
    IsFileName (schemaFileName name) := by
  have hlength : 5 ≤ (schemaFileName name).toList.length := by
    rw [toList_schemaFileName, List.length_append]
    exact Nat.le_add_left _ _
  refine ⟨?_, ?_, ?_, ?_⟩
  · rintro e
    rw [e] at hlength
    cases hlength
  · rintro e
    rw [e] at hlength
    exact absurd hlength (by decide)
  · rintro e
    rw [e] at hlength
    exact absurd hlength (by decide)
  · rw [toList_schemaFileName, List.mem_append, not_or]
    exact ⟨h, by decide⟩

/-- **A written file is one that is read**, if its entity has a name. -/
theorem isSchemaFileName_schemaFileName {name : String} (h : name ≠ "") :
    isSchemaFileName (schemaFileName name) = true := by
  have hne : name.toList.reverse ≠ [] := by simpa using h
  obtain ⟨c, cs, hcs⟩ := List.exists_cons_of_ne_nil hne
  have hextension : extension? (schemaFileName name) = some "yaml" := by
    unfold extension?
    rw [toList_schemaFileName, List.reverse_append, hcs]
    rfl
  rw [isSchemaFileName, hextension]
  rfl

/-! ## Paths that go on -/

theorem pathNames_append_slash (path more : String) :
    pathNames (path ++ "/" ++ more) = pathNames path ++ pathNames more := by
  unfold pathNames
  rw [String.toList_append, String.toList_append, List.append_assoc]
  change (((path.toList ++ '/' :: more.toList).splitOn '/').map String.ofList) = _
  rw [List.splitOn, List.splitOnP_append_cons _ _ (by simp), List.map_append]
  rfl

theorem pathNames_of_slashless {name : String} (h : '/' ∉ name.toList) :
    pathNames name = [name] := by
  unfold pathNames
  rw [List.splitOn, List.splitOnP_eq_singleton]
  · simp
  · intro c hc
    simpa using fun e : c = '/' => h (e ▸ hc)

/-- A path that goes on by a name has a slash before it, unless it is this name alone. -/
theorem joinPath_eq {name : String} (h : IsFileName name) (root : String) :
    root = "" ∧ joinPath root name = name ∨
      ∃ path, (root = path ∧ path ≠ "" ∨ root = path ++ "/") ∧
        joinPath root name = path ++ "/" ++ name := by
  have hslash : name.toList.head? ≠ some '/' := fun e => h.slashless (List.mem_of_head? e)
  unfold joinPath
  rw [if_neg hslash]
  by_cases hroot : root = ""
  · subst hroot
    exact .inl ⟨rfl, by simp⟩
  by_cases hlast : root.toList.getLast? = some '/'
  · obtain ⟨cs, hcs⟩ := List.getLast?_eq_some_iff.mp hlast
    have hpath : root = String.ofList cs ++ "/" := by
      apply String.toList_injective
      simpa using hcs
    exact .inr ⟨String.ofList cs, .inr hpath, by simp [hpath]⟩
  · exact .inr ⟨root, .inl ⟨rfl, hroot⟩, by simp [hroot, hlast]⟩

/-- The names of a path that goes on are those of the path and one more, but for an empty name. -/
theorem pathNames_joinPath {name : String} (h : IsFileName name) (root : String) :
    ∃ names, pathNames (joinPath root name) = names ++ [name] ∧
      (pathNames root = names ∨ pathNames root = names ++ [""]) := by
  rcases joinPath_eq h root with ⟨rfl, hjoin⟩ | ⟨path, hroot, hjoin⟩
  · exact ⟨[], by rw [hjoin, pathNames_of_slashless h.slashless]; rfl, .inr rfl⟩
  · refine ⟨pathNames path, ?_, ?_⟩
    · rw [hjoin, pathNames_append_slash, pathNames_of_slashless h.slashless]
    · rcases hroot with ⟨rfl, _⟩ | rfl
      · exact .inl rfl
      · right
        have hend := pathNames_append_slash path ""
        rwa [String.append_empty] at hend

theorem mem_joinPath {name : String} (h : IsFileName name) {root : String} {c : Char}
    (hc : c ∈ (joinPath root name).toList) : c ∈ root.toList ∨ c = '/' ∨ c ∈ name.toList := by
  rcases joinPath_eq h root with ⟨rfl, hjoin⟩ | ⟨path, hroot, hjoin⟩
  · rw [hjoin] at hc
    exact .inr (.inr hc)
  · have hpath : c ∈ path.toList → c ∈ root.toList := by
      rcases hroot with ⟨rfl, _⟩ | rfl <;> simp +contextual
    rw [hjoin, String.toList_append, String.toList_append, List.mem_append, List.mem_append] at hc
    rcases hc with (hc | hc) | hc
    · exact .inl (hpath hc)
    · exact .inr (.inl (List.mem_singleton.mp hc))
    · exact .inr (.inr hc)

theorem exists_joinPath_eq (root : String) : ∃ start, (start = root ∨ start = root ++ "/") ∧
    ∀ name, IsFileName name → joinPath root name = start ++ name := by
  have hslash {name : String} (h : IsFileName name) : name.toList.head? ≠ some '/' :=
    fun e => h.slashless (List.mem_of_head? e)
  by_cases hroot : (root.isEmpty || decide (root.toList.getLast? = some '/')) = true
  · refine ⟨root, .inl rfl, fun name h => ?_⟩
    rw [joinPath, if_neg (hslash h), if_pos hroot]
  · refine ⟨root ++ "/", .inr rfl, fun name h => ?_⟩
    rw [joinPath, if_neg (hslash h), if_neg hroot]

theorem joinPath_lt {a b : String} (ha : IsFileName a) (hb : IsFileName b) (root : String)
    (h : a < b) : joinPath root a < joinPath root b := by
  obtain ⟨start, -, hjoin⟩ := exists_joinPath_eq root
  rw [hjoin a ha, hjoin b hb, String.lt_iff, String.toList_append, String.toList_append]
  exact List.append_left_lt (String.lt_iff.mp h)

theorem joinPath_ne_empty {name : String} (h : IsFileName name) (root : String) :
    joinPath root name ≠ "" := by
  rcases joinPath_eq h root with ⟨rfl, hjoin⟩ | ⟨path, hroot, hjoin⟩
  · rw [hjoin]
    exact h.nonempty
  · intro e
    rw [hjoin] at e
    simpa using congrArg String.toList e

namespace FileTree

variable {t u : FileTree} {root path name : String} {place : Place}

theorem base_joinPath (h : IsFileName name) (t : FileTree) (root : String) :
    t.base (joinPath root name) = t.base root := by
  have hhead : (joinPath root name).toList.head? = some '/' ↔ root.toList.head? = some '/' := by
    rcases joinPath_eq h root with ⟨rfl, hjoin⟩ | ⟨path, ⟨rfl, hpath⟩ | rfl, hjoin⟩
    · rw [hjoin]
      exact iff_of_false (fun e => h.slashless (List.mem_of_head? e)) (by simp)
    · obtain ⟨c, cs, hcs⟩ := List.exists_cons_of_ne_nil (l := root.toList) (by simpa using hpath)
      rw [hjoin, String.toList_append, String.toList_append, hcs]
      rfl
    · obtain ⟨c, cs, hcs⟩ := List.exists_cons_of_ne_nil (l := (path ++ "/").toList) (by simp)
      rw [hjoin, String.toList_append, hcs]
      rfl
  unfold base
  simp only [hhead]

/-- The place of a path, whatever lies on the way. -/
def resolve (t : FileTree) (path : String) : Place := follow (t.base path) (pathNames path)

theorem resolve_joinPath (h : IsFileName name) (t : FileTree) (root : String) :
    t.resolve (joinPath root name) = t.resolve root ++ [name] := by
  have hname (here : Place) : follow here [name] = here ++ [name] := by
    simp [follow, h.nonempty, h.ne_here, h.ne_up]
  obtain ⟨names, hjoin, hroot⟩ := pathNames_joinPath h root
  rw [resolve, resolve, base_joinPath h, hjoin, follow_append, hname]
  rcases hroot with hroot | hroot
  · rw [hroot]
  · rw [hroot, follow_append]
    rfl

theorem KeepsDirectories.resolve (h : KeepsDirectories t u) (path : String) :
    u.resolve path = t.resolve path := by
  rw [FileTree.resolve, FileTree.resolve, h.base]

theorem Keeps.resolve (h : Keeps t u) (path : String) : u.resolve path = t.resolve path :=
  h.keepsDirectories.resolve path

/-! ## Directories that are there -/

/-- The directory at a path is there. -/
structure Opens (t : FileTree) (path : String) : Prop where
  walk : t.walk (t.base path) (pathNames path) = .ok (t.resolve path)
  directory : t.node? (t.resolve path) = some .directory

theorem KeepsDirectories.opens (h : KeepsDirectories t u) (ho : t.Opens path) : u.Opens path := by
  refine ⟨?_, ?_⟩
  · rw [h.base, h.resolve]
    exact h.walk ho.walk
  · rw [h.resolve]
    exact h.directories _ ho.directory

theorem Keeps.opens (h : Keeps t u) (ho : t.Opens path) : u.Opens path :=
  h.keepsDirectories.opens ho

/-- The way to a directory that is there, without the empty name that may stand at its end. -/
theorem Opens.exists_walk (ho : t.Opens root) (h : IsFileName name) :
    ∃ names, pathNames (joinPath root name) = names ++ [name] ∧
      t.walk (t.base root) names = .ok (t.resolve root) := by
  have hwalk := ho.walk
  obtain ⟨names, hjoin, hroot | hroot⟩ := pathNames_joinPath h root
  · exact ⟨names, hjoin, hroot ▸ hwalk⟩
  · refine ⟨names, hjoin, ?_⟩
    rw [hroot, walk_append, bind_eq_ok_iff] at hwalk
    obtain ⟨place, hplace, hlast⟩ := hwalk
    rw [hplace, follow_of_walk hlast]
    rfl

theorem walk_joinPath (h : IsFileName name) (t : FileTree) (root : String) :
    t.walk (t.base (joinPath root name)) (pathNames (joinPath root name)) =
      t.walk (t.base root) (pathNames root) >>= fun here => t.walk here [name] := by
  obtain ⟨names, hjoin, hroot | hroot⟩ := pathNames_joinPath h root
  · rw [hjoin, base_joinPath h, walk_append, hroot]
  · -- the empty name at the end needs the same directory as the step after it
    have hstay (here : Place) :
        (t.walk here [""] >>= fun here => t.walk here [name]) = t.walk here [name] := by
      cases hneed : t.needDirectory here with
      | error cause =>
        simp only [walk, hneed]
        rfl
      | ok _ =>
        rw [walk_cons (needDirectory_eq_ok_iff.mp hneed) ""]
        rfl
    rw [hjoin, base_joinPath h, walk_append, hroot, walk_append, bind_assoc]
    simp only [hstay]

theorem Opens.walk_joinPath (ho : t.Opens root) (h : IsFileName name)
    (hallowed : t.allowsName name = true) :
    t.walk (t.base (joinPath root name)) (pathNames (joinPath root name)) =
      .ok (t.resolve (joinPath root name)) := by
  rw [FileTree.walk_joinPath h, ho.walk, resolve_joinPath h]
  change t.walk (t.resolve root) [name] = _
  rw [walk_cons ho.directory, if_neg (not_or.mpr ⟨h.nonempty, h.ne_here⟩), if_neg h.ne_up,
    if_pos hallowed]
  rfl

theorem of_walk_joinPath (h : IsFileName name)
    (hwalk : t.walk (t.base (joinPath root name)) (pathNames (joinPath root name)) = .ok place) :
    t.Opens root ∧ t.allowsName name = true := by
  rw [walk_joinPath h, bind_eq_ok_iff] at hwalk
  obtain ⟨here, hhere, hlast⟩ := hwalk
  have hdirectory := directory_of_walk hlast
  rw [walk_cons hdirectory, if_neg (not_or.mpr ⟨h.nonempty, h.ne_here⟩), if_neg h.ne_up] at hlast
  obtain rfl : here = t.resolve root := follow_of_walk hhere
  split_ifs at hlast with hallowed
  exact ⟨⟨hhere, hdirectory⟩, hallowed⟩

/-! ## Paths that can be used -/

/-- Nothing about a path itself keeps it from being used. -/
structure Usable (t : FileTree) (path : String) : Prop where
  clean : '\x00' ∉ path.toList
  short : t.allowsPath path = true

theorem KeepsDirectories.usable_iff (h : KeepsDirectories t u) : u.Usable path ↔ t.Usable path :=
  ⟨fun hu => ⟨hu.clean, (h.allowsPath path).symm.trans hu.short⟩,
    fun hu => ⟨hu.clean, (h.allowsPath path).trans hu.short⟩⟩

theorem Keeps.usable (h : Keeps t u) (hu : t.Usable path) : u.Usable path :=
  h.keepsDirectories.usable_iff.mpr hu

theorem clean_of_allowsName (h : t.allowsName name = true) : '\x00' ∉ name.toList := by
  simp only [allowsName, Bool.and_eq_true, Bool.not_eq_true'] at h
  simpa using h.2

theorem allowsName_of_clean (h : name.utf8ByteSize ≤ t.nameLimit) (hclean : '\x00' ∉ name.toList) :
    t.allowsName name = true := by
  simp [allowsName, h, hclean]

theorem Usable.joinPath (hroot : '\x00' ∉ root.toList) (h : IsFileName name)
    (hallowed : t.allowsName name = true) (hshort : t.allowsPath (joinPath root name) = true) :
    t.Usable (joinPath root name) := by
  refine ⟨fun hmem => ?_, hshort⟩
  rcases mem_joinPath h hmem with hmem | hmem | hmem
  · exact hroot hmem
  · cases hmem
  · exact clean_of_allowsName hallowed hmem

theorem Usable.of_joinPath (h : IsFileName name) (hu : t.Usable (SchemaPlan.joinPath root name)) :
    t.Usable root := by
  obtain ⟨start, hstart, hjoin⟩ := exists_joinPath_eq root
  obtain ⟨more, hmore⟩ : ∃ more, SchemaPlan.joinPath root name = root ++ more := by
    rw [hjoin name h]
    rcases hstart with rfl | rfl
    · exact ⟨name, rfl⟩
    · exact ⟨"/" ++ name, String.append_assoc ..⟩
  refine ⟨fun hmem => hu.clean ?_, ?_⟩
  · rw [hmore, String.toList_append]
    exact List.mem_append_left _ hmem
  · have hshort := hu.short
    rw [hmore] at hshort
    simp only [allowsPath, String.utf8ByteSize_append, decide_eq_true_eq] at hshort ⊢
    omega

theorem locate_of_usable (hu : t.Usable path) (hne : path ≠ "") :
    t.locate path = t.walk (t.base path) (pathNames path) := by
  have hclean := hu.clean
  simp [locate, hne, hclean, hu.short]

theorem usable_of_locate (h : t.locate path = .ok place) : t.Usable path := by
  unfold locate at h
  split_ifs at h with hempty hclean hshort
  exact ⟨by simpa using hclean, by simpa using hshort⟩

theorem walk_of_locate (h : t.locate path = .ok place) :
    t.walk (t.base path) (pathNames path) = .ok place := by
  unfold locate at h
  split_ifs at h
  exact h

/-- A path into a directory that is there names a place in it. -/
theorem Opens.locate_joinPath (ho : t.Opens root) (h : IsFileName name)
    (hallowed : t.allowsName name = true) (hu : t.Usable (joinPath root name)) :
    t.locate (joinPath root name) = .ok (t.resolve (joinPath root name)) := by
  rw [locate_of_usable hu (joinPath_ne_empty h root), ho.walk_joinPath h hallowed]

/-! ## Files that are read -/

theorem KeepsDirectories.locate (h : KeepsDirectories t u) (hplace : t.locate path = .ok place) :
    u.locate path = .ok place := by
  unfold FileTree.locate at hplace ⊢
  rw [h.allowsPath, h.base]
  split_ifs at hplace ⊢
  exact h.walk hplace

theorem readValue_eq_ok_iff {α : Type} {decode : String → Except TextError α} {x : α} :
    t.readValue decode path = .ok x ↔ ∃ place text, t.locate path = .ok place ∧
      t.node? place = some (.file (some text)) ∧ decode text = .ok x := by
  unfold readValue readFile
  simp only [bind_eq_ok_iff, mapError_eq_ok_iff]
  constructor
  · rintro ⟨text, ⟨place, hplace, hread⟩, hdecode⟩
    refine ⟨place, text, hplace, ?_, hdecode⟩
    split at hread <;> first | (cases hread; assumption) | cases hread
  · rintro ⟨place, text, hplace, hnode, hdecode⟩
    refine ⟨text, ⟨place, hplace, ?_⟩, hdecode⟩
    rw [hnode]
    rfl

theorem Keeps.readValue {α : Type} {decode : String → Except TextError α} {x : α} (h : t.Keeps u)
    (hread : t.readValue decode path = .ok x) : u.readValue decode path = .ok x := by
  obtain ⟨place, text, hplace, hnode, hdecode⟩ := readValue_eq_ok_iff.mp hread
  exact readValue_eq_ok_iff.mpr ⟨place, text, h.keepsDirectories.locate hplace,
    h.nodes _ _ hnode, hdecode⟩

/-! ## New files -/

theorem exists?_of_free (h : t.locate path = .ok place) (hfree : t.node? place = none) :
    t.exists? path = false := by
  rw [exists?, h]
  simp [hfree]

theorem writeFile_of_free (h : t.locate path = .ok place) (hfree : t.node? place = none)
    {text : String} : t.writeFile path text = .ok (t.put place (.file (some text))) := by
  have hdirectory : t.isDirectory place = false := by simp [isDirectory, hfree]
  rw [writeFile, h]
  change (if t.isDirectory place = true then _ else _) = _
  rw [hdirectory]
  rfl

/-! ## Directories that are created -/

theorem createDirectories_of_usable (hu : t.Usable path) :
    t.createDirectories path = t.makeWay (t.base path) (pathNames path) := by
  have hclean := hu.clean
  simp [createDirectories, hclean, hu.short]

theorem usable_of_createDirectories (h : (t.createDirectories path).1 = .ok ()) :
    t.Usable path := by
  unfold createDirectories at h
  split_ifs at h with hclean hshort
  exact ⟨by simpa using hclean, by simpa using hshort⟩

theorem WellFormed.base (h : t.WellFormed) (path : String) :
    t.node? (t.base path) = some .directory := by
  unfold FileTree.base
  split
  · rfl
  · exact h.working

/-- The tree `u` is the tree `t` after the directory at a path was created. -/
structure Created (t : FileTree) (path : String) (u : FileTree) : Prop where
  usable : t.Usable path
  keeps : Keeps t u
  files : u.files = t.files
  wellFormed : u.WellFormed
  opens : u.Opens path

/-- **A directory that was created is there**, and no file is new. -/
theorem created (h : t.WellFormed) (hmade : t.createDirectories path = (.ok (), u)) :
    t.Created path u := by
  have hu := usable_of_createDirectories (congrArg Prod.fst hmade)
  rw [createDirectories_of_usable hu] at hmade
  have hkeeps := keeps_makeWay t (t.base path) (pathNames path)
  have hfiles := files_makeWay t (t.base path) (pathNames path)
  have hwellFormed := h.makeWay (h.base path) (pathNames path)
  have hway := walk_makeWay h (h.base path) (congrArg Prod.fst hmade)
  rw [hmade] at hkeeps hfiles hwellFormed hway
  refine ⟨hu, hkeeps, hfiles, hwellFormed, ?_, ?_⟩
  · rw [hkeeps.base, hkeeps.resolve]
    exact hway.1
  · rw [hkeeps.resolve]
    exact hway.2

theorem Opens.createDirectories_joinPath (ho : t.Opens root) (h : IsFileName name)
    (hallowed : t.allowsName name = true) (hu : t.Usable (joinPath root name)) :
    t.createDirectories (joinPath root name) =
      match t.node? (t.resolve (joinPath root name)) with
      | some .directory => (.ok (), t)
      | some (.file _) => (.error .notDirectory, t)
      | none => (.ok (), t.put (t.resolve (joinPath root name)) .directory) := by
  obtain ⟨names, hjoin, hnames⟩ := ho.exists_walk h
  rw [createDirectories_of_usable hu, base_joinPath h, hjoin, makeWay_append,
    makeWay_of_walk hnames ho.directory, resolve_joinPath h, ← follow_of_walk hnames]
  change t.makeWay (t.resolve root) [name] = _
  rw [makeWay, if_neg (not_or.mpr ⟨h.nonempty, h.ne_here⟩), if_neg h.ne_up,
    if_neg (by simpa using hallowed)]
  rfl

/-- Directories under one that was created just before can as well be created at once. -/
theorem createDirectories_again (hw : t.WellFormed) (hmade : t.createDirectories root = (.ok (), u))
    (h : IsFileName name) (hu : t.Usable (joinPath root name)) :
    u.createDirectories (joinPath root name) = t.createDirectories (joinPath root name) := by
  have hroot := created hw hmade
  rw [createDirectories_of_usable hroot.usable] at hmade
  rw [createDirectories_of_usable hu, createDirectories_of_usable (hroot.keeps.usable hu),
    hroot.keeps.base, base_joinPath h]
  obtain ⟨names, hjoin, hnames⟩ := pathNames_joinPath h root
  have hfirst : t.makeWay (t.base root) names = (.ok (), u) := by
    rcases hnames with hnames | hnames
    · rwa [hnames] at hmade
    · -- the empty name at the end creates nothing
      rw [hnames, makeWay_append] at hmade
      rcases hway : t.makeWay (t.base root) names with ⟨cause | _, v⟩
      · rw [hway] at hmade
        cases hmade
      · rw [hway] at hmade
        exact hmade
  rw [hjoin, makeWay_again hw (hw.base root) hfirst]

end FileTree

end SchemaPlan
