import SchemaPlan.Files.Load
import SchemaPlan.Proofs.ByteOrder
import SchemaPlan.Proofs.CollectionLaws
import SchemaPlan.Proofs.Convergence
import SchemaPlan.Proofs.SchemaDump
import SchemaPlan.Yaml.Format

/-!
# Schema files read back

A schema directory that was written into a directory without files is read back as it was.

* `FileTree.list_of_locate`, `FileTree.opens_or_missing`: what is in a directory.
* `Written.schemaFiles_eq`: the files of a kind, in the order of their names.
* `Written.loadKind_eq`: the entities of a kind.
* **`dump_load`**: a dump and the load after it.
-/

namespace SchemaPlan

namespace FileTree

variable {t u : FileTree} {path : String} {place : Place} {name : String}

/-! ## What is in a directory -/

theorem childName?_eq_some_iff {directory : Place} :
    childName? directory place = some name ↔ place = directory ++ [name] := by
  unfold childName?
  split
  · rename_i other hother
    rw [← List.isPrefixOf?_eq_some_iff_append_eq.mp hother]
    simp
  · rename_i hnone
    refine iff_of_false (by simp) fun h => hnone name ?_
    rw [List.isPrefixOf?_eq_some_iff_append_eq, h]

theorem list_of_locate (h : t.locate path = .ok place) :
    t.list path =
      match t.node? place with
      | some .directory => .ok (t.nodes.filterMap fun entry =>
          (childName? place entry.1).map fun name => (name, entry.2))
      | some (.file _) => .error .notDirectory
      | none => .error .notFound := by
  rw [list, h]
  change (do t.needDirectory place; _) = _
  unfold needDirectory
  cases t.node? place with
  | none => rfl
  | some node => cases node <;> rfl

theorem list_of_opens (ho : t.Opens path) (hu : t.Usable path) (hne : path ≠ "") :
    t.list path = .ok (t.nodes.filterMap fun entry =>
      (childName? (t.resolve path) entry.1).map fun name => (name, entry.2)) := by
  rw [list_of_locate ((locate_of_usable hu hne).trans ho.walk), ho.directory]

/-- A directory that can be created is there, or it cannot be found. -/
theorem opens_or_missing (hw : t.WellFormed) (hmade : (t.createDirectories path).1 = .ok ())
    (hne : path ≠ "") : t.Opens path ∨ t.list path = .error .notFound := by
  obtain ⟨hu, hkeeps, _, _, hopens⟩ := created hw (Prod.ext hmade rfl)
  rw [createDirectories_of_usable hu] at hmade
  rcases walk_of_makeWay hw (hw.base path) hmade with hwalk | hwalk
  · cases hnode : t.node? (t.resolve path) with
    | none =>
      right
      have hplace : t.locate path = .ok (t.resolve path) := (locate_of_usable hu hne).trans hwalk
      rw [list_of_locate hplace, hnode]
    | some node =>
      have hdirectory := hopens.directory
      rw [hkeeps.resolve, hkeeps.nodes _ _ hnode, Option.some.injEq] at hdirectory
      exact .inl ⟨hwalk, hdirectory ▸ hnode⟩
  · right
    rw [list, locate_of_usable hu hne, hwalk]
    rfl

theorem schemaFileNames_children (t : FileTree) (directory : Place) :
    schemaFileNames (t.nodes.filterMap fun entry =>
        (childName? directory entry.1).map fun name => (name, entry.2)) =
      ((t.files.filterMap fun entry => childName? directory entry.1).filter
        isSchemaFileName).mergeSort (· ≤ ·) := by
  unfold schemaFileNames files
  congr 1
  rw [List.filterMap_filterMap, List.filterMap_filterMap, List.filter_filterMap]
  refine List.filterMap_congr fun entry _ => ?_
  rcases entry with ⟨place, _ | content⟩
  · cases childName? directory place <;> rfl
  · simp only [Option.bind_some]
    cases childName? directory place with
    | none => rfl
    | some name => cases h : isSchemaFileName name <;> simp [h, Option.filter]

end FileTree

/-! ## Loading what was written -/

section Loading

variable {o : DumpOptions} {format : TextFormat} {s : Snapshot} {t u made : FileTree}
  {kind : EntityKind}

theorem childName?_placeOf (o : DumpOptions) (t : FileTree) (kind : EntityKind)
    (file : SchemaFile) :
    FileTree.childName? (t.resolve o.root ++ [kind.directory]) (o.placeOf t file) =
      if file.kind = kind then some (schemaFileName file.name) else none := by
  split_ifs with hkind
  · rw [FileTree.childName?_eq_some_iff, DumpOptions.placeOf, hkind]
  · rw [Option.eq_none_iff_forall_ne_some]
    intro name hname
    rw [FileTree.childName?_eq_some_iff] at hname
    have hdirectory := List.append_cancel_left (List.append_inj' hname rfl).1
    exact hkind (directory_injective (List.singleton_injective hdirectory))

theorem DumpOptions.names_eq (o : DumpOptions) (s : Snapshot) (kind : EntityKind) :
    ((o.files s).filterMap fun file =>
        if file.kind = kind then some (schemaFileName file.name) else none) =
      (o.selected s kind).map fun x => schemaFileName (Entity.name x) := by
  have hkind (other : EntityKind) : (((o.selected s other).map other.file).filterMap fun file =>
      if file.kind = kind then some (schemaFileName file.name) else none) =
        if other = kind then
          (o.selected s other).map fun x => schemaFileName (Entity.name x)
        else [] := by
    rw [List.filterMap_map]
    split_ifs with h
    · simp [EntityKind.file, h]
    · simp [EntityKind.file, h]
  rw [o.files_eq, List.filterMap_flatMap]
  simp only [hkind]
  cases kind <;> simp [EntityKind.all]

theorem Written.names_eq (h : Written o format t u (o.files s)) (hempty : t.HoldsNoFiles o.root)
    (kind : EntityKind) :
    (u.files.filterMap fun entry =>
        FileTree.childName? (t.resolve o.root ++ [kind.directory]) entry.1) =
      (o.selected s kind).map fun x => schemaFileName (Entity.name x) := by
  have hold : (t.files.filterMap fun entry =>
      FileTree.childName? (t.resolve o.root ++ [kind.directory]) entry.1) = [] := by
    rw [List.filterMap_eq_nil_iff]
    intro entry hentry
    rw [Option.eq_none_iff_forall_ne_some]
    intro name hname
    rw [FileTree.childName?_eq_some_iff, List.append_assoc] at hname
    exact hempty entry hentry (hname ▸ List.prefix_append _ _)
  rw [h.files, List.filterMap_append, hold, List.nil_append, List.filterMap_map, ← o.names_eq]
  exact List.filterMap_congr fun file _ => childName?_placeOf o t kind file

/-- The wanted entities of a kind, in the order of their file names. -/
def DumpOptions.sorted (o : DumpOptions) (s : Snapshot) (kind : EntityKind) : List kind.Member :=
  (o.selected s kind).mergeSort fun x y =>
    schemaFileName (Entity.name x) ≤ schemaFileName (Entity.name y)

theorem DumpOptions.sorted_perm (o : DumpOptions) (s : Snapshot) (kind : EntityKind) :
    (o.sorted s kind).Perm (o.selected s kind) :=
  List.mergeSort_perm _ _

theorem DumpOptions.nodup_sorted (o : DumpOptions) (s : Snapshot) (kind : EntityKind) :
    ((o.sorted s kind).map Entity.name).Nodup := by
  rw [((o.sorted_perm s kind).map _).nodup_iff]
  exact (s.collection kind).distinct.sublist (List.filter_sublist.map _)

/-- The order is that of the bytes of the file names. -/
theorem DumpOptions.sorted_inOrder (o : DumpOptions) (s : Snapshot) (kind : EntityKind) :
    ((o.sorted s kind).map fun x => utf8 (schemaFileName (Entity.name x))).Pairwise (· < ·) := by
  have hsorted : (o.sorted s kind).Pairwise fun x y =>
      schemaFileName (Entity.name x) ≤ schemaFileName (Entity.name y) :=
    pairwise_mergeSort_text (fun x => schemaFileName (Entity.name x)) _
  have hdistinct : (o.sorted s kind).Pairwise fun x y => Entity.name x ≠ Entity.name y :=
    List.pairwise_map.mp (o.nodup_sorted s kind)
  rw [List.pairwise_map]
  refine (hsorted.and hdistinct).imp fun {x y} ⟨hle, hne⟩ => ?_
  rw [utf8_lt_utf8_iff, ← String.not_le]
  exact fun hge => hne (schemaFileName_injective (String.le_antisymm hle hge))

/-- All files of a kind are seen in its directory, and no others. -/
theorem Written.visibleFileNames_eq (h : Written o format t u (o.files s))
    (hempty : t.HoldsNoFiles o.root)
    (hstorable : ∀ x ∈ o.selected s kind, Storable t o (kind.file x))
    (hnames : ∀ x ∈ o.selected s kind, Entity.name x ≠ "") :
    u.visibleFileNames (joinPath o.root kind.directory) (u.nodes.filterMap fun entry =>
        (FileTree.childName? (u.resolve (joinPath o.root kind.directory)) entry.1).map
          fun name => (name, entry.2)) =
      (o.sorted s kind).map fun x => schemaFileName (Entity.name x) := by
  have hplace : u.resolve (joinPath o.root kind.directory) =
      t.resolve o.root ++ [kind.directory] := by
    rw [h.keeps.resolve, FileTree.resolve_joinPath (isFileName_directory kind)]
  have hfound : ((o.selected s kind).map fun x => schemaFileName (Entity.name x)).filter
      isSchemaFileName = (o.selected s kind).map fun x => schemaFileName (Entity.name x) := by
    rw [List.filter_eq_self]
    intro name hname
    obtain ⟨x, hx, rfl⟩ := List.mem_map.mp hname
    exact isSchemaFileName_schemaFileName (hnames x hx)
  have hsorted : ((o.selected s kind).map fun x => schemaFileName (Entity.name x)).mergeSort
      (· ≤ ·) = (o.sorted s kind).map fun x => schemaFileName (Entity.name x) := by
    symm
    exact List.map_mergeSort fun _ _ _ _ => rfl
  rw [FileTree.visibleFileNames, FileTree.schemaFileNames_children, hplace, h.names_eq hempty,
    hfound, hsorted, List.filter_eq_self]
  intro name hname
  obtain ⟨x, hx, rfl⟩ := List.mem_map.mp hname
  have hx := (o.sorted_perm s kind).mem_iff.mp hx
  exact (h.keeps.allowsPath _).trans (hstorable x hx).path.short

/-- The files of a kind are found again, in the order of their names. -/
theorem Written.schemaFiles_eq (h : Written o format t u (o.files s))
    (hempty : t.HoldsNoFiles o.root)
    (hstorable : ∀ x ∈ o.selected s kind, Storable t o (kind.file x))
    (hnames : ∀ x ∈ o.selected s kind, Entity.name x ≠ "")
    (hcreatable : (u.createDirectories (joinPath o.root kind.directory)).1 = .ok ()) :
    u.schemaFiles (joinPath o.root kind.directory) =
      .ok ((o.sorted s kind).map fun x => o.pathOf (kind.file x)) := by
  have hne := joinPath_ne_empty (isFileName_directory kind) o.root
  have hu := FileTree.usable_of_createDirectories hcreatable
  unfold FileTree.schemaFiles
  rcases FileTree.opens_or_missing h.wellFormed hcreatable hne with hopens | hmissing
  · rw [FileTree.list_of_opens hopens hu hne]
    dsimp only
    rw [h.visibleFileNames_eq hempty hstorable hnames, List.map_map]
    rfl
  · -- a directory that is not there holds no wanted entities
    have hnone : o.selected s kind = [] := by
      rw [List.eq_nil_iff_forall_not_mem]
      intro x hx
      have hopens := h.opens _ (DumpOptions.mem_files_iff.mpr ⟨kind, x, hx, rfl⟩)
      have hlist := FileTree.list_of_opens hopens hu hne
      rw [show o.directoryOf (kind.file x) = joinPath o.root kind.directory from rfl, hmissing]
        at hlist
      cases hlist
    rw [hmissing, DumpOptions.sorted, hnone, List.mergeSort_nil]
    rfl

theorem Written.readValue_eq (h : Written o format t u (o.files s)) {x : kind.Member}
    (hx : x ∈ o.selected s kind) (hstorable : Storable t o (kind.file x))
    (hformat : format.Preserves (kind.encode x)) :
    u.readValue (format.decode kind.decoder) (o.pathOf (kind.file x)) = .ok x := by
  have hmem := DumpOptions.mem_files_iff.mpr ⟨kind, x, hx, rfl⟩
  have hlocate : u.locate (o.pathOf (kind.file x)) = .ok (o.placeOf t (kind.file x)) := by
    rw [← DumpOptions.resolve_pathOf hstorable.slashless, ← h.keeps.resolve]
    exact (h.opens _ hmem).locate_joinPath (isFileName_schemaFileName hstorable.slashless)
      ((h.keeps.allowsName _).trans hstorable.file_name) (h.keeps.usable hstorable.path)
  exact FileTree.readValue_eq_ok_iff.mpr
    ⟨_, _, hlocate, h.nodes _ hmem, TextFormat.decode_write hformat kind.restores⟩

/-- What is loaded from files that are listed. -/
theorem loadKind_eq_ok_iff {root : String} {paths : List String} {c : Collection kind.Member}
    (h : t.schemaFiles (joinPath root kind.directory) = .ok paths) :
    t.loadKind format kind.decoder root = .ok c ↔ List.Forall₂ (fun path y =>
      t.readValue (format.decode kind.decoder) path = .ok y) paths c.entries := by
  simp only [FileTree.loadKind, EntityKind.kind_member, h, bind_eq_ok_iff, mapM_eq_ok_iff,
    mapError_eq_ok_iff, Collection.ofList_eq_ok_iff, Except.ok.injEq, exists_eq_left',
    exists_eq_right']

/-- **The entities of a kind are read back**, in the order of their file names. -/
theorem Written.loadKind_eq (h : Written o format t u (o.files s)) (hempty : t.HoldsNoFiles o.root)
    (hstorable : ∀ x ∈ o.selected s kind, Storable t o (kind.file x))
    (hnames : ∀ x ∈ o.selected s kind, Entity.name x ≠ "")
    (hformat : ∀ x ∈ o.selected s kind, format.Preserves (kind.encode x))
    (hcreatable : (u.createDirectories (joinPath o.root kind.directory)).1 = .ok ()) :
    ∃ c : Collection kind.Member,
      u.loadKind format kind.decoder o.root = .ok c ∧ c.entries = o.sorted s kind := by
  have hread : ∀ x ∈ o.sorted s kind,
      u.readValue (format.decode kind.decoder) (o.pathOf (kind.file x)) = .ok x := fun x hx =>
    have hx := (o.sorted_perm s kind).mem_iff.mp hx
    h.readValue_eq hx (hstorable x hx) (hformat x hx)
  have hfiles := h.schemaFiles_eq hempty hstorable hnames hcreatable
  exact ⟨⟨o.sorted s kind, o.nodup_sorted s kind⟩, (loadKind_eq_ok_iff hfiles).mpr
    (List.forall₂_map_left_iff.mpr (List.forall₂_same.mpr hread)), rfl⟩

/-! ## The tree after a dump -/

theorem fst_createDirectories {w : FileTree} (hkeeps : t.Keeps w) (hopens : w.Opens o.root)
    (hallowed : t.allowsName kind.directory = true)
    (husable : t.Usable (joinPath o.root kind.directory))
    (hfree : ∀ content, (t.resolve o.root ++ [kind.directory], content) ∉ w.files) :
    (w.createDirectories (joinPath o.root kind.directory)).1 = .ok () := by
  have hname := isFileName_directory kind
  rw [hopens.createDirectories_joinPath hname ((hkeeps.allowsName _).trans hallowed)
    (hkeeps.usable husable), hkeeps.resolve, FileTree.resolve_joinPath hname]
  cases hnode : w.node? (t.resolve o.root ++ [kind.directory]) with
  | none => rfl
  | some node =>
    cases node with
    | directory => rfl
    | file content => exact absurd (FileTree.mem_files_of_node? hnode) (hfree content)

theorem Written.creatable (h : Written o format t u (o.files s)) (hempty : t.HoldsNoFiles o.root)
    (hw : t.WellFormed) (hroot : t.createDirectories o.root = (.ok (), made))
    (hopens : u = t ∨ u.Opens o.root) (hallowed : t.allowsName kind.directory = true)
    (husable : t.Usable (joinPath o.root kind.directory)) :
    (u.createDirectories (joinPath o.root kind.directory)).1 = .ok () := by
  have hfree (content : Option String) :
      (t.resolve o.root ++ [kind.directory], content) ∉ t.files := fun hmem =>
    hempty _ hmem (List.prefix_append _ _)
  rcases hopens with rfl | hopens
  · have hmade := FileTree.created hw hroot
    rw [← FileTree.createDirectories_again hw hroot (isFileName_directory kind) husable]
    exact fst_createDirectories hmade.keeps hmade.opens hallowed husable (hmade.files ▸ hfree)
  · refine fst_createDirectories h.keeps hopens hallowed husable fun content hmem => ?_
    rw [h.files, List.mem_append, List.mem_map] at hmem
    rcases hmem with hmem | ⟨file, _, hfile⟩
    · exact hfree content hmem
    · exact o.placeOf_ne_directory t file kind (congrArg Prod.fst hfile)

theorem loadSchema_eq {entries : Snapshot.Lists}
    (h : ∀ kind, ∃ c : Collection kind.Member,
      u.loadKind format kind.decoder o.root = .ok c ∧ c.entries = entries kind) :
    ∃ loaded, u.loadSchema format o.root = .ok loaded ∧
      ∀ kind, (loaded.collection kind).entries = entries kind := by
  choose c hc hentries using h
  refine ⟨⟨c .table, c .view, c .materializedView, c .dictionary, c .cluster⟩, ?_, fun kind => ?_⟩
  · have htables : u.loadKind format Table.decode o.root = .ok (c .table) := hc .table
    have hviews : u.loadKind format View.decode o.root = .ok (c .view) := hc .view
    have hmaterialized : u.loadKind format MaterializedView.decode o.root =
      .ok (c .materializedView) := hc .materializedView
    have hdictionaries : u.loadKind format Dictionary.decode o.root = .ok (c .dictionary) :=
      hc .dictionary
    have hclusters : u.loadKind format Cluster.decode o.root = .ok (c .cluster) := hc .cluster
    rw [FileTree.loadSchema, htables, hviews, hmaterialized, hdictionaries, hclusters]
    rfl
  · cases kind <;> exact hentries _

end Loading

/-! ## Round trips -/

/-- A name that can stand in a file name. -/
structure IsPlainName (name : String) : Prop where
  nonempty : name ≠ ""
  slashless : '/' ∉ name.toList
  clean : '\x00' ∉ name.toList

instance (name : String) : Decidable (IsPlainName name) :=
  decidable_of_iff (name ≠ "" ∧ '/' ∉ name.toList ∧ '\x00' ∉ name.toList)
    ⟨fun ⟨nonempty, slashless, clean⟩ => ⟨nonempty, slashless, clean⟩,
      fun h => ⟨h.nonempty, h.slashless, h.clean⟩⟩

/-- A file system stores what a dump writes: its output directory is there or can be created, and no
name or path is too long. -/
structure FileTree.Stores (t : FileTree) (o : DumpOptions) (s : Snapshot) : Prop where
  wellFormed : t.WellFormed
  root : (t.createDirectories o.root).1 = .ok ()
  directories : ∀ kind : EntityKind, kind.directory.utf8ByteSize ≤ t.nameLimit ∧
    (joinPath o.root kind.directory).utf8ByteSize ≤ t.pathLimit
  files : ∀ kind, ∀ x ∈ o.selected s kind,
    (schemaFileName (Entity.name x)).utf8ByteSize ≤ t.nameLimit ∧
      (o.pathOf (kind.file x)).utf8ByteSize ≤ t.pathLimit

/-- The places of the files of a dump and what is written there. -/
def DumpOptions.written (o : DumpOptions) (format : TextFormat) (s : Snapshot) (t : FileTree) :
    List (Place × Option String) :=
  EntityKind.all.flatMap fun kind => (o.selected s kind).map fun x =>
    (t.resolve (o.pathOf (kind.file x)), some (format.write (kind.encode x)))

/-- A dump that turned the tree `t` into `u`, and the load after it. -/
structure RoundTrip (o : DumpOptions) (format : TextFormat) (s : Snapshot) (t u : FileTree)
    (loaded : Snapshot) : Prop where
  /-- The dump gives the paths of the files of all wanted entities, in their order. -/
  dumped : (o.dump format s).run.run t =
    (.ok (EntityKind.all.flatMap fun kind => (o.selected s kind).map fun x =>
      o.pathOf (kind.file x)), u)
  /-- One file is written for each of them, -/
  files : u.files = t.files ++ o.written format s t
  distinct : ((o.written format s t).map (·.1)).Nodup
  /-- and what was there before stays. -/
  kept : t.Keeps u
  loads : u.loadSchema format o.root = .ok loaded
  /-- The wanted entities are back, -/
  entries : ∀ kind, (loaded.collection kind).entries.Perm (o.selected s kind)
  /-- in the order of the bytes of their file names. -/
  inOrder : ∀ kind, ((loaded.collection kind).entries.map fun x =>
    utf8 (schemaFileName (Entity.name x))).Pairwise (· < ·)
  upToDate : o.selected s .table = s.tables.entries →
    Plan.diff s loaded = [] ∧ Plan.diff loaded s = []

section Trip

variable {o : DumpOptions} {format : TextFormat} {s : Snapshot} {t : FileTree}

theorem FileTree.usable_directory {root : String} {kind : EntityKind}
    (hroot : (t.createDirectories root).1 = .ok ())
    (hshort : kind.directory.utf8ByteSize ≤ t.nameLimit ∧
      (joinPath root kind.directory).utf8ByteSize ≤ t.pathLimit) :
    t.allowsName kind.directory = true ∧ t.Usable (joinPath root kind.directory) := by
  have hclean : '\x00' ∉ kind.directory.toList := by cases kind <;> decide
  have hallowed := allowsName_of_clean hshort.1 hclean
  exact ⟨hallowed, .joinPath (usable_of_createDirectories hroot).clean
    (isFileName_directory kind) hallowed (decide_eq_true hshort.2)⟩

namespace FileTree.Stores

theorem directory (h : t.Stores o s) (kind : EntityKind) :
    t.allowsName kind.directory = true ∧ t.Usable (joinPath o.root kind.directory) :=
  usable_directory h.root (h.directories kind)

theorem storable (h : t.Stores o s) {kind : EntityKind} {x : kind.Member}
    (hx : x ∈ o.selected s kind) (hname : IsPlainName (Entity.name x)) :
    Storable t o (kind.file x) := by
  obtain ⟨hdirectory, husable⟩ := h.directory kind
  have hclean : '\x00' ∉ (schemaFileName (Entity.name x)).toList := by
    rw [toList_schemaFileName, List.mem_append, not_or]
    exact ⟨hname.clean, by decide⟩
  have hallowed := allowsName_of_clean (h.files kind x hx).1 hclean
  exact ⟨hname.slashless, hdirectory, husable, hallowed, .joinPath husable.clean
    (isFileName_schemaFileName hname.slashless) hallowed (decide_eq_true (h.files kind x hx).2)⟩

end FileTree.Stores

theorem DumpOptions.map_files {α : Type} (o : DumpOptions) (s : Snapshot) (f : SchemaFile → α) :
    (o.files s).map f =
      EntityKind.all.flatMap fun kind => (o.selected s kind).map fun x => f (kind.file x) := by
  rw [o.files_eq, List.map_flatMap]
  simp only [List.map_map]
  rfl

theorem DumpOptions.written_eq (hslashless : ∀ file ∈ o.files s, '/' ∉ file.name.toList)
    (format : TextFormat) (t : FileTree) :
    o.written format s t =
      (o.files s).map fun file => (o.placeOf t file, some (format.write file.content)) := by
  have hwritten : o.written format s t = (o.files s).map fun file =>
      (t.resolve (o.pathOf file), some (format.write file.content)) := by
    rw [o.map_files]
    rfl
  rw [hwritten]
  exact List.map_congr_left fun file hfile => by rw [resolve_pathOf (hslashless file hfile)]

theorem Plan.diff_eq_nil_of_perm {s loaded : Snapshot}
    (h : loaded.tables.entries.Perm s.tables.entries) :
    Plan.diff s loaded = [] ∧ Plan.diff loaded s = [] :=
  ⟨Plan.diff_eq_nil_of_mem_iff fun _ => h.mem_iff,
    Plan.diff_eq_nil_of_mem_iff fun _ => h.symm.mem_iff⟩

/-- **A schema that is dumped and loaded again is the same.** The output directory holds no files,
and no directory lies where a file is to be written. -/
theorem dump_load (hstores : t.Stores o s) (hempty : t.HoldsNoFiles o.root)
    (hnames : ∀ kind, ∀ x ∈ (s.collection kind).entries, IsPlainName (Entity.name x))
    (hfree : ∀ kind, ∀ x ∈ o.selected s kind,
      (t.createDirectories o.root).2.node? (t.resolve (o.pathOf (kind.file x))) ≠ some .directory)
    (hformat : ∀ kind, ∀ x ∈ o.selected s kind, format.Preserves (kind.encode x)) :
    ∃ u loaded, RoundTrip o format s t u loaded := by
  have hplain {kind : EntityKind} {x : kind.Member} (hx : x ∈ o.selected s kind) :
      IsPlainName (Entity.name x) := hnames kind x (List.mem_filter.mp hx).1
  have hstorable : ∀ file ∈ o.files s, Storable t o file := fun file hfile => by
    obtain ⟨kind, x, hx, rfl⟩ := DumpOptions.mem_files_iff.mp hfile
    exact hstores.storable hx (hplain hx)
  have hnone : ∀ file ∈ o.files s,
      (t.createDirectories o.root).2.node? (o.placeOf t file) ≠ some .directory := by
    intro file hfile
    rw [← DumpOptions.resolve_pathOf (hstorable file hfile).slashless]
    obtain ⟨kind, x, hx, rfl⟩ := DumpOptions.mem_files_iff.mp hfile
    exact hfree kind x hx
  have hroot : t.createDirectories o.root = (.ok (), (t.createDirectories o.root).2) :=
    Prod.ext hstores.root rfl
  obtain ⟨u, hrun, hwritten, hopens⟩ :
      ∃ u, (o.dump format s).run.run t = (.ok ((o.files s).map o.pathOf), u) ∧
        Written o format t u (o.files s) ∧ (u = t ∨ u.Opens o.root) :=
    DumpOptions.dump_writes hstores.wellFormed hroot hempty hstorable hnone
  have hload (kind : EntityKind) : ∃ c : Collection kind.Member,
      u.loadKind format kind.decoder o.root = .ok c ∧ c.entries = o.sorted s kind :=
    hwritten.loadKind_eq hempty
      (fun x hx => hstores.storable hx (hplain hx)) (fun x hx => (hplain hx).nonempty)
      (hformat kind) (hwritten.creatable hempty hstores.wellFormed hroot hopens
        (hstores.directory kind).1 (hstores.directory kind).2)
  obtain ⟨loaded, hloaded, hentries⟩ := loadSchema_eq hload
  have hperm (kind : EntityKind) :
      (loaded.collection kind).entries.Perm (o.selected s kind) :=
    hentries kind ▸ o.sorted_perm s kind
  have hplaced := o.written_eq (fun file hfile => (hstorable file hfile).slashless) format t
  refine ⟨u, loaded, ?_, ?_, ?_, hwritten.keeps, hloaded, hperm, fun kind => ?_, fun hall => ?_⟩
  · rw [hrun, o.map_files]
  · rw [hwritten.files, hplaced]
  · rw [hplaced, List.map_map]
    exact o.nodup_places t s
  · rw [hentries]
    exact o.sorted_inOrder s kind
  · exact Plan.diff_eq_nil_of_perm (hall ▸ hperm .table)

/-- Two tables whose files are in another order than their names, one of them with an empty
partition; a view of another database and a cluster. -/
theorem dump_load_events :
    let o : DumpOptions := { root := "out", database := some "main" }
    let s : Snapshot :=
      { tables := ⟨[{ name := "events", database := some "main", engine := .mergeTree },
          { name := "events-old", partitionBy := some "", engine := .log }], by decide⟩
        views := ⟨[{ name := "daily", database := some "other", selectQuery := "SELECT 1" }],
          by decide⟩
        clusters := ⟨[{ name := "main" }], by decide⟩ }
    (o.written Yaml.format s {}).map (·.1) =
        [["out", "tables", "events.yaml"], ["out", "tables", "events-old.yaml"],
          ["out", "clusters", "main.yaml"]] ∧
      ∃ u loaded, RoundTrip o Yaml.format s {} u loaded := by
  intro o s
  refine ⟨by decide +kernel, dump_load ⟨.of_nodes (by decide) rfl, by decide, fun kind => ?_,
    fun kind => ?_⟩ (fun entry hentry => ?_) (fun kind => ?_) (fun kind => ?_) (fun kind => ?_)⟩
  · cases kind <;> decide
  · cases kind <;> decide
  · cases hentry
  · cases kind <;> decide
  · cases kind <;> decide
  · cases kind <;> decide +kernel

/-- **A directory in the place of a file is in the way**, although it is no file. -/
theorem dump_load_occupied :
    let o : DumpOptions := { root := "out" }
    let s : Snapshot := { tables := ⟨[{ name := "events", engine := .mergeTree }], by decide⟩ }
    let t : FileTree :=
      { nodes := [(["out"], .directory), (["out", "tables"], .directory),
          (["out", "tables", "events.yaml"], .directory)] }
    t.Stores o s ∧ t.HoldsNoFiles o.root ∧
      (∀ kind, ∀ x ∈ (s.collection kind).entries, IsPlainName (Entity.name x)) ∧
      (∀ kind, ∀ x ∈ o.selected s kind, Yaml.format.Preserves (kind.encode x)) ∧
      ((o.dump Yaml.format s).run.run t).1 = .error (.alreadyExists "out/tables/events.yaml") := by
  intro o s t
  refine ⟨⟨.of_nodes (by decide) rfl, by decide, fun kind => ?_, fun kind => ?_⟩,
    fun entry hentry => ?_, fun kind => ?_, fun kind => ?_, by decide +kernel⟩
  · cases kind <;> decide
  · cases kind <;> decide
  · cases hentry
  · cases kind <;> decide
  · cases kind <;> decide +kernel

end Trip

end SchemaPlan
