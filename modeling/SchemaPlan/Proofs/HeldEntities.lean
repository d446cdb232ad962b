import SchemaPlan.Proofs.DumpSuccess
import SchemaPlan.Proofs.KeyedLaws
import SchemaPlan.Proofs.SchemaFilesRoundTrip

/-!
# Entities held in files

What a schema directory is read as, file by file: the entity of a file is the one it describes,
whatever the file is called.

* `FileTree.Shows`, `FileTree.Holds`: the files that are seen, and the entity a file is read as.
* `FileTree.Navigable`: file systems in which a schema directory is found by its path;
  `Navigable.holds_iff`: there, what a file holds is a matter of its text.
* `Navigable.exists_names`: the files that are listed are the ones that are seen.
* **`Navigable.exists_loadKind_iff`**: the files of a kind can be loaded if each of them holds an
  entity and no two hold entities of one name; `Navigable.mem_loadKind`: these entities.
-/

namespace SchemaPlan

/-! ## Files of a kind -/

/-- The path of a file in the directory of a kind. -/
def EntityKind.pathIn (kind : EntityKind) (root file : String) : String :=
  joinPath (joinPath root kind.directory) file

namespace FileTree

/-- The place of a file in the directory of a kind. -/
def placeIn (t : FileTree) (root : String) (kind : EntityKind) (file : String) : Place :=
  t.resolve root ++ [kind.directory] ++ [file]

/-- A file that is seen in the directory of a kind. -/
structure Shows (t : FileTree) (root : String) (kind : EntityKind) (file : String) : Prop where
  extension : isSchemaFileName file = true
  short : t.allowsPath (kind.pathIn root file) = true
  node : ∃ content, t.node? (t.placeIn root kind file) = some (.file content)

/-- A file in the directory of a kind that is read as an entity. -/
structure Holds (t : FileTree) (format : TextFormat) (root : String) (kind : EntityKind)
    (file : String) (y : kind.Member) : Prop where
  name : IsFileName file
  extension : isSchemaFileName file = true
  reads : t.readValue (format.decode kind.decoder) (kind.pathIn root file) = .ok y

/-- A file system in which a schema directory is found by its path and can be looked through:
different nodes lie at different places, the directories of all kinds can be named, and so are the
files in them. The last condition is about paths that leave a missing directory by dots again. -/
structure Navigable (t : FileTree) (root : String) : Prop where
  wellFormed : t.WellFormed
  distinct : (t.nodes.map (·.1)).Nodup
  directories : ∀ kind : EntityKind, t.allowsName kind.directory = true
  names : ∀ kind file content, t.node? (t.placeIn root kind file) = some (.file content) →
    IsFileName file
  opens : t.node? (t.resolve root) = some .directory → t.Opens root

variable {t u : FileTree} {format : TextFormat} {root path file name : String} {kind : EntityKind}
  {place : Place} {node : FileNode} {content : Option String} {y y' : kind.Member}

theorem resolve_pathIn (h : IsFileName file) :
    t.resolve (kind.pathIn root file) = t.placeIn root kind file := by
  rw [EntityKind.pathIn, resolve_joinPath h, resolve_joinPath (isFileName_directory kind), placeIn]

theorem placeIn_ne_nil (t : FileTree) (root : String) (kind : EntityKind) (file : String) :
    t.placeIn root kind file ≠ [] := by
  simp [placeIn]

theorem Holds.eq (h : t.Holds format root kind file y) (h' : t.Holds format root kind file y') :
    y = y' :=
  Except.ok.inj (h.reads.symm.trans h'.reads)

theorem node?_eq_some_iff (hd : (t.nodes.map (·.1)).Nodup) (hne : place ≠ []) :
    t.node? place = some node ↔ (place, node) ∈ t.nodes := by
  rw [node?_of_ne_nil hne, Option.map_eq_some_iff]
  simp only [find?_key_eq_some_iff hd]
  constructor
  · rintro ⟨entry, ⟨hentry, rfl⟩, rfl⟩
    exact hentry
  · exact fun h => ⟨(place, node), ⟨h, rfl⟩, rfl⟩

theorem mem_files_iff : (place, content) ∈ t.files ↔ (place, .file content) ∈ t.nodes := by
  unfold files
  rw [List.mem_filterMap]
  constructor
  · rintro ⟨⟨place', _ | content'⟩, hentry, h⟩
    · cases h
    · cases h
      exact hentry
  · exact fun h => ⟨_, h, rfl⟩

theorem files_sublist (t : FileTree) : (t.files.map (·.1)).Sublist (t.nodes.map (·.1)) := by
  unfold files
  induction t.nodes with
  | nil => exact .slnil
  | cons entry nodes ih =>
    rcases entry with ⟨place, _ | content⟩
    · exact ih.cons _
    · exact ih.cons_cons _

theorem Opens.list_joinPath (ho : t.Opens root) (h : IsFileName name)
    (hallowed : t.allowsName name = true) (hu : t.Usable (joinPath root name)) :
    t.list (joinPath root name) =
      match t.node? (t.resolve root ++ [name]) with
      | some .directory => .ok (t.nodes.filterMap fun entry =>
          (childName? (t.resolve root ++ [name]) entry.1).map fun child => (child, entry.2))
      | some (.file _) => .error .notDirectory
      | none => .error .notFound := by
  have hlist := list_of_locate (ho.locate_joinPath h hallowed hu)
  rw [resolve_joinPath h] at hlist
  exact hlist

theorem usable_of_schemaFiles {paths : List String} (hne : path ≠ "")
    (h : t.schemaFiles path = .ok paths) : t.Usable path := by
  unfold schemaFiles list locate at h
  rw [if_neg (by simpa using hne)] at h
  split_ifs at h with hclean hshort
  · cases h
  · cases h
  · exact ⟨by simpa using hclean, by simpa using hshort⟩

namespace Navigable

/-- File systems of ordinary names are found their way in, if the schema directory is there. -/
theorem of_names (hw : t.WellFormed) (hd : (t.nodes.map (·.1)).Nodup)
    (hdirectories : ∀ kind : EntityKind, t.allowsName kind.directory = true)
    (hnames : ∀ entry ∈ t.nodes, ∀ name ∈ entry.1, IsFileName name) (hopens : t.Opens root) :
    t.Navigable root := by
  refine ⟨hw, hd, hdirectories, fun kind file content hnode => ?_, fun _ => hopens⟩
  rw [node?_eq_some_iff hd (placeIn_ne_nil t root kind file)] at hnode
  exact hnames _ hnode file (by simp [placeIn])

theorem file_of_node (hn : t.Navigable root)
    (h : t.node? (t.placeIn root kind file) = some (.file content)) :
    IsFileName file ∧ t.Opens root ∧ t.node? (t.resolve root ++ [kind.directory]) =
      some .directory := by
  have hdirectory := hn.wellFormed.parent _ _ _ h
  exact ⟨hn.names _ _ _ h, hn.opens (hn.wellFormed.parent _ _ _ hdirectory), hdirectory⟩

/-- A file that lies in the directory of a kind is found by its path. -/
theorem locate_pathIn (hn : t.Navigable root)
    (h : t.node? (t.placeIn root kind file) = some (.file content))
    (hallowed : t.allowsName file = true) (hu : t.Usable (kind.pathIn root file)) :
    t.locate (kind.pathIn root file) = .ok (t.placeIn root kind file) := by
  obtain ⟨hname, hopens, hdirectory⟩ := hn.file_of_node h
  have hkind := isFileName_directory kind
  have hopens : t.Opens (joinPath root kind.directory) :=
    ⟨hopens.walk_joinPath hkind (hn.directories kind), by rwa [resolve_joinPath hkind]⟩
  rw [← resolve_pathIn hname]
  exact hopens.locate_joinPath hname hallowed hu

/-- **What a file holds is a matter of its text**, if its path can be used. -/
theorem holds_iff (hn : t.Navigable root) : t.Holds format root kind file y ↔
    isSchemaFileName file = true ∧ t.allowsName file = true ∧ t.Usable (kind.pathIn root file) ∧
      ∃ text, t.node? (t.placeIn root kind file) = some (.file (some text)) ∧
        format.decode kind.decoder text = .ok y := by
  constructor
  · rintro ⟨hname, hextension, hreads⟩
    obtain ⟨place, text, hplace, hnode, hdecode⟩ := readValue_eq_ok_iff.mp hreads
    obtain ⟨husable, hallowed, rfl⟩ := of_locate_joinPath hname hplace
    exact ⟨hextension, hallowed, husable, text, resolve_pathIn hname ▸ hnode, hdecode⟩
  · rintro ⟨hextension, hallowed, husable, text, hnode, hdecode⟩
    exact ⟨hn.names _ _ _ hnode, hextension, readValue_eq_ok_iff.mpr
      ⟨_, text, hn.locate_pathIn hnode hallowed husable, hnode, hdecode⟩⟩

theorem shows_of_holds (hn : t.Navigable root) (h : t.Holds format root kind file y) :
    t.Shows root kind file := by
  obtain ⟨hextension, -, husable, text, hnode, -⟩ := hn.holds_iff.mp h
  exact ⟨hextension, husable.short, some text, hnode⟩

end Navigable

/-! ## The files that are listed -/

theorem mem_visibleFileNames (hd : (t.nodes.map (·.1)).Nodup) :
    file ∈ t.visibleFileNames path (t.nodes.filterMap fun entry =>
        (childName? place entry.1).map fun child => (child, entry.2)) ↔
      isSchemaFileName file = true ∧ t.allowsPath (joinPath path file) = true ∧
        ∃ content, t.node? (place ++ [file]) = some (.file content) := by
  have hchild : (∃ entry ∈ t.files, childName? place entry.1 = some file) ↔
      ∃ content, t.node? (place ++ [file]) = some (.file content) := by
    simp only [node?_eq_some_iff hd (List.append_ne_nil_of_right_ne_nil _ (List.cons_ne_nil _ _)),
      ← mem_files_iff, childName?_eq_some_iff]
    constructor
    · rintro ⟨⟨other, content⟩, hentry, rfl⟩
      exact ⟨content, hentry⟩
    · rintro ⟨content, hentry⟩
      exact ⟨_, hentry, rfl⟩
  rw [visibleFileNames, schemaFileNames_children, List.mem_filter, List.mem_mergeSort,
    List.mem_filter, List.mem_filterMap, hchild]
  constructor
  · rintro ⟨⟨hnode, hextension⟩, hshort⟩
    exact ⟨hextension, hshort, hnode⟩
  · rintro ⟨hextension, hshort, hnode⟩
    exact ⟨⟨hnode, hextension⟩, hshort⟩

theorem nodup_visibleFileNames (hd : (t.nodes.map (·.1)).Nodup) :
    (t.visibleFileNames path (t.nodes.filterMap fun entry =>
      (childName? place entry.1).map fun child => (child, entry.2))).Nodup := by
  rw [visibleFileNames, schemaFileNames_children]
  refine .filter _ ((List.mergeSort_perm _ _).nodup_iff.mpr (.filter _ ?_))
  have hmap : (t.files.filterMap fun entry => childName? place entry.1) =
      (t.files.map (·.1)).filterMap (childName? place) := by
    rw [List.filterMap_map]
    rfl
  rw [hmap]
  refine (hd.sublist t.files_sublist).filterMap fun a a' child ha ha' => ?_
  rw [childName?_eq_some_iff.mp ha, childName?_eq_some_iff.mp ha']

namespace Navigable

theorem mem_visibleFileNames (hn : t.Navigable root) :
    file ∈ t.visibleFileNames (joinPath root kind.directory) (t.nodes.filterMap fun entry =>
        (childName? (t.resolve root ++ [kind.directory]) entry.1).map
          fun child => (child, entry.2)) ↔ t.Shows root kind file := by
  rw [FileTree.mem_visibleFileNames hn.distinct]
  constructor
  · rintro ⟨hextension, hshort, hnode⟩
    exact ⟨hextension, hshort, hnode⟩
  · exact fun h => ⟨h.extension, h.short, h.node⟩

/-- **The files that are listed are the ones that are seen**, each of them once. -/
theorem exists_names (hn : t.Navigable root) {paths : List String}
    (h : t.schemaFiles (joinPath root kind.directory) = .ok paths) :
    ∃ names : List String, paths = names.map (kind.pathIn root) ∧ names.Nodup ∧
      ∀ file, file ∈ names ↔ t.Shows root kind file := by
  have hkind := isFileName_directory kind
  have husable := usable_of_schemaFiles (joinPath_ne_empty hkind root) h
  by_cases hopens : t.Opens root
  · rw [schemaFiles, hopens.list_joinPath hkind (hn.directories kind) husable] at h
    cases hnode : t.node? (t.resolve root ++ [kind.directory]) with
    | none =>
      rw [hnode] at h
      refine ⟨[], (Except.ok.inj h).symm, List.nodup_nil, fun file => ?_⟩
      refine iff_of_false List.not_mem_nil fun hfile => ?_
      obtain ⟨content, hfile⟩ := hfile.node
      rw [(hn.file_of_node hfile).2.2] at hnode
      cases hnode
    | some node =>
      rw [hnode] at h
      cases node with
      | directory =>
        exact ⟨_, (Except.ok.inj h).symm, nodup_visibleFileNames hn.distinct,
          fun file => hn.mem_visibleFileNames⟩
      | file content => cases h
  · refine ⟨[], ?_, List.nodup_nil, fun file => ?_⟩
    · unfold schemaFiles at h
      split at h
      · exact (Except.ok.inj h).symm
      · cases h
      · rename_i children hlist
        obtain ⟨place, hplace, -⟩ := bind_eq_ok_iff.mp hlist
        exact absurd (of_walk_joinPath hkind (walk_of_locate hplace)).1 hopens
    · refine iff_of_false List.not_mem_nil fun hfile => ?_
      obtain ⟨content, hfile⟩ := hfile.node
      exact hopens (hn.file_of_node hfile).2.1

theorem ne_file_of_schemaFiles (hn : t.Navigable root) {paths : List String}
    (h : t.schemaFiles (joinPath root kind.directory) = .ok paths) (content : Option String) :
    t.node? (t.resolve root ++ [kind.directory]) ≠ some (.file content) := by
  intro hnode
  have hkind := isFileName_directory kind
  have hopens := hn.opens (hn.wellFormed.parent _ _ _ hnode)
  rw [schemaFiles, hopens.list_joinPath hkind (hn.directories kind)
    (usable_of_schemaFiles (joinPath_ne_empty hkind root) h), hnode] at h
  cases h

/-- In a schema directory that is there the files of a kind are listed. -/
theorem exists_schemaFiles (hn : t.Navigable root) (hopens : t.Opens root)
    (hu : t.Usable (joinPath root kind.directory))
    (hfree : ∀ content, t.node? (t.resolve root ++ [kind.directory]) ≠ some (.file content)) :
    ∃ paths, t.schemaFiles (joinPath root kind.directory) = .ok paths := by
  rw [schemaFiles, hopens.list_joinPath (isFileName_directory kind) (hn.directories kind) hu]
  cases hnode : t.node? (t.resolve root ++ [kind.directory]) with
  | none => exact ⟨_, rfl⟩
  | some node =>
    cases node with
    | directory => exact ⟨_, rfl⟩
    | file content => exact absurd hnode (hfree content)

end Navigable

/-! ## The entities of a kind -/

/-- Every file that is seen in the directory of a kind holds an entity, and no two hold entities of
one name. -/
structure Loadable (t : FileTree) (format : TextFormat) (root : String) (kind : EntityKind) :
    Prop where
  listed : ∃ paths, t.schemaFiles (joinPath root kind.directory) = .ok paths
  held : ∀ file, t.Shows root kind file → ∃ y, t.Holds format root kind file y
  apart : ∀ file file' y y', t.Holds format root kind file y → t.Holds format root kind file' y' →
    Entity.name y = Entity.name y' → file = file'

namespace Navigable

variable {c : Collection kind.Member}

theorem listed_of_loadKind (h : t.loadKind format kind.decoder root = .ok c) :
    ∃ paths, t.schemaFiles (joinPath root kind.directory) = .ok paths := by
  simp only [loadKind, EntityKind.kind_member, bind_eq_ok_iff] at h
  obtain ⟨paths, hpaths, -⟩ := h
  exact ⟨paths, hpaths⟩

/-- The files that are seen, paired with what they are read as. -/
theorem holds_of_shows (hn : t.Navigable root) (h : t.Shows root kind file)
    (hreads : t.readValue (format.decode kind.decoder) (kind.pathIn root file) = .ok y) :
    t.Holds format root kind file y := by
  obtain ⟨content, hnode⟩ := h.node
  exact ⟨hn.names _ _ _ hnode, h.extension, hreads⟩

/-- **A collection that was loaded has the entities that the files hold.** -/
theorem mem_loadKind (hn : t.Navigable root) (h : t.loadKind format kind.decoder root = .ok c) :
    y ∈ c.entries ↔ ∃ file, t.Holds format root kind file y := by
  obtain ⟨paths, hpaths⟩ := listed_of_loadKind h
  obtain ⟨names, rfl, -, hnames⟩ := hn.exists_names hpaths
  have hforall := List.forall₂_map_left_iff.mp ((loadKind_eq_ok_iff hpaths).mp h)
  constructor
  · intro hy
    obtain ⟨file, hfile, hreads⟩ := exists_left_of_forall₂ hforall hy
    exact ⟨file, hn.holds_of_shows ((hnames file).mp hfile) hreads⟩
  · rintro ⟨file, hfile⟩
    obtain ⟨x, hx, hreads⟩ := exists_right_of_forall₂ hforall
      ((hnames file).mpr (hn.shows_of_holds hfile))
    rwa [Except.ok.inj (hfile.reads.symm.trans hreads)]

/-- **The files of a kind can be loaded** exactly if each of them holds an entity and no two hold
entities of one name. -/
theorem exists_loadKind_iff (hn : t.Navigable root) :
    (∃ c, t.loadKind format kind.decoder root = .ok c) ↔ t.Loadable format root kind := by
  have hfunctional (file : String) (y y' : kind.Member)
      (h : t.readValue (format.decode kind.decoder) (kind.pathIn root file) = .ok y)
      (h' : t.readValue (format.decode kind.decoder) (kind.pathIn root file) = .ok y') : y = y' :=
    Except.ok.inj (h.symm.trans h')
  constructor
  · rintro ⟨c, h⟩
    obtain ⟨paths, hpaths⟩ := listed_of_loadKind h
    obtain ⟨names, rfl, hnodup, hnames⟩ := hn.exists_names hpaths
    have hforall := List.forall₂_map_left_iff.mp ((loadKind_eq_ok_iff hpaths).mp h)
    refine ⟨⟨_, hpaths⟩, fun file hfile => ?_, fun file file' y y' hy hy' => ?_⟩
    · obtain ⟨y, -, hreads⟩ := exists_right_of_forall₂ hforall ((hnames file).mpr hfile)
      exact ⟨y, hn.holds_of_shows hfile hreads⟩
    · exact (nodup_keys_iff hforall hnodup hfunctional).mp c.distinct
        file ((hnames file).mpr (hn.shows_of_holds hy))
        file' ((hnames file').mpr (hn.shows_of_holds hy')) y y' hy.reads hy'.reads
  · rintro ⟨⟨paths, hpaths⟩, hheld, hapart⟩
    obtain ⟨names, rfl, hnodup, hnames⟩ := hn.exists_names hpaths
    obtain ⟨found, hforall⟩ := exists_forall₂ fun file (hfile : file ∈ names) =>
      (hheld file ((hnames file).mp hfile)).imp fun y hy => hy.reads
    have hdistinct : (found.map Entity.name).Nodup :=
      (nodup_keys_iff hforall hnodup hfunctional).mpr fun file hfile file' hfile' y y' hy hy' =>
        hapart file file' y y' (hn.holds_of_shows ((hnames file).mp hfile) hy)
          (hn.holds_of_shows ((hnames file').mp hfile') hy')
    exact ⟨⟨found, hdistinct⟩,
      (loadKind_eq_ok_iff hpaths).mpr (List.forall₂_map_left_iff.mpr hforall)⟩

end Navigable

theorem loadKind_of_loadSchema {p : Snapshot} (h : t.loadSchema format root = .ok p)
    (kind : EntityKind) : t.loadKind format kind.decoder root = .ok (p.collection kind) := by
  simp only [loadSchema, bind_eq_ok_iff] at h
  obtain ⟨tables, htables, views, hviews, materialized, hmaterialized, dictionaries,
    hdictionaries, clusters, hclusters, hp⟩ := h
  cases hp
  cases kind <;> assumption

end FileTree

end SchemaPlan
