import SchemaPlan.Proofs.HeldEntities

/-!
# Loading schema directories

What a schema directory is loaded as, from what lies at its paths: which entities, or which failure
comes first.

* `FileTree.Proper`: trees with one node at a place and with names that can be used.
* `FileTree.fileAt?`, `FileTree.Blocked`: what lies at a path, and directories that are neither
  there nor missing.
* `FileTree.SchemaFiles`: the files of a kind in the order of their paths; `schemaFiles_eq_ok_iff`:
  these are the ones that are read.
* `FileTree.KindLoads`, `FileTree.KindFails`: what becomes of a kind.
* **`loadSchema_outcome`**: whole schema directories, in whatever order they are listed.
-/

namespace SchemaPlan.FileTree

/-! ## What lies at a path -/

/-- One node lies at a place, and the names on the way to it are those of files that can be
there. -/
structure Proper (t : FileTree) : Prop where
  distinct : (t.nodes.map (·.1)).Nodup
  names : ∀ entry ∈ t.nodes, ∀ name ∈ entry.1, IsFileName name ∧ t.allowsName name = true

instance (t : FileTree) : Decidable t.Proper :=
  decidable_of_iff ((t.nodes.map (·.1)).Nodup ∧ ∀ entry ∈ t.nodes, ∀ name ∈ entry.1,
      IsFileName name ∧ t.allowsName name = true)
    ⟨fun ⟨distinct, names⟩ => ⟨distinct, names⟩, fun h => ⟨h.distinct, h.names⟩⟩

/-- What the file at a path holds, if there is one. -/
def fileAt? (t : FileTree) (path : String) : Option (Option String) :=
  match t.locate path with
  | .error _ => none
  | .ok place =>
    match t.node? place with
    | some (.file content) => some content
    | _ => none

/-- Something is in the way of a directory: there is a file in its place, or its path leads nowhere
for another reason than that something is missing. -/
inductive Blocked (t : FileTree) (path : String) : PathFault → Prop
  | occupied {content : Option String} (file : t.fileAt? path = some content) :
      Blocked t path .notDirectory
  | lost {cause : PathFault} (located : t.locate path = .error cause) (hne : cause ≠ .notFound) :
      Blocked t path cause

variable {t u : FileTree} {format : TextFormat} {root path name file : String} {kind : EntityKind}
  {content : Option String} {names : List String}

theorem fileAt?_eq_some_iff : t.fileAt? path = some content ↔
    ∃ place, t.locate path = .ok place ∧ t.node? place = some (.file content) := by
  unfold fileAt?
  cases t.locate path with
  | error cause => simp
  | ok place =>
    cases hnode : t.node? place with
    | none => simp [hnode]
    | some node => cases node <;> simp [hnode]

theorem fileAt?_joinPath_iff (h : IsFileName name) :
    t.fileAt? (joinPath path name) = some content ↔
      t.Opens path ∧ t.allowsName name = true ∧ t.Usable (joinPath path name) ∧
        t.node? (t.resolve path ++ [name]) = some (.file content) := by
  rw [fileAt?_eq_some_iff, ← resolve_joinPath h]
  constructor
  · rintro ⟨place, hplace, hnode⟩
    obtain ⟨hopens, hallowed⟩ := of_walk_joinPath h (walk_of_locate hplace)
    obtain ⟨husable, -, rfl⟩ := of_locate_joinPath h hplace
    exact ⟨hopens, hallowed, husable, hnode⟩
  · rintro ⟨hopens, hallowed, husable, hnode⟩
    exact ⟨_, hopens.locate_joinPath h hallowed husable, hnode⟩

theorem blocked_iff {cause : PathFault} :
    t.Blocked path cause ↔ t.list path = .error cause ∧ cause ≠ .notFound := by
  unfold list
  simp only [bind_eq_error_iff]
  constructor
  · rintro (hfile | ⟨hlocate, hne⟩)
    · obtain ⟨place, hplace, hnode⟩ := fileAt?_eq_some_iff.mp hfile
      refine ⟨.inr ⟨place, hplace, .inl ?_⟩, nofun⟩
      rw [needDirectory, hnode]
    · exact ⟨.inl hlocate, hne⟩
  · rintro ⟨hlocate | ⟨place, hplace, hneed | ⟨_, _, h⟩⟩, hne⟩
    · exact .lost hlocate hne
    · unfold needDirectory at hneed
      split at hneed
      · cases hneed
      · cases hneed
        exact .occupied (fileAt?_eq_some_iff.mpr ⟨place, hplace, ‹_›⟩)
      · cases hneed
        exact absurd rfl hne
    · cases h

theorem of_list_eq_ok {children : List (String × FileNode)} (h : t.list path = .ok children) :
    t.Opens path ∧ t.Usable path ∧ children = t.nodes.filterMap fun entry =>
      (childName? (t.resolve path) entry.1).map fun name => (name, entry.2) := by
  simp only [list, bind_eq_ok_iff] at h
  obtain ⟨place, hplace, ⟨⟩, hneed, h⟩ := h
  have hwalk := walk_of_locate hplace
  obtain rfl : place = t.resolve path := follow_of_walk hwalk
  exact ⟨⟨hwalk, needDirectory_eq_ok_iff.mp hneed⟩, usable_of_locate hplace, (Except.ok.inj h).symm⟩

theorem exists_list_of_fileAt? (h : IsFileName name)
    (hfile : t.fileAt? (joinPath path name) = some content) (hne : path ≠ "") :
    ∃ children, t.list path = .ok children := by
  obtain ⟨hopens, -, husable, -⟩ := (fileAt?_joinPath_iff h).mp hfile
  exact ⟨_, list_of_opens hopens (husable.of_joinPath h) hne⟩

/-! ## The files of a kind -/

/-- The files of a kind, in the order of the bytes of their paths. Its directory is there, or it is
missing. -/
structure SchemaFiles (t : FileTree) (root : String) (kind : EntityKind) (names : List String) :
    Prop where
  unblocked : ∀ cause, ¬ t.Blocked (joinPath root kind.directory) cause
  mem : ∀ file, file ∈ names ↔ IsFileName file ∧ isSchemaFileName file = true ∧
    (t.fileAt? (kind.pathIn root file)).isSome = true
  sorted : (names.map fun file => utf8 (kind.pathIn root file)).Pairwise (· < ·)

/-- There is only one list of the files of a kind. -/
theorem SchemaFiles.eq {others : List String} (h : t.SchemaFiles root kind names)
    (h' : t.SchemaFiles root kind others) : names = others := by
  have hsorted := List.pairwise_map.mp h.sorted
  have hsorted' := List.pairwise_map.mp h'.sorted
  have hnodup {l : List String}
      (hl : l.Pairwise fun a b => utf8 (kind.pathIn root a) < utf8 (kind.pathIn root b)) :
      l.Nodup := by
    refine List.nodup_iff_pairwise_ne.mpr (hl.imp fun hlt e => ?_)
    rw [e] at hlt
    exact List.lt_irrefl _ hlt
  refine List.Perm.eq_of_pairwise (fun a b _ _ hab hba => absurd hba (List.lt_asymm hab))
    hsorted hsorted' ?_
  rw [List.perm_ext_iff_of_nodup (hnodup hsorted) (hnodup hsorted')]
  exact fun file => (h.mem file).trans (h'.mem file).symm

theorem pairwise_visibleFileNames (hd : (t.nodes.map (·.1)).Nodup) {place : Place} :
    (t.visibleFileNames path (t.nodes.filterMap fun entry =>
      (childName? place entry.1).map fun child => (child, entry.2))).Pairwise (· < ·) := by
  have hsorted : (t.visibleFileNames path (t.nodes.filterMap fun entry =>
      (childName? place entry.1).map fun child => (child, entry.2))).Pairwise (· ≤ ·) :=
    .filter _ (pairwise_mergeSort_text (fun name => name) _)
  refine (hsorted.and (nodup_visibleFileNames hd)).imp fun {a b} ⟨hle, hne⟩ => ?_
  exact String.not_le.mp fun hge => hne (String.le_antisymm hle hge)

namespace SchemaFiles

theorem of_missing (h : t.list (joinPath root kind.directory) = .error .notFound) :
    t.SchemaFiles root kind [] := by
  refine ⟨fun cause hblocked => ?_, fun file => iff_of_false List.not_mem_nil ?_, .nil⟩
  · obtain ⟨hcause, hne⟩ := blocked_iff.mp hblocked
    rw [h] at hcause
    cases hcause
    exact hne rfl
  · rintro ⟨hname, -, hfile⟩
    obtain ⟨content, hcontent⟩ := Option.isSome_iff_exists.mp hfile
    obtain ⟨children, hchildren⟩ := exists_list_of_fileAt? hname hcontent
      (joinPath_ne_empty (isFileName_directory kind) root)
    rw [h] at hchildren
    cases hchildren

theorem of_list (hp : t.Proper) {children : List (String × FileNode)}
    (h : t.list (joinPath root kind.directory) = .ok children) :
    t.SchemaFiles root kind (t.visibleFileNames (joinPath root kind.directory) children) := by
  obtain ⟨hopens, husable, rfl⟩ := of_list_eq_ok h
  -- a node in the directory has a name that can be used
  have hnamed {file : String} {content : Option String}
      (hnode : t.node? (t.resolve (joinPath root kind.directory) ++ [file]) =
        some (.file content)) : IsFileName file ∧ t.allowsName file = true := by
    rw [node?_eq_some_iff hp.distinct (by simp)] at hnode
    exact hp.names _ hnode file (by simp)
  refine ⟨fun cause hblocked => ?_, fun file => ?_, ?_⟩
  · rw [(blocked_iff.mp hblocked).1] at h
    cases h
  · rw [mem_visibleFileNames hp.distinct, Option.isSome_iff_exists]
    constructor
    · rintro ⟨hextension, hshort, content, hnode⟩
      obtain ⟨hname, hallowed⟩ := hnamed hnode
      exact ⟨hname, hextension, content, (fileAt?_joinPath_iff hname).mpr
        ⟨hopens, hallowed, .joinPath husable.clean hname hallowed hshort, hnode⟩⟩
    · rintro ⟨hname, hextension, content, hfile⟩
      obtain ⟨-, -, hfile, hnode⟩ := (fileAt?_joinPath_iff hname).mp hfile
      exact ⟨hextension, hfile.short, content, hnode⟩
  · rw [List.pairwise_map]
    refine (pairwise_visibleFileNames hp.distinct).imp_of_mem fun {a b} ha hb hlt => ?_
    obtain ⟨-, -, _, hnodea⟩ := (mem_visibleFileNames hp.distinct).mp ha
    obtain ⟨-, -, _, hnodeb⟩ := (mem_visibleFileNames hp.distinct).mp hb
    exact utf8_lt_utf8_iff.mpr (joinPath_lt (hnamed hnodea).1 (hnamed hnodeb).1 _ hlt)

end SchemaFiles

theorem schemaFiles_eq_error_iff {cause : FilesError} : t.schemaFiles path = .error cause ↔
    ∃ fault, t.Blocked path fault ∧ cause = .unreadableDirectory path fault := by
  simp only [blocked_iff]
  unfold schemaFiles
  cases t.list path with
  | ok children => simp
  | error fault => cases fault <;> simp [eq_comm]

/-- **The files that are read are the files of the kind**, in the order of their paths. -/
theorem schemaFiles_eq_ok_iff (hp : t.Proper) {paths : List String} :
    t.schemaFiles (joinPath root kind.directory) = .ok paths ↔
      ∃ names, paths = names.map (kind.pathIn root) ∧ t.SchemaFiles root kind names := by
  have hforward {paths : List String}
      (h : t.schemaFiles (joinPath root kind.directory) = .ok paths) :
      ∃ names, paths = names.map (kind.pathIn root) ∧ t.SchemaFiles root kind names := by
    unfold schemaFiles at h
    split at h
    · exact ⟨[], (Except.ok.inj h).symm, .of_missing ‹_›⟩
    · cases h
    · exact ⟨_, (Except.ok.inj h).symm, .of_list hp ‹_›⟩
  refine ⟨hforward, ?_⟩
  rintro ⟨names, rfl, hnames⟩
  cases hfound : t.schemaFiles (joinPath root kind.directory) with
  | error cause =>
    obtain ⟨fault, hblocked, -⟩ := schemaFiles_eq_error_iff.mp hfound
    exact absurd hblocked (hnames.unblocked fault)
  | ok paths =>
    obtain ⟨others, rfl, hothers⟩ := hforward hfound
    rw [hothers.eq hnames]

/-! ## What becomes of a kind -/

/-- A file of a kind describes an entity. -/
def Describes (t : FileTree) (format : TextFormat) (root : String) (kind : EntityKind)
    (file : String) (y : kind.Member) : Prop :=
  ∃ text, t.fileAt? (kind.pathIn root file) = some (some text) ∧
    format.decode kind.decoder text = .ok y

/-- A file of a kind describes no entity: it is no text, or its text is none of an entity. -/
inductive Spoils (t : FileTree) (format : TextFormat) (root : String) (kind : EntityKind)
    (file : String) : FilesError → Prop
  | unreadable (content : t.fileAt? (kind.pathIn root file) = some none) :
      Spoils t format root kind file (.unreadableFile (kind.pathIn root file) .notText)
  | malformed {text : String} {cause : TextError}
      (content : t.fileAt? (kind.pathIn root file) = some (some text))
      (unfit : format.decode kind.decoder text = .error cause) :
      Spoils t format root kind file (.malformed (kind.pathIn root file) cause)

/-- The entities of a kind are those that its files describe, in the order of their paths. -/
inductive KindLoads (t : FileTree) (format : TextFormat) (root : String) (kind : EntityKind)
    (entities : List kind.Member) : Prop
  | mk {names : List String} (files : t.SchemaFiles root kind names)
      (described : List.Forall₂ (t.Describes format root kind) names entities)
      (distinct : (entities.map Entity.name).Nodup) : KindLoads t format root kind entities

/-- What keeps a kind from being loaded. -/
inductive KindFails (t : FileTree) (format : TextFormat) (root : String) (kind : EntityKind) :
    FilesError → Prop
  /-- Something is in the way of its directory. -/
  | blocked {cause : PathFault} (blocked : t.Blocked (joinPath root kind.directory) cause) :
      KindFails t format root kind (.unreadableDirectory (joinPath root kind.directory) cause)
  /-- A file, the first one in the order of the paths, describes no entity. -/
  | file {before after : List String} {file : String} {entities : List kind.Member}
      {cause : FilesError} (files : t.SchemaFiles root kind (before ++ file :: after))
      (described : List.Forall₂ (t.Describes format root kind) before entities)
      (spoils : t.Spoils format root kind file cause) : KindFails t format root kind cause
  /-- All files describe entities, but two of them have one name. -/
  | duplicateName {names : List String} {entities : List kind.Member} {name : String}
      (files : t.SchemaFiles root kind names)
      (described : List.Forall₂ (t.Describes format root kind) names entities)
      (repeated : IsFirstRepeat (entities.map Entity.name) name) :
      KindFails t format root kind (.duplicateName ⟨kind, name⟩)

theorem readValue_eq_ok_iff_describes {y : kind.Member} :
    t.readValue (format.decode kind.decoder) (kind.pathIn root file) = .ok y ↔
      t.Describes format root kind file y := by
  simp only [readValue_eq_ok_iff, Describes, fileAt?_eq_some_iff]
  constructor
  · rintro ⟨place, text, hplace, hnode, hdecode⟩
    exact ⟨text, ⟨place, hplace, hnode⟩, hdecode⟩
  · rintro ⟨text, ⟨place, hplace, hnode⟩, hdecode⟩
    exact ⟨place, text, hplace, hnode, hdecode⟩

theorem readFile_of_fileAt? (h : t.fileAt? path = some content) :
    t.readFile path = content.elim (.error .notText) .ok := by
  obtain ⟨place, hplace, hnode⟩ := fileAt?_eq_some_iff.mp h
  cases content with
  | none => exact bind_eq_error_iff.mpr (.inr ⟨place, hplace, by rw [hnode]; rfl⟩)
  | some text => exact bind_eq_ok_iff.mpr ⟨place, hplace, by rw [hnode]; rfl⟩

theorem readValue_eq_error_iff_spoils {cause : FilesError}
    (h : (t.fileAt? (kind.pathIn root file)).isSome = true) :
    t.readValue (format.decode kind.decoder) (kind.pathIn root file) = .error cause ↔
      t.Spoils format root kind file cause := by
  obtain ⟨content, hcontent⟩ := Option.isSome_iff_exists.mp h
  simp only [readValue, bind_eq_error_iff, mapError_eq_error_iff, mapError_eq_ok_iff,
    readFile_of_fileAt? hcontent]
  constructor
  · rintro (⟨fault, hfault, rfl⟩ | ⟨text, htext, fault, hfault, rfl⟩)
    · cases content with
      | none =>
        cases hfault
        exact .unreadable hcontent
      | some text => cases hfault
    · cases content with
      | none => cases htext
      | some text' =>
        cases htext
        exact .malformed hcontent hfault
  · rintro (hnone | ⟨hsome, hfault⟩)
    · rw [hcontent, Option.some.injEq] at hnone
      subst hnone
      exact .inl ⟨_, rfl, rfl⟩
    · rw [hcontent, Option.some.injEq] at hsome
      subst hsome
      exact .inr ⟨_, rfl, _, hfault, rfl⟩

theorem loadKind_ok_iff_loads (hp : t.Proper) {c : Collection kind.Member} :
    t.loadKind format kind.decoder root = .ok c ↔ t.KindLoads format root kind c.entries := by
  simp only [loadKind, EntityKind.kind_member, bind_eq_ok_iff, mapM_eq_ok_iff, mapError_eq_ok_iff,
    Collection.ofList_eq_ok_iff, schemaFiles_eq_ok_iff hp]
  constructor
  · rintro ⟨paths, ⟨names, rfl, hnames⟩, entities, hread, rfl⟩
    rw [List.forall₂_map_left_iff] at hread
    simp only [readValue_eq_ok_iff_describes] at hread
    exact ⟨hnames, hread, c.distinct⟩
  · rintro ⟨hnames, hdescribed, -⟩
    refine ⟨_, ⟨_, rfl, hnames⟩, _, ?_, rfl⟩
    rw [List.forall₂_map_left_iff]
    simpa only [readValue_eq_ok_iff_describes] using hdescribed

/-- The first file that describes no entity is the cause. -/
theorem mapM_readValue_eq_error_iff {cause : FilesError} (hnames : t.SchemaFiles root kind names) :
    (names.map (kind.pathIn root)).mapM (t.readValue (format.decode kind.decoder)) =
        .error cause ↔
      ∃ before file after entities, names = before ++ file :: after ∧
        List.Forall₂ (t.Describes format root kind) before entities ∧
        t.Spoils format root kind file cause := by
  rw [List.mapM_map, mapM_eq_error_iff]
  simp only [Function.comp_def, readValue_eq_ok_iff_describes]
  constructor
  · rintro ⟨before, file, after, entities, rfl, hdescribed, hfile⟩
    have hthere := (hnames.mem file).mp (by simp)
    exact ⟨before, file, after, entities, rfl, hdescribed,
      (readValue_eq_error_iff_spoils hthere.2.2).mp hfile⟩
  · rintro ⟨before, file, after, entities, rfl, hdescribed, hfile⟩
    have hthere := (hnames.mem file).mp (by simp)
    exact ⟨before, file, after, entities, rfl, hdescribed,
      (readValue_eq_error_iff_spoils hthere.2.2).mpr hfile⟩

theorem loadKind_error_iff_fails (hp : t.Proper) {cause : FilesError} :
    t.loadKind format kind.decoder root = .error cause ↔ t.KindFails format root kind cause := by
  simp only [loadKind, EntityKind.kind_member, bind_eq_error_iff, mapM_eq_ok_iff,
    mapError_eq_error_iff, Collection.ofList_eq_error_iff, schemaFiles_eq_ok_iff hp,
    schemaFiles_eq_error_iff]
  constructor
  · rintro (⟨fault, hblocked, rfl⟩ | ⟨paths, ⟨names, rfl, hnames⟩, h⟩)
    · exact .blocked hblocked
    rcases h with hread | ⟨entities, hread, duplicate, ⟨name, hrepeated, rfl⟩, rfl⟩
    · obtain ⟨before, file, after, entities, rfl, hdescribed, hfile⟩ :=
        (mapM_readValue_eq_error_iff hnames).mp hread
      exact .file hnames hdescribed hfile
    · rw [List.forall₂_map_left_iff] at hread
      simp only [readValue_eq_ok_iff_describes] at hread
      exact .duplicateName hnames hread hrepeated
  · rintro (hblocked | ⟨hnames, hdescribed, hfile⟩ | ⟨hnames, hdescribed, hrepeated⟩)
    · exact .inl ⟨_, hblocked, rfl⟩
    · refine .inr ⟨_, ⟨_, rfl, hnames⟩, .inl ?_⟩
      exact (mapM_readValue_eq_error_iff hnames).mpr ⟨_, _, _, _, rfl, hdescribed, hfile⟩
    · refine .inr ⟨_, ⟨_, rfl, hnames⟩, .inr ⟨_, ?_, _, ⟨_, hrepeated, rfl⟩, rfl⟩⟩
      rw [List.forall₂_map_left_iff]
      simpa only [readValue_eq_ok_iff_describes] using hdescribed

/-! ## The order of a listing -/

/-- The files of a directory are put in order, however they are listed. -/
theorem schemaFileNames_perm {children others : List (String × FileNode)}
    (h : children.Perm others) : schemaFileNames children = schemaFileNames others := by
  have hsorted (l : List String) : (l.mergeSort (· ≤ ·)).Pairwise (· ≤ ·) :=
    pairwise_mergeSort_text (fun name => name) l
  refine List.Perm.eq_of_pairwise (fun a b _ _ => String.le_antisymm) (hsorted _) (hsorted _) ?_
  exact (List.mergeSort_perm _ _).trans ((h.filterMap _).trans (List.mergeSort_perm _ _).symm)

/-- The tree with its nodes listed in another order. -/
def relisted (t : FileTree) (nodes : List (Place × FileNode)) : FileTree :=
  { t with nodes := nodes }

section Relisted

variable {nodes : List (Place × FileNode)} (hd : (t.nodes.map (·.1)).Nodup)
  (hnodes : nodes.Perm t.nodes)

include hd hnodes

theorem node?_relisted (place : Place) : (t.relisted nodes).node? place = t.node? place := by
  by_cases hne : place = []
  · subst hne
    rfl
  have hd' : ((t.relisted nodes).nodes.map (·.1)).Nodup := (hnodes.map _).nodup_iff.mpr hd
  ext node
  rw [node?_eq_some_iff hd' hne, node?_eq_some_iff hd hne]
  exact hnodes.mem_iff

theorem walk_relisted (here : Place) (names : List String) :
    (t.relisted nodes).walk here names = t.walk here names := by
  induction names generalizing here with
  | nil => rfl
  | cons name names ih =>
    simp only [walk, needDirectory, node?_relisted hd hnodes, ih]
    rfl

theorem locate_relisted (path : String) : (t.relisted nodes).locate path = t.locate path := by
  unfold locate
  rw [walk_relisted hd hnodes]
  rfl

theorem readValue_relisted {α : Type} (decode : String → Except TextError α) (path : String) :
    (t.relisted nodes).readValue decode path = t.readValue decode path := by
  simp only [readValue, readFile, locate_relisted hd hnodes, node?_relisted hd hnodes]

theorem schemaFiles_relisted (path : String) :
    (t.relisted nodes).schemaFiles path = t.schemaFiles path := by
  have hlocate := locate_relisted hd hnodes path
  unfold schemaFiles
  cases hplace : t.locate path with
  | error cause =>
    rw [hplace] at hlocate
    rw [list, list, hplace, hlocate]
    cases cause <;> rfl
  | ok place =>
    have hfiles := schemaFileNames_perm (hnodes.filterMap fun entry =>
      (childName? place entry.1).map fun name => (name, entry.2))
    rw [list_of_locate hplace, list_of_locate (hlocate.trans hplace), node?_relisted hd hnodes]
    cases t.node? place with
    | none => rfl
    | some node =>
      cases node with
      | directory => exact congrArg (fun names => Except.ok
          ((names.filter fun name => t.allowsPath (joinPath path name)).map (joinPath path))) hfiles
      | file content => rfl

theorem loadKind_relisted {α : Type} [Entity α] (decode : Decoder α) :
    (t.relisted nodes).loadKind format decode root = t.loadKind format decode root := by
  unfold loadKind
  rw [schemaFiles_relisted hd hnodes, funext (readValue_relisted hd hnodes (format.decode decode))]

theorem loadSchema_relisted :
    (t.relisted nodes).loadSchema format root = t.loadSchema format root := by
  simp only [loadSchema, loadKind_relisted hd hnodes]

end Relisted

/-! ## Whole schema directories -/

theorem loadSchema_eq_ok_iff {s : Snapshot} : t.loadSchema format root = .ok s ↔
    ∀ kind, t.loadKind format kind.decoder root = .ok (s.collection kind) := by
  refine ⟨loadKind_of_loadSchema, fun h => ?_⟩
  unfold loadSchema
  exact bind_eq_ok_iff.mpr ⟨_, h .table, bind_eq_ok_iff.mpr ⟨_, h .view, bind_eq_ok_iff.mpr
    ⟨_, h .materializedView, bind_eq_ok_iff.mpr ⟨_, h .dictionary, bind_eq_ok_iff.mpr
    ⟨_, h .cluster, rfl⟩⟩⟩⟩⟩

/-- The first kind that cannot be loaded is the cause. -/
theorem loadSchema_eq_error_iff {cause : FilesError} : t.loadSchema format root = .error cause ↔
    ∃ kind, (∀ earlier ∈ EntityKind.all.takeWhile (· ≠ kind),
        ∃ c, t.loadKind format earlier.decoder root = .ok c) ∧
      t.loadKind format kind.decoder root = .error cause := by
  constructor
  · intro h
    simp only [loadSchema, bind_eq_error_iff] at h
    rcases h with h | ⟨c₁, h₁, h | ⟨c₂, h₂, h | ⟨c₃, h₃, h | ⟨c₄, h₄, h | ⟨c₅, -, h⟩⟩⟩⟩⟩
    · exact ⟨.table, by simp [EntityKind.all], h⟩
    · exact ⟨.view, by simpa [EntityKind.all] using ⟨c₁, h₁⟩, h⟩
    · exact ⟨.materializedView, by simpa [EntityKind.all] using ⟨⟨c₁, h₁⟩, ⟨c₂, h₂⟩⟩, h⟩
    · exact ⟨.dictionary, by simpa [EntityKind.all] using ⟨⟨c₁, h₁⟩, ⟨c₂, h₂⟩, ⟨c₃, h₃⟩⟩, h⟩
    · exact ⟨.cluster,
        by simpa [EntityKind.all] using ⟨⟨c₁, h₁⟩, ⟨c₂, h₂⟩, ⟨c₃, h₃⟩, ⟨c₄, h₄⟩⟩, h⟩
    · cases h
  · rintro ⟨kind, hearlier, h⟩
    simp only [loadSchema, bind_eq_error_iff]
    cases kind with
    | table => exact .inl h
    | view =>
      obtain ⟨c₁, h₁⟩ := hearlier .table (by decide)
      exact .inr ⟨c₁, h₁, .inl h⟩
    | materializedView =>
      obtain ⟨c₁, h₁⟩ := hearlier .table (by decide)
      obtain ⟨c₂, h₂⟩ := hearlier .view (by decide)
      exact .inr ⟨c₁, h₁, .inr ⟨c₂, h₂, .inl h⟩⟩
    | dictionary =>
      obtain ⟨c₁, h₁⟩ := hearlier .table (by decide)
      obtain ⟨c₂, h₂⟩ := hearlier .view (by decide)
      obtain ⟨c₃, h₃⟩ := hearlier .materializedView (by decide)
      exact .inr ⟨c₁, h₁, .inr ⟨c₂, h₂, .inr ⟨c₃, h₃, .inl h⟩⟩⟩
    | cluster =>
      obtain ⟨c₁, h₁⟩ := hearlier .table (by decide)
      obtain ⟨c₂, h₂⟩ := hearlier .view (by decide)
      obtain ⟨c₃, h₃⟩ := hearlier .materializedView (by decide)
      obtain ⟨c₄, h₄⟩ := hearlier .dictionary (by decide)
      exact .inr ⟨c₁, h₁, .inr ⟨c₂, h₂, .inr ⟨c₃, h₃, .inr ⟨c₄, h₄, .inl h⟩⟩⟩⟩

/-- **What a schema directory is loaded as**: all its kinds, or the failure of the first kind that
fails. The order in which its directories are listed does not matter. -/
theorem loadSchema_outcome (hp : t.Proper) (format : TextFormat) (root : String) :
    ((∃ s, t.loadSchema format root = .ok s) ↔
        ∀ kind, ∃ entities, t.KindLoads format root kind entities) ∧
      (∀ s, t.loadSchema format root = .ok s ↔
        ∀ kind, t.KindLoads format root kind (s.collection kind).entries) ∧
      (∀ cause, t.loadSchema format root = .error cause ↔
        ∃ kind, (∀ earlier ∈ EntityKind.all.takeWhile (· ≠ kind),
            ∃ entities, t.KindLoads format root earlier entities) ∧
          t.KindFails format root kind cause) ∧
      ∀ nodes, nodes.Perm t.nodes →
        (t.relisted nodes).loadSchema format root = t.loadSchema format root := by
  have hloads (kind : EntityKind) : (∃ c, t.loadKind format kind.decoder root = .ok c) ↔
      ∃ entities, t.KindLoads format root kind entities := by
    simp only [loadKind_ok_iff_loads hp]
    constructor
    · rintro ⟨c, hc⟩
      exact ⟨c.entries, hc⟩
    · rintro ⟨entities, h⟩
      obtain ⟨-, -, distinct⟩ := id h
      exact ⟨⟨entities, distinct⟩, h⟩
  refine ⟨?_, fun s => ?_, fun cause => ?_, fun nodes hnodes =>
    loadSchema_relisted hp.distinct hnodes⟩
  · simp only [← hloads, loadSchema_eq_ok_iff]
    constructor
    · rintro ⟨s, hs⟩ kind
      exact ⟨s.collection kind, hs kind⟩
    · intro h
      choose c hc using h
      refine ⟨⟨c .table, c .view, c .materializedView, c .dictionary, c .cluster⟩, fun kind => ?_⟩
      cases kind <;> exact hc _
  · simp only [loadSchema_eq_ok_iff, loadKind_ok_iff_loads hp]
  · simp only [loadSchema_eq_error_iff, hloads, loadKind_error_iff_fails hp]

/-- Two clusters of one name, and after them a file that is no text. -/
theorem loadSchema_outcome_clusters :
    let t : FileTree :=
      { nodes := [(["schema"], .directory), (["schema", "clusters"], .directory),
          (["schema", "clusters", "c.yaml"], .file none),
          (["schema", "clusters", "b.yml"], .file (some "name: daily\n")),
          (["schema", "clusters", "notes.txt"], .file none),
          (["schema", "clusters", "a.yaml"], .file (some "name: daily\n"))] }
    t.Proper ∧
      t.loadSchema Yaml.format "schema" =
        .error (.unreadableFile "schema/clusters/c.yaml" .notText) ∧
      (t.relisted t.nodes.reverse).loadSchema Yaml.format "schema" =
        t.loadSchema Yaml.format "schema" := by
  intro t
  have hp : t.Proper := by decide
  obtain ⟨-, -, hfails, hrelisted⟩ := loadSchema_outcome hp Yaml.format "schema"
  refine ⟨hp, (hfails _).mpr ⟨.cluster, fun kind hkind => ?_, ?_⟩,
    hrelisted _ (List.reverse_perm _)⟩
  · have hmissing : t.list (joinPath "schema" kind.directory) = .error .notFound := by
      revert kind
      decide +kernel
    exact ⟨[], .of_missing hmissing, .nil, List.nodup_nil⟩
  · have hlist : t.list (joinPath "schema" EntityKind.cluster.directory) =
        .ok [("c.yaml", .file none), ("b.yml", .file (some "name: daily\n")),
          ("notes.txt", .file none), ("a.yaml", .file (some "name: daily\n"))] := by
      decide +kernel
    have hfound : schemaFileNames [("c.yaml", .file none), ("b.yml", .file (some "name: daily\n")),
        ("notes.txt", .file none), ("a.yaml", .file (some "name: daily\n"))] =
          ["a.yaml", "b.yml", "c.yaml"] := by
      change ["c.yaml", "b.yml", "a.yaml"].mergeSort (· ≤ ·) = _
      simp [List.mergeSort]
    have hfiles : t.SchemaFiles "schema" .cluster (["a.yaml", "b.yml"] ++ "c.yaml" :: []) := by
      have hlisted := SchemaFiles.of_list hp hlist
      rw [visibleFileNames, hfound] at hlisted
      exact hlisted
    have hdaily : Yaml.format.decode Cluster.decode "name: daily\n" = .ok { name := "daily" } := by
      decide +kernel
    have hdescribes : List.Forall₂ (t.Describes Yaml.format "schema" .cluster)
        ["a.yaml", "b.yml"] [{ name := "daily" }, { name := "daily" }] :=
      .cons ⟨_, by decide +kernel, hdaily⟩ (.cons ⟨_, by decide +kernel, hdaily⟩ .nil)
    exact .file hfiles hdescribes (.unreadable (by decide +kernel))

/-- **A file in the place of a directory is in the way**, although there is no file to be loaded. -/
theorem loadSchema_occupied :
    let t : FileTree :=
      { nodes := [(["schema"], .directory), (["schema", "tables"], .file (some "events"))] }
    t.Proper ∧
      (∀ (kind : EntityKind) file, IsFileName file → t.fileAt? (kind.pathIn "schema" file) = none) ∧
      t.loadSchema Yaml.format "schema" =
        .error (.unreadableDirectory "schema/tables" .notDirectory) := by
  intro t
  refine ⟨by decide, fun kind file hname => ?_, rfl⟩
  rw [Option.eq_none_iff_forall_ne_some]
  intro content hfile
  obtain ⟨-, -, -, hnode⟩ := (fileAt?_joinPath_iff hname).mp hfile
  rw [resolve_joinPath (isFileName_directory kind), node?_eq_some_iff (by decide) (by simp)]
    at hnode
  -- nothing lies as deep as a file of a kind
  have hdepth : ∀ entry ∈ t.nodes, entry.1.length ≤ (t.resolve "schema").length + 1 := by decide
  simpa using hdepth _ hnode

end SchemaPlan.FileTree
