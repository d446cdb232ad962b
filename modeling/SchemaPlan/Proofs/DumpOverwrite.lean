import SchemaPlan.Proofs.HeldEntities

/-!
# Dumps over schema directories

What becomes of a schema directory that a dump is written into. The files of the dump are replaced,
all others stay, and what they hold is what is loaded afterwards.

* `Overwritten`: what holds after some files were written, new ones or not; `Overwritten.step`: one
  more file keeps it; `Overwritten.run`: the run over several files.
* `Overwritten.holds_iff`: the entities that are held afterwards.
* **`load_after_dump`**: the load after a dump with replacement; `load_after_dump_lost`: the entity
  of a replaced file is gone, although nothing else is called so.
-/

namespace SchemaPlan

namespace FileTree

variable {t u : FileTree} {path : String} {place here : Place} {name : String} {node : FileNode}
  {content : Option String}

/-! ## Distinct places -/

theorem nodup_put (hd : (t.nodes.map (·.1)).Nodup) (place : Place) (node : FileNode) :
    ((t.put place node).nodes.map (·.1)).Nodup := by
  unfold put
  cases hany : t.nodes.any (·.1 = place) with
  | true =>
    have hsame : (t.nodes.map fun entry => if entry.1 = place then (place, node) else entry).map
        (·.1) = t.nodes.map (·.1) := by
      rw [List.map_map]
      refine List.map_congr_left fun entry _ => ?_
      by_cases h : entry.1 = place <;> simp [h]
    simp only [if_true, hsame]
    exact hd
  | false =>
    simp only [Bool.false_eq_true, if_false, List.map_append, List.map_singleton]
    refine List.nodup_append.mpr ⟨hd, List.nodup_singleton _, fun other hother last hlast => ?_⟩
    obtain ⟨entry, hentry, rfl⟩ := List.mem_map.mp hother
    rw [List.mem_singleton.mp hlast]
    simpa using List.any_eq_false.mp hany entry hentry

theorem nodup_makeWay (hd : (t.nodes.map (·.1)).Nodup) (here : Place) (names : List String) :
    ((t.makeWay here names).2.nodes.map (·.1)).Nodup := by
  fun_induction makeWay t here names with
  | case1 | case4 | case6 => exact hd
  | case2 t here name rest _ ih => exact ih hd
  | case3 t here rest _ ih => exact ih hd
  | case5 t here name rest _ _ _ _ ih => exact ih hd
  | case7 t here name rest _ _ _ _ ih => exact ih (nodup_put hd _ _)

theorem nodup_createDirectories (hd : (t.nodes.map (·.1)).Nodup) (path : String) :
    ((t.createDirectories path).2.nodes.map (·.1)).Nodup := by
  unfold createDirectories
  split_ifs
  · exact hd
  · exact hd
  · exact nodup_makeWay hd _ _

theorem node?_file_congr (ht : (t.nodes.map (·.1)).Nodup) (hu : (u.nodes.map (·.1)).Nodup)
    (hfiles : u.files = t.files) :
    u.node? place = some (.file content) ↔ t.node? place = some (.file content) := by
  by_cases hne : place = []
  · subst hne
    exact iff_of_false nofun nofun
  · rw [node?_eq_some_iff hu hne, node?_eq_some_iff ht hne, ← mem_files_iff, ← mem_files_iff,
      hfiles]

/-! ## Files that are replaced -/

theorem WellFormed.put_file (h : t.WellFormed) (hhere : t.node? here = some .directory)
    (hdirectory : t.node? (here ++ [name]) ≠ some .directory) (content : Option String) :
    (t.put (here ++ [name]) (.file content)).WellFormed := by
  have hkeeps := KeepsDirectories.put hdirectory content
  refine ⟨fun place name' node hnode => ?_, hkeeps.directories _ h.working⟩
  by_cases hplace : place ++ [name'] = here ++ [name]
  · obtain ⟨rfl, -⟩ := List.append_inj' hplace rfl
    exact hkeeps.directories _ hhere
  · rw [node?_put_of_ne (by simp) t _ hplace] at hnode
    exact hkeeps.directories _ (h.parent place name' node hnode)

end FileTree

/-! ## The run of a dump -/

/-- The tree `u` is the tree `t` with some files written, some of them over old ones. -/
structure Overwritten (o : DumpOptions) (format : TextFormat) (t u : FileTree)
    (done : List SchemaFile) : Prop where
  keeps : t.KeepsDirectories u
  wellFormed : u.WellFormed
  distinct : (u.nodes.map (·.1)).Nodup
  located : ∀ file ∈ done, u.locate (o.pathOf file) = .ok (o.placeOf t file)
  nodes : ∀ file ∈ done,
    u.node? (o.placeOf t file) = some (.file (some (format.write file.content)))
  others : ∀ place content, place ∉ done.map (o.placeOf t) →
    (u.node? place = some (.file content) ↔ t.node? place = some (.file content))

section Writing

variable {o : DumpOptions} {format : TextFormat} {s : Snapshot} {t u v : FileTree}
  {file : SchemaFile} {files done : List SchemaFile} {path : String} {paths : List String}

namespace Overwritten

theorem refl (hw : t.WellFormed) (hd : (t.nodes.map (·.1)).Nodup) :
    Overwritten o format t t [] where
  keeps := .refl t
  wellFormed := hw
  distinct := hd
  located := by simp
  nodes := by simp
  others _ _ _ := .rfl

/-- **One more file is written**, and no other file changes. -/
theorem step (h : Overwritten o format t u done) (hslashless : '/' ∉ file.name.toList)
    (hnew : o.placeOf t file ∉ done.map (o.placeOf t))
    (hrun : (o.writeEntity format file).run.run u = (.ok path, v)) :
    Overwritten o format t v (done ++ [file]) := by
  obtain ⟨w, place, hmade, hlocate, hdirectory, rfl⟩ := DumpOptions.exists_of_writeEntity hrun
  have hw := FileTree.created h.wellFormed hmade
  have hdistinct : (w.nodes.map (·.1)).Nodup := by
    have hd := FileTree.nodup_createDirectories h.distinct (o.directoryOf file)
    rwa [hmade] at hd
  have hkept := h.keeps.trans hw.keeps.keepsDirectories
  obtain rfl : place = o.placeOf t file := by
    rw [(FileTree.of_locate_joinPath (isFileName_schemaFileName hslashless) hlocate).2.2]
    exact (DumpOptions.resolve_pathOf hslashless w o).trans
      (by rw [DumpOptions.placeOf, hkept.resolve, DumpOptions.placeOf])
  have hput := FileTree.KeepsDirectories.put hdirectory (some (format.write file.content))
  have hne := o.placeOf_ne_nil t file
  have hlocated : ∀ other ∈ done ++ [file],
      w.locate (o.pathOf other) = .ok (o.placeOf t other) := by
    intro other hother
    rcases List.mem_append.mp hother with hother | hother
    · exact hw.keeps.keepsDirectories.locate (h.located other hother)
    · rwa [List.mem_singleton.mp hother]
  refine ⟨hkept.trans hput, ?_, FileTree.nodup_put hdistinct _ _,
    fun other hother => hput.locate (hlocated other hother), fun other hother => ?_,
    fun place content hplace => ?_⟩
  · refine hw.wellFormed.put_file ?_ hdirectory _
    rw [← hkept.resolve, ← o.resolve_directoryOf]
    exact hw.opens.directory
  · rcases List.mem_append.mp hother with hother | hother
    · have hother' : o.placeOf t other ≠ o.placeOf t file := fun e =>
        hnew (e ▸ List.mem_map_of_mem hother)
      rw [FileTree.node?_put_of_ne hne _ _ hother']
      exact hw.keeps.nodes _ _ (h.nodes other hother)
    · rw [List.mem_singleton.mp hother, FileTree.node?_put_self hne]
  · rw [List.map_append, List.mem_append, not_or, List.map_singleton, List.mem_singleton] at hplace
    rw [FileTree.node?_put_of_ne hne _ _ hplace.2,
      FileTree.node?_file_congr h.distinct hdistinct hw.files, h.others place content hplace.1]

/-- **Several files are written**, one after the other. -/
theorem run (h : Overwritten o format t u done)
    (hslashless : ∀ file ∈ files, '/' ∉ file.name.toList)
    (hnew : ((done ++ files).map (o.placeOf t)).Nodup)
    (hrun : (files.mapM (o.writeEntity format)).run.run u = (.ok paths, v)) :
    Overwritten o format t v (done ++ files) := by
  induction files generalizing u done paths with
  | nil =>
    obtain ⟨-, rfl⟩ := Prod.mk.inj hrun
    rwa [List.append_nil]
  | cons file files ih =>
    obtain ⟨hfile, hslashless⟩ := List.forall_mem_cons.mp hslashless
    rw [List.mapM_cons] at hrun
    obtain ⟨path, w, hfirst, hrun⟩ := Filing.run_bind_eq_ok_iff.mp hrun
    obtain ⟨rest, w', hrest, hdone⟩ := Filing.run_bind_eq_ok_iff.mp hrun
    obtain ⟨-, rfl⟩ := Prod.mk.inj hdone
    rw [List.append_cons] at hnew ⊢
    refine ih (h.step hfile ?_ hfirst) hslashless hnew hrest
    rw [List.map_append, List.map_append, List.nodup_append, List.nodup_append] at hnew
    exact fun hmem => hnew.1.2.2 _ hmem _ (List.mem_singleton_self _) rfl

end Overwritten

/-- **A dump that succeeds has written its files**, whatever was in their places. -/
theorem DumpOptions.overwritten_of_dump (hw : t.WellFormed) (hd : (t.nodes.map (·.1)).Nodup)
    (hslashless : ∀ file ∈ o.files s, '/' ∉ file.name.toList)
    (h : (o.dump format s).run.run t = (.ok paths, u)) : Overwritten o format t u (o.files s) :=
  (Overwritten.refl hw hd).run hslashless (o.nodup_places t s) h

theorem Overwritten.opens (h : Overwritten o format t u done) (hfile : file ∈ done)
    (hslashless : '/' ∉ file.name.toList) : u.Opens o.root := by
  have hwalk := FileTree.walk_of_locate (h.located file hfile)
  have hdirectory : u.Opens (o.directoryOf file) :=
    (FileTree.of_walk_joinPath (isFileName_schemaFileName hslashless) hwalk).1
  exact (FileTree.of_walk_joinPath (isFileName_directory file.kind) hdirectory.walk).1

/-- A dump leaves the tree alone, or its output directory is there. -/
theorem DumpOptions.eq_or_opens_of_dump (hwritten : Overwritten o format t u (o.files s))
    (hslashless : ∀ file ∈ o.files s, '/' ∉ file.name.toList)
    (h : (o.dump format s).run.run t = (.ok paths, u)) : u = t ∨ u.Opens o.root := by
  rcases hfiles : o.files s with _ | ⟨file, files⟩
  · rw [dump, hfiles] at h
    exact .inl (Prod.mk.inj h).2.symm
  · have hfile : file ∈ o.files s := hfiles ▸ List.mem_cons_self
    exact .inr (hwritten.opens hfile (hslashless file hfile))

end Writing

/-! ## What is held after a dump -/

/-- A dump writes a file of this name for an entity of the kind. -/
def DumpOptions.Writes (o : DumpOptions) (s : Snapshot) (kind : EntityKind) (file : String) :
    Prop :=
  ∃ x ∈ o.selected s kind, schemaFileName (Entity.name x) = file

section Reading

variable {o : DumpOptions} {format : TextFormat} {s : Snapshot} {t u : FileTree}
  {kind : EntityKind} {file : String} {x y : kind.Member}

theorem DumpOptions.pathOf_file (o : DumpOptions) (x : kind.Member) :
    o.pathOf (kind.file x) = kind.pathIn o.root (schemaFileName (Entity.name x)) := rfl

theorem DumpOptions.placeIn_mem_iff (o : DumpOptions) (s : Snapshot) (t : FileTree) :
    t.placeIn o.root kind file ∈ (o.files s).map (o.placeOf t) ↔ o.Writes s kind file := by
  rw [List.mem_map]
  constructor
  · rintro ⟨written, hwritten, hplace⟩
    obtain ⟨kind', x, hx, rfl⟩ := mem_files_iff.mp hwritten
    obtain ⟨hdirectory, hname⟩ := List.append_inj' hplace rfl
    obtain rfl : kind' = kind :=
      directory_injective (List.singleton_injective (List.append_cancel_left hdirectory))
    exact ⟨x, hx, List.singleton_injective hname⟩
  · rintro ⟨x, hx, rfl⟩
    exact ⟨kind.file x, mem_files_iff.mpr ⟨kind, x, hx, rfl⟩, rfl⟩

namespace Overwritten

theorem placeIn_eq (h : Overwritten o format t u (o.files s)) (kind : EntityKind)
    (file : String) : u.placeIn o.root kind file = t.placeIn o.root kind file := by
  rw [FileTree.placeIn, h.keeps.resolve, FileTree.placeIn]

/-- A file that is not written is as it was. -/
theorem node?_iff (h : Overwritten o format t u (o.files s)) (hfile : ¬ o.Writes s kind file)
    (content : Option String) : u.node? (u.placeIn o.root kind file) = some (.file content) ↔
      t.node? (t.placeIn o.root kind file) = some (.file content) := by
  rw [h.placeIn_eq]
  exact h.others _ content (mt (o.placeIn_mem_iff s t).mp hfile)

variable (h : Overwritten o format t u (o.files s)) (hn : t.Navigable o.root)
  (hslashless : ∀ file ∈ o.files s, '/' ∉ file.name.toList)
include h hn hslashless

theorem navigable (hopens : u = t ∨ u.Opens o.root) : u.Navigable o.root := by
  rcases hopens with rfl | hopens
  · exact hn
  refine ⟨h.wellFormed, h.distinct, fun kind => (h.keeps.allowsName _).trans (hn.directories kind),
    fun kind file content hnode => ?_, fun _ => hopens⟩
  by_cases hfile : o.Writes s kind file
  · obtain ⟨x, hx, rfl⟩ := hfile
    exact isFileName_schemaFileName
      (hslashless (kind.file x) (DumpOptions.mem_files_iff.mpr ⟨kind, x, hx, rfl⟩))
  · exact hn.names kind file content ((h.node?_iff hfile content).mp hnode)

omit hn in
/-- What is dumped is held by the file it is written to. -/
theorem holds_written (hx : x ∈ o.selected s kind) (hname : Entity.name x ≠ "")
    (hformat : format.Preserves (kind.encode x)) :
    u.Holds format o.root kind (schemaFileName (Entity.name x)) x := by
  have hfile : kind.file x ∈ o.files s := DumpOptions.mem_files_iff.mpr ⟨kind, x, hx, rfl⟩
  have hlocate := h.located _ hfile
  rw [o.pathOf_file] at hlocate
  exact ⟨isFileName_schemaFileName (hslashless _ hfile), isSchemaFileName_schemaFileName hname,
    FileTree.readValue_eq_ok_iff.mpr ⟨_, _, hlocate, h.nodes _ hfile,
      TextFormat.decode_write hformat kind.restores⟩⟩

variable (hopens : u = t ∨ u.Opens o.root)
include hopens

/-- A file that is not written holds what it held. -/
theorem holds_iff_of_not_writes (hfile : ¬ o.Writes s kind file) :
    u.Holds format o.root kind file y ↔ t.Holds format o.root kind file y := by
  simp only [(h.navigable hn hslashless hopens).holds_iff, hn.holds_iff, h.node?_iff hfile,
    h.keeps.allowsName, h.keeps.usable_iff]

/-- **What is held after a dump**: the entities of the dump in their own files, and in the other
files what was held before. -/
theorem holds_iff (hnames : ∀ x ∈ o.selected s kind, Entity.name x ≠ "")
    (hformat : ∀ x ∈ o.selected s kind, format.Preserves (kind.encode x)) :
    u.Holds format o.root kind file y ↔
      (y ∈ o.selected s kind ∧ schemaFileName (Entity.name y) = file) ∨
        ¬ o.Writes s kind file ∧ t.Holds format o.root kind file y := by
  have hwritten {x : kind.Member} (hx : x ∈ o.selected s kind) :
      u.Holds format o.root kind (schemaFileName (Entity.name x)) x :=
    h.holds_written hslashless hx (hnames x hx) (hformat x hx)
  constructor
  · intro hy
    by_cases hfile : o.Writes s kind file
    · obtain ⟨x, hx, rfl⟩ := hfile
      obtain rfl := hy.eq (hwritten hx)
      exact .inl ⟨hx, rfl⟩
    · exact .inr ⟨hfile, (h.holds_iff_of_not_writes hn hslashless hopens hfile).mp hy⟩
  · rintro (⟨hy, rfl⟩ | ⟨hfile, hy⟩)
    · exact hwritten hy
    · exact (h.holds_iff_of_not_writes hn hslashless hopens hfile).mpr hy

/-- **The entities of a kind can be loaded after a dump**, if no other file holds an entity with
the name of one that is dumped. -/
theorem loadable (hnames : ∀ x ∈ o.selected s kind, Entity.name x ≠ "")
    (hformat : ∀ x ∈ o.selected s kind, format.Preserves (kind.encode x))
    (hload : t.Loadable format o.root kind)
    (hplaced : ∀ file y, t.Holds format o.root kind file y →
      ∀ x ∈ o.selected s kind, Entity.name x = Entity.name y → o.Writes s kind file) :
    u.Loadable format o.root kind := by
  have hnu := h.navigable hn hslashless hopens
  have hholds {file : String} {y : kind.Member} : u.Holds format o.root kind file y ↔
      (y ∈ o.selected s kind ∧ schemaFileName (Entity.name y) = file) ∨
        ¬ o.Writes s kind file ∧ t.Holds format o.root kind file y :=
    h.holds_iff hn hslashless hopens hnames hformat
  refine ⟨?_, fun file hshows => ?_, fun file file' y y' hy hy' hname => ?_⟩
  · obtain ⟨paths, hpaths⟩ := hload.listed
    rcases hopens with rfl | hopens
    · exact ⟨paths, hpaths⟩
    refine hnu.exists_schemaFiles hopens (h.keeps.usable_iff.mpr
      (FileTree.usable_of_schemaFiles (joinPath_ne_empty (isFileName_directory kind) _) hpaths))
      fun content hnode => ?_
    -- no file was written in the place of the directory
    have hnew : t.resolve o.root ++ [kind.directory] ∉ (o.files s).map (o.placeOf t) := by
      rintro hmem
      obtain ⟨written, -, hplace⟩ := List.mem_map.mp hmem
      exact o.placeOf_ne_directory t written kind hplace
    rw [h.keeps.resolve] at hnode
    exact hn.ne_file_of_schemaFiles hpaths content ((h.others _ content hnew).mp hnode)
  · by_cases hfile : o.Writes s kind file
    · obtain ⟨x, hx, rfl⟩ := hfile
      exact ⟨x, hholds.mpr (.inl ⟨hx, rfl⟩)⟩
    · obtain ⟨content, hnode⟩ := hshows.node
      have hold : t.Shows o.root kind file :=
        ⟨hshows.extension, (h.keeps.allowsPath _).symm.trans hshows.short, content,
          (h.node?_iff hfile content).mp hnode⟩
      obtain ⟨y, hy⟩ := hload.held file hold
      exact ⟨y, hholds.mpr (.inr ⟨hfile, hy⟩)⟩
  · rcases hholds.mp hy with ⟨hmem, rfl⟩ | ⟨hfile, hold⟩
    · rcases hholds.mp hy' with ⟨-, rfl⟩ | ⟨hfile', hold'⟩
      · rw [hname]
      · exact absurd (hplaced file' y' hold' y hmem hname) hfile'
    · rcases hholds.mp hy' with ⟨hmem', rfl⟩ | ⟨-, hold'⟩
      · exact absurd (hplaced file y hold y' hmem' hname.symm) hfile
      · exact hload.apart file file' y y' hold hold' hname

/-- **A schema directory that was dumped into is loaded**: there are the dumped entities, and those
that are held in other files. -/
theorem exists_loadSchema {p : Snapshot} (hload : t.loadSchema format o.root = .ok p)
    (hnames : ∀ kind, ∀ x ∈ o.selected s kind, Entity.name x ≠ "")
    (hformat : ∀ kind, ∀ x ∈ o.selected s kind, format.Preserves (kind.encode x))
    (hplaced : ∀ kind file y, t.Holds format o.root kind file y →
      ∀ x ∈ o.selected s kind, Entity.name x = Entity.name y → o.Writes s kind file) :
    ∃ loaded, u.loadSchema format o.root = .ok loaded ∧ ∀ kind y,
      y ∈ (loaded.collection kind).entries ↔ y ∈ o.selected s kind ∨
        ∃ file, ¬ o.Writes s kind file ∧ t.Holds format o.root kind file y := by
  have hnu := h.navigable hn hslashless hopens
  have hloadable (kind : EntityKind) : u.Loadable format o.root kind :=
    h.loadable hn hslashless hopens (hnames kind) (hformat kind)
      (hn.exists_loadKind_iff.mp ⟨_, FileTree.loadKind_of_loadSchema hload kind⟩) (hplaced kind)
  choose c hc using fun kind => hnu.exists_loadKind_iff.mpr (hloadable kind)
  obtain ⟨loaded, hloaded, hentries⟩ := loadSchema_eq fun kind => ⟨c kind, hc kind, rfl⟩
  refine ⟨loaded, hloaded, fun kind y => ?_⟩
  rw [hentries, hnu.mem_loadKind (hc kind)]
  simp only [h.holds_iff hn hslashless hopens (hnames kind) (hformat kind), exists_or,
    exists_and_left, exists_eq', and_true]

end Overwritten

end Reading

/-! ## The load after a dump -/

/-- A file of this name is the one for an entity of the snapshot. -/
def Snapshot.Fills (s : Snapshot) (kind : EntityKind) (file : String) : Prop :=
  ∃ x ∈ (s.collection kind).entries, schemaFileName (Entity.name x) = file

section Load

variable {format : TextFormat} {root : String} {s p : Snapshot} {t u : FileTree}
  {paths : List String}

/-- The entities that are loaded after a dump with replacement. -/
theorem exists_load_of_dump (hn : t.Navigable root) (hload : t.loadSchema format root = .ok p)
    (hnames : ∀ kind, ∀ x ∈ (s.collection kind).entries, IsPlainName (Entity.name x))
    (hformat : ∀ kind, ∀ x ∈ (s.collection kind).entries, format.Preserves (kind.encode x))
    (hplaced : ∀ kind file y, t.Holds format root kind file y →
      Entity.name y ∈ (s.collection kind).names → s.Fills kind file)
    (hdump : (DumpOptions.dump { root := root, overwrite := true } format s).run.run t =
      (.ok paths, u)) :
    ∃ loaded, u.loadSchema format root = .ok loaded ∧ ∀ kind y,
      y ∈ (loaded.collection kind).entries ↔ y ∈ (s.collection kind).entries ∨
        ∃ file, ¬ s.Fills kind file ∧ t.Holds format root kind file y := by
  set o : DumpOptions := { root := root, overwrite := true } with ho
  have hselected (kind : EntityKind) : o.selected s kind = (s.collection kind).entries := by
    simp [DumpOptions.selected_eq, ho, DumpOptions.selects]
  have hfills (kind : EntityKind) (file : String) : o.Writes s kind file ↔ s.Fills kind file := by
    rw [DumpOptions.Writes, hselected, Snapshot.Fills]
  simp only [← hselected] at hnames hformat
  have hslashless : ∀ file ∈ o.files s, '/' ∉ file.name.toList := by
    intro file hfile
    obtain ⟨kind, x, hx, rfl⟩ := DumpOptions.mem_files_iff.mp hfile
    exact (hnames kind x hx).slashless
  have hwritten := DumpOptions.overwritten_of_dump hn.wellFormed hn.distinct hslashless hdump
  have hopens := DumpOptions.eq_or_opens_of_dump hwritten hslashless hdump
  obtain ⟨loaded, hloaded, hentries⟩ := hwritten.exists_loadSchema hn hslashless hopens hload
    (fun kind x hx => (hnames kind x hx).nonempty) hformat fun kind file y hy x hx hname =>
      (hfills kind file).mpr
        (hplaced kind file y hy (hname ▸ List.mem_map_of_mem (hselected kind ▸ hx)))
  simp only [hselected, hfills] at hentries
  exact ⟨loaded, hloaded, hentries⟩

/-- **A dump with replacement updates a schema directory.** It stays loadable if every entity that
the snapshot has as well is held in a file that the dump replaces. Afterwards there are the entities
of the snapshot, and of the others those whose file was not replaced. -/
theorem load_after_dump (hn : t.Navigable root) (hload : t.loadSchema format root = .ok p)
    (hnames : ∀ kind, ∀ x ∈ (s.collection kind).entries, IsPlainName (Entity.name x))
    (hformat : ∀ kind, ∀ x ∈ (s.collection kind).entries, format.Preserves (kind.encode x))
    (hplaced : ∀ kind file y, t.Holds format root kind file y →
      Entity.name y ∈ (s.collection kind).names → s.Fills kind file)
    (hdump : (DumpOptions.dump { root := root, overwrite := true } format s).run.run t =
      (.ok paths, u)) :
    ∃ loaded, u.loadSchema format root = .ok loaded ∧ ∀ kind name,
      (∀ x, (s.collection kind).find? name = some x →
        (loaded.collection kind).find? name = some x) ∧
      ((s.collection kind).find? name = none → ∀ y,
        (loaded.collection kind).find? name = some y ↔
          (p.collection kind).find? name = some y ∧
            ∃ file, t.Holds format root kind file y ∧ ¬ s.Fills kind file) := by
  obtain ⟨loaded, hloaded, hentries⟩ :=
    exists_load_of_dump hn hload hnames hformat hplaced hdump
  have hfind {kind : EntityKind} (d : Collection kind.Member) (name : String) (y : kind.Member) :
      d.find? name = some y ↔ y ∈ d.entries ∧ Entity.name y = name :=
    find?_key_eq_some_iff d.distinct
  refine ⟨loaded, hloaded, fun kind name => ⟨fun x hx => ?_, fun hnone y => ?_⟩⟩
  · rw [hfind] at hx ⊢
    exact ⟨(hentries kind x).mpr (.inl hx.1), hx.2⟩
  · rw [hfind, hfind, hentries, hn.mem_loadKind (FileTree.loadKind_of_loadSchema hload kind)]
    constructor
    · rintro ⟨hy | ⟨file, hfile, hold⟩, hname⟩
      · rw [(hfind _ _ _).mpr ⟨hy, hname⟩] at hnone
        cases hnone
      · exact ⟨⟨⟨file, hold⟩, hname⟩, file, hold, hfile⟩
    · rintro ⟨⟨-, hname⟩, file, hold, hfile⟩
      exact ⟨.inr ⟨file, hfile, hold⟩, hname⟩

end Load

/-! ### A directory of three clusters -/

/-- Two clusters in files of other names, one that is nobody's and the file of a cluster `weekly`,
and one in its own file. -/
def mixedFiles : List (String × Cluster) :=
  [("audit.yaml", { name := "audit" }), ("old.yml", { name := "daily" }),
    ("weekly.yaml", { name := "hourly" })]

/-- The directory `schema` with these files and nothing else. -/
def mixedTree : FileTree where
  nodes := (["schema"], .directory) :: (["schema", "clusters"], .directory) ::
    mixedFiles.map fun entry =>
      (["schema", "clusters", entry.1], .file (some (Yaml.format.write entry.2.encode)))

/-- The cluster `audit` after a node was added to it. -/
def grownAudit : Cluster where
  name := "audit"
  nodes := [{ host := "ch1", port := 9000 }]

/-- A cluster that the directory has as well, and a new one. -/
def mixedDump : Snapshot where
  clusters := ⟨[grownAudit, { name := "weekly" }], by decide⟩

/-- What is evaluated of the texts: those of the tree, those of the dump, and the dump itself. -/
theorem evaluate_mixedDump :
    (∀ entry ∈ mixedFiles, Yaml.format.Preserves entry.2.encode) ∧
    (∀ x ∈ mixedDump.clusters.entries, Yaml.format.Preserves x.encode) ∧
    ((DumpOptions.dump { root := "schema", overwrite := true } Yaml.format mixedDump).run.run
      mixedTree).1 = .ok ["schema/clusters/audit.yaml", "schema/clusters/weekly.yaml"] := by
  decide +kernel

theorem navigable_mixedTree : mixedTree.Navigable "schema" :=
  .of_names (.of_nodes (by decide) rfl) (by decide) (fun kind => by cases kind <;> decide)
    (by decide) ⟨by decide, by decide⟩

theorem holds_mixedTree :
    ∀ entry ∈ mixedFiles, mixedTree.Holds Yaml.format "schema" .cluster entry.1 entry.2 := by
  have hnames : ∀ entry ∈ mixedFiles, IsFileName entry.1 ∧ isSchemaFileName entry.1 = true ∧
      mixedTree.locate (EntityKind.cluster.pathIn "schema" entry.1) =
        .ok ["schema", "clusters", entry.1] := by
    decide
  intro entry hentry
  obtain ⟨hfile, hschema, hlocate⟩ := hnames entry hentry
  have hnode : mixedTree.node? ["schema", "clusters", entry.1] =
      some (.file (some (Yaml.format.write entry.2.encode))) :=
    (FileTree.node?_eq_some_iff navigable_mixedTree.distinct (List.cons_ne_nil _ _)).mpr
      (List.mem_cons_of_mem _ (List.mem_cons_of_mem _ (List.mem_map_of_mem hentry)))
  exact ⟨hfile, hschema, FileTree.readValue_eq_ok_iff.mpr ⟨_, _, hlocate, hnode,
    TextFormat.decode_write (evaluate_mixedDump.1 entry hentry) EntityKind.cluster.restores⟩⟩

theorem shows_mixedTree {kind : EntityKind} {file : String}
    (h : mixedTree.Shows "schema" kind file) : kind = .cluster ∧ ∃ x, (file, x) ∈ mixedFiles := by
  obtain ⟨content, hnode⟩ := h.node
  rw [FileTree.node?_eq_some_iff navigable_mixedTree.distinct
    (FileTree.placeIn_ne_nil _ _ _ _)] at hnode
  have hplace : mixedTree.placeIn "schema" kind file = ["schema", kind.directory, file] := rfl
  rw [hplace, mixedTree, List.mem_cons, List.mem_cons, List.mem_map] at hnode
  rcases hnode with hnode | hnode | ⟨entry, hentry, hnode⟩
  · simp at hnode
  · simp at hnode
  · simp only [Prod.mk.injEq, List.cons.injEq, true_and, and_true] at hnode
    obtain ⟨⟨hkind, rfl⟩, -⟩ := hnode
    exact ⟨directory_injective hkind.symm, entry.2, hentry⟩

theorem mem_mixedFiles_of_holds {file : String} {x : Cluster}
    (h : mixedTree.Holds Yaml.format "schema" .cluster file x) : (file, x) ∈ mixedFiles := by
  obtain ⟨-, y, hy⟩ := shows_mixedTree (navigable_mixedTree.shows_of_holds h)
  rwa [h.eq (holds_mixedTree _ hy)]

theorem exists_loadSchema_mixedTree :
    ∃ p, mixedTree.loadSchema Yaml.format "schema" = .ok p := by
  have hloadable (kind : EntityKind) : mixedTree.Loadable Yaml.format "schema" kind := by
    refine ⟨?_, fun file hfile => ?_, fun file file' y y' hy hy' hname => ?_⟩
    · refine navigable_mixedTree.exists_schemaFiles ⟨by decide, by decide⟩ ?_ ?_
      · cases kind <;> exact ⟨by decide, by decide⟩
      · have hnode : ∀ node ∈ mixedTree.node? (mixedTree.resolve "schema" ++ [kind.directory]),
            node = .directory := by
          cases kind <;> decide
        exact fun content h => nomatch hnode _ h
    · obtain ⟨rfl, x, hx⟩ := shows_mixedTree hfile
      exact ⟨x, holds_mixedTree _ hx⟩
    · obtain ⟨rfl, -⟩ := shows_mixedTree (navigable_mixedTree.shows_of_holds hy)
      have hdistinct : (mixedFiles.map fun entry => entry.2.name).Nodup := by decide
      have hsame : (file, y) = (file', y') := List.inj_on_of_nodup_map hdistinct
        (mem_mixedFiles_of_holds hy) (mem_mixedFiles_of_holds hy') hname
      exact congrArg Prod.fst hsame
  choose c hc using fun kind => navigable_mixedTree.exists_loadKind_iff.mpr (hloadable kind)
  obtain ⟨p, hp, -⟩ := loadSchema_eq (o := { root := "schema" }) fun kind =>
    ⟨c kind, hc kind, rfl⟩
  exact ⟨p, hp⟩

theorem find?_mixedTree {p : Snapshot} (h : mixedTree.loadSchema Yaml.format "schema" = .ok p)
    {file : String} {x : Cluster} (hx : (file, x) ∈ mixedFiles) : p.clusters.find? x.name = some x :=
  (find?_key_eq_some_iff (p.collection .cluster).distinct).mpr
    ⟨(navigable_mixedTree.mem_loadKind (FileTree.loadKind_of_loadSchema h .cluster)).mpr
      ⟨file, holds_mixedTree _ hx⟩, rfl⟩

theorem plain_mixedDump (kind : EntityKind) :
    ∀ x ∈ (mixedDump.collection kind).entries, IsPlainName (Entity.name x) := by
  cases kind <;> decide

theorem preserves_mixedDump (kind : EntityKind) :
    ∀ x ∈ (mixedDump.collection kind).entries, Yaml.format.Preserves (kind.encode x) := by
  cases kind with
  | cluster => exact evaluate_mixedDump.2.1
  | _ => exact fun x hx => nomatch hx

theorem placed_mixedDump (kind : EntityKind) (file : String) (y : kind.Member)
    (hy : mixedTree.Holds Yaml.format "schema" kind file y)
    (hname : Entity.name y ∈ (mixedDump.collection kind).names) : mixedDump.Fills kind file := by
  obtain ⟨rfl, -⟩ := shows_mixedTree (navigable_mixedTree.shows_of_holds hy)
  have hplaced : ∀ entry ∈ mixedFiles, entry.2.name ∈ mixedDump.clusters.names →
      ∃ x ∈ mixedDump.clusters.entries, schemaFileName x.name = entry.1 := by
    decide
  exact hplaced _ (mem_mixedFiles_of_holds hy) hname

theorem run_mixedDump : ∃ u,
    (DumpOptions.dump { root := "schema", overwrite := true } Yaml.format mixedDump).run.run
      mixedTree = (.ok ["schema/clusters/audit.yaml", "schema/clusters/weekly.yaml"], u) := by
  have hpaths := evaluate_mixedDump.2.2
  generalize (DumpOptions.dump { root := "schema", overwrite := true } Yaml.format
    mixedDump).run.run mixedTree = result at hpaths ⊢
  exact ⟨result.2, Prod.ext hpaths rfl⟩

/-- A cluster that is new, one that is replaced in its own file, and one that stays because its file
has another name. -/
theorem load_after_dump_mixed : ∃ p u loaded,
    mixedTree.loadSchema Yaml.format "schema" = .ok p ∧
      (DumpOptions.dump { root := "schema", overwrite := true } Yaml.format mixedDump).run.run
        mixedTree = (.ok ["schema/clusters/audit.yaml", "schema/clusters/weekly.yaml"], u) ∧
      u.loadSchema Yaml.format "schema" = .ok loaded ∧
      loaded.clusters.find? "weekly" = some { name := "weekly" } ∧
      loaded.clusters.find? "audit" = some grownAudit ∧
      loaded.clusters.find? "daily" = some { name := "daily" } := by
  obtain ⟨p, hload⟩ := exists_loadSchema_mixedTree
  obtain ⟨u, hdump⟩ := run_mixedDump
  obtain ⟨loaded, hloaded, hfind⟩ := load_after_dump navigable_mixedTree hload plain_mixedDump
    preserves_mixedDump placed_mixedDump hdump
  have hold : ("old.yml", { name := "daily" }) ∈ mixedFiles := by decide
  refine ⟨p, u, loaded, hload, hdump, hloaded, (hfind .cluster "weekly").1 _ (by decide),
    (hfind .cluster "audit").1 _ (by decide),
    ((hfind .cluster "daily").2 (by decide) { name := "daily" }).mpr
      ⟨find?_mixedTree hload hold, "old.yml", holds_mixedTree _ hold, ?_⟩⟩
  rintro ⟨x, hx, hfile⟩
  revert x
  decide

/-- **The entity of a replaced file is gone**, although nothing else has its name. -/
theorem load_after_dump_lost : ∃ p paths u,
    mixedTree.Navigable "schema" ∧ mixedTree.loadSchema Yaml.format "schema" = .ok p ∧
      (∀ kind, ∀ x ∈ (mixedDump.collection kind).entries, IsPlainName (Entity.name x)) ∧
      (∀ kind, ∀ x ∈ (mixedDump.collection kind).entries,
        Yaml.format.Preserves (kind.encode x)) ∧
      (DumpOptions.dump { root := "schema", overwrite := true } Yaml.format mixedDump).run.run
        mixedTree = (.ok paths, u) ∧
      ¬ ∃ loaded, u.loadSchema Yaml.format "schema" = .ok loaded ∧ ∀ kind name,
        (loaded.collection kind).find? name =
          ((mixedDump.collection kind).find? name).or ((p.collection kind).find? name) := by
  obtain ⟨p, hload⟩ := exists_loadSchema_mixedTree
  obtain ⟨u, hdump⟩ := run_mixedDump
  refine ⟨p, _, u, navigable_mixedTree, hload, plain_mixedDump, preserves_mixedDump, hdump, ?_⟩
  rintro ⟨loaded, hloaded, hfind⟩
  obtain ⟨loaded', hloaded', hentries⟩ := exists_load_of_dump navigable_mixedTree hload
    plain_mixedDump preserves_mixedDump placed_mixedDump hdump
  obtain rfl : loaded' = loaded := Except.ok.inj (hloaded'.symm.trans hloaded)
  have hmem : ("weekly.yaml", { name := "hourly" }) ∈ mixedFiles := by decide
  have hold : (p.collection .cluster).find? "hourly" = some { name := "hourly" } :=
    find?_mixedTree hload hmem
  have hfound := hfind .cluster "hourly"
  rw [hold, show (mixedDump.collection .cluster).find? "hourly" = none by decide, Option.none_or]
    at hfound
  rcases (hentries .cluster _).mp (List.mem_of_find?_eq_some hfound) with hnew | ⟨file, hfile, hheld⟩
  · revert hnew
    decide
  · -- the file of the old cluster is the one that was replaced
    have hreplaced : ∀ entry ∈ mixedFiles, entry.2 = { name := "hourly" } →
        ∃ x ∈ mixedDump.clusters.entries, schemaFileName x.name = entry.1 := by
      decide
    exact hfile (hreplaced _ (mem_mixedFiles_of_holds hheld) rfl)

end SchemaPlan
