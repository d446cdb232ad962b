import SchemaPlan.Files.Dump
import SchemaPlan.Proofs.EntityDocuments
import SchemaPlan.Proofs.SchemaPaths

/-!
# Dumps of schemas

What a dump writes, and where.

* `DumpOptions.Wants`, `DumpOptions.selected`: the entities that are wanted;
  `DumpOptions.files_eq`: their files, kind after kind.
* `DumpOptions.run_writeEntity`: one file, by what happens to the tree.
* `Written`: what holds after some files were written; `WrittenAlone.step`: one more file keeps it;
  `WrittenAlone.run`: the run over several files.
* `DumpOptions.dump_writes`: a dump into a directory without files.
-/

namespace SchemaPlan

/-! ## What is written -/

namespace EntityKind

/-- The file of an entity. -/
def file (kind : EntityKind) (x : kind.Member) : SchemaFile :=
  ⟨kind, Entity.name x, kind.encode x⟩

end EntityKind

namespace DumpOptions

variable {o : DumpOptions} {kind : EntityKind}

/-- An entity is wanted: its kind is, and its database is if it has one. -/
def Wants (o : DumpOptions) (kind : EntityKind) (x : kind.Member) : Prop :=
  (o.tablesOnly = true → kind = .table) ∧
    ∀ wanted ∈ o.database, ∀ database ∈ Entity.database x, database = wanted

instance (o : DumpOptions) (kind : EntityKind) : DecidablePred (o.Wants kind) := fun x =>
  inferInstanceAs (Decidable ((o.tablesOnly = true → kind = .table) ∧
    ∀ wanted ∈ o.database, ∀ database ∈ Entity.database x, database = wanted))

/-- The wanted entities of a kind, in their order. -/
def selected (o : DumpOptions) (s : Snapshot) (kind : EntityKind) : List kind.Member :=
  (s.collection kind).entries.filter (o.Wants kind)

theorem selects_iff {database : Option String} : o.selects database = true ↔
    ∀ wanted ∈ o.database, ∀ d ∈ database, d = wanted := by
  unfold selects
  cases o.database with
  | none => simp
  | some wanted =>
    cases database with
    | none => simp
    | some d => simpa using eq_comm

theorem selected_eq (o : DumpOptions) (s : Snapshot) (kind : EntityKind) :
    o.selected s kind =
      if o.tablesOnly = true ∧ kind ≠ .table then []
      else (s.collection kind).entries.filter fun x => o.selects (Entity.database x) := by
  unfold selected Wants
  split_ifs with h
  · simp [h]
  · rw [not_and_not_right] at h
    refine List.filter_congr fun x _ => ?_
    simp only [decide_eq_decide.mpr (and_iff_right h), ← selects_iff, Bool.decide_eq_true]

/-- **The files of a dump** are those of the wanted entities, kind after kind. -/
theorem files_eq (o : DumpOptions) (s : Snapshot) :
    o.files s = EntityKind.all.flatMap fun kind => (o.selected s kind).map kind.file := by
  simp only [EntityKind.all, List.flatMap_cons, List.flatMap_nil, selected_eq, files]
  cases o.tablesOnly with
  | true => simp; rfl
  | false => simp; rfl

theorem mem_files_iff {s : Snapshot} {file : SchemaFile} :
    file ∈ o.files s ↔ ∃ kind, ∃ x ∈ o.selected s kind, EntityKind.file kind x = file := by
  simp only [files_eq, List.mem_flatMap, List.mem_map, EntityKind.mem_all, true_and]

end DumpOptions

/-! ## One file -/

namespace Filing

variable {ε α β : Type} {t u : FileTree}

theorem run_bind_ok {m : Filing ε α} {a : α} (h : m.run.run t = (.ok a, u)) (f : α → Filing ε β) :
    (m >>= f).run.run t = (f a).run.run u := by
  rw [ExceptT.run_bind, StateT.run_bind, h]
  rfl

theorem run_bind_error {m : Filing ε α} {cause : ε} (h : m.run.run t = (.error cause, u))
    (f : α → Filing ε β) : (m >>= f).run.run t = (.error cause, u) := by
  rw [ExceptT.run_bind, StateT.run_bind, h]
  rfl

theorem run_createDirectories (path : String) (onError : PathFault → ε) (t : FileTree) :
    (createDirectories path onError).run.run t =
      ((t.createDirectories path).1.mapError onError, (t.createDirectories path).2) := by
  have hget : (getThe FileTree : Filing ε FileTree).run.run t = (.ok t, t) := rfl
  rw [createDirectories, run_bind_ok hget]
  rcases t.createDirectories path with ⟨cause | ⟨⟩, u⟩ <;> rfl

theorem run_writeFile (path text : String) (onError : PathFault → ε) (t : FileTree) :
    (writeFile path text onError).run.run t =
      match t.writeFile path text with
      | .error cause => (.error (onError cause), t)
      | .ok u => (.ok (), u) := by
  have hget : (getThe FileTree : Filing ε FileTree).run.run t = (.ok t, t) := rfl
  rw [writeFile, run_bind_ok hget]
  cases t.writeFile path text <;> rfl

end Filing

namespace DumpOptions

/-- What writing one file does to a tree. -/
theorem run_writeEntity (o : DumpOptions) (format : TextFormat) (file : SchemaFile)
    (t : FileTree) :
    (o.writeEntity format file).run.run t =
      match t.createDirectories (o.directoryOf file) with
      | (.error cause, u) => (.error (.uncreatedDirectory (o.directoryOf file) cause), u)
      | (.ok (), u) =>
        if (!o.overwrite && u.exists? (o.pathOf file)) = true then
          (.error (.alreadyExists (o.pathOf file)), u)
        else
          match u.writeFile (o.pathOf file) (format.write file.content) with
          | .error cause => (.error (.unwritableFile (o.pathOf file) cause), u)
          | .ok v => (.ok (o.pathOf file), v) := by
  have hcreate := Filing.run_createDirectories (o.directoryOf file)
    (FilesError.uncreatedDirectory (o.directoryOf file)) t
  unfold writeEntity
  rcases hmade : t.createDirectories (o.directoryOf file) with ⟨cause | _, u⟩
  · rw [hmade] at hcreate
    exact Filing.run_bind_error hcreate _
  · rw [hmade] at hcreate
    have hget : (getThe FileTree : Filing FilesError FileTree).run.run u = (.ok u, u) := rfl
    rw [Filing.run_bind_ok hcreate, Filing.run_bind_ok hget]
    dsimp only
    split
    · rfl
    · have hwrite := Filing.run_writeFile (o.pathOf file) (format.write file.content)
        (FilesError.unwritableFile (o.pathOf file)) u
      cases hwritten : u.writeFile (o.pathOf file) (format.write file.content) with
      | error cause =>
        rw [hwritten] at hwrite
        exact Filing.run_bind_error hwrite _
      | ok v =>
        rw [hwritten] at hwrite
        exact Filing.run_bind_ok hwrite _

theorem run_cons (o : DumpOptions) (format : TextFormat) (file : SchemaFile)
    (files : List SchemaFile) {t u v : FileTree} {path : String}
    {result : Except FilesError (List String)}
    (hfile : (o.writeEntity format file).run.run t = (.ok path, u))
    (hfiles : (files.mapM (o.writeEntity format)).run.run u = (result, v)) :
    ((file :: files).mapM (o.writeEntity format)).run.run t =
      (result.map (path :: ·), v) := by
  rw [List.mapM_cons, Filing.run_bind_ok hfile]
  cases result with
  | error cause => exact Filing.run_bind_error hfiles _
  | ok paths => exact Filing.run_bind_ok hfiles _

end DumpOptions

/-! ## Several files -/

/-- A file system can hold a file under its name and path. -/
structure Storable (t : FileTree) (o : DumpOptions) (file : SchemaFile) : Prop where
  slashless : '/' ∉ file.name.toList
  directory_name : t.allowsName file.kind.directory = true
  directory : t.Usable (o.directoryOf file)
  file_name : t.allowsName (schemaFileName file.name) = true
  path : t.Usable (o.pathOf file)

theorem Storable.keeps {t u : FileTree} {o : DumpOptions} {file : SchemaFile}
    (h : Storable t o file) (hkeeps : t.Keeps u) : Storable u o file where
  slashless := h.slashless
  directory_name := (hkeeps.allowsName _).trans h.directory_name
  directory := hkeeps.usable h.directory
  file_name := (hkeeps.allowsName _).trans h.file_name
  path := hkeeps.usable h.path

namespace DumpOptions

variable {o : DumpOptions} {file : SchemaFile}

/-- The place of a file. -/
def placeOf (o : DumpOptions) (t : FileTree) (file : SchemaFile) : Place :=
  t.resolve o.root ++ [file.kind.directory] ++ [schemaFileName file.name]

theorem placeOf_ne_nil (o : DumpOptions) (t : FileTree) (file : SchemaFile) :
    o.placeOf t file ≠ [] := by
  simp [placeOf]

theorem placeOf_ne_directory (o : DumpOptions) (t : FileTree) (file : SchemaFile)
    (kind : EntityKind) : o.placeOf t file ≠ t.resolve o.root ++ [kind.directory] := by
  intro h
  simpa [placeOf] using congrArg List.length h

theorem resolve_directoryOf (t : FileTree) (o : DumpOptions) (file : SchemaFile) :
    t.resolve (o.directoryOf file) = t.resolve o.root ++ [file.kind.directory] :=
  FileTree.resolve_joinPath (isFileName_directory file.kind) t o.root

theorem resolve_pathOf (h : '/' ∉ file.name.toList) (t : FileTree) (o : DumpOptions) :
    t.resolve (o.pathOf file) = o.placeOf t file := by
  rw [pathOf, FileTree.resolve_joinPath (isFileName_schemaFileName h), resolve_directoryOf, placeOf]

end DumpOptions

/-- The tree `u` is the tree `t` with some files written. -/
structure Written (o : DumpOptions) (format : TextFormat) (t u : FileTree)
    (done : List SchemaFile) : Prop where
  keeps : t.Keeps u
  wellFormed : u.WellFormed
  opens : ∀ file ∈ done, u.Opens (o.directoryOf file)
  nodes : ∀ file ∈ done,
    u.node? (o.placeOf t file) = some (.file (some (format.write file.content)))
  files : u.files =
    t.files ++ done.map fun file => (o.placeOf t file, some (format.write file.content))

/-- Nothing else but directories for these files is new. -/
structure WrittenAlone (o : DumpOptions) (format : TextFormat) (t u : FileTree)
    (done : List SchemaFile) : Prop extends Written o format t u done where
  others : ∀ place node, t.node? place = none → u.node? place = some node →
    (node = .directory ∧ ∃ kind : EntityKind, place = t.resolve o.root ++ [kind.directory]) ∨
      ∃ file ∈ done, place = o.placeOf t file

section Writing

variable {o : DumpOptions} {format : TextFormat} {t u v : FileTree} {done files : List SchemaFile}
  {file : SchemaFile}

namespace Written

theorem refl (hw : t.WellFormed) : Written o format t t [] where
  keeps := .refl t
  wellFormed := hw
  opens := by simp
  nodes := by simp
  files := by simp

/-- Directories that were created before the files make no difference. -/
theorem of_keeps (hkeeps : t.Keeps u) (hfiles : u.files = t.files)
    (h : Written o format u v done) : Written o format t v done := by
  have hplace (file : SchemaFile) : o.placeOf u file = o.placeOf t file := by
    rw [DumpOptions.placeOf, hkeeps.resolve, DumpOptions.placeOf]
  have hnodes := h.nodes
  have hwritten := h.files
  simp only [hplace, hfiles] at hnodes hwritten
  exact ⟨hkeeps.trans h.keeps, h.wellFormed, h.opens, hnodes, hwritten⟩

end Written

namespace WrittenAlone

theorem refl (hw : t.WellFormed) : WrittenAlone o format t t [] where
  toWritten := .refl hw
  others place node hfree hnode := by
    rw [hfree] at hnode
    cases hnode

theorem createDirectories (h : WrittenAlone o format t u done) (hroot : t.Opens o.root)
    (hfile : Storable t o file)
    (hdirectory : ∀ content,
      t.node? (t.resolve o.root ++ [file.kind.directory]) ≠ some (.file content)) :
    ∃ v, u.createDirectories (o.directoryOf file) = (.ok (), v) ∧
      WrittenAlone o format t v done := by
  have hname := isFileName_directory file.kind
  have hplace : u.resolve (joinPath o.root file.kind.directory) =
      t.resolve o.root ++ [file.kind.directory] := by
    rw [h.keeps.resolve, FileTree.resolve_joinPath hname]
  have hmade := (h.keeps.opens hroot).createDirectories_joinPath hname
    ((h.keeps.allowsName _).trans hfile.directory_name) (h.keeps.usable hfile.directory)
  rw [hplace] at hmade
  cases hnode : u.node? (t.resolve o.root ++ [file.kind.directory]) with
  | none =>
    rw [hnode] at hmade
    have hput := FileTree.Keeps.put (by simp) hnode .directory
    refine ⟨_, hmade, ⟨h.keeps.trans hput, ?_,
      fun other hother => hput.opens (h.opens other hother),
      fun other hother => hput.nodes _ _ (h.nodes other hother), ?_⟩,
      fun place node hold hnew => ?_⟩
    · exact h.wellFormed.put (h.keeps.nodes _ _ hroot.directory) hnode _
    · rw [FileTree.files_put_directory (by simp) hnode, h.files]
    · rw [FileTree.node?_put (by simp)] at hnew
      split_ifs at hnew with hkind
      · exact .inl ⟨(Option.some.inj hnew).symm, file.kind, hkind⟩
      · exact h.others place node hold hnew
  | some node =>
    rw [hnode] at hmade
    cases node with
    | directory => exact ⟨u, hmade, h⟩
    | file content =>
      -- no file is in the place of the directory
      exfalso
      cases hold : t.node? (t.resolve o.root ++ [file.kind.directory]) with
      | some old =>
        rw [h.keeps.nodes _ _ hold, Option.some.injEq] at hnode
        exact hdirectory content (hnode ▸ hold)
      | none =>
        obtain ⟨hdir, _⟩ | ⟨other, _, hother⟩ := h.others _ _ hold hnode
        · cases hdir
        · exact o.placeOf_ne_directory t other _ hother.symm

theorem node?_eq_none (h : WrittenAlone o format t u done)
    (hfree : t.node? (o.placeOf t file) = none)
    (hnew : o.placeOf t file ∉ done.map (o.placeOf t)) : u.node? (o.placeOf t file) = none := by
  cases hnode : u.node? (o.placeOf t file) with
  | none => rfl
  | some node =>
    exfalso
    obtain ⟨_, kind, hkind⟩ | ⟨other, hother, hplace⟩ := h.others _ _ hfree hnode
    · exact o.placeOf_ne_directory t file kind hkind
    · exact hnew (hplace ▸ List.mem_map_of_mem hother)

theorem put (h : WrittenAlone o format t u done) (hopens : u.Opens (o.directoryOf file))
    (hnone : u.node? (o.placeOf t file) = none) :
    WrittenAlone o format t (u.put (o.placeOf t file) (.file (some (format.write file.content))))
      (done ++ [file]) := by
  have hdirectory : u.node? (t.resolve o.root ++ [file.kind.directory]) = some .directory := by
    rw [← DumpOptions.resolve_directoryOf, ← h.keeps.resolve]
    exact hopens.directory
  have hne := o.placeOf_ne_nil t file
  have hput := FileTree.Keeps.put hne hnone (.file (some (format.write file.content)))
  refine ⟨⟨h.keeps.trans hput, ?_, fun other hother => ?_, fun other hother => ?_, ?_⟩,
    fun place node hold hnode => ?_⟩
  · exact h.wellFormed.put hdirectory hnone _
  · rcases List.mem_append.mp hother with hother | hother
    · exact hput.opens (h.opens other hother)
    · rw [List.mem_singleton.mp hother]
      exact hput.opens hopens
  · rcases List.mem_append.mp hother with hother | hother
    · exact hput.nodes _ _ (h.nodes other hother)
    · rw [List.mem_singleton.mp hother, FileTree.node?_put hne, if_pos rfl]
  · rw [FileTree.files_put_file hne hnone, h.files, List.map_append, List.append_assoc]
    rfl
  · rw [FileTree.node?_put hne] at hnode
    split_ifs at hnode with hfile
    · exact .inr ⟨file, by simp, hfile⟩
    · refine (h.others place node hold hnode).imp_right ?_
      rintro ⟨other, hother, hplace⟩
      exact ⟨other, List.mem_append_left _ hother, hplace⟩

/-- **One more file can be written**, and it is all that is new. -/
theorem step (h : WrittenAlone o format t u done) (hroot : t.Opens o.root)
    (hfile : Storable t o file)
    (hdirectory : ∀ content,
      t.node? (t.resolve o.root ++ [file.kind.directory]) ≠ some (.file content))
    (hfree : t.node? (o.placeOf t file) = none)
    (hnew : o.placeOf t file ∉ done.map (o.placeOf t)) :
    ∃ v, (o.writeEntity format file).run.run u = (.ok (o.pathOf file), v) ∧
      WrittenAlone o format t v (done ++ [file]) := by
  obtain ⟨w, hmade, hw⟩ := h.createDirectories hroot hfile hdirectory
  have hopens : w.Opens (o.directoryOf file) := (FileTree.created h.wellFormed hmade).opens
  have hnone := hw.node?_eq_none hfree hnew
  have hlocate : w.locate (o.pathOf file) = .ok (o.placeOf t file) := by
    rw [← DumpOptions.resolve_pathOf hfile.slashless, ← hw.keeps.resolve]
    exact hopens.locate_joinPath (isFileName_schemaFileName hfile.slashless)
      ((hw.keeps.allowsName _).trans hfile.file_name) (hw.keeps.usable hfile.path)
  refine ⟨_, ?_, hw.put hopens hnone⟩
  rw [DumpOptions.run_writeEntity, hmade]
  simp only [FileTree.exists?_of_free hlocate hnone, FileTree.writeFile_of_free hlocate hnone]
  simp

/-- **Several files can be written**, if their places are free and distinct. -/
theorem run (h : WrittenAlone o format t u done) (hroot : t.Opens o.root)
    (hdirectory : ∀ (kind : EntityKind) content,
      t.node? (t.resolve o.root ++ [kind.directory]) ≠ some (.file content))
    (hfiles : ∀ file ∈ files, Storable t o file)
    (hfree : ∀ file ∈ files, t.node? (o.placeOf t file) = none)
    (hnew : ((done ++ files).map (o.placeOf t)).Nodup) :
    ∃ v, (files.mapM (o.writeEntity format)).run.run u = (.ok (files.map o.pathOf), v) ∧
      WrittenAlone o format t v (done ++ files) := by
  induction files generalizing u done with
  | nil => exact ⟨u, rfl, by rwa [List.append_nil]⟩
  | cons file files ih =>
    obtain ⟨hfile, hfiles⟩ := List.forall_mem_cons.mp hfiles
    obtain ⟨hfileFree, hfree⟩ := List.forall_mem_cons.mp hfree
    rw [List.append_cons] at hnew
    have hfresh : o.placeOf t file ∉ done.map (o.placeOf t) := by
      rw [List.map_append, List.map_append, List.nodup_append, List.nodup_append] at hnew
      exact fun hmem => hnew.1.2.2 _ hmem _ (List.mem_singleton_self _) rfl
    obtain ⟨v, hwrite, hv⟩ := h.step hroot hfile (hdirectory file.kind) hfileFree hfresh
    obtain ⟨w, hrun, hw⟩ := ih hv hfiles hfree hnew
    rw [← List.append_cons] at hw
    exact ⟨w, o.run_cons format file files hwrite hrun, hw⟩

end WrittenAlone

end Writing

/-! ## Whole dumps -/

/-- There are no files in the directory at a path, nor below it. -/
def FileTree.HoldsNoFiles (t : FileTree) (path : String) : Prop :=
  ∀ entry ∈ t.files, ¬ t.resolve path <+: entry.1

theorem FileTree.mem_files_of_node? {t : FileTree} {place : Place} {content : Option String}
    (h : t.node? place = some (.file content)) : (place, content) ∈ t.files := by
  have hne : place ≠ [] := by
    rintro rfl
    cases h
  rw [node?_of_ne_nil hne, Option.map_eq_some_iff] at h
  obtain ⟨entry, hfind, hnode⟩ := h
  have hplace : entry.1 = place := by simpa using List.find?_some hfind
  refine List.mem_filterMap.mpr ⟨entry, List.mem_of_find?_eq_some hfind, ?_⟩
  rw [hnode, hplace]

namespace DumpOptions

variable {o : DumpOptions} {s : Snapshot} {t made : FileTree}

theorem nodup_places (o : DumpOptions) (t : FileTree) (s : Snapshot) :
    ((o.files s).map (o.placeOf t)).Nodup := by
  rw [files_eq, List.map_flatMap, List.nodup_flatMap]
  constructor
  · intro kind _
    have hnames : ((o.selected s kind).map Entity.name).Nodup :=
      (s.collection kind).distinct.sublist (List.filter_sublist.map _)
    have hinjective : Function.Injective fun name =>
        t.resolve o.root ++ [kind.directory] ++ [schemaFileName name] := fun a b h =>
      schemaFileName_injective (List.singleton_injective (List.append_cancel_left h))
    have hplaces := hnames.map hinjective
    rw [List.map_map] at hplaces ⊢
    exact hplaces
  · -- the files of different kinds are in different directories
    have hkinds : EntityKind.all.Pairwise (· ≠ ·) := by decide
    refine hkinds.imp fun {a b} hne => ?_
    rw [Function.onFun_apply, List.disjoint_left]
    intro place ha hb
    simp only [List.mem_map] at ha hb
    obtain ⟨_, ⟨x, _, rfl⟩, hx⟩ := ha
    obtain ⟨_, ⟨y, _, rfl⟩, hy⟩ := hb
    rw [← hy] at hx
    have hdirectory := (List.append_inj' hx rfl).1
    exact hne (directory_injective (List.singleton_injective (List.append_cancel_left hdirectory)))

/-- The output directory might as well have been created before. -/
theorem run_mapM_of_created {format : TextFormat} (hw : t.WellFormed)
    (hroot : t.createDirectories o.root = (.ok (), made)) {file : SchemaFile}
    (hfile : Storable t o file) (files : List SchemaFile) :
    ((file :: files).mapM (o.writeEntity format)).run.run t =
      ((file :: files).mapM (o.writeEntity format)).run.run made := by
  have hfirst : (o.writeEntity format file).run.run t =
      (o.writeEntity format file).run.run made := by
    rw [run_writeEntity, run_writeEntity, directoryOf,
      FileTree.createDirectories_again hw hroot (isFileName_directory file.kind) hfile.directory]
  rw [List.mapM_cons, ExceptT.run_bind, StateT.run_bind, StateT.run_bind, hfirst]

/-- **A dump into a directory without files writes the files of all wanted entities**, if no
directory is in their places. -/
theorem dump_writes {format : TextFormat} (hw : t.WellFormed)
    (hroot : t.createDirectories o.root = (.ok (), made)) (hempty : t.HoldsNoFiles o.root)
    (hfiles : ∀ file ∈ o.files s, Storable t o file)
    (hfree : ∀ file ∈ o.files s, made.node? (o.placeOf t file) ≠ some .directory) :
    ∃ u, (o.dump format s).run.run t = (.ok ((o.files s).map o.pathOf), u) ∧
      Written o format t u (o.files s) ∧ (u = t ∨ u.Opens o.root) := by
  obtain ⟨_, hkeeps, hmadeFiles, hmadeWellFormed, hopens⟩ := FileTree.created hw hroot
  have hnoFile (place : Place) (content : Option String) (hbelow : t.resolve o.root <+: place) :
      made.node? place ≠ some (.file content) := fun hnode =>
    hempty _ (hmadeFiles ▸ FileTree.mem_files_of_node? hnode) hbelow
  have hplace (file : SchemaFile) : o.placeOf made file = o.placeOf t file := by
    rw [placeOf, hkeeps.resolve, placeOf]
  have hmadeFree : ∀ file ∈ o.files s, made.node? (o.placeOf made file) = none := by
    intro file hfile
    rw [hplace]
    cases hnode : made.node? (o.placeOf t file) with
    | none => rfl
    | some node =>
      cases node with
      | directory => exact absurd hnode (hfree file hfile)
      | file content =>
        refine absurd hnode (hnoFile _ content ?_)
        rw [placeOf, List.append_assoc]
        exact List.prefix_append _ _
  have hstart : WrittenAlone o format made made [] := .refl hmadeWellFormed
  obtain ⟨u, hrun, hwritten⟩ := hstart.run hopens
    (fun kind content => hkeeps.resolve o.root ▸ hnoFile _ content (List.prefix_append _ _))
    (fun file hfile => (hfiles file hfile).keeps hkeeps) hmadeFree (o.nodup_places made s)
  unfold dump
  cases hall : o.files s with
  | nil => exact ⟨t, rfl, .refl hw, .inl rfl⟩
  | cons file files =>
    rw [hall] at hrun hwritten hfiles
    refine ⟨u, ?_, hwritten.toWritten.of_keeps hkeeps hmadeFiles,
      .inr (hwritten.keeps.opens hopens)⟩
    rw [run_mapM_of_created hw hroot (hfiles file List.mem_cons_self), hrun]

end DumpOptions

end SchemaPlan
