import SchemaPlan.Proofs.SchemaDump

/-!
# Dumps that succeed

What the success of a dump tells about the tree before it: every file of the dump could be stored,
and no directory lay in its place.

* `DumpOptions.exists_of_writeEntity`: one file that was written, by what was done for it.
* `DumpOptions.storable_of_run`: several files that were written could be stored.
* **`DumpOptions.written_of_dump`**: the tree after a dump into a directory without files.
-/

namespace SchemaPlan

namespace FileTree

variable {t u v : FileTree} {path root name text : String} {place : Place}

theorem keeps_of_createDirectories {result : Except PathFault Unit}
    (h : t.createDirectories path = (result, u)) : Keeps t u := by
  obtain rfl : (t.createDirectories path).2 = u := congrArg Prod.snd h
  unfold createDirectories
  split_ifs
  · exact .refl t
  · exact .refl t
  · exact keeps_makeWay _ _ _

theorem of_locate_joinPath (h : IsFileName name)
    (hplace : t.locate (joinPath root name) = .ok place) :
    t.Usable (joinPath root name) ∧ t.allowsName name = true ∧
      place = t.resolve (joinPath root name) := by
  have hwalk := walk_of_locate hplace
  exact ⟨usable_of_locate hplace, (of_walk_joinPath h hwalk).2, follow_of_walk hwalk⟩

theorem exists_of_writeFile (h : t.writeFile path text = .ok u) :
    ∃ place, t.locate path = .ok place ∧ t.node? place ≠ some .directory ∧
      u = t.put place (.file (some text)) := by
  rw [writeFile, bind_eq_ok_iff] at h
  obtain ⟨place, hplace, h⟩ := h
  change (if t.isDirectory place = true then _ else _) = _ at h
  split_ifs at h with hdirectory
  · cases h
  · exact ⟨place, hplace, by simpa [isDirectory] using hdirectory, (Except.ok.inj h).symm⟩

end FileTree

theorem Filing.run_bind_eq_ok_iff {ε α β : Type} {m : Filing ε α} {f : α → Filing ε β} {b : β}
    {t v : FileTree} : (m >>= f).run.run t = (.ok b, v) ↔
      ∃ a u, m.run.run t = (.ok a, u) ∧ (f a).run.run u = (.ok b, v) := by
  constructor
  · intro h
    rcases hm : m.run.run t with ⟨cause | a, u⟩
    · rw [run_bind_error hm] at h
      cases h
    · rw [run_bind_ok hm] at h
      exact ⟨a, u, rfl, h⟩
  · rintro ⟨a, u, hm, h⟩
    rwa [run_bind_ok hm]

namespace DumpOptions

variable {o : DumpOptions} {format : TextFormat} {s : Snapshot} {t u made : FileTree}
  {file : SchemaFile} {files : List SchemaFile} {path : String} {paths : List String}

theorem exists_of_writeEntity (h : (o.writeEntity format file).run.run t = (.ok path, u)) :
    ∃ v place, t.createDirectories (o.directoryOf file) = (.ok (), v) ∧
      v.locate (o.pathOf file) = .ok place ∧ v.node? place ≠ some .directory ∧
      u = v.put place (.file (some (format.write file.content))) := by
  rw [run_writeEntity] at h
  split at h
  · cases h
  · rename_i v hmade
    split_ifs at h with hexists
    · cases h
    split at h
    · cases h
    · rename_i w hwrite
      obtain ⟨place, hplace, hdirectory, hput⟩ := FileTree.exists_of_writeFile hwrite
      exact ⟨v, place, hmade, hplace, hdirectory, (Prod.mk.inj h).2.symm.trans hput⟩

theorem keepsDirectories_writeEntity
    (h : (o.writeEntity format file).run.run t = (.ok path, u)) : t.KeepsDirectories u := by
  obtain ⟨v, place, hmade, -, hdirectory, rfl⟩ := exists_of_writeEntity h
  have hkeeps := FileTree.keeps_of_createDirectories hmade
  exact hkeeps.keepsDirectories.trans (.put hdirectory _)

/-- Each file of a run was written into a tree with the directories that were there before. -/
theorem exists_of_run (h : (files.mapM (o.writeEntity format)).run.run t = (.ok paths, u))
    (hfile : file ∈ files) : ∃ v w path, t.KeepsDirectories v ∧
      (o.writeEntity format file).run.run v = (.ok path, w) := by
  induction files generalizing t u paths with
  | nil => cases hfile
  | cons first files ih =>
    rw [List.mapM_cons] at h
    obtain ⟨path, v, hfirst, hrest⟩ := Filing.run_bind_eq_ok_iff.mp h
    obtain ⟨rest, w, hrest, -⟩ := Filing.run_bind_eq_ok_iff.mp hrest
    rcases List.mem_cons.mp hfile with rfl | hfile
    · exact ⟨t, v, path, .refl t, hfirst⟩
    · obtain ⟨v', w', path', hkeeps, hrun⟩ := ih hrest hfile
      exact ⟨v', w', path', (keepsDirectories_writeEntity hfirst).trans hkeeps, hrun⟩

/-- **Files that were written could be stored**, and no directory was in their places. -/
theorem storable_of_run (hdirectories : ∀ kind : EntityKind,
      t.allowsName kind.directory = true ∧ t.Usable (joinPath o.root kind.directory))
    (hslashless : ∀ file ∈ files, '/' ∉ file.name.toList)
    (h : (files.mapM (o.writeEntity format)).run.run t = (.ok paths, u)) :
    ∀ file ∈ files, Storable t o file ∧ t.node? (o.placeOf t file) ≠ some .directory := by
  intro file hfile
  obtain ⟨v, w, path, hkeeps, hrun⟩ := exists_of_run h hfile
  obtain ⟨v', place, hmade, hlocate, hdirectory, -⟩ := exists_of_writeEntity hrun
  have hkeeps := hkeeps.trans (FileTree.keeps_of_createDirectories hmade).keepsDirectories
  have hname := isFileName_schemaFileName (hslashless file hfile)
  obtain ⟨husable, hallowed, rfl⟩ := FileTree.of_locate_joinPath hname hlocate
  refine ⟨⟨hslashless file hfile, (hdirectories _).1, (hdirectories _).2,
    (hkeeps.allowsName _).symm.trans hallowed, hkeeps.usable_iff.mp husable⟩, fun h => ?_⟩
  rw [← resolve_pathOf (hslashless file hfile), ← hkeeps.resolve] at h
  exact hdirectory (hkeeps.directories _ h)

/-- **A dump into a directory without files** that succeeds has written the files of all wanted
entities. -/
theorem written_of_dump (hw : t.WellFormed) (hroot : t.createDirectories o.root = (.ok (), made))
    (hempty : t.HoldsNoFiles o.root)
    (hdirectories : ∀ kind : EntityKind,
      t.allowsName kind.directory = true ∧ t.Usable (joinPath o.root kind.directory))
    (hslashless : ∀ file ∈ o.files s, '/' ∉ file.name.toList)
    (h : (o.dump format s).run.run t = (.ok paths, u)) :
    Written o format t u (o.files s) ∧ (u = t ∨ u.Opens o.root) ∧
      ∀ file ∈ o.files s, Storable t o file := by
  have hstorable : ∀ file ∈ o.files s, Storable t o file := fun file hfile =>
    (storable_of_run hdirectories hslashless h file hfile).1
  obtain ⟨-, hkeeps, -, -, -⟩ := FileTree.created hw hroot
  have hfree : ∀ file ∈ o.files s, made.node? (o.placeOf t file) ≠ some .directory := by
    intro file hfile
    -- the output directory might as well have been created before
    have hmade : (o.dump format s).run.run made = (.ok paths, u) := by
      obtain ⟨first, files, hall⟩ := List.exists_cons_of_ne_nil (List.ne_nil_of_mem hfile)
      rw [← h, dump, hall,
        run_mapM_of_created hw hroot (hstorable first (hall ▸ List.mem_cons_self))]
    have hdirectories' (kind : EntityKind) : made.allowsName kind.directory = true ∧
        made.Usable (joinPath o.root kind.directory) :=
      ⟨(hkeeps.allowsName _).trans (hdirectories kind).1, hkeeps.usable (hdirectories kind).2⟩
    have hplace := (storable_of_run hdirectories' hslashless hmade file hfile).2
    rwa [placeOf, hkeeps.resolve, ← placeOf] at hplace
  obtain ⟨v, hrun, hwritten, hopens⟩ := dump_writes hw hroot hempty hstorable hfree
  obtain ⟨-, rfl⟩ := Prod.mk.inj (hrun.symm.trans h)
  exact ⟨hwritten, hopens, hstorable⟩

end DumpOptions

end SchemaPlan
