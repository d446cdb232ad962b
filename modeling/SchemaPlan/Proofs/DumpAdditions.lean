import SchemaPlan.Proofs.DumpSuccess
import SchemaPlan.Yaml.Format

/-!
# Dumps that only add

A dump without replacement leaves everything that is there as it is, also if it fails on the way.
Names are arbitrary here: one with slashes and dots in it may lead anywhere, so the place of a file
is wherever its path leads, and two entities may aim at one place.

* `Added`: what holds after some files were written; `Added.step`: one more file, or the reason why
  it was not written; `Added.run`: the run over several files.
* `DumpOptions.Occupied`: something is in the way of a file; `DumpEnd`: how a dump ends.
* **`dump_adds`**: what a dump without replacement leaves behind, whatever comes out of it.
-/

namespace SchemaPlan

namespace FileTree

variable {t u v : FileTree} {path : String} {place here : Place} {names : List String}
  {node : FileNode}

theorem directory_of_makeWay (hfree : t.node? place = none)
    (hnode : (t.makeWay here names).2.node? place = some node) : node = .directory := by
  fun_induction makeWay t here names with
  | case1 | case4 | case6 =>
    rw [hfree] at hnode
    cases hnode
  | case2 t here name rest _ ih => exact ih hfree hnode
  | case3 t here rest _ ih => exact ih hfree hnode
  | case5 t here name rest _ _ _ _ ih => exact ih hfree hnode
  | case7 t here name rest _ _ _ _ ih =>
    by_cases hplace : place = here ++ [name]
    · subst hplace
      have hmade : (t.put (here ++ [name]) .directory).node? (here ++ [name]) = some .directory :=
        node?_put_self (by simp) t _
      rw [(keeps_makeWay _ _ rest).nodes _ _ hmade] at hnode
      exact (Option.some.inj hnode).symm
    · refine ih ?_ hnode
      rwa [node?_put_of_ne (by simp) t _ hplace]

theorem directory_of_createDirectories {result : Except PathFault Unit}
    (hmade : t.createDirectories path = (result, u)) (hfree : t.node? place = none)
    (hnode : u.node? place = some node) : node = .directory := by
  obtain rfl : (t.createDirectories path).2 = u := congrArg Prod.snd hmade
  unfold createDirectories at hnode
  split_ifs at hnode
  · rw [hfree] at hnode
    cases hnode
  · rw [hfree] at hnode
    cases hnode
  · exact directory_of_makeWay hfree hnode

theorem exists?_eq_true_iff :
    t.exists? path = true ↔ ∃ place, t.locate path = .ok place ∧ t.node? place ≠ none := by
  unfold exists?
  cases t.locate path with
  | error cause => simp
  | ok place => simp [Option.isSome_iff_ne_none]

end FileTree

section

variable {o : DumpOptions} {format : TextFormat} {t u v : FileTree} {done left files : List SchemaFile}
  {file : SchemaFile} {place : Place}

/-! ## What was added -/

/-- The tree `u` is the tree `t` with some files added, each in a free place of its own, and with
directories for them. -/
structure Added (o : DumpOptions) (format : TextFormat) (t u : FileTree)
    (done : List SchemaFile) : Prop where
  keeps : t.Keeps u
  located : ∀ file ∈ done, ∃ place, u.locate (o.pathOf file) = .ok place ∧
    t.node? place = none ∧ u.node? place = some (.file (some (format.write file.content)))
  distinct : done.Pairwise fun a b => u.locate (o.pathOf a) ≠ u.locate (o.pathOf b)
  others : ∀ place node, t.node? place = none → u.node? place = some node →
    node = .directory ∨ ∃ file ∈ done, u.locate (o.pathOf file) = .ok place

/-- Something is in the way of a file whose turn comes after the files `done`: its path leads to
where something lay before the dump, to one of those files, or to a directory that was made. -/
def DumpOptions.Occupied (o : DumpOptions) (t u : FileTree) (done : List SchemaFile)
    (file : SchemaFile) : Prop :=
  ∃ place, u.locate (o.pathOf file) = .ok place ∧
    (t.node? place ≠ none ∨ (∃ other ∈ done, u.locate (o.pathOf other) = .ok place) ∨
      u.node? place = some .directory)

namespace Added

theorem refl (t : FileTree) : Added o format t t [] where
  keeps := .refl t
  located := by simp
  distinct := .nil
  others place node hfree hnode := by
    rw [hfree] at hnode
    cases hnode

theorem locate_eq (h : Added o format t u done) (hkeeps : u.Keeps v) :
    ∀ file ∈ done, v.locate (o.pathOf file) = u.locate (o.pathOf file) := by
  intro file hfile
  obtain ⟨place, hplace, -⟩ := h.located file hfile
  rw [hplace]
  exact hkeeps.keepsDirectories.locate hplace

/-- What was added stays when the tree grows; what else is new is for the caller to say. -/
theorem grow (h : Added o format t u done) (hkeeps : u.Keeps v)
    (hothers : ∀ place node, u.node? place = none → v.node? place = some node →
      node = .directory) : Added o format t v done where
  keeps := h.keeps.trans hkeeps
  located file hfile := by
    obtain ⟨place, hplace, hfree, hnode⟩ := h.located file hfile
    exact ⟨place, hkeeps.keepsDirectories.locate hplace, hfree, hkeeps.nodes _ _ hnode⟩
  distinct := h.distinct.imp_of_mem fun ha hb hne => by
    rwa [h.locate_eq hkeeps _ ha, h.locate_eq hkeeps _ hb]
  others place node hfree hnode := by
    cases hold : u.node? place with
    | none => exact .inl (hothers place node hold hnode)
    | some old =>
      obtain rfl : old = node := Option.some.inj ((hkeeps.nodes _ _ hold).symm.trans hnode)
      refine (h.others place old hfree hold).imp_right ?_
      rintro ⟨file, hfile, hplace⟩
      exact ⟨file, hfile, hkeeps.keepsDirectories.locate hplace⟩

theorem put (h : Added o format t u done) (hplace : u.locate (o.pathOf file) = .ok place)
    (hfree : u.node? place = none) :
    Added o format t (u.put place (.file (some (format.write file.content)))) (done ++ [file]) := by
  have hne : place ≠ [] := by
    rintro rfl
    cases hfree
  have hput := FileTree.Keeps.put hne hfree (.file (some (format.write file.content)))
  have hold : t.node? place = none := by
    cases hnode : t.node? place with
    | none => rfl
    | some node => exact hfree ▸ (h.keeps.nodes _ _ hnode).symm
  have hlocate := hput.keepsDirectories.locate hplace
  refine ⟨h.keeps.trans hput, ?_, ?_, fun other node hother hnode => ?_⟩
  · intro other hother
    rcases List.mem_append.mp hother with hother | hother
    · obtain ⟨place', hplace', hfree', hnode'⟩ := h.located other hother
      exact ⟨place', hput.keepsDirectories.locate hplace', hfree', hput.nodes _ _ hnode'⟩
    · rw [List.mem_singleton.mp hother]
      exact ⟨place, hlocate, hold, FileTree.node?_put_self hne u _⟩
  · refine List.pairwise_append.mpr ⟨h.distinct.imp_of_mem fun ha hb hab => ?_,
      List.pairwise_singleton _ _, fun other hother last hlast hsame => ?_⟩
    · rwa [h.locate_eq hput _ ha, h.locate_eq hput _ hb]
    · -- the place was free, and a file that was written before is in its own
      obtain ⟨place', hplace', -, hnode'⟩ := h.located other hother
      rw [List.mem_singleton.mp hlast, hlocate, hput.keepsDirectories.locate hplace',
        Except.ok.injEq] at hsame
      rw [hsame, hfree] at hnode'
      cases hnode'
  · rw [FileTree.node?_put hne] at hnode
    split_ifs at hnode with hthis
    · exact .inr ⟨file, by simp, hthis ▸ hlocate⟩
    · refine (h.others other node hother hnode).imp_right ?_
      rintro ⟨before, hbefore, hplace'⟩
      exact ⟨before, List.mem_append_left _ hbefore, hput.keepsDirectories.locate hplace'⟩

/-- **The files that are new** are those that were added. -/
theorem created_iff (h : Added o format t u done) (place : Place) (content : Option String) :
    t.node? place = none ∧ u.node? place = some (.file content) ↔
      ∃ file ∈ done, u.locate (o.pathOf file) = .ok place ∧
        content = some (format.write file.content) := by
  constructor
  · rintro ⟨hfree, hnode⟩
    obtain hdirectory | ⟨file, hfile, hplace⟩ := h.others _ _ hfree hnode
    · cases hdirectory
    · obtain ⟨place', hplace', -, hnode'⟩ := h.located file hfile
      obtain rfl : place' = place := Except.ok.inj (hplace'.symm.trans hplace)
      rw [hnode, Option.some.injEq, FileNode.file.injEq] at hnode'
      exact ⟨file, hfile, hplace, hnode'⟩
  · rintro ⟨file, hfile, hplace, rfl⟩
    obtain ⟨place', hplace', hfree, hnode⟩ := h.located file hfile
    obtain rfl : place' = place := Except.ok.inj (hplace'.symm.trans hplace)
    exact ⟨hfree, hnode⟩

theorem exists?_iff (h : Added o format t u done) (file : SchemaFile) :
    u.exists? (o.pathOf file) = true ↔ o.Occupied t u done file := by
  rw [FileTree.exists?_eq_true_iff]
  refine exists_congr fun place => and_congr_right fun _ => ⟨fun hnode => ?_, ?_⟩
  · obtain ⟨node, hnode⟩ := Option.ne_none_iff_exists'.mp hnode
    cases hfree : t.node? place with
    | some _ => exact .inl (by simp)
    | none =>
      obtain rfl | hwritten := h.others _ _ hfree hnode
      · exact .inr (.inr hnode)
      · exact .inr (.inl hwritten)
  · rintro (hold | ⟨other, hother, hplace⟩ | hdirectory)
    · obtain ⟨node, hnode⟩ := Option.ne_none_iff_exists'.mp hold
      simp [h.keeps.nodes _ _ hnode]
    · obtain ⟨place', hplace', -, hnode⟩ := h.located other hother
      obtain rfl : place' = place := Except.ok.inj (hplace'.symm.trans hplace)
      simp [hnode]
    · simp [hdirectory]

/-- Nothing was in the way of a file that was added, not even one that was added before. -/
theorem not_occupied {before after : List SchemaFile}
    (h : Added o format t u (before ++ file :: after)) : ¬ o.Occupied t u before file := by
  rintro ⟨place, hplace, hoccupied⟩
  obtain ⟨place', hplace', hfree, hnode⟩ := h.located file (by simp)
  obtain rfl : place' = place := Except.ok.inj (hplace'.symm.trans hplace)
  rcases hoccupied with hold | ⟨other, hother, hsame⟩ | hdirectory
  · exact hold hfree
  · have hne := (List.pairwise_append.mp h.distinct).2.2 other hother file List.mem_cons_self
    exact hne (hsame.trans hplace.symm)
  · rw [hdirectory] at hnode
    cases hnode

end Added

/-! ## How a dump ends -/

/-- How a dump ends after the files `done`, with the files `left` still to be written. -/
inductive DumpEnd (o : DumpOptions) (t u : FileTree) (done : List SchemaFile) :
    List SchemaFile → Except FilesError (List String) → Prop
  /-- Every file was written. -/
  | finished : DumpEnd o t u done [] (.ok (done.map o.pathOf))
  /-- Something was in the way of the next file. -/
  | occupied {file : SchemaFile} {rest : List SchemaFile} (h : o.Occupied t u done file) :
      DumpEnd o t u done (file :: rest) (.error (.alreadyExists (o.pathOf file)))
  /-- The directory of the next file is not there and could not be created. -/
  | uncreated {file : SchemaFile} {rest : List SchemaFile} {cause : PathFault} :
      DumpEnd o t u done (file :: rest)
        (.error (.uncreatedDirectory (o.directoryOf file) cause))
  /-- Nothing was in the way of the next file, but it could not be written. -/
  | unwritten {file : SchemaFile} {rest : List SchemaFile} {cause : PathFault}
      (h : ¬ o.Occupied t u done file) :
      DumpEnd o t u done (file :: rest) (.error (.unwritableFile (o.pathOf file) cause))

namespace Added

/-- **One more file is added, or the dump ends before it.** -/
theorem step (h : Added o format t u done) (hkeep : o.overwrite = false)
    {result : Except FilesError String}
    (hrun : (o.writeEntity format file).run.run u = (result, v)) :
    (result = .ok (o.pathOf file) ∧ Added o format t v (done ++ [file])) ∨
      ∃ cause, result = .error cause ∧ Added o format t v done ∧
        ∀ rest, DumpEnd o t v done (file :: rest) (.error cause) := by
  rw [DumpOptions.run_writeEntity] at hrun
  rcases hmade : u.createDirectories (o.directoryOf file) with ⟨outcome, w⟩
  have hw : Added o format t w done := h.grow (FileTree.keeps_of_createDirectories hmade)
    fun _ _ => FileTree.directory_of_createDirectories hmade
  rw [hmade] at hrun
  cases outcome with
  | error cause =>
    obtain ⟨rfl, rfl⟩ := Prod.mk.inj hrun
    exact .inr ⟨_, rfl, hw, fun _ => .uncreated⟩
  | ok =>
    simp only [hkeep, Bool.not_false, Bool.true_and] at hrun
    split_ifs at hrun with hexists
    · obtain ⟨rfl, rfl⟩ := Prod.mk.inj hrun
      exact .inr ⟨_, rfl, hw, fun _ => .occupied ((hw.exists?_iff file).mp hexists)⟩
    cases hwrite : w.writeFile (o.pathOf file) (format.write file.content) with
    | error cause =>
      rw [hwrite] at hrun
      obtain ⟨rfl, rfl⟩ := Prod.mk.inj hrun
      exact .inr ⟨_, rfl, hw, fun _ => .unwritten (mt (hw.exists?_iff file).mpr hexists)⟩
    | ok x =>
      rw [hwrite] at hrun
      obtain ⟨rfl, rfl⟩ := Prod.mk.inj hrun
      obtain ⟨place, hplace, -, rfl⟩ := FileTree.exists_of_writeFile hwrite
      have hfree : w.node? place = none := by
        by_contra hnode
        exact hexists (FileTree.exists?_eq_true_iff.mpr ⟨place, hplace, hnode⟩)
      exact .inl ⟨rfl, hw.put hplace hfree⟩

/-- **Several files are added**, one after the other, until the dump ends. -/
theorem run (h : Added o format t u done) (hkeep : o.overwrite = false)
    {result : Except FilesError (List String)}
    (hrun : (files.mapM (o.writeEntity format)).run.run u = (result, v)) :
    ∃ more left, files = more ++ left ∧ Added o format t v (done ++ more) ∧
      DumpEnd o t v (done ++ more) left (result.map (done.map o.pathOf ++ ·)) := by
  induction files generalizing u done result with
  | nil =>
    obtain ⟨rfl, rfl⟩ := Prod.mk.inj hrun
    refine ⟨[], [], rfl, by rwa [List.append_nil], ?_⟩
    have hfinished : DumpEnd o t u done [] (.ok (done.map o.pathOf)) := .finished
    simpa [Except.map] using hfinished
  | cons file files ih =>
    rcases hfirst : (o.writeEntity format file).run.run u with ⟨outcome, w⟩
    obtain ⟨rfl, hw⟩ | ⟨cause, rfl, hw, hend⟩ := h.step hkeep hfirst
    · rcases hrest : (files.mapM (o.writeEntity format)).run.run w with ⟨result', v'⟩
      rw [o.run_cons format file files hfirst hrest] at hrun
      obtain ⟨rfl, rfl⟩ := Prod.mk.inj hrun
      obtain ⟨more, left, rfl, hmore, hend⟩ := ih hw hrest
      refine ⟨file :: more, left, rfl, by rwa [List.append_cons], ?_⟩
      rw [List.append_cons]
      cases result' with
      | error cause => exact hend
      | ok paths => simpa [Except.map] using hend
    · rw [List.mapM_cons, Filing.run_bind_error hfirst] at hrun
      obtain ⟨rfl, rfl⟩ := Prod.mk.inj hrun
      exact ⟨[], file :: files, rfl, by rwa [List.append_nil], by
        rw [List.append_nil]
        exact hend files⟩

end Added

/-- **A dump without replacement only adds files**, whatever comes out of it. Nothing that was there
changes. The new files are those of a first part of the wanted entities, kind after kind, each in
its own free place and with its own text; and the dump ends with the whole list, or at the first
entity that it could not write. -/
theorem dump_adds {s : Snapshot} {result : Except FilesError (List String)}
    (hkeep : o.overwrite = false) (hrun : (o.dump format s).run.run t = (result, u)) :
    ∃ done left,
      (EntityKind.all.flatMap fun kind => (o.selected s kind).map kind.file) = done ++ left ∧
      t.Keeps u ∧
      (∀ file ∈ done, ∃ place, u.locate (o.pathOf file) = .ok place) ∧
      (∀ place content, t.node? place = none ∧ u.node? place = some (.file content) ↔
        ∃ file ∈ done, u.locate (o.pathOf file) = .ok place ∧
          content = some (format.write file.content)) ∧
      (∀ before file after, done = before ++ file :: after → ¬ o.Occupied t u before file) ∧
      DumpEnd o t u done left result := by
  obtain ⟨done, left, hfiles, hadded, hend⟩ := (Added.refl t).run hkeep hrun
  rw [o.files_eq] at hfiles
  refine ⟨done, left, hfiles, hadded.keeps, fun file hfile => ?_, hadded.created_iff,
    fun before file after hdone => ?_, ?_⟩
  · obtain ⟨place, hplace, -⟩ := hadded.located file hfile
    exact ⟨place, hplace⟩
  · exact Added.not_occupied (hdone ▸ hadded)
  · cases result <;> exact hend

end

/-- A table whose file is the one of a view: the dump ends before the view. -/
theorem dump_adds_colliding :
    let o : DumpOptions := { root := "out" }
    let s : Snapshot :=
      { tables := ⟨[.sample "events", .sample "../views/daily"], by decide⟩
        views := ⟨[{ name := "daily", selectQuery := "SELECT 1" }], by decide⟩ }
    let t : FileTree :=
      { nodes := [(["out"], .directory), (["out", "views"], .directory),
          (["out", "views", "notes.yaml"], .file none)] }
    ∃ u, (o.dump Yaml.format s).run.run t = (.error (.alreadyExists "out/views/daily.yaml"), u) ∧
      ∃ done left,
        (EntityKind.all.flatMap fun kind => (o.selected s kind).map kind.file) = done ++ left ∧
        t.Keeps u ∧
        (∀ file ∈ done, ∃ place, u.locate (o.pathOf file) = .ok place) ∧
        (∀ place content, t.node? place = none ∧ u.node? place = some (.file content) ↔
          ∃ file ∈ done, u.locate (o.pathOf file) = .ok place ∧
            content = some (Yaml.format.write file.content)) ∧
        (∀ before file after, done = before ++ file :: after → ¬ o.Occupied t u before file) ∧
        DumpEnd o t u done left (.error (.alreadyExists "out/views/daily.yaml")) := by
  intro o s t
  have hresult : ((o.dump Yaml.format s).run.run t).1 =
      .error (.alreadyExists "out/views/daily.yaml") := by
    decide +kernel
  obtain ⟨u, hrun⟩ : ∃ u, (o.dump Yaml.format s).run.run t =
      (.error (.alreadyExists "out/views/daily.yaml"), u) :=
    ⟨_, Prod.ext hresult rfl⟩
  exact ⟨u, hrun, dump_adds rfl hrun⟩

end SchemaPlan
