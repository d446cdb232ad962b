import SchemaPlan.Command.Run
import SchemaPlan.Proofs.DumpSuccess
import SchemaPlan.Proofs.IntrospectedTables
import SchemaPlan.Proofs.IntrospectionSteps
import SchemaPlan.Proofs.RowOrder
import SchemaPlan.Proofs.SchemaFilesRoundTrip

/-!
# Dumped catalogs are up to date

A catalog that is dumped and then planned against the dumped files gives nothing to do.

* `FileTree.Keeps.readCatalog`: the catalog is still there.
* `SharedOptions.run_introspect_eq_ok_iff`: what a command finds in its catalog.
* `SharedOptions.database_of_introspect`: the filter of an introspection and the databases of its
  tables; `SharedOptions.selected_tables`: a dump wants all of them.
* `DumpOptions.load_of_dump`: the files of a dump that succeeded are loaded again.
* `Invocation.run_runDump_eq_ok_iff`, `Invocation.run_runPlan_of_diff`: what the two commands do;
  `exists_run_of_exitCode`: that a command exits with zero means that it ended well.
* **`plan_after_dump`**: the two command lines.
-/

namespace SchemaPlan

/-! ## What stays in a tree that grows -/

namespace FileTree.Keeps

variable {t u : FileTree} {path : String}

theorem readCatalog {format : TextFormat} {catalog : Catalog} (h : t.Keeps u)
    (hread : t.readCatalog format path = .ok catalog) :
    u.readCatalog format path = .ok catalog := h.readValue hread

end FileTree.Keeps

/-! ## Commands at work -/

theorem Running.run_lift {ε α : Type} (onError : ε → CommandError) (r : Except ε α)
    (t : FileTree) : (Running.lift onError r).run.run t = (r.mapError onError, t) := by
  cases r <;> rfl

theorem Running.run_lift_eq_ok_iff {ε α : Type} {onError : ε → CommandError} {r : Except ε α}
    {t u : FileTree} {a : α} :
    (Running.lift onError r).run.run t = (.ok a, u) ↔ r = .ok a ∧ u = t := by
  cases r with
  | error cause => exact iff_of_false (by rw [run_lift]; rintro ⟨⟩) (by rintro ⟨⟨⟩, _⟩)
  | ok b =>
    rw [run_lift]
    constructor
    · rintro ⟨⟩
      exact ⟨rfl, rfl⟩
    · rintro ⟨⟨⟩, rfl⟩
      rfl

theorem Filing.run_adapt_eq_ok_iff {ε ε' α : Type} {f : ε → ε'} {m : Filing ε α} {t u : FileTree}
    {a : α} : (ExceptT.adapt f m).run.run t = (.ok a, u) ↔ m.run.run t = (.ok a, u) := by
  have hrun : (ExceptT.adapt f m).run.run t = ((m.run.run t).1.mapError f, (m.run.run t).2) := rfl
  rw [hrun]
  rcases m.run.run t with ⟨cause | b, v⟩
  · exact iff_of_false (by rintro ⟨⟩) (by rintro ⟨⟩)
  · constructor <;>
      · rintro ⟨⟩
        rfl

namespace SharedOptions

variable {o : SharedOptions} {format : TextFormat} {t u : FileTree} {found : Introspection}

theorem run_openCatalog_eq_ok_iff {catalog : Catalog} :
    (o.openCatalog format).run.run t = (.ok catalog, u) ↔
      u = t ∧ ∃ path, o.catalog = some path ∧ t.readCatalog format path = .ok catalog := by
  unfold openCatalog
  cases o.catalog with
  | none => exact iff_of_false (by rintro ⟨⟩) (by rintro ⟨_, _, ⟨⟩, _⟩)
  | some path =>
    have hlift : (Running.lift CommandError.catalog (t.readCatalog format path)).run.run t =
        (.ok catalog, u) ↔ t.readCatalog format path = .ok catalog ∧ u = t :=
      Running.run_lift_eq_ok_iff
    refine hlift.trans ⟨fun ⟨hread, htree⟩ => ⟨htree, path, rfl, hread⟩, ?_⟩
    rintro ⟨htree, _, ⟨⟩, hread⟩
    exact ⟨hread, htree⟩

/-- What a command finds in its catalog. -/
theorem run_introspect_eq_ok_iff : (o.introspect format).run.run t = (.ok found, u) ↔
    u = t ∧ ∃ path catalog asked, o.catalog = some path ∧
      t.readCatalog format path = .ok catalog ∧
      SchemaPlan.introspect catalog.source o.filter = (.ok found, asked) := by
  unfold introspect
  rw [Filing.run_bind_eq_ok_iff]
  constructor
  · rintro ⟨catalog, v, hopen, hfound⟩
    obtain ⟨rfl, path, hpath, hread⟩ := run_openCatalog_eq_ok_iff.mp hopen
    obtain ⟨hresult, rfl⟩ := Running.run_lift_eq_ok_iff.mp hfound
    exact ⟨rfl, path, catalog, _, hpath, hread, Prod.ext hresult rfl⟩
  · rintro ⟨rfl, path, catalog, asked, hpath, hread, hfound⟩
    exact ⟨catalog, u, run_openCatalog_eq_ok_iff.mpr ⟨rfl, path, hpath, hread⟩,
      Running.run_lift_eq_ok_iff.mpr ⟨congrArg Prod.fst hfound, rfl⟩⟩

theorem run_introspect_of_keeps {v : FileTree} {o' : SharedOptions} (hkeeps : t.Keeps v)
    (hcatalog : o'.catalog = o.catalog) (hdatabase : o'.database = o.database)
    (h : (o.introspect format).run.run t = (.ok found, u)) :
    (o'.introspect format).run.run v = (.ok found, v) := by
  obtain ⟨-, path, catalog, asked, hpath, hread, hfound⟩ := run_introspect_eq_ok_iff.mp h
  have hfilter : o'.filter = o.filter := by rw [filter, hdatabase, filter]
  exact run_introspect_eq_ok_iff.mpr ⟨rfl, path, catalog, asked, hcatalog.trans hpath,
    hkeeps.readCatalog hread, hfilter ▸ hfound⟩

/-- **The filter of an introspection draws the line of the dump**: every table has a database, the
wanted one if one is wanted. -/
theorem database_of_introspect (h : (o.introspect format).run.run t = (.ok found, u))
    {table : Table} (htable : table ∈ found.snapshot.tables.entries) :
    ∃ database, table.database = some database ∧ ∀ wanted ∈ o.database, database = wanted := by
  obtain ⟨-, _, catalog, asked, -, -, hfound⟩ := run_introspect_eq_ok_iff.mp h
  obtain ⟨rows, hrows⟩ := introspected_of_introspect hfound
  obtain ⟨row, -, hmanageable, hreads⟩ := hrows.exists_row htable
  refine ⟨row.database, ?_, fun wanted hwanted => ?_⟩
  · exact congrArg QualifiedName.database hreads.qualifiedName_eq
  · have hchosen := hmanageable.chosen
    rw [filter, Option.mem_def.mp hwanted] at hchosen
    simp only [Filter.only, Filter.matchesTable, Bool.and_eq_true] at hchosen
    simpa using hchosen.1.2

end SharedOptions

/-! ## Loading what was dumped -/

/-- Files and their format lose nothing of what a dump writes: the output directory is there or can
be created, the names and paths of the directories in it are not too long, and what is written for
an entity is read as what was written. -/
structure FileTree.Faithful (t : FileTree) (format : TextFormat) (o : DumpOptions)
    (s : Snapshot) : Prop where
  wellFormed : t.WellFormed
  root : (t.createDirectories o.root).1 = .ok ()
  directories : ∀ kind : EntityKind, kind.directory.utf8ByteSize ≤ t.nameLimit ∧
    (joinPath o.root kind.directory).utf8ByteSize ≤ t.pathLimit
  texts : ∀ kind, ∀ x ∈ o.selected s kind, format.Preserves (kind.encode x)

namespace DumpOptions

variable {o : DumpOptions} {format : TextFormat} {s : Snapshot} {t u : FileTree}
  {paths : List String}

/-- **The files of a dump that succeeded are loaded again.** -/
theorem load_of_dump (hfaithful : t.Faithful format o s) (hempty : t.HoldsNoFiles o.root)
    (hnames : ∀ kind, ∀ x ∈ o.selected s kind, IsPlainName (Entity.name x))
    (h : (o.dump format s).run.run t = (.ok paths, u)) :
    t.Keeps u ∧ ∃ loaded, u.loadSchema format o.root = .ok loaded ∧
      ∀ kind, (loaded.collection kind).entries.Perm (o.selected s kind) := by
  have hroot : t.createDirectories o.root = (.ok (), (t.createDirectories o.root).2) :=
    Prod.ext hfaithful.root rfl
  have hdirectory (kind : EntityKind) :
      t.allowsName kind.directory = true ∧ t.Usable (joinPath o.root kind.directory) :=
    FileTree.usable_directory hfaithful.root (hfaithful.directories kind)
  have hslashless : ∀ file ∈ o.files s, '/' ∉ file.name.toList := fun file hfile => by
    obtain ⟨kind, x, hx, rfl⟩ := mem_files_iff.mp hfile
    exact (hnames kind x hx).slashless
  obtain ⟨hwritten, hopens, hstorable⟩ :=
    written_of_dump hfaithful.wellFormed hroot hempty hdirectory hslashless h
  have hload (kind : EntityKind) : ∃ c : Collection kind.Member,
      u.loadKind format kind.decoder o.root = .ok c ∧ c.entries = o.sorted s kind :=
    hwritten.loadKind_eq hempty
      (fun x hx => hstorable _ (mem_files_iff.mpr ⟨kind, x, hx, rfl⟩))
      (fun x hx => (hnames kind x hx).nonempty) (hfaithful.texts kind)
      (hwritten.creatable hempty hfaithful.wellFormed hroot hopens (hdirectory kind).1
        (hdirectory kind).2)
  obtain ⟨loaded, hloaded, hentries⟩ := loadSchema_eq hload
  exact ⟨hwritten.keeps, loaded, hloaded, fun kind => hentries kind ▸ o.sorted_perm s kind⟩

end DumpOptions

/-! ## The two commands -/

section Commands

variable {format : TextFormat} {o o' : SharedOptions} {t u : FileTree} {found : Introspection}

theorem Collection.resolveDatabase_eq_self {c : Collection Table} (database : String)
    (h : ∀ table ∈ c.entries, ∃ named, table.database = some named) :
    c.resolveDatabase database = c := by
  refine Collection.ext ((List.map_congr_left fun table htable => ?_).trans (List.map_id _))
  obtain ⟨named, hnamed⟩ := h table htable
  change { table with database := table.database.or (some database) } = table
  rw [hnamed, Option.some_or, ← hnamed]

/-- The schema that a plan is about has the tables of the files, if they name their databases. -/
theorem SharedOptions.exists_desired {loaded : Snapshot}
    (h : u.loadSchema format o.schemaDirectory = .ok loaded)
    (hnamed : ∀ table ∈ loaded.tables.entries, ∃ named, table.database = some named) :
    ∃ desired : Snapshot, (o.loadSchema format).run.run u = (.ok desired, u) ∧
      desired.tables = loaded.tables := by
  have hlift : (Running.lift CommandError.load
      (u.loadSchema format o.schemaDirectory)).run.run u = (.ok loaded, u) :=
    Running.run_lift_eq_ok_iff.mpr ⟨h, rfl⟩
  have hget : (getThe FileTree : Running FileTree).run.run u = (.ok u, u) := rfl
  unfold SharedOptions.loadSchema
  rw [Filing.run_bind_ok hget, Filing.run_bind_ok hlift]
  cases o.database with
  | none => exact ⟨loaded, rfl, rfl⟩
  | some database =>
    exact ⟨loaded.resolveDatabase database, rfl,
      Collection.resolveDatabase_eq_self database hnamed⟩

theorem DumpOptions.selected_tables {options : DumpOptions}
    (hdatabase : options.database = o.database)
    (h : (o.introspect format).run.run t = (.ok found, u)) :
    options.selected found.snapshot .table = found.snapshot.tables.entries := by
  refine List.filter_eq_self.mpr fun table htable => ?_
  obtain ⟨database, hnamed, hwanted⟩ := SharedOptions.database_of_introspect h htable
  refine decide_eq_true ⟨fun _ => rfl, fun wanted hmem database' hdatabase' => ?_⟩
  rw [← hwanted wanted (hdatabase ▸ hmem)]
  have hsome : some database' = some database := (Option.mem_def.mp hdatabase').symm.trans hnamed
  exact Option.some.inj hsome

/-- A dump command that finds its catalog writes what was found. -/
theorem Invocation.run_runDump_eq_ok_iff {outputDirectory : Option String}
    {tablesOnly overwrite : Bool} {text : String}
    (hfound : (o.introspect format).run.run t = (.ok found, t)) :
    (runDump o format outputDirectory tablesOnly overwrite).run.run t = (.ok text, u) ↔
      ∃ paths, (DumpOptions.dump ⟨outputDirectory.getD o.schemaDirectory, o.database, tablesOnly,
          overwrite⟩ format found.snapshot).run.run t = (.ok paths, u) ∧
        text = "Wrote " ++ toString paths.length ++ " file(s)\n" ++ found.statistics.text := by
  unfold runDump
  rw [Filing.run_bind_ok hfound]
  constructor
  · intro h
    obtain ⟨paths, v, hdump, hreturn⟩ := Filing.run_bind_eq_ok_iff.mp h
    obtain ⟨htext, rfl⟩ := Prod.mk.inj hreturn
    exact ⟨paths, Filing.run_adapt_eq_ok_iff.mp hdump, (Except.ok.inj htext).symm⟩
  · rintro ⟨paths, hdump, rfl⟩
    exact Filing.run_bind_eq_ok_iff.mpr ⟨paths, u, Filing.run_adapt_eq_ok_iff.mpr hdump, rfl⟩

/-- What a plan shows when there is nothing to do. -/
def Plan.nothingText (apply : Bool) : String :=
  "--- Execution Plan ---\nNo changes detected. The schema is up-to-date.\n" ++
    if apply then "\nApplied 0 statement(s).\n" else ""

theorem Plan.fullReport_nil (withScript apply : Bool) :
    Plan.fullReport withScript apply [] = .ok (nothingText apply) := by
  cases withScript <;> cases apply <;> decide +kernel

theorem Invocation.run_runPlan_of_diff {desired : Snapshot}
    (hdesired : (o.loadSchema format).run.run t = (.ok desired, t))
    (hcurrent : (o.introspect format).run.run t = (.ok found, t))
    (hnothing : Plan.diff desired found.snapshot = []) (withScript apply : Bool) :
    (runPlan o format none withScript apply).run.run t = (.ok (Plan.nothingText apply), t) := by
  have hreport : (Running.lift CommandError.execution
      (Plan.fullReport withScript apply [])).run.run t = (.ok (Plan.nothingText apply), t) :=
    Running.run_lift_eq_ok_iff.mpr ⟨Plan.fullReport_nil withScript apply, rfl⟩
  unfold runPlan
  rw [Filing.run_bind_ok hdesired, Filing.run_bind_ok hcurrent, hnothing,
    Filing.run_bind_ok hreport]
  rfl

theorem runCommandLine_eq_finished {env : Environment} {arguments : List String} {i : Invocation}
    {text : String} (hparse : Invocation.parse env arguments = .ok i)
    (h : (i.run format).run.run t = (.ok text, u)) :
    runCommandLine format env arguments t = (.finished text, u) := by
  simp only [runCommandLine, hparse, h]

theorem exists_run_of_exitCode {env : Environment} {arguments : List String} {i : Invocation}
    {outcome : Outcome} (hparse : Invocation.parse env arguments = .ok i)
    (hrun : runCommandLine format env arguments t = (outcome, u)) (hexit : outcome.exitCode = 0) :
    ∃ text, (i.run format).run.run t = (.ok text, u) := by
  rw [runCommandLine, hparse] at hrun
  dsimp only at hrun
  split at hrun
  · rename_i text v htext
    obtain ⟨-, rfl⟩ := Prod.mk.inj hrun
    exact ⟨text, htext⟩
  · rename_i cause v hfailed
    obtain ⟨rfl, -⟩ := Prod.mk.inj hrun
    cases cause <;> cases hexit

/-- A plan of a command line finds nothing to do. -/
structure PlansNothing (format : TextFormat) (env : Environment) (arguments : List String)
    (o : SharedOptions) (apply : Bool) (t : FileTree) : Prop where
  /-- The plan that it computes is empty, -/
  empty : ∃ desired current, (o.loadSchema format).run.run t = (.ok desired, t) ∧
    (o.introspect format).run.run t = (.ok current, t) ∧ Plan.diff desired current.snapshot = []
  /-- it says so and changes no file, -/
  prints : runCommandLine format env arguments t = (.finished (Plan.nothingText apply), t)
  /-- and it exits with zero. -/
  exits : (runCommandLine format env arguments t).1.exitCode = 0

/-- **A catalog that was dumped is up to date with the dumped files.** -/
theorem plan_after_dump {env env' : Environment} {arguments arguments' : List String}
    {outputDirectory : Option String} {tablesOnly overwrite withScript apply : Bool}
    {outcome : Outcome}
    (hdump : Invocation.parse env arguments = .ok ⟨o, .dump outputDirectory tablesOnly overwrite⟩)
    (hplan : Invocation.parse env' arguments' = .ok ⟨o', .plan none withScript apply⟩)
    (hcatalog : o'.catalog = o.catalog) (hdatabase : o'.database = o.database)
    (hdirectory : o'.schemaDirectory = outputDirectory.getD o.schemaDirectory)
    (hrun : runCommandLine format env arguments t = (outcome, u)) (hexit : outcome.exitCode = 0)
    (hempty : t.HoldsNoFiles o'.schemaDirectory)
    (hfound : (o.introspect format).run.run t = (.ok found, t))
    (hfaithful : t.Faithful format ⟨o'.schemaDirectory, o.database, tablesOnly, overwrite⟩
      found.snapshot)
    (hnames : ∀ kind, ∀ x ∈ DumpOptions.selected
        ⟨o'.schemaDirectory, o.database, tablesOnly, overwrite⟩ found.snapshot kind,
      IsPlainName (Entity.name x)) :
    PlansNothing format env' arguments' o' apply u := by
  obtain ⟨paths, hwritten⟩ : ∃ paths, (DumpOptions.dump ⟨o'.schemaDirectory, o.database, tablesOnly,
      overwrite⟩ format found.snapshot).run.run t = (.ok paths, u) := by
    obtain ⟨text, htext⟩ := exists_run_of_exitCode hdump hrun hexit
    obtain ⟨paths, hwritten, -⟩ := (Invocation.run_runDump_eq_ok_iff hfound).mp htext
    exact ⟨paths, hdirectory ▸ hwritten⟩
  obtain ⟨hkeeps, loaded, hloaded, hperm⟩ :=
    DumpOptions.load_of_dump hfaithful hempty hnames hwritten
  have hselected := @DumpOptions.selected_tables format o t t found
    ⟨o'.schemaDirectory, o.database, tablesOnly, overwrite⟩ rfl hfound
  have htables : loaded.tables.entries.Perm found.snapshot.tables.entries :=
    hselected ▸ hperm .table
  obtain ⟨desired, hdesired, hsame⟩ := SharedOptions.exists_desired hloaded fun table htable =>
    have hnamed := SharedOptions.database_of_introspect hfound (htables.mem_iff.mp htable)
    ⟨hnamed.choose, hnamed.choose_spec.1⟩
  have hcurrent := SharedOptions.run_introspect_of_keeps hkeeps hcatalog hdatabase hfound
  have hnothing : Plan.diff desired found.snapshot = [] :=
    (Plan.diff_eq_nil_of_perm (hsame ▸ htables.symm)).1
  have hprints := runCommandLine_eq_finished hplan
    (Invocation.run_runPlan_of_diff hdesired hcurrent hnothing withScript apply)
  exact ⟨⟨desired, found, hdesired, hcurrent, hnothing⟩, hprints, by rw [hprints]; rfl⟩

/-- A table and a view, beside a table that cannot be read, one of another engine and one of
another database. -/
theorem plan_after_dump_events :
    let recorded := "tables:\n" ++
      "- database: main\n  name: buffer\n  engine: Buffer\n" ++
      "- database: main\n  name: daily\n  engine: View\n" ++
      "- database: main\n  name: events\n  engine: Log\n" ++
      "- database: main\n  name: old\n  engine: Log\n  engine_full: Log(1)\n" ++
      "- database: other\n  name: events\n  engine: Log\n"
    let t : FileTree := { nodes := [(["catalog.yaml"], .file (some recorded))] }
    let shared := ["--catalog", "catalog.yaml", "--database", "main"]
    ∃ text u,
      runCommandLine Yaml.format (fun _ => none) ("dump" :: shared) t = (.finished text, u) ∧
      u.files.map (·.1) =
        [["catalog.yaml"], ["schema", "tables", "events.yaml"], ["schema", "views", "daily.yaml"]] ∧
      PlansNothing Yaml.format (fun _ => none) ("plan" :: shared)
        { database := some "main", catalog := some "catalog.yaml" } false u := by
  intro recorded t shared
  let o : SharedOptions := { database := some "main", catalog := some "catalog.yaml" }
  let catalog : Catalog :=
    { tables :=
        [{ database := "main", name := "buffer", engine := "Buffer" },
          { database := "main", name := "daily", engine := "View" },
          { database := "main", name := "events", engine := "Log" },
          { database := "main", name := "old", engine := "Log", engineFull := "Log(1)" },
          { database := "other", name := "events", engine := "Log" }] }
  let s : Snapshot :=
    { tables := { entries := [{ name := "events", database := some "main", engine := .log }] }
      views := { entries := [{ name := "daily", database := some "main", selectQuery := "" }] } }
  have hselect : (Filter.only "main").select catalog.tables = catalog.tables.take 4 :=
    (Filter.eq_select (by decide) (.of_eq (by decide)) (by decide)).symm
  have hsnapshot :
      (introspect catalog.source (.only "main")).1.toOption.map (·.snapshot) = some s := by
    rw [introspect_eq (show catalog.source.ask [] .tables = .ok catalog.tables from rfl), hselect]
    decide +kernel
  obtain ⟨found, asked, hintrospect, hs⟩ := exists_found hsnapshot
  have hfound : (o.introspect Yaml.format).run.run t = (.ok found, t) :=
    SharedOptions.run_introspect_eq_ok_iff.mpr
      ⟨rfl, "catalog.yaml", catalog, asked, rfl, by decide +kernel, hintrospect⟩
  let options : DumpOptions := { root := "schema", database := some "main" }
  have hwritten : (options.dump Yaml.format found.snapshot).run.run t =
      (.ok ["schema/tables/events.yaml", "schema/views/daily.yaml"],
        ((options.dump Yaml.format s).run.run t).2) := by
    rw [hs]
    exact Prod.ext (by decide +kernel) rfl
  have hparse : Invocation.parse (fun _ => none) ("dump" :: shared) =
      .ok ⟨o, .dump none false false⟩ := rfl
  have hrun := runCommandLine_eq_finished hparse
    ((Invocation.run_runDump_eq_ok_iff hfound).mpr ⟨_, hwritten, rfl⟩)
  refine ⟨_, _, hrun, by decide +kernel, plan_after_dump hparse rfl rfl rfl rfl hrun rfl
    (fun entry hentry => ?_) hfound ?_ ?_⟩
  · rw [List.mem_singleton.mp hentry]
    decide
  · rw [hs]
    refine ⟨.of_nodes (by decide) rfl, by decide, fun kind => ?_, fun kind => ?_⟩
    · cases kind <;> decide
    · cases kind <;> decide +kernel
  · rw [hs]
    intro kind
    cases kind <;> decide +kernel

end Commands

end SchemaPlan
