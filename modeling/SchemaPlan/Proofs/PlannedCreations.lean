import SchemaPlan.Proofs.IntrospectedTables
import SchemaPlan.Proofs.OrderedDifference

/-!
# Planned creations

Which tables a plan from an introspection creates, and when their places are free. A plan compares
names of tables that were read; a view, a dictionary or a table that cannot be read may lie where a
table is to be created, although the reason for the creation says that there is none.

* `Plan.Creates`: a plan creates a table; `Introspected.creates_iff`: which ones.
* `TableRow.Occupies`: a row lies where a table is created.
* **`introspect_diff_creates`**: what is created, and exactly when all created tables find their
  places free.
* `introspect_diff_creates_occupied`: a place that is not free.
-/

namespace SchemaPlan

/-- The plan creates the table. -/
def Plan.Creates (plan : Plan) (table : Table) : Prop :=
  ∃ action ∈ plan, action.change = .createTable table

theorem Plan.creates_diff_iff {desired current : Snapshot} {table : Table} :
    Creates (diff desired current) table ↔
      table ∈ desired.tables.entries ∧ table.name ∉ current.tables.names := by
  constructor
  · rintro ⟨action, haction, hchange⟩
    cases mem_diff_iff.mp haction with
    | create hwanted habsent =>
      cases hchange
      exact ⟨hwanted, habsent⟩
    | drop | addColumn | dropColumn => cases hchange
  · rintro ⟨hwanted, habsent⟩
    exact ⟨createAction table, mem_diff_iff.mpr (.create hwanted habsent), rfl⟩

/-- The row is one that the filter chooses, and it lies where the table is created: in the database
of the table, or in `default` if it names none. -/
structure TableRow.Occupies (filter : Filter) (row : TableRow) (table : Table) : Prop where
  chosen : filter.matchesTable row.database row.name = true
  name_eq : row.name = table.name
  database_eq : row.database = table.database.getD "default"

variable {source : CatalogSource} {filter : Filter} {rows : List TableRow} {snapshot : Snapshot}
  {asked : List Query}

/-- The tables that are created are those whose names no manageable row has. -/
theorem Introspected.creates_iff (h : Introspected source filter rows snapshot asked)
    {desired : Snapshot} {table : Table} : (Plan.diff desired snapshot).Creates table ↔
      table ∈ desired.tables.entries ∧
        ∀ row ∈ rows, row.Manageable filter → row.name ≠ table.name := by
  rw [Plan.creates_diff_iff, h.mem_names_iff]
  push Not
  rfl

/-- **What a plan from an introspection creates.** It creates the desired tables whose names no
manageable row has. Each of them finds its place free exactly when every desired table whose place
is occupied has the name of a manageable row. -/
theorem introspect_diff_creates {found : Introspection}
    (h : introspect source filter = (.ok found, asked)) (desired : Snapshot) :
    ∃ rows, source.ask [] .tables = .ok rows ∧
      (∀ table, (Plan.diff desired found.snapshot).Creates table ↔
        table ∈ desired.tables.entries ∧
          ∀ row ∈ rows, row.Manageable filter → row.name ≠ table.name) ∧
      ((∀ table, (Plan.diff desired found.snapshot).Creates table →
          ∀ row ∈ rows, ¬ row.Occupies filter table) ↔
        ∀ table ∈ desired.tables.entries, ∀ row ∈ rows, row.Occupies filter table →
          ∃ other ∈ rows, other.Manageable filter ∧ other.name = table.name) := by
  obtain ⟨rows, hintrospected⟩ := introspected_of_introspect h
  refine ⟨rows, hintrospected.listed, fun table => hintrospected.creates_iff, ?_, ?_⟩
  · intro hfree table htable row hrow hoccupies
    by_contra hnone
    refine hfree table (hintrospected.creates_iff.mpr ⟨htable, ?_⟩) row hrow hoccupies
    intro other hother hmanageable hname
    exact hnone ⟨other, hother, hmanageable, hname⟩
  · intro hread table hcreates row hrow hoccupies
    obtain ⟨htable, habsent⟩ := hintrospected.creates_iff.mp hcreates
    obtain ⟨other, hother, hmanageable, hname⟩ := hread table htable row hrow hoccupies
    exact habsent other hother hmanageable hname

/-- Of two desired tables one is there and one is created. -/
theorem introspect_diff_creates_daily :
    let catalog : Catalog :=
      { tables :=
          [{ database := "default", name := "events", engine := "MergeTree",
             engineFull := "MergeTree ORDER BY id", sortingKey := "id" }]
        columns := [{ database := "default", table := "events", name := "id", type := "UInt64" }] }
    let desired : Snapshot :=
      { tables := ⟨[.sample "events", .sample "daily"], by decide⟩ }
    ∃ found asked, introspect catalog.source {} = (.ok found, asked) ∧
      Plan.diff desired found.snapshot = [Plan.createAction (.sample "daily")] ∧
      ∃ rows, catalog.source.ask [] .tables = .ok rows ∧
        (∀ table, (Plan.diff desired found.snapshot).Creates table ↔
          table ∈ desired.tables.entries ∧
            ∀ row ∈ rows, row.Manageable {} → row.name ≠ table.name) ∧
        ((∀ table, (Plan.diff desired found.snapshot).Creates table →
            ∀ row ∈ rows, ¬ row.Occupies {} table) ↔
          ∀ table ∈ desired.tables.entries, ∀ row ∈ rows, row.Occupies {} table →
            ∃ other ∈ rows, other.Manageable {} ∧ other.name = table.name) := by
  intro catalog desired
  have hplan : (introspect catalog.source {}).1.toOption.map
      (fun found => Plan.diff desired found.snapshot) =
        some [Plan.createAction (.sample "daily")] := by
    decide +kernel
  obtain ⟨found, asked, hrun, hdiff⟩ := exists_found hplan
  exact ⟨found, asked, hrun, hdiff, introspect_diff_creates hrun desired⟩

/-- **A table is created where one lies that cannot be read**: its engine has an argument more than
can be read. -/
theorem introspect_diff_creates_occupied :
    let row : TableRow :=
      { database := "default", name := "events", engine := "ReplacingMergeTree"
        engineFull := "ReplacingMergeTree(ver, is_deleted) ORDER BY id", sortingKey := "id" }
    let catalog : Catalog :=
      { tables := [row]
        columns :=
          [{ database := "default", table := "events", name := "id", type := "UInt64" },
            { database := "default", table := "events", name := "ver", type := "UInt64" },
            { database := "default", table := "events", name := "is_deleted", type := "UInt8" }] }
    let table : Table :=
      { name := "events"
        columns :=
          [{ name := "id", type := "UInt64" }, { name := "ver", type := "UInt64" },
            { name := "is_deleted", type := "UInt8" }]
        orderBy := ["id"]
        engine := .replacingMergeTree (some "ver") }
    ∃ found asked, introspect catalog.source {} = (.ok found, asked) ∧
      Plan.diff { tables := { entries := [table] } } found.snapshot = [Plan.createAction table] ∧
      (Plan.createAction table).reason =
        "Table events is defined in schema but does not exist in the database." ∧
      catalog.source.ask [] .tables = .ok [row] ∧ row.Occupies {} table := by
  intro row catalog table
  have hplan : (introspect catalog.source {}).1.toOption.map
      (fun found => Plan.diff { tables := { entries := [table] } } found.snapshot) =
        some [Plan.createAction table] := by
    decide +kernel
  obtain ⟨found, asked, hrun, hdiff⟩ := exists_found hplan
  exact ⟨found, asked, hrun, hdiff, by decide, rfl, by decide, rfl, rfl⟩

end SchemaPlan
