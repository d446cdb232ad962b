import SchemaPlan.Proofs.IntrospectedTables
import SchemaPlan.Proofs.OrderedDifference

/-!
# Targets of a plan

What a plan from an introspection does to the tables that exist. It drops and alters only tables
that were read, and alters them only where the columns that were reported call for it.

* `Change.Justified`: a change of the table of a row, and what speaks for it.
* `Introspected.justified`: every difference is a creation or is justified by a row.
* **`introspect_diff_targets`**: the plans from an introspection keep to manageable rows.
-/

namespace SchemaPlan

/-- A change of the table of a row: the desired side lacks the table, the reported columns lack the
column to add, or have the column to drop. -/
inductive Change.Justified (desired : Snapshot) (row : TableRow) (columns : List ColumnRow) :
    Change → Prop
  | dropTable (unwanted : row.name ∉ desired.tables.names) :
      Justified desired row columns (.dropTable row.qualifiedName)
  | addColumn {column : Column} (absent : column.name ∉ columns.map (·.name)) :
      Justified desired row columns (.addColumn row.qualifiedName column)
  | dropColumn {column : String} (present : column ∈ columns.map (·.name)) :
      Justified desired row columns (.dropColumn row.qualifiedName column)

theorem Change.Justified.target_eq {desired : Snapshot} {row : TableRow}
    {columns : List ColumnRow} {change : Change} (h : change.Justified desired row columns) :
    change.target = row.qualifiedName := by
  cases h <;> rfl

variable {source : CatalogSource} {filter : Filter} {rows : List TableRow} {snapshot : Snapshot}
  {asked : List Query} {desired : Snapshot} {action : Action}

theorem Introspected.justified (h : Introspected source filter rows snapshot asked)
    (hdifference : Plan.Difference desired snapshot action) :
    (∃ table, action.change = .createTable table) ∨ ∃ row ∈ rows, row.Manageable filter ∧
      ∃ columns, source.Answered asked (.columns row.database row.name) columns ∧
        action.change.Justified desired row columns := by
  cases hdifference with
  | create => exact .inl ⟨_, rfl⟩
  | @drop live hlive hunwanted =>
    obtain ⟨row, hrow, hmanageable, hreads⟩ := h.exists_row hlive
    obtain ⟨columns, hcolumns, _⟩ := hreads.exists_columns
    refine .inr ⟨row, hrow, hmanageable, columns, hcolumns, ?_⟩
    rw [Plan.dropAction, hreads.qualifiedName_eq]
    exact .dropTable (hreads.name_eq ▸ hunwanted)
  | @addColumn wanted live column _ hlive _ _ habsent =>
    obtain ⟨row, hrow, hmanageable, hreads⟩ := h.exists_row hlive
    obtain ⟨columns, hcolumns, hnames⟩ := hreads.exists_columns
    refine .inr ⟨row, hrow, hmanageable, columns, hcolumns, ?_⟩
    rw [Plan.addColumnAction, hreads.qualifiedName_eq]
    exact .addColumn (hnames ▸ habsent)
  | @dropColumn wanted live column _ hlive _ hpresent _ =>
    obtain ⟨row, hrow, hmanageable, hreads⟩ := h.exists_row hlive
    obtain ⟨columns, hcolumns, hnames⟩ := hreads.exists_columns
    refine .inr ⟨row, hrow, hmanageable, columns, hcolumns, ?_⟩
    rw [Plan.dropColumnAction, hreads.qualifiedName_eq]
    exact .dropColumn (hnames ▸ hpresent)

theorem TableRow.eq_of_qualifiedName_eq {a b : TableRow}
    (hd : (rows.map fun row => (row.database, row.name)).Nodup) (ha : a ∈ rows) (hb : b ∈ rows)
    (h : a.qualifiedName = b.qualifiedName) : a = b := by
  refine List.inj_on_of_nodup_map hd ha hb ?_
  rw [qualifiedName, qualifiedName, QualifiedName.mk.injEq, Option.some.injEq] at h
  exact Prod.ext h.1 h.2

/-- **A plan from an introspection keeps to the tables that were read.** Every action other than a
creation aims at the table of a manageable row and is justified by what the desired side lacks and
by the columns that were reported for the table, which were asked for once. If no two rows are
about one table, the tables of rows that are out of reach are left alone. -/
theorem introspect_diff_targets {found : Introspection}
    (h : introspect source filter = (.ok found, asked)) (desired : Snapshot) :
    ∃ rows, source.ask [] .tables = .ok rows ∧ asked.Nodup ∧
      (∀ action ∈ Plan.diff desired found.snapshot,
        (∃ table, action.change = .createTable table) ∨ ∃ row ∈ rows, row.Manageable filter ∧
          ∃ columns, source.Answered asked (.columns row.database row.name) columns ∧
            action.change.Justified desired row columns) ∧
      ((rows.map fun row => (row.database, row.name)).Nodup →
        ∀ row ∈ rows, row.OutOfReach filter → ∀ action ∈ Plan.diff desired found.snapshot,
          action.change.target = row.qualifiedName →
            ∃ table, action.change = .createTable table) := by
  obtain ⟨rows, hintrospected⟩ := introspected_of_introspect h
  have hjustified := fun action (haction : action ∈ Plan.diff desired found.snapshot) =>
    hintrospected.justified (Plan.mem_diff_iff.mp haction)
  refine ⟨rows, hintrospected.listed, hintrospected.asked_nodup, hjustified,
    fun hd row hrow hout action haction htarget => ?_⟩
  rcases hjustified action haction with hcreate | ⟨other, hother, hmanageable, _, _, hchange⟩
  · exact hcreate
  · have hsame : other = row := TableRow.eq_of_qualifiedName_eq hd hother hrow
      (hchange.target_eq.symm.trans htarget)
    exact absurd (hsame ▸ hmanageable) (TableRow.outOfReach_iff.mp hout)

/-- A column to add and one to drop, beside a view and a table of the server. -/
theorem introspect_diff_targets_events :
    let catalog : Catalog :=
      { tables :=
          [{ database := "main", name := "events", engine := "MergeTree",
             engineFull := "MergeTree ORDER BY id", sortingKey := "id" },
            { database := "other", name := "daily", engine := "View", asSelect := "SELECT 1" },
            { database := "system", name := "parts", engine := "MergeTree",
              engineFull := "MergeTree ORDER BY id", sortingKey := "id" }]
        columns :=
          [{ database := "main", table := "events", name := "id", type := "UInt64" },
            { database := "main", table := "events", name := "old", type := "String" }] }
    let desired : Snapshot :=
      { tables :=
          { entries := [{
              name := "events"
              columns :=
                [{ name := "id", type := "UInt64" }, { name := "ts", type := "DateTime" }]
              engine := .mergeTree }] } }
    ∃ found asked, introspect catalog.source (.only "main") = (.ok found, asked) ∧
      (Plan.diff desired found.snapshot).map (·.change) =
        [.addColumn ⟨some "main", "events"⟩ { name := "ts", type := "DateTime" },
          .dropColumn ⟨some "main", "events"⟩ "old"] ∧
      ∃ rows, catalog.source.ask [] .tables = .ok rows ∧ asked.Nodup ∧
        (∀ action ∈ Plan.diff desired found.snapshot,
          (∃ table, action.change = .createTable table) ∨
            ∃ row ∈ rows, row.Manageable (.only "main") ∧ ∃ columns,
              catalog.source.Answered asked (.columns row.database row.name) columns ∧
                action.change.Justified desired row columns) ∧
        ((rows.map fun row => (row.database, row.name)).Nodup →
          ∀ row ∈ rows, row.OutOfReach (.only "main") →
            ∀ action ∈ Plan.diff desired found.snapshot, action.change.target = row.qualifiedName →
              ∃ table, action.change = .createTable table) := by
  intro catalog desired
  have hplan : (introspect catalog.source (.only "main")).1.toOption.map
      (fun found => (Plan.diff desired found.snapshot).map (·.change)) =
        some [.addColumn ⟨some "main", "events"⟩ { name := "ts", type := "DateTime" },
          .dropColumn ⟨some "main", "events"⟩ "old"] := by
    decide +kernel
  obtain ⟨found, asked, hrun, hdiff⟩ := exists_found hplan
  exact ⟨found, asked, hrun, hdiff, introspect_diff_targets hrun desired⟩

end SchemaPlan
