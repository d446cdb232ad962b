import SchemaPlan.Proofs.CollectionLaws
import SchemaPlan.Proofs.Convergence
import SchemaPlan.Proofs.IntrospectionRun
import SchemaPlan.Proofs.StatementRoundTrip
import SchemaPlan.Proofs.StatisticsLaws

/-!
# Introspection of created tables

The catalog that a server reports after some tables were created, and what an introspection finds
in it: the same tables, in the order of their databases and names.

* `reportedCatalog`: the rows of some tables, an empty text standing for what is absent.
* `Table.Describable`: a table that its rows describe completely.
* `Table.content_row`, `Table.table_row`: a row is read as the table it was made from.
* `Progress.takeRows_gives`: the run over the rows of several tables.
* **`introspect_reportedCatalog`**: the whole introspection.
-/

namespace SchemaPlan

open Sql Asking

/-! ## The reported catalog -/

namespace Table

/-- The order of tables: by database, then by name. -/
def before (a b : Table) : Bool :=
  a.database.getD "" < b.database.getD "" ||
    (a.database.getD "" = b.database.getD "" && a.name ≤ b.name)

/-- The row that a server reports for a table. -/
def row (t : Table) : TableRow where
  database := t.database.getD ""
  name := t.name
  engine := t.engine.name
  engineFull := t.reportedEngine?.getD ""
  sortingKey := ", ".intercalate t.orderBy
  partitionKey := t.partitionBy.getD ""
  createTableQuery := t.createStatement

/-- The row that a server reports for a column of a table. -/
def columnRow (t : Table) (c : Column) : ColumnRow where
  database := t.database.getD ""
  table := t.name
  name := c.name
  type := c.type
  defaultExpression := c.defaultExpression.getD ""
  compressionCodec := c.codec.getD ""
  comment := c.comment.getD ""

/-- The row that a server reports for an index of a table. -/
def indexRow (t : Table) (i : Index) : IndexRow where
  database := t.database.getD ""
  table := t.name
  name := i.name
  expr := i.expression
  typeFull := i.type
  granularity := i.granularity

end Table

/-- The rows that a server reports for some tables. -/
def reportedCatalog (tables : List Table) : Catalog where
  tables := tables.map Table.row
  columns := tables.flatMap fun t => t.columns.map t.columnRow
  indexes := tables.flatMap fun t => t.indexes.map t.indexRow

/-- A table that its rows describe completely. -/
structure Table.Describable (t : Table) : Prop where
  reparsable : t.Reparsable
  database_user : ∃ d, t.database = some d ∧ d ∉ Filter.systemDatabases
  orderBy_item : ∀ key ∈ t.orderBy, key ≠ "" ∧ IsArgument key.toList
  partitionBy_stated : t.partitionBy ≠ some ""
  ttl_stated : t.ttl ≠ some ""
  columns_stated : ∀ c ∈ t.columns,
    c.defaultExpression ≠ some "" ∧ c.codec ≠ some "" ∧ c.comment ≠ some ""
  settings_kafka : t.engine.family = .kafka →
    ∀ key ∈ EngineFamily.kafkaSettings, t.settings.get? key = none

instance (t : Table) : Decidable t.Describable :=
  decidable_of_iff (t.Reparsable ∧ (∃ d ∈ t.database, d ∉ Filter.systemDatabases) ∧
      (∀ key ∈ t.orderBy, key ≠ "" ∧ IsArgument key.toList) ∧ t.partitionBy ≠ some "" ∧
      t.ttl ≠ some "" ∧
      (∀ c ∈ t.columns,
        c.defaultExpression ≠ some "" ∧ c.codec ≠ some "" ∧ c.comment ≠ some "") ∧
      (t.engine.family = .kafka →
        ∀ key ∈ EngineFamily.kafkaSettings, t.settings.get? key = none))
    ⟨fun ⟨hreparsable, hdatabase, horder, hpartition, httl, hcolumns, hkafka⟩ =>
        ⟨hreparsable, hdatabase, horder, hpartition, httl, hcolumns, hkafka⟩,
      fun h => ⟨h.reparsable, h.database_user, h.orderBy_item, h.partitionBy_stated,
        h.ttl_stated, h.columns_stated, h.settings_kafka⟩⟩

/-! ## Rows of one table -/

theorem filter_flatMap_of_nodup {ρ : Type} {tables : List Table} {f : Table → List ρ}
    {test : ρ → Bool} {t : Table} (hd : (tables.map (·.name)).Nodup) (ht : t ∈ tables)
    (hown : ∀ r ∈ f t, test r = true)
    (hother : ∀ u : Table, u.name ≠ t.name → ∀ r ∈ f u, test r = false) :
    (tables.flatMap f).filter test = f t := by
  have hnone {l : List Table} (h : ∀ u ∈ l, u.name ≠ t.name) : (l.flatMap f).filter test = [] := by
    rw [List.filter_eq_nil_iff]
    intro r hr
    obtain ⟨u, hu, hr⟩ := List.mem_flatMap.mp hr
    simp [hother u (h u hu) r hr]
  induction tables with
  | nil => cases ht
  | cons u l ih =>
    rw [List.map_cons, List.nodup_cons] at hd
    rw [List.flatMap_cons, List.filter_append]
    rcases List.mem_cons.mp ht with rfl | ht
    · rw [hnone, List.append_nil, List.filter_eq_self.mpr hown]
      intro v hv e
      exact hd.1 (List.mem_map.mpr ⟨v, hv, e⟩)
    · have hne : u.name ≠ t.name := fun e => hd.1 (List.mem_map.mpr ⟨t, ht, e.symm⟩)
      have hu : (f u).filter test = [] := by
        rw [List.filter_eq_nil_iff]
        intro r hr
        simp [hother u hne r hr]
      rw [hu, List.nil_append]
      exact ih hd.2 ht

variable {tables : List Table} {t : Table}

theorem columnsOf_reportedCatalog (hd : (tables.map (·.name)).Nodup) (ht : t ∈ tables) :
    (reportedCatalog tables).columnsOf (t.database.getD "") t.name =
      t.columns.map t.columnRow := by
  refine filter_flatMap_of_nodup hd ht (fun r hr => ?_) fun u hne r hr => ?_
  · obtain ⟨c, _, rfl⟩ := List.mem_map.mp hr
    simp [Table.columnRow]
  · obtain ⟨c, _, rfl⟩ := List.mem_map.mp hr
    simp [Table.columnRow, hne]

theorem indexesOf_reportedCatalog (hd : (tables.map (·.name)).Nodup) (ht : t ∈ tables) :
    (reportedCatalog tables).indexesOf (t.database.getD "") t.name =
      t.indexes.map t.indexRow := by
  refine filter_flatMap_of_nodup hd ht (fun r hr => ?_) fun u hne r hr => ?_
  · obtain ⟨i, _, rfl⟩ := List.mem_map.mp hr
    simp [Table.indexRow]
  · obtain ⟨i, _, rfl⟩ := List.mem_map.mp hr
    simp [Table.indexRow, hne]

/-! ## Reading rows -/

theorem stated?_getD (text : Option String) : stated? (text.getD "") = text.bind stated? := by
  cases text <;> rfl

theorem column_columnRow {c : Column}
    (h : c.defaultExpression ≠ some "" ∧ c.codec ≠ some "" ∧ c.comment ≠ some "") :
    (t.columnRow c).column = c := by
  obtain ⟨hdefault, hcodec, hcomment⟩ := h
  simp only [ColumnRow.column, Table.columnRow, stated?_getD, bind_stated?_of_ne hdefault,
    bind_stated?_of_ne hcodec, bind_stated?_of_ne hcomment]

theorem sortingKeys_intercalate {keys : List String}
    (h : ∀ key ∈ keys, key ≠ "" ∧ IsArgument key.toList) :
    sortingKeys (", ".intercalate keys) = keys := by
  rcases eq_or_ne keys [] with rfl | hne
  · rfl
  have hsplit : splitPieces ([',', ' '].intercalate (keys.map String.toList)) =
      keys.map String.toList := by
    rw [splitPieces_join (by simpa using hne), List.map_map]
    · exact List.map_congr_left fun key hkey => (h key hkey).2.trimmed
    · intro cs hcs
      obtain ⟨key, hkey, rfl⟩ := List.mem_map.mp hcs
      exact (h key hkey).2.commaless
    · intro cs hcs
      obtain ⟨key, hkey, rfl⟩ := List.mem_map.mp (List.dropLast_subset _ hcs)
      exact (h key hkey).2.balanced.run_start
  have hcomma : ", ".toList = [',', ' '] := rfl
  rw [sortingKeys, splitTopLevel, String.toList_intercalate, hcomma, hsplit, List.map_map]
  have hid : keys.map (String.ofList ∘ String.toList) = keys :=
    (List.map_congr_left fun key _ => String.ofList_toList).trans (List.map_id keys)
  rw [hid, List.filter_eq_self]
  intro key hkey
  simpa [String.isEmpty_iff] using (h key hkey).1

theorem foldl_erase_eq_self {m : Keyed String} {keys : List String}
    (h : ∀ key ∈ keys, m.get? key = none) : keys.foldl Keyed.erase m = m := by
  induction keys with
  | nil => rfl
  | cons key keys ih =>
    rw [List.foldl_cons, Keyed.erase_of_get?_eq_none (h key List.mem_cons_self)]
    exact ih fun k hk => h k (List.mem_cons_of_mem _ hk)

namespace Table

theorem engineFull_row (h : t.Reparsable) :
    t.row.engineFull = String.ofList (onOneLine t.engineText.toList) := by
  simp only [row, reportedEngine?_eq h.unmarked, Option.getD_some]

theorem engine_row_ne (t : Table) : t.row.engine ≠ "View" ∧ t.row.engine ≠ "MaterializedView" ∧
    t.row.engine ≠ "Dictionary" := by
  change t.engine.family.name ≠ _ ∧ t.engine.family.name ≠ _ ∧ t.engine.family.name ≠ _
  cases t.engine.family <;> decide

theorem content_row (h : t.Reparsable) : t.row.content = .table t.engine := by
  have hsome : (EngineFamily.ofName? t.row.engine).isSome = true := by
    rw [EngineFamily.ofName?, List.find?_isSome]
    exact ⟨t.engine.family, EngineFamily.mem_all _, by simp [row, Engine.name]⟩
  obtain ⟨hview, hmaterialized, hdictionary⟩ := t.engine_row_ne
  unfold TableRow.content
  rw [if_neg hview, if_neg hmaterialized, if_neg hdictionary, if_pos hsome, engineFull_row h,
    h.parse_engineText]

theorem table_row (h : t.Describable) :
    t.row.table t.engine (t.columns.map t.columnRow) (t.indexes.map t.indexRow) = t := by
  obtain ⟨d, hdatabase, _⟩ := h.database_user
  have hcolumns : (t.columns.map t.columnRow).map ColumnRow.column = t.columns := by
    rw [List.map_map]
    exact (List.map_congr_left fun c hc => column_columnRow (h.columns_stated c hc)).trans
      (List.map_id _)
  have hindexes : (t.indexes.map t.indexRow).map IndexRow.index = t.indexes := by
    rw [List.map_map]
    exact (List.map_congr_left fun i _ => rfl).trans (List.map_id _)
  have hpartition : stated? t.row.partitionKey = t.partitionBy :=
    (stated?_getD t.partitionBy).trans (bind_stated?_of_ne h.partitionBy_stated)
  have hclauses := h.reparsable.settings_engineText
  have httl := h.reparsable.ttl_engineText
  rw [← engineFull_row h.reparsable] at hclauses httl
  have hsettings : t.row.settings t.engine = t.settings := by
    unfold TableRow.settings
    simp only [hclauses]
    split
    · rename_i hkafka
      exact foldl_erase_eq_self (h.settings_kafka hkafka)
    · rfl
  unfold TableRow.table
  rw [hcolumns, hindexes, hpartition, hsettings, httl, bind_stated?_of_ne h.ttl_stated]
  have hkeys : sortingKeys t.row.sortingKey = t.orderBy := sortingKeys_intercalate h.orderBy_item
  have hd : some t.row.database = t.database := by
    rw [hdatabase, row, hdatabase]
    rfl
  rw [hkeys, hd]
  rfl

end Table

/-! ## The run -/

theorem Progress.takeRow_row (hd : (tables.map (·.name)).Nodup) (ht : t ∈ tables)
    (h : t.Describable) {p : Progress} (hfresh : t.name ∉ p.found.snapshot.tables.names)
    (asked : List Query) :
    ∃ (c : Collection Table) (asked' : List Query),
      c.entries = p.found.snapshot.tables.entries ++ [t] ∧
      Gives (Progress.takeRow (reportedCatalog tables).source p t.row) asked
        { p with
          found := ⟨{ p.found.snapshot with tables := c },
            p.found.statistics.recordDumped t.engine.name⟩ }
        asked' := by
  obtain ⟨c, hadd, hentries⟩ := Collection.add_of_notMem hfresh
  refine ⟨c, _, hentries, Progress.takeRow_gives (Table.content_row h.reparsable)
    (congrArg Except.ok (columnsOf_reportedCatalog hd ht))
    (congrArg Except.ok (indexesOf_reportedCatalog hd ht)) ?_⟩
  rw [Table.table_row h]
  exact hadd

/-- The rows of tables with free, distinct names are all taken in, in their order. -/
theorem Progress.takeRows_gives (hd : (tables.map (·.name)).Nodup)
    (h : ∀ t ∈ tables, t.Describable) {l : List Table} (hl : ∀ t ∈ l, t ∈ tables) {p : Progress}
    (hfresh : ((p.found.snapshot.tables.entries ++ l).map (·.name)).Nodup) (asked : List Query) :
    ∃ (c : Collection Table) (asked' : List Query),
      c.entries = p.found.snapshot.tables.entries ++ l ∧
      Gives ((l.map Table.row).foldlM (Progress.takeRow (reportedCatalog tables).source) p) asked
        { p with
          found := ⟨{ p.found.snapshot with tables := c },
            (l.map (·.engine.name)).foldl Statistics.recordDumped p.found.statistics⟩ }
        asked' := by
  induction l generalizing p asked with
  | nil => exact ⟨p.found.snapshot.tables, asked, (List.append_nil _).symm, gives_pure p asked⟩
  | cons t l ih =>
    have ht := hl t List.mem_cons_self
    have hname : t.name ∉ p.found.snapshot.tables.names := by
      rw [List.map_append, List.nodup_append] at hfresh
      exact fun hmem => hfresh.2.2 _ hmem _ (List.mem_map.mpr ⟨t, List.mem_cons_self, rfl⟩) rfl
    obtain ⟨c, asked', hentries, hrow⟩ :=
      Progress.takeRow_row hd ht (h t ht) hname asked
    -- what is found and what is left stay the same together, so that their names stay distinct
    have hassoc : p.found.snapshot.tables.entries ++ t :: l = c.entries ++ l := by
      rw [hentries, List.append_assoc, List.singleton_append]
    rw [hassoc] at hfresh ⊢
    obtain ⟨c', asked'', hentries', hrows⟩ := ih (fun u hu => hl u (List.mem_cons_of_mem _ hu))
      (p := { p with
        found := ⟨{ p.found.snapshot with tables := c },
          p.found.statistics.recordDumped t.engine.name⟩ }) hfresh asked'
    refine ⟨c', asked'', hentries', ?_⟩
    rw [List.map_cons, List.foldlM_cons]
    exact hrow.bind hrows

/-- The default filter chooses the rows of all tables outside the databases of the server. -/
theorem select_reportedCatalog (h : ∀ t ∈ tables, t.Describable) :
    ({} : Filter).select (reportedCatalog tables).tables =
      (tables.mergeSort Table.before).map Table.row := by
  have hmatches : ∀ r ∈ tables.map Table.row,
      ({} : Filter).matchesTable r.database r.name = true := by
    intro r hr
    obtain ⟨t, ht, rfl⟩ := List.mem_map.mp hr
    obtain ⟨d, hdatabase, huser⟩ := (h t ht).database_user
    have hd : t.row.database = d := by
      rw [Table.row, hdatabase]
      rfl
    simp [Filter.matchesTable, hd, huser]
  change ((tables.map Table.row).filter _).mergeSort TableRow.before = _
  rw [List.filter_eq_self.mpr hmatches]
  exact (List.map_mergeSort (f := Table.row) fun _ _ _ _ => rfl).symm

/-- The tally of a run that takes everything it sees. -/
def Statistics.allTaken (engines : List String) : Statistics :=
  engines.foldl recordDumped (engines.foldl recordSeen .empty)

theorem Statistics.skipped_allTaken (engines : List String) (x : String) :
    (allTaken engines).skipped x = 0 := by
  have hempty : Statistics.empty.skipped x = 0 := rfl
  rw [allTaken, skipped_foldl_recordDumped, skipped_foldl_recordSeen, hempty]
  omega

theorem Statistics.failures_allTaken (engines : List String) :
    (allTaken engines).failures = [] := by
  rw [allTaken, foldl_keeps failures_recordDumped, foldl_keeps failures_recordSeen]
  rfl

theorem introspection_reportedCatalog (hd : (tables.map (·.name)).Nodup)
    (h : ∀ t ∈ tables, t.Describable) :
    ∃ (c : Collection Table) (asked : List Query), c.entries = tables.mergeSort Table.before ∧
      Gives (introspection (reportedCatalog tables).source {}) []
        ⟨{ tables := c }, .allTaken ((tables.mergeSort Table.before).map (·.engine.name))⟩
        asked := by
  have hperm := List.mergeSort_perm tables Table.before
  have hsorted : ((tables.mergeSort Table.before).map (·.name)).Nodup :=
    (hperm.map _).nodup_iff.mpr hd
  have hselect := select_reportedCatalog h
  have hdictionaries : ∀ row ∈ ({} : Filter).select (reportedCatalog tables).tables,
      row.engine ≠ "Dictionary" := by
    intro row hrow
    rw [hselect] at hrow
    obtain ⟨t, _, rfl⟩ := List.mem_map.mp hrow
    exact t.engine_row_ne.2.2
  have hseen : (({} : Filter).select (reportedCatalog tables).tables).foldl
      (fun s r => s.recordSeen r.engine) Statistics.empty =
        ((tables.mergeSort Table.before).map (·.engine.name)).foldl Statistics.recordSeen
          .empty := by
    rw [hselect, List.foldl_map, List.foldl_map]
    rfl
  obtain ⟨c, asked, hentries, hrows⟩ := Progress.takeRows_gives hd h
    (l := tables.mergeSort Table.before) (fun t ht => hperm.mem_iff.mp ht)
    (p := ⟨⟨.empty, ((tables.mergeSort Table.before).map (·.engine.name)).foldl
      Statistics.recordSeen .empty⟩, []⟩) hsorted [.tables]
  rw [← hselect, ← hseen] at hrows
  have hrun := introspection_gives rfl hdictionaries hrows
  rw [hseen] at hrun
  exact ⟨c, asked, hentries, hrun⟩

/-- **Introspection finds the created tables**: all of them as they are, in the order of their
databases and names, with nothing left out and nothing left to do in either direction. -/
theorem introspect_reportedCatalog (hd : (tables.map (·.name)).Nodup)
    (h : ∀ t ∈ tables, t.Describable) :
    ∃ (original : Snapshot) (c : Collection Table) (statistics : Statistics),
      Snapshot.ofTables tables = .ok original ∧
      (introspect (reportedCatalog tables).source {}).1 = .ok ⟨{ tables := c }, statistics⟩ ∧
      c.entries = tables.mergeSort Table.before ∧
      statistics.failures = [] ∧ (∀ engine, statistics.skipped engine = 0) ∧
      statistics.totalSkipped = 0 ∧
      Plan.diff original { tables := c } = [] ∧ Plan.diff { tables := c } original = [] := by
  obtain ⟨o, horiginal, hofTables⟩ := Snapshot.ofTables_of_nodup hd
  obtain ⟨c, asked, hentries, hrun⟩ := introspection_reportedCatalog hd h
  have hmem : ∀ t, t ∈ c.entries ↔ t ∈ o.entries := by
    intro t
    rw [hentries, horiginal]
    exact (List.mergeSort_perm tables Table.before).mem_iff
  have hskipped := Statistics.skipped_allTaken ((tables.mergeSort Table.before).map (·.engine.name))
  exact ⟨{ tables := o }, c, _, hofTables, congrArg Prod.fst hrun, hentries,
    Statistics.failures_allTaken _, hskipped, Statistics.totalSkipped_eq_zero_iff.mpr hskipped,
    Plan.diff_eq_nil_of_mem_iff hmem, Plan.diff_eq_nil_of_mem_iff fun t => (hmem t).symm⟩

/-- Two tables in two databases, the later one first. -/
theorem introspect_reportedCatalog_two :
    let queue : Table :=
      { name := "queue"
        database := some "raw"
        columns := [{ name := "id", type := "UInt64" }]
        settings := ⟨[("kafka_num_consumers", "2")], by decide⟩
        engine := .kafka ["k1:9092", "k2:9092"] "events, all" "it's" "JSONEachRow" }
    let events : Table :=
      { name := "events"
        database := some "main"
        columns :=
          [{ name := "id", type := "UInt64", codec := some "CODEC(ZSTD(1))" },
            { name := "ts", type := "DateTime", defaultExpression := some "now()" }]
        orderBy := ["id", "f(ts, 'a, b')"]
        partitionBy := some "toYYYYMM(ts)"
        ttl := some "ts + toIntervalDay(30)"
        settings := ⟨[("index_granularity", "8192")], by decide⟩
        indexes := [⟨"by_ts", "ts", "minmax", 4⟩]
        engine := .replicatedReplacingMergeTree "/tables/{shard}" "{replica}" (some "ts") }
    let tables := [queue, events]
    (tables.map (·.name)).Nodup ∧ (∀ t ∈ tables, t.Describable) ∧
      ∃ (original : Snapshot) (c : Collection Table) (statistics : Statistics),
        Snapshot.ofTables tables = .ok original ∧
        (introspect (reportedCatalog tables).source {}).1 = .ok ⟨{ tables := c }, statistics⟩ ∧
        c.entries = tables.mergeSort Table.before ∧
        statistics.failures = [] ∧ (∀ engine, statistics.skipped engine = 0) ∧
        statistics.totalSkipped = 0 ∧
        Plan.diff original { tables := c } = [] ∧ Plan.diff { tables := c } original = [] := by
  intro queue events tables
  have hd : (tables.map (·.name)).Nodup := by decide
  have h : ∀ t ∈ tables, t.Describable := by decide +kernel
  exact ⟨hd, h, introspect_reportedCatalog hd h⟩

end SchemaPlan
