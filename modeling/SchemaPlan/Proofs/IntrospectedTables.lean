import Mathlib.Tactic.ByContra
import SchemaPlan.Proofs.IntrospectionSteps
import SchemaPlan.Proofs.PairedLists

/-!
# Introspected tables

Where the tables of an introspection come from: one table from each row that the filter chooses and
whose engine can be read, in the order of these rows, with the answers about its columns and its
indexes.

* `TableRow.Manageable`: the rows that become tables, said without the run.
* `TableRow.OutOfReach`, `TableRow.outOfReach_iff`: the other rows, kind by kind.
* `CatalogSource.Reads`: a table is what a row and the answers about it say.
* `Progress.takeRows_reads`: the run over several rows, by induction on them.
* **`introspected_of_introspect`**: the tables of a whole introspection; `Introspected.exists_row`,
  `Introspected.mem_names_iff`: row by row.
-/

namespace SchemaPlan

open Asking

/-! ## Rows of tables -/

theorem EngineFamily.isSome_ofName?_iff {name : String} :
    (ofName? name).isSome = true ↔ ∃ family : EngineFamily, family.name = name := by
  rw [ofName?, List.find?_isSome]
  constructor
  · rintro ⟨family, _, h⟩
    exact ⟨family, of_decide_eq_true h⟩
  · rintro ⟨family, rfl⟩
    exact ⟨family, mem_all family, decide_eq_true rfl⟩

namespace TableRow

variable {filter : Filter} {row : TableRow}

/-- The name of the table that a row is about. -/
def qualifiedName (row : TableRow) : QualifiedName := ⟨some row.database, row.name⟩

/-- The row of a table of the server itself. -/
def IsInternal (row : TableRow) : Prop :=
  row.database = "system" ∨ row.database = "information_schema" ∨
    row.database = "INFORMATION_SCHEMA"

/-- The row of a table that a filter chooses and whose engine is supported and can be read. -/
structure Manageable (filter : Filter) (row : TableRow) : Prop where
  user : ¬ row.IsInternal
  chosen : filter.matchesTable row.database row.name = true
  supported : ∃ family : EngineFamily, family.name = row.engine
  readable : ∃ engine, Engine.parse row.engine row.engineFull = .ok engine

/-- The rows that are not of such a table, and why. -/
inductive OutOfReach (filter : Filter) (row : TableRow) : Prop
  | system (h : row.IsInternal)
  | filteredOut (h : filter.matchesTable row.database row.name = false)
  | view (h : row.engine = "View")
  | materializedView (h : row.engine = "MaterializedView")
  | dictionary (h : row.engine = "Dictionary")
  | unmodeled (h : ∀ family : EngineFamily, family.name ≠ row.engine)
  | unreadable {cause : EngineError} (h : Engine.parse row.engine row.engineFull = .error cause)

theorem outOfReach_iff : row.OutOfReach filter ↔ ¬ row.Manageable filter := by
  constructor
  · rintro hout ⟨huser, hchosen, ⟨family, hfamily⟩, ⟨engine, hengine⟩⟩
    have hname : ∀ family : EngineFamily,
        family.name ≠ "View" ∧ family.name ≠ "MaterializedView" ∧ family.name ≠ "Dictionary" := by
      intro family
      cases family <;> decide
    cases hout with
    | system h => exact huser h
    | filteredOut h => exact absurd hchosen (Bool.eq_false_iff.mp h)
    | view h => exact (hname family).1 (hfamily.trans h)
    | materializedView h => exact (hname family).2.1 (hfamily.trans h)
    | dictionary h => exact (hname family).2.2 (hfamily.trans h)
    | unmodeled h => exact h family hfamily
    | unreadable h =>
      rw [hengine] at h
      cases h
  · intro h
    by_contra hin
    refine h ⟨fun huser => hin (.system huser), ?_, ?_, ?_⟩
    · cases hchosen : filter.matchesTable row.database row.name with
      | true => rfl
      | false => exact absurd (.filteredOut hchosen) hin
    · by_contra hnone
      exact hin (.unmodeled fun family hfamily => hnone ⟨family, hfamily⟩)
    · cases hparse : Engine.parse row.engine row.engineFull with
      | ok engine => exact ⟨engine, rfl⟩
      | error cause => exact absurd (.unreadable hparse) hin

/-- The row becomes a table. -/
def isReadable (row : TableRow) : Bool :=
  match row.content with
  | .table _ => true
  | _ => false

theorem isReadable_iff : row.isReadable = true ↔ ∃ engine, row.content = .table engine := by
  unfold isReadable
  cases row.content <;> simp

theorem isReadable_eq_false {content : RowContent} (h : row.content = content)
    (hne : ∀ engine, content ≠ .table engine) : row.isReadable = false := by
  rw [Bool.eq_false_iff, Ne, isReadable_iff]
  rintro ⟨engine, hengine⟩
  exact hne engine (h.symm.trans hengine)

theorem content_eq_table_iff {engine : Engine} : row.content = .table engine ↔
    (∃ family : EngineFamily, family.name = row.engine) ∧
      Engine.parse row.engine row.engineFull = .ok engine := by
  rw [← EngineFamily.isSome_ofName?_iff]
  unfold content
  -- the names that are compared first are names of no engine
  split_ifs with hview hmaterialized hdictionary hsupported
  · rw [hview]
    simp [EngineFamily.ofName?, EngineFamily.all, EngineFamily.name]
  · rw [hmaterialized]
    simp [EngineFamily.ofName?, EngineFamily.all, EngineFamily.name]
  · rw [hdictionary]
    simp [EngineFamily.ofName?, EngineFamily.all, EngineFamily.name]
  · cases Engine.parse row.engine row.engineFull <;> simp [hsupported]
  · simp [hsupported]

theorem mem_select_iff {rows : List TableRow} : row ∈ filter.select rows ↔
    row ∈ rows ∧ filter.matchesTable row.database row.name = true := by
  rw [Filter.select, (List.mergeSort_perm _ _).mem_iff, List.mem_filter]

theorem user_of_matchesTable (h : filter.matchesTable row.database row.name = true) :
    ¬ row.IsInternal := by
  rintro (hdatabase | hdatabase | hdatabase) <;>
    simp [Filter.matchesTable, Filter.systemDatabases, hdatabase] at h

/-- The manageable rows are the chosen ones that become tables. -/
theorem mem_readable_iff {rows : List TableRow} :
    row ∈ (filter.select rows).filter (·.isReadable) ↔ row ∈ rows ∧ row.Manageable filter := by
  rw [List.mem_filter, mem_select_iff, isReadable_iff]
  simp only [content_eq_table_iff]
  constructor
  · rintro ⟨⟨hrow, hchosen⟩, engine, hsupported, hengine⟩
    exact ⟨hrow, user_of_matchesTable hchosen, hchosen, hsupported, engine, hengine⟩
  · rintro ⟨hrow, _, hchosen, hsupported, engine, hengine⟩
    exact ⟨⟨hrow, hchosen⟩, engine, hsupported, hengine⟩

/-- The queries that taking in a row asks. -/
def queries (row : TableRow) : List Query :=
  if row.isReadable then [.columns row.database row.name, .indexes row.database row.name] else []

theorem nodup_flatMap_queries {rows : List TableRow}
    (h : ((rows.filter (·.isReadable)).map (·.name)).Nodup) : (rows.flatMap queries).Nodup := by
  rw [List.nodup_flatMap]
  refine ⟨fun row _ => ?_, ?_⟩
  · unfold queries
    split <;> simp
  · -- two readable rows have different names, and the others ask for nothing
    have hpairwise := List.pairwise_filter.mp (List.pairwise_map.mp h)
    refine hpairwise.imp fun {a b} hne => ?_
    rw [Function.onFun_apply]
    unfold queries
    split_ifs with ha hb
    · simp [(hne ha hb).symm]
    all_goals simp

end TableRow

/-! ## What a table is read from -/

namespace CatalogSource

variable {source : CatalogSource} {asked after : List Query} {row : TableRow} {table : Table}

/-- A query was asked, and answered with some rows. -/
def Answered (source : CatalogSource) (asked : List Query) (query : Query)
    (rows : query.Answer) : Prop :=
  ∃ before, before ++ [query] <+: asked ∧ source.ask before query = .ok rows

theorem Answered.mono {query : Query} {rows : query.Answer} (h : source.Answered asked query rows)
    (hle : asked <+: after) : source.Answered after query rows := by
  obtain ⟨before, hbefore, hask⟩ := h
  exact ⟨before, hbefore.trans hle, hask⟩

/-- A table was read from a row and from the answers about its columns and indexes. -/
inductive Reads (source : CatalogSource) (asked : List Query) (row : TableRow) : Table → Prop
  | mk {engine : Engine} {columns : List ColumnRow} {indexes : List IndexRow}
      (content : row.content = .table engine)
      (hcolumns : source.Answered asked (.columns row.database row.name) columns)
      (hindexes : source.Answered asked (.indexes row.database row.name) indexes) :
      Reads source asked row (row.table engine columns indexes)

namespace Reads

theorem mono (h : source.Reads asked row table) (hle : asked <+: after) :
    source.Reads after row table := by
  cases h with
  | mk hcontent hcolumns hindexes => exact ⟨hcontent, hcolumns.mono hle, hindexes.mono hle⟩

theorem qualifiedName_eq (h : source.Reads asked row table) :
    table.qualifiedName = row.qualifiedName := by
  cases h
  rfl

theorem name_eq (h : source.Reads asked row table) : table.name = row.name := by
  cases h
  rfl

theorem exists_columns (h : source.Reads asked row table) :
    ∃ columns, source.Answered asked (.columns row.database row.name) columns ∧
      table.columnNames = columns.map (·.name) := by
  cases h with
  | mk hcontent hcolumns hindexes =>
    refine ⟨_, hcolumns, ?_⟩
    rw [Table.columnNames, TableRow.table, List.map_map]
    rfl

end Reads

end CatalogSource

/-! ## The run -/

theorem Snapshot.tables_of_map_ok {γ ε : Type} {added : Except ε γ} {f : γ → Snapshot}
    {tables : Collection Table} {snapshot : Snapshot} (h : added.map f = .ok snapshot)
    (hf : ∀ c, (f c).tables = tables) : snapshot.tables = tables := by
  cases added with
  | error cause => cases h
  | ok c =>
    cases h
    exact hf c

theorem Snapshot.entries_of_addTable {s snapshot : Snapshot} {table : Table}
    (h : s.addTable table = .ok snapshot) :
    snapshot.tables.entries = s.tables.entries ++ [table] := by
  unfold addTable at h
  cases hadd : s.tables.add table with
  | error cause =>
    rw [hadd] at h
    cases h
  | ok tables =>
    rw [hadd] at h
    cases h
    exact Collection.entries_of_add hadd

namespace Progress

variable {source : CatalogSource} {p next : Progress} {row : TableRow} {before after : List Query}

/-- What a row does to the tables: it becomes the last one, or it is not readable and changes
nothing. -/
theorem Takes.tables (h : Takes source p row before next after) :
    (row.isReadable = false ∧ next.found.snapshot.tables = p.found.snapshot.tables ∧
      after = before) ∨
    row.isReadable = true ∧ after = before ++ row.queries ∧ ∃ table, source.Reads after row table ∧
      next.found.snapshot.tables.entries = p.found.snapshot.tables.entries ++ [table] := by
  cases h with
  | view hcontent hadded =>
    exact .inl ⟨TableRow.isReadable_eq_false hcontent nofun,
      Snapshot.tables_of_map_ok hadded fun _ => rfl, rfl⟩
  | materializedView hcontent hadded =>
    exact .inl ⟨TableRow.isReadable_eq_false hcontent nofun,
      Snapshot.tables_of_map_ok hadded fun _ => rfl, rfl⟩
  | dictionary hcontent _ hadded =>
    exact .inl ⟨TableRow.isReadable_eq_false hcontent nofun,
      Snapshot.tables_of_map_ok hadded fun _ => rfl, rfl⟩
  | undescribed hcontent => exact .inl ⟨TableRow.isReadable_eq_false hcontent nofun, rfl, rfl⟩
  | unreadable hcontent => exact .inl ⟨TableRow.isReadable_eq_false hcontent nofun, rfl, rfl⟩
  | unmodeled hcontent => exact .inl ⟨TableRow.isReadable_eq_false hcontent nofun, rfl, rfl⟩
  | @table engine columns indexes snapshot hcontent hcolumns hindexes hadded =>
    have hreadable : row.isReadable = true := TableRow.isReadable_iff.mpr ⟨engine, hcontent⟩
    refine .inr ⟨hreadable, ?_, row.table engine columns indexes, ?_, ?_⟩
    · rw [TableRow.queries, if_pos hreadable, List.append_assoc]
      rfl
    · exact ⟨hcontent, ⟨before, List.prefix_append _ _, hcolumns⟩,
        ⟨_, List.prefix_rfl, hindexes⟩⟩
    · exact Snapshot.entries_of_addTable hadded

/-- The tables found so far were read from the readable ones of the rows taken in so far, and
nothing else was asked for. -/
structure TablesRead (source : CatalogSource) (first : List Query) (done : List TableRow)
    (p : Progress) (asked : List Query) : Prop where
  tables : List.Forall₂ (source.Reads asked) (done.filter (·.isReadable))
    p.found.snapshot.tables.entries
  asked_eq : asked = first ++ done.flatMap TableRow.queries

theorem TablesRead.step {first : List Query} {done : List TableRow}
    (h : TablesRead source first done p before) (htakes : Takes source p row before next after) :
    TablesRead source first (done ++ [row]) next after := by
  have hasked := h.asked_eq
  rcases htakes.tables with ⟨hreadable, htables, rfl⟩ | ⟨hreadable, rfl, table, hreads, htables⟩
  · refine ⟨?_, ?_⟩
    · simpa [hreadable, htables] using h.tables
    · simp [hasked, TableRow.queries, hreadable]
  · refine ⟨?_, ?_⟩
    · rw [htables, List.filter_append, List.filter_singleton, hreadable]
      exact List.rel_append (h.tables.imp fun _ _ hread => hread.mono (List.prefix_append _ _))
        (.cons hreads .nil)
    · simp [hasked]

/-- The run over several rows reads one table from each that is readable. -/
theorem takeRows_reads {rows : List TableRow}
    (hrun : Gives (rows.foldlM (takeRow source) p) before next after)
    (hempty : p.found.snapshot.tables.entries = []) : TablesRead source before rows next after := by
  refine takeRows_keeps (P := TablesRead source before) [] hrun ⟨?_, ?_⟩
    fun done row p before next after h htakes => h.step htakes
  · rw [hempty]
    exact .nil
  · rw [List.flatMap_nil, List.append_nil]

end Progress

/-! ## Whole introspections -/

theorem exists_found {α : Type} {result : Except IntrospectionError Introspection × List Query}
    {f : Introspection → α} {a : α} (h : result.1.toOption.map f = some a) :
    ∃ found asked, result = (.ok found, asked) ∧ f found = a := by
  obtain ⟨cause | found, asked⟩ := result
  · cases h
  · exact ⟨found, asked, rfl, Option.some.inj h⟩

/-- The tables of a snapshot are those of the rows that a source lists, as far as the filter
chooses them and they can be read. No query was asked twice. -/
structure Introspected (source : CatalogSource) (filter : Filter) (rows : List TableRow)
    (snapshot : Snapshot) (asked : List Query) : Prop where
  listed : source.ask [] .tables = .ok rows
  tables : List.Forall₂ (source.Reads asked) ((filter.select rows).filter (·.isReadable))
    snapshot.tables.entries
  asked_nodup : asked.Nodup

theorem names_of_reads {source : CatalogSource} {asked : List Query} {rows : List TableRow}
    {tables : List Table} (h : List.Forall₂ (source.Reads asked) rows tables) :
    tables.map (·.name) = rows.map (·.name) := by
  have hnames : List.Forall₂ (· = ·) (rows.map (·.name)) (tables.map (·.name)) := by
    rw [List.forall₂_map_left_iff, List.forall₂_map_right_iff]
    exact h.imp fun row table hread => hread.name_eq.symm
  rw [List.forall₂_eq_eq_eq] at hnames
  exact hnames.symm

theorem Starts.nodup {source : CatalogSource} {rows : List TableRow}
    {dictionaries : List DictionaryRow} {first : List Query}
    (h : Starts source rows dictionaries first) (hd : (rows.flatMap TableRow.queries).Nodup) :
    (first ++ rows.flatMap TableRow.queries).Nodup := by
  have hother : ∀ query ∈ rows.flatMap TableRow.queries,
      query ≠ .tables ∧ query ≠ .dictionaries := by
    intro query hquery
    obtain ⟨row, _, hquery⟩ := List.mem_flatMap.mp hquery
    unfold TableRow.queries at hquery
    split at hquery
    · rcases List.mem_pair.mp hquery with rfl | rfl <;> exact ⟨nofun, nofun⟩
    · cases hquery
  rw [List.nodup_append]
  cases h with
  | described =>
    refine ⟨by decide, hd, fun a ha b hb e => ?_⟩
    rcases List.mem_pair.mp ha with rfl | rfl
    · exact (hother b hb).1 e.symm
    · exact (hother b hb).2 e.symm
  | plain =>
    refine ⟨by decide, hd, fun a ha b hb e => ?_⟩
    rw [List.mem_singleton] at ha
    exact (hother b hb).1 (e.symm.trans ha)

/-- **Where the tables of an introspection come from.** -/
theorem introspected_of_introspect {source : CatalogSource} {filter : Filter}
    {found : Introspection} {asked : List Query}
    (h : introspect source filter = (.ok found, asked)) :
    ∃ rows, Introspected source filter rows found.snapshot asked := by
  obtain ⟨rows, dictionaries, before, p, hlisted, hstart, hrun, rfl⟩ := run_of_introspect h
  obtain ⟨htables, hasked⟩ := Progress.takeRows_reads hrun rfl
  have hd : (((filter.select rows).filter (·.isReadable)).map (·.name)).Nodup := by
    rw [← names_of_reads htables]
    exact p.found.snapshot.tables.distinct
  exact ⟨rows, hlisted, htables, hasked ▸ hstart.nodup (TableRow.nodup_flatMap_queries hd)⟩

namespace Introspected

variable {source : CatalogSource} {filter : Filter} {rows : List TableRow} {snapshot : Snapshot}
  {asked : List Query}

/-- Every table was read from a manageable row. -/
theorem exists_row (h : Introspected source filter rows snapshot asked) {table : Table}
    (htable : table ∈ snapshot.tables.entries) :
    ∃ row ∈ rows, row.Manageable filter ∧ source.Reads asked row table := by
  obtain ⟨row, hrow, hreads⟩ := exists_left_of_forall₂ h.tables htable
  obtain ⟨hlisted, hmanageable⟩ := TableRow.mem_readable_iff.mp hrow
  exact ⟨row, hlisted, hmanageable, hreads⟩

/-- Every manageable row became a table. -/
theorem exists_table (h : Introspected source filter rows snapshot asked) {row : TableRow}
    (hrow : row ∈ rows) (hmanageable : row.Manageable filter) :
    ∃ table ∈ snapshot.tables.entries, source.Reads asked row table :=
  exists_right_of_forall₂ h.tables (TableRow.mem_readable_iff.mpr ⟨hrow, hmanageable⟩)

theorem mem_names_iff (h : Introspected source filter rows snapshot asked) {name : String} :
    name ∈ snapshot.tables.names ↔ ∃ row ∈ rows, row.Manageable filter ∧ row.name = name := by
  have hnames : snapshot.tables.names = _ := names_of_reads h.tables
  rw [hnames, List.mem_map]
  simp only [TableRow.mem_readable_iff, and_assoc]

end Introspected

end SchemaPlan
