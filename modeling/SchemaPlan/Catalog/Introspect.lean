import SchemaPlan.Catalog.Filter
import SchemaPlan.Catalog.Source
import SchemaPlan.Catalog.Statistics
import SchemaPlan.Engine.Parse
import SchemaPlan.Schema.Snapshot
import SchemaPlan.Text.Infix

/-!
# Introspection

From the rows of a catalog to a snapshot of the schema they describe.

* `TableRow.content`: what a row of `system.tables` stands for.
* `TableRow.table` and its siblings: the entity of a row.
* `introspect`: the whole run over a source, with the queries it asks.

A table whose engine cannot be read is left out and reported in the statistics. A failed query or
a repeated name ends the run.
-/

namespace SchemaPlan

/-! ## Entities of rows -/

/-- The column a row describes. What the catalog leaves empty is not stated. -/
def ColumnRow.column (r : ColumnRow) : Column where
  name := r.name
  type := r.type
  defaultExpression := stated? r.defaultExpression
  codec := stated? r.compressionCodec
  comment := stated? r.comment

/-- The index a row describes. -/
def IndexRow.index (r : IndexRow) : Index := ⟨r.name, r.expr, r.typeFull, r.granularity⟩

/-- The expressions of a sorting key `a, b, f(c, d)`. -/
def sortingKeys (key : String) : List String :=
  (Sql.splitTopLevel key).filter (!·.isEmpty)

/-- The target of a query `CREATE MATERIALIZED VIEW v TO db.t AS SELECT`: the word after the first
` TO ` before the first ` AS `, without backticks. -/
def destinationIn? (query : String) : Option String := do
  let head := upTo " AS ".toList query.toList
  let (_, rest) ← cutAt? " TO ".toList head
  let word ← firstWord? rest
  stated? (String.ofList (word.filter (· ≠ '\x60')))

/-- The dictionary a row describes: the attributes of its key come first. -/
def DictionaryRow.dictionary (r : DictionaryRow) : Dictionary where
  name := r.name
  database := some r.database
  attributes :=
    ((r.keyNames.zip r.keyTypes) ++ (r.attributeNames.zip r.attributeTypes)).map fun p =>
      { name := p.1, type := p.2 }
  primaryKey := r.keyNames
  source := r.source
  layout := r.layout
  lifetime :=
    if r.lifetimeMin = 0 ∧ r.lifetimeMax = 0 then none
    else some ("MIN " ++ toString r.lifetimeMin ++ " MAX " ++ toString r.lifetimeMax)

namespace TableRow

/-- The view a row describes. -/
def view (r : TableRow) : View where
  name := r.name
  database := some r.database
  selectQuery := r.asSelect

/-- The materialized view a row describes, with the destination its statement names. -/
def materializedView (r : TableRow) : MaterializedView where
  name := r.name
  database := some r.database
  destinationTable := destinationIn? r.createTableQuery
  selectQuery := r.asSelect

/-- The settings of a table: those of its engine text, less the ones that stand for arguments of
the engine. -/
def settings (r : TableRow) (engine : Engine) : Keyed String :=
  let all := (Sql.clauses r.engineFull).settings
  match engine.family with
  | .kafka => EngineFamily.kafkaSettings.foldl Keyed.erase all
  | _ => all

/-- The table of a row, its engine and the rows of its columns and indexes. -/
def table (r : TableRow) (engine : Engine) (columns : List ColumnRow) (indexes : List IndexRow) :
    Table where
  name := r.name
  database := some r.database
  columns := columns.map ColumnRow.column
  orderBy := sortingKeys r.sortingKey
  partitionBy := stated? r.partitionKey
  ttl := (Sql.clauses r.engineFull).ttl
  settings := r.settings engine
  indexes := indexes.map IndexRow.index
  engine := engine

end TableRow

/-! ## Kinds of rows -/

/-- What a row of `system.tables` stands for. -/
inductive RowContent
  | view
  | materializedView
  | dictionary
  | table (engine : Engine)
  /-- A table of a supported engine whose declaration cannot be read. -/
  | unreadable (cause : EngineError)
  /-- An entity of another engine. -/
  | unmodeled
  deriving DecidableEq, Repr

/-- What a row stands for, by its engine name and engine text. -/
def TableRow.content (r : TableRow) : RowContent :=
  if r.engine = "View" then .view
  else if r.engine = "MaterializedView" then .materializedView
  else if r.engine = "Dictionary" then .dictionary
  else if (EngineFamily.ofName? r.engine).isSome then
    match Engine.parse r.engine r.engineFull with
    | .ok engine => .table engine
    | .error cause => .unreadable cause
  else .unmodeled

/-- The order of rows: by database, then by name. -/
def TableRow.before (a b : TableRow) : Bool :=
  a.database < b.database || (a.database = b.database && a.name ≤ b.name)

/-- The rows that a filter chooses, in the order of rows. -/
def Filter.select (filter : Filter) (rows : List TableRow) : List TableRow :=
  (rows.filter fun r => filter.matchesTable r.database r.name).mergeSort TableRow.before

/-! ## The run -/

/-- What an introspection finds. -/
structure Introspection where
  snapshot : Snapshot := .empty
  statistics : Statistics := .empty
  deriving DecidableEq

/-- Why an introspection ends early. -/
inductive IntrospectionError
  | query (cause : QueryFailure)
  | duplicateName (cause : DuplicateName)
  deriving DecidableEq, Repr

/-- The wording of what ended an introspection. -/
def IntrospectionError.message : IntrospectionError → String
  | query cause => cause.message
  | duplicateName cause => cause.message

/-- A computation that asks queries one after the other and may end early. Its state is the list
of the queries asked so far, the last one included if it failed. -/
abbrev Asking (α : Type) := ExceptT IntrospectionError (StateM (List Query)) α

/-- Ask one query. It counts as asked before it is known to be answered. -/
def CatalogSource.answer (source : CatalogSource) (query : Query) : Asking query.Answer := do
  let before ← getThe (List Query)
  set (before ++ [query])
  match source.ask before query with
  | .ok rows => return rows
  | .error cause => throw (.query ⟨query, cause⟩)

/-- Where a run stands between two rows: what it found, and the dictionary rows that are left. -/
structure Progress where
  found : Introspection := {}
  dictionaries : List DictionaryRow := []

namespace Progress

/-- An entity was added for a row: it counts as taken. -/
def taken (p : Progress) (row : TableRow) (added : Except DuplicateName Snapshot) :
    Asking Progress :=
  match added with
  | .error cause => throw (.duplicateName cause)
  | .ok snapshot =>
    return { p with
      found := ⟨snapshot, p.found.statistics.recordDumped row.engine⟩ }

/-- The last of the dictionary rows that are left for a table row. -/
def dictionaryOf? (p : Progress) (row : TableRow) : Option DictionaryRow :=
  (p.dictionaries.filter fun d => d.database = row.database ∧ d.name = row.name).getLast?

/-- No dictionary row is left for a table row. -/
def withoutDictionary (p : Progress) (row : TableRow) : Progress :=
  { p with
    dictionaries :=
      p.dictionaries.filter fun d => ¬(d.database = row.database ∧ d.name = row.name) }

/-- A table that cannot be read is reported. -/
def failed (p : Progress) (row : TableRow) (cause : EngineError) : Progress :=
  { p with
    found.statistics := p.found.statistics.recordFailure
      ⟨row.database, row.name, row.engine, cause.message⟩ }

/-- Take in one row. -/
def takeRow (source : CatalogSource) (p : Progress) (row : TableRow) : Asking Progress :=
  match row.content with
  | .view => p.taken row (p.found.snapshot.addView row.view)
  | .materializedView => p.taken row (p.found.snapshot.addMaterializedView row.materializedView)
  | .dictionary =>
    match p.dictionaryOf? row with
    | none => return p
    | some d => (p.withoutDictionary row).taken row (p.found.snapshot.addDictionary d.dictionary)
  | .table engine => do
    let columns ← source.answer (.columns row.database row.name)
    let indexes ← source.answer (.indexes row.database row.name)
    p.taken row (p.found.snapshot.addTable (row.table engine columns indexes))
  | .unreadable cause => return p.failed row cause
  | .unmodeled => return p

end Progress

/-- The whole run: the tables are listed, chosen and sorted, then taken in one by one. -/
def introspection (source : CatalogSource) (filter : Filter) : Asking Introspection := do
  let rows := filter.select (← source.answer .tables)
  let seen := rows.foldl (fun s r => s.recordSeen r.engine) Statistics.empty
  let dictionaries ←
    if rows.any (·.engine = "Dictionary") then source.answer .dictionaries else pure []
  let progress ← rows.foldlM (Progress.takeRow source) ⟨⟨.empty, seen⟩, dictionaries⟩
  return progress.found

/-- Read everything that a filter chooses: what was found or why the run ended early, and the
queries asked, in order. -/
def introspect (source : CatalogSource) (filter : Filter) :
    Except IntrospectionError Introspection × List Query :=
  (introspection source filter).run.run []

end SchemaPlan
