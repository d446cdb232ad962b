import SchemaPlan.Document.Engine
import SchemaPlan.Schema.Snapshot

/-!
# Schemas as documents

How tables, views, dictionaries, clusters and whole snapshots are written as documents and read
from them. Each is a mapping of its fields. Absent fields are not written, and neither are empty
lists and maps, except those that are the point of an entity: the columns of a table, the
attributes of a dictionary and the nodes of a cluster. Reading refuses fields it does not know.
-/

namespace SchemaPlan

open Document

/-- A number that fits into 16 bits. -/
def Document.word16 : Decoder UInt16 := fun d =>
  (natural UInt16.size "u16" d).map UInt16.ofNat

/-- A number that fits into 32 bits. -/
def Document.word32 : Decoder UInt32 := fun d =>
  (natural UInt32.size "u32" d).map UInt32.ofNat

/-- A number that fits into 64 bits. -/
def Document.word64 : Decoder UInt64 := fun d =>
  (natural UInt64.size "u64" d).map UInt64.ofNat

/-! ## Columns and indexes -/

def Column.encode (c : Column) : Document :=
  .mapping (textEntry "name" c.name ++ textEntry "type" c.type ++
    optionEntry "defaultExpression" c.defaultExpression ++ optionEntry "codec" c.codec ++
    optionEntry "comment" c.comment)

def Column.decode : Decoder Column :=
  record {
    wanted := "struct Column"
    names := ["name", "type", "defaultExpression", "codec", "comment"] } fun fs =>
    Column.mk <$> fs.required "name" text <*> fs.required "type" text <*>
      fs.optional "defaultExpression" text <*> fs.optional "codec" text <*>
      fs.optional "comment" text

def Index.encode (i : Index) : Document :=
  .mapping (textEntry "name" i.name ++ textEntry "expression" i.expression ++
    textEntry "type" i.type ++ entry "granularity" (ofNat i.granularity.toNat))

def Index.decode : Decoder Index :=
  record {
    wanted := "struct Index"
    names := ["name", "expression", "type", "granularity"] } fun fs =>
    Index.mk <$> fs.required "name" text <*> fs.required "expression" text <*>
      fs.required "type" text <*> fs.required "granularity" word64

/-! ## Tables -/

def Table.encode (t : Table) : Document :=
  .mapping (textEntry "name" t.name ++ optionEntry "database" t.database ++
    listEntry "columns" Column.encode t.columns ++ shownList "orderBy" ofText t.orderBy ++
    optionEntry "partitionBy" t.partitionBy ++ optionEntry "ttl" t.ttl ++
    shownMap "settings" t.settings ++ shownList "indexes" Index.encode t.indexes ++
    entry "engine" t.engine.encode)

def Table.decode : Decoder Table :=
  record {
    wanted := "struct Table"
    names := ["name", "database", "columns", "orderBy", "partitionBy", "ttl", "settings",
      "indexes", "engine"] } fun fs =>
    Table.mk <$> fs.required "name" text <*> fs.optional "database" text <*>
      fs.withDefault "columns" (listOf Column.decode) [] <*>
      fs.withDefault "orderBy" (listOf text) [] <*> fs.optional "partitionBy" text <*>
      fs.optional "ttl" text <*> fs.withDefault "settings" (mapOf text) .empty <*>
      fs.withDefault "indexes" (listOf Index.decode) [] <*> fs.required "engine" Engine.decode

/-! ## Views and dictionaries -/

def View.encode (v : View) : Document :=
  .mapping (textEntry "name" v.name ++ optionEntry "database" v.database ++
    textEntry "selectQuery" v.selectQuery)

def View.decode : Decoder View :=
  record {
    wanted := "struct View"
    names := ["name", "database", "selectQuery"] } fun fs =>
    View.mk <$> fs.required "name" text <*> fs.optional "database" text <*>
      fs.required "selectQuery" text

def MaterializedView.encode (v : MaterializedView) : Document :=
  .mapping (textEntry "name" v.name ++ optionEntry "database" v.database ++
    optionEntry "destinationTable" v.destinationTable ++ textEntry "selectQuery" v.selectQuery)

def MaterializedView.decode : Decoder MaterializedView :=
  record {
    wanted := "struct MaterializedView"
    names := ["name", "database", "destinationTable", "selectQuery"] } fun fs =>
    MaterializedView.mk <$> fs.required "name" text <*> fs.optional "database" text <*>
      fs.optional "destinationTable" text <*> fs.required "selectQuery" text

def Dictionary.encode (d : Dictionary) : Document :=
  .mapping (textEntry "name" d.name ++ optionEntry "database" d.database ++
    listEntry "attributes" Column.encode d.attributes ++
    shownList "primaryKey" ofText d.primaryKey ++ textEntry "source" d.source ++
    textEntry "layout" d.layout ++ optionEntry "lifetime" d.lifetime)

def Dictionary.decode : Decoder Dictionary :=
  record {
    wanted := "struct Dictionary"
    names := ["name", "database", "attributes", "primaryKey", "source", "layout",
      "lifetime"] } fun fs =>
    Dictionary.mk <$> fs.required "name" text <*> fs.optional "database" text <*>
      fs.withDefault "attributes" (listOf Column.decode) [] <*>
      fs.withDefault "primaryKey" (listOf text) [] <*> fs.required "source" text <*>
      fs.required "layout" text <*> fs.optional "lifetime" text

/-! ## Clusters -/

def Node.encode (n : Node) : Document :=
  .mapping (textEntry "host" n.host ++ entry "port" (ofNat n.port.toNat) ++
    entry "shard" (ofNat n.shard.toNat) ++ entry "replica" (ofNat n.replica.toNat))

def Node.decode : Decoder Node :=
  record {
    wanted := "struct ClusterNode"
    names := ["host", "port", "shard", "replica"] } fun fs =>
    Node.mk <$> fs.required "host" text <*> fs.required "port" word16 <*>
      fs.withDefault "shard" word32 0 <*> fs.withDefault "replica" word32 0

def Cluster.encode (c : Cluster) : Document :=
  .mapping (textEntry "name" c.name ++ listEntry "nodes" Node.encode c.nodes)

def Cluster.decode : Decoder Cluster :=
  record {
    wanted := "struct Cluster"
    names := ["name", "nodes"] } fun fs =>
    Cluster.mk <$> fs.required "name" text <*> fs.withDefault "nodes" (listOf Node.decode) []

/-! ## Snapshots -/

/-- A snapshot as it is written: the collections that have entities, each in its order. -/
def Snapshot.encode (s : Snapshot) : Document :=
  .mapping (shownList "tables" Table.encode s.tables.entries ++
    shownList "views" View.encode s.views.entries ++
    shownList "materializedViews" MaterializedView.encode s.materializedViews.entries ++
    shownList "dictionaries" Dictionary.encode s.dictionaries.entries ++
    shownList "clusters" Cluster.encode s.clusters.entries)

/-- What the lists of a snapshot document make up: a snapshot, or the first repeated name. -/
def snapshotLists : Decoder (Except DuplicateName Snapshot) :=
  record {
    wanted := "struct SnapshotDocument"
    names := ["tables", "views", "materializedViews", "dictionaries", "clusters"] } fun fs =>
    Snapshot.ofLists <$> fs.withDefault "tables" (listOf Table.decode) [] <*>
      fs.withDefault "views" (listOf View.decode) [] <*>
      fs.withDefault "materializedViews" (listOf MaterializedView.decode) [] <*>
      fs.withDefault "dictionaries" (listOf Dictionary.decode) [] <*>
      fs.withDefault "clusters" (listOf Cluster.decode) []

/-- A snapshot from a document. A repeated name is an error of its own. -/
def Snapshot.decode : Decoder Snapshot := fun d => do
  let s ← snapshotLists d
  s.mapError fun cause => ⟨.duplicateName cause, none⟩

end SchemaPlan
