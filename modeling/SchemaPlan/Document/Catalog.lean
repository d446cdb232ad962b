import SchemaPlan.Catalog.Row
import SchemaPlan.Document.Schema

/-!
# Catalogs as documents

How catalog rows are written as documents and read from them. A row is written with all its
fields; in reading, a field that is not there is empty and a field that is not known is left out.
-/

namespace SchemaPlan

open Document

def TableRow.encode (r : TableRow) : Document :=
  .mapping (textEntry "database" r.database ++ textEntry "name" r.name ++
    textEntry "engine" r.engine ++ textEntry "engine_full" r.engineFull ++
    textEntry "sorting_key" r.sortingKey ++ textEntry "partition_key" r.partitionKey ++
    textEntry "as_select" r.asSelect ++ textEntry "create_table_query" r.createTableQuery)

def TableRow.decode : Decoder TableRow :=
  record {
    wanted := "struct CatalogTable"
    names := ["database", "name", "engine", "engine_full", "sorting_key", "partition_key",
      "as_select", "create_table_query"]
    isClosed := false } fun fs =>
    TableRow.mk <$> fs.withDefault "database" text "" <*> fs.withDefault "name" text "" <*>
      fs.withDefault "engine" text "" <*> fs.withDefault "engine_full" text "" <*>
      fs.withDefault "sorting_key" text "" <*> fs.withDefault "partition_key" text "" <*>
      fs.withDefault "as_select" text "" <*> fs.withDefault "create_table_query" text ""

def ColumnRow.encode (r : ColumnRow) : Document :=
  .mapping (textEntry "database" r.database ++ textEntry "table" r.table ++
    textEntry "name" r.name ++ textEntry "type" r.type ++
    textEntry "default_expression" r.defaultExpression ++
    textEntry "compression_codec" r.compressionCodec ++ textEntry "comment" r.comment)

def ColumnRow.decode : Decoder ColumnRow :=
  record {
    wanted := "struct CatalogColumn"
    names := ["database", "table", "name", "type", "default_expression", "compression_codec",
      "comment"]
    isClosed := false } fun fs =>
    ColumnRow.mk <$> fs.withDefault "database" text "" <*> fs.withDefault "table" text "" <*>
      fs.withDefault "name" text "" <*> fs.withDefault "type" text "" <*>
      fs.withDefault "default_expression" text "" <*> fs.withDefault "compression_codec" text "" <*>
      fs.withDefault "comment" text ""

def IndexRow.encode (r : IndexRow) : Document :=
  .mapping (textEntry "database" r.database ++ textEntry "table" r.table ++
    textEntry "name" r.name ++ textEntry "expr" r.expr ++ textEntry "type_full" r.typeFull ++
    entry "granularity" (ofNat r.granularity.toNat))

def IndexRow.decode : Decoder IndexRow :=
  record {
    wanted := "struct CatalogIndex"
    names := ["database", "table", "name", "expr", "type_full", "granularity"]
    isClosed := false } fun fs =>
    IndexRow.mk <$> fs.withDefault "database" text "" <*> fs.withDefault "table" text "" <*>
      fs.withDefault "name" text "" <*> fs.withDefault "expr" text "" <*>
      fs.withDefault "type_full" text "" <*> fs.withDefault "granularity" word64 0

def DictionaryRow.encode (r : DictionaryRow) : Document :=
  .mapping (textEntry "database" r.database ++ textEntry "name" r.name ++
    listEntry "key.names" ofText r.keyNames ++ listEntry "key.types" ofText r.keyTypes ++
    listEntry "attribute.names" ofText r.attributeNames ++
    listEntry "attribute.types" ofText r.attributeTypes ++ textEntry "source" r.source ++
    textEntry "type" r.layout ++ entry "lifetime_min" (ofNat r.lifetimeMin.toNat) ++
    entry "lifetime_max" (ofNat r.lifetimeMax.toNat))

def DictionaryRow.decode : Decoder DictionaryRow :=
  record {
    wanted := "struct CatalogDictionary"
    names := ["database", "name", "key.names", "key.types", "attribute.names",
      "attribute.types", "source", "type", "lifetime_min", "lifetime_max"]
    isClosed := false } fun fs =>
    DictionaryRow.mk <$> fs.withDefault "database" text "" <*> fs.withDefault "name" text "" <*>
      fs.withDefault "key.names" (listOf text) [] <*>
      fs.withDefault "key.types" (listOf text) [] <*>
      fs.withDefault "attribute.names" (listOf text) [] <*>
      fs.withDefault "attribute.types" (listOf text) [] <*> fs.withDefault "source" text "" <*>
      fs.withDefault "type" text "" <*> fs.withDefault "lifetime_min" word64 0 <*>
      fs.withDefault "lifetime_max" word64 0

/-- A catalog from a document. Its own fields, unlike those of its rows, have to be known. -/
def Catalog.decode : Decoder Catalog :=
  record {
    wanted := "struct CatalogDocument"
    names := ["tables", "columns", "data_skipping_indices", "dictionaries"] } fun fs =>
    Catalog.mk <$> fs.withDefault "tables" (listOf TableRow.decode) [] <*>
      fs.withDefault "columns" (listOf ColumnRow.decode) [] <*>
      fs.withDefault "data_skipping_indices" (listOf IndexRow.decode) [] <*>
      fs.withDefault "dictionaries" (listOf DictionaryRow.decode) []

end SchemaPlan
