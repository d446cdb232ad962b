/-!
# Catalog rows

What a server reports about its tables, columns, indexes and dictionaries: the rows of its system
tables. An empty text stands for what is not set.
-/

namespace SchemaPlan

/-- A row of `system.tables`. -/
structure TableRow where
  database : String := ""
  name : String := ""
  engine : String := ""
  engineFull : String := ""
  sortingKey : String := ""
  partitionKey : String := ""
  asSelect : String := ""
  createTableQuery : String := ""
  deriving DecidableEq, Repr

/-- A row of `system.columns`. -/
structure ColumnRow where
  database : String := ""
  table : String := ""
  name : String := ""
  type : String := ""
  defaultExpression : String := ""
  compressionCodec : String := ""
  comment : String := ""
  deriving DecidableEq, Repr

/-- A row of `system.data_skipping_indices`. -/
structure IndexRow where
  database : String := ""
  table : String := ""
  name : String := ""
  expr : String := ""
  typeFull : String := ""
  granularity : UInt64 := 0
  deriving DecidableEq, Repr

/-- A row of `system.dictionaries`. -/
structure DictionaryRow where
  database : String := ""
  name : String := ""
  keyNames : List String := []
  keyTypes : List String := []
  attributeNames : List String := []
  attributeTypes : List String := []
  source : String := ""
  layout : String := ""
  lifetimeMin : UInt64 := 0
  lifetimeMax : UInt64 := 0
  deriving DecidableEq, Repr

/-- The rows of the four system tables. -/
structure Catalog where
  tables : List TableRow := []
  columns : List ColumnRow := []
  indexes : List IndexRow := []
  dictionaries : List DictionaryRow := []
  deriving DecidableEq, Repr

namespace Catalog

/-- The column rows of one table, in their order. -/
def columnsOf (c : Catalog) (database table : String) : List ColumnRow :=
  c.columns.filter fun row => row.database = database ∧ row.table = table

/-- The index rows of one table, in their order. -/
def indexesOf (c : Catalog) (database table : String) : List IndexRow :=
  c.indexes.filter fun row => row.database = database ∧ row.table = table

end Catalog

end SchemaPlan
