import SchemaPlan.Engine.Basic
import SchemaPlan.Keyed

/-!
# Tables

The description of a table: its columns, keys, settings, indexes and engine. An optional field is
absent, empty or set; absent and empty are different values.
-/

namespace SchemaPlan

/-- A text that says something: an empty one says nothing. -/
def stated? (s : String) : Option String := if s.isEmpty then none else some s

/-- A column of a table, or an attribute of a dictionary. -/
structure Column where
  name : String
  type : String
  defaultExpression : Option String := none
  codec : Option String := none
  comment : Option String := none
  deriving DecidableEq, Repr

/-- A data-skipping index. Its type includes the parameters of the type. -/
structure Index where
  name : String
  expression : String
  type : String
  granularity : UInt64
  deriving DecidableEq, Repr

/-- The name of a table, with the database it lies in if that is known. -/
structure QualifiedName where
  database : Option String
  name : String
  deriving DecidableEq, Repr

/-- The name as it is written in statements: `database.name`, or the name alone. -/
def QualifiedName.text (q : QualifiedName) : String :=
  match q.database with
  | none => q.name
  | some database => database ++ "." ++ q.name

/-- A table. The order of its columns and of its sorting key matters. -/
structure Table where
  name : String
  database : Option String := none
  columns : List Column := []
  orderBy : List String := []
  partitionBy : Option String := none
  ttl : Option String := none
  settings : Keyed String := .empty
  indexes : List Index := []
  engine : Engine
  deriving DecidableEq, Repr

namespace Table

/-- The name of a table with its database. -/
def qualifiedName (t : Table) : QualifiedName := ⟨t.database, t.name⟩

/-- The first column of a given name. -/
def findColumn? (t : Table) (name : String) : Option Column := t.columns.find? (·.name = name)

/-- The names of the columns, in their order. -/
def columnNames (t : Table) : List String := t.columns.map (·.name)

/-- The table with one more column, at the end. -/
def addColumn (t : Table) (c : Column) : Table := { t with columns := t.columns ++ [c] }

/-- The table without the columns of a given name. -/
def dropColumn (t : Table) (name : String) : Table :=
  { t with columns := t.columns.filter (·.name ≠ name) }

/-- A table for trying things out: `default.name`, sorted by its one column `id`. -/
def sample (name : String) : Table where
  name := name
  database := some "default"
  columns := [{ name := "id", type := "UInt64" }]
  orderBy := ["id"]
  engine := .mergeTree

end Table

end SchemaPlan
