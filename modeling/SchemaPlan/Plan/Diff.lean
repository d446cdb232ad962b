import SchemaPlan.Plan.Action
import SchemaPlan.Schema.Snapshot

/-!
# Differences of snapshots

The plan that leads from a current snapshot to a desired one. Tables are matched by their names,
and columns by theirs, so that the order of the actions depends on names alone:

1. the tables to create, by name;
2. the tables to drop, by name;
3. for each table on both sides, by name, the columns to add and then the columns to drop, each
   by name.

Columns of one name are left alone, whatever their types are.
-/

namespace SchemaPlan

/-- The tables by their names. Of several with one name the last one stays. -/
def tablesByName (tables : List Table) : Keyed Table := .ofList (tables.map fun t => (t.name, t))

/-- Columns by their names. Of several columns with one name the last one stays. -/
def columnsByName (columns : List Column) : Keyed Column :=
  .ofList (columns.map fun c => (c.name, c))

namespace Plan

/-- Create a table that only the schema has. -/
def createAction (table : Table) : Action where
  change := .createTable table
  reason := "Table " ++ table.name ++
    " is defined in schema but does not exist in the database."

/-- Drop a table that only the server has. -/
def dropAction (table : Table) : Action where
  change := .dropTable table.qualifiedName
  reason := "Table " ++ table.name ++
    " exists in the database but is not defined in the schema."

/-- Add a column that only the schema has to the table as it is. -/
def addColumnAction (current : Table) (column : Column) : Action where
  change := .addColumn current.qualifiedName column
  reason := "Column " ++ current.name ++ "." ++ column.name ++
    " is defined in schema but does not exist in the table."

/-- Drop a column that only the server has. -/
def dropColumnAction (current : Table) (column : String) : Action where
  change := .dropColumn current.qualifiedName column
  reason := "Column " ++ current.name ++ "." ++ column ++
    " exists in the table but is not defined in the schema."

/-- The column actions between two tables of one name. They aim at the current table. -/
def columnActions (desired current : Table) : Plan :=
  let wanted := columnsByName desired.columns
  let present := columnsByName current.columns
  ((wanted.values.filter (!present.contains ·.name)).map (addColumnAction current)) ++
    (present.keys.filter (!wanted.contains ·)).map (dropColumnAction current)

/-- The plan that leads from the tables of `current` to the tables of `desired`. -/
def diff (desired current : Snapshot) : Plan :=
  let wanted := tablesByName desired.tables.entries
  let present := tablesByName current.tables.entries
  ((wanted.values.filter (!present.contains ·.name)).map createAction) ++
    ((present.values.filter (!wanted.contains ·.name)).map dropAction) ++
    wanted.values.flatMap fun table =>
      match present.get? table.name with
      | none => []
      | some live => columnActions table live

end Plan

end SchemaPlan
