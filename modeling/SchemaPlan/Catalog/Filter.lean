/-!
# Filters

Which tables of a catalog an introspection looks at.
-/

namespace SchemaPlan

/-- A choice of databases and table names. An empty list chooses all of them. -/
structure Filter where
  databases : List String := []
  tables : List String := []
  deriving DecidableEq, Repr

namespace Filter

/-- The databases of the server itself. No filter chooses them. -/
def systemDatabases : List String := ["system", "information_schema", "INFORMATION_SCHEMA"]

/-- The tables of one database. -/
def only (database : String) : Filter := { databases := [database] }

/-- A table passes: its database is not one of the server's own, and the table is asked for. -/
def matchesTable (f : Filter) (database name : String) : Bool :=
  !systemDatabases.contains database && (f.databases.isEmpty || f.databases.contains database) &&
    (f.tables.isEmpty || f.tables.contains name)

end Filter

end SchemaPlan
