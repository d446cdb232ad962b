import SchemaPlan.Schema.Table

/-!
# Entities of a schema

The things a schema consists of besides tables, and what all of them have in common: a kind and a
name, by which they are told apart within their kind.
-/

namespace SchemaPlan

/-- A stored query. -/
structure View where
  name : String
  database : Option String := none
  selectQuery : String
  deriving DecidableEq, Repr

/-- A materialized view. Without a destination it stores its rows in a table of its own. -/
structure MaterializedView where
  name : String
  database : Option String := none
  destinationTable : Option String := none
  selectQuery : String
  deriving DecidableEq, Repr

/-- A lookup table that is filled from a source. -/
structure Dictionary where
  name : String
  database : Option String := none
  attributes : List Column := []
  primaryKey : List String := []
  source : String
  layout : String
  lifetime : Option String := none
  deriving DecidableEq, Repr

/-- A server of a cluster. -/
structure Node where
  host : String
  port : UInt16
  shard : UInt32 := 0
  replica : UInt32 := 0
  deriving DecidableEq, Repr

/-- A named group of servers. It belongs to no database. -/
structure Cluster where
  name : String
  nodes : List Node := []
  deriving DecidableEq, Repr

/-- The kinds of entities, in the order in which a schema lists them. -/
inductive EntityKind
  | table
  | view
  | materializedView
  | dictionary
  | cluster
  deriving DecidableEq, Repr

namespace EntityKind

/-- All kinds, in the order in which a schema lists them. -/
def all : List EntityKind := [table, view, materializedView, dictionary, cluster]

/-- The name of a kind in messages. -/
def text : EntityKind → String
  | table => "table"
  | view => "view"
  | materializedView => "materialized view"
  | dictionary => "dictionary"
  | cluster => "cluster"

end EntityKind

/-- What the entities of one kind have in common. -/
class Entity (α : Type) where
  kind : EntityKind
  name : α → String
  database : α → Option String
  /-- The entity with the given database, if it names none. -/
  resolve : String → α → α
  name_resolve : ∀ database x, name (resolve database x) = name x

instance : Entity Table where
  kind := .table
  name t := t.name
  database t := t.database
  resolve database t := { t with database := t.database.or (some database) }
  name_resolve _ _ := rfl

instance : Entity View where
  kind := .view
  name v := v.name
  database v := v.database
  resolve database v := { v with database := v.database.or (some database) }
  name_resolve _ _ := rfl

instance : Entity MaterializedView where
  kind := .materializedView
  name v := v.name
  database v := v.database
  resolve database v := { v with database := v.database.or (some database) }
  name_resolve _ _ := rfl

instance : Entity Dictionary where
  kind := .dictionary
  name d := d.name
  database d := d.database
  resolve database d := { d with database := d.database.or (some database) }
  name_resolve _ _ := rfl

instance : Entity Cluster where
  kind := .cluster
  name c := c.name
  database _ := none
  resolve _ c := c
  name_resolve _ _ := rfl

end SchemaPlan
