import SchemaPlan.Schema.Collection

/-!
# Snapshots

A complete description of a schema at one point in time: five collections of entities. Names are
unique within a collection; entities of different kinds may share one.

* `Snapshot.addTable` and its siblings: one more entity.
* `Snapshot.ofLists`: the snapshot of five lists, refused at the first repeated name.
* `Snapshot.resolveDatabase`: name a database for the entities that name none.
-/

namespace SchemaPlan

/-- A schema at one point in time. -/
structure Snapshot where
  tables : Collection Table := .empty
  views : Collection View := .empty
  materializedViews : Collection MaterializedView := .empty
  dictionaries : Collection Dictionary := .empty
  clusters : Collection Cluster := .empty
  deriving DecidableEq

namespace Snapshot

/-- The snapshot without entities. -/
def empty : Snapshot := {}

instance : Inhabited Snapshot := ⟨empty⟩

/-- There are no entities of any kind. -/
def isEmpty (s : Snapshot) : Bool :=
  s.tables.isEmpty && s.views.isEmpty && s.materializedViews.isEmpty && s.dictionaries.isEmpty &&
    s.clusters.isEmpty

/-- The snapshot with one more table, unless one of its name is there. -/
def addTable (s : Snapshot) (x : Table) : Except DuplicateName Snapshot :=
  (s.tables.add x).map fun c => { s with tables := c }

def addView (s : Snapshot) (x : View) : Except DuplicateName Snapshot :=
  (s.views.add x).map fun c => { s with views := c }

def addMaterializedView (s : Snapshot) (x : MaterializedView) : Except DuplicateName Snapshot :=
  (s.materializedViews.add x).map fun c => { s with materializedViews := c }

def addDictionary (s : Snapshot) (x : Dictionary) : Except DuplicateName Snapshot :=
  (s.dictionaries.add x).map fun c => { s with dictionaries := c }

def addCluster (s : Snapshot) (x : Cluster) : Except DuplicateName Snapshot :=
  (s.clusters.add x).map fun c => { s with clusters := c }

/-- The snapshot of five lists. The earliest repeated name is reported, in the order of the
lists. -/
def ofLists (tables : List Table) (views : List View) (materializedViews : List MaterializedView)
    (dictionaries : List Dictionary) (clusters : List Cluster) :
    Except DuplicateName Snapshot := do
  let tables ← Collection.ofList tables
  let views ← Collection.ofList views
  let materializedViews ← Collection.ofList materializedViews
  let dictionaries ← Collection.ofList dictionaries
  let clusters ← Collection.ofList clusters
  return ⟨tables, views, materializedViews, dictionaries, clusters⟩

/-- The snapshot of some tables, unless two have one name. -/
def ofTables (tables : List Table) : Except DuplicateName Snapshot := ofLists tables [] [] [] []

/-- Every entity that names no database gets the given one. -/
def resolveDatabase (s : Snapshot) (database : String) : Snapshot where
  tables := s.tables.resolveDatabase database
  views := s.views.resolveDatabase database
  materializedViews := s.materializedViews.resolveDatabase database
  dictionaries := s.dictionaries.resolveDatabase database
  clusters := s.clusters.resolveDatabase database

end Snapshot

end SchemaPlan
