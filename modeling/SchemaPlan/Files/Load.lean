import SchemaPlan.Files.SchemaDirectory

/-!
# Loading schemas

From a schema directory to a snapshot. The kinds are read one after the other, and the files of a
kind in the order of their names, so the order in which a directory lists them does not matter.
-/

namespace SchemaPlan

/-- The names of the files among the nodes of a directory that hold entities, in order. -/
def schemaFileNames (children : List (String × FileNode)) : List String :=
  (children.filterMap fun child =>
    match child.2 with
    | .file _ => if isSchemaFileName child.1 then some child.1 else none
    | .directory => none).mergeSort (· ≤ ·)

namespace FileTree

/-- The names of the files of a directory that hold entities, in order. A file is seen only if the
path to it can be used. -/
def visibleFileNames (t : FileTree) (directory : String) (children : List (String × FileNode)) :
    List String :=
  (schemaFileNames children).filter fun name => t.allowsPath (joinPath directory name)

/-- The paths of the files of a directory that hold entities. A directory that is not there has
none. -/
def schemaFiles (t : FileTree) (directory : String) : Except FilesError (List String) :=
  match t.list directory with
  | .error .notFound => .ok []
  | .error cause => .error (.unreadableDirectory directory cause)
  | .ok children => .ok ((t.visibleFileNames directory children).map (joinPath directory))

/-- The entities of one kind under a schema directory. All files are read before the names are
compared. -/
def loadKind {α : Type} [Entity α] (t : FileTree) (format : TextFormat) (decode : Decoder α)
    (root : String) : Except FilesError (Collection α) := do
  let paths ← t.schemaFiles (joinPath root (Entity.kind α).directory)
  let entities ← paths.mapM (t.readValue (format.decode decode))
  (Collection.ofList entities).mapError .duplicateName

/-- The snapshot a schema directory holds, one kind of entity after the other. -/
def loadSchema (t : FileTree) (format : TextFormat) (root : String) :
    Except FilesError Snapshot := do
  let tables ← t.loadKind format Table.decode root
  let views ← t.loadKind format View.decode root
  let materializedViews ← t.loadKind format MaterializedView.decode root
  let dictionaries ← t.loadKind format Dictionary.decode root
  let clusters ← t.loadKind format Cluster.decode root
  return ⟨tables, views, materializedViews, dictionaries, clusters⟩

end FileTree

end SchemaPlan
