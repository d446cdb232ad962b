import SchemaPlan.Document.TextFormat
import SchemaPlan.Files.FileTree

/-!
# Schema directories

How a schema is laid out in files: one directory for each kind of entity, and in it one file for
each entity.

* `joinPath`: a path continued by a name.
* `EntityKind.directory`: the name of the directory of a kind.
* `isSchemaFileName`: the names of the files that are read.
* `FilesError`: what can go wrong, with its wording.
-/

namespace SchemaPlan

/-- A path continued by another one. One that starts with a slash stands alone. -/
def joinPath (path more : String) : String :=
  if more.toList.head? = some '/' then more
  else if path.isEmpty || path.toList.getLast? = some '/' then path ++ more
  else path ++ "/" ++ more

/-- The name of the directory with the entities of a kind. -/
def EntityKind.directory : EntityKind → String
  | table => "tables"
  | view => "views"
  | materializedView => "materialized_views"
  | dictionary => "dictionaries"
  | cluster => "clusters"

/-- The part of a file name after its last dot, unless nothing stands before that dot. -/
def extension? (name : String) : Option String :=
  match (name.toList.reverse.takeWhile (· != '.')), name.toList.reverse.dropWhile (· != '.') with
  | suffix, _ :: _ :: _ => some (String.ofList suffix.reverse)
  | _, _ => none

/-- A name of a file that holds an entity. -/
def isSchemaFileName (name : String) : Bool :=
  extension? name == some "yaml" || extension? name == some "yml"

/-- The name of the file that an entity is written to. -/
def schemaFileName (entity : String) : String := entity ++ ".yaml"

/-- Why files cannot be read or written. -/
inductive FilesError
  | unreadableDirectory (path : String) (cause : PathFault)
  | unreadableFile (path : String) (cause : PathFault)
  | unwritableFile (path : String) (cause : PathFault)
  | uncreatedDirectory (path : String) (cause : PathFault)
  | malformed (path : String) (cause : TextError)
  | alreadyExists (path : String)
  | duplicateName (cause : DuplicateName)
  deriving DecidableEq, Repr

/-- The wording of what keeps a schema from its files. -/
def FilesError.message : FilesError → String
  | unreadableDirectory path cause => "failed to read directory " ++ path ++ ": " ++ cause.message
  | unreadableFile path cause => "failed to read file " ++ path ++ ": " ++ cause.message
  | unwritableFile path cause => "failed to write file " ++ path ++ ": " ++ cause.message
  | uncreatedDirectory path cause => "failed to create directory " ++ path ++ ": " ++ cause.message
  | malformed path cause => "invalid YAML in " ++ path ++ ": " ++ cause.message
  | alreadyExists path => "file " ++ path ++ " already exists (use --overwrite to replace)"
  | duplicateName cause => cause.message

namespace FileTree

/-- The value that the file at a path describes. -/
def readValue {α : Type} (t : FileTree) (decode : String → Except TextError α) (path : String) :
    Except FilesError α := do
  let text ← (t.readFile path).mapError (.unreadableFile path)
  (decode text).mapError (.malformed path)

/-- The catalog that the file at a path records. -/
def readCatalog (t : FileTree) (format : TextFormat) (path : String) :
    Except FilesError Catalog :=
  t.readValue format.catalog path

end FileTree

end SchemaPlan
