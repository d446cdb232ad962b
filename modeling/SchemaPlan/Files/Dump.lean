import SchemaPlan.Files.SchemaDirectory

/-!
# Dumping schemas

From a snapshot to a schema directory: the entities that are wanted are written one after the
other, until one of them fails. What was written before stays.
-/

namespace SchemaPlan

/-- What a dump is told. -/
structure DumpOptions where
  /-- The schema directory. -/
  root : String
  /-- Leave out the entities of other databases. -/
  database : Option String := none
  /-- Leave out all entities that are no tables. -/
  tablesOnly : Bool := false
  /-- Replace files that are there. -/
  overwrite : Bool := false
  deriving DecidableEq, Repr

/-- An entity to be written. -/
structure SchemaFile where
  kind : EntityKind
  name : String
  content : Document

namespace DumpOptions

/-- An entity with this database is wanted. One without a database always is. -/
def selects (o : DumpOptions) (database : Option String) : Bool :=
  match o.database, database with
  | some wanted, some database => wanted == database
  | _, _ => true

/-- The files of the wanted entities of one kind. -/
def filesOf {α : Type} [Entity α] (o : DumpOptions) (database : α → Option String)
    (encode : α → Document) (c : Collection α) : List SchemaFile :=
  (c.entries.filter (o.selects <| database ·)).map fun x =>
    ⟨Entity.kind α, Entity.name x, encode x⟩

/-- The files of all wanted entities, in the order in which they are written. -/
def files (o : DumpOptions) (s : Snapshot) : List SchemaFile :=
  o.filesOf Table.database Table.encode s.tables ++
    if o.tablesOnly then []
    else
      o.filesOf View.database View.encode s.views ++
        o.filesOf MaterializedView.database MaterializedView.encode s.materializedViews ++
        o.filesOf Dictionary.database Dictionary.encode s.dictionaries ++
        o.filesOf (fun _ => none) Cluster.encode s.clusters

/-- The path of the directory a file goes to. -/
def directoryOf (o : DumpOptions) (file : SchemaFile) : String :=
  joinPath o.root file.kind.directory

/-- The path a file is written to. -/
def pathOf (o : DumpOptions) (file : SchemaFile) : String :=
  joinPath (o.directoryOf file) (schemaFileName file.name)

end DumpOptions

/-- A computation that changes a file tree and may end early. The changes before that stay. -/
abbrev Filing (ε α : Type) := ExceptT ε (StateM FileTree) α

namespace Filing

variable {ε : Type}

/-- Make the directories of a path. Those that were made stay when a later one cannot be. -/
def createDirectories (path : String) (onError : PathFault → ε) : Filing ε Unit := do
  let (result, t) := (← getThe FileTree).createDirectories path
  set t
  match result with
  | .ok () => return
  | .error cause => throw (onError cause)

/-- Write a file. -/
def writeFile (path text : String) (onError : PathFault → ε) : Filing ε Unit := do
  match (← getThe FileTree).writeFile path text with
  | .ok t => set t
  | .error cause => throw (onError cause)

end Filing

namespace DumpOptions

/-- Write one entity. The answer is the path of its file. -/
def writeEntity (o : DumpOptions) (format : TextFormat) (file : SchemaFile) :
    Filing FilesError String := do
  Filing.createDirectories (o.directoryOf file) (.uncreatedDirectory (o.directoryOf file))
  if !o.overwrite && (← getThe FileTree).exists? (o.pathOf file) then
    throw (.alreadyExists (o.pathOf file))
  Filing.writeFile (o.pathOf file) (format.write file.content) (.unwritableFile (o.pathOf file))
  return o.pathOf file

/-- Write the wanted entities of a snapshot. The answer is the paths of their files. -/
def dump (o : DumpOptions) (format : TextFormat) (s : Snapshot) :
    Filing FilesError (List String) :=
  (o.files s).mapM (o.writeEntity format)

end DumpOptions

end SchemaPlan
