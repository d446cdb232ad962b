/-!
# File trees

A file system as a value: directories and files under their places. A file that is not text can be
there but not be read.

* `FileTree.locate`: the place that a path names. A path is read from the working directory unless
  it starts with a slash, and every directory on the way has to be there.
* `readFile`, `list`, `exists`: what is there.
* `writeFile`, `createDirectories`: the tree after a change.
-/

namespace SchemaPlan

/-- The place of a file or directory: the names on the way to it from the root. -/
abbrev Place := List String

/-- What lies at a place. -/
inductive FileNode
  | directory
  /-- A file with its text; without one if what it holds is no text. -/
  | file (content : Option String)
  deriving DecidableEq, Repr

/-- Why something cannot be done with a path. -/
inductive PathFault
  | notFound
  | notDirectory
  | isDirectory
  | invalidName
  | longPath
  | notText
  deriving DecidableEq, Repr

/-- The wording of a path that leads nowhere. -/
def PathFault.message : PathFault → String
  | notFound => "no such file or directory"
  | notDirectory => "not a directory"
  | isDirectory => "is a directory"
  | invalidName => "invalid file name"
  | longPath => "path too long"
  | notText => "the content is not text"

/-- A file system. The root is always there; everything else is listed. -/
structure FileTree where
  nodes : List (Place × FileNode) := []
  workingDirectory : Place := []
  /-- The number of bytes a name may have. -/
  nameLimit : Nat := 255
  /-- The number of bytes a path may have. -/
  pathLimit : Nat := 4095
  deriving DecidableEq, Repr

/-- The names in a path, with empty ones where slashes stand side by side or at an end. -/
def pathNames (path : String) : List String := (path.toList.splitOn '/').map String.ofList

namespace FileTree

/-- What stands at a place. The root is always a directory. -/
def node? (t : FileTree) : Place → Option FileNode
  | [] => some .directory
  | place => (t.nodes.find? (·.1 = place)).map (·.2)

/-- A directory stands at the place. -/
def isDirectory (t : FileTree) (place : Place) : Bool := t.node? place == some .directory

/-- Put a node at a place, instead of what lies there. -/
def put (t : FileTree) (place : Place) (node : FileNode) : FileTree :=
  { t with
    nodes :=
      if t.nodes.any (·.1 = place) then
        t.nodes.map fun entry => if entry.1 = place then (place, node) else entry
      else t.nodes ++ [(place, node)] }

/-! ## Paths -/

/-- The name is not too long and has no NUL. -/
def allowsName (t : FileTree) (name : String) : Bool :=
  name.utf8ByteSize ≤ t.nameLimit && !name.toList.contains '\x00'

/-- A path can be used. -/
def allowsPath (t : FileTree) (path : String) : Bool := path.utf8ByteSize ≤ t.pathLimit

/-- Fail unless there is a directory at a place. -/
def needDirectory (t : FileTree) (place : Place) : Except PathFault Unit :=
  match t.node? place with
  | some .directory => .ok ()
  | some (.file _) => .error .notDirectory
  | none => .error .notFound

/-- The place that is reached from the directory `here` by some names. -/
def walk (t : FileTree) (here : Place) : List String → Except PathFault Place
  | [] => .ok here
  | name :: rest => do
    t.needDirectory here
    if name = "" ∨ name = "." then t.walk here rest
    else if name = ".." then t.walk here.dropLast rest
    else if t.allowsName name then t.walk (here ++ [name]) rest
    else .error .invalidName

/-- Where the names of a path are read from. -/
def base (t : FileTree) (path : String) : Place :=
  if path.toList.head? = some '/' then [] else t.workingDirectory

/-- The place that a path names. It need not be taken. -/
def locate (t : FileTree) (path : String) : Except PathFault Place :=
  if path.isEmpty then .error .notFound
  else if path.toList.contains '\x00' then .error .invalidName
  else if !t.allowsPath path then .error .longPath
  else t.walk (t.base path) (pathNames path)

/-! ## Reading -/

/-- There is something at a path. -/
def exists? (t : FileTree) (path : String) : Bool :=
  match t.locate path with
  | .error _ => false
  | .ok place => (t.node? place).isSome

/-- The text of the file a path leads to. -/
def readFile (t : FileTree) (path : String) : Except PathFault String := do
  match t.node? (← t.locate path) with
  | none => throw .notFound
  | some .directory => throw .isDirectory
  | some (.file none) => throw .notText
  | some (.file (some text)) => return text

/-- The name under which a node lies in a directory, if it does. -/
def childName? (directory place : Place) : Option String :=
  match directory.isPrefixOf? place with
  | some [name] => some name
  | _ => none

/-- The nodes of the directory at a path with their names, in the order of the listing. -/
def list (t : FileTree) (path : String) : Except PathFault (List (String × FileNode)) := do
  let directory ← t.locate path
  t.needDirectory directory
  return t.nodes.filterMap fun entry =>
    (childName? directory entry.1).map fun name => (name, entry.2)

/-! ## Changing -/

/-- The tree with a text at the place a path leads to. -/
def writeFile (t : FileTree) (path text : String) : Except PathFault FileTree := do
  let place ← t.locate path
  if t.isDirectory place then throw .isDirectory
  return t.put place (.file (some text))

/-- Walk from a directory by some names and create the directories that are not there. Those made
before a failure stay. -/
def makeWay (t : FileTree) (here : Place) : List String → Except PathFault Unit × FileTree
  | [] => (.ok (), t)
  | name :: rest =>
    if name = "" ∨ name = "." then t.makeWay here rest
    else if name = ".." then t.makeWay here.dropLast rest
    else if !t.allowsName name then (.error .invalidName, t)
    else
      match t.node? (here ++ [name]) with
      | some .directory => t.makeWay (here ++ [name]) rest
      | some (.file _) => (.error .notDirectory, t)
      | none => (t.put (here ++ [name]) .directory).makeWay (here ++ [name]) rest

/-- The tree with directories all along a path, as far as they can be made. -/
def createDirectories (t : FileTree) (path : String) : Except PathFault Unit × FileTree :=
  if path.toList.contains '\x00' then (.error .invalidName, t)
  else if !t.allowsPath path then (.error .longPath, t)
  else t.makeWay (t.base path) (pathNames path)

end FileTree

end SchemaPlan
