import SchemaPlan.Command.Run
import SchemaPlan.Yaml.Format

/-!
# The program

The command line on a real file system. The files that an invocation names are read into a file
tree, the command runs on it, and what it changed is written back.
-/

namespace SchemaPlan

/-- The absolute path of a place. -/
def pathOfPlace (place : Place) : String := "/" ++ "/".intercalate place

/-- What lies at a place: nothing or one node. -/
def nodeAt (place : Place) : IO (List (Place × FileNode)) := do
  try
    let path ← IO.FS.realPath (pathOfPlace place)
    if ← path.isDir then return [(place, .directory)]
    else if ← path.pathExists then
      let content ← try pure (some (← IO.FS.readFile path)) catch _ => pure none
      return [(place, .file content)]
    else return []
  catch _ => return []

/-- The names in the directory at a place; none if it is no directory. -/
def namesIn (place : Place) : IO (List String) := do
  try
    let children ← (← IO.FS.realPath (pathOfPlace place)).readDir
    return children.toList.map (·.fileName)
  catch _ => return []

/-- The node at a place and those below it, down to a number of levels. -/
def nodesBelow : Nat → Place → IO (List (Place × FileNode))
  | 0, place => nodeAt place
  | levels + 1, place => do
    let below ← (← namesIn place).mapM fun name => nodesBelow levels (place ++ [name])
    return (← nodeAt place) ++ below.flatten

/-- The place a path names, whether anything lies there or not. -/
def placeOf (here : Place) (path : String) : Place :=
  let start := if path.toList.head? = some '/' then [] else here
  (pathNames path).foldl (fun place name =>
    if name = "" ∨ name = "." then place
    else if name = ".." then place.dropLast
    else place ++ [name]) start

/-- The nodes on the way to a place, and those at it and down to a number of levels below it. -/
def nodesAround (levels : Nat) (place : Place) : IO (List (Place × FileNode)) := do
  let way ← (List.range place.length).mapM fun n => nodeAt (place.take n)
  return way.flatten ++ (← nodesBelow levels place)

/-- The paths a command may read or write. -/
def Invocation.paths (i : Invocation) : List String :=
  let own :=
    match i.command with
    | .plan output _ _ => output.toList
    | .dump outputDirectory _ _ => outputDirectory.toList
    | _ => []
  i.shared.schemaDirectory :: i.shared.catalog.toList ++ own

/-- The part of the file system that an invocation may touch. A schema directory has two levels:
the kinds and their files. -/
def treeFor (paths : List String) : IO FileTree := do
  let here := placeOf [] (toString (← IO.currentDir))
  let named ← (paths.map (placeOf here)).mapM (nodesAround 2)
  let nodes := (← nodesAround 0 here) ++ named.flatten
  return { nodes := nodes.eraseDups, workingDirectory := here }

/-- Write back what has changed. -/
def writeChanges (before after : FileTree) : IO Unit := do
  for (place, node) in after.nodes do
    if before.node? place != some node then
      match node with
      | .directory => IO.FS.createDirAll (pathOfPlace place)
      | .file (some content) => IO.FS.writeFile (pathOfPlace place) content
      | .file none => return

/-- The environment variables that stand in for options. -/
def readEnvironment : IO Environment := do
  let values ← (CommandOption.shared.filterMap CommandOption.standIn?).mapM fun name => do
    return (name, ← IO.getEnv name)
  return fun name => (values.lookup name).join

end SchemaPlan

open SchemaPlan

/-- Run a command line against the files below the paths it names. -/
def main (arguments : List String) : IO UInt32 := do
  let env ← readEnvironment
  let paths :=
    match Invocation.parse env arguments with
    | .ok invocation => invocation.paths
    | .error _ => []
  let before ← treeFor paths
  let (outcome, after) := runCommandLine Yaml.format env arguments before
  writeChanges before after
  match outcome with
  | .rejected cause => IO.eprintln ("error: " ++ cause.message)
  | .finished output => IO.print output
  | .failed cause => IO.eprintln cause.message
  return UInt32.ofNat outcome.exitCode
