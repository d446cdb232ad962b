import SchemaPlan.Catalog.Introspect
import SchemaPlan.Command.Invocation
import SchemaPlan.Files.Dump
import SchemaPlan.Files.Load
import SchemaPlan.Plan.Diff
import SchemaPlan.Plan.Execution
import SchemaPlan.Plan.Report

/-!
# Running commands

What an invocation prints and what it does to the files.

* `CommandError`: the ways in which a command fails, with their wording and exit codes.
* `Invocation.run`: a command on a file tree.
* `runCommandLine`: the same from the arguments on.
-/

namespace SchemaPlan

/-! ## Errors -/

/-- Why a command fails. -/
inductive CommandError
  | missingCatalog
  | load (cause : FilesError)
  | catalog (cause : FilesError)
  | dump (cause : FilesError)
  | writeOutput (path : String) (cause : PathFault)
  | introspection (cause : IntrospectionError)
  | execution (cause : ExecutionError)
  deriving DecidableEq, Repr

/-- The category of what goes wrong with files. -/
def FilesError.category : FilesError → String
  | malformed .. => "parse"
  | duplicateName _ => "schema"
  | _ => "io"

/-- What lies behind an error of files and is told in its message. -/
def FilesError.cause? : FilesError → Option String
  | unreadableDirectory _ cause => some cause.message
  | unreadableFile _ cause => some cause.message
  | unwritableFile _ cause => some cause.message
  | uncreatedDirectory _ cause => some cause.message
  | malformed _ cause => some cause.message
  | alreadyExists _ => none
  | duplicateName _ => none

namespace CommandError

/-- A mistake in the usage exits with two, any other error with one. -/
def exitCode : CommandError → Nat
  | missingCatalog => 2
  | _ => 1

/-- The word in brackets before a message. -/
def category : CommandError → String
  | missingCatalog => "usage"
  | load cause => cause.category
  | catalog cause => cause.category
  | dump cause => cause.category
  | writeOutput .. => "io"
  | introspection (.query _) => "catalog"
  | introspection (.duplicateName _) => "schema"
  | execution (.invalid _) => "generate"
  | execution (.failed _) => "execute"

/-- The texts of an error from the outside in: what was being done, what went wrong, and what lies
behind it. -/
def chain : CommandError → List String
  | missingCatalog => ["missing catalog: pass --catalog <FILE> or set CHSTATE_CATALOG"]
  | load cause => "while loading schema files" :: cause.message :: cause.cause?.toList
  | catalog cause => "while reading the catalog" :: cause.message :: cause.cause?.toList
  | dump cause => "while dumping schema files" :: cause.message :: cause.cause?.toList
  | writeOutput path cause => ["while writing plan output \x60" ++ path ++ "\x60", cause.message]
  | introspection (.query cause) =>
    ["while planning schema changes", cause.message, cause.cause]
  | introspection (.duplicateName cause) => ["while planning schema changes", cause.message]
  | execution (.invalid cause) => ["while planning schema changes", cause.message]
  | execution (.failed cause) => ["while applying schema changes", cause.message, cause.cause]

/-- The line a failed command prints: the category, then the chain of causes. -/
def message (e : CommandError) : String := "[" ++ e.category ++ "] " ++ ": ".intercalate e.chain

end CommandError

/-! ## Commands -/

/-- A command at work on a file tree. -/
abbrev Running (α : Type) := Filing CommandError α

/-- Fail with an error of another type. -/
def Running.lift {ε α : Type} (onError : ε → CommandError) (r : Except ε α) : Running α :=
  match r with
  | .ok x => return x
  | .error e => throw (onError e)

namespace SharedOptions

/-- The schema of the schema directory, in the given database. -/
def loadSchema (o : SharedOptions) (format : TextFormat) : Running Snapshot := do
  let s ← Running.lift .load ((← getThe FileTree).loadSchema format o.schemaDirectory)
  match o.database with
  | none => return s
  | some database => return s.resolveDatabase database

/-- The recorded catalog. -/
def openCatalog (o : SharedOptions) (format : TextFormat) : Running Catalog := do
  match o.catalog with
  | none => throw .missingCatalog
  | some path => Running.lift .catalog ((← getThe FileTree).readCatalog format path)

/-- The filter that the given database means. -/
def filter (o : SharedOptions) : Filter :=
  match o.database with
  | none => {}
  | some database => .only database

/-- What the recorded catalog describes. -/
def introspect (o : SharedOptions) (format : TextFormat) : Running Introspection := do
  let catalog ← o.openCatalog format
  Running.lift .introspection (SchemaPlan.introspect catalog.source o.filter).1

end SharedOptions

/-- A recorded catalog as a server: it keeps every statement. -/
def Server.recorder : Server (List String) := .recording fun _ => none

/-- The text of a plan for its readers: the report, the script if it is wanted, and the statements
that were executed if they were. -/
def Plan.fullReport (withScript apply : Bool) (plan : Plan) : Except ExecutionError String := do
  let scriptPart ←
    if withScript && !plan.isEmpty then do
      let statements ← plan.statements.mapError .invalid
      pure ("\n" ++ script statements)
    else pure ""
  let executedPart ←
    if apply then do
      let (result, executed) := Server.recorder.executePlan [] plan
      let count ← result
      pure ("\nApplied " ++ toString count ++ " statement(s).\n" ++ script executed)
    else pure ""
  return plan.report ++ scriptPart ++ executedPart

namespace Invocation

/-- The answer to the command `version` and to the option of that name. -/
def versionText : String := "chstate 0.1.0\n"

/-- Show the plan from the catalog to the schema, or write it to a file. -/
def runPlan (o : SharedOptions) (format : TextFormat) (output : Option String)
    (withScript apply : Bool) : Running String := do
  let desired ← o.loadSchema format
  let current ← o.introspect format
  let text ← Running.lift .execution
    ((Plan.diff desired current.snapshot).fullReport withScript apply)
  match output with
  | none => return text
  | some path => do
    Filing.writeFile path text (.writeOutput path)
    return ""

/-- Show the statements that create the tables of the schema. -/
def runSql (o : SharedOptions) (format : TextFormat) : Running String := do
  let s ← o.loadSchema format
  return script (s.tables.entries.map Table.createStatement)

/-- Write the schema of the catalog to a directory. -/
def runDump (o : SharedOptions) (format : TextFormat) (outputDirectory : Option String)
    (tablesOnly overwrite : Bool) : Running String := do
  let found ← o.introspect format
  let options : DumpOptions :=
    ⟨outputDirectory.getD o.schemaDirectory, o.database, tablesOnly, overwrite⟩
  let written ← ExceptT.adapt CommandError.dump (options.dump format found.snapshot)
  return "Wrote " ++ toString written.length ++ " file(s)\n" ++ found.statistics.text

/-- Run a command. The answer is what it prints. -/
def run (i : Invocation) (format : TextFormat) : Running String :=
  match i.command with
  | .plan output withScript apply => runPlan i.shared format output withScript apply
  | .sql => runSql i.shared format
  | .dump outputDirectory tablesOnly overwrite =>
    runDump i.shared format outputDirectory tablesOnly overwrite
  | .version => return versionText

end Invocation

/-! ## Command lines -/

/-- The text an inquiry is answered with. -/
def Inquiry.answer : Inquiry → String
  | version => Invocation.versionText
  | help =>
    "Declarative schema management for ClickHouse\n\nUsage: chstate [OPTIONS] <COMMAND>\n\n" ++
      "Commands: plan, sql, dump, version, help\n"

/-- How a command line ends. -/
inductive Outcome
  /-- The arguments are not those of a command. -/
  | rejected (cause : Interruption)
  | finished (output : String)
  | failed (cause : CommandError)
  deriving DecidableEq, Repr

/-- The number the program ends with. -/
def Outcome.exitCode : Outcome → Nat
  | rejected _ => 2
  | finished _ => 0
  | failed cause => cause.exitCode

/-- A command line from its words to its outcome and the files it leaves. -/
def runCommandLine (format : TextFormat) (env : Environment) (arguments : List String)
    (t : FileTree) : Outcome × FileTree :=
  match Invocation.parse env arguments with
  | .error (.inquiry q) => (.finished q.answer, t)
  | .error cause => (.rejected cause, t)
  | .ok invocation =>
    match (invocation.run format).run.run t with
    | (.ok output, t) => (.finished output, t)
    | (.error cause, t) => (.failed cause, t)

end SchemaPlan
