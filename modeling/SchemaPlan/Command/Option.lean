/-!
# Options of the command line

The options that the commands take: their names, the values they take, and the environment
variables that stand in for them.
-/

namespace SchemaPlan

/-- The options of all commands. -/
inductive CommandOption
  | schemaDirectory
  | database
  | catalog
  | logLevel
  | logFormat
  | noColor
  | output
  | withScript
  | apply
  | outputDirectory
  | tablesOnly
  | overwrite
  deriving DecidableEq, Repr

namespace CommandOption

/-- The options that every command takes. They may stand before the command, too. -/
def shared : List CommandOption :=
  [schemaDirectory, database, catalog, logLevel, logFormat, noColor]

/-- The name after two dashes. -/
def long : CommandOption → String
  | schemaDirectory => "config"
  | database => "database"
  | catalog => "catalog"
  | logLevel => "log-level"
  | logFormat => "log-format"
  | noColor => "no-color"
  | output => "output"
  | withScript => "sql"
  | apply => "apply"
  | outputDirectory => "output-dir"
  | tablesOnly => "tables-only"
  | overwrite => "overwrite"

/-- The letter after one dash. -/
def short? : CommandOption → Option Char
  | schemaDirectory => some 'c'
  | output => some 'o'
  | _ => none

/-- The values of an option: none, a text, a path, or one of some words. -/
inductive Values
  | none
  | text
  | path
  | words (allowed : List String)
  deriving DecidableEq, Repr

/-- Which values an option takes. -/
def values : CommandOption → Values
  | schemaDirectory => .path
  | database => .text
  | catalog => .path
  | logLevel => .words ["trace", "debug", "info", "warn", "error"]
  | logFormat => .words ["text", "json"]
  | noColor => .none
  | output => .path
  | withScript => .none
  | apply => .none
  | outputDirectory => .path
  | tablesOnly => .none
  | overwrite => .none

/-- The option does not stand alone. -/
def takesValue (o : CommandOption) : Bool := o.values != .none

/-- The option takes this value. A path is not empty. -/
def accepts (o : CommandOption) (value : String) : Bool :=
  match o.values with
  | .none => true
  | .text => true
  | .path => !value.isEmpty
  | .words allowed => allowed.contains value

/-- The environment variable whose value is taken when the option is not given. -/
def standIn? : CommandOption → Option String
  | schemaDirectory => some "CHSTATE_SCHEMA_DIR"
  | database => some "CHSTATE_DATABASE"
  | catalog => some "CHSTATE_CATALOG"
  | logLevel => some "CHSTATE_LOG_LEVEL"
  | _ => none

end CommandOption

end SchemaPlan
