import SchemaPlan.Command.Arguments

/-!
# Invocations

What a command line asks for: a command, its options, and the options that all commands share. A
shared option may stand before or after the name of the command. The one after it counts, then the
one before it, then the environment, then the default.
-/

namespace SchemaPlan

/-- The options that every command takes. -/
structure SharedOptions where
  schemaDirectory : String := "schema"
  database : Option String := none
  catalog : Option String := none
  deriving DecidableEq, Repr

/-- A command with its own options. -/
inductive Command
  /-- Show the plan from the catalog to the schema. -/
  | plan (output : Option String) (withScript apply : Bool)
  /-- Show the statements that create the tables of the schema. -/
  | sql
  /-- Write the schema of the catalog. -/
  | dump (outputDirectory : Option String) (tablesOnly overwrite : Bool)
  | version
  deriving DecidableEq, Repr

/-- What a command line asks for. -/
structure Invocation where
  shared : SharedOptions
  command : Command
  deriving DecidableEq, Repr

/-- The commands, without what is given for them. -/
inductive CommandName
  | plan
  | sql
  | dump
  | version
  deriving DecidableEq, Repr

namespace CommandName

/-- The command a word calls. -/
def ofText? (name : String) : Option CommandName :=
  if name = "plan" then some plan
  else if name = "sql" then some sql
  else if name = "dump" then some dump
  else if name = "version" then some version
  else none

/-- The options of a command, besides those that all commands share. -/
def options : CommandName → List CommandOption
  | plan => [.output, .withScript, .apply]
  | sql => []
  | dump => [.outputDirectory, .tablesOnly, .overwrite]
  | version => []

/-- The command of a name with what is given for it. -/
def command (name : CommandName) (given : Given) : Command :=
  match name with
  | plan => .plan (given.value? .output) (given.has .withScript) (given.has .apply)
  | sql => .sql
  | dump =>
    .dump (given.value? .outputDirectory) (given.has .tablesOnly) (given.has .overwrite)
  | version => .version

end CommandName

/-- The variables of the environment. -/
abbrev Environment := String → Option String

/-- The value of the variable that stands in for an option. -/
def Environment.valueOf (env : Environment) (o : CommandOption) : Option String :=
  o.standIn?.bind env

/-- The environment has no bad value for a shared option that was not given. -/
def Environment.check (env : Environment) (given : Given) : Except Interruption Unit :=
  CommandOption.shared.forM fun o =>
    match given.has o, env.valueOf o with
    | false, some value => if o.accepts value then .ok () else .error (.invalidValue o value)
    | _, _ => .ok ()

/-- What comes of the word `help` and the arguments after it: at most the name of one command, or
the word itself. -/
def helpOn : List String → Interruption
  | [] => .inquiry .help
  | [name] =>
    if name = "help" || (CommandName.ofText? name).isSome then .inquiry .help
    else .unexpectedArgument name
  | _ :: name :: _ => .unexpectedArgument name

/-- What a command line asks for. The environment is checked for each of the two places where
shared options may stand. -/
def Invocation.parse (env : Environment) (arguments : List String) :
    Except Interruption Invocation := do
  let (before, rest) ← readOptions ⟨CommandOption.shared, true⟩ [] arguments
  match rest with
  | [] => throw .missingCommand
  | name :: rest =>
    if name = "help" then throw (helpOn rest)
    match CommandName.ofText? name with
    | none => throw (.unexpectedArgument name)
    | some name => do
      let (after, rest) ← readOptions ⟨CommandOption.shared ++ name.options, false⟩ [] rest
      match rest with
      | argument :: _ => throw (.unexpectedArgument argument)
      | [] => do
        env.check after
        env.check before
        let value? (o : CommandOption) : Option String :=
          ((after.value? o).or (before.value? o)).or (env.valueOf o)
        return {
          shared := {
            schemaDirectory := (value? .schemaDirectory).getD "schema"
            database := value? .database
            catalog := value? .catalog }
          command := name.command after }

end SchemaPlan
