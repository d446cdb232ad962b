import SchemaPlan.Engine.Render
import SchemaPlan.Plan.Action

/-!
# Statements

The statements of the data definition language that carry a plan out.

* `Table.createStatement`: the statement that creates a table.
* `Change.statement`: the statement of a change, refused when a name it needs is empty.
* `Plan.statements`: the statements of all actions; the first refused one refuses the plan.
* `script`: statements as one text.
-/

namespace SchemaPlan

/-- `lead` and the text after it, or nothing for an absent or empty text. -/
def optionalPart (lead : String) (text : Option String) : String :=
  match text.bind stated? with
  | none => ""
  | some text => lead ++ text

/-- What follows the name in the definition of a column. -/
def Column.definition (c : Column) : String :=
  " " ++ c.type ++ optionalPart " DEFAULT " c.defaultExpression ++ optionalPart " " c.codec ++
    optionalPart " COMMENT " ((c.comment.bind stated?).map Sql.quoteLiteral)

/-- An index inside a `CREATE TABLE` statement. -/
def Index.definition (i : Index) : String :=
  "INDEX `" ++ i.name ++ "` " ++ i.expression ++ " TYPE " ++ i.type ++ " GRANULARITY " ++
    toString i.granularity

namespace Table

/-- The lines between the parentheses of a create statement. -/
def definitions (t : Table) : List String :=
  t.columns.map (fun c => "  `" ++ c.name ++ "`" ++ c.definition) ++
    t.indexes.map (fun i => "  " ++ i.definition)

/-- The sorting key as it is written: one expression bare, several in parentheses. -/
def sortingClause (t : Table) : String :=
  match t.orderBy with
  | [] => ""
  | [key] => "\nORDER BY " ++ key
  | keys => "\nORDER BY (" ++ ", ".intercalate keys ++ ")"

/-- The settings as they are written, in the order of their keys. -/
def settingsClause (t : Table) : String :=
  if t.settings.isEmpty then ""
  else "\nSETTINGS " ++ ", ".intercalate (t.settings.pairs.map fun p => p.1 ++ " = " ++ p.2)

/-- The engine of a table and the clauses after it. -/
def engineText (t : Table) : String :=
  t.engine.render ++ optionalPart "\nPARTITION BY " t.partitionBy ++ t.sortingClause ++
    optionalPart "\nTTL " t.ttl ++ t.settingsClause

/-- The statement that creates a table. Without a database it goes into `default`. -/
def createStatement (t : Table) : String :=
  "CREATE TABLE " ++ t.database.getD "default" ++ "." ++ t.name ++ " (\n" ++
    ",\n".intercalate t.definitions ++ "\n) ENGINE = " ++ t.engineText

end Table

/-- What keeps a change from being a statement. -/
inductive Defect
  | emptyTableName
  | noColumns
  | emptyColumnName
  | emptyColumnType
  deriving DecidableEq, Repr

/-- The wording of a defect. -/
def Defect.text : Defect → String
  | emptyTableName => "table name is empty"
  | noColumns => "table has no columns"
  | emptyColumnName => "column name is empty"
  | emptyColumnType => "column type is empty"

/-- A change that has no statement, and its first defect. -/
structure InvalidChange where
  change : Change
  defect : Defect
  deriving DecidableEq, Repr

/-- The wording of a change with a defect. -/
def InvalidChange.message (e : InvalidChange) : String :=
  "invalid payload for " ++ e.change.type ++ " on `" ++ e.change.target.text ++ "`: " ++
    e.defect.text

namespace Change

/-- What a statement needs, in the order in which it is checked, each with the defect of a change
that lacks it. -/
def requirements : Change → List (Bool × Defect)
  | createTable table =>
    [(!table.name.isEmpty, .emptyTableName), (!table.columns.isEmpty, .noColumns)]
  | dropTable target => [(!target.name.isEmpty, .emptyTableName)]
  | addColumn target column =>
    [(!target.name.isEmpty, .emptyTableName), (!column.name.isEmpty, .emptyColumnName),
      (!column.type.isEmpty, .emptyColumnType)]
  | dropColumn target column =>
    [(!target.name.isEmpty, .emptyTableName), (!column.isEmpty, .emptyColumnName)]

/-- The first thing that a change lacks. -/
def defect? (change : Change) : Option Defect :=
  (change.requirements.find? (!·.1)).map (·.2)

/-- The statement of a change. -/
def text : Change → String
  | createTable table => table.createStatement
  | dropTable target => "DROP TABLE " ++ target.text
  | addColumn target column =>
    "ALTER TABLE " ++ target.text ++ " ADD COLUMN " ++ column.name ++ column.definition
  | dropColumn target column => "ALTER TABLE " ++ target.text ++ " DROP COLUMN " ++ column

/-- The statement of a change that lacks nothing. -/
def statement (change : Change) : Except InvalidChange String :=
  match change.defect? with
  | some defect => .error ⟨change, defect⟩
  | none => .ok change.text

end Change

/-- The statements of a plan, in order. The first invalid change refuses the whole plan. -/
def Plan.statements (plan : Plan) : Except InvalidChange (List String) :=
  plan.mapM (·.change.statement)

/-- Statements as one text, each ended by a semicolon and a line break. -/
def script (statements : List String) : String :=
  String.join (statements.map (· ++ ";\n"))

end SchemaPlan
