import SchemaPlan.Schema.Table

/-!
# Plans

A plan is a list of actions, each a change of one table together with the reason for it.
-/

namespace SchemaPlan

/-- A change to one table. -/
inductive Change
  | createTable (table : Table)
  | dropTable (target : QualifiedName)
  | addColumn (target : QualifiedName) (column : Column)
  | dropColumn (target : QualifiedName) (column : String)
  deriving DecidableEq, Repr

namespace Change

/-- The kind of a change, as plans and messages name it. -/
def type : Change → String
  | createTable _ => "CREATE_TABLE"
  | dropTable _ => "DROP_TABLE"
  | addColumn .. => "ADD_COLUMN"
  | dropColumn .. => "DROP_COLUMN"

/-- The table a change is about. -/
def target : Change → QualifiedName
  | createTable table => table.qualifiedName
  | dropTable target => target
  | addColumn target _ => target
  | dropColumn target _ => target

end Change

/-- A planned change and why it was planned. -/
structure Action where
  change : Change
  reason : String
  deriving DecidableEq, Repr

/-- The actions of a plan, in the order in which they are to be done. -/
abbrev Plan := List Action

end SchemaPlan
