import SchemaPlan.Proofs.ExecutionProgress
import SchemaPlan.Proofs.PlannedCreations

/-!
# Checks of columns

Which changes get a statement, and what their statements define. A column that is added alone has
to have a name and a type; a table that is created only has to have a name and some column.

* `Change.hasStatement_iff`: a change gets a statement when it lacks nothing; `Table.canBeCreated_iff`
  and `Table.canBeAdded_iff`: what that says of a table and of its columns.
* `Plan.newColumns_complete_iff`: the columns that the statements of a plan define.
* **`creation_checks_columns_iff`**: exactly when creating a table checks what adding its columns
  checks, and exactly which plans define columns without a name or a type.
* `creation_of_incomplete_columns`: a table that is created although none of its columns can be added.
-/

namespace SchemaPlan

/-- A column has a name and a type. -/
structure Column.IsComplete (c : Column) : Prop where
  name : c.name ≠ ""
  type : c.type ≠ ""

namespace Change

variable {change : Change}

/-- A change gets a statement. -/
def HasStatement (change : Change) : Prop := ∃ text, change.statement = .ok text

/-- The columns that the statement of a change defines. -/
def newColumns : Change → List Column
  | createTable table => table.columns
  | addColumn _ column => [column]
  | dropTable _ | dropColumn .. => []

theorem defect?_eq_none_iff : change.defect? = none ↔ ∀ r ∈ change.requirements, r.1 = true := by
  simp [defect?]

theorem hasStatement_iff_defect? : change.HasStatement ↔ change.defect? = none := by
  unfold HasStatement statement
  cases change.defect? <;> simp

/-- **A change gets a statement when it lacks nothing.** -/
theorem hasStatement_iff : change.HasStatement ↔ ∀ r ∈ change.requirements, r.1 = true :=
  hasStatement_iff_defect?.trans defect?_eq_none_iff

theorem hasStatement_addColumn_iff {target : QualifiedName} {column : Column} :
    (addColumn target column).HasStatement ↔ target.name ≠ "" ∧ column.IsComplete := by
  rw [hasStatement_iff]
  simp only [requirements, List.forall_mem_cons, List.not_mem_nil, false_imp_iff, implies_true,
    and_true, Bool.not_eq_true', String.isEmpty_eq_false_iff]
  exact and_congr_right fun _ => ⟨fun h => ⟨h.1, h.2⟩, fun h => ⟨h.name, h.type⟩⟩

/-- What defines columns is a creation, or it checks them. -/
theorem complete_of_hasStatement (h : change.HasStatement)
    (hcreates : ∀ table, change ≠ .createTable table) : ∀ c ∈ change.newColumns, c.IsComplete := by
  cases change with
  | createTable table => exact absurd rfl (hcreates table)
  | addColumn target column =>
    intro c hc
    rw [List.mem_singleton.mp hc]
    exact (hasStatement_addColumn_iff.mp h).2
  | dropTable | dropColumn => exact fun c hc => nomatch hc

end Change

namespace Table

variable {t : Table}

theorem canBeCreated_iff :
    (Change.createTable t).HasStatement ↔ t.name ≠ "" ∧ t.columns ≠ [] := by
  rw [Change.hasStatement_iff]
  simp [Change.requirements, String.isEmpty_eq_false_iff]

theorem canBeAdded_iff (hname : t.name ≠ "") :
    (∀ c ∈ t.columns, (Change.addColumn t.qualifiedName c).HasStatement) ↔
      ∀ c ∈ t.columns, c.IsComplete :=
  forall₂_congr fun _ _ => Change.hasStatement_addColumn_iff.trans (and_iff_right hname)

end Table

namespace Plan

variable {plan : Plan}

theorem exists_statements_iff :
    (∃ texts, plan.statements = .ok texts) ↔ ∀ action ∈ plan, action.change.HasStatement := by
  have hnone : plan.firstInvalid? = none ↔ ∀ action ∈ plan, action.change.HasStatement := by
    simp [firstInvalid?, Change.hasStatement_iff_defect?]
  rw [← hnone, plan.statements_eq]
  cases plan.firstInvalid? <;> simp

/-- **The statements of a plan define columns without a name or a type only where they create
tables with such columns.** -/
theorem newColumns_complete_iff (h : ∀ action ∈ plan, action.change.HasStatement) :
    (∀ action ∈ plan, ∀ c ∈ action.change.newColumns, c.IsComplete) ↔
      ∀ table, plan.Creates table → ∀ c ∈ table.columns, c.IsComplete := by
  constructor
  · rintro hcomplete table ⟨action, haction, hchange⟩ c hc
    refine hcomplete action haction c ?_
    rwa [hchange]
  · intro hcreated action haction c hc
    by_cases hcreates : ∃ table, action.change = .createTable table
    · obtain ⟨table, hchange⟩ := hcreates
      rw [hchange] at hc
      exact hcreated table ⟨action, haction, hchange⟩ c hc
    · exact Change.complete_of_hasStatement (h action haction)
        (not_exists.mp hcreates) c hc

end Plan

/-- **What the creation of a table checks of its columns.** It asks for a name of the table and for
some column. That is what adding all its columns asks for exactly if the table has no name or every
column has a name and a type; and of the plans that have statements, those define a column without a
name or a type that create a table with one. -/
theorem creation_checks_columns_iff (t : Table) (plan : Plan) :
    ((Change.createTable t).HasStatement ↔ t.name ≠ "" ∧ t.columns ≠ []) ∧
    (((Change.createTable t).HasStatement ↔ t.name ≠ "" ∧ t.columns ≠ [] ∧
        ∀ c ∈ t.columns, (Change.addColumn t.qualifiedName c).HasStatement) ↔
      t.name = "" ∨ ∀ c ∈ t.columns, c.IsComplete) ∧
    ((∃ texts, plan.statements = .ok texts) ∧
        (∃ action ∈ plan, ∃ c ∈ action.change.newColumns, ¬ c.IsComplete) ↔
      (∃ texts, plan.statements = .ok texts) ∧
        ∃ table, plan.Creates table ∧ ∃ c ∈ table.columns, ¬ c.IsComplete) := by
  refine ⟨Table.canBeCreated_iff, ?_, and_congr_right fun hstatements => ?_⟩
  · rw [Table.canBeCreated_iff]
    by_cases hname : t.name = ""
    · simp [hname]
    rw [Table.canBeAdded_iff hname]
    constructor
    · intro hagree
      refine .inr fun c hc => ?_
      exact (hagree.mp ⟨hname, List.ne_nil_of_mem hc⟩).2.2 c hc
    · rintro (hempty | hcomplete)
      · exact absurd hempty hname
      · exact ⟨fun h => ⟨h.1, h.2, hcomplete⟩, fun h => ⟨h.1, h.2.1⟩⟩
  · have hcomplete := Plan.newColumns_complete_iff (Plan.exists_statements_iff.mp hstatements)
    simpa only [not_forall, exists_prop] using not_congr hcomplete

/-- **A table is created with a column that has no name and one that has no type**, although neither
of them can be added to it. -/
theorem creation_of_incomplete_columns :
    let unnamed : Column := { name := "", type := "String" }
    let untyped : Column := { name := "id", type := "" }
    let t : Table := { name := "events", columns := [unnamed, untyped], engine := .log }
    (Change.createTable t).statement =
        .ok "CREATE TABLE default.events (\n  `` String,\n  `id` \n) ENGINE = Log()" ∧
      (Change.addColumn t.qualifiedName unnamed).statement =
        .error ⟨.addColumn t.qualifiedName unnamed, .emptyColumnName⟩ ∧
      (Change.addColumn t.qualifiedName untyped).statement =
        .error ⟨.addColumn t.qualifiedName untyped, .emptyColumnType⟩ := by
  decide +kernel

end SchemaPlan
