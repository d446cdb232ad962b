import Mathlib.Data.List.Forall2
import SchemaPlan.Plan.Report
import SchemaPlan.Proofs.Convergence
import SchemaPlan.Proofs.SnapshotRuns

/-!
# Databases in plans

Tables are matched by their names alone, so a plan passes databases on and never looks at them. To
move the tables of one side to other databases moves what the plan says of these tables and changes
nothing else: not which actions there are, nor their order, nor their reasons.

* `Keyed.map`: a map with other values; `Keyed.ofList_map`: it is the map of the changed pairs.
* `Table.moved`, `Action.moved`: the same table or action with other databases.
* `Plan.diff_moved`: planning commutes with moving either side.
* `Resolved`: what becomes of one entity when databases are filled in; `Snapshot.resolved_entries`:
  what becomes of all of them.
* **`Plan.diff_resolveDatabase`**: filling in databases, on either side of a plan.
-/

namespace SchemaPlan

/-! ## Maps with other values -/

namespace Keyed

variable {α β : Type} {m : Keyed α} {f : α → β} {k : String}

/-- The map that has `f v` where `m` has `v`. -/
def map (f : α → β) (m : Keyed α) : Keyed β where
  pairs := m.pairs.map fun p => (p.1, f p.2)
  ascending := List.pairwise_map.mpr m.ascending

@[simp] theorem get?_map : (m.map f).get? k = (m.get? k).map f := by
  rw [get?, get?, map, List.find?_map, Option.map_map, Option.map_map]
  rfl

@[simp] theorem contains_map : (m.map f).contains k = m.contains k := by
  rw [contains, contains, get?_map, Option.isSome_map]

theorem values_map : (m.map f).values = m.values.map f := by
  rw [values, values, map, List.map_map, List.map_map]
  rfl

theorem ofList_map (f : α → β) (l : List (String × α)) :
    ofList (l.map fun p => (p.1, f p.2)) = (ofList l).map f := by
  refine ext_get? fun k => ?_
  rw [get?_map, get?_ofList, get?_ofList, ← List.map_reverse, List.find?_map, Option.map_map,
    Option.map_map]
  rfl

theorem map_without {γ δ : Type} (f : α → β) (g : γ → δ) (m : Keyed α) (n : Keyed γ) :
    (m.map f).without (n.map g) = (m.without n).map fun p => (p.1, f p.2) := by
  simp only [without, map, List.filter_map, Function.comp_def]
  exact congrArg (List.map _) (List.filter_congr fun p _ => by rw [← contains_map (f := g)]; rfl)

end Keyed

/-! ## Moving tables -/

variable {created aimed : Option String → Option String}

/-- The table with the database that `move` gives for its own. -/
def Table.moved (move : Option String → Option String) (t : Table) : Table :=
  { t with database := move t.database }

/-- The name with the database that `move` gives for its own. -/
def QualifiedName.moved (move : Option String → Option String) (q : QualifiedName) :
    QualifiedName := { q with database := move q.database }

/-- The change with other databases: `created` moves the table that is created, `aimed` the table
that is dropped or altered. -/
def Change.moved (created aimed : Option String → Option String) : Change → Change
  | createTable table => createTable (table.moved created)
  | dropTable target => dropTable (target.moved aimed)
  | addColumn target column => addColumn (target.moved aimed) column
  | dropColumn target column => dropColumn (target.moved aimed) column

/-- The action with other databases, for the same reason. -/
def Action.moved (created aimed : Option String → Option String) (action : Action) : Action :=
  { action with change := action.change.moved created aimed }

theorem tablesByName_moved (move : Option String → Option String) (tables : List Table) :
    tablesByName (tables.map (·.moved move)) = (tablesByName tables).map (·.moved move) := by
  rw [tablesByName, tablesByName, ← Keyed.ofList_map, List.map_map, List.map_map]
  rfl

namespace Plan

variable {desired desired' current current' : Snapshot}

theorem byName_moved {s t : Snapshot} {move : Option String → Option String}
    (h : t.tables.entries = s.tables.entries.map (·.moved move)) :
    t.byName = s.byName.map (·.moved move) := by
  rw [Snapshot.byName, h, tablesByName_moved]
  rfl

/-- Columns are compared without a look at where the tables lie. -/
theorem columnActions_moved (wanted live : Table) :
    columnActions (wanted.moved created) (live.moved aimed) =
      (columnActions wanted live).map (·.moved created aimed) := by
  simp only [columnActions, List.map_append, List.map_map]
  rfl

theorem alterations_moved (present : Keyed Table) (wanted : Table) :
    alterations (present.map (·.moved aimed)) (wanted.moved created) =
      (alterations present wanted).map (·.moved created aimed) := by
  have hname : (wanted.moved created).name = wanted.name := rfl
  rw [alterations, alterations, hname, Keyed.get?_map]
  cases present.get? wanted.name with
  | none => rfl
  | some live => exact columnActions_moved wanted live

/-- **Planning commutes with moving tables.** -/
theorem diff_moved
    (hdesired : desired'.tables.entries = desired.tables.entries.map (·.moved created))
    (hcurrent : current'.tables.entries = current.tables.entries.map (·.moved aimed)) :
    diff desired' current' = (diff desired current).map (·.moved created aimed) := by
  have halterations : desired'.byName.values.flatMap (alterations current'.byName) =
      (desired.byName.values.flatMap (alterations current.byName)).map
        (·.moved created aimed) := by
    rw [byName_moved hdesired, byName_moved hcurrent, Keyed.values_map, List.flatMap_map,
      List.map_flatMap]
    exact List.flatMap_congr fun wanted _ => alterations_moved _ wanted
  rw [diff_eq, diff_eq, halterations, byName_moved hdesired, byName_moved hcurrent,
    Keyed.map_without, Keyed.map_without]
  simp only [List.map_append, List.map_map]
  rfl

theorem reportLines_moved (plan : Plan) :
    reportLines (plan.map (·.moved created aimed)) = plan.reportLines := by
  have htype (change : Change) : (change.moved created aimed).type = change.type := by
    cases change <;> rfl
  rw [reportLines, reportLines, List.zipIdx_map, List.map_map]
  refine List.map_congr_left fun entry _ => ?_
  simp only [Function.comp_apply, reportLine, Action.moved, Prod.map_fst, Prod.map_snd, htype,
    id_eq]

theorem report_moved (plan : Plan) :
    report (plan.map (·.moved created aimed)) = plan.report := by
  cases plan with
  | nil => rfl
  | cons action rest =>
    unfold report
    rw [reportLines_moved]
    simp only [List.map_cons, List.isEmpty_cons]

end Plan

/-! ## Filling in databases -/

/-- The entity without its database. -/
def EntityKind.placeless : (kind : EntityKind) → kind.Member → kind.Member
  | .table, x => { x with database := none }
  | .view, x => { x with database := none }
  | .materializedView, x => { x with database := none }
  | .dictionary, x => { x with database := none }
  | .cluster, x => x

/-- What becomes of an entity when a database is filled in. -/
inductive Resolved (database : String) : (kind : EntityKind) → kind.Member → kind.Member → Prop
  /-- A cluster belongs to no database. -/
  | cluster (x : Cluster) : Resolved database .cluster x x
  /-- A database that is named stays, the empty one too. -/
  | named {kind : EntityKind} {x : kind.Member} (hnamed : Entity.database x ≠ none) :
      Resolved database kind x x
  /-- An entity that names none gets the database, and nothing else of it changes. -/
  | filled {kind : EntityKind} {x y : kind.Member} (hnone : Entity.database x = none)
      (hfilled : Entity.database y = some database)
      (hrest : kind.placeless y = kind.placeless x) : Resolved database kind x y

namespace EntityKind

variable {kind : EntityKind} {x : kind.Member}

theorem resolve_of_named (database : String) (h : Entity.database x ≠ none) :
    Entity.resolve database x = x := by
  obtain ⟨named, hnamed⟩ := Option.ne_none_iff_exists'.mp h
  cases kind with
  | cluster => rfl
  | table | view | materializedView | dictionary =>
    obtain ⟨name, _⟩ := x
    cases hnamed
    rfl

theorem resolved_resolve (database : String) (x : kind.Member) :
    Resolved database kind x (Entity.resolve database x) := by
  by_cases h : Entity.database x = none
  · cases kind with
    | cluster => exact .cluster x
    | table | view | materializedView | dictionary =>
      refine .filled h ?_ rfl
      change (Entity.database x).or (some database) = some database
      rw [h, Option.none_or]
  · rw [resolve_of_named database h]
    exact .named h

theorem resolve_resolve (d d' : String) (x : kind.Member) :
    Entity.resolve d' (Entity.resolve d x) = Entity.resolve d x := by
  have hresolved := resolved_resolve d x
  generalize Entity.resolve d x = y at hresolved ⊢
  cases hresolved with
  | cluster => rfl
  | named hnamed => exact resolve_of_named d' hnamed
  | filled _ hfilled => exact resolve_of_named d' (by simp [hfilled])

end EntityKind

namespace Snapshot

/-- What becomes of all entities, each one at its place. -/
theorem resolved_entries (s : Snapshot) (database : String) (kind : EntityKind) :
    List.Forall₂ (Resolved database kind) (s.collection kind).entries
      ((s.resolveDatabase database).collection kind).entries := by
  rw [collection_resolveDatabase]
  refine List.forall₂_map_right_iff.mpr (List.forall₂_same.mpr fun x _ => ?_)
  exact EntityKind.resolved_resolve database x

theorem resolveDatabase_resolveDatabase (s : Snapshot) (d d' : String) :
    (s.resolveDatabase d).resolveDatabase d' = s.resolveDatabase d := by
  refine ext_collection fun kind => Collection.ext ?_
  rw [collection_resolveDatabase, collection_resolveDatabase]
  change ((s.collection kind).entries.map (Entity.resolve d)).map (Entity.resolve d') =
    (s.collection kind).entries.map (Entity.resolve d)
  rw [List.map_map]
  exact List.map_congr_left fun x _ => EntityKind.resolve_resolve d d' x

end Snapshot

namespace Plan

/-- **Filling in databases.** On the desired side it shows in the tables that are created, and on
the current side in the targets of the other actions: each time the database is named where none
was. Nothing else of a plan changes, and nothing of its report. Every entity stays at its place and
keeps its name, its database if it names one, and all its other fields; a second database is never
filled in. -/
theorem diff_resolveDatabase (desired current : Snapshot) (d d' : String) :
    diff (desired.resolveDatabase d) current =
        (diff desired current).map (·.moved (·.or (some d)) id) ∧
      diff desired (current.resolveDatabase d) =
        (diff desired current).map (·.moved id (·.or (some d))) ∧
      report (diff (desired.resolveDatabase d) current) = report (diff desired current) ∧
      report (diff desired (current.resolveDatabase d)) = report (diff desired current) ∧
      (desired.resolveDatabase d).resolveDatabase d' = desired.resolveDatabase d ∧
      ∀ kind, List.Forall₂ (Resolved d kind) (desired.collection kind).entries
        ((desired.resolveDatabase d).collection kind).entries := by
  have hcreated : diff (desired.resolveDatabase d) current =
      (diff desired current).map (·.moved (·.or (some d)) id) :=
    diff_moved rfl (List.map_id _).symm
  have haimed : diff desired (current.resolveDatabase d) =
      (diff desired current).map (·.moved id (·.or (some d))) :=
    diff_moved (List.map_id _).symm rfl
  refine ⟨hcreated, haimed, ?_, ?_, desired.resolveDatabase_resolveDatabase d d',
    desired.resolved_entries d⟩
  · rw [hcreated, report_moved]
  · rw [haimed, report_moved]

/-- One table is created in the database, one is dropped where it lies, and a column is added. -/
example :
    let ts : Column := { name := "ts", type := "DateTime" }
    let desired : Snapshot :=
      { tables := ⟨[{ name := "events", columns := [ts], engine := .log },
          { name := "hourly", engine := .log },
          { name := "daily", database := some "", engine := .log }], by decide⟩ }
    let current : Snapshot :=
      { tables := ⟨[{ name := "events", engine := .log }, .sample "old"], by decide⟩ }
    (diff (desired.resolveDatabase "main") current).map (·.change) =
      [.createTable { name := "daily", database := some "", engine := .log },
        .createTable { name := "hourly", database := some "main", engine := .log },
        .dropTable ⟨some "default", "old"⟩, .addColumn ⟨none, "events"⟩ ts] := by
  decide

end Plan

end SchemaPlan
