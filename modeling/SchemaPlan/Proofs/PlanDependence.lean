import SchemaPlan.Plan.Report
import SchemaPlan.Plan.Statement
import SchemaPlan.Proofs.OrderedDifference
import SchemaPlan.Proofs.PairedLists

/-!
# What a plan depends on

A plan looks at the desired tables up to their order, and at the current ones up to their order and
up to everything but their databases, their names and the names of their columns. Two pairs of
snapshots that look the same to it have the same plan, down to the reasons and the statements.

* `Plan.SameDemand`, `Plan.SameSight`: two desired or two current tables that look the same.
* `Plan.SameView`: two pairs of snapshots that look the same; `Plan.SameView.symm`.
* `Plan.Difference.transfer`: what differs on one pair differs on the other.
* `Plan.SameView.diff_eq`: the plans are equal.
* `Rearranged`, `SameShapes`: how the two sides may change.
* **`Plan.diff_eq_of_rearranged`**: such a change does not show in the plan, nor in its texts.
-/

namespace SchemaPlan

/-! ## Columns in any order -/

theorem mem_columnNames_iff_isLastNamed {t : Table} {name : String} :
    name ∈ t.columnNames ↔ ∃ c, IsLastNamed t.columns c ∧ c.name = name := by
  simp only [← contains_columnsByName, ← get?_columnsByName, Keyed.contains,
    Option.isSome_iff_exists]

theorem isLastNamed_iff_mem {columns : List Column} (h : (columns.map (·.name)).Nodup)
    {c : Column} : IsLastNamed columns c ↔ c ∈ columns := by
  constructor
  · rintro ⟨before, after, rfl, _⟩
    exact List.mem_append_right _ List.mem_cons_self
  · intro hc
    obtain ⟨before, after, rfl⟩ := List.append_of_mem hc
    rw [List.map_append, List.map_cons, List.nodup_middle, List.nodup_cons, List.mem_append] at h
    exact ⟨before, after, rfl, fun hafter => h.1 (.inr hafter)⟩

/-! ## Actions aim at a name -/

namespace Plan

variable {t u : Table} {desired desired' current current' : Snapshot} {action : Action}

theorem dropAction_congr (h : u.qualifiedName = t.qualifiedName) : dropAction u = dropAction t := by
  have hname : u.name = t.name := congrArg QualifiedName.name h
  rw [dropAction, dropAction, h, hname]

theorem addColumnAction_congr (h : u.qualifiedName = t.qualifiedName) (column : Column) :
    addColumnAction u column = addColumnAction t column := by
  have hname : u.name = t.name := congrArg QualifiedName.name h
  rw [addColumnAction, addColumnAction, h, hname]

theorem dropColumnAction_congr (h : u.qualifiedName = t.qualifiedName) (column : String) :
    dropColumnAction u column = dropColumnAction t column := by
  have hname : u.name = t.name := congrArg QualifiedName.name h
  rw [dropColumnAction, dropColumnAction, h, hname]

/-! ## What a plan looks at -/

/-- A desired table has the name of a current one and the names of its columns: the current table
stays as it is. -/
def Settled (desired : Snapshot) (t : Table) : Prop :=
  ∃ wanted ∈ desired.tables.entries, wanted.name = t.name ∧
    ∀ name, name ∈ t.columnNames ↔ name ∈ wanted.columnNames

/-- Two desired tables that look the same: equal where the table is to be created, and otherwise
with the same column described last under each name. -/
structure SameDemand (current : Snapshot) (t u : Table) : Prop where
  name_eq : u.name = t.name
  eq_of_absent : t.name ∉ current.tables.names → u = t
  isLastNamed_iff : ∀ column, IsLastNamed u.columns column ↔ IsLastNamed t.columns column

/-- Two current tables that look the same: of one name, with the same names of columns, and in one
database unless they stay as they are. -/
structure SameSight (desired : Snapshot) (t u : Table) : Prop where
  name_eq : u.name = t.name
  mem_columnNames_iff : ∀ name, name ∈ u.columnNames ↔ name ∈ t.columnNames
  placed : u.qualifiedName = t.qualifiedName ∨ Settled desired t

/-- Two pairs of snapshots look the same to a plan. -/
structure SameView (desired current desired' current' : Snapshot) : Prop where
  demand : ∀ t ∈ desired.tables.entries, ∃ u ∈ desired'.tables.entries, SameDemand current t u
  sight : ∀ t ∈ current.tables.entries, ∃ u ∈ current'.tables.entries, SameSight desired t u
  desired_names : ∀ name, name ∈ desired'.tables.names ↔ name ∈ desired.tables.names
  current_names : ∀ name, name ∈ current'.tables.names ↔ name ∈ current.tables.names

theorem SameDemand.mem_columnNames_iff (h : SameDemand current t u) (name : String) :
    name ∈ u.columnNames ↔ name ∈ t.columnNames := by
  simp only [mem_columnNames_iff_isLastNamed, h.isLastNamed_iff]

theorem SameDemand.refl (current : Snapshot) (t : Table) : SameDemand current t t :=
  ⟨rfl, fun _ => rfl, fun _ => Iff.rfl⟩

theorem eq_of_name_eq {s : Snapshot} (ht : t ∈ s.tables.entries) (hu : u ∈ s.tables.entries)
    (h : t.name = u.name) : t = u :=
  List.inj_on_of_nodup_map s.tables.distinct ht hu h

namespace SameView

theorem settled (h : SameView desired current desired' current') (hname : u.name = t.name)
    (hcolumns : ∀ name, name ∈ u.columnNames ↔ name ∈ t.columnNames) (ht : Settled desired t) :
    Settled desired' u := by
  obtain ⟨wanted, hwanted, hwantedName, hsame⟩ := ht
  obtain ⟨other, hother, hdemand⟩ := h.demand wanted hwanted
  refine ⟨other, hother, hdemand.name_eq.trans (hwantedName.trans hname.symm), fun name => ?_⟩
  rw [hcolumns, hsame, hdemand.mem_columnNames_iff]

theorem symm (h : SameView desired current desired' current') :
    SameView desired' current' desired current where
  demand u hu := by
    obtain ⟨t, ht, hname⟩ := List.mem_map.mp
      ((h.desired_names u.name).mp (List.mem_map.mpr ⟨u, hu, rfl⟩))
    obtain ⟨other, hother, hdemand⟩ := h.demand t ht
    obtain rfl : other = u := eq_of_name_eq hother hu (hdemand.name_eq.trans hname)
    refine ⟨t, ht, hname, fun habsent => ?_, fun column => (hdemand.isLastNamed_iff column).symm⟩
    exact (hdemand.eq_of_absent fun hmem =>
      habsent ((h.current_names _).mpr (hdemand.name_eq ▸ hmem))).symm
  sight u hu := by
    obtain ⟨t, ht, hname⟩ := List.mem_map.mp
      ((h.current_names u.name).mp (List.mem_map.mpr ⟨u, hu, rfl⟩))
    obtain ⟨other, hother, hsight⟩ := h.sight t ht
    obtain rfl : other = u := eq_of_name_eq hother hu (hsight.name_eq.trans hname)
    exact ⟨t, ht, hname, fun name => (hsight.mem_columnNames_iff name).symm,
      hsight.placed.imp Eq.symm (h.settled hsight.name_eq hsight.mem_columnNames_iff)⟩
  desired_names name := (h.desired_names name).symm
  current_names name := (h.current_names name).symm

end SameView

/-- A table whose columns change is not settled, so that its database is seen. -/
theorem SameSight.qualifiedName_eq {wanted live : Table} {name : String}
    (h : SameSight desired live u) (hwanted : wanted ∈ desired.tables.entries)
    (hname : live.name = wanted.name)
    (hdiffers : ¬ (name ∈ live.columnNames ↔ name ∈ wanted.columnNames)) :
    u.qualifiedName = live.qualifiedName := by
  refine h.placed.resolve_right ?_
  rintro ⟨other, hother, hotherName, hsame⟩
  obtain rfl : other = wanted := eq_of_name_eq hother hwanted (hotherName.trans hname)
  exact hdiffers (hsame name)

/-- **What differs on one pair of snapshots differs on another one that looks the same.** -/
theorem Difference.transfer (hview : SameView desired current desired' current')
    (h : Difference desired current action) : Difference desired' current' action := by
  cases h with
  | @create table hwanted habsent =>
    obtain ⟨u, hu, hdemand⟩ := hview.demand table hwanted
    obtain rfl := hdemand.eq_of_absent habsent
    exact .create hu fun hmem => habsent ((hview.current_names _).mp hmem)
  | @drop table hpresent hunwanted =>
    obtain ⟨u, hu, hsight⟩ := hview.sight table hpresent
    have hplace : u.qualifiedName = table.qualifiedName := by
      refine hsight.placed.resolve_right ?_
      rintro ⟨wanted, hwanted, hname, _⟩
      exact hunwanted (List.mem_map.mpr ⟨wanted, hwanted, hname⟩)
    rw [← dropAction_congr hplace]
    refine .drop hu fun hmem => hunwanted ?_
    rw [hsight.name_eq] at hmem
    exact (hview.desired_names _).mp hmem
  | @addColumn wanted live column hwanted hlive hname hlast habsent =>
    obtain ⟨w, hw, hdemand⟩ := hview.demand wanted hwanted
    obtain ⟨u, hu, hsight⟩ := hview.sight live hlive
    have hcolumn : column.name ∈ wanted.columnNames :=
      mem_columnNames_iff_isLastNamed.mpr ⟨column, hlast, rfl⟩
    have hplace := hsight.qualifiedName_eq hwanted hname fun h => habsent (h.mpr hcolumn)
    rw [← addColumnAction_congr hplace]
    refine .addColumn hw hu ?_ ((hdemand.isLastNamed_iff column).mpr hlast)
      fun hmem => habsent ((hsight.mem_columnNames_iff _).mp hmem)
    rw [hsight.name_eq, hname, hdemand.name_eq]
  | @dropColumn wanted live column hwanted hlive hname hpresent hunwanted =>
    obtain ⟨w, hw, hdemand⟩ := hview.demand wanted hwanted
    obtain ⟨u, hu, hsight⟩ := hview.sight live hlive
    have hplace := hsight.qualifiedName_eq hwanted hname fun h => hunwanted (h.mp hpresent)
    rw [← dropColumnAction_congr hplace]
    refine .dropColumn hw hu ?_ ((hsight.mem_columnNames_iff _).mpr hpresent)
      fun hmem => hunwanted ((hdemand.mem_columnNames_iff _).mp hmem)
    rw [hsight.name_eq, hname, hdemand.name_eq]

/-- **Pairs of snapshots that look the same have the same plan.** -/
theorem SameView.diff_eq (h : SameView desired current desired' current') :
    diff desired current = diff desired' current' := by
  refine eq_of_ascending (diff_ascending _ _) (diff_ascending _ _) fun action => ?_
  rw [mem_diff_iff, mem_diff_iff]
  exact ⟨.transfer h, .transfer h.symm⟩

end Plan

/-! ## What may change -/

/-- The table with its columns, whose names are distinct, in another order. -/
structure Table.Reordered (t u : Table) : Prop where
  columns : t.columns.Perm u.columns
  distinct : t.columnNames.Nodup
  rest : u = { t with columns := u.columns }

/-- Tables of one name in one database with the same names of columns. -/
structure Table.SameShape (t u : Table) : Prop where
  name_eq : u.name = t.name
  database_eq : u.database = t.database
  mem_columnNames_iff : ∀ name, name ∈ u.columnNames ↔ name ∈ t.columnNames

/-- The tables have the same names, databases and names of columns. -/
def SameShapes (tables tables' : List Table) : Prop :=
  (∀ t ∈ tables, ∃ u ∈ tables', t.SameShape u) ∧ ∀ u ∈ tables', ∃ t ∈ tables, t.SameShape u

/-- The tables of `desired'` are those of `desired` in any order, and those that `current` has by
name may have their columns in another order. -/
def Rearranged (current desired desired' : Snapshot) : Prop :=
  ∃ tables, List.Forall₂ (fun t u => u = t ∨ t.name ∈ current.tables.names ∧ t.Reordered u)
    desired.tables.entries tables ∧ tables.Perm desired'.tables.entries

namespace Plan

variable {t u : Table} {desired desired' current current' : Snapshot}

theorem sameDemand_of_reordered (hname : t.name ∈ current.tables.names) (h : t.Reordered u) :
    SameDemand current t u where
  name_eq := by
    rw [h.rest]
  eq_of_absent := fun habsent => absurd hname habsent
  isLastNamed_iff column := by
    have hdistinct : (u.columns.map (·.name)).Nodup := (h.columns.map _).nodup_iff.mp h.distinct
    rw [isLastNamed_iff_mem hdistinct, isLastNamed_iff_mem h.distinct, h.columns.mem_iff]

theorem sameView_of_rearranged (hdesired : Rearranged current desired desired')
    (hcurrent : SameShapes current.tables.entries current'.tables.entries) :
    SameView desired current desired' current' := by
  obtain ⟨tables, hpairs, hperm⟩ := hdesired
  have hdemand : List.Forall₂ (SameDemand current) desired.tables.entries tables := by
    refine hpairs.imp fun t u h => ?_
    rcases h with rfl | ⟨hname, hreordered⟩
    · exact .refl current u
    · exact sameDemand_of_reordered hname hreordered
  have hnames : tables.map (·.name) = desired.tables.entries.map (·.name) := by
    rw [← List.forall₂_eq_eq_eq, List.forall₂_map_left_iff, List.forall₂_map_right_iff]
    exact hdemand.flip.imp fun u t h => h.name_eq
  refine ⟨fun t ht => ?_, fun t ht => ?_, fun name => ?_, fun name => ?_⟩
  · obtain ⟨u, hu, hsame⟩ := exists_right_of_forall₂ hdemand ht
    exact ⟨u, hperm.subset hu, hsame⟩
  · obtain ⟨u, hu, hshape⟩ := hcurrent.1 t ht
    refine ⟨u, hu, hshape.name_eq, hshape.mem_columnNames_iff, .inl ?_⟩
    rw [Table.qualifiedName, hshape.name_eq, hshape.database_eq]
    rfl
  · have hmem := (hperm.map (·.name)).mem_iff (a := name)
    rw [hnames] at hmem
    exact hmem.symm
  · constructor
    · intro hmem
      obtain ⟨u, hu, rfl⟩ := List.mem_map.mp hmem
      obtain ⟨t, ht, hshape⟩ := hcurrent.2 u hu
      exact List.mem_map.mpr ⟨t, ht, hshape.name_eq.symm⟩
    · intro hmem
      obtain ⟨t, ht, rfl⟩ := List.mem_map.mp hmem
      obtain ⟨u, hu, hshape⟩ := hcurrent.1 t ht
      exact List.mem_map.mpr ⟨u, hu, hshape.name_eq⟩

/-- **What a plan depends on.** If the desired tables come in another order, those that are there
already with their columns in another order, and if of the current tables nothing is kept but their
names, their databases and the names of their columns, the plan stays the same, with its reasons,
its statements and its report. -/
theorem diff_eq_of_rearranged (hdesired : Rearranged current desired desired')
    (hcurrent : SameShapes current.tables.entries current'.tables.entries) :
    diff desired current = diff desired' current' ∧
      (diff desired current).statements = (diff desired' current').statements ∧
      (diff desired current).report = (diff desired' current').report := by
  have hdiff := (sameView_of_rearranged hdesired hcurrent).diff_eq
  exact ⟨hdiff, congrArg statements hdiff, congrArg report hdiff⟩

/-- One table to create, one to drop, and one that gets two columns and loses one. -/
theorem diff_eq_of_rearranged_events :
    let id : Column := { name := "id", type := "UInt64" }
    let ts : Column := { name := "ts", type := "DateTime" }
    let note : Column := { name := "note", type := "String", comment := some "free text" }
    let old : Column := { name := "old", type := "String" }
    let events : Table :=
      { name := "events", columns := [id, ts, note], orderBy := ["id"], engine := .mergeTree }
    let live : Table :=
      { name := "events", database := some "main", columns := [id, old], engine := .mergeTree }
    let desired : Snapshot := { tables := ⟨[events, .sample "hourly"], by decide⟩ }
    let desired' : Snapshot :=
      { tables := ⟨[.sample "hourly", { events with columns := [note, id, ts] }], by decide⟩
        clusters := ⟨[{ name := "all" }], by decide⟩ }
    let current : Snapshot := { tables := ⟨[live, .sample "daily"], by decide⟩ }
    let current' : Snapshot :=
      { tables :=
          ⟨[{ Table.sample "daily" with engine := .log, orderBy := [] },
            { live with
              columns := [{ old with codec := some "NONE" }, { id with type := "Int32" }]
              ttl := some "ts + INTERVAL 1 DAY" }], by decide⟩
        views := ⟨[{ name := "totals", selectQuery := "SELECT 1" }], by decide⟩ }
    Rearranged current desired desired' ∧
      SameShapes current.tables.entries current'.tables.entries ∧
      (diff desired current).map (·.change) =
        [.createTable (.sample "hourly"), .dropTable ⟨some "default", "daily"⟩,
          .addColumn ⟨some "main", "events"⟩ note, .addColumn ⟨some "main", "events"⟩ ts,
          .dropColumn ⟨some "main", "events"⟩ "old"] ∧
      diff desired current = diff desired' current' ∧
      (diff desired current).statements = (diff desired' current').statements ∧
      (diff desired current).report = (diff desired' current').report := by
  intro id ts note old events live desired desired' current current'
  have hdesired : Rearranged current desired desired' := by
    refine ⟨[{ events with columns := [note, id, ts] }, .sample "hourly"], ?_, .swap _ _ _⟩
    refine .cons (.inr ⟨by decide, ?_, by decide, rfl⟩) (.cons (.inl rfl) .nil)
    decide
  have hshape {t u : Table} (hplace : u.name = t.name ∧ u.database = t.database)
      (hcolumns : u.columnNames.Perm t.columnNames) : t.SameShape u :=
    ⟨hplace.1, hplace.2, fun _ => hcolumns.mem_iff⟩
  have hcurrent : SameShapes current.tables.entries current'.tables.entries := by
    refine ⟨List.forall_mem_cons.mpr ⟨⟨_, .tail _ (.head _), hshape (by decide) (by decide)⟩,
      List.forall_mem_singleton.mpr ⟨_, .head _, hshape (by decide) (by decide)⟩⟩,
      List.forall_mem_cons.mpr ⟨⟨_, .tail _ (.head _), hshape (by decide) (by decide)⟩,
      List.forall_mem_singleton.mpr ⟨_, .head _, hshape (by decide) (by decide)⟩⟩⟩
  exact ⟨hdesired, hcurrent, by decide, diff_eq_of_rearranged hdesired hcurrent⟩

end Plan

end SchemaPlan
