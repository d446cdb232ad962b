import Mathlib.Data.Prod.Basic
import SchemaPlan.Proofs.ByteOrder
import SchemaPlan.Proofs.Convergence

/-!
# Plans as ordered differences

The plan between two snapshots is determined by what differs between them: its actions are the
differences, each once, in one strict order. None of them can be left out.

* `Plan.Difference`: what differs between two snapshots, each as the action that settles it.
* `Change.Precedes`: the order of changes, by phase, table, and column.
* `Plan.mem_diff_iff`, `Plan.diff_ascending`: the actions of a plan and their order.
* `SameStructure`: tables agree in their names and in the names of their columns.
* `Plan.not_sameStructure_of_left_out`: a plan with one action left out leaves a difference.
* **`Plan.diff_unique_minimal`**: all of it together.
-/

namespace SchemaPlan

/-! ## The order of changes -/

/-- The bytes of one text come before those of another. -/
def BytesBefore (a b : String) : Prop := utf8 a < utf8 b

theorem bytesBefore_iff {a b : String} : BytesBefore a b ↔ a < b := utf8_lt_utf8_iff

instance : Std.Asymm BytesBefore := ⟨fun _ _ => List.lt_asymm⟩

namespace Change

/-- Where a change stands in a plan: its phase, the name of its table, and for a column whether it
is dropped and what it is called. -/
def place : Change → Nat × String × Nat × String
  | createTable table => (0, table.name, 0, "")
  | dropTable target => (1, target.name, 0, "")
  | addColumn target column => (2, target.name, 0, column.name)
  | dropColumn target column => (2, target.name, 1, column)

/-- One change comes before another in every plan: by phase, then by the bytes of the names. -/
def Precedes (a b : Change) : Prop :=
  Prod.Lex (· < ·) (Prod.Lex BytesBefore (Prod.Lex (· < ·) BytesBefore)) a.place b.place

theorem Precedes.asymm {a b : Change} (h : a.Precedes b) : ¬ b.Precedes a :=
  Std.Asymm.asymm (r := Prod.Lex (· < ·) (Prod.Lex BytesBefore (Prod.Lex (· < ·) BytesBefore)))
    _ _ h

theorem Precedes.place_ne {a b : Change} (h : a.Precedes b) : a.place ≠ b.place := by
  intro e
  have hba : b.Precedes a := by
    unfold Precedes at h ⊢
    rwa [e] at h ⊢
  exact h.asymm hba

theorem precedes_of_phase {a b : Change} (h : a.place.1 < b.place.1) : a.Precedes b :=
  Prod.lex_def.mpr (.inl h)

theorem precedes_of_table {a b : Change} (h : a.place.1 = b.place.1)
    (hname : a.place.2.1 < b.place.2.1) : a.Precedes b :=
  Prod.lex_def.mpr (.inr ⟨h, Prod.lex_def.mpr (.inl (bytesBefore_iff.mpr hname))⟩)

theorem addColumn_precedes_dropColumn {target : QualifiedName} {column : Column} {name : String} :
    (addColumn target column).Precedes (dropColumn target name) :=
  Prod.lex_def.mpr (.inr ⟨rfl, Prod.lex_def.mpr (.inr ⟨rfl,
    Prod.lex_def.mpr (.inl Nat.zero_lt_one)⟩)⟩)

theorem precedes_of_column {a b : Change} (h : a.place.1 = b.place.1)
    (htable : a.place.2.1 = b.place.2.1) (hkind : a.place.2.2.1 = b.place.2.2.1)
    (hname : a.place.2.2.2 < b.place.2.2.2) : a.Precedes b :=
  Prod.lex_def.mpr (.inr ⟨h, Prod.lex_def.mpr (.inr ⟨htable,
    Prod.lex_def.mpr (.inr ⟨hkind, bytesBefore_iff.mpr hname⟩)⟩)⟩)

end Change

/-! ## What differs -/

/-- The last column of its name. -/
def IsLastNamed (columns : List Column) (c : Column) : Prop :=
  ∃ before after, columns = before ++ c :: after ∧ c.name ∉ after.map (·.name)

theorem get?_columnsByName {columns : List Column} {name : String} {c : Column} :
    (columnsByName columns).get? name = some c ↔ IsLastNamed columns c ∧ c.name = name := by
  rw [columnsByName, Keyed.get?_ofList, ← List.map_reverse, List.find?_map, Option.map_map]
  simp only [Option.map_eq_some_iff, List.find?_eq_some_iff_append]
  constructor
  · rintro ⟨d, ⟨hname, after, before, hsplit, hafter⟩, rfl⟩
    obtain rfl : d.name = name := by simpa using hname
    refine ⟨⟨before.reverse, after.reverse, ?_, fun hmem => ?_⟩, rfl⟩
    · have := congrArg List.reverse hsplit
      simpa using this
    · obtain ⟨e, he, hename⟩ := List.mem_map.mp hmem
      simpa [hename] using hafter e (List.mem_reverse.mp he)
  · rintro ⟨⟨before, after, rfl, hlast⟩, rfl⟩
    refine ⟨c, ⟨by simp, after.reverse, before.reverse, by simp, fun e he => ?_⟩, rfl⟩
    have hne : e.name ≠ c.name := fun h =>
      hlast (List.mem_map.mpr ⟨e, List.mem_reverse.mp he, h⟩)
    simpa using hne

namespace Plan

variable {desired current : Snapshot} {action : Action} {done rest : Plan}

/-- What differs between two snapshots, each difference as the action that settles it. -/
inductive Difference (desired current : Snapshot) : Action → Prop
  /-- A table that only the desired side has is created as it is described. -/
  | create {table : Table} (wanted : table ∈ desired.tables.entries)
      (absent : table.name ∉ current.tables.names) :
      Difference desired current (createAction table)
  /-- A table that only the current side has is dropped where it lies. -/
  | drop {table : Table} (present : table ∈ current.tables.entries)
      (unwanted : table.name ∉ desired.tables.names) :
      Difference desired current (dropAction table)
  /-- A column that only the desired table has is added as it is described last. -/
  | addColumn {wanted live : Table} {column : Column} (hwanted : wanted ∈ desired.tables.entries)
      (hlive : live ∈ current.tables.entries) (hname : live.name = wanted.name)
      (last : IsLastNamed wanted.columns column) (absent : column.name ∉ live.columnNames) :
      Difference desired current (addColumnAction live column)
  /-- A column that only the current table has is dropped. -/
  | dropColumn {wanted live : Table} {column : String} (hwanted : wanted ∈ desired.tables.entries)
      (hlive : live ∈ current.tables.entries) (hname : live.name = wanted.name)
      (present : column ∈ live.columnNames) (unwanted : column ∉ wanted.columnNames) :
      Difference desired current (dropColumnAction live column)

/-! ## The actions of a plan -/

theorem mem_without_columns {wanted live : Table} {name : String} {column : Column} :
    (name, column) ∈ (columnsByName wanted.columns).without (columnsByName live.columns) ↔
      IsLastNamed wanted.columns column ∧ column.name = name ∧ name ∉ live.columnNames := by
  rw [Keyed.mem_without, ← contains_columnsByName, Bool.not_eq_true, ← and_assoc,
    ← get?_columnsByName, ← Keyed.mem_pairs_iff]

theorem mem_without_byName {s t : Snapshot} {name : String} {table : Table} :
    (name, table) ∈ s.byName.without t.byName ↔
      table ∈ s.tables.entries ∧ table.name = name ∧ name ∉ t.tables.names := by
  have hcontains : t.byName.contains name = true ↔ name ∈ t.tables.names := Snapshot.contains_byName
  rw [Keyed.mem_without, ← hcontains, Bool.not_eq_true, ← and_assoc, ← Snapshot.get?_byName,
    ← Keyed.mem_pairs_iff]

theorem mem_columnActions_iff {wanted live : Table} : action ∈ columnActions wanted live ↔
    (∃ column, IsLastNamed wanted.columns column ∧ column.name ∉ live.columnNames ∧
      action = addColumnAction live column) ∨
    ∃ column, column ∈ live.columnNames ∧ column ∉ wanted.columnNames ∧
      action = dropColumnAction live column := by
  rw [columnActions_eq, List.mem_append, List.mem_map, List.mem_map]
  refine or_congr ⟨?_, ?_⟩ ⟨?_, ?_⟩
  · rintro ⟨⟨name, column⟩, hmem, rfl⟩
    obtain ⟨hlast, rfl, habsent⟩ := mem_without_columns.mp hmem
    exact ⟨column, hlast, habsent, rfl⟩
  · rintro ⟨column, hlast, habsent, rfl⟩
    exact ⟨(column.name, column), mem_without_columns.mpr ⟨hlast, rfl, habsent⟩, rfl⟩
  · rintro ⟨p, hmem, rfl⟩
    obtain ⟨hpair, hlacks⟩ := Keyed.mem_without.mp hmem
    refine ⟨p.1, contains_columnsByName.mp (Keyed.contains_iff.mpr ⟨p.2, hpair⟩), ?_, rfl⟩
    rwa [← contains_columnsByName, Bool.not_eq_true]
  · rintro ⟨column, hpresent, hunwanted, rfl⟩
    obtain ⟨c, hc⟩ := Keyed.contains_iff.mp (contains_columnsByName.mpr hpresent)
    refine ⟨(column, c), Keyed.mem_without.mpr ⟨hc, ?_⟩, rfl⟩
    rwa [← Bool.not_eq_true, contains_columnsByName]

theorem mem_alterations_iff : action ∈ desired.byName.values.flatMap (alterations current.byName) ↔
    ∃ wanted ∈ desired.tables.entries, ∃ live ∈ current.tables.entries,
      live.name = wanted.name ∧ action ∈ columnActions wanted live := by
  rw [List.mem_flatMap]
  constructor
  · rintro ⟨wanted, hvalue, haction⟩
    have hwanted := (Snapshot.get?_byName.mp (Snapshot.get?_of_mem_values hvalue)).1
    rw [alterations] at haction
    cases hget : current.byName.get? wanted.name with
    | none =>
      rw [hget] at haction
      cases haction
    | some live =>
      rw [hget] at haction
      obtain ⟨hlive, hname⟩ := Snapshot.get?_byName.mp hget
      exact ⟨wanted, hwanted, live, hlive, hname, haction⟩
  · rintro ⟨wanted, hwanted, live, hlive, hname, haction⟩
    refine ⟨wanted, List.mem_map.mpr
      ⟨_, Keyed.mem_pairs_iff.mpr (Snapshot.get?_byName.mpr ⟨hwanted, rfl⟩), rfl⟩, ?_⟩
    rwa [alterations, Snapshot.get?_byName.mpr ⟨hlive, hname⟩]

/-- **The actions of a plan are the differences.** -/
theorem mem_diff_iff : action ∈ diff desired current ↔ Difference desired current action := by
  rw [diff_eq, List.mem_append, List.mem_append, List.mem_map, List.mem_map, mem_alterations_iff]
  constructor
  · rintro (⟨⟨name, table⟩, hmem, rfl⟩ | ⟨⟨name, table⟩, hmem, rfl⟩ |
      ⟨wanted, hwanted, live, hlive, hname, haction⟩)
    · obtain ⟨hwanted, rfl, habsent⟩ := mem_without_byName.mp hmem
      exact .create hwanted habsent
    · obtain ⟨hpresent, rfl, hunwanted⟩ := mem_without_byName.mp hmem
      exact .drop hpresent hunwanted
    · obtain ⟨column, hlast, habsent, rfl⟩ | ⟨column, hpresent, hunwanted, rfl⟩ :=
        mem_columnActions_iff.mp haction
      · exact .addColumn hwanted hlive hname hlast habsent
      · exact .dropColumn hwanted hlive hname hpresent hunwanted
  · intro h
    cases h with
    | create hwanted habsent =>
      exact .inl ⟨(_, _), mem_without_byName.mpr ⟨hwanted, rfl, habsent⟩, rfl⟩
    | drop hpresent hunwanted =>
      exact .inr (.inl ⟨(_, _), mem_without_byName.mpr ⟨hpresent, rfl, hunwanted⟩, rfl⟩)
    | addColumn hwanted hlive hname hlast habsent =>
      exact .inr (.inr ⟨_, hwanted, _, hlive, hname,
        mem_columnActions_iff.mpr (.inl ⟨_, hlast, habsent, rfl⟩)⟩)
    | dropColumn hwanted hlive hname hpresent hunwanted =>
      exact .inr (.inr ⟨_, hwanted, _, hlive, hname,
        mem_columnActions_iff.mpr (.inr ⟨_, hpresent, hunwanted, rfl⟩)⟩)

/-! ## The order of a plan -/

/-- One action comes before another in every plan. -/
def Before (a b : Action) : Prop := a.change.Precedes b.change

theorem columnActions_ascending (wanted live : Table) :
    (columnActions wanted live).Pairwise Before := by
  have hadd : ((columnsByName wanted.columns).without (columnsByName live.columns)).Pairwise
      (·.1 < ·.1) := (columnsByName wanted.columns).ascending.filter _
  have hdrop : ((columnsByName live.columns).without (columnsByName wanted.columns)).Pairwise
      (·.1 < ·.1) := (columnsByName live.columns).ascending.filter _
  rw [columnActions_eq, List.pairwise_append, List.pairwise_map, List.pairwise_map]
  refine ⟨hadd.imp_of_mem fun {p q} hp hq hlt => ?_, hdrop.imp fun {p q} hlt => ?_, ?_⟩
  · have hpname := (mem_without_columns.mp hp).2.1
    have hqname := (mem_without_columns.mp hq).2.1
    refine Change.precedes_of_column rfl rfl rfl ?_
    change p.2.name < q.2.name
    rwa [hpname, hqname]
  · exact Change.precedes_of_column rfl rfl rfl hlt
  · intro a ha b hb
    obtain ⟨p, _, rfl⟩ := List.mem_map.mp ha
    obtain ⟨q, _, rfl⟩ := List.mem_map.mp hb
    exact Change.addColumn_precedes_dropColumn

/-- Column actions are of the last phase and aim at the table they are made for. -/
theorem place_of_mem_columnActions {wanted live : Table} (h : action ∈ columnActions wanted live) :
    action.change.place.1 = 2 ∧ action.change.place.2.1 = live.name := by
  obtain ⟨_, _, _, rfl⟩ | ⟨_, _, _, rfl⟩ := mem_columnActions_iff.mp h <;> exact ⟨rfl, rfl⟩

theorem place_of_mem_alterations {wanted : Table}
    (h : action ∈ alterations current.byName wanted) :
    action.change.place.1 = 2 ∧ action.change.place.2.1 = wanted.name := by
  rw [alterations] at h
  cases hget : current.byName.get? wanted.name with
  | none =>
    rw [hget] at h
    cases h
  | some live =>
    rw [hget] at h
    rw [← (Snapshot.get?_byName.mp hget).2]
    exact place_of_mem_columnActions h

theorem alterations_ascending (present : Keyed Table) (wanted : Table) :
    (alterations present wanted).Pairwise Before := by
  unfold alterations
  split
  · exact .nil
  · exact columnActions_ascending wanted _

theorem values_byName_ascending (s : Snapshot) : s.byName.values.Pairwise (·.name < ·.name) := by
  refine List.pairwise_map.mpr (s.byName.ascending.imp_of_mem fun {p q} hp hq hlt => ?_)
  rwa [Snapshot.name_of_mem_byName p hp, Snapshot.name_of_mem_byName q hq]

/-- Actions on the tables that one side has alone, in the order of their names. -/
theorem without_ascending {s t : Snapshot} {f : Table → Action} {n : Nat}
    (hf : ∀ table, (f table).change.place.1 = n ∧ (f table).change.place.2.1 = table.name) :
    ((s.byName.without t.byName).map fun p => f p.2).Pairwise Before := by
  have hasc : (s.byName.without t.byName).Pairwise (·.1 < ·.1) := s.byName.ascending.filter _
  refine List.pairwise_map.mpr (hasc.imp_of_mem fun {p q} hp hq hlt => ?_)
  have hpname := (mem_without_byName.mp hp).2.1
  have hqname := (mem_without_byName.mp hq).2.1
  refine Change.precedes_of_table ((hf p.2).1.trans (hf q.2).1.symm) ?_
  rwa [(hf p.2).2, (hf q.2).2, hpname, hqname]

/-- **The actions of a plan are in strict order.** -/
theorem diff_ascending (desired current : Snapshot) : (diff desired current).Pairwise Before := by
  rw [diff_eq, List.pairwise_append, List.pairwise_append, List.pairwise_flatMap]
  refine ⟨without_ascending (n := 0) fun _ => ⟨rfl, rfl⟩,
    ⟨without_ascending (n := 1) fun _ => ⟨rfl, rfl⟩,
      ⟨fun wanted _ => alterations_ascending _ wanted, ?_⟩, ?_⟩, ?_⟩
  · refine (values_byName_ascending desired).imp fun {t u} hlt a ha b hb => ?_
    obtain ⟨haphase, hatable⟩ := place_of_mem_alterations ha
    obtain ⟨hbphase, hbtable⟩ := place_of_mem_alterations hb
    refine Change.precedes_of_table (haphase.trans hbphase.symm) ?_
    rwa [hatable, hbtable]
  · intro a ha b hb
    obtain ⟨p, _, rfl⟩ := List.mem_map.mp ha
    obtain ⟨wanted, _, hb⟩ := List.mem_flatMap.mp hb
    refine Change.precedes_of_phase ?_
    rw [(place_of_mem_alterations hb).1]
    exact Nat.one_lt_two
  · intro a ha b hb
    obtain ⟨p, _, rfl⟩ := List.mem_map.mp ha
    refine Change.precedes_of_phase ?_
    rcases List.mem_append.mp hb with hb | hb
    · obtain ⟨q, _, rfl⟩ := List.mem_map.mp hb
      exact Nat.zero_lt_one
    · obtain ⟨wanted, _, hb⟩ := List.mem_flatMap.mp hb
      rw [(place_of_mem_alterations hb).1]
      exact Nat.zero_lt_two

theorem nodup_of_ascending {plan : Plan} (h : plan.Pairwise Before) : plan.Nodup :=
  h.imp fun hab e => hab.place_ne (congrArg (·.change.place) e)

/-- Plans in strict order are equal when they have the same actions. -/
theorem eq_of_ascending {p q : Plan} (hp : p.Pairwise Before) (hq : q.Pairwise Before)
    (h : ∀ action, action ∈ p ↔ action ∈ q) : p = q :=
  ((List.perm_ext_iff_of_nodup (nodup_of_ascending hp) (nodup_of_ascending hq)).mpr
    h).eq_of_pairwise (fun _ _ _ _ hab hba => absurd hba hab.asymm) hp hq

end Plan

/-! ## What an action is needed for -/

/-- Tables agree in their names, and tables of one name in the names of their columns. -/
def SameStructure (desired tables : List Table) : Prop :=
  (∀ name, name ∈ tables.map (·.name) ↔ name ∈ desired.map (·.name)) ∧
    ∀ wanted ∈ desired, ∀ live ∈ tables, live.name = wanted.name →
      ∀ name, name ∈ live.columnNames ↔ name ∈ wanted.columnNames

namespace Table

variable {t : Table} {name : String}

theorem mem_columnNames_addColumn {column : Column} :
    name ∈ (t.addColumn column).columnNames ↔ name ∈ t.columnNames ∨ name = column.name := by
  rw [columnNames, addColumn, List.map_append, List.mem_append, List.map_singleton,
    List.mem_singleton]
  rfl

theorem mem_columnNames_dropColumn {column : String} :
    name ∈ (t.dropColumn column).columnNames ↔ name ∈ t.columnNames ∧ name ≠ column := by
  simp only [columnNames, dropColumn, List.mem_map, List.mem_filter, decide_eq_true_eq]
  constructor
  · rintro ⟨c, ⟨hc, hne⟩, rfl⟩
    exact ⟨⟨c, hc, rfl⟩, hne⟩
  · rintro ⟨⟨c, hc, rfl⟩, hne⟩
    exact ⟨c, ⟨hc, hne⟩, rfl⟩

end Table

namespace Change

variable {change : Change} {tables : List Table}

theorem map_name_changeAt {f : Table → Table} (hf : ∀ t : Table, (f t).name = t.name)
    (target : QualifiedName) :
    (tables.map (Table.changeAt target f)).map (·.name) = tables.map (·.name) := by
  rw [List.map_map]
  exact List.map_congr_left fun t _ => Table.name_changeAt hf target t

theorem notMem_apply {name : String} (h : name ∉ tables.map (·.name))
    (hcreate : ∀ table, change = createTable table → table.name ≠ name) :
    name ∉ (change.apply tables).map (·.name) := by
  cases change with
  | createTable table =>
    rw [apply, List.map_append, List.map_singleton, List.mem_append, List.mem_singleton]
    rintro (hmem | rfl)
    · exact h hmem
    · exact hcreate table rfl rfl
  | dropTable target => exact fun hmem => h ((List.filter_sublist.map _).subset hmem)
  | addColumn target column =>
    rwa [apply, map_name_changeAt (f := (·.addColumn column)) fun _ => rfl]
  | dropColumn target column =>
    rwa [apply, map_name_changeAt (f := (·.dropColumn column)) fun _ => rfl]

/-- A table with some property stays until it is dropped or a change of its columns takes the
property away. -/
theorem exists_apply {q : QualifiedName} {Q : Table → Prop}
    (h : ∃ t ∈ tables, t.qualifiedName = q ∧ Q t) (hdrop : change ≠ dropTable q)
    (hadd : ∀ column, change = addColumn q column → ∀ t, Q t → Q (t.addColumn column))
    (hremove : ∀ name, change = dropColumn q name → ∀ t, Q t → Q (t.dropColumn name)) :
    ∃ t ∈ change.apply tables, t.qualifiedName = q ∧ Q t := by
  obtain ⟨t, ht, rfl, hQ⟩ := h
  -- a change of columns either aims at the table or leaves it as it is
  have halter {target : QualifiedName} {f : Table → Table}
      (hf : (f t).qualifiedName = t.qualifiedName) (hQf : t.qualifiedName = target → Q (f t)) :
      ∃ u ∈ tables.map (Table.changeAt target f), u.qualifiedName = t.qualifiedName ∧ Q u := by
    refine ⟨t.changeAt target f, List.mem_map.mpr ⟨t, ht, rfl⟩, ?_⟩
    unfold Table.changeAt
    split
    · rename_i htarget
      exact ⟨hf, hQf htarget⟩
    · exact ⟨rfl, hQ⟩
  cases change with
  | createTable table => exact ⟨t, List.mem_append_left _ ht, rfl, hQ⟩
  | dropTable target =>
    have hne : t.qualifiedName ≠ target := fun e => hdrop (e ▸ rfl)
    exact ⟨t, List.mem_filter.mpr ⟨ht, by simpa using hne⟩, rfl, hQ⟩
  | addColumn target column => exact halter rfl fun e => hadd column (e ▸ rfl) t hQ
  | dropColumn target column => exact halter rfl fun e => hremove column (e ▸ rfl) t hQ

end Change

namespace Plan

variable {desired current : Snapshot} {action : Action} {done rest plan : Plan}
  {tables : List Table}

/-- What every action of a plan keeps, the plan keeps. -/
theorem execute_keeps {P : List Table → Prop} (h : P tables)
    (hstep : ∀ action ∈ plan, ∀ tables, P tables → P (action.change.apply tables)) :
    P (plan.execute tables) := by
  induction plan generalizing tables with
  | nil => exact h
  | cons action plan ih =>
    exact ih (hstep action List.mem_cons_self tables h) fun other hother =>
      hstep other (List.mem_cons_of_mem _ hother)

theorem others_of_left_out (h : diff desired current = done ++ action :: rest) :
    ∀ other ∈ done ++ rest, Difference desired current other ∧
      other.change.place ≠ action.change.place := by
  have hasc := diff_ascending desired current
  rw [h, List.pairwise_append, List.pairwise_cons] at hasc
  obtain ⟨_, ⟨hrest, _⟩, hdone⟩ := hasc
  intro other hother
  rcases List.mem_append.mp hother with hmem | hmem
  · refine ⟨mem_diff_iff.mp (h ▸ List.mem_append_left _ hmem), ?_⟩
    exact (hdone other hmem action List.mem_cons_self).place_ne
  · refine ⟨mem_diff_iff.mp (h ▸ List.mem_append_right _ (List.mem_cons_of_mem _ hmem)), ?_⟩
    exact (hrest other hmem).place_ne.symm

theorem Difference.ne_dropTable (h : Difference desired current action) {wanted live : Table}
    (hwanted : wanted ∈ desired.tables.entries) (hname : live.name = wanted.name) :
    action.change ≠ .dropTable live.qualifiedName := by
  intro e
  cases h with
  | create | addColumn | dropColumn => cases e
  | drop hpresent hunwanted =>
    refine hunwanted (List.mem_map.mpr ⟨wanted, hwanted, ?_⟩)
    rw [dropAction, Change.dropTable.injEq] at e
    exact hname.symm.trans (congrArg QualifiedName.name e).symm

/-- A table on both sides that has some property still has it after actions that do not take the
property away. -/
theorem exists_execute {wanted live : Table} {Q : Table → Prop}
    (hwanted : wanted ∈ desired.tables.entries) (hlive : live ∈ current.tables.entries)
    (hname : live.name = wanted.name) (hQ : Q live)
    (hothers : ∀ other ∈ plan, Difference desired current other)
    (hadd : ∀ other ∈ plan, ∀ column, other.change = .addColumn live.qualifiedName column →
      ∀ t, Q t → Q (t.addColumn column))
    (hremove : ∀ other ∈ plan, ∀ column, other.change = .dropColumn live.qualifiedName column →
      ∀ t, Q t → Q (t.dropColumn column)) :
    ∃ t ∈ plan.execute current.tables.entries, t.name = wanted.name ∧ Q t := by
  have hkeeps : ∃ t ∈ plan.execute current.tables.entries,
      t.qualifiedName = live.qualifiedName ∧ Q t := by
    refine execute_keeps (P := fun tables => ∃ t ∈ tables, t.qualifiedName = live.qualifiedName ∧
      Q t) ⟨live, hlive, rfl, hQ⟩ fun other hother tables hkeeps => ?_
    exact Change.exists_apply hkeeps ((hothers other hother).ne_dropTable hwanted hname)
      (hadd other hother) (hremove other hother)
  obtain ⟨t, ht, hq, hQt⟩ := hkeeps
  exact ⟨t, ht, (congrArg QualifiedName.name hq).trans hname, hQt⟩

/-- **No action can be left out.** Without it, the others leave a difference. -/
theorem not_sameStructure_of_left_out (h : diff desired current = done ++ action :: rest) :
    ¬ SameStructure desired.tables.entries
      (execute (done ++ rest) current.tables.entries) := by
  have hothers := others_of_left_out h
  have hdifference : ∀ other ∈ done ++ rest, Difference desired current other := fun other hother =>
    (hothers other hother).1
  have hmem : action ∈ diff desired current := h ▸ List.mem_append_right _ List.mem_cons_self
  rintro ⟨hnames, hcolumns⟩
  -- what the action is there to change stays as it is under all other actions
  cases mem_diff_iff.mp hmem with
  | @create table hwanted habsent =>
    have hfree : table.name ∉ current.tables.entries.map (·.name) := habsent
    have hlacks : table.name ∉ (execute (done ++ rest) current.tables.entries).map (·.name) := by
      refine execute_keeps (P := (table.name ∉ ·.map (·.name))) hfree
        fun other hother tables hlacks => Change.notMem_apply hlacks fun t ht e => ?_
      refine (hothers other hother).2 ?_
      rw [ht, createAction, Change.place, Change.place, e]
    exact hlacks ((hnames table.name).mpr (List.mem_map.mpr ⟨table, hwanted, rfl⟩))
  | @drop table hpresent hunwanted =>
    have hkeeps : ∃ t ∈ execute (done ++ rest) current.tables.entries,
        t.qualifiedName = table.qualifiedName ∧ True := by
      refine execute_keeps (P := fun tables => ∃ t ∈ tables, t.qualifiedName =
        table.qualifiedName ∧ True) ⟨table, hpresent, rfl, trivial⟩
        fun other hother tables hkeeps => ?_
      refine Change.exists_apply hkeeps (fun e => (hothers other hother).2 ?_)
        (fun _ _ _ _ => trivial) fun _ _ _ _ => trivial
      rw [e]
      rfl
    obtain ⟨t, ht, hq, _⟩ := hkeeps
    refine hunwanted ((hnames table.name).mp (List.mem_map.mpr ⟨t, ht, ?_⟩))
    exact congrArg QualifiedName.name hq
  | @addColumn wanted live column hwanted hlive hname hlast habsent =>
    obtain ⟨t, ht, htname, hlacks⟩ := exists_execute (Q := (column.name ∉ ·.columnNames))
      hwanted hlive hname habsent hdifference
      (fun other hother c hc t hlacks hcolumn => by
        refine (Table.mem_columnNames_addColumn.mp hcolumn).elim hlacks fun e => ?_
        refine (hothers other hother).2 ?_
        rw [hc, addColumnAction, Change.place, Change.place, e])
      (fun _ _ _ _ t hlacks hcolumn => hlacks (Table.mem_columnNames_dropColumn.mp hcolumn).1)
    refine hlacks ((hcolumns wanted hwanted t ht htname column.name).mpr ?_)
    obtain ⟨before, after, hsplit, _⟩ := hlast
    exact List.mem_map.mpr ⟨column, hsplit ▸ List.mem_append_right _ List.mem_cons_self, rfl⟩
  | @dropColumn wanted live column hwanted hlive hname hpresent hunwanted =>
    obtain ⟨t, ht, htname, hhas⟩ := exists_execute (Q := (column ∈ ·.columnNames))
      hwanted hlive hname hpresent hdifference
      (fun _ _ _ _ t hhas => Table.mem_columnNames_addColumn.mpr (.inl hhas))
      (fun other hother c hc t hhas => by
        refine Table.mem_columnNames_dropColumn.mpr ⟨hhas, fun e => (hothers other hother).2 ?_⟩
        rw [hc, dropColumnAction, Change.place, Change.place, e])
    exact hunwanted ((hcolumns wanted hwanted t ht htname column).mp hhas)

/-! ## The plan -/

/-- A plan consists of the differences between two snapshots, in strict order. -/
structure IsOrderedDifference (desired current : Snapshot) (plan : Plan) : Prop where
  ascending : plan.Pairwise Before
  mem_iff : ∀ action, action ∈ plan ↔ Difference desired current action

theorem diff_isOrderedDifference (desired current : Snapshot) :
    IsOrderedDifference desired current (diff desired current) :=
  ⟨diff_ascending desired current, fun _ => mem_diff_iff⟩

theorem sameStructure_execute_diff (desired current : Snapshot) :
    SameStructure desired.tables.entries
      ((diff desired current).execute current.tables.entries) := by
  obtain ⟨next, hentries, hnext⟩ := diff_execute (List.append_nil (diff desired current)).symm
  rw [← hentries]
  exact diff_eq_nil_iff.mp hnext

/-- **The plan is the unique minimal ordered difference.** It consists of the differences between
the two sides in strict order and is the only plan that does. No action occurs twice. Carried out,
the plan leaves no difference; with any one action left out, it leaves one. -/
theorem diff_unique_minimal (desired current : Snapshot) :
    (∀ plan, IsOrderedDifference desired current plan ↔ plan = diff desired current) ∧
    (diff desired current).Nodup ∧
    SameStructure desired.tables.entries
      ((diff desired current).execute current.tables.entries) ∧
    ∀ done action rest, diff desired current = done ++ action :: rest →
      ¬ SameStructure desired.tables.entries
        (execute (done ++ rest) current.tables.entries) := by
  have hdiff := diff_isOrderedDifference desired current
  refine ⟨fun plan => ⟨fun hplan => ?_, fun e => e ▸ hdiff⟩, nodup_of_ascending hdiff.ascending,
    sameStructure_execute_diff desired current, fun _ _ _ => not_sameStructure_of_left_out⟩
  exact eq_of_ascending hplan.ascending hdiff.ascending fun action =>
    (hplan.mem_iff action).trans (hdiff.mem_iff action).symm

end Plan

end SchemaPlan
