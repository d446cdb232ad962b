import SchemaPlan.Plan.Diff
import SchemaPlan.Proofs.KeyedLaws

/-!
# Convergence of plans

Carrying out the plan between two snapshots leads from the one to the other. A plan is read as a
program that changes a list of tables, one action after the other.

* `Change.apply`, `Plan.execute`: what a change and what a plan does to the tables.
* `Change.AppliesTo`: the change finds what it changes. `Change.KeepsColumns`: it does not empty a
  table that is to have columns.
* `Plan.IsFirst`, `Plan.diff_step`: the first action of a plan applies, and once it is done the rest
  of the plan is the plan from there.
* `Plan.diff_execute`: the same after any number of actions.
* **`Plan.diff_converges`**: the run of a whole plan.
-/

namespace SchemaPlan

/-- The table changed by `f`, if it is the one that is aimed at. -/
def Table.changeAt (target : QualifiedName) (f : Table → Table) (t : Table) : Table :=
  if t.qualifiedName = target then f t else t

namespace Change

/-- The tables after a change. A table is aimed at by its database and its name. -/
def apply (tables : List Table) : Change → List Table
  | createTable table => tables ++ [table]
  | dropTable target => tables.filter (·.qualifiedName ≠ target)
  | addColumn target column => tables.map (Table.changeAt target (·.addColumn column))
  | dropColumn target column => tables.map (Table.changeAt target (·.dropColumn column))

/-- What is to be created is not there, and what is to be changed or dropped is there. -/
def AppliesTo (tables : List Table) : Change → Prop
  | createTable table => table.name ∉ tables.map (·.name)
  | dropTable target => ∃ t ∈ tables, t.qualifiedName = target
  | addColumn target column =>
    ∃ t ∈ tables, t.qualifiedName = target ∧ column.name ∉ t.columnNames
  | dropColumn target column => ∃ t ∈ tables, t.qualifiedName = target ∧ column ∈ t.columnNames

/-- No table that is to have columns loses its last one. -/
def KeepsColumns (desired : Snapshot) (tables : List Table) : Change → Prop
  | dropColumn target column =>
    ∀ live ∈ tables, live.qualifiedName = target → ∀ wanted ∈ desired.tables.entries,
      wanted.name = live.name → wanted.columns ≠ [] → (live.dropColumn column).columns ≠ []
  | _ => True

end Change

/-- The tables after the actions of a plan. -/
def Plan.execute (plan : Plan) (tables : List Table) : List Table :=
  plan.foldl (fun tables action => action.change.apply tables) tables

/-! ## Columns by name -/

theorem name_of_mem_columnsByName {columns : List Column} :
    ∀ p ∈ (columnsByName columns).pairs, p.2.name = p.1 :=
  Keyed.name_of_mem_ofList

theorem contains_columnsByName {t : Table} {name : String} :
    (columnsByName t.columns).contains name = true ↔ name ∈ t.columnNames := by
  rw [columnsByName, Keyed.contains_ofList, List.map_map]
  rfl

theorem columnsByName_addColumn (t : Table) (c : Column) :
    columnsByName (t.addColumn c).columns = (columnsByName t.columns).insert c.name c := by
  rw [columnsByName, Table.addColumn, List.map_append, List.map_singleton, Keyed.ofList_concat]
  rfl

theorem columnsByName_dropColumn (t : Table) (name : String) :
    columnsByName (t.dropColumn name).columns = (columnsByName t.columns).erase name := by
  rw [columnsByName, columnsByName, ← Keyed.ofList_filter_ne, List.filter_map]
  rfl

theorem Table.dropColumn_ne_nil {t : Table} {name other : String} (h : other ∈ t.columnNames)
    (hne : other ≠ name) : (t.dropColumn name).columns ≠ [] := by
  obtain ⟨c, hc, rfl⟩ := List.mem_map.mp h
  have hkept : c ∈ (t.dropColumn name).columns := List.mem_filter.mpr ⟨hc, by simpa using hne⟩
  exact List.ne_nil_of_mem hkept

/-! ## Tables by name -/

theorem Table.name_changeAt {f : Table → Table} (hf : ∀ t : Table, (f t).name = t.name)
    (target : QualifiedName) (t : Table) : (t.changeAt target f).name = t.name := by
  unfold changeAt
  split
  · exact hf t
  · rfl

namespace Snapshot

variable {s next : Snapshot} {t : Table} {f : Table → Table}

/-- The tables of a snapshot by name. -/
def byName (s : Snapshot) : Keyed Table := tablesByName s.tables.entries

theorem name_of_mem_byName : ∀ p ∈ s.byName.pairs, p.2.name = p.1 := Keyed.name_of_mem_ofList

theorem contains_byName {name : String} :
    s.byName.contains name = true ↔ name ∈ s.tables.entries.map (·.name) := by
  rw [byName, tablesByName, Keyed.contains_ofList, List.map_map]
  rfl

theorem get?_byName {name : String} :
    s.byName.get? name = some t ↔ t ∈ s.tables.entries ∧ t.name = name := by
  have hkeys : ((s.tables.entries.map fun t => (t.name, t)).map (·.1)).Nodup := by
    rw [List.map_map]
    exact s.tables.distinct
  rw [byName, tablesByName, Keyed.get?_ofList_of_nodup hkeys, List.mem_map]
  constructor
  · rintro ⟨u, hu, e⟩
    cases e
    exact ⟨hu, rfl⟩
  · rintro ⟨ht, rfl⟩
    exact ⟨t, ht, rfl⟩

theorem get?_of_mem_values (h : t ∈ s.byName.values) : s.byName.get? t.name = some t := by
  obtain ⟨⟨k, u⟩, hmem, rfl⟩ := List.mem_map.mp h
  obtain rfl : u.name = k := name_of_mem_byName _ hmem
  exact Keyed.mem_pairs_iff.mp hmem

theorem nodup_values_byName (s : Snapshot) : (s.byName.values.map (·.name)).Nodup := by
  have hkeys : s.byName.values.map (·.name) = s.byName.keys := by
    rw [Keyed.values, List.map_map]
    exact List.map_congr_left fun p hp => name_of_mem_byName p hp
  rw [hkeys]
  exact Keyed.keys_nodup _

theorem byName_concat (h : next.tables.entries = s.tables.entries ++ [t]) :
    next.byName = s.byName.insert t.name t := by
  rw [byName, h, tablesByName, List.map_append, List.map_singleton, Keyed.ofList_concat]
  rfl

theorem byName_filter (ht : t ∈ s.tables.entries)
    (h : next.tables.entries = s.tables.entries.filter (·.qualifiedName ≠ t.qualifiedName)) :
    next.byName = s.byName.erase t.name := by
  have hfilter : s.tables.entries.filter (·.qualifiedName ≠ t.qualifiedName) =
      s.tables.entries.filter (·.name ≠ t.name) := by
    refine List.filter_congr fun u hu => ?_
    have : u.qualifiedName = t.qualifiedName ↔ u.name = t.name := by
      refine ⟨congrArg QualifiedName.name, fun e => ?_⟩
      rw [List.inj_on_of_nodup_map s.tables.distinct hu ht e]
    exact decide_eq_decide.mpr (not_congr this)
  rw [byName, byName, h, hfilter, tablesByName, tablesByName, ← Keyed.ofList_filter_ne,
    List.filter_map]
  rfl

theorem get?_byName_map (hf : ∀ t : Table, (f t).name = t.name)
    (h : next.tables.entries = s.tables.entries.map f) (name : String) :
    next.byName.get? name = (s.byName.get? name).map f := by
  have hname : ((fun p : String × Table => decide (p.1 = name)) ∘ (fun t => (t.name, t)) ∘ f) =
      (fun p => decide (p.1 = name)) ∘ fun t => (t.name, t) := by
    funext t
    simp [hf]
  rw [byName, byName, h, tablesByName, tablesByName, Keyed.get?_ofList, Keyed.get?_ofList,
    List.map_map, ← List.map_reverse, ← List.map_reverse, List.find?_map, List.find?_map,
    Option.map_map, Option.map_map, Option.map_map, hname]
  rfl

end Snapshot

theorem Change.nodup_apply {change : Change} {tables : List Table}
    (h : change.AppliesTo tables) (hd : (tables.map (·.name)).Nodup) :
    ((change.apply tables).map (·.name)).Nodup := by
  have halter {target : QualifiedName} {f : Table → Table} (hf : ∀ t : Table, (f t).name = t.name) :
      ((tables.map (Table.changeAt target f)).map (·.name)).Nodup := by
    rw [List.map_map]
    have hnames : (·.name) ∘ Table.changeAt target f = (·.name) :=
      funext (Table.name_changeAt hf target)
    rwa [hnames]
  cases change with
  | createTable table =>
    rw [apply, List.map_append, List.nodup_append]
    refine ⟨hd, by simp, fun a ha b hb e => h ?_⟩
    rw [List.map_singleton, List.mem_singleton] at hb
    exact hb ▸ e ▸ ha
  | dropTable target => exact hd.sublist (List.filter_sublist.map _)
  | addColumn target column => exact halter fun _ => rfl
  | dropColumn target column => exact halter fun _ => rfl

/-! ## Plans of columns -/

namespace Plan

variable {desired current next : Snapshot} {action : Action} {rest : Plan}

theorem columnActions_eq (wanted live : Table) : columnActions wanted live =
    ((columnsByName wanted.columns).without (columnsByName live.columns)).map
        (fun p => addColumnAction live p.2) ++
      ((columnsByName live.columns).without (columnsByName wanted.columns)).map
        (fun p => dropColumnAction live p.1) := by
  have hadd := Keyed.filter_values (m := columnsByName wanted.columns) name_of_mem_columnsByName
    (!(columnsByName live.columns).contains ·)
  simp only [columnActions, hadd, Keyed.keys, List.filter_map, List.map_map]
  rfl

theorem columnActions_eq_nil_iff {wanted live : Table} : columnActions wanted live = [] ↔
    ∀ name, name ∈ live.columnNames ↔ name ∈ wanted.columnNames := by
  simp only [columnActions_eq, List.append_eq_nil_iff, List.map_eq_nil_iff,
    Keyed.without_eq_nil_iff, contains_columnsByName]
  exact ⟨fun h name => ⟨h.2 name, h.1 name⟩, fun h => ⟨fun k => (h k).mpr, fun k => (h k).mp⟩⟩

/-- The first column action, and the column actions that are left once it is done. -/
theorem columnActions_step {wanted live : Table} (h : columnActions wanted live = action :: rest) :
    (∃ column, action = addColumnAction live column ∧ column.name ∉ live.columnNames ∧
      columnActions wanted (live.addColumn column) = rest) ∨
    (∃ column, action = dropColumnAction live column ∧ column ∈ live.columnNames ∧
      column ∉ wanted.columnNames ∧ (∀ name ∈ wanted.columnNames, name ∈ live.columnNames) ∧
      columnActions wanted (live.dropColumn column) = rest) := by
  rw [columnActions_eq] at h
  cases hadd : (columnsByName wanted.columns).without (columnsByName live.columns) with
  | cons p more =>
    left
    obtain ⟨name, column⟩ := p
    have hmem : (name, column) ∈ (columnsByName wanted.columns).without
        (columnsByName live.columns) := hadd ▸ List.mem_cons_self
    obtain ⟨hpair, hlacks⟩ := Keyed.mem_without.mp hmem
    obtain rfl : column.name = name := name_of_mem_columnsByName _ hpair
    rw [hadd, List.map_cons, List.cons_append, List.cons.injEq] at h
    refine ⟨column, h.1.symm, fun hc => ?_, ?_⟩
    · rw [contains_columnsByName.mpr hc] at hlacks
      cases hlacks
    · rw [columnActions_eq, columnsByName_addColumn, Keyed.without_insert hadd,
        Keyed.insert_without (Keyed.contains_iff.mpr ⟨column, hpair⟩)]
      exact h.2
  | nil =>
    right
    rw [hadd, List.map_nil, List.nil_append] at h
    obtain ⟨⟨name, column⟩, more, hdrop, rfl, hmore⟩ := List.map_eq_cons_iff.mp h
    have hmem : (name, column) ∈ (columnsByName live.columns).without
        (columnsByName wanted.columns) := hdrop ▸ List.mem_cons_self
    obtain ⟨hpair, hlacks⟩ := Keyed.mem_without.mp hmem
    refine ⟨name, rfl, contains_columnsByName.mp (Keyed.contains_iff.mpr ⟨column, hpair⟩),
      fun hc => ?_, fun other hother => ?_, ?_⟩
    · rw [contains_columnsByName.mpr hc] at hlacks
      cases hlacks
    · exact contains_columnsByName.mp
        (Keyed.without_eq_nil_iff.mp hadd other (contains_columnsByName.mpr hother))
    · rw [columnActions_eq, columnsByName_dropColumn, Keyed.erase_without hdrop,
        Keyed.without_erase hlacks, hadd]
      exact hmore

/-! ## Plans of tables -/

/-- The column actions of a desired table, if there is a table of its name. -/
def alterations (present : Keyed Table) (wanted : Table) : Plan :=
  match present.get? wanted.name with
  | none => []
  | some live => columnActions wanted live

theorem diff_eq (desired current : Snapshot) : diff desired current =
    (desired.byName.without current.byName).map (fun p => createAction p.2) ++
      ((current.byName.without desired.byName).map (fun p => dropAction p.2) ++
        desired.byName.values.flatMap (alterations current.byName)) := by
  have hcreate := Keyed.filter_values (m := desired.byName) Snapshot.name_of_mem_byName
    (!current.byName.contains ·)
  have hdrop := Keyed.filter_values (m := current.byName) Snapshot.name_of_mem_byName
    (!desired.byName.contains ·)
  unfold Snapshot.byName at hcreate hdrop ⊢
  simp only [diff, hcreate, hdrop, List.map_map, List.append_assoc]
  rfl

/-- What is left of a plan once its first table is created. -/
theorem diff_createTable {table : Table} {more : List (String × Table)}
    (h : desired.byName.without current.byName = (table.name, table) :: more)
    (hnext : next.tables.entries = current.tables.entries ++ [table]) :
    diff desired next = more.map (fun p => createAction p.2) ++
      ((current.byName.without desired.byName).map (fun p => dropAction p.2) ++
        desired.byName.values.flatMap (alterations current.byName)) := by
  have hmem : (table.name, table) ∈ desired.byName.without current.byName :=
    h ▸ List.mem_cons_self
  obtain ⟨hpair, hlacks⟩ := Keyed.mem_without.mp hmem
  have halter : ∀ wanted ∈ desired.byName.values,
      alterations (current.byName.insert table.name table) wanted =
        alterations current.byName wanted := by
    intro wanted hwanted
    rw [alterations, alterations, Keyed.get?_insert]
    by_cases he : table.name = wanted.name
    · -- the new table is the desired one, so that it needs no column actions
      have hsame : some wanted = some table := by
        rw [← Snapshot.get?_of_mem_values hwanted, ← he, Keyed.mem_pairs_iff.mp hpair]
      rw [Keyed.contains, Option.isSome_eq_false_iff, Option.isNone_iff_eq_none] at hlacks
      rw [if_pos he, ← he, hlacks, Option.some.inj hsame]
      exact columnActions_eq_nil_iff.mpr fun _ => Iff.rfl
    · rw [if_neg he]
  rw [diff_eq, Snapshot.byName_concat hnext, Keyed.without_insert h,
    Keyed.insert_without (Keyed.contains_iff.mpr ⟨table, hpair⟩), List.flatMap_congr halter]

/-- What is left of a plan once its first table is dropped. -/
theorem diff_dropTable {table : Table} {more : List (String × Table)}
    (hcreate : desired.byName.without current.byName = [])
    (h : current.byName.without desired.byName = (table.name, table) :: more)
    (hnext : next.tables.entries =
      current.tables.entries.filter (·.qualifiedName ≠ table.qualifiedName)) :
    diff desired next = more.map (fun p => dropAction p.2) ++
      desired.byName.values.flatMap (alterations current.byName) := by
  have hmem : (table.name, table) ∈ current.byName.without desired.byName :=
    h ▸ List.mem_cons_self
  obtain ⟨hpair, hlacks⟩ := Keyed.mem_without.mp hmem
  have htable := (Snapshot.get?_byName.mp (Keyed.mem_pairs_iff.mp hpair)).1
  have halter : ∀ wanted ∈ desired.byName.values,
      alterations (current.byName.erase table.name) wanted =
        alterations current.byName wanted := by
    intro wanted hwanted
    have hne : table.name ≠ wanted.name := by
      intro he
      rw [he, Keyed.contains, Snapshot.get?_of_mem_values hwanted] at hlacks
      cases hlacks
    rw [alterations, alterations, Keyed.get?_erase, if_neg hne]
  rw [diff_eq, Snapshot.byName_filter htable hnext, Keyed.without_erase hlacks, hcreate,
    Keyed.erase_without h, List.flatMap_congr halter]
  rfl

theorem alterations_changeAt {other live : Table} {f : Table → Table}
    (hne : other.name ≠ live.name) (hf : ∀ t : Table, (f t).name = t.name)
    (hnext : next.tables.entries =
      current.tables.entries.map (Table.changeAt live.qualifiedName f)) :
    alterations next.byName other = alterations current.byName other := by
  have hget := Snapshot.get?_byName_map (Table.name_changeAt hf live.qualifiedName) hnext
  rw [alterations, alterations, hget]
  cases hfound : current.byName.get? other.name with
  | none => rfl
  | some t =>
    have hname : t.name = other.name := (Snapshot.get?_byName.mp hfound).2
    have htarget : t.qualifiedName ≠ live.qualifiedName := fun e =>
      hne (hname ▸ congrArg QualifiedName.name e)
    rw [Option.map_some, Table.changeAt, if_neg htarget]

/-- What is left of a plan once one table is changed that is on both sides. -/
theorem diff_changeAt {wanted live : Table} {before after : List Table} {f : Table → Table}
    (hcreate : desired.byName.without current.byName = [])
    (hdrop : current.byName.without desired.byName = [])
    (hsplit : desired.byName.values = before ++ wanted :: after)
    (hbefore : before.flatMap (alterations current.byName) = [])
    (hlive : current.byName.get? wanted.name = some live)
    (hf : ∀ t : Table, (f t).name = t.name)
    (hnext : next.tables.entries =
      current.tables.entries.map (Table.changeAt live.qualifiedName f)) :
    diff desired next = columnActions wanted (f live) ++
      after.flatMap (alterations current.byName) := by
  have hname : live.name = wanted.name := (Snapshot.get?_byName.mp hlive).2
  have hget := Snapshot.get?_byName_map (Table.name_changeAt hf live.qualifiedName) hnext
  have hcontains (k : String) : next.byName.contains k = current.byName.contains k := by
    rw [Keyed.contains, hget, Option.isSome_map]
    rfl
  have hothers : ∀ other, other ∈ before ∨ other ∈ after →
      alterations next.byName other = alterations current.byName other := by
    intro other hother
    refine alterations_changeAt (fun he => ?_) hf hnext
    have hnodup := desired.nodup_values_byName
    rw [hsplit, List.map_append, List.map_cons, List.nodup_middle, List.nodup_cons,
      List.mem_append, List.mem_map, List.mem_map] at hnodup
    exact hnodup.1 (hother.imp (fun h => ⟨other, h, he.trans hname⟩)
      fun h => ⟨other, h, he.trans hname⟩)
  have hwanted : alterations next.byName wanted = columnActions wanted (f live) := by
    rw [alterations, hget, hlive, Option.map_some, Table.changeAt, if_pos rfl]
  have hcreate' : desired.byName.without next.byName = [] := by
    rw [Keyed.without_congr hcontains, hcreate]
  have hdrop' : next.byName.without desired.byName = [] := by
    rw [Keyed.without_eq_nil_iff] at hdrop ⊢
    intro k hk
    exact hdrop k (hcontains k ▸ hk)
  rw [diff_eq, hcreate', hdrop', hsplit, List.flatMap_append, List.flatMap_cons, hwanted,
    List.flatMap_congr fun other h => hothers other (.inl h),
    List.flatMap_congr fun other h => hothers other (.inr h), hbefore]
  rfl

/-! ## Running a plan -/

theorem flatMap_eq_cons {α β : Type} {l : List α} {f : α → List β} {b : β} {rest : List β}
    (h : l.flatMap f = b :: rest) :
    ∃ before a after more, l = before ++ a :: after ∧ before.flatMap f = [] ∧ f a = b :: more ∧
      rest = more ++ after.flatMap f := by
  induction l with
  | nil => cases h
  | cons a l ih =>
    rw [List.flatMap_cons] at h
    cases ha : f a with
    | nil =>
      rw [ha, List.nil_append] at h
      obtain ⟨before, a', after, more, rfl, hbefore, ha', rfl⟩ := ih h
      refine ⟨a :: before, a', after, more, rfl, ?_, ha', rfl⟩
      rw [List.flatMap_cons, ha, hbefore, List.nil_append]
    | cons b' more =>
      rw [ha, List.cons_append, List.cons.injEq] at h
      exact ⟨[], a, l, more, rfl, rfl, h.1 ▸ ha, h.2.symm⟩

/-- A column may be dropped once all desired columns are there. -/
theorem keepsColumns_dropColumn {wanted live : Table} {column : String}
    (hwanted : wanted ∈ desired.tables.entries) (hlive : live ∈ current.tables.entries)
    (hname : live.name = wanted.name)
    (hadded : ∀ name ∈ wanted.columnNames, name ∈ live.columnNames)
    (hextra : column ∉ wanted.columnNames) :
    (Change.dropColumn live.qualifiedName column).KeepsColumns desired current.tables.entries := by
  intro t ht htarget table htable htableName hcolumns
  obtain rfl : t = live := List.inj_on_of_nodup_map current.tables.distinct ht hlive
    (congrArg QualifiedName.name htarget)
  obtain rfl : table = wanted := List.inj_on_of_nodup_map desired.tables.distinct htable hwanted
    (htableName.trans hname)
  obtain ⟨c, columns, hc⟩ := List.exists_cons_of_ne_nil hcolumns
  have hcname : c.name ∈ table.columnNames := List.mem_map.mpr ⟨c, hc ▸ List.mem_cons_self, rfl⟩
  exact Table.dropColumn_ne_nil (hadded _ hcname) fun e => hextra (e ▸ hcname)

/-- The action may be done first, and once it is done the rest is the plan from there. -/
structure IsFirst (desired current : Snapshot) (action : Action) (rest : Plan) : Prop where
  applies : action.change.AppliesTo current.tables.entries
  keeps : action.change.KeepsColumns desired current.tables.entries
  diff_next : ∀ next : Snapshot,
    next.tables.entries = action.change.apply current.tables.entries → diff desired next = rest

theorem isFirst_createAction {table : Table} {more : List (String × Table)}
    (h : desired.byName.without current.byName = (table.name, table) :: more) :
    IsFirst desired current (createAction table) (more.map (fun p => createAction p.2) ++
      ((current.byName.without desired.byName).map (fun p => dropAction p.2) ++
        desired.byName.values.flatMap (alterations current.byName))) where
  applies := fun hc => by
    have hmem : (table.name, table) ∈ desired.byName.without current.byName :=
      h ▸ List.mem_cons_self
    have hlacks := (Keyed.mem_without.mp hmem).2
    rw [Snapshot.contains_byName.mpr hc] at hlacks
    cases hlacks
  keeps := trivial
  diff_next := fun _ hnext => diff_createTable h hnext

theorem isFirst_dropAction {table : Table} {more : List (String × Table)}
    (hcreate : desired.byName.without current.byName = [])
    (h : current.byName.without desired.byName = (table.name, table) :: more) :
    IsFirst desired current (dropAction table) (more.map (fun p => dropAction p.2) ++
      desired.byName.values.flatMap (alterations current.byName)) where
  applies := by
    have hmem : (table.name, table) ∈ current.byName.without desired.byName :=
      h ▸ List.mem_cons_self
    have hpair := (Keyed.mem_without.mp hmem).1
    exact ⟨table, (Snapshot.get?_byName.mp (Keyed.mem_pairs_iff.mp hpair)).1, rfl⟩
  keeps := trivial
  diff_next := fun _ hnext => diff_dropTable hcreate h hnext

theorem isFirst_alteration (hcreate : desired.byName.without current.byName = [])
    (hdrop : current.byName.without desired.byName = [])
    (h : desired.byName.values.flatMap (alterations current.byName) = action :: rest) :
    IsFirst desired current action rest := by
  obtain ⟨before, wanted, after, more, hsplit, hbefore, halter, rfl⟩ := flatMap_eq_cons h
  have hvalue : wanted ∈ desired.byName.values :=
    hsplit ▸ List.mem_append_right _ List.mem_cons_self
  have hwanted := (Snapshot.get?_byName.mp (Snapshot.get?_of_mem_values hvalue)).1
  rw [alterations] at halter
  cases hlive : current.byName.get? wanted.name with
  | none =>
    rw [hlive] at halter
    cases halter
  | some live =>
    rw [hlive] at halter
    obtain ⟨hmem, hname⟩ := Snapshot.get?_byName.mp hlive
    obtain ⟨column, rfl, hfresh, hmore⟩ | ⟨column, rfl, hpresent, hextra, hadded, hmore⟩ :=
      columnActions_step halter
    · refine ⟨⟨live, hmem, rfl, hfresh⟩, trivial, fun next hnext => ?_⟩
      rw [diff_changeAt (f := (·.addColumn column)) hcreate hdrop hsplit hbefore hlive
        (fun _ => rfl) hnext, hmore]
    · refine ⟨⟨live, hmem, rfl, hpresent⟩,
        keepsColumns_dropColumn hwanted hmem hname hadded hextra, fun next hnext => ?_⟩
      rw [diff_changeAt (f := (·.dropColumn column)) hcreate hdrop hsplit hbefore hlive
        (fun _ => rfl) hnext, hmore]

/-- **One step of a run.** The first action of a plan may be done first. -/
theorem diff_step (h : diff desired current = action :: rest) :
    IsFirst desired current action rest := by
  rw [diff_eq] at h
  cases hcreate : desired.byName.without current.byName with
  | cons p more =>
    obtain ⟨name, table⟩ := p
    have hmem : (name, table) ∈ desired.byName.without current.byName :=
      hcreate ▸ List.mem_cons_self
    obtain rfl : table.name = name := Snapshot.name_of_mem_byName _ (Keyed.mem_without.mp hmem).1
    rw [hcreate, List.map_cons, List.cons_append, List.cons.injEq] at h
    obtain ⟨rfl, rfl⟩ := h
    exact isFirst_createAction hcreate
  | nil =>
    rw [hcreate, List.map_nil, List.nil_append] at h
    cases hdrop : current.byName.without desired.byName with
    | cons p more =>
      obtain ⟨name, table⟩ := p
      have hmem : (name, table) ∈ current.byName.without desired.byName :=
        hdrop ▸ List.mem_cons_self
      obtain rfl : table.name = name :=
        Snapshot.name_of_mem_byName _ (Keyed.mem_without.mp hmem).1
      rw [hdrop, List.map_cons, List.cons_append, List.cons.injEq] at h
      obtain ⟨rfl, rfl⟩ := h
      exact isFirst_dropAction hcreate hdrop
    | nil =>
      rw [hdrop, List.map_nil, List.nil_append] at h
      exact isFirst_alteration hcreate hdrop h

/-- **The rest of a plan is the plan from there**, after any number of actions. -/
theorem diff_execute {done : Plan} (h : diff desired current = done ++ rest) :
    ∃ next : Snapshot, next.tables.entries = done.execute current.tables.entries ∧
      diff desired next = rest := by
  induction done generalizing current with
  | nil => exact ⟨current, rfl, h⟩
  | cons action done ih =>
    have hfirst := diff_step h
    let after : Collection Table :=
      ⟨action.change.apply current.tables.entries,
        Change.nodup_apply hfirst.applies current.tables.distinct⟩
    exact ih (hfirst.diff_next { current with tables := after } rfl)

/-- There is nothing to do exactly when the names of the tables agree, and in each table the names
of the columns. -/
theorem diff_eq_nil_iff : diff desired current = [] ↔
    (∀ name, name ∈ current.tables.names ↔ name ∈ desired.tables.names) ∧
      ∀ wanted ∈ desired.tables.entries, ∀ live ∈ current.tables.entries,
        live.name = wanted.name → ∀ name, name ∈ live.columnNames ↔ name ∈ wanted.columnNames := by
  simp only [diff_eq, List.append_eq_nil_iff, List.map_eq_nil_iff, Keyed.without_eq_nil_iff,
    Snapshot.contains_byName, List.flatMap_eq_nil_iff]
  constructor
  · rintro ⟨hcreate, hdrop, halter⟩
    refine ⟨fun name => ⟨hdrop name, hcreate name⟩, fun wanted hwanted live hlive hname => ?_⟩
    have hvalue : wanted ∈ desired.byName.values :=
      List.mem_map.mpr ⟨_, Keyed.mem_pairs_iff.mpr (Snapshot.get?_byName.mpr ⟨hwanted, rfl⟩), rfl⟩
    have := halter wanted hvalue
    rw [alterations, Snapshot.get?_byName.mpr ⟨hlive, hname⟩] at this
    exact columnActions_eq_nil_iff.mp this
  · rintro ⟨hnames, hcolumns⟩
    refine ⟨fun name => (hnames name).mpr, fun name => (hnames name).mp, fun wanted hvalue => ?_⟩
    have hwanted := (Snapshot.get?_byName.mp (Snapshot.get?_of_mem_values hvalue)).1
    rw [alterations]
    cases hget : current.byName.get? wanted.name with
    | none => rfl
    | some live =>
      obtain ⟨hlive, hname⟩ := Snapshot.get?_byName.mp hget
      exact columnActions_eq_nil_iff.mpr (hcolumns wanted hwanted live hlive hname)

/-- Between snapshots of the same tables there is nothing to do. -/
theorem diff_eq_nil_of_mem_iff (h : ∀ t, t ∈ current.tables.entries ↔ t ∈ desired.tables.entries) :
    diff desired current = [] := by
  refine diff_eq_nil_iff.mpr ⟨fun name => ?_, fun wanted hwanted live hlive hname column => ?_⟩
  · simp only [Collection.names, List.mem_map, h]
  · rw [List.inj_on_of_nodup_map desired.tables.distinct ((h live).mp hlive) hwanted hname]

/-- **A plan converges.** Every action of a plan applies when its turn comes, the names of the
tables stay distinct, and no table that is to have columns loses its last one. In the end the
tables have the desired names, each the desired column names, and nothing is left to do. -/
theorem diff_converges (desired current : Snapshot) :
    (∀ done action rest, diff desired current = done ++ action :: rest →
      let before := Plan.execute done current.tables.entries
      action.change.AppliesTo before ∧ ((action.change.apply before).map (·.name)).Nodup ∧
        action.change.KeepsColumns desired before) ∧
    ∃ tables : Collection Table,
      tables.entries = (diff desired current).execute current.tables.entries ∧
      (∀ name, name ∈ tables.names ↔ name ∈ desired.tables.names) ∧
      (∀ wanted ∈ desired.tables.entries, ∀ live ∈ tables.entries, live.name = wanted.name →
        ∀ name, name ∈ live.columnNames ↔ name ∈ wanted.columnNames) ∧
      diff desired { current with tables := tables } = [] := by
  constructor
  · intro done action rest h
    obtain ⟨next, hentries, hnext⟩ := diff_execute h
    have hfirst := diff_step hnext
    rw [← hentries]
    exact ⟨hfirst.applies, Change.nodup_apply hfirst.applies next.tables.distinct, hfirst.keeps⟩
  · obtain ⟨next, hentries, hnext⟩ := diff_execute (List.append_nil _).symm
    obtain ⟨hnames, hcolumns⟩ := diff_eq_nil_iff.mp hnext
    exact ⟨next.tables, hentries, hnames, hcolumns, hnext⟩

end Plan

end SchemaPlan
