import Mathlib.Data.List.Sort
import SchemaPlan.Proofs.PlanDependence

/-!
# Plans there and back

The plan from one snapshot to another and the plan back are mirror images: what the one creates the
other drops, and what the one adds the other drops, in the same order. Carried out one after the
other they bring the tables back. They bring the columns of a table back unless the two sides have
it in different databases: then the plan back aims at a place where no table lies.

* `Change.kind`, `Change.subject`: what a change does and what it is about.
* `Plan.subjects`: what the changes of one kind are about, in the order of the plan.
* `Plan.Difference.mirror`, `Plan.subjects_diff`: the mirror image of a difference and of a plan.
* `Plan.map_qualifiedName_execute_diff`: what a plan makes of the names, wherever it is carried out.
* `Plan.thereAndBack`: one plan and then the other; `Plan.perm_thereAndBack`: the tables are back;
  `Plan.sameStructure_thereAndBack_iff`: when their columns are.
* **`Plan.diff_mirrors`**: all of it together.
* `Plan.thereAndBack_across_databases`: columns that do not come back.
-/

namespace SchemaPlan

/-! ## Kinds and subjects of changes -/

/-- The kinds of changes. -/
inductive ChangeKind
  | createTable
  | dropTable
  | addColumn
  | dropColumn
  deriving DecidableEq, Repr

/-- The kind of change that undoes a change. -/
def ChangeKind.opposite : ChangeKind → ChangeKind
  | createTable => dropTable
  | dropTable => createTable
  | addColumn => dropColumn
  | dropColumn => addColumn

@[simp] theorem ChangeKind.opposite_opposite (kind : ChangeKind) :
    kind.opposite.opposite = kind := by
  cases kind <;> rfl

namespace Change

/-- The kind of a change. -/
def kind : Change → ChangeKind
  | createTable _ => .createTable
  | dropTable _ => .dropTable
  | addColumn .. => .addColumn
  | dropColumn .. => .dropColumn

/-- The name of the table that a change is about, and of the column if it is about one. -/
def subject : Change → String × Option String
  | createTable table => (table.name, none)
  | dropTable target => (target.name, none)
  | addColumn target column => (target.name, some column.name)
  | dropColumn target column => (target.name, some column)

/-- The order of subjects: by the name of the table, then by the name of the column. -/
def SubjectBefore (s t : String × Option String) : Prop :=
  Prod.Lex BytesBefore BytesBefore (s.1, s.2.getD "") (t.1, t.2.getD "")

instance : Std.Asymm SubjectBefore :=
  ⟨fun _ _ => Std.Asymm.asymm (r := Prod.Lex BytesBefore BytesBefore) _ _⟩

theorem Precedes.subjectBefore {c d : Change} (h : c.Precedes d) (hkind : c.kind = d.kind) :
    SubjectBefore c.subject d.subject := by
  unfold SubjectBefore
  cases c <;> cases d <;> cases hkind <;>
    simpa [Precedes, place, Prod.lex_def, subject] using h

end Change

/-! ## The mirror image of a plan -/

namespace Plan

variable {a b : Snapshot} {action : Action} {kind : ChangeKind} {tables : List Table}

/-- What the changes of a kind are about, in the order of the plan. -/
def subjects (plan : Plan) (kind : ChangeKind) : List (String × Option String) :=
  (plan.filter (·.change.kind = kind)).map (·.change.subject)

theorem mem_subjects {plan : Plan} {s : String × Option String} : s ∈ plan.subjects kind ↔
    ∃ action ∈ plan, action.change.kind = kind ∧ action.change.subject = s := by
  simp [subjects, and_assoc]

theorem subjects_ascending (a b : Snapshot) (kind : ChangeKind) :
    ((diff a b).subjects kind).Pairwise Change.SubjectBefore := by
  refine List.pairwise_map.mpr (((diff_ascending a b).filter _).imp_of_mem ?_)
  intro x y hx hy hbefore
  have hxkind : x.change.kind = kind := by simpa using (List.mem_filter.mp hx).2
  have hykind : y.change.kind = kind := by simpa using (List.mem_filter.mp hy).2
  exact hbefore.subjectBefore (hxkind.trans hykind.symm)

/-- **The mirror image of a difference.** What is created on the way there is dropped on the way
back, what is added is dropped, and the other way round. -/
theorem Difference.mirror (h : Difference a b action) : ∃ other, Difference b a other ∧
    other.change.kind = action.change.kind.opposite ∧
    other.change.subject = action.change.subject := by
  cases h with
  | create hwanted habsent => exact ⟨_, .drop hwanted habsent, rfl, rfl⟩
  | drop hpresent hunwanted => exact ⟨_, .create hpresent hunwanted, rfl, rfl⟩
  | @addColumn wanted live column hwanted hlive hname hlast habsent =>
    have hcolumn : column.name ∈ wanted.columnNames :=
      mem_columnNames_iff_isLastNamed.mpr ⟨column, hlast, rfl⟩
    refine ⟨_, .dropColumn hlive hwanted hname.symm hcolumn habsent, rfl, ?_⟩
    exact congrArg (·, some column.name) hname.symm
  | @dropColumn wanted live column hwanted hlive hname hpresent hunwanted =>
    obtain ⟨c, hlast, rfl⟩ := mem_columnNames_iff_isLastNamed.mp hpresent
    refine ⟨_, .addColumn hlive hwanted hname.symm hlast hunwanted, rfl, ?_⟩
    exact congrArg (·, some c.name) hname.symm

theorem mem_subjects_mirror {s : String × Option String} (h : s ∈ (diff a b).subjects kind) :
    s ∈ (diff b a).subjects kind.opposite := by
  obtain ⟨action, haction, rfl, rfl⟩ := mem_subjects.mp h
  obtain ⟨other, hother, hkind, hsubject⟩ := (mem_diff_iff.mp haction).mirror
  exact mem_subjects.mpr ⟨other, mem_diff_iff.mpr hother, hkind, hsubject⟩

/-- **The plan back is the mirror image of the plan there.** -/
theorem subjects_diff (a b : Snapshot) (kind : ChangeKind) :
    (diff a b).subjects kind = (diff b a).subjects kind.opposite := by
  refine (subjects_ascending a b kind).eq_of_mem_iff (subjects_ascending b a _) fun s =>
    ⟨mem_subjects_mirror, fun h => ?_⟩
  rw [← kind.opposite_opposite]
  exact mem_subjects_mirror h

theorem length_eq_subjects (plan : Plan) : plan.length =
    (plan.subjects .createTable).length + (plan.subjects .dropTable).length +
      (plan.subjects .addColumn).length + (plan.subjects .dropColumn).length := by
  induction plan with
  | nil => rfl
  | cons action plan ih =>
    cases hchange : action.change <;>
      simp [subjects, Change.kind, hchange] at ih ⊢ <;> omega

theorem length_diff_comm (a b : Snapshot) : (diff a b).length = (diff b a).length := by
  have hmirror := subjects_diff a b
  rw [length_eq_subjects, length_eq_subjects, hmirror, hmirror, hmirror, hmirror]
  simp only [ChangeKind.opposite]
  omega

/-! ## What a plan makes of the names -/

theorem execute_append (p q : Plan) (tables : List Table) :
    execute (p ++ q) tables = q.execute (p.execute tables) :=
  List.foldl_append

theorem execute_creations (l tables : List Table) :
    execute (l.map createAction) tables = tables ++ l := by
  induction l generalizing tables with
  | nil => exact (List.append_nil _).symm
  | cons t l ih =>
    change execute (l.map createAction) (tables ++ [t]) = _
    rw [ih, List.append_assoc, List.singleton_append]

theorem execute_drops (l tables : List Table) :
    execute (l.map dropAction) tables =
      tables.filter (·.qualifiedName ∉ l.map (·.qualifiedName)) := by
  induction l generalizing tables with
  | nil => simp [execute]
  | cons t l ih =>
    change execute (l.map dropAction) (tables.filter (·.qualifiedName ≠ t.qualifiedName)) = _
    rw [ih, List.filter_filter]
    refine List.filter_congr fun u _ => ?_
    simp [Bool.and_comm]

theorem map_qualifiedName_execute_alterations (a b : Snapshot) (tables : List Table) :
    (execute (a.byName.values.flatMap (alterations b.byName)) tables).map (·.qualifiedName) =
      tables.map (·.qualifiedName) := by
  have hchange (target : QualifiedName) (f : Table → Table)
      (hf : ∀ t : Table, (f t).qualifiedName = t.qualifiedName) (now : List Table) :
      (now.map (Table.changeAt target f)).map (·.qualifiedName) = now.map (·.qualifiedName) := by
    rw [List.map_map]
    refine List.map_congr_left fun t _ => ?_
    rw [Function.comp_apply, Table.changeAt]
    split
    · exact hf t
    · rfl
  refine execute_keeps (P := (·.map (·.qualifiedName) = tables.map (·.qualifiedName))) rfl
    fun action haction now hnow => ?_
  obtain ⟨wanted, _, live, _, _, haction⟩ := mem_alterations_iff.mp haction
  obtain ⟨column, _, _, rfl⟩ | ⟨column, _, _, rfl⟩ := mem_columnActions_iff.mp haction
  · exact (hchange live.qualifiedName (·.addColumn column) (fun _ => rfl) now).trans hnow
  · exact (hchange live.qualifiedName (·.dropColumn column) (fun _ => rfl) now).trans hnow

/-- The tables of one snapshot that another one lacks. -/
def onlyIn (s t : Snapshot) : List QualifiedName :=
  (s.byName.without t.byName).map (·.2.qualifiedName)

theorem onlyIn_eq (s t : Snapshot) :
    onlyIn s t = ((s.byName.without t.byName).map (·.2)).map (·.qualifiedName) := by
  rw [List.map_map]
  rfl

theorem mem_onlyIn {s t : Snapshot} {q : QualifiedName} : q ∈ onlyIn s t ↔
    ∃ table ∈ s.tables.entries, table.qualifiedName = q ∧ q.name ∉ t.tables.names := by
  constructor
  · intro h
    obtain ⟨⟨name, table⟩, hmem, rfl⟩ := List.mem_map.mp h
    obtain ⟨htable, rfl, habsent⟩ := mem_without_byName.mp hmem
    exact ⟨table, htable, rfl, habsent⟩
  · rintro ⟨table, htable, rfl, habsent⟩
    exact List.mem_map.mpr ⟨(_, _), mem_without_byName.mpr ⟨htable, rfl, habsent⟩, rfl⟩

theorem nodup_onlyIn (s t : Snapshot) : (onlyIn s t).Nodup := by
  have hkeys : ((s.byName.without t.byName).map (·.1)).Nodup :=
    s.byName.keys_nodup.sublist (List.filter_sublist.map _)
  have hnames : (s.byName.without t.byName).map (·.1) = (onlyIn s t).map (·.name) := by
    rw [onlyIn, List.map_map]
    exact List.map_congr_left fun p hp => (mem_without_byName.mp hp).2.1.symm
  rw [hnames] at hkeys
  exact hkeys.of_map _

/-- **What a plan makes of the tables it is carried out on**: it brings those that only the desired
side has, and takes away those that only the current side has. -/
theorem map_qualifiedName_execute_diff (a b : Snapshot) (tables : List Table) :
    ((diff a b).execute tables).map (·.qualifiedName) =
      (tables.map (·.qualifiedName) ++ onlyIn a b).filter (· ∉ onlyIn b a) := by
  have hdrops : (b.byName.without a.byName).map (fun p => dropAction p.2) =
      ((b.byName.without a.byName).map (·.2)).map dropAction := by
    rw [List.map_map]
    rfl
  have hcreations : (a.byName.without b.byName).map (fun p => createAction p.2) =
      ((a.byName.without b.byName).map (·.2)).map createAction := by
    rw [List.map_map]
    rfl
  rw [diff_eq, execute_append, execute_append, map_qualifiedName_execute_alterations, hdrops,
    hcreations, execute_creations, execute_drops, ← onlyIn_eq]
  have hmove : (tables ++ (a.byName.without b.byName).map (·.2)).map (·.qualifiedName) =
      tables.map (·.qualifiedName) ++ onlyIn a b := by
    rw [List.map_append, onlyIn_eq]
  rw [← hmove, List.filter_map]
  rfl

/-! ## There and back -/

/-- The tables of `b` after the plan that leads to `a` and then the plan back. -/
def thereAndBack (a b : Snapshot) : List Table :=
  (diff b a).execute ((diff a b).execute b.tables.entries)

theorem nodup_qualifiedNames (s : Snapshot) :
    (s.tables.entries.map (·.qualifiedName)).Nodup := by
  have hnames : (s.tables.entries.map (·.qualifiedName)).map (·.name) = s.tables.names := by
    rw [List.map_map]
    rfl
  exact List.Nodup.of_map (·.name) (hnames ▸ s.tables.distinct)

/-- **The tables are back**, each one in its database. -/
theorem perm_thereAndBack (a b : Snapshot) :
    ((thereAndBack a b).map (·.qualifiedName)).Perm (b.tables.entries.map (·.qualifiedName)) := by
  obtain ⟨next, hentries, -⟩ := diff_execute (List.append_nil (diff a b)).symm
  have hthere : ((diff a b).execute b.tables.entries).map (·.qualifiedName) = _ :=
    map_qualifiedName_execute_diff a b b.tables.entries
  have hback : (thereAndBack a b).map (·.qualifiedName) = _ :=
    map_qualifiedName_execute_diff b a ((diff a b).execute b.tables.entries)
  have hsub {q : QualifiedName} (hq : q ∈ onlyIn b a) :
      q ∈ b.tables.entries.map (·.qualifiedName) := by
    obtain ⟨table, htable, rfl, _⟩ := mem_onlyIn.mp hq
    exact List.mem_map_of_mem htable
  have hapart {q : QualifiedName} (hq : q ∈ b.tables.entries.map (·.qualifiedName)) :
      q ∉ onlyIn a b := by
    intro hmem
    obtain ⟨_, _, _, habsent⟩ := mem_onlyIn.mp hmem
    obtain ⟨table, htable, rfl⟩ := List.mem_map.mp hq
    exact habsent (List.mem_map_of_mem htable)
  have hnodup : ((thereAndBack a b).map (·.qualifiedName)).Nodup := by
    rw [hback]
    refine List.Nodup.filter _ (List.nodup_append.mpr ⟨?_, nodup_onlyIn b a, ?_⟩)
    · rw [← hentries]
      exact nodup_qualifiedNames next
    · rintro q hq _ hq' rfl
      rw [hthere, List.mem_filter, decide_eq_true_iff] at hq
      exact hq.2 hq'
  refine (List.perm_ext_iff_of_nodup hnodup (nodup_qualifiedNames b)).mpr fun q => ?_
  rw [hback, hthere]
  simp only [List.mem_filter, List.mem_append, decide_eq_true_iff]
  constructor
  · rintro ⟨⟨hq | hq, _⟩ | hq, hlacks⟩
    · exact hq
    · exact absurd hq hlacks
    · exact hsub hq
  · intro hq
    refine ⟨?_, hapart hq⟩
    by_cases hgone : q ∈ onlyIn b a
    · exact .inr hgone
    · exact .inl ⟨.inl hq, hgone⟩

/-- A table that both sides have is in one database, or it has the same columns. -/
def ComesBack (a b : Snapshot) : Prop :=
  ∀ t ∈ a.tables.entries, ∀ u ∈ b.tables.entries, t.name = u.name →
    t.database = u.database ∨ ∀ name, name ∈ t.columnNames ↔ name ∈ u.columnNames

/-- The way there leaves a table that both sides have where it lay, and brings the others as they
are desired. -/
theorem place_of_mem_execute {t : Table} (ht : t ∈ (diff a b).execute b.tables.entries) :
    (∃ u ∈ b.tables.entries, u.qualifiedName = t.qualifiedName) ∨
      (∃ u ∈ a.tables.entries, u.qualifiedName = t.qualifiedName) ∧
        t.name ∉ b.tables.names := by
  have hmem : t.qualifiedName ∈ ((diff a b).execute b.tables.entries).map (·.qualifiedName) :=
    List.mem_map_of_mem ht
  rw [map_qualifiedName_execute_diff, List.mem_filter, List.mem_append] at hmem
  rcases hmem.1 with hplace | hplace
  · exact .inl (List.mem_map.mp hplace)
  · obtain ⟨u, hu, hname, habsent⟩ := mem_onlyIn.mp hplace
    exact .inr ⟨⟨u, hu, hname⟩, habsent⟩

/-- If every table comes back, the way back looks the same from where the way there led as from the
side that it was to lead to. -/
theorem sameView_of_comesBack (h : ComesBack a b) {next : Snapshot}
    (hentries : next.tables.entries = (diff a b).execute b.tables.entries)
    (hnext : diff a next = []) : SameView b a b next := by
  obtain ⟨hnames, hcolumns⟩ := diff_eq_nil_iff.mp hnext
  refine ⟨fun t ht => ⟨t, ht, .refl a t⟩, fun t ht => ?_, fun _ => Iff.rfl, hnames⟩
  obtain ⟨u, hu, hname⟩ := List.mem_map.mp ((hnames t.name).mpr (List.mem_map_of_mem ht))
  refine ⟨u, hu, hname, hcolumns t ht u hu hname, ?_⟩
  rcases place_of_mem_execute (hentries ▸ hu) with ⟨w, hw, hplace⟩ | ⟨⟨w, hw, hplace⟩, _⟩
  · have hwname : w.name = t.name := (congrArg QualifiedName.name hplace).trans hname
    rcases h t ht w hw hwname.symm with hdatabase | hsame
    · left
      rw [← hplace, Table.qualifiedName, Table.qualifiedName, hwname, hdatabase]
    · exact .inr ⟨w, hw, hwname, hsame⟩
  · have hwname : w.name = t.name := (congrArg QualifiedName.name hplace).trans hname
    obtain rfl : w = t := eq_of_name_eq hw ht hwname
    exact .inl hplace.symm

theorem mem_thereAndBack {t u live : Table} (ht : t ∈ a.tables.entries)
    (hu : u ∈ b.tables.entries) (hname : t.name = u.name) (hdatabase : t.database ≠ u.database)
    (hlive : live ∈ (diff a b).execute b.tables.entries)
    (hplace : live.qualifiedName = u.qualifiedName) : live ∈ thereAndBack a b := by
  -- the actions on the way back that are about the table aim at the place of `t`
  have haim : ∀ target : Table, target ∈ a.tables.entries →
      target.qualifiedName ≠ u.qualifiedName := by
    intro target htarget e
    have hsame : target = t := eq_of_name_eq htarget ht
      ((congrArg QualifiedName.name e).trans hname.symm)
    exact hdatabase (hsame ▸ congrArg QualifiedName.database e)
  have hkeeps : ∃ x ∈ thereAndBack a b, x.qualifiedName = u.qualifiedName ∧ x = live := by
    refine execute_keeps (P := fun tables => ∃ x ∈ tables, x.qualifiedName = u.qualifiedName ∧
      x = live) ⟨live, hlive, hplace, rfl⟩ fun action haction tables hkeeps => ?_
    have hdifference := mem_diff_iff.mp haction
    refine Change.exists_apply hkeeps (hdifference.ne_dropTable hu rfl)
      (fun column hchange => ?_) fun column hchange => ?_
    · cases hdifference with
      | addColumn _ htarget =>
        rw [addColumnAction, Change.addColumn.injEq] at hchange
        exact absurd hchange.1 (haim _ htarget)
      | create | drop | dropColumn => cases hchange
    · cases hdifference with
      | dropColumn _ htarget =>
        rw [dropColumnAction, Change.dropColumn.injEq] at hchange
        exact absurd hchange.1 (haim _ htarget)
      | create | drop | addColumn => cases hchange
  obtain ⟨x, hx, _, rfl⟩ := hkeeps
  exact hx

/-- **When the columns are back**: exactly if every table that both sides have is in one database
or has the same columns. -/
theorem sameStructure_thereAndBack_iff :
    SameStructure b.tables.entries (thereAndBack a b) ↔ ComesBack a b := by
  obtain ⟨next, hentries, hnext⟩ := diff_execute (List.append_nil (diff a b)).symm
  constructor
  · rintro ⟨_, hback⟩ t ht u hu hname
    by_contra hnot
    rw [not_or] at hnot
    obtain ⟨hnames, hcolumns⟩ := diff_eq_nil_iff.mp hnext
    obtain ⟨live, hlive, hliveName⟩ := List.mem_map.mp
      ((hnames t.name).mpr (List.mem_map_of_mem ht))
    have hthere := hentries ▸ hlive
    have hplace : live.qualifiedName = u.qualifiedName := by
      rcases place_of_mem_execute hthere with ⟨w, hw, hwplace⟩ | ⟨_, habsent⟩
      · have hwname : w.name = live.name := congrArg QualifiedName.name hwplace
        rw [← hwplace, eq_of_name_eq hw hu (hwname.trans (hliveName.trans hname))]
      · exact absurd (List.mem_map.mpr ⟨u, hu, hname.symm.trans hliveName.symm⟩) habsent
    have hmem := mem_thereAndBack ht hu hname hnot.1 hthere hplace
    refine hnot.2 fun name => ?_
    rw [← hcolumns t ht live hlive hliveName, hback u hu live hmem (hliveName.trans hname)]
  · intro h
    have hsame := sameStructure_execute_diff b next
    rwa [← (sameView_of_comesBack h hentries hnext).diff_eq, hentries] at hsame

/-- **Plans there and back mirror each other.** The tables that one creates and the columns that it
adds are those that the other drops, in the same order; both have the same number of actions, and
one is empty exactly when the other is. Carried out one after the other they bring all tables back,
each one in its database. They bring the columns of all tables back exactly when every table that
both sides have is in one database or has the same columns. -/
theorem diff_mirrors (a b : Snapshot) :
    (∀ kind, (diff a b).subjects kind = (diff b a).subjects kind.opposite) ∧
      (diff a b).length = (diff b a).length ∧ (diff a b = [] ↔ diff b a = []) ∧
      ((thereAndBack a b).map (·.qualifiedName)).Perm
        (b.tables.entries.map (·.qualifiedName)) ∧
      (SameStructure b.tables.entries (thereAndBack a b) ↔
        ∀ t ∈ a.tables.entries, ∀ u ∈ b.tables.entries, t.name = u.name →
          t.database = u.database ∨
            ∀ name, name ∈ t.columnNames ↔ name ∈ u.columnNames) := by
  refine ⟨subjects_diff a b, length_diff_comm a b, ?_, perm_thereAndBack a b,
    sameStructure_thereAndBack_iff⟩
  rw [← List.length_eq_zero_iff, ← List.length_eq_zero_iff, length_diff_comm]

/-- **Columns do not come back across databases.** The plan there adds a column to the table where
it lies; the plan back drops it from a table of the other database. -/
theorem thereAndBack_across_databases :
    let id : Column := { name := "id", type := "UInt64" }
    let a : Snapshot :=
      { tables :=
          { entries := [{
              name := "events"
              database := some "archive"
              columns := [id, { name := "ts", type := "DateTime" }]
              engine := .mergeTree }] } }
    let b : Snapshot :=
      { tables := { entries := [{ name := "events", columns := [id], engine := .mergeTree }] } }
    (diff b a).map (·.change) = [.dropColumn ⟨some "archive", "events"⟩ "ts"] ∧
      (thereAndBack a b).map (fun t => (t.qualifiedName.text, t.columnNames)) =
        [("events", ["id", "ts"])] ∧
      ¬ SameStructure b.tables.entries (thereAndBack a b) := by
  intro id a b
  refine ⟨by decide, by decide, fun h => ?_⟩
  rw [sameStructure_thereAndBack_iff] at h
  rcases h _ (.head _) _ (.head _) rfl with hdatabase | hcolumns
  · cases hdatabase
  · exact absurd ((hcolumns "ts").mp (by decide)) (by decide)

end Plan

end SchemaPlan
