import SchemaPlan.Proofs.IntrospectionSteps
import SchemaPlan.Proofs.RowOrder

/-!
# The order of a catalog

An introspection does not depend on the order in which a catalog lists its tables and its
dictionaries, be it that it ends well or early. It sorts the rows of tables by their places, and it
looks dictionary rows up by theirs.

* `Asking.Alike`: two runs side by side, with what relates their results; `Asking.Alike.bind`,
  `Asking.Alike.foldlM`: runs put together.
* `Progress.Agrees`: the same was found and the same dictionary rows are looked up;
  `Progress.Agrees.takeRow`: a row keeps this.
* `Catalog.Reordered`: the same catalog in another order.
* **`introspect_eq_of_reordered`**: the same is found, or the run ends early for the same reason.
-/

namespace SchemaPlan

/-! ## Runs side by side -/

/-- Two runs that asked the same queries ended in the same way: well, with related results, or
early, for the same reason. -/
inductive EndAlike {α β : Type} (R : α → β → Prop) :
    Except IntrospectionError α × List Query → Except IntrospectionError β × List Query → Prop
  | well {a : α} {b : β} {asked : List Query} (related : R a b) :
      EndAlike R (.ok a, asked) (.ok b, asked)
  | early {cause : IntrospectionError} {asked : List Query} :
      EndAlike R (.error cause, asked) (.error cause, asked)

namespace Asking

variable {α β γ δ : Type} {R : α → β → Prop} {S : γ → δ → Prop}

/-- Whatever was asked before, two runs end in the same way. -/
def Alike (R : α → β → Prop) (m : Asking α) (n : Asking β) : Prop :=
  ∀ before, EndAlike R (m.run.run before) (n.run.run before)

theorem alike_pure {a : α} {b : β} (h : R a b) : Alike R (pure a) (pure b) := fun _ => .well h

theorem alike_throw (cause : IntrospectionError) :
    Alike R (throw cause : Asking α) (throw cause : Asking β) := fun _ => .early

theorem alike_self (m : Asking α) : Alike (· = ·) m m := by
  intro before
  rcases m.run.run before with ⟨cause | a, asked⟩
  · exact .early
  · exact .well rfl

namespace Alike

theorem run_eq {m n : Asking α} (h : Alike (· = ·) m n) (before : List Query) :
    m.run.run before = n.run.run before := by
  have hend := h before
  generalize m.run.run before = x at hend ⊢
  generalize n.run.run before = y at hend ⊢
  cases hend with
  | well related => rw [related]
  | early => rfl

theorem bind {m : Asking α} {n : Asking β} {f : α → Asking γ} {g : β → Asking δ}
    (hm : Alike R m n) (hf : ∀ a b, R a b → Alike S (f a) (g b)) : Alike S (m >>= f) (n >>= g) := by
  intro before
  have hend := hm before
  rw [ExceptT.run_bind, ExceptT.run_bind, StateT.run_bind, StateT.run_bind]
  generalize m.run.run before = x at hend
  generalize n.run.run before = y at hend
  cases hend with
  | well related => exact hf _ _ related _
  | early => exact .early

theorem foldlM {σ τ : Type} {R : σ → τ → Prop} {step : σ → α → Asking σ} {step' : τ → α → Asking τ}
    (hstep : ∀ s t a, R s t → Alike R (step s a) (step' t a)) (l : List α) {s : σ} {t : τ}
    (h : R s t) : Alike R (l.foldlM step s) (l.foldlM step' t) := by
  induction l generalizing s t with
  | nil => exact alike_pure h
  | cons a l ih =>
    rw [List.foldlM_cons, List.foldlM_cons]
    exact (hstep s t a h).bind fun _ _ hnext => ih hnext

end Alike

theorem answer_congr {source source' : CatalogSource} {query : Query}
    (h : ∀ before, source.ask before query = source'.ask before query) :
    source.answer query = source'.answer query := by
  unfold CatalogSource.answer
  simp only [h]

end Asking

open Asking

/-! ## Dictionary rows in another order -/

/-- The place of a dictionary row. -/
def DictionaryRow.place (d : DictionaryRow) : String × String := (d.database, d.name)

namespace Progress

variable {source source' : CatalogSource} {p q : Progress} {row other : TableRow}

theorem dictionaryOf?_eq (p : Progress) (row : TableRow) :
    p.dictionaryOf? row = (p.dictionaries.filter (·.place = row.place)).getLast? := by
  unfold dictionaryOf?
  simp only [DictionaryRow.place, TableRow.place, Prod.mk.injEq]

theorem dictionaryOf?_withoutDictionary (p : Progress) (row other : TableRow) :
    (p.withoutDictionary other).dictionaryOf? row =
      if row.place = other.place then none else p.dictionaryOf? row := by
  have hleft : (p.withoutDictionary other).dictionaries =
      p.dictionaries.filter fun d => ¬ d.place = other.place := by
    simp only [withoutDictionary, DictionaryRow.place, TableRow.place, Prod.mk.injEq]
  rw [dictionaryOf?_eq, dictionaryOf?_eq, hleft, List.filter_filter]
  split
  case isTrue h =>
    rw [List.getLast?_eq_none_iff, List.filter_eq_nil_iff]
    intro d _
    simp [h]
  case isFalse h =>
    congr 1
    refine List.filter_congr fun d _ => ?_
    by_cases hplace : d.place = row.place
    · simp [hplace, h]
    · simp [hplace]

/-- The same was found, and every row finds the same dictionary row. -/
structure Agrees (p q : Progress) : Prop where
  found : p.found = q.found
  described : ∀ row, p.dictionaryOf? row = q.dictionaryOf? row

namespace Agrees

theorem withoutDictionary (h : Agrees p q) (row : TableRow) :
    Agrees (p.withoutDictionary row) (q.withoutDictionary row) where
  found := h.found
  described other := by
    rw [dictionaryOf?_withoutDictionary, dictionaryOf?_withoutDictionary, h.described]

theorem taken (h : Agrees p q) (row : TableRow) (added : Except DuplicateName Snapshot) :
    Alike Agrees (p.taken row added) (q.taken row added) := by
  cases added with
  | error cause => exact alike_throw _
  | ok snapshot =>
    refine alike_pure ⟨?_, h.described⟩
    rw [h.found]

/-- **What a row adds depends on what was found and on the dictionary row that it finds.** -/
theorem takeRow (h : Agrees p q)
    (hcolumns : ∀ before database table,
      source.ask before (.columns database table) = source'.ask before (.columns database table))
    (hindexes : ∀ before database table,
      source.ask before (.indexes database table) = source'.ask before (.indexes database table))
    (row : TableRow) :
    Alike Agrees (Progress.takeRow source p row) (Progress.takeRow source' q row) := by
  unfold Progress.takeRow
  rw [h.found, h.described row]
  cases row.content with
  | view | materializedView => exact h.taken row _
  | dictionary =>
    cases q.dictionaryOf? row with
    | none => exact alike_pure h
    | some d => exact (h.withoutDictionary row).taken row _
  | table engine =>
    rw [answer_congr fun before => hcolumns before row.database row.name,
      answer_congr fun before => hindexes before row.database row.name]
    refine (alike_self _).bind ?_
    rintro columns _ rfl
    refine (alike_self _).bind ?_
    rintro indexes _ rfl
    exact h.taken row _
  | unreadable cause =>
    refine alike_pure ⟨?_, h.described⟩
    rw [failed, failed, h.found]
  | unmodeled => exact alike_pure h

/-- Dictionary rows with distinct places can be listed in any order. -/
theorem start (rows : List TableRow) {dictionaries dictionaries' : List DictionaryRow}
    (hperm : dictionaries.Perm dictionaries')
    (hplaces : (dictionaries.map DictionaryRow.place).Nodup) :
    Agrees (Progress.start rows dictionaries) (Progress.start rows dictionaries') where
  found := rfl
  described row := by
    rw [dictionaryOf?_eq, dictionaryOf?_eq]
    have hdistinct {l : List DictionaryRow} (hl : (l.map DictionaryRow.place).Nodup) :
        (l.filter (·.place = row.place)).Pairwise fun d e => d.place ≠ e.place :=
      (List.pairwise_map.mp hl).filter _
    have hplaces' : (dictionaries'.map DictionaryRow.place).Nodup :=
      (hperm.map _).nodup_iff.mp hplaces
    -- two rows at one place would have to be at distinct places
    refine congrArg List.getLast? ((hperm.filter _).eq_of_pairwise (fun d e hd he hne _ => ?_)
      (hdistinct hplaces) (hdistinct hplaces'))
    rw [List.mem_filter, decide_eq_true_iff] at hd he
    exact absurd (hd.2.trans he.2.symm) hne

end Agrees

end Progress

/-! ## Whole introspections -/

namespace Catalog

/-- The same catalog in another order: each table has its columns and its indexes in the same
order. -/
structure Reordered (c c' : Catalog) : Prop where
  tables : c.tables.Perm c'.tables
  places : (c.tables.map TableRow.place).Nodup
  dictionaries : c.dictionaries.Perm c'.dictionaries
  dictionaryPlaces : (c.dictionaries.map DictionaryRow.place).Nodup
  columns : ∀ database table, c.columnsOf database table = c'.columnsOf database table
  indexes : ∀ database table, c.indexesOf database table = c'.indexesOf database table

namespace Reordered

variable {c c' : Catalog} {filter : Filter} {rows : List TableRow}

theorem select_eq (h : Reordered c c') (filter : Filter) :
    filter.select c.tables = filter.select c'.tables :=
  Filter.eq_select ((h.tables.map _).nodup_iff.mp h.places)
    ((filter.select_perm c.tables).trans (h.tables.filter _)) (filter.select_pairwise c.tables)

/-- The run over the chosen rows, from whichever of the two catalogs. -/
theorem alike (h : Reordered c c') (rows : List TableRow) :
    Alike (· = ·) (introspectionOf c.source rows) (introspectionOf c'.source rows) := by
  have hrows {left left' : List DictionaryRow}
      (hstart : Progress.Agrees (.start rows left) (.start rows left')) :
      Alike (· = ·)
        (rows.foldlM (Progress.takeRow c.source) (.start rows left) >>= fun p => pure p.found)
        (rows.foldlM (Progress.takeRow c'.source) (.start rows left') >>= fun p =>
          pure p.found) := by
    refine (Alike.foldlM (fun p q row hpq => hpq.takeRow ?_ ?_ row) rows hstart).bind
      fun p q hpq => alike_pure hpq.found
    · exact fun _ database table => congrArg Except.ok (h.columns database table)
    · exact fun _ database table => congrArg Except.ok (h.indexes database table)
  unfold introspectionOf
  split
  · -- dictionary rows are listed in the order of the catalog
    have hlisted : Alike (fun left left' => left = c.dictionaries ∧ left' = c'.dictionaries)
        (c.source.answer .dictionaries) (c'.source.answer .dictionaries) :=
      fun _ => .well ⟨rfl, rfl⟩
    refine hlisted.bind ?_
    rintro _ _ ⟨rfl, rfl⟩
    exact hrows (.start rows h.dictionaries h.dictionaryPlaces)
  · refine (alike_self _).bind ?_
    rintro left _ rfl
    exact hrows ⟨rfl, fun _ => rfl⟩

end Reordered

end Catalog

/-- **An introspection does not depend on the order of a catalog.** The same is found, in the same
order, or the run ends early for the same reason; the same queries are asked. -/
theorem introspect_eq_of_reordered {c c' : Catalog} (h : c.Reordered c') (filter : Filter) :
    introspect c.source filter = introspect c'.source filter := by
  have hlisted (c : Catalog) : c.source.ask [] .tables = .ok c.tables := rfl
  rw [introspect_eq (hlisted c), introspect_eq (hlisted c'), h.select_eq filter]
  exact (h.alike _).run_eq _

/-- Two dictionaries and a table, listed in two orders, with the columns of two tables
interleaved. -/
theorem introspect_eq_of_reordered_codes :
    let codes : DictionaryRow := { database := "main", name := "codes", keyNames := ["id"] }
    let rates : DictionaryRow := { database := "main", name := "rates", keyNames := ["day"] }
    let rowCodes : TableRow := { database := "main", name := "codes", engine := "Dictionary" }
    let rowRates : TableRow := { database := "main", name := "rates", engine := "Dictionary" }
    let events : TableRow :=
      { database := "main", name := "events", engine := "MergeTree",
        engineFull := "MergeTree ORDER BY id" }
    let column (table name : String) : ColumnRow :=
      { database := "main", table := table, name := name, type := "UInt64" }
    let c : Catalog :=
      { tables := [rowCodes, rowRates, events]
        columns := [column "events" "id", column "codes" "id", column "events" "ts"]
        dictionaries := [codes, rates] }
    let c' : Catalog :=
      { tables := [events, rowRates, rowCodes]
        columns := [column "codes" "id", column "events" "id", column "events" "ts"]
        dictionaries := [rates, codes] }
    c.Reordered c' ∧ introspect c.source {} = introspect c'.source {} := by
  intro codes rates rowCodes rowRates events column c c'
  have h : c.Reordered c' := by
    refine ⟨by decide, by decide, by decide, by decide, fun database table => ?_, fun _ _ => rfl⟩
    by_cases htable : table = "events"
    · subst htable
      simp [Catalog.columnsOf, c, c', column, List.filter_cons]
    · have hother : "events" ≠ table := Ne.symm htable
      simp [Catalog.columnsOf, c, c', column, List.filter_cons, hother]
  exact ⟨h, introspect_eq_of_reordered h {}⟩

end SchemaPlan
