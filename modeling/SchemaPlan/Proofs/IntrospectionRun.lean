import SchemaPlan.Catalog.Introspect

/-!
# Runs of an introspection

A run asks queries one after the other. What it gives is put together from what its parts give.

* `Asking.Gives`: the run ends well with a value, and with the queries asked by then.
* `Asking.Gives.bind`, `Asking.gives_answer`: one run after another, and a single query.
* `Progress.takeRow_gives`: taking in the row of a table.
* `introspection_gives`: the run over the rows that are chosen.
-/

namespace SchemaPlan

namespace Asking

variable {α β : Type} {before between after : List Query}

/-- The run `m`, after the queries `before`, ends well with `a`; by then `after` were asked. -/
def Gives (m : Asking α) (before : List Query) (a : α) (after : List Query) : Prop :=
  m.run.run before = (.ok a, after)

theorem gives_pure (a : α) (before : List Query) : Gives (pure a) before a before := rfl

theorem Gives.bind {m : Asking α} {f : α → Asking β} {a : α} {b : β}
    (hm : Gives m before a between) (hf : Gives (f a) between b after) :
    Gives (m >>= f) before b after := by
  unfold Gives at hm hf ⊢
  rw [ExceptT.run_bind, StateT.run_bind, hm]
  exact hf

theorem gives_answer {source : CatalogSource} {query : Query} {rows : query.Answer}
    (h : source.ask before query = .ok rows) :
    Gives (source.answer query) before rows (before ++ [query]) := by
  unfold CatalogSource.answer
  have hget : Gives (getThe (List Query)) before before before := rfl
  have hset : Gives (set (before ++ [query])) before PUnit.unit (before ++ [query]) := rfl
  refine hget.bind (hset.bind ?_)
  rw [h]
  exact gives_pure rows _

end Asking

open Asking

namespace Progress

variable {source : CatalogSource} {p : Progress} {row : TableRow} {before : List Query}

theorem taken_gives {snapshot : Snapshot} (p : Progress) (row : TableRow) (before : List Query) :
    Gives (p.taken row (.ok snapshot)) before
      { p with found := ⟨snapshot, p.found.statistics.recordDumped row.engine⟩ } before :=
  rfl

/-- The row of a table is taken in after two queries, if its name is free. -/
theorem takeRow_gives {engine : Engine} {columns : List ColumnRow} {indexes : List IndexRow}
    {tables : Collection Table} (hcontent : row.content = .table engine)
    (hcolumns : source.ask before (.columns row.database row.name) = .ok columns)
    (hindexes : source.ask (before ++ [.columns row.database row.name])
      (.indexes row.database row.name) = .ok indexes)
    (hadd : p.found.snapshot.tables.add (row.table engine columns indexes) = .ok tables) :
    Gives (takeRow source p row) before
      { p with
        found := ⟨{ p.found.snapshot with tables := tables },
          p.found.statistics.recordDumped row.engine⟩ }
      (before ++ [.columns row.database row.name] ++ [.indexes row.database row.name]) := by
  have hsnapshot : p.found.snapshot.addTable (row.table engine columns indexes) =
      .ok { p.found.snapshot with tables := tables } := by
    rw [Snapshot.addTable, hadd]
    rfl
  rw [takeRow, hcontent]
  refine (gives_answer hcolumns).bind ((gives_answer hindexes).bind ?_)
  rw [hsnapshot]
  exact taken_gives p row _

end Progress

theorem introspection_gives {source : CatalogSource} {filter : Filter} {rows : List TableRow}
    {p : Progress} {after : List Query} (htables : source.ask [] .tables = .ok rows)
    (hdictionaries : ∀ row ∈ filter.select rows, row.engine ≠ "Dictionary")
    (hrows : Gives ((filter.select rows).foldlM (Progress.takeRow source)
        ⟨⟨.empty, (filter.select rows).foldl (fun s r => s.recordSeen r.engine) .empty⟩, []⟩)
      [.tables] p after) :
    Gives (introspection source filter) [] p.found after := by
  have hany : (filter.select rows).any (·.engine = "Dictionary") = false := by
    rw [List.any_eq_false]
    intro row hrow
    simpa using hdictionaries row hrow
  refine (gives_answer htables).bind ?_
  simp only [hany]
  exact (gives_pure [] _).bind (hrows.bind (gives_pure _ _))

end SchemaPlan
