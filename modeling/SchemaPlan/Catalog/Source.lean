import SchemaPlan.Catalog.Row

/-!
# Catalog sources

Where catalog rows come from: something that answers four queries, or fails to. An answer may
depend on the queries asked before.
-/

namespace SchemaPlan

/-- What a catalog can be asked. -/
inductive Query
  | tables
  | dictionaries
  | columns (database table : String)
  | indexes (database table : String)
  deriving DecidableEq, Repr

namespace Query

/-- The rows that answer a query. -/
@[reducible] def Answer : Query → Type
  | tables => List TableRow
  | dictionaries => List DictionaryRow
  | columns .. => List ColumnRow
  | indexes .. => List IndexRow

/-- The system table a query reads. -/
def systemTable : Query → String
  | tables => "system.tables"
  | dictionaries => "system.dictionaries"
  | columns .. => "system.columns"
  | indexes .. => "system.data_skipping_indices"

end Query

/-- A query that was not answered, with what its source says about it. -/
structure QueryFailure where
  query : Query
  cause : String
  deriving DecidableEq, Repr

/-- The wording of a failed query, which names the system table. -/
def QueryFailure.message (e : QueryFailure) : String :=
  "catalog query `" ++ e.query.systemTable ++ "` failed: " ++ e.cause

/-- What answers queries: given the queries asked so far and one more, it answers it with rows or
fails with a message. -/
structure CatalogSource where
  ask : List Query → (query : Query) → Except String query.Answer

/-- The answers do not depend on the queries asked before. -/
def CatalogSource.Fixed (source : CatalogSource) : Prop :=
  ∀ before before' query, source.ask before query = source.ask before' query

/-- The source that answers every query from given rows. -/
def Catalog.source (c : Catalog) : CatalogSource where
  ask _ query :=
    match query with
    | .tables => .ok c.tables
    | .dictionaries => .ok c.dictionaries
    | .columns database table => .ok (c.columnsOf database table)
    | .indexes database table => .ok (c.indexesOf database table)

theorem Catalog.source_fixed (c : Catalog) : c.source.Fixed := fun _ _ _ => rfl

end SchemaPlan
