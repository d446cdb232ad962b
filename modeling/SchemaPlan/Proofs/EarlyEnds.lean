import SchemaPlan.Proofs.RowOutcomes

/-!
# Runs that end early

A run ends early at a query that fails or at a name that is repeated. What it asked by then is known
as well as for a run that ends well.

* `Asking.Stops`: the run ends early; `Asking.stops_bind_iff`, `Asking.stops_answer_iff`,
  `Asking.exists_of_stops_foldlM`: such a run, taken apart.
* `CatalogSource.AnswersAll`: queries that are asked in turn and are all answered.
* `Progress.Takes.asked`: the queries of a row that is taken in.
* `Progress.StopsAt`: all the ways in which a row ends the run; `Progress.stopsAt_of_stops`: there
  are no others.
-/

namespace SchemaPlan

/-! ## Runs taken apart -/

namespace Asking

variable {α β σ : Type} {before after : List Query} {cause : IntrospectionError}

/-- The run `m`, after the queries `before`, ends early; by then `after` were asked. -/
def Stops (m : Asking α) (before : List Query) (cause : IntrospectionError)
    (after : List Query) : Prop :=
  m.run.run before = (.error cause, after)

theorem gives_or_stops (m : Asking α) (before : List Query) :
    (∃ a after, Gives m before a after) ∨ ∃ cause after, Stops m before cause after := by
  rcases h : m.run.run before with ⟨cause | a, after⟩
  · exact .inr ⟨cause, after, h⟩
  · exact .inl ⟨a, after, h⟩

theorem not_stops_pure {a : α} : ¬ Stops (pure a) before cause after := by
  intro h
  cases h

theorem stops_throw_iff {other : IntrospectionError} :
    Stops (throw other : Asking α) before cause after ↔ cause = other ∧ after = before := by
  unfold Stops
  constructor
  · intro h
    cases h
    exact ⟨rfl, rfl⟩
  · rintro ⟨rfl, rfl⟩
    rfl

theorem Stops.bind {m : Asking α} (h : Stops m before cause after) (f : α → Asking β) :
    Stops (m >>= f) before cause after := by
  unfold Stops at h ⊢
  rw [ExceptT.run_bind, StateT.run_bind, h]
  rfl

theorem Gives.stops_bind_iff {m : Asking α} {f : α → Asking β} {a : α} {between : List Query}
    (hm : Gives m before a between) :
    Stops (m >>= f) before cause after ↔ Stops (f a) between cause after := by
  unfold Gives at hm
  unfold Stops
  rw [ExceptT.run_bind, StateT.run_bind, hm]
  rfl

/-- One run after another ends early in the first or in the second. -/
theorem stops_bind_iff {m : Asking α} {f : α → Asking β} :
    Stops (m >>= f) before cause after ↔ Stops m before cause after ∨
      ∃ a between, Gives m before a between ∧ Stops (f a) between cause after := by
  constructor
  · intro h
    rcases gives_or_stops m before with ⟨a, between, hm⟩ | ⟨other, between, hm⟩
    · exact .inr ⟨a, between, hm, hm.stops_bind_iff.mp h⟩
    · have hsame : Stops (m >>= f) before other between := hm.bind f
      unfold Stops at h hsame
      rw [hsame] at h
      cases h
      exact .inl hm
  · rintro (hm | ⟨a, between, hm, hf⟩)
    · exact hm.bind f
    · exact hm.stops_bind_iff.mpr hf

theorem stops_answer_iff {source : CatalogSource} {query : Query} :
    Stops (source.answer query) before cause after ↔
      ∃ failure, source.ask before query = .error failure ∧ cause = .query ⟨query, failure⟩ ∧
        after = before ++ [query] := by
  have hget : Gives (getThe (List Query)) before before before := rfl
  have hset : Gives (set (before ++ [query])) before PUnit.unit (before ++ [query]) := rfl
  unfold CatalogSource.answer
  rw [hget.stops_bind_iff, hset.stops_bind_iff]
  cases source.ask before query with
  | ok rows => exact ⟨fun h => absurd h not_stops_pure, fun ⟨_, h, _⟩ => by cases h⟩
  | error failure => simp [stops_throw_iff]

/-- A run over a list that ends early does so at one of its elements. -/
theorem exists_of_stops_foldlM {step : σ → α → Asking σ} {l : List α} {s : σ}
    (h : Stops (l.foldlM step s) before cause after) :
    ∃ done a rest t between, l = done ++ a :: rest ∧
      Gives (done.foldlM step s) before t between ∧ Stops (step t a) between cause after := by
  induction l generalizing s before with
  | nil => exact absurd h not_stops_pure
  | cons a l ih =>
    rw [List.foldlM_cons, stops_bind_iff] at h
    rcases h with h | ⟨t, between, hstep, h⟩
    · exact ⟨[], a, l, s, before, rfl, gives_pure s before, h⟩
    · obtain ⟨done, b, rest, u, asked, rfl, hdone, hb⟩ := ih h
      exact ⟨a :: done, b, rest, u, asked, rfl, hstep.bind hdone, hb⟩

end Asking

/-! ## Queries asked in turn -/

namespace CatalogSource

variable {source : CatalogSource}

/-- The queries, asked in turn after `before`, are all answered. -/
def AnswersAll (source : CatalogSource) : List Query → List Query → Prop
  | _, [] => True
  | before, query :: queries =>
    (∃ rows, source.ask before query = .ok rows) ∧ source.AnswersAll (before ++ [query]) queries

theorem answersAll_append_iff {before queries later : List Query} :
    source.AnswersAll before (queries ++ later) ↔
      source.AnswersAll before queries ∧ source.AnswersAll (before ++ queries) later := by
  induction queries generalizing before with
  | nil => simp [AnswersAll]
  | cons query queries ih => simp [AnswersAll, ih, and_assoc]

end CatalogSource

namespace TableRow

variable {row : TableRow}

theorem queries_of_table {engine : Engine} (h : row.content = .table engine) :
    row.queries = [.columns row.database row.name, .indexes row.database row.name] :=
  if_pos (isReadable_iff.mpr ⟨engine, h⟩)

theorem queries_eq_nil (h : row.isReadable = false) : row.queries = [] := by
  rw [queries, h]
  rfl

end TableRow

/-! ## Rows -/

open Asking

namespace Progress

variable {source : CatalogSource} {p next : Progress} {row : TableRow} {before after : List Query}
  {cause : IntrospectionError}

theorem Takes.asked (h : Takes source p row before next after) :
    source.AnswersAll before row.queries ∧ after = before ++ row.queries := by
  cases h with
  | table content hcolumns hindexes =>
    rw [TableRow.queries_of_table content, List.append_assoc]
    exact ⟨⟨⟨_, hcolumns⟩, ⟨_, hindexes⟩, trivial⟩, rfl⟩
  | view content | materializedView content | dictionary content | undescribed content
  | unreadable content | unmodeled content =>
    rw [TableRow.queries_eq_nil (by rw [TableRow.isReadable, content]), List.append_nil]
    exact ⟨trivial, rfl⟩

/-- The ways in which a row ends the run after the queries `before`. -/
inductive StopsAt (source : CatalogSource) (p : Progress) (row : TableRow) (before : List Query) :
    IntrospectionError → List Query → Prop
  /-- One of its queries fails, those before it being answered. -/
  | query {asked later : List Query} {query : Query} {failure : String}
      (queries : row.queries = asked ++ query :: later)
      (answers : source.AnswersAll before asked)
      (failed : source.ask (before ++ asked) query = .error failure) :
      StopsAt source p row before (.query ⟨query, failure⟩) (before ++ asked ++ [query])
  /-- The name of its entity is taken. -/
  | duplicateName {kind : EntityKind} (answers : source.AnswersAll before row.queries)
      (modeled : row.fate p.dictionaries = .modeled kind)
      (taken : row.name ∈ (p.found.snapshot.collection kind).names) :
      StopsAt source p row before (.duplicateName ⟨kind, row.name⟩) (before ++ row.queries)

/-- An entity that cannot be added has the name of one that is there. -/
theorem stops_taken_iff (kind : EntityKind) {x : kind.Member} {s : Snapshot} :
    Stops (p.taken row (s.add kind x)) before cause after ↔
      Entity.name x ∈ (s.collection kind).names ∧ cause = .duplicateName ⟨kind, Entity.name x⟩ ∧
        after = before := by
  by_cases hmem : Entity.name x ∈ (s.collection kind).names
  · rw [Snapshot.add_of_mem hmem, taken]
    simp [stops_throw_iff, hmem]
  · obtain ⟨t, hadd, _⟩ := Snapshot.add_of_notMem hmem
    rw [hadd, taken]
    simp [not_stops_pure, hmem]

/-- A row ends the run in no other way. -/
theorem stopsAt_of_stops (h : Stops (takeRow source p row) before cause after) :
    StopsAt source p row before cause after := by
  have hduplicate {kind : EntityKind} (hreadable : row.isReadable = false)
      (hfate : row.fate p.dictionaries = .modeled kind)
      (htaken : row.name ∈ (p.found.snapshot.collection kind).names) :
      StopsAt source p row before (.duplicateName ⟨kind, row.name⟩) before := by
    have hqueries : row.queries = [] := TableRow.queries_eq_nil hreadable
    have hstops := StopsAt.duplicateName (hqueries ▸ trivial : source.AnswersAll before row.queries)
      hfate htaken
    rwa [hqueries, List.append_nil] at hstops
  unfold takeRow at h
  cases hcontent : row.content with
  | view =>
    rw [hcontent] at h
    obtain ⟨htaken, rfl, rfl⟩ := (stops_taken_iff .view).mp h
    exact hduplicate (by rw [TableRow.isReadable, hcontent]) (by rw [TableRow.fate, hcontent])
      htaken
  | materializedView =>
    rw [hcontent] at h
    obtain ⟨htaken, rfl, rfl⟩ := (stops_taken_iff .materializedView).mp h
    exact hduplicate (by rw [TableRow.isReadable, hcontent]) (by rw [TableRow.fate, hcontent])
      htaken
  | dictionary =>
    simp only [hcontent] at h
    cases hleft : p.dictionaryOf? row with
    | none =>
      rw [hleft] at h
      exact absurd h not_stops_pure
    | some d =>
      rw [hleft] at h
      have hmem := List.mem_of_getLast? hleft
      rw [List.mem_filter, ← TableRow.isDescribedBy] at hmem
      have hfate : row.fate p.dictionaries = .modeled .dictionary := by
        simp only [TableRow.fate, hcontent]
        rw [if_pos (List.any_eq_true.mpr ⟨d, hmem⟩)]
      rw [TableRow.isDescribedBy, decide_eq_true_iff] at hmem
      obtain ⟨htaken, rfl, rfl⟩ := (stops_taken_iff .dictionary).mp h
      have hname : Entity.name d.dictionary = row.name := hmem.2.2
      rw [hname] at htaken ⊢
      exact hduplicate (by rw [TableRow.isReadable, hcontent]) hfate htaken
  | table engine =>
    rw [hcontent] at h
    have hqueries := TableRow.queries_of_table hcontent
    rcases stops_bind_iff.mp h with h | ⟨columns, _, hfirst, h⟩
    · obtain ⟨failure, hfailed, rfl, rfl⟩ := stops_answer_iff.mp h
      have hstops : StopsAt source p row before _ (before ++ [] ++ [_]) :=
        .query hqueries trivial (by rwa [List.append_nil])
      rwa [List.append_nil] at hstops
    obtain ⟨hcolumns, rfl⟩ := gives_answer_iff.mp hfirst
    rcases stops_bind_iff.mp h with h | ⟨indexes, _, hsecond, h⟩
    · obtain ⟨failure, hfailed, rfl, rfl⟩ := stops_answer_iff.mp h
      exact .query (hqueries.trans List.singleton_append.symm)
        ⟨⟨columns, hcolumns⟩, trivial⟩ hfailed
    obtain ⟨hindexes, rfl⟩ := gives_answer_iff.mp hsecond
    obtain ⟨htaken, rfl, rfl⟩ := (stops_taken_iff .table).mp h
    have hanswers : source.AnswersAll before row.queries := by
      rw [hqueries]
      exact ⟨⟨columns, hcolumns⟩, ⟨indexes, hindexes⟩, trivial⟩
    have hfate : row.fate p.dictionaries = .modeled .table := by rw [TableRow.fate, hcontent]
    have hstops := StopsAt.duplicateName hanswers hfate htaken
    rwa [hqueries, List.append_cons] at hstops
  | unreadable | unmodeled =>
    rw [hcontent] at h
    exact absurd h not_stops_pure

end Progress

end SchemaPlan
