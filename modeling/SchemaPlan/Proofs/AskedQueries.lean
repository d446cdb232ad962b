import SchemaPlan.Proofs.RepeatedNames

/-!
# The queries of an introspection

An introspection asks its queries in a prescribed sequence, and it leaves this sequence at its end,
at the first query that fails or at the first repeated name.

* `queriesBy`: the prescribed queries, up to some row.
* `RepeatsName`: a row repeats the name of an earlier one, whatever was used up in between;
  `Progress.Accounts.mem_names_iff`: the run sees it; `Progress.Accounts.unrepeated`: the rows that
  were taken in do not repeat a name.
* `Progress.takeRows_asked`: the queries of the run over several rows.
* `Ends`: the ways in which the run over the chosen rows ends; `ends_of_starts`: there are no
  others.
* `QueryFailure.message_names`: what a failed query is reported with.
* **`introspect_traced`**: whole introspections.
-/

namespace SchemaPlan

open Asking

/-! ## The prescribed queries -/

/-- The queries that are asked before the first row is taken in. -/
def openingQueries (rows : List TableRow) : List Query :=
  .tables :: if rows.any (·.engine = "Dictionary") then [.dictionaries] else []

/-- The queries of an introspection over some rows, up to those about the rows `done`. -/
def queriesBy (rows done : List TableRow) : List Query :=
  openingQueries rows ++ done.flatMap TableRow.queries

theorem queriesBy_nil (rows : List TableRow) : queriesBy rows [] = openingQueries rows :=
  List.append_nil _

theorem queriesBy_append (rows done more : List TableRow) :
    queriesBy rows (done ++ more) = queriesBy rows done ++ more.flatMap TableRow.queries := by
  rw [queriesBy, queriesBy, List.flatMap_append, List.append_assoc]

theorem queriesBy_concat (rows done : List TableRow) (row : TableRow) :
    queriesBy rows (done ++ [row]) = queriesBy rows done ++ row.queries := by
  rw [queriesBy_append, List.flatMap_singleton]

theorem queriesBy_within {rows done : List TableRow} (h : done <+: rows) :
    queriesBy rows done <+: queriesBy rows rows := by
  obtain ⟨rest, hrest⟩ := h
  rw [← hrest, queriesBy_append]
  exact List.prefix_append _ _

theorem Starts.eq {source : CatalogSource} {rows : List TableRow}
    {dictionaries : List DictionaryRow} {first : List Query}
    (h : Starts source rows dictionaries first) : first = openingQueries rows := by
  unfold openingQueries
  cases h with
  | described some => rw [if_pos some]
  | plain none => rw [none]; rfl

theorem Starts.answersAll {source : CatalogSource} {listed rows : List TableRow}
    {dictionaries : List DictionaryRow} {first : List Query}
    (h : Starts source rows dictionaries first) (hlisted : source.ask [] .tables = .ok listed) :
    source.AnswersAll [] first := by
  cases h with
  | described some given => exact ⟨⟨listed, hlisted⟩, ⟨dictionaries, given⟩, trivial⟩
  | plain none => exact ⟨⟨listed, hlisted⟩, trivial⟩

/-! ## Repeated names -/

/-- After the rows `done`, a row repeats the name of an earlier row that was modeled as the same
kind. The rows before a row may have used up what describes it. -/
structure RepeatsName (dictionaries : List DictionaryRow) (done : List TableRow) (row : TableRow)
    (kind : EntityKind) : Prop where
  modeled : row.ModeledAs (unusedRows dictionaries done) kind
  repeated : ∃ before earlier, before ++ [earlier] <+: done ∧
    earlier.ModeledAs (unusedRows dictionaries before) kind ∧ earlier.name = row.name

/-- No row repeats a name. -/
def Unrepeated (dictionaries : List DictionaryRow) (rows : List TableRow) : Prop :=
  ∀ done row kind, done ++ [row] <+: rows → ¬ RepeatsName dictionaries done row kind

section Names

variable {source : CatalogSource} {asked : List Query} {left dictionaries : List DictionaryRow}
  {rows : List TableRow} {row : TableRow} {outcome : RowOutcome} {outcomes : List RowOutcome}
  {kind : EntityKind} {name : String}

theorem TableRow.Becomes.mem_names_iff (h : row.Becomes source asked left outcome) :
    name ∈ (outcome.entity? kind).toList.map Entity.name ↔
      row.ModeledAs left kind ∧ row.name = name := by
  rw [TableRow.modeledAs_iff, ← h.fate_eq, ← RowOutcome.isSome_entity?_iff]
  cases hentity : outcome.entity? kind with
  | none => simp
  | some x =>
    rw [RowOutcome.entity?_eq_some_iff] at hentity
    subst hentity
    simp [h.named.2, eq_comm]

namespace Outcomes

theorem mem_names_iff (h : Outcomes source asked dictionaries rows outcomes) :
    name ∈ (outcomes.filterMap (·.entity? kind)).map Entity.name ↔
      ∃ before row, before ++ [row] <+: rows ∧
        row.ModeledAs (unusedRows dictionaries before) kind ∧ row.name = name := by
  induction h with
  | nil => simp
  | @concat rows outcomes row outcome init last ih =>
    rw [List.filterMap_append, filterMap_singleton, List.map_append, List.mem_append, ih,
      last.mem_names_iff]
    constructor
    · rintro (⟨before, earlier, hearlier, hkind, hname⟩ | ⟨hkind, hname⟩)
      · exact ⟨before, earlier, hearlier.trans (List.prefix_append _ _), hkind, hname⟩
      · exact ⟨rows, row, List.prefix_rfl, hkind, hname⟩
    · rintro ⟨before, earlier, hearlier, hkind, hname⟩
      rcases List.prefix_concat_iff.mp hearlier with heq | hearlier
      · obtain ⟨rfl, hrow⟩ := List.append_inj' heq rfl
        cases hrow
        exact .inr ⟨hkind, hname⟩
      · exact .inl ⟨before, earlier, hearlier, hkind, hname⟩

theorem unrepeated (h : Outcomes source asked dictionaries rows outcomes)
    (hd : ∀ kind, ((outcomes.filterMap (·.entity? kind)).map Entity.name).Nodup) :
    Unrepeated dictionaries rows := by
  induction h with
  | nil => simp [Unrepeated]
  | @concat rows outcomes row outcome init last ih =>
    simp only [List.filterMap_append, filterMap_singleton, List.map_append, List.nodup_append]
      at hd
    intro done next kind hnext hrepeats
    rcases List.prefix_concat_iff.mp hnext with heq | hnext
    · obtain ⟨rfl, hrow⟩ := List.append_inj' heq rfl
      cases hrow
      have hearlier := init.mem_names_iff.mpr hrepeats.repeated
      have hlast := last.mem_names_iff.mpr ⟨hrepeats.modeled, rfl⟩
      exact (hd kind).2.2 _ hearlier _ hlast rfl
    · exact ih (fun kind => (hd kind).1) done next kind hnext hrepeats

end Outcomes

end Names

/-! ## The run over the rows -/

namespace Progress

variable {source : CatalogSource} {dictionaries : List DictionaryRow} {all done : List TableRow}
  {p next : Progress} {before after asked : List Query} {outcomes : List RowOutcome}

/-- The queries of the rows that are taken in are all asked, in their order, and answered. -/
theorem takeRows_asked {rows : List TableRow}
    (hrun : Gives (rows.foldlM (takeRow source) p) before next after) :
    source.AnswersAll before (rows.flatMap TableRow.queries) ∧
      after = before ++ rows.flatMap TableRow.queries := by
  refine takeRows_keeps (P := fun done _ asked =>
    source.AnswersAll before (done.flatMap TableRow.queries) ∧
      asked = before ++ done.flatMap TableRow.queries) [] hrun
    ⟨trivial, (List.append_nil _).symm⟩ fun done row p asked next after ih htakes => ?_
  obtain ⟨hanswers, rfl⟩ := ih
  obtain ⟨hrow, rfl⟩ := htakes.asked
  rw [List.flatMap_append, List.flatMap_singleton]
  exact ⟨CatalogSource.answersAll_append_iff.mpr ⟨hanswers, hrow⟩, List.append_assoc _ _ _⟩

theorem Accounts.mem_names_iff (h : Accounts source dictionaries all done p asked outcomes)
    {kind : EntityKind} {name : String} :
    name ∈ (p.found.snapshot.collection kind).names ↔
      ∃ before row, before ++ [row] <+: done ∧
        row.ModeledAs (unusedRows dictionaries before) kind ∧ row.name = name := by
  rw [← h.rows.mem_names_iff, ← h.entries]
  rfl

theorem Accounts.unrepeated (h : Accounts source dictionaries all done p asked outcomes) :
    Unrepeated dictionaries done :=
  h.rows.unrepeated fun kind => h.entries kind ▸ (p.found.snapshot.collection kind).distinct

end Progress

/-- How an introspection over the chosen rows ends, and after which queries. -/
inductive Ends (source : CatalogSource) (rows : List TableRow) :
    Except IntrospectionError Introspection → List Query → Prop
  /-- All the prescribed queries are answered, and no name is repeated. -/
  | well {dictionaries : List DictionaryRow} {found : Introspection}
      (start : Starts source rows dictionaries (openingQueries rows))
      (answers : source.AnswersAll [] (queriesBy rows rows))
      (unrepeated : Unrepeated dictionaries rows) :
      Ends source rows (.ok found) (queriesBy rows rows)
  /-- The dictionaries cannot be listed. -/
  | dictionaries {failure : String} (some : rows.any (·.engine = "Dictionary") = true)
      (failed : source.ask [.tables] .dictionaries = .error failure) :
      Ends source rows (.error (.query ⟨.dictionaries, failure⟩)) [.tables, .dictionaries]
  /-- A query about a row is the first that fails. -/
  | query {dictionaries : List DictionaryRow} {done rest : List TableRow} {row : TableRow}
      {asked later : List Query} {query : Query} {failure : String}
      (start : Starts source rows dictionaries (openingQueries rows))
      (unrepeated : Unrepeated dictionaries done) (next : rows = done ++ row :: rest)
      (queries : row.queries = asked ++ query :: later)
      (answers : source.AnswersAll [] (queriesBy rows done ++ asked))
      (failed : source.ask (queriesBy rows done ++ asked) query = .error failure) :
      Ends source rows (.error (.query ⟨query, failure⟩)) (queriesBy rows done ++ asked ++ [query])
  /-- A row is the first that repeats a name; its own queries were still answered. -/
  | duplicateName {dictionaries : List DictionaryRow} {done rest : List TableRow} {row : TableRow}
      {kind : EntityKind} (start : Starts source rows dictionaries (openingQueries rows))
      (unrepeated : Unrepeated dictionaries done) (next : rows = done ++ row :: rest)
      (answers : source.AnswersAll [] (queriesBy rows (done ++ [row])))
      (repeats : RepeatsName dictionaries done row kind) :
      Ends source rows (.error (.duplicateName ⟨kind, row.name⟩)) (queriesBy rows (done ++ [row]))

section Ends

variable {source : CatalogSource} {filter : Filter} {listed rows : List TableRow}
  {dictionaries : List DictionaryRow} {first asked : List Query}
  {result : Except IntrospectionError Introspection}

theorem Ends.within (h : Ends source rows result asked) : asked <+: queriesBy rows rows := by
  have hconcat {done rest : List TableRow} {row : TableRow} (next : rows = done ++ row :: rest) :
      queriesBy rows done ++ row.queries <+: queriesBy rows rows := by
    rw [← queriesBy_concat]
    exact queriesBy_within ⟨rest, by rw [next, List.append_assoc]; rfl⟩
  cases h with
  | well => exact List.prefix_rfl
  | dictionaries some =>
    have hopening : queriesBy rows [] = [.tables, .dictionaries] := by
      rw [queriesBy_nil, openingQueries, if_pos some]
    rw [← hopening]
    exact queriesBy_within List.nil_prefix
  | query start unrepeated next queries =>
    have hrow := hconcat next
    rw [queries, ← List.append_assoc, List.append_cons] at hrow
    exact (List.prefix_append _ _).trans hrow
  | duplicateName start unrepeated next =>
    rw [queriesBy_concat]
    exact hconcat next

theorem Ends.failed {failure : QueryFailure}
    (h : Ends source rows (.error (.query failure)) asked) :
    ∃ before, asked = before ++ [failure.query] ∧
      source.ask before failure.query = .error failure.cause := by
  cases h with
  | dictionaries some failed => exact ⟨[.tables], rfl, failed⟩
  | query start unrepeated next queries answers failed => exact ⟨_, rfl, failed⟩

/-- **The run over the chosen rows ends in no other way**, once the dictionaries are known. -/
theorem ends_of_starts (hlisted : source.ask [] .tables = .ok listed)
    (hstart : Starts source rows dictionaries first)
    (h : (rows.foldlM (Progress.takeRow source) (.start rows dictionaries) >>=
      fun p => pure p.found).run.run first = (result, asked)) : Ends source rows result asked := by
  obtain rfl := hstart.eq
  have hopening := hstart.answersAll hlisted
  have hanswers {done : List TableRow}
      (hdone : source.AnswersAll (openingQueries rows) (done.flatMap TableRow.queries)) :
      source.AnswersAll [] (queriesBy rows done) :=
    CatalogSource.answersAll_append_iff.mpr ⟨hopening, hdone⟩
  rcases gives_or_stops (rows.foldlM (Progress.takeRow source) (.start rows dictionaries))
    (openingQueries rows) with ⟨p, after, hrun⟩ | ⟨cause, after, hstops⟩
  · have hfound : Gives _ _ p.found after := hrun.bind (f := fun q => pure q.found) (gives_pure _ _)
    unfold Gives at hfound
    rw [hfound] at h
    cases h
    obtain ⟨hrows, rfl⟩ := Progress.takeRows_asked hrun
    obtain ⟨outcomes, haccounts⟩ := Progress.takeRows_accounts List.prefix_rfl hrun
    exact .well hstart (hanswers hrows) haccounts.unrepeated
  · have hfailed : Stops _ _ cause after := hstops.bind fun q => pure q.found
    unfold Stops at hfailed
    rw [hfailed] at h
    cases h
    obtain ⟨done, row, rest, p, between, hnext, hrun, hrow⟩ := exists_of_stops_foldlM hstops
    obtain ⟨hdone, rfl⟩ := Progress.takeRows_asked hrun
    obtain ⟨outcomes, haccounts⟩ :=
      Progress.takeRows_accounts ⟨row :: rest, hnext.symm⟩ hrun
    cases Progress.stopsAt_of_stops hrow with
    | query queries answers failed =>
      exact .query hstart haccounts.unrepeated hnext queries
        (CatalogSource.answersAll_append_iff.mpr ⟨hanswers hdone, answers⟩) failed
    | @duplicateName kind answers modeled taken =>
      have hall := CatalogSource.answersAll_append_iff.mpr ⟨hanswers hdone, answers⟩
      have hrepeats : RepeatsName dictionaries done row kind := by
        rw [haccounts.left, ← TableRow.modeledAs_iff] at modeled
        exact ⟨modeled, haccounts.mem_names_iff.mp taken⟩
      have hends := Ends.duplicateName hstart haccounts.unrepeated hnext
        (queriesBy_concat rows done row ▸ hall) hrepeats
      rwa [queriesBy_concat] at hends

/-! ## Reports -/

/-- The system table that a failed query is reported with. -/
theorem QueryFailure.message_names (failure : QueryFailure) :
    (failure.query = .tables →
      failure.message = "catalog query `system.tables` failed: " ++ failure.cause) ∧
    (failure.query = .dictionaries →
      failure.message = "catalog query `system.dictionaries` failed: " ++ failure.cause) ∧
    (∀ database table, failure.query = .columns database table →
      failure.message = "catalog query `system.columns` failed: " ++ failure.cause) ∧
    ∀ database table, failure.query = .indexes database table →
      failure.message =
        "catalog query `system.data_skipping_indices` failed: " ++ failure.cause := by
  obtain ⟨query, cause⟩ := failure
  refine ⟨?_, ?_, ?_, ?_⟩
  · rintro rfl
    rfl
  · rintro rfl
    rfl
  · rintro database table rfl
    rfl
  · rintro database table rfl
    rfl

/-! ## Whole introspections -/

theorem TableRow.queries_outcome {row : TableRow} (hchosen : filter.chooses row = true) :
    (row.Manageable filter ∧
        row.queries = [.columns row.database row.name, .indexes row.database row.name]) ∨
      row.OutOfReach filter ∧ row.queries = [] := by
  have hselect : row ∈ filter.select [row] :=
    mem_select_iff.mpr ⟨List.mem_singleton_self row, hchosen⟩
  have hreadable : row.isReadable = true ↔ row.Manageable filter := by
    have hiff := @mem_readable_iff filter row [row]
    simpa only [List.mem_filter, hselect, List.mem_singleton, true_and] using hiff
  cases h : row.isReadable with
  | true => exact .inl ⟨hreadable.mp h, by rw [queries, h, if_pos rfl]⟩
  | false =>
    refine .inr ⟨outOfReach_iff.mpr ?_, by rw [queries, h]; rfl⟩
    rw [← hreadable, h]
    exact Bool.false_ne_true

/-- An introspection after the tables were listed: the rows it chose, how it ended and the queries
it asked. -/
structure Traced (source : CatalogSource) (filter : Filter) (listed rows : List TableRow)
    (result : Except IntrospectionError Introspection) (asked : List Query) : Prop where
  reported : source.ask [] .tables = .ok listed
  chosen : rows.Perm (listed.filter filter.chooses)
  sorted : (rows.map TableRow.place).Pairwise InOrder
  /-- A table that can be managed is asked for its columns and then for its indexes, -/
  queries : ∀ row ∈ rows, (row.Manageable filter ∧
      row.queries = [.columns row.database row.name, .indexes row.database row.name]) ∨
    row.OutOfReach filter ∧ row.queries = []
  within : asked <+: queriesBy rows rows
  ends : Ends source rows result asked
  /-- and nothing else is asked for anything. -/
  about : ∀ query ∈ asked, query = .tables ∨ query = .dictionaries ∨
    ∃ row ∈ listed, row.Manageable filter ∧ (query = .columns row.database row.name ∨
      query = .indexes row.database row.name)

theorem ends_of_listed (hlisted : source.ask [] .tables = .ok listed) :
    Ends source (filter.select listed) (introspect source filter).1
      (introspect source filter).2 := by
  cases hany : (filter.select listed).any (·.engine = "Dictionary") with
  | false =>
    have hstart : Starts source (filter.select listed) [] [.tables] := .plain hany
    rw [introspect_eq_of_starts hlisted hstart]
    exact ends_of_starts hlisted hstart rfl
  | true =>
    cases hdictionaries : source.ask [.tables] .dictionaries with
    | ok dictionaries =>
      have hstart : Starts source (filter.select listed) dictionaries [.tables, .dictionaries] :=
        .described hany hdictionaries
      rw [introspect_eq_of_starts hlisted hstart]
      exact ends_of_starts hlisted hstart rfl
    | error failure =>
      have hstops : Stops (introspectionOf source (filter.select listed)) [.tables]
          (.query ⟨.dictionaries, failure⟩) [.tables, .dictionaries] := by
        rw [introspectionOf, if_pos hany]
        exact (stops_answer_iff.mpr ⟨failure, hdictionaries, rfl, rfl⟩).bind _
      unfold Stops at hstops
      rw [introspect_eq hlisted, hstops]
      exact .dictionaries hany hdictionaries

theorem traced_of_listed (hlisted : source.ask [] .tables = .ok listed) :
    Traced source filter listed (filter.select listed) (introspect source filter).1
      (introspect source filter).2 := by
  have hends := @ends_of_listed source filter listed hlisted
  have hqueries : ∀ row ∈ filter.select listed, _ := fun row hrow =>
    row.queries_outcome (TableRow.mem_select_iff.mp hrow).2
  refine ⟨hlisted, filter.select_perm listed, filter.select_pairwise listed, hqueries,
    hends.within, hends, fun query hquery => ?_⟩
  rcases List.mem_append.mp (hends.within.subset hquery) with hopening | hrows
  · unfold openingQueries at hopening
    split at hopening
    · exact (List.mem_pair.mp hopening).imp_right .inl
    · exact .inl (List.mem_singleton.mp hopening)
  · obtain ⟨row, hrow, hquery⟩ := List.mem_flatMap.mp hrows
    refine .inr (.inr ⟨row, (TableRow.mem_select_iff.mp hrow).1, ?_⟩)
    rcases hqueries row hrow with ⟨hmanageable, heq⟩ | ⟨_, heq⟩
    · rw [heq] at hquery
      exact ⟨hmanageable, List.mem_pair.mp hquery⟩
    · rw [heq] at hquery
      cases hquery

/-- **The queries of every introspection are prescribed.** If the tables cannot be listed, nothing
else is asked. A query that fails is the last one and is reported with the name of the system table
it reads. -/
theorem introspect_traced (source : CatalogSource) (filter : Filter) :
    ((∃ failure, source.ask [] .tables = .error failure ∧
        introspect source filter = (.error (.query ⟨.tables, failure⟩), [.tables])) ∨
      ∃ listed, Traced source filter listed (filter.select listed) (introspect source filter).1
        (introspect source filter).2) ∧
    ∀ failure : QueryFailure, (introspect source filter).1 = .error (.query failure) →
      (∃ before, (introspect source filter).2 = before ++ [failure.query] ∧
        source.ask before failure.query = .error failure.cause) ∧
      (failure.query = .tables →
        failure.message = "catalog query `system.tables` failed: " ++ failure.cause) ∧
      (failure.query = .dictionaries →
        failure.message = "catalog query `system.dictionaries` failed: " ++ failure.cause) ∧
      (∀ database table, failure.query = .columns database table →
        failure.message = "catalog query `system.columns` failed: " ++ failure.cause) ∧
      ∀ database table, failure.query = .indexes database table →
        failure.message =
          "catalog query `system.data_skipping_indices` failed: " ++ failure.cause := by
  cases htables : source.ask [] .tables with
  | error cause =>
    have hstops : Stops (introspection source filter) [] (.query ⟨.tables, cause⟩) [.tables] :=
      (stops_answer_iff.mpr ⟨cause, htables, rfl, rfl⟩).bind _
    refine ⟨.inl ⟨cause, rfl, hstops⟩, fun failure hfailure => ?_⟩
    have hresult : introspect source filter = (.error (.query ⟨.tables, cause⟩), [.tables]) :=
      hstops
    rw [hresult] at hfailure ⊢
    cases hfailure
    exact ⟨⟨[], rfl, htables⟩, QueryFailure.message_names _⟩
  | ok listed =>
    have htraced : Traced source filter listed (filter.select listed) (introspect source filter).1
        (introspect source filter).2 := traced_of_listed htables
    refine ⟨.inr ⟨listed, htraced⟩, fun failure hfailure => ?_⟩
    exact ⟨(hfailure ▸ htraced.ends).failed, failure.message_names⟩

end Ends

end SchemaPlan
