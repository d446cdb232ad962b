import SchemaPlan.Proofs.CollectionLaws
import SchemaPlan.Proofs.IntrospectionRun

/-!
# Steps of an introspection

What an introspection that ended well did, from its result back to its single rows.

* `Asking.gives_bind_iff`, `Asking.gives_answer_iff`: a run that ended well, taken apart.
* `Progress.Takes`: all the ways in which a row is taken in; `Progress.takes_of_gives`: there are no
  others.
* `Progress.takeRows_keeps`: what every row keeps, the run over several rows keeps.
* `introspectionOf`, `introspect_eq`: an introspection after the tables were listed.
* `run_of_introspect`: a whole introspection, taken apart.
-/

namespace SchemaPlan

/-! ## Runs taken apart -/

namespace Asking

variable {α β : Type} {before after : List Query}

theorem gives_pure_iff {a b : α} : Gives (pure a) before b after ↔ b = a ∧ after = before := by
  unfold Gives
  constructor
  · intro h
    cases h
    exact ⟨rfl, rfl⟩
  · rintro ⟨rfl, rfl⟩
    rfl

theorem not_gives_throw {cause : IntrospectionError} {a : α} :
    ¬ Gives (throw cause) before a after := by
  intro h
  cases h

theorem gives_bind_iff {m : Asking α} {f : α → Asking β} {b : β} : Gives (m >>= f) before b after ↔
    ∃ a between, Gives m before a between ∧ Gives (f a) between b after := by
  refine ⟨fun h => ?_, fun ⟨a, between, hm, hf⟩ => hm.bind hf⟩
  unfold Gives at h
  rw [ExceptT.run_bind, StateT.run_bind] at h
  rcases hm : m.run.run before with ⟨cause | a, between⟩
  · rw [hm] at h
    cases h
  · rw [hm] at h
    exact ⟨a, between, hm, h⟩

theorem gives_answer_iff {source : CatalogSource} {query : Query} {rows : query.Answer} :
    Gives (source.answer query) before rows after ↔
      source.ask before query = .ok rows ∧ after = before ++ [query] := by
  refine ⟨fun h => ?_, fun ⟨hask, e⟩ => e ▸ gives_answer hask⟩
  obtain ⟨_, _, hget, h⟩ := gives_bind_iff.mp h
  cases hget
  obtain ⟨_, _, hset, h⟩ := gives_bind_iff.mp h
  cases hset
  cases hask : source.ask before query with
  | error cause =>
    rw [hask] at h
    exact absurd h not_gives_throw
  | ok given =>
    rw [hask] at h
    obtain ⟨rfl, rfl⟩ := gives_pure_iff.mp h
    exact ⟨rfl, rfl⟩

end Asking

open Asking

/-! ## Rows -/

namespace Progress

variable {source : CatalogSource} {p next : Progress} {row : TableRow} {before after : List Query}

/-- An entity was added for a row. -/
def adding (p : Progress) (row : TableRow) (snapshot : Snapshot) : Progress :=
  { p with found := ⟨snapshot, p.found.statistics.recordDumped row.engine⟩ }

theorem gives_taken_iff {added : Except DuplicateName Snapshot} :
    Gives (p.taken row added) before next after ↔
      ∃ snapshot, added = .ok snapshot ∧ next = p.adding row snapshot ∧ after = before := by
  cases added with
  | error cause => exact ⟨fun h => absurd h not_gives_throw, fun ⟨_, h, _⟩ => by cases h⟩
  | ok snapshot =>
    refine gives_pure_iff.trans ⟨fun ⟨hnext, hafter⟩ => ⟨snapshot, rfl, hnext, hafter⟩, ?_⟩
    rintro ⟨_, hadded, hnext, hafter⟩
    cases hadded
    exact ⟨hnext, hafter⟩

/-- The ways in which a row is taken in after the queries `before`. -/
inductive Takes (source : CatalogSource) (p : Progress) (row : TableRow) (before : List Query) :
    Progress → List Query → Prop
  | view {snapshot : Snapshot} (content : row.content = .view)
      (added : p.found.snapshot.addView row.view = .ok snapshot) :
      Takes source p row before (p.adding row snapshot) before
  | materializedView {snapshot : Snapshot} (content : row.content = .materializedView)
      (added : p.found.snapshot.addMaterializedView row.materializedView = .ok snapshot) :
      Takes source p row before (p.adding row snapshot) before
  | dictionary {d : DictionaryRow} {snapshot : Snapshot} (content : row.content = .dictionary)
      (left : p.dictionaryOf? row = some d)
      (added : p.found.snapshot.addDictionary d.dictionary = .ok snapshot) :
      Takes source p row before ((p.withoutDictionary row).adding row snapshot) before
  /-- No dictionary row is left for the row. -/
  | undescribed (content : row.content = .dictionary) (left : p.dictionaryOf? row = none) :
      Takes source p row before p before
  /-- The columns and the indexes of a table are asked for. -/
  | table {engine : Engine} {columns : List ColumnRow} {indexes : List IndexRow}
      {snapshot : Snapshot} (content : row.content = .table engine)
      (hcolumns : source.ask before (.columns row.database row.name) = .ok columns)
      (hindexes : source.ask (before ++ [.columns row.database row.name])
        (.indexes row.database row.name) = .ok indexes)
      (added : p.found.snapshot.addTable (row.table engine columns indexes) = .ok snapshot) :
      Takes source p row before (p.adding row snapshot)
        (before ++ [.columns row.database row.name] ++ [.indexes row.database row.name])
  | unreadable {cause : EngineError} (content : row.content = .unreadable cause) :
      Takes source p row before (p.failed row cause) before
  | unmodeled (content : row.content = .unmodeled) : Takes source p row before p before

theorem takes_of_gives (h : Gives (takeRow source p row) before next after) :
    Takes source p row before next after := by
  unfold takeRow at h
  cases hcontent : row.content with
  | view =>
    rw [hcontent] at h
    obtain ⟨snapshot, hadded, rfl, rfl⟩ := gives_taken_iff.mp h
    exact .view hcontent hadded
  | materializedView =>
    rw [hcontent] at h
    obtain ⟨snapshot, hadded, rfl, rfl⟩ := gives_taken_iff.mp h
    exact .materializedView hcontent hadded
  | dictionary =>
    simp only [hcontent] at h
    cases hleft : p.dictionaryOf? row with
    | none =>
      rw [hleft] at h
      obtain ⟨rfl, rfl⟩ := gives_pure_iff.mp h
      exact .undescribed hcontent hleft
    | some d =>
      rw [hleft] at h
      obtain ⟨snapshot, hadded, rfl, rfl⟩ := gives_taken_iff.mp h
      exact .dictionary hcontent hleft hadded
  | table engine =>
    rw [hcontent] at h
    obtain ⟨columns, _, hfirst, h⟩ := gives_bind_iff.mp h
    obtain ⟨hcolumns, rfl⟩ := gives_answer_iff.mp hfirst
    obtain ⟨indexes, _, hsecond, h⟩ := gives_bind_iff.mp h
    obtain ⟨hindexes, rfl⟩ := gives_answer_iff.mp hsecond
    obtain ⟨snapshot, hadded, rfl, rfl⟩ := gives_taken_iff.mp h
    exact .table hcontent hcolumns hindexes hadded
  | unreadable cause =>
    rw [hcontent] at h
    obtain ⟨rfl, rfl⟩ := gives_pure_iff.mp h
    exact .unreadable hcontent
  | unmodeled =>
    rw [hcontent] at h
    obtain ⟨rfl, rfl⟩ := gives_pure_iff.mp h
    exact .unmodeled hcontent

/-- **What every row keeps, the run over several rows keeps.** The rows taken in so far are in
view. -/
theorem takeRows_keeps {P : List TableRow → Progress → List Query → Prop}
    (done : List TableRow) {rows : List TableRow}
    (hrun : Gives (rows.foldlM (takeRow source) p) before next after) (hstart : P done p before)
    (hstep : ∀ done row p before next after, P done p before →
      Takes source p row before next after → P (done ++ [row]) next after) :
    P (done ++ rows) next after := by
  induction rows generalizing done p before with
  | nil =>
    obtain ⟨rfl, rfl⟩ := gives_pure_iff.mp hrun
    rwa [List.append_nil]
  | cons row rows ih =>
    rw [List.foldlM_cons] at hrun
    obtain ⟨between, asked, hrow, hrows⟩ := gives_bind_iff.mp hrun
    -- the row moves from those that are left to those that are done
    have hnext := hstep done row p before between asked hstart (takes_of_gives hrow)
    simpa using ih _ hrows hnext

end Progress

/-! ## Whole introspections -/

/-- What is known before any row is taken in: the rows were seen. -/
def Progress.start (rows : List TableRow) (dictionaries : List DictionaryRow) : Progress :=
  ⟨⟨.empty, rows.foldl (fun s r => s.recordSeen r.engine) .empty⟩, dictionaries⟩

/-- The run over the rows that were chosen. -/
def introspectionOf (source : CatalogSource) (rows : List TableRow) : Asking Introspection := do
  let dictionaries ←
    if rows.any (·.engine = "Dictionary") then source.answer .dictionaries else pure []
  let progress ← rows.foldlM (Progress.takeRow source) (.start rows dictionaries)
  return progress.found

/-- Once the tables were listed, what is left depends on the chosen rows alone. -/
theorem introspect_eq {source : CatalogSource} {filter : Filter} {rows : List TableRow}
    (h : source.ask [] .tables = .ok rows) :
    introspect source filter =
      (introspectionOf source (filter.select rows)).run.run [.tables] := by
  have hanswer : (source.answer .tables).run.run [] = (.ok rows, [.tables]) := gives_answer h
  rw [introspect, introspection, ExceptT.run_bind, StateT.run_bind, hanswer]
  rfl

/-- The dictionary rows that an introspection starts with, and the queries it asked by then. -/
inductive Starts (source : CatalogSource) (rows : List TableRow) :
    List DictionaryRow → List Query → Prop
  | described {dictionaries : List DictionaryRow} (some : rows.any (·.engine = "Dictionary") = true)
      (given : source.ask [.tables] .dictionaries = .ok dictionaries) :
      Starts source rows dictionaries [.tables, .dictionaries]
  | plain (none : rows.any (·.engine = "Dictionary") = false) : Starts source rows [] [.tables]

/-- An introspection that ended well listed the tables, asked for dictionaries if there are any
among the rows that the filter chooses, and took in these rows. -/
theorem run_of_introspect {source : CatalogSource} {filter : Filter} {found : Introspection}
    {asked : List Query} (h : introspect source filter = (.ok found, asked)) :
    ∃ rows dictionaries before p, source.ask [] .tables = .ok rows ∧
      Starts source (filter.select rows) dictionaries before ∧
      Gives ((filter.select rows).foldlM (Progress.takeRow source)
        (.start (filter.select rows) dictionaries)) before p asked ∧
      p.found = found := by
  have hrun : Gives (introspection source filter) [] found asked := h
  obtain ⟨rows, _, htables, hrun⟩ := gives_bind_iff.mp hrun
  obtain ⟨hlisted, rfl⟩ := gives_answer_iff.mp htables
  have hstart : ∃ dictionaries before, Starts source (filter.select rows) dictionaries before ∧
      Gives ((filter.select rows).foldlM (Progress.takeRow source)
          (.start (filter.select rows) dictionaries) >>= fun p => pure p.found)
        before found asked := by
    cases hany : (filter.select rows).any (·.engine = "Dictionary") with
    | true =>
      simp only [hany, if_true] at hrun
      obtain ⟨dictionaries, _, hdictionaries, hrun⟩ := gives_bind_iff.mp hrun
      obtain ⟨hgiven, rfl⟩ := gives_answer_iff.mp hdictionaries
      exact ⟨dictionaries, _, .described hany hgiven, hrun⟩
    | false =>
      simp only [hany] at hrun
      obtain ⟨dictionaries, _, hdictionaries, hrun⟩ := gives_bind_iff.mp hrun
      obtain ⟨rfl, rfl⟩ := gives_pure_iff.mp hdictionaries
      exact ⟨[], _, .plain hany, hrun⟩
  obtain ⟨dictionaries, before, hstart, hrun⟩ := hstart
  obtain ⟨p, _, hrows, hfound⟩ := gives_bind_iff.mp hrun
  obtain ⟨rfl, rfl⟩ := gives_pure_iff.mp hfound
  exact ⟨rows, dictionaries, before, p, hlisted, hstart, hrows, rfl⟩

end SchemaPlan
