import Mathlib.Tactic.SplitIfs
import SchemaPlan.Proofs.EntityKinds
import SchemaPlan.Proofs.IntrospectedTables

/-!
# Outcomes of rows

What becomes of the rows that an introspection takes in: a row is modeled as an entity, reported as
unreadable, or left out because nothing describes it or nothing models it.

* `RowOutcome`: what became of a row; `RowFate`: which of these it is.
* `TableRow.fate`: the fate of a row, from the row and the dictionary rows that are left;
  `TableRow.Becomes`: its outcome, said by its engine; `TableRow.Becomes.fate_eq`: they agree.
* `unusedRows`: the dictionary rows that are left after some rows.
* `Outcomes`: the outcomes of the rows of a run, in their order; `Outcomes.unique`: there are no
  others.
* `Progress.Records`: what an outcome does to what was found; `Progress.Takes.outcome`: every row
  that is taken in has an outcome, and this is all that it does.
-/

namespace SchemaPlan

/-! ## Rows by their content -/

namespace TableRow

variable {row : TableRow}

/-- The engine of the row is one that tables are modeled with. -/
def IsSupported (row : TableRow) : Prop := ∃ family : EngineFamily, family.name = row.engine

theorem not_isSupported (h : row.engine = "View" ∨ row.engine = "MaterializedView" ∨
    row.engine = "Dictionary") : ¬ row.IsSupported := by
  rintro ⟨family, hfamily⟩
  rw [← hfamily] at h
  cases family <;> simp [EngineFamily.name] at h

theorem IsSupported.ne_dictionary (h : row.IsSupported) : row.engine ≠ "Dictionary" :=
  fun e => not_isSupported (.inr (.inr e)) h

theorem content_eq_view_iff : row.content = .view ↔ row.engine = "View" := by
  unfold content
  split_ifs with h
  · simp [h]
  · simp [h]
  · simp [h]
  · cases Engine.parse row.engine row.engineFull <;> simp [h]
  · simp [h]

theorem content_eq_materializedView_iff :
    row.content = .materializedView ↔ row.engine = "MaterializedView" := by
  unfold content
  split_ifs with hview h
  · simp [hview]
  · simp [h]
  · simp [h]
  · cases Engine.parse row.engine row.engineFull <;> simp [h]
  · simp [h]

theorem content_eq_dictionary_iff : row.content = .dictionary ↔ row.engine = "Dictionary" := by
  unfold content
  split_ifs with hview hmaterialized h
  · simp [hview]
  · simp [hmaterialized]
  · simp [h]
  · cases Engine.parse row.engine row.engineFull <;> simp [h]
  · simp [h]

theorem content_of_isSupported (h : row.IsSupported) :
    row.content =
      match Engine.parse row.engine row.engineFull with
      | .ok engine => .table engine
      | .error cause => .unreadable cause := by
  have hname := mt not_isSupported (not_not.mpr h)
  push Not at hname
  obtain ⟨hview, hmaterialized, hdictionary⟩ := hname
  cases hparse : Engine.parse row.engine row.engineFull <;>
    rw [content, if_neg hview, if_neg hmaterialized, if_neg hdictionary,
      if_pos (EngineFamily.isSome_ofName?_iff.mpr h), hparse]

theorem content_eq_unreadable_iff {cause : EngineError} : row.content = .unreadable cause ↔
    row.IsSupported ∧ Engine.parse row.engine row.engineFull = .error cause := by
  refine ⟨fun h => ?_, fun ⟨hsupported, hcause⟩ => ?_⟩
  · have hsupported : row.IsSupported := by
      by_contra hnone
      rw [IsSupported, ← EngineFamily.isSome_ofName?_iff] at hnone
      unfold content at h
      rw [if_neg hnone] at h
      split_ifs at h
    rw [content_of_isSupported hsupported] at h
    refine ⟨hsupported, ?_⟩
    cases hparse : Engine.parse row.engine row.engineFull with
    | ok engine =>
      rw [hparse] at h
      cases h
    | error cause' =>
      rw [hparse] at h
      cases h
      rfl
  · rw [content_of_isSupported hsupported, hcause]

theorem content_eq_unmodeled_iff : row.content = .unmodeled ↔ row.engine ≠ "View" ∧
    row.engine ≠ "MaterializedView" ∧ row.engine ≠ "Dictionary" ∧ ¬ row.IsSupported := by
  rw [IsSupported, ← EngineFamily.isSome_ofName?_iff]
  unfold content
  split_ifs with hview hmaterialized hdictionary hsupported
  · simp [hview]
  · simp [hmaterialized]
  · simp [hdictionary]
  · cases Engine.parse row.engine row.engineFull <;> simp [hsupported]
  · simp [hview, hmaterialized, hdictionary, hsupported]

end TableRow

/-! ## Answers to queries that were asked once -/

namespace CatalogSource

variable {source : CatalogSource} {asked : List Query} {row : TableRow} {table other : Table}

theorem Answered.unique {query : Query} {rows rows' : query.Answer} (hasked : asked.Nodup)
    (h : source.Answered asked query rows) (h' : source.Answered asked query rows') :
    rows = rows' := by
  obtain ⟨before, hprefix, hanswer⟩ := h
  obtain ⟨before', hprefix', hanswer'⟩ := h'
  have hplace {l : List Query} (hl : l ++ [query] <+: asked) :
      asked.take (asked.idxOf query) = l := by
    obtain ⟨rest, rfl⟩ := hl
    have hfresh : query ∉ l := fun hmem =>
      (List.nodup_append.mp hasked.of_append_left).2.2 query hmem query (by simp) rfl
    rw [List.append_assoc, List.idxOf_append_of_notMem hfresh, List.singleton_append,
      List.idxOf_cons_self, Nat.add_zero, List.take_left']
    rfl
  rw [← hplace hprefix, hplace hprefix', hanswer'] at hanswer
  exact (Except.ok.inj hanswer).symm

theorem Reads.unique (hasked : asked.Nodup) (h : source.Reads asked row table)
    (h' : source.Reads asked row other) : table = other := by
  cases h with
  | mk content hcolumns hindexes =>
    cases h' with
    | mk content' hcolumns' hindexes' =>
      rw [content, RowContent.table.injEq] at content'
      rw [content', hcolumns.unique hasked hcolumns', hindexes.unique hasked hindexes']

end CatalogSource

/-! ## Fates and outcomes -/

/-- Which of the things that can become of a row becomes of it. -/
inductive RowFate
  | modeled (kind : EntityKind)
  | failed
  | undescribed
  | unmodeled
  deriving DecidableEq

/-- What became of a row. -/
inductive RowOutcome
  | modeled (kind : EntityKind) (x : kind.Member)
  | failed (failure : UnreadableTable)
  | undescribed
  | unmodeled

namespace RowOutcome

/-- The fate an outcome belongs to. -/
def fate : RowOutcome → RowFate
  | modeled kind _ => .modeled kind
  | failed _ => .failed
  | undescribed => .undescribed
  | unmodeled => .unmodeled

/-- The entity of a kind that a row became. -/
def entity? (kind : EntityKind) : RowOutcome → Option kind.Member
  | modeled other x => if h : other = kind then some (h ▸ x) else none
  | _ => none

/-- The failure an outcome reports. -/
def failure? : RowOutcome → Option UnreadableTable
  | failed failure => some failure
  | _ => none

theorem entity?_modeled (kind : EntityKind) (x : kind.Member) :
    (modeled kind x).entity? kind = some x := dif_pos rfl

theorem entity?_modeled_of_ne {kind other : EntityKind} (x : kind.Member) (h : other ≠ kind) :
    (modeled kind x).entity? other = none := dif_neg h.symm

theorem entity?_eq_some_iff {kind : EntityKind} {x : kind.Member} {outcome : RowOutcome} :
    outcome.entity? kind = some x ↔ outcome = modeled kind x := by
  refine ⟨fun h => ?_, fun h => h ▸ entity?_modeled kind x⟩
  cases outcome with
  | modeled other y =>
    by_cases hother : other = kind
    · subst hother
      rw [entity?_modeled, Option.some.injEq] at h
      rw [h]
    · rw [entity?_modeled_of_ne y (Ne.symm hother)] at h
      cases h
  | failed | undescribed | unmodeled => cases h

theorem isSome_entity?_iff {kind : EntityKind} {outcome : RowOutcome} :
    (outcome.entity? kind).isSome = true ↔ outcome.fate = .modeled kind := by
  rw [Option.isSome_iff_exists]
  constructor
  · rintro ⟨x, hx⟩
    rw [entity?_eq_some_iff.mp hx]
    rfl
  · intro h
    cases outcome with
    | modeled other x =>
      cases h
      exact ⟨x, entity?_modeled kind x⟩
    | failed | undescribed | unmodeled => cases h

end RowOutcome

namespace TableRow

/-- A dictionary row describes the dictionary of a row. -/
def isDescribedBy (row : TableRow) (d : DictionaryRow) : Bool :=
  d.database = row.database ∧ d.name = row.name

/-- The fate of a row, when some dictionary rows are left. -/
def fate (left : List DictionaryRow) (row : TableRow) : RowFate :=
  match row.content with
  | .view => .modeled .view
  | .materializedView => .modeled .materializedView
  | .dictionary => if left.any row.isDescribedBy then .modeled .dictionary else .undescribed
  | .table _ => .modeled .table
  | .unreadable _ => .failed
  | .unmodeled => .unmodeled

/-- The outcome of a row, when some queries were asked and some dictionary rows are left. It depends
on the engine of the row. -/
inductive Becomes (source : CatalogSource) (asked : List Query) (left : List DictionaryRow)
    (row : TableRow) : RowOutcome → Prop
  | view (engine : row.engine = "View") : Becomes source asked left row (.modeled .view row.view)
  | materializedView (engine : row.engine = "MaterializedView") :
      Becomes source asked left row (.modeled .materializedView row.materializedView)
  /-- Of the dictionary rows that describe the row, the last one counts. -/
  | dictionary {d : DictionaryRow} (engine : row.engine = "Dictionary")
      (described : (left.filter row.isDescribedBy).getLast? = some d) :
      Becomes source asked left row (.modeled .dictionary d.dictionary)
  | undescribed (engine : row.engine = "Dictionary")
      (none : ∀ d ∈ left, row.isDescribedBy d = false) :
      Becomes source asked left row .undescribed
  | table {table : Table} (supported : row.IsSupported) (reads : source.Reads asked row table) :
      Becomes source asked left row (.modeled .table table)
  | failed {cause : EngineError} (supported : row.IsSupported)
      (unreadable : Engine.parse row.engine row.engineFull = .error cause) :
      Becomes source asked left row
        (.failed ⟨row.database, row.name, row.engine, cause.message⟩)
  | unmodeled (view : row.engine ≠ "View") (materializedView : row.engine ≠ "MaterializedView")
      (dictionary : row.engine ≠ "Dictionary") (unsupported : ¬ row.IsSupported) :
      Becomes source asked left row .unmodeled

variable {source : CatalogSource} {asked after : List Query} {left : List DictionaryRow}
  {row : TableRow} {outcome other : RowOutcome}

namespace Becomes

theorem mono (h : row.Becomes source asked left outcome) (hle : asked <+: after) :
    row.Becomes source after left outcome := by
  cases h with
  | view engine => exact .view engine
  | materializedView engine => exact .materializedView engine
  | dictionary engine described => exact .dictionary engine described
  | undescribed engine none => exact .undescribed engine none
  | table supported reads => exact .table supported (reads.mono hle)
  | failed supported unreadable => exact .failed supported unreadable
  | unmodeled view materializedView dictionary unsupported =>
    exact .unmodeled view materializedView dictionary unsupported

/-- The fate of a row is decided by the row and what is left, not by what is answered. -/
theorem fate_eq (h : row.Becomes source asked left outcome) : outcome.fate = row.fate left := by
  unfold TableRow.fate
  cases h with
  | view engine =>
    rw [content_eq_view_iff.mpr engine]
    rfl
  | materializedView engine =>
    rw [content_eq_materializedView_iff.mpr engine]
    rfl
  | dictionary engine described =>
    have hmem := List.mem_of_getLast? described
    rw [List.mem_filter] at hmem
    simp only [content_eq_dictionary_iff.mpr engine]
    rw [if_pos (List.any_eq_true.mpr ⟨_, hmem⟩)]
    rfl
  | undescribed engine none =>
    have hnone : left.any row.isDescribedBy = false := by simpa using none
    simp only [content_eq_dictionary_iff.mpr engine]
    rw [hnone]
    rfl
  | table supported reads =>
    cases reads with
    | mk content =>
      rw [content]
      rfl
  | failed supported unreadable =>
    rw [content_eq_unreadable_iff.mpr ⟨supported, unreadable⟩]
    rfl
  | unmodeled view materializedView dictionary unsupported =>
    rw [content_eq_unmodeled_iff.mpr ⟨view, materializedView, dictionary, unsupported⟩]
    rfl

theorem named {kind : EntityKind} {x : kind.Member}
    (h : row.Becomes source asked left (.modeled kind x)) :
    Entity.database x = some row.database ∧ Entity.name x = row.name := by
  cases h with
  | view | materializedView => exact ⟨rfl, rfl⟩
  | dictionary engine described =>
    have hmem := List.mem_of_getLast? described
    rw [List.mem_filter, isDescribedBy, decide_eq_true_iff] at hmem
    exact ⟨congrArg some hmem.2.1, hmem.2.2⟩
  | table supported reads => exact ⟨congrArg (·.database) reads.qualifiedName_eq, reads.name_eq⟩

/-- If no query was asked twice, a row has one outcome. -/
theorem unique (hasked : asked.Nodup) (h : row.Becomes source asked left outcome)
    (h' : row.Becomes source asked left other) : outcome = other := by
  have hfate : outcome.fate = other.fate := h.fate_eq.trans h'.fate_eq.symm
  cases h with
  | view =>
    cases h' with
    | view => rfl
    | _ => cases hfate
  | materializedView =>
    cases h' with
    | materializedView => rfl
    | _ => cases hfate
  | dictionary engine described =>
    cases h' with
    | dictionary engine' described' =>
      rw [described, Option.some.injEq] at described'
      rw [described']
    | _ => cases hfate
  | undescribed =>
    cases h' with
    | undescribed => rfl
    | _ => cases hfate
  | table supported reads =>
    cases h' with
    | table supported' reads' => rw [reads.unique hasked reads']
    | _ => cases hfate
  | failed supported unreadable =>
    cases h' with
    | failed supported' unreadable' =>
      rw [unreadable, Except.error.injEq] at unreadable'
      rw [unreadable']
    | _ => cases hfate
  | unmodeled =>
    cases h' with
    | unmodeled => rfl
    | _ => cases hfate

end Becomes

end TableRow

/-! ## Outcomes of several rows -/

/-- The dictionary rows that are left after some rows: each row of a dictionary uses up those that
describe it. -/
def unusedRows (dictionaries : List DictionaryRow) (done : List TableRow) : List DictionaryRow :=
  dictionaries.filter fun d =>
    !done.any fun row => row.engine = "Dictionary" && row.isDescribedBy d

section UnusedRows

variable {dictionaries : List DictionaryRow} {done : List TableRow} {row : TableRow}

theorem unusedRows_nil : unusedRows dictionaries [] = dictionaries := by
  simp [unusedRows]

theorem unusedRows_concat_of_ne (h : row.engine ≠ "Dictionary") :
    unusedRows dictionaries (done ++ [row]) = unusedRows dictionaries done := by
  simp [unusedRows, h]

theorem unusedRows_concat (h : row.engine = "Dictionary") :
    unusedRows dictionaries (done ++ [row]) =
      (unusedRows dictionaries done).filter fun d => !row.isDescribedBy d := by
  simp only [unusedRows, List.filter_filter]
  refine List.filter_congr fun d _ => ?_
  simp [List.any_append, h, Bool.and_comm]

end UnusedRows

/-- The outcomes of some rows, in their order. What is left for a row depends on the rows before
it. -/
inductive Outcomes (source : CatalogSource) (asked : List Query)
    (dictionaries : List DictionaryRow) : List TableRow → List RowOutcome → Prop
  | nil : Outcomes source asked dictionaries [] []
  | concat {rows : List TableRow} {outcomes : List RowOutcome} {row : TableRow}
      {outcome : RowOutcome} (init : Outcomes source asked dictionaries rows outcomes)
      (last : row.Becomes source asked (unusedRows dictionaries rows) outcome) :
      Outcomes source asked dictionaries (rows ++ [row]) (outcomes ++ [outcome])

namespace Outcomes

variable {source : CatalogSource} {asked after : List Query} {dictionaries : List DictionaryRow}
  {rows : List TableRow} {outcomes others : List RowOutcome}

theorem mono (h : Outcomes source asked dictionaries rows outcomes) (hle : asked <+: after) :
    Outcomes source after dictionaries rows outcomes := by
  induction h with
  | nil => exact .nil
  | concat init last ih => exact ih.concat (last.mono hle)

/-- If no query was asked twice, each row has exactly one outcome. -/
theorem unique (hasked : asked.Nodup) (h : Outcomes source asked dictionaries rows outcomes)
    (h' : Outcomes source asked dictionaries rows others) : outcomes = others := by
  induction h generalizing others with
  | nil =>
    generalize hrows : ([] : List TableRow) = rows at h'
    cases h' with
    | nil => rfl
    | concat => simp at hrows
  | @concat rows outcomes row outcome init last ih =>
    generalize hrows : rows ++ [row] = all at h'
    cases h' with
    | nil => simp at hrows
    | concat init' last' =>
      obtain ⟨rfl, hrow⟩ := List.append_inj' hrows rfl
      cases hrow
      rw [ih init', last.unique hasked last']

theorem forall₂ {R : TableRow → RowOutcome → Prop}
    (h : Outcomes source asked dictionaries rows outcomes)
    (hR : ∀ left row outcome, row.Becomes source asked left outcome → R row outcome) :
    List.Forall₂ R rows outcomes := by
  induction h with
  | nil => exact .nil
  | concat init last ih => exact List.rel_append ih (.cons (hR _ _ _ last) .nil)

theorem filterMap_cluster (h : Outcomes source asked dictionaries rows outcomes) :
    outcomes.filterMap (·.entity? .cluster) = [] := by
  induction h with
  | nil => rfl
  | concat init last ih =>
    rw [List.filterMap_append, ih]
    cases last <;> rfl

theorem places_sublist (h : Outcomes source asked dictionaries rows outcomes)
    (kind : EntityKind) :
    ((outcomes.filterMap (·.entity? kind)).map fun x => (Entity.database x, Entity.name x)).Sublist
      (rows.map fun row => (some row.database, row.name)) := by
  induction h with
  | nil => exact List.Sublist.slnil
  | @concat rows outcomes row outcome init last ih =>
    rw [List.filterMap_append, List.map_append, List.map_append]
    refine ih.append ?_
    cases hentity : outcome.entity? kind with
    | none => simp [hentity]
    | some x =>
      rw [RowOutcome.entity?_eq_some_iff] at hentity
      subst hentity
      obtain ⟨hdatabase, hname⟩ := last.named
      simp [RowOutcome.entity?_modeled, hdatabase, hname]

theorem failures_sublist (h : Outcomes source asked dictionaries rows outcomes) :
    ((outcomes.filterMap (·.failure?)).map fun f => (f.database, f.name)).Sublist
      (rows.map fun row => (row.database, row.name)) := by
  induction h with
  | nil => exact List.Sublist.slnil
  | concat init last ih =>
    rw [List.filterMap_append, List.map_append, List.map_append]
    refine ih.append ?_
    cases last with
    | failed => simp [RowOutcome.failure?]
    | _ => simp [RowOutcome.failure?]

end Outcomes

/-! ## Rows that are taken in -/

namespace Progress

variable {source : CatalogSource} {p next : Progress} {row : TableRow} {before after : List Query}

/-- What an outcome of a row does to what was found. -/
inductive Records (p : Progress) (row : TableRow) : RowOutcome → Introspection → Prop
  | modeled {kind : EntityKind} {x : kind.Member} {snapshot : Snapshot}
      (gains : p.found.snapshot.Gains kind x snapshot) :
      Records p row (.modeled kind x) ⟨snapshot, p.found.statistics.recordDumped row.engine⟩
  | failed {failure : UnreadableTable} :
      Records p row (.failed failure)
        ⟨p.found.snapshot, p.found.statistics.recordFailure failure⟩
  | undescribed : Records p row .undescribed p.found
  | unmodeled : Records p row .unmodeled p.found

/-- **A row that is taken in has an outcome**, and nothing else is recorded. -/
theorem Takes.outcome {dictionaries : List DictionaryRow} {done : List TableRow}
    (h : Takes source p row before next after)
    (hleft : p.dictionaries = unusedRows dictionaries done) :
    ∃ outcome, row.Becomes source after (unusedRows dictionaries done) outcome ∧
      p.Records row outcome next.found ∧ before <+: after ∧
      next.dictionaries = unusedRows dictionaries (done ++ [row]) := by
  rw [← hleft]
  have hother (hne : row.engine ≠ "Dictionary") :
      p.dictionaries = unusedRows dictionaries (done ++ [row]) := by
    rw [unusedRows_concat_of_ne hne, hleft]
  have hused (heq : row.engine = "Dictionary") :
      (p.dictionaries.filter fun d => !row.isDescribedBy d) =
        unusedRows dictionaries (done ++ [row]) := by
    rw [unusedRows_concat heq, hleft]
  cases h with
  | view content added =>
    have hengine := TableRow.content_eq_view_iff.mp content
    exact ⟨_, .view hengine, .modeled (Snapshot.gains_of_add .view added), List.prefix_rfl,
      hother (by simp [hengine])⟩
  | materializedView content added =>
    have hengine := TableRow.content_eq_materializedView_iff.mp content
    exact ⟨_, .materializedView hengine, .modeled (Snapshot.gains_of_add .materializedView added),
      List.prefix_rfl, hother (by simp [hengine])⟩
  | dictionary content left added =>
    have hengine := TableRow.content_eq_dictionary_iff.mp content
    refine ⟨_, .dictionary hengine left, .modeled (Snapshot.gains_of_add .dictionary added),
      List.prefix_rfl, ?_⟩
    rw [← hused hengine]
    exact List.filter_congr fun d _ => by simp [TableRow.isDescribedBy]
  | undescribed content left =>
    have hengine := TableRow.content_eq_dictionary_iff.mp content
    have hnone : ∀ d ∈ p.dictionaries, row.isDescribedBy d = false := by
      rw [dictionaryOf?, List.getLast?_eq_none_iff, List.filter_eq_nil_iff] at left
      exact fun d hd => by simpa [TableRow.isDescribedBy] using left d hd
    refine ⟨_, .undescribed hengine hnone, .undescribed, List.prefix_rfl, ?_⟩
    rw [← hused hengine, eq_comm, List.filter_eq_self]
    exact fun d hd => by simp [hnone d hd]
  | table content hcolumns hindexes added =>
    have hsupported : row.IsSupported := (TableRow.content_eq_table_iff.mp content).1
    refine ⟨_, .table hsupported ⟨content, ⟨before, List.prefix_append _ _, hcolumns⟩,
      ⟨_, List.prefix_rfl, hindexes⟩⟩, .modeled (Snapshot.gains_of_add .table added), ?_,
      hother hsupported.ne_dictionary⟩
    rw [List.append_assoc]
    exact List.prefix_append _ _
  | unreadable content =>
    obtain ⟨hsupported, hcause⟩ := TableRow.content_eq_unreadable_iff.mp content
    exact ⟨_, .failed hsupported hcause, .failed, List.prefix_rfl, hother hsupported.ne_dictionary⟩
  | unmodeled content =>
    obtain ⟨hview, hmaterialized, hdictionary, hunsupported⟩ :=
      TableRow.content_eq_unmodeled_iff.mp content
    exact ⟨_, .unmodeled hview hmaterialized hdictionary hunsupported, .unmodeled,
      List.prefix_rfl, hother hdictionary⟩

end Progress

end SchemaPlan
