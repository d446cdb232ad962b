import Mathlib.Data.List.Zip
import SchemaPlan.Proofs.RepeatedNames

/-!
# Filtered introspections

What an introspection finds with a filter is what it finds without one, restricted to what the
filter chooses. The outcome of a row depends on the rows at its place alone, and the filter chooses
all rows at a place or none.

* `Filter.select_eq_filter`: the chosen rows.
* `TableRow.Becomes.takes`: a row with an outcome is taken in, if the name is free.
* `Introspection.MadeOf`: what is found is what rows became; `Progress.takeRows_of_outcomes`,
  `introspect_of_outcomes`: the run over rows with outcomes.
* `Outcomes.restrict`: the outcomes of chosen rows.
* **`introspect_filtered`**: filtering commutes with introspection.
-/

namespace SchemaPlan

open Asking

/-! ## Chosen rows -/

namespace Filter

theorem chooses_of_chooses {filter : Filter} {row : TableRow} (h : filter.chooses row = true) :
    ({} : Filter).chooses row = true := by
  simp only [chooses, matchesTable, Bool.and_eq_true] at h ⊢
  exact ⟨⟨h.1.1, rfl⟩, rfl⟩

/-- The rows that a filter chooses are among those that are chosen without one, in their order. -/
theorem select_eq_filter (filter : Filter) (listed : List TableRow) :
    filter.select listed = (({} : Filter).select listed).filter filter.chooses := by
  have hlisted : (listed.filter filter.chooses).filter ({} : Filter).chooses =
      listed.filter filter.chooses := by
    rw [List.filter_eq_self]
    exact fun row hrow => chooses_of_chooses (List.mem_filter.mp hrow).2
  rw [← select_filter]
  exact congrArg (·.mergeSort TableRow.before) hlisted.symm

end Filter

/-! ## Rows with outcomes -/

namespace Progress

variable {source : CatalogSource} {p next : Progress} {row : TableRow} {before after : List Query}

theorem Takes.gives (h : Takes source p row before next after) :
    Gives (takeRow source p row) before next after := by
  unfold takeRow
  cases h with
  | view content added =>
    rw [content]
    exact gives_taken_iff.mpr ⟨_, added, rfl, rfl⟩
  | materializedView content added =>
    rw [content]
    exact gives_taken_iff.mpr ⟨_, added, rfl, rfl⟩
  | dictionary content left added =>
    simp only [content, left]
    exact gives_taken_iff.mpr ⟨_, added, rfl, rfl⟩
  | undescribed content left =>
    simp only [content, left]
    exact gives_pure _ _
  | table content hcolumns hindexes added =>
    rw [content]
    exact (gives_answer hcolumns).bind
      ((gives_answer hindexes).bind (gives_taken_iff.mpr ⟨_, added, rfl, rfl⟩))
  | unreadable content =>
    rw [content]
    exact gives_pure _ _
  | unmodeled content =>
    rw [content]
    exact gives_pure _ _

end Progress

/-- **A row with an outcome is taken in**, if the name of what it is modeled as is free. -/
theorem TableRow.Becomes.takes {source : CatalogSource} {p : Progress} {row : TableRow}
    {asked : List Query} {outcome : RowOutcome} (hfixed : source.Fixed)
    (h : row.Becomes source asked p.dictionaries outcome)
    (hfree : ∀ kind x, outcome = .modeled kind x →
      Entity.name x ∉ (p.found.snapshot.collection kind).names) (before : List Query) :
    ∃ next after, Progress.Takes source p row before next after ∧
      p.Records row outcome next.found := by
  cases h with
  | view engine =>
    obtain ⟨_, hadd, hgains⟩ := Snapshot.add_of_notMem (hfree .view _ rfl)
    exact ⟨_, _, .view (content_eq_view_iff.mpr engine) hadd, .modeled hgains⟩
  | materializedView engine =>
    obtain ⟨_, hadd, hgains⟩ := Snapshot.add_of_notMem (hfree .materializedView _ rfl)
    exact ⟨_, _, .materializedView (content_eq_materializedView_iff.mpr engine) hadd,
      .modeled hgains⟩
  | dictionary engine described =>
    obtain ⟨_, hadd, hgains⟩ := Snapshot.add_of_notMem (hfree .dictionary _ rfl)
    exact ⟨_, _, .dictionary (content_eq_dictionary_iff.mpr engine) described hadd,
      .modeled hgains⟩
  | undescribed engine none =>
    have hleft : p.dictionaryOf? row = .none := by
      rw [Progress.dictionaryOf?, List.getLast?_eq_none_iff, List.filter_eq_nil_iff]
      exact fun d hd => by simpa [isDescribedBy] using none d hd
    exact ⟨_, _, .undescribed (content_eq_dictionary_iff.mpr engine) hleft, .undescribed⟩
  | table supported reads =>
    cases reads with
    | mk content hcolumns hindexes =>
      obtain ⟨_, hadd, hgains⟩ := Snapshot.add_of_notMem (hfree .table _ rfl)
      obtain ⟨_, _, hcolumns⟩ := hcolumns
      obtain ⟨_, _, hindexes⟩ := hindexes
      exact ⟨_, _, .table content ((hfixed _ _ _).trans hcolumns) ((hfixed _ _ _).trans hindexes)
        hadd, .modeled hgains⟩
  | failed supported unreadable =>
    exact ⟨_, _, .unreadable (content_eq_unreadable_iff.mpr ⟨supported, unreadable⟩), .failed⟩
  | unmodeled view materializedView dictionary unsupported =>
    exact ⟨_, _, .unmodeled (content_eq_unmodeled_iff.mpr
      ⟨view, materializedView, dictionary, unsupported⟩), .unmodeled⟩

namespace Outcomes

variable {source : CatalogSource} {asked : List Query} {dictionaries : List DictionaryRow}
  {rows : List TableRow} {outcomes : List RowOutcome}

theorem length_eq (h : Outcomes source asked dictionaries rows outcomes) :
    rows.length = outcomes.length :=
  (h.forall₂ (R := fun _ _ => True) fun _ _ _ _ => trivial).length_eq

theorem filterMap_zip (h : Outcomes source asked dictionaries rows outcomes) {α : Type}
    (f : RowOutcome → Option α) :
    (rows.zip outcomes).filterMap (fun r => f r.2) = outcomes.filterMap f := by
  conv_rhs => rw [← List.map_snd_zip (Nat.le_of_eq h.length_eq.symm), List.filterMap_map]
  rfl

end Outcomes

/-! ## What rows make up -/

namespace RowOutcome

/-- The row became an entity. -/
def isModeled : RowOutcome → Bool
  | modeled .. => true
  | _ => false

end RowOutcome

/-- What was taken in are some rows, each one with its outcome. -/
structure Introspection.Collects (found : Introspection) (rows : List (TableRow × RowOutcome)) :
    Prop where
  entries : ∀ kind,
    (found.snapshot.collection kind).entries = rows.filterMap (·.2.entity? kind)
  failures : found.statistics.failures = rows.filterMap (·.2.failure?)
  dumped : ∀ engine, found.statistics.dumped engine =
    rows.countP fun r => r.1.engine = engine ∧ r.2.isModeled = true

/-- What was found is what some rows became, and nothing else was seen. -/
structure Introspection.MadeOf (found : Introspection) (rows : List (TableRow × RowOutcome)) :
    Prop extends found.Collects rows where
  skipped : ∀ engine, found.statistics.skipped engine =
    rows.countP fun r => r.1.engine = engine ∧ r.2.isModeled = false

namespace Progress

variable {source : CatalogSource} {p : Progress} {row : TableRow} {outcome : RowOutcome}
  {found : Introspection} {all : List TableRow} {rows : List (TableRow × RowOutcome)}
  {asked : List Query} {left : List DictionaryRow} {outcomes : List RowOutcome}

theorem Records.dumped (h : p.Records row outcome found) (engine : String) :
    found.statistics.dumped engine = p.found.statistics.dumped engine +
      if row.engine = engine ∧ outcome.isModeled = true then 1 else 0 := by
  cases h with
  | modeled gains => simp [Statistics.dumped_recordDumped, RowOutcome.isModeled]
  | failed =>
    rw [if_neg (by simp [RowOutcome.isModeled])]
    rfl
  | undescribed | unmodeled => simp [RowOutcome.isModeled]

theorem Records.skipped (h : p.Records row outcome found) (engine : String) :
    found.statistics.skipped engine = p.found.statistics.skipped engine -
      if row.engine = engine ∧ outcome.isModeled = true then 1 else 0 := by
  cases h with
  | modeled gains => simp [Statistics.skipped_recordDumped, RowOutcome.isModeled]
  | failed =>
    rw [if_neg (by simp [RowOutcome.isModeled])]
    rfl
  | undescribed | unmodeled => simp [RowOutcome.isModeled]

/-- What was found when some of all rows were taken in: the others count as skipped. -/
structure Shows (all : List TableRow) (found : Introspection)
    (rows : List (TableRow × RowOutcome)) : Prop extends found.Collects rows where
  skipped : ∀ engine, found.statistics.skipped engine =
    (all.map (·.engine)).count engine - found.statistics.dumped engine

namespace Shows

theorem start (all : List TableRow) (left : List DictionaryRow) :
    Shows all (Progress.start all left).found [] := by
  have hdumped (engine : String) : (Progress.start all left).found.statistics.dumped engine = 0 := by
    rw [Statistics.dumped, dumpedCounts_start]
    rfl
  refine ⟨⟨fun kind => by cases kind <;> rfl, failures_start _ _, hdumped⟩, fun engine => ?_⟩
  rw [hdumped, statistics_start, Statistics.skipped_foldl_recordSeen]
  exact Nat.zero_add _

theorem concat (h : Shows all p.found rows) (hrecords : p.Records row outcome found) :
    Shows all found (rows ++ [(row, outcome)]) := by
  refine ⟨⟨fun kind => ?_, ?_, fun engine => ?_⟩, fun engine => ?_⟩
  · rw [hrecords.entries, h.entries, List.filterMap_append, filterMap_singleton]
  · rw [hrecords.failures, h.failures, List.filterMap_append, filterMap_singleton]
  · rw [hrecords.dumped, h.dumped, List.countP_append, List.countP_singleton]
    simp
  · rw [hrecords.skipped, h.skipped, hrecords.dumped, Nat.sub_sub]

/-- When all rows were taken in, those that are not modeled are left. -/
theorem madeOf (h : Shows (rows.map (·.1)) found rows) : found.MadeOf rows := by
  refine ⟨h.toCollects, fun engine => ?_⟩
  have hcount : ((rows.map (·.1)).map (·.engine)).count engine =
      rows.countP (fun r => r.1.engine = engine ∧ r.2.isModeled = true) +
        rows.countP fun r => r.1.engine = engine ∧ r.2.isModeled = false := by
    clear h
    induction rows with
    | nil => rfl
    | cons r rows ih =>
      simp only [List.map_cons, List.count_cons, List.countP_cons, ih]
      cases r.2.isModeled <;> by_cases hr : r.1.engine = engine <;> simp [hr] <;> omega
  rw [h.skipped, h.dumped, hcount, Nat.add_sub_cancel_left]

end Shows

/-- **The run over rows with outcomes**, if no name is repeated within a kind. -/
theorem takeRows_of_outcomes (hfixed : source.Fixed) {rows : List TableRow}
    (h : Outcomes source asked left rows outcomes)
    (hnames : ∀ kind, ((outcomes.filterMap (·.entity? kind)).map Entity.name).Nodup)
    (all : List TableRow) (before : List Query) :
    ∃ p after, Gives (rows.foldlM (takeRow source) (.start all left)) before p after ∧
      p.dictionaries = unusedRows left rows ∧ Shows all p.found (rows.zip outcomes) := by
  induction h with
  | nil => exact ⟨_, _, gives_pure _ _, unusedRows_nil.symm, .start all left⟩
  | @concat rows outcomes row outcome init last ih =>
    simp only [List.filterMap_append, List.map_append, List.nodup_append] at hnames
    obtain ⟨p, between, hrun, hleft, hshows⟩ := ih fun kind => (hnames kind).1
    have hfree : ∀ kind x, outcome = .modeled kind x →
        Entity.name x ∉ (p.found.snapshot.collection kind).names := by
      rintro kind x rfl hmem
      rw [Collection.names, hshows.entries kind, init.filterMap_zip] at hmem
      exact (hnames kind).2.2 _ hmem _ (by simp [RowOutcome.entity?_modeled]) rfl
    obtain ⟨next, after, htakes, hrecords⟩ :=
      (hleft ▸ last : row.Becomes source asked p.dictionaries outcome).takes hfixed hfree between
    obtain ⟨_, _, _, _, hnext⟩ := htakes.outcome hleft
    refine ⟨next, after, ?_, hnext, ?_⟩
    · rw [List.foldlM_append]
      exact hrun.bind (htakes.gives.bind (gives_pure _ _))
    · rw [List.zip_append init.length_eq]
      exact hshows.concat hrecords

end Progress

section Restriction

variable {source : CatalogSource} {filter : Filter} {listed rows : List TableRow}
  {asked first : List Query} {dictionaries left : List DictionaryRow} {outcomes : List RowOutcome}
  {row : TableRow} {outcome : RowOutcome} {c : TableRow → Bool}

/-- An introspection ends well if the chosen rows have outcomes without a repeated name, and what it
finds is what they became. -/
theorem introspect_of_outcomes (hfixed : source.Fixed)
    (hlisted : source.ask [] .tables = .ok listed)
    (hstart : Starts source (filter.select listed) left first)
    (h : Outcomes source asked left (filter.select listed) outcomes)
    (hnames : ∀ kind, ((outcomes.filterMap (·.entity? kind)).map Entity.name).Nodup) :
    ∃ found after, introspect source filter = (.ok found, after) ∧
      found.MadeOf ((filter.select listed).zip outcomes) := by
  obtain ⟨p, after, hrun, _, hshows⟩ :=
    Progress.takeRows_of_outcomes hfixed h hnames (filter.select listed) first
  refine ⟨p.found, after, ?_, Progress.Shows.madeOf ?_⟩
  · rw [introspect_eq_of_starts hlisted hstart]
    exact hrun.bind (gives_pure _ _)
  · rwa [List.map_fst_zip (Nat.le_of_eq h.length_eq)]

/-! ## The outcomes of chosen rows -/

/-- Only the row of a dictionary depends on what is left: on the dictionary rows that describe
it. -/
theorem TableRow.Becomes.congr (h : row.Becomes source asked dictionaries outcome)
    (hleft : row.engine = "Dictionary" →
      dictionaries.filter row.isDescribedBy = left.filter row.isDescribedBy) :
    row.Becomes source asked left outcome := by
  cases h with
  | view engine => exact .view engine
  | materializedView engine => exact .materializedView engine
  | dictionary engine described => exact .dictionary engine (hleft engine ▸ described)
  | undescribed engine none =>
    have hnone : dictionaries.filter row.isDescribedBy = [] := by simpa using none
    rw [hleft engine] at hnone
    exact .undescribed engine (by simpa using hnone)
  | table supported reads => exact .table supported reads
  | failed supported unreadable => exact .failed supported unreadable
  | unmodeled view materializedView dictionary unsupported =>
    exact .unmodeled view materializedView dictionary unsupported

theorem zip_filter (h : rows.length = outcomes.length) (c : TableRow → Bool) :
    (rows.filter c).zip (((rows.zip outcomes).filter (c ·.1)).map (·.2)) =
      (rows.zip outcomes).filter (c ·.1) := by
  have hrows : rows.filter c = ((rows.zip outcomes).filter (c ·.1)).map (·.1) := by
    conv_lhs => rw [← List.map_fst_zip (Nat.le_of_eq h), List.filter_map]
    rfl
  rw [hrows]
  exact (List.zip_of_prod rfl rfl).symm

theorem map_snd_filter_sublist (h : rows.length = outcomes.length) (c : TableRow → Bool) :
    (((rows.zip outcomes).filter (c ·.1)).map (·.2)).Sublist outcomes := by
  conv_rhs => rw [← List.map_snd_zip (Nat.le_of_eq h.symm)]
  exact List.filter_sublist.map Prod.snd

/-- **The outcomes of chosen rows** are those that they have among all rows, if all rows at a place
are chosen or none. -/
theorem Outcomes.restrict (hc : ∀ a b : TableRow, a.place = b.place → c a = c b)
    (h : Outcomes source asked dictionaries rows outcomes)
    (hleft : ∀ row ∈ rows, c row = true → row.engine = "Dictionary" → left = dictionaries) :
    Outcomes source asked left (rows.filter c)
      (((rows.zip outcomes).filter (c ·.1)).map (·.2)) := by
  induction h with
  | nil => exact .nil
  | @concat rows outcomes row outcome init last ih =>
    have hinit := ih fun other hother => hleft other (List.mem_append_left _ hother)
    rw [List.zip_append init.length_eq, List.filter_append, List.filter_append, List.map_append]
    by_cases hrow : c row = true
    · have hbecomes : row.Becomes source asked (unusedRows left (rows.filter c)) outcome := by
        refine last.congr fun hengine => ?_
        rw [hleft row (by simp) hrow hengine]
        exact TableRow.filter_unusedRows hc hrow dictionaries rows
      have hconcat := hinit.concat hbecomes
      simpa [hrow] using hconcat
    · simpa [hrow] using hinit

/-- The dictionary rows that an introspection starts with when some rows are left out. -/
theorem Starts.restrict (h : Starts source rows dictionaries first) (c : TableRow → Bool) :
    ∃ left first', Starts source (rows.filter c) left first' ∧
      ∀ row ∈ rows, c row = true → row.engine = "Dictionary" → left = dictionaries := by
  cases hany : (rows.filter c).any (·.engine = "Dictionary") with
  | true =>
    cases h with
    | described _ given => exact ⟨_, _, .described hany given, fun _ _ _ _ => rfl⟩
    | plain none =>
      obtain ⟨row, hrow, hengine⟩ := List.any_eq_true.mp hany
      exact absurd hengine (List.any_eq_false.mp none row (List.mem_of_mem_filter hrow))
  | false =>
    refine ⟨[], _, .plain hany, fun row hrow hchosen hengine => ?_⟩
    have hnot := List.any_eq_false.mp hany row (List.mem_filter.mpr ⟨hrow, hchosen⟩)
    simp [hengine] at hnot

end Restriction

/-! ## Whole introspections -/

namespace Filter

/-- The filter chooses the place of an entity. -/
def matchesEntity {α : Type} [Entity α] (filter : Filter) (x : α) : Bool :=
  filter.matchesTable ((Entity.database x).getD "") (Entity.name x)

theorem chooses_of_place (filter : Filter) {a b : TableRow} (h : a.place = b.place) :
    filter.chooses a = filter.chooses b := by
  rw [TableRow.place, TableRow.place, Prod.mk.injEq] at h
  rw [chooses, chooses, h.1, h.2]

end Filter

theorem TableRow.Becomes.chooses_eq {source : CatalogSource} {asked : List Query}
    {left : List DictionaryRow} {row : TableRow} {outcome : RowOutcome}
    (h : row.Becomes source asked left outcome) (filter : Filter) :
    (∀ kind x, outcome.entity? kind = some x → filter.matchesEntity x = filter.chooses row) ∧
      ∀ f, outcome.failure? = some f →
        filter.matchesTable f.database f.name = filter.chooses row := by
  constructor
  · intro kind x hx
    obtain rfl := RowOutcome.entity?_eq_some_iff.mp hx
    rw [Filter.matchesEntity, h.named.1, h.named.2]
    rfl
  · intro f hf
    cases h with
    | failed =>
      cases hf
      rfl
    | view | materializedView | dictionary | undescribed | table | unmodeled => cases hf

theorem filterMap_filter {α : Type} {f : RowOutcome → Option α} {c : TableRow → Bool}
    {keep : α → Bool} {rows : List (TableRow × RowOutcome)}
    (h : ∀ r ∈ rows, ∀ a, f r.2 = some a → keep a = c r.1) :
    (rows.filter (c ·.1)).filterMap (f ·.2) = (rows.filterMap (f ·.2)).filter keep := by
  rw [List.filter_filterMap, List.filterMap_filter]
  refine List.filterMap_congr fun r hr => ?_
  cases hf : f r.2 with
  | none => simp
  | some a => simp [h r hr a hf, Option.filter]

/-- What an introspection finds with a filter, `found'`, beside what it finds without one,
`found`. -/
structure Restricts (source : CatalogSource) (filter : Filter) (found : Introspection)
    (asked : List Query) (listed : List TableRow) (dictionaries : List DictionaryRow)
    (first : List Query) (outcomes : List RowOutcome) (found' : Introspection) : Prop where
  reported : source.ask [] .tables = .ok listed
  described : Starts source (({} : Filter).select listed) dictionaries first
  /-- Every row that is chosen without the filter has an outcome, and only one. -/
  rows : Outcomes source asked dictionaries (({} : Filter).select listed) outcomes
  unique : ∀ others, Outcomes source asked dictionaries (({} : Filter).select listed) others →
    others = outcomes
  /-- Without the filter, all these rows count, -/
  whole : found.MadeOf ((({} : Filter).select listed).zip outcomes)
  /-- and with the filter, only those that it chooses, with the same outcomes. -/
  part : found'.MadeOf
    (((({} : Filter).select listed).zip outcomes).filter fun r => filter.chooses r.1)
  /-- The entities are those that the filter chooses, in the same order, -/
  entries : ∀ kind, (found'.snapshot.collection kind).entries =
    (found.snapshot.collection kind).entries.filter filter.matchesEntity
  /-- and so are the failures. -/
  failures : found'.statistics.failures =
    found.statistics.failures.filter fun f => filter.matchesTable f.database f.name

/-- **Filtering commutes with introspection.** If an introspection without a filter ends well, so
does one with a filter, and it finds the same, restricted to what the filter chooses. -/
theorem introspect_filtered {source : CatalogSource} {found : Introspection} {asked : List Query}
    (hfixed : source.Fixed) (h : introspect source {} = (.ok found, asked)) (filter : Filter) :
    ∃ found' asked', introspect source filter = (.ok found', asked') ∧
      ∃ listed dictionaries first outcomes,
        Restricts source filter found asked listed dictionaries first outcomes found' := by
  obtain ⟨_, hintrospected⟩ := introspected_of_introspect h
  obtain ⟨listed, dictionaries, first, p, outcomes, hlisted, hstart, _, haccounts, rfl⟩ :=
    accounts_of_introspect h
  have hrows := haccounts.rows
  have hnames (kind : EntityKind) :
      ((outcomes.filterMap (·.entity? kind)).map Entity.name).Nodup := by
    rw [← haccounts.entries kind]
    exact (p.found.snapshot.collection kind).distinct
  -- without a filter, the run is the one that the outcomes tell
  obtain ⟨found, _, hrun, hwhole⟩ := introspect_of_outcomes hfixed hlisted hstart hrows hnames
  obtain rfl : p.found = found := by
    rw [h, Prod.mk.injEq, Except.ok.injEq] at hrun
    exact hrun.1
  -- with a filter, it is the one that the outcomes of the chosen rows tell
  obtain ⟨left, first', hstart', hleft⟩ := hstart.restrict filter.chooses
  have hchosen := hrows.restrict (fun _ _ => filter.chooses_of_place) hleft
  rw [← Filter.select_eq_filter] at hstart' hchosen
  obtain ⟨found', asked', hrun', hpart⟩ := introspect_of_outcomes hfixed hlisted hstart' hchosen
    fun kind => (hnames kind).sublist
      (((map_snd_filter_sublist hrows.length_eq _).filterMap _).map _)
  rw [Filter.select_eq_filter filter, zip_filter hrows.length_eq] at hpart
  obtain ⟨_, hmatches⟩ := List.forall₂_iff_zip.mp
    (hrows.forall₂ fun _ _ _ hbecomes => hbecomes.chooses_eq filter)
  refine ⟨found', asked', hrun', listed, dictionaries, first, outcomes, hlisted, hstart, hrows,
    fun others hothers => hothers.unique hintrospected.asked_nodup hrows, hwhole, hpart,
    fun kind => ?_, ?_⟩
  · rw [hpart.entries, hwhole.entries]
    exact filterMap_filter fun r hr => (hmatches hr).1 kind
  · rw [hpart.failures, hwhole.failures]
    exact filterMap_filter fun r hr => (hmatches hr).2

/-- Rows of two databases, of which one is chosen: an entity, a failure and a row that nothing models
on either side. The dictionary is not chosen, so that dictionaries are not asked for. -/
theorem introspect_filtered_main :
    let catalog : Catalog :=
      { tables :=
          [{ database := "main", name := "broken", engine := "MergeTree",
             engineFull := "MergeTree(1) ORDER BY id" },
            { database := "main", name := "buffer", engine := "Buffer" },
            { database := "main", name := "events", engine := "MergeTree",
              engineFull := "MergeTree ORDER BY id", sortingKey := "id" },
            { database := "other", name := "codes", engine := "Dictionary" },
            { database := "other", name := "old", engine := "MergeTree",
              engineFull := "MergeTree(2) ORDER BY id" },
            { database := "other", name := "queue", engine := "Buffer" }]
        columns := [{ database := "main", table := "events", name := "id", type := "UInt64" }]
        dictionaries := [{ database := "other", name := "codes", keyNames := ["id"] }] }
    ∃ found asked, introspect catalog.source {} = (.ok found, asked) ∧
      (found.statistics.dumpedEngines, found.statistics.skippedEngines) =
        ([("Dictionary", 1), ("MergeTree", 1)], [("Buffer", 2), ("MergeTree", 2)]) ∧
      ∃ found' asked', introspect catalog.source (.only "main") = (.ok found', asked') ∧
        ∃ listed dictionaries first outcomes,
          Restricts catalog.source (.only "main") found asked listed dictionaries first outcomes
            found' := by
  intro catalog
  have hselect : ({} : Filter).select catalog.tables = catalog.tables :=
    Filter.select_eq_self (by decide) (by decide) (by decide)
  have hfound : (introspect catalog.source {}).1.toOption.map (fun found =>
      (found.statistics.dumpedEngines, found.statistics.skippedEngines)) =
      some ([("Dictionary", 1), ("MergeTree", 1)], [("Buffer", 2), ("MergeTree", 2)]) := by
    rw [introspect_eq (show catalog.source.ask [] .tables = .ok catalog.tables from rfl), hselect]
    decide +kernel
  obtain ⟨found, asked, hrun, hcounts⟩ := exists_found hfound
  exact ⟨found, asked, hrun, hcounts, introspect_filtered catalog.source_fixed hrun (.only "main")⟩

end SchemaPlan
