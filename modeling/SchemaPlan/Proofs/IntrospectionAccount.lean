import SchemaPlan.Proofs.RowOrder
import SchemaPlan.Proofs.RowOutcomes
import SchemaPlan.Proofs.StatisticsLaws

/-!
# The account of an introspection

Nothing is lost and nothing counts twice: every row that the filter chooses has exactly one outcome,
and the snapshot, the failures and the counters are those of the outcomes.

* `Snapshot.size`: the number of entities of a snapshot.
* `Progress.Accounts`: what holds between two rows; `Progress.Accounts.step`: one row keeps it;
  `Progress.Accounts.skipped_pos`: a row that is about to be taken in counts as skipped.
* `Accounted`: what holds at the end.
* **`introspect_accounts`**: an introspection that ends well is accounted for.
-/

namespace SchemaPlan

open Asking

/-! ## The size of a snapshot -/

/-- The number of entities of a snapshot. -/
def Snapshot.size (s : Snapshot) : Nat :=
  (EntityKind.all.map fun kind => (s.collection kind).entries.length).sum

theorem Snapshot.Gains.size {s t : Snapshot} {kind : EntityKind} {x : kind.Member}
    (h : s.Gains kind x t) : t.size = s.size + 1 := by
  have hlength (other : EntityKind) : (t.collection other).entries.length =
      (s.collection other).entries.length + if other = kind then 1 else 0 := by
    by_cases hother : other = kind
    · subst hother
      rw [h.entries, List.length_append, if_pos rfl]
      rfl
    · rw [h.others other hother, if_neg hother]
      rfl
  simp only [Snapshot.size, EntityKind.all, List.map_cons, List.map_nil, hlength]
  cases kind <;> simp <;> omega

/-! ## Between two rows -/

theorem filterMap_singleton {α β : Type} (f : α → Option β) (a : α) :
    [a].filterMap f = (f a).toList := by
  cases h : f a <;> simp [h]

namespace Progress

variable {source : CatalogSource} {dictionaries : List DictionaryRow} {all done : List TableRow}
  {p next : Progress} {row : TableRow} {before after : List Query} {outcome : RowOutcome}
  {outcomes : List RowOutcome} {found : Introspection}

namespace Records

theorem entries (h : p.Records row outcome found) (kind : EntityKind) :
    (found.snapshot.collection kind).entries =
      (p.found.snapshot.collection kind).entries ++ (outcome.entity? kind).toList := by
  cases h with
  | @modeled added x snapshot gains =>
    by_cases hkind : kind = added
    · subst hkind
      rw [gains.entries, RowOutcome.entity?_modeled]
      rfl
    · rw [gains.others kind hkind, RowOutcome.entity?_modeled_of_ne x hkind]
      exact (List.append_nil _).symm
  | failed | undescribed | unmodeled => exact (List.append_nil _).symm

theorem failures (h : p.Records row outcome found) :
    found.statistics.failures = p.found.statistics.failures ++ outcome.failure?.toList := by
  cases h with
  | failed => rfl
  | modeled | undescribed | unmodeled => exact (List.append_nil _).symm

/-- An entity that is added moves one count of the engine of its row; otherwise none is moved. -/
theorem counters (h : p.Records row outcome found) : ∃ moved ≤ 1,
    (∀ engine, found.statistics.dumped engine =
      p.found.statistics.dumped engine + if row.engine = engine then moved else 0) ∧
    (∀ engine, found.statistics.skipped engine =
      p.found.statistics.skipped engine - if row.engine = engine then moved else 0) ∧
    found.statistics.totalDumped = p.found.statistics.totalDumped + moved ∧
    found.snapshot.size = p.found.snapshot.size + moved := by
  cases h with
  | modeled gains =>
    exact ⟨1, Nat.le_refl 1, Statistics.dumped_recordDumped _ _,
      Statistics.skipped_recordDumped _ _, Statistics.totalDumped_recordDumped _ _, gains.size⟩
  | failed | undescribed | unmodeled =>
    exact ⟨0, Nat.zero_le 1, fun engine => by rw [ite_self]; rfl,
      fun engine => by rw [ite_self]; rfl, rfl, rfl⟩

end Records

/-! ### The start -/

theorem statistics_start (rows : List TableRow) (dictionaries : List DictionaryRow) :
    (start rows dictionaries).found.statistics =
      (rows.map (·.engine)).foldl Statistics.recordSeen .empty :=
  (List.foldl_map ..).symm

theorem dumpedCounts_start (rows : List TableRow) (dictionaries : List DictionaryRow) :
    (start rows dictionaries).found.statistics.dumpedCounts = .empty := by
  rw [statistics_start]
  exact Statistics.foldl_keeps Statistics.dumpedCounts_recordSeen _ _

theorem failures_start (rows : List TableRow) (dictionaries : List DictionaryRow) :
    (start rows dictionaries).found.statistics.failures = [] := by
  rw [statistics_start]
  exact Statistics.foldl_keeps Statistics.failures_recordSeen _ _

/-! ### The invariant -/

/-- What holds when some of all rows were taken in. -/
structure Accounts (source : CatalogSource) (dictionaries : List DictionaryRow)
    (all done : List TableRow) (p : Progress) (asked : List Query)
    (outcomes : List RowOutcome) : Prop where
  rows : Outcomes source asked dictionaries done outcomes
  left : p.dictionaries = unusedRows dictionaries done
  entries : ∀ kind,
    (p.found.snapshot.collection kind).entries = outcomes.filterMap (·.entity? kind)
  failures : p.found.statistics.failures = outcomes.filterMap (·.failure?)
  /-- Every row counts once. -/
  counted : ∀ engine, p.found.statistics.dumped engine + p.found.statistics.skipped engine =
    (all.map (·.engine)).count engine
  /-- Only rows that were taken in count as taken. -/
  dumped_le : ∀ engine, p.found.statistics.dumped engine ≤ (done.map (·.engine)).count engine
  total : p.found.statistics.totalDumped = p.found.snapshot.size

namespace Accounts

theorem skipped_pos {rest : List TableRow}
    (h : Accounts source dictionaries (done ++ row :: rest) done p before outcomes) :
    0 < p.found.statistics.skipped row.engine := by
  have hcounted := h.counted row.engine
  have hle := h.dumped_le row.engine
  rw [List.map_append, List.count_append, List.map_cons, List.count_cons_self] at hcounted
  omega

theorem start : Accounts source dictionaries all [] (start all dictionaries) before [] := by
  refine ⟨.nil, unusedRows_nil.symm, fun kind => by cases kind <;> rfl, failures_start _ _,
    fun engine => ?_, fun engine => ?_, ?_⟩
  · rw [Statistics.dumped, dumpedCounts_start, statistics_start,
      Statistics.skipped_foldl_recordSeen]
    exact (Nat.zero_add _).trans (Nat.zero_add _)
  · rw [Statistics.dumped, dumpedCounts_start]
    exact Nat.zero_le _
  · rw [Statistics.totalDumped, dumpedCounts_start]
    rfl

/-- **What holds between two rows, the next row keeps.** -/
theorem step {rest : List TableRow} (h : Accounts source dictionaries all done p before outcomes)
    (hall : all = done ++ row :: rest) (htakes : Takes source p row before next after) :
    ∃ outcome, Accounts source dictionaries all (done ++ [row]) next after
      (outcomes ++ [outcome]) := by
  obtain ⟨outcome, hbecomes, hrecords, hasked, hleft⟩ := htakes.outcome h.left
  have hpos : 0 < p.found.statistics.skipped row.engine := (hall ▸ h).skipped_pos
  have hcount (engine : String) : ((done ++ [row]).map (·.engine)).count engine =
      (done.map (·.engine)).count engine + if row.engine = engine then 1 else 0 := by
    rw [List.map_append, List.count_append, List.map_singleton, List.count_singleton]
    simp
  obtain ⟨moved, hmoved, hdumped, hskipped, htotal, hsize⟩ := hrecords.counters
  refine ⟨outcome, (h.rows.mono hasked).concat hbecomes, hleft, fun kind => ?_, ?_,
    fun engine => ?_, fun engine => ?_, ?_⟩
  · rw [hrecords.entries, h.entries, List.filterMap_append, filterMap_singleton]
  · rw [hrecords.failures, h.failures, List.filterMap_append, filterMap_singleton]
  · -- the row counts as skipped, so that a count can be moved
    have hcounted := h.counted engine
    rw [hdumped, hskipped]
    by_cases hengine : row.engine = engine
    · rw [if_pos hengine]
      rw [hengine] at hpos
      omega
    · rw [if_neg hengine]
      omega
  · have hle := h.dumped_le engine
    rw [hdumped, hcount]
    split <;> omega
  · rw [htotal, h.total, hsize]

end Accounts

theorem takeRows_accounts (hall : done <+: all)
    (hrun : Gives (done.foldlM (takeRow source) (.start all dictionaries)) before p after) :
    ∃ outcomes, Accounts source dictionaries all done p after outcomes := by
  refine takeRows_keeps (P := fun done p asked => done <+: all →
    ∃ outcomes, Accounts source dictionaries all done p asked outcomes) [] hrun
    (fun _ => ⟨[], .start⟩) (fun done row p before next after ih htakes hall => ?_) hall
  obtain ⟨outcomes, h⟩ := ih ((List.prefix_append _ _).trans hall)
  obtain ⟨rest, hrest⟩ := hall
  have hall : all = done ++ row :: rest := by simp [← hrest]
  obtain ⟨outcome, hstep⟩ := h.step hall htakes
  exact ⟨_, hstep⟩

end Progress

/-! ## Whole introspections -/

/-- The account of an introspection over the rows `listed` and the dictionary rows `dictionaries`,
with the outcomes of the rows that the filter chooses. -/
structure Accounted (source : CatalogSource) (filter : Filter) (found : Introspection)
    (asked : List Query) (listed : List TableRow) (dictionaries : List DictionaryRow)
    (first : List Query) (outcomes : List RowOutcome) : Prop where
  reported : source.ask [] .tables = .ok listed
  described : Starts source (filter.select listed) dictionaries first
  /-- Every chosen row has an outcome, -/
  rows : Outcomes source asked dictionaries (filter.select listed) outcomes
  /-- and only one. -/
  unique : ∀ others, Outcomes source asked dictionaries (filter.select listed) others →
    others = outcomes
  /-- A modeled row is one entity of the snapshot, with its database and its name, -/
  named : List.Forall₂ (fun row outcome => ∀ kind x, outcome = .modeled kind x →
      Entity.database x = some row.database ∧ Entity.name x = row.name)
    (filter.select listed) outcomes
  /-- which is the only one of that name, -/
  once : ∀ kind x, .modeled kind x ∈ outcomes →
    ∀ y, y ∈ (found.snapshot.collection kind).entries ∧ Entity.name y = Entity.name x ↔ y = x
  /-- and there are no other entities. -/
  entries : ∀ kind,
    (found.snapshot.collection kind).entries = outcomes.filterMap (·.entity? kind)
  entries_inOrder : ∀ kind, ((found.snapshot.collection kind).entries.map fun x =>
    ((Entity.database x).getD "", Entity.name x)).Pairwise InOrder
  failures : found.statistics.failures = outcomes.filterMap (·.failure?)
  failures_inOrder :
    (found.statistics.failures.map fun f => (f.database, f.name)).Pairwise InOrder
  counted : ∀ engine, found.statistics.dumped engine + found.statistics.skipped engine =
    ((listed.filter filter.chooses).map (·.engine)).count engine
  total : found.statistics.totalDumped = found.snapshot.tables.entries.length +
    found.snapshot.views.entries.length + found.snapshot.materializedViews.entries.length +
    found.snapshot.dictionaries.entries.length
  /-- Whenever a row is about to be taken in, there is a count of its engine that can be moved. -/
  unsaturated : ∀ done row rest, filter.select listed = done ++ row :: rest →
    ∃ p before, Gives (done.foldlM (Progress.takeRow source)
        (.start (filter.select listed) dictionaries)) first p before ∧
      0 < p.found.statistics.skipped row.engine

variable {source : CatalogSource} {filter : Filter} {found : Introspection} {asked : List Query}

/-- An introspection that ended well, with what holds after its last row. -/
theorem accounts_of_introspect (h : introspect source filter = (.ok found, asked)) :
    ∃ listed dictionaries first p outcomes, source.ask [] .tables = .ok listed ∧
      Starts source (filter.select listed) dictionaries first ∧
      Gives ((filter.select listed).foldlM (Progress.takeRow source)
        (.start (filter.select listed) dictionaries)) first p asked ∧
      Progress.Accounts source dictionaries (filter.select listed) (filter.select listed) p asked
        outcomes ∧
      p.found = found := by
  obtain ⟨listed, dictionaries, first, p, hlisted, hstart, hrun, hfound⟩ := run_of_introspect h
  obtain ⟨outcomes, haccounts⟩ := Progress.takeRows_accounts List.prefix_rfl hrun
  exact ⟨listed, dictionaries, first, p, outcomes, hlisted, hstart, hrun, haccounts, hfound⟩

/-- **An introspection that ends well is accounted for.** -/
theorem introspect_accounts (h : introspect source filter = (.ok found, asked)) :
    ∃ listed dictionaries first outcomes,
      Accounted source filter found asked listed dictionaries first outcomes := by
  obtain ⟨_, hintrospected⟩ := introspected_of_introspect h
  obtain ⟨listed, dictionaries, first, p, outcomes, hlisted, hstart, hrun, haccounts, rfl⟩ :=
    accounts_of_introspect h
  have hmem {kind : EntityKind} {x : kind.Member} (hx : .modeled kind x ∈ outcomes) :
      x ∈ (p.found.snapshot.collection kind).entries := by
    rw [haccounts.entries]
    exact List.mem_filterMap.mpr ⟨_, hx, RowOutcome.entity?_modeled kind x⟩
  have hsorted := filter.select_pairwise listed
  refine ⟨listed, dictionaries, first, outcomes, hlisted, hstart, haccounts.rows,
    fun others hothers => hothers.unique hintrospected.asked_nodup haccounts.rows,
    haccounts.rows.forall₂ ?_, fun kind x hx y => ?_, haccounts.entries, fun kind => ?_,
    haccounts.failures, ?_, fun engine => ?_, ?_, fun done row rest hrows => ?_⟩
  · rintro left row _ hbecomes kind x rfl
    exact hbecomes.named
  · constructor
    · rintro ⟨hy, hname⟩
      exact List.inj_on_of_nodup_map (p.found.snapshot.collection kind).distinct hy (hmem hx) hname
    · rintro rfl
      exact ⟨hmem hx, rfl⟩
  · have hplaces := (haccounts.rows.places_sublist kind).map fun q => (q.1.getD "", q.2)
    rw [List.map_map, List.map_map] at hplaces
    rw [haccounts.entries]
    exact hsorted.sublist hplaces
  · rw [haccounts.failures]
    exact hsorted.sublist haccounts.rows.failures_sublist
  · rw [haccounts.counted]
    exact ((filter.select_perm listed).map _).count_eq engine
  · have hcluster : p.found.snapshot.clusters.entries = [] :=
      (haccounts.entries .cluster).trans haccounts.rows.filterMap_cluster
    rw [haccounts.total]
    simp only [Snapshot.size, EntityKind.all, List.map_cons, List.map_nil, List.sum_cons,
      List.sum_nil, Snapshot.collection, hcluster, List.length_nil]
    omega
  · rw [hrows, List.foldlM_append, ← hrows] at hrun
    obtain ⟨q, between, hdone, _⟩ := gives_bind_iff.mp hrun
    obtain ⟨_, hq⟩ := Progress.takeRows_accounts (hrows ▸ List.prefix_append _ _) hdone
    exact ⟨q, between, hdone, (hrows ▸ hq).skipped_pos⟩

/-- Seven rows: one of each kind, one that cannot be read, one that nothing models and one that
nothing describes. -/
theorem introspect_accounts_mixed :
    let catalog : Catalog :=
      { tables :=
          [{ database := "main", name := "broken", engine := "MergeTree",
             engineFull := "MergeTree(1) ORDER BY id" },
            { database := "main", name := "buffer", engine := "Buffer" },
            { database := "main", name := "codes", engine := "Dictionary" },
            { database := "main", name := "daily", engine := "MaterializedView",
              asSelect := "SELECT 1" },
            { database := "main", name := "events", engine := "MergeTree",
              engineFull := "MergeTree ORDER BY id", sortingKey := "id" },
            { database := "main", name := "totals", engine := "View", asSelect := "SELECT 1" },
            { database := "main", name := "zones", engine := "Dictionary" }]
        columns := [{ database := "main", table := "events", name := "id", type := "UInt64" }]
        dictionaries :=
          [{ database := "main", name := "codes", keyNames := ["id"], keyTypes := ["UInt64"],
             source := "HTTP", layout := "FLAT()" }] }
    ∃ found asked, introspect catalog.source {} = (.ok found, asked) ∧
      (found.statistics.totalDumped, found.statistics.skippedEngines,
        found.statistics.failures.map (·.name)) =
          (4, [("Buffer", 1), ("Dictionary", 1), ("MergeTree", 1)], ["broken"]) ∧
      ∃ listed dictionaries first outcomes,
        Accounted catalog.source {} found asked listed dictionaries first outcomes := by
  intro catalog
  have hselect : ({} : Filter).select catalog.tables = catalog.tables :=
    Filter.select_eq_self (by decide) (by decide) (by decide)
  have hfound : (introspect catalog.source {}).1.toOption.map (fun found =>
      (found.statistics.totalDumped, found.statistics.skippedEngines,
        found.statistics.failures.map (·.name))) =
      some (4, [("Buffer", 1), ("Dictionary", 1), ("MergeTree", 1)], ["broken"]) := by
    rw [introspect_eq (show catalog.source.ask [] .tables = .ok catalog.tables from rfl), hselect]
    decide +kernel
  obtain ⟨found, asked, hrun, hcounts⟩ := exists_found hfound
  exact ⟨found, asked, hrun, hcounts, introspect_accounts hrun⟩

end SchemaPlan
