import SchemaPlan.Proofs.EarlyEnds
import SchemaPlan.Proofs.RowRemoval

/-!
# Repeated names

If every query is answered, an introspection ends early for one reason alone: a row repeats the name
of an earlier row that is modeled as the same kind, be it of another database.

* `Asking.Fails`: the run ends early, whatever it asked by then.
* `TableRow.ModeledAs`: the kind that a row is modeled as, said without the run.
* `Apart`, `FirstRepeat`: no name is repeated within a kind, or it is first repeated by some row.
* `Progress.takeRows_outcome`: the run over several rows.
* **`introspect_outcome`**: whole introspections.
-/

namespace SchemaPlan

/-! ## Runs that end early -/

namespace Asking

variable {α β : Type} {before : List Query} {cause : IntrospectionError}

/-- The run `m`, after the queries `before`, ends early. -/
def Fails (m : Asking α) (before : List Query) (cause : IntrospectionError) : Prop :=
  (m.run.run before).1 = .error cause

theorem fails_iff {m : Asking α} :
    Fails m before cause ↔ ∃ after, Stops m before cause after :=
  ⟨fun h => ⟨_, Prod.ext h rfl⟩, fun ⟨_, h⟩ => congrArg Prod.fst h⟩

theorem Fails.bind {m : Asking α} (h : Fails m before cause) (f : α → Asking β) :
    Fails (m >>= f) before cause := by
  rw [fails_iff] at h ⊢
  obtain ⟨after, hm⟩ := h
  exact ⟨after, hm.bind f⟩

end Asking

open Asking

/-- Every query is answered, whatever was asked before. -/
def CatalogSource.Answers (source : CatalogSource) : Prop :=
  ∀ before query, ∃ rows, source.ask before query = .ok rows

theorem Catalog.source_answers (catalog : Catalog) : catalog.source.Answers := by
  intro before query
  cases query <;> exact ⟨_, rfl⟩

/-! ## Rows with names -/

namespace TableRow

variable {row : TableRow} {kind : EntityKind} {left dictionaries : List DictionaryRow}
  {done : List TableRow}

/-- The kind that a row is modeled as, when there are some dictionary rows. -/
inductive ModeledAs (dictionaries : List DictionaryRow) (row : TableRow) : EntityKind → Prop
  | view (engine : row.engine = "View") : ModeledAs dictionaries row .view
  | materializedView (engine : row.engine = "MaterializedView") :
      ModeledAs dictionaries row .materializedView
  | dictionary (engine : row.engine = "Dictionary")
      (described : ∃ d ∈ dictionaries, d.database = row.database ∧ d.name = row.name) :
      ModeledAs dictionaries row .dictionary
  | table {engine : Engine} (supported : row.IsSupported)
      (readable : Engine.parse row.engine row.engineFull = .ok engine) :
      ModeledAs dictionaries row .table

theorem any_isDescribedBy_iff : left.any row.isDescribedBy = true ↔
    ∃ d ∈ left, d.database = row.database ∧ d.name = row.name := by
  simp [isDescribedBy]

theorem modeledAs_iff : row.ModeledAs left kind ↔ row.fate left = .modeled kind := by
  constructor
  · intro h
    unfold fate
    cases h with
    | view engine => rw [content_eq_view_iff.mpr engine]
    | materializedView engine => rw [content_eq_materializedView_iff.mpr engine]
    | dictionary engine described =>
      simp only [content_eq_dictionary_iff.mpr engine]
      rw [if_pos (any_isDescribedBy_iff.mpr described)]
    | table supported readable => rw [content_eq_table_iff.mpr ⟨supported, readable⟩]
  · intro h
    unfold fate at h
    split at h
    · cases h
      exact .view (content_eq_view_iff.mp ‹_›)
    · cases h
      exact .materializedView (content_eq_materializedView_iff.mp ‹_›)
    · split at h
      · cases h
        exact .dictionary (content_eq_dictionary_iff.mp ‹_›) (any_isDescribedBy_iff.mp ‹_›)
      · cases h
    · cases h
      obtain ⟨hsupported, hreadable⟩ := content_eq_table_iff.mp ‹_›
      exact .table hsupported hreadable
    · cases h
    · cases h

theorem fate_of_ne (h : row.engine ≠ "Dictionary") : row.fate left = row.fate dictionaries := by
  have hcontent : row.content ≠ .dictionary := mt content_eq_dictionary_iff.mp h
  unfold fate
  cases hc : row.content with
  | dictionary => exact absurd hc hcontent
  | view | materializedView | table | unreadable | unmodeled => rfl

theorem filter_unusedRows {c : TableRow → Bool}
    (hc : ∀ a b : TableRow, a.place = b.place → c a = c b)
    (hrow : c row = true) (dictionaries : List DictionaryRow) (done : List TableRow) :
    (unusedRows dictionaries done).filter row.isDescribedBy =
      (unusedRows dictionaries (done.filter c)).filter row.isDescribedBy := by
  rw [unusedRows, unusedRows, List.filter_filter, List.filter_filter]
  refine List.filter_congr fun d _ => ?_
  cases hd : row.isDescribedBy d with
  | false => rfl
  | true =>
    rw [List.any_filter]
    congr 3
    funext other
    -- two rows that one dictionary row describes are at the same place
    cases hother : other.isDescribedBy d with
    | false => simp
    | true =>
      have hplace : other.place = row.place := by
        simp only [isDescribedBy, decide_eq_true_iff] at hd hother
        rw [place, place, ← hd.1, ← hd.2, ← hother.1, ← hother.2]
      rw [hc other row hplace, hrow, Bool.true_and]

theorem fate_unusedRows (h : row.place ∉ done.map place) :
    row.fate (unusedRows dictionaries done) = row.fate dictionaries := by
  have hnone : done.filter (·.place = row.place) = [] := by
    rw [List.filter_eq_nil_iff]
    intro other hother
    simpa using fun e : other.place = row.place => h (e ▸ List.mem_map_of_mem hother)
  have hleft : (unusedRows dictionaries done).filter row.isDescribedBy =
      dictionaries.filter row.isDescribedBy := by
    rw [filter_unusedRows (c := (·.place = row.place)) (fun a b e => by rw [e]) (by simp), hnone,
      unusedRows_nil]
  have hany (l : List DictionaryRow) :
      l.any row.isDescribedBy = (l.filter row.isDescribedBy).any row.isDescribedBy := by
    simp only [List.any_filter, Bool.and_self]
  unfold fate
  rw [hany, hleft, ← hany]

end TableRow

/-- Within each kind, the names of the rows are distinct. -/
def Apart (kinds : TableRow → EntityKind → Prop) (rows : List TableRow) : Prop :=
  rows.Pairwise fun a b => ∀ kind, kinds a kind → kinds b kind → a.name ≠ b.name

/-- Among the rows, the one after `before` is the first that repeats the name of an earlier row of
its kind. -/
structure FirstRepeat (kinds : TableRow → EntityKind → Prop) (rows before : List TableRow)
    (row : TableRow) (kind : EntityKind) : Prop where
  next : before ++ [row] <+: rows
  modeled : kinds row kind
  repeated : ∃ earlier ∈ before, kinds earlier kind ∧ earlier.name = row.name
  first : Apart kinds before

section Names

variable {kinds kinds' : TableRow → EntityKind → Prop} {rows before : List TableRow}
  {row : TableRow} {kind : EntityKind}

theorem Apart.congr (h : Apart kinds rows)
    (hkinds : ∀ row ∈ rows, ∀ kind, kinds row kind ↔ kinds' row kind) : Apart kinds' rows :=
  h.imp_of_mem fun ha hb hne kind hka hkb =>
    hne kind ((hkinds _ ha kind).mpr hka) ((hkinds _ hb kind).mpr hkb)

namespace FirstRepeat

theorem congr (h : FirstRepeat kinds rows before row kind)
    (hkinds : ∀ row ∈ rows, ∀ kind, kinds row kind ↔ kinds' row kind) :
    FirstRepeat kinds' rows before row kind where
  next := h.next
  modeled := (hkinds row (h.next.subset (by simp)) kind).mp h.modeled
  repeated := by
    obtain ⟨earlier, hmem, hkind, hname⟩ := h.repeated
    have hearlier : earlier ∈ rows := h.next.subset (List.mem_append_left _ hmem)
    exact ⟨earlier, hmem, (hkinds earlier hearlier kind).mp hkind, hname⟩
  first := h.first.congr fun other hother =>
    hkinds other (h.next.subset (List.mem_append_left _ hother))

theorem not_apart (h : FirstRepeat kinds rows before row kind) : ¬ Apart kinds rows := by
  intro hapart
  obtain ⟨earlier, hmem, hkind, hname⟩ := h.repeated
  have hpairwise := List.pairwise_append.mp (hapart.sublist h.next.sublist)
  exact hpairwise.2.2 earlier hmem row (List.mem_singleton_self row) kind hkind h.modeled hname

end FirstRepeat

end Names

/-! ## The names of entities -/

theorem Outcomes.names {source : CatalogSource} {asked : List Query}
    {dictionaries : List DictionaryRow} {rows : List TableRow} {outcomes : List RowOutcome}
    (h : Outcomes source asked dictionaries rows outcomes)
    (hplaces : (rows.map TableRow.place).Nodup) (kind : EntityKind) :
    (outcomes.filterMap (·.entity? kind)).map Entity.name =
      (rows.filter fun row => row.fate dictionaries = .modeled kind).map (·.name) := by
  induction h with
  | nil => rfl
  | @concat rows outcomes row outcome init last ih =>
    rw [List.map_append, List.map_singleton, List.nodup_append] at hplaces
    have hfresh : row.place ∉ rows.map TableRow.place := fun hmem =>
      hplaces.2.2 _ hmem _ (List.mem_singleton_self _) rfl
    have hfate : outcome.fate = row.fate dictionaries :=
      last.fate_eq.trans (TableRow.fate_unusedRows hfresh)
    rw [List.filterMap_append, List.map_append, ih hplaces.1, List.filter_append, List.map_append,
      filterMap_singleton]
    congr 1
    have hmodeled : (outcome.entity? kind).isSome = true ↔
        row.fate dictionaries = .modeled kind := hfate ▸ RowOutcome.isSome_entity?_iff
    cases hentity : outcome.entity? kind with
    | none =>
      have hother : row.fate dictionaries ≠ .modeled kind := by simp [← hmodeled, hentity]
      rw [List.filter_cons_of_neg (by simpa using hother)]
      rfl
    | some x =>
      have hkind : row.fate dictionaries = .modeled kind := by simp [← hmodeled, hentity]
      rw [List.filter_cons_of_pos (by simpa using hkind)]
      rw [RowOutcome.entity?_eq_some_iff] at hentity
      subst hentity
      exact congrArg (fun name => [name]) last.named.2

namespace Progress

variable {source : CatalogSource} {p : Progress} {row : TableRow} {before : List Query}
  {cause : IntrospectionError} {dictionaries : List DictionaryRow} {all done : List TableRow}
  {outcomes : List RowOutcome}

/-- If every query is answered, a row ends the run for a repeated name alone. -/
theorem takeRow_of_fails (hanswers : source.Answers)
    (h : Fails (takeRow source p row) before cause) :
    ∃ kind, row.fate p.dictionaries = .modeled kind ∧
      row.name ∈ (p.found.snapshot.collection kind).names ∧
      cause = .duplicateName ⟨kind, row.name⟩ := by
  obtain ⟨after, hstops⟩ := fails_iff.mp h
  cases stopsAt_of_stops hstops with
  | query queries answers failed =>
    obtain ⟨rows, hrows⟩ := hanswers _ _
    rw [hrows] at failed
    cases failed
  | duplicateName answers modeled taken => exact ⟨_, modeled, taken, rfl⟩

theorem Accounts.names {asked : List Query}
    (h : Accounts source dictionaries all done p asked outcomes)
    (hplaces : (done.map TableRow.place).Nodup) (kind : EntityKind) :
    (p.found.snapshot.collection kind).names =
      (done.filter fun row => row.fate dictionaries = .modeled kind).map (·.name) := by
  rw [← h.rows.names hplaces kind, ← h.entries kind]
  rfl

theorem Accounts.apart {asked : List Query}
    (h : Accounts source dictionaries all done p asked outcomes)
    (hplaces : (done.map TableRow.place).Nodup) :
    Apart (fun row kind => row.fate dictionaries = .modeled kind) done := by
  have hnodup (kind : EntityKind) : (done.filter fun row =>
      row.fate dictionaries = .modeled kind).Pairwise fun a b => a.name ≠ b.name := by
    rw [← List.pairwise_map (R := (· ≠ ·)), ← List.nodup_iff_pairwise_ne, ← h.names hplaces kind]
    exact (p.found.snapshot.collection kind).distinct
  simp only [List.pairwise_filter, decide_eq_true_iff] at hnodup
  exact List.pairwise_iff_getElem.mpr fun i j hi hj hij kind =>
    List.pairwise_iff_getElem.mp (hnodup kind) i j hi hj hij

/-- **A run over rows with distinct places ends well, the rows being apart, or it ends early at the
first row that repeats a name.** -/
theorem takeRows_outcome (hanswers : source.Answers) {rows : List TableRow}
    (hplaces : (rows.map TableRow.place).Nodup) (dictionaries : List DictionaryRow)
    (before : List Query) :
    ((∃ p after, Gives (rows.foldlM (takeRow source) (.start rows dictionaries)) before p after) ∧
      Apart (fun row kind => row.fate dictionaries = .modeled kind) rows) ∨
      ∃ done row kind,
        FirstRepeat (fun row kind => row.fate dictionaries = .modeled kind) rows done row kind ∧
          Fails (rows.foldlM (takeRow source) (.start rows dictionaries)) before
            (.duplicateName ⟨kind, row.name⟩) := by
  rcases gives_or_stops (rows.foldlM (takeRow source) (.start rows dictionaries)) before with
    ⟨p, after, hrun⟩ | ⟨cause, after, hstops⟩
  · obtain ⟨outcomes, haccounts⟩ := takeRows_accounts List.prefix_rfl hrun
    exact .inl ⟨⟨p, after, hrun⟩, haccounts.apart hplaces⟩
  · obtain ⟨done, row, rest, p, between, hrows, hrun, hrow⟩ := exists_of_stops_foldlM hstops
    have hnext : done ++ [row] <+: rows := ⟨rest, by rw [hrows, List.append_cons]; simp⟩
    obtain ⟨outcomes, haccounts⟩ := takeRows_accounts ((List.prefix_append _ _).trans hnext) hrun
    obtain ⟨kind, hkind, hmem, rfl⟩ := takeRow_of_fails hanswers (fails_iff.mpr ⟨after, hrow⟩)
    have hdone := hplaces.sublist (hnext.sublist.map _)
    rw [List.map_append, List.map_singleton, List.nodup_append] at hdone
    refine .inr ⟨done, row, kind, ⟨hnext, ?_, ?_, haccounts.apart hdone.1⟩,
      fails_iff.mpr ⟨after, hstops⟩⟩
    · have hfresh : row.place ∉ done.map TableRow.place := fun hmem =>
        hdone.2.2 _ hmem _ (List.mem_singleton_self _) rfl
      rw [← hkind, haccounts.left, TableRow.fate_unusedRows hfresh]
    · rw [haccounts.names hdone.1 kind, List.mem_map] at hmem
      obtain ⟨earlier, hearlier, hname⟩ := hmem
      rw [List.mem_filter, decide_eq_true_iff] at hearlier
      exact ⟨earlier, hearlier.1, hearlier.2, hname⟩

end Progress

/-! ## Whole introspections -/

section Outcome

variable {source : CatalogSource} {filter : Filter} {listed rows : List TableRow}
  {dictionaries left : List DictionaryRow} {first : List Query}

theorem introspect_eq_of_starts (hlisted : source.ask [] .tables = .ok listed)
    (hstart : Starts source (filter.select listed) left first) :
    introspect source filter =
      ((filter.select listed).foldlM (Progress.takeRow source)
        (.start (filter.select listed) left) >>= fun p => pure p.found).run.run first := by
  rw [introspect_eq hlisted, introspectionOf]
  cases hstart with
  | described hany given =>
    rw [if_pos hany, ExceptT.run_bind, StateT.run_bind, gives_answer given]
    rfl
  | plain hany =>
    rw [if_neg (by simp [hany])]
    rfl

theorem exists_starts (hdictionaries : source.ask [.tables] .dictionaries = .ok dictionaries)
    (rows : List TableRow) :
    ∃ left first, Starts source rows left first ∧
      ∀ row ∈ rows, row.fate left = row.fate dictionaries := by
  cases hany : rows.any (·.engine = "Dictionary") with
  | true => exact ⟨dictionaries, _, .described hany hdictionaries, fun _ _ => rfl⟩
  | false =>
    refine ⟨[], _, .plain hany, fun row hrow => TableRow.fate_of_ne ?_⟩
    simpa using List.any_eq_false.mp hany row hrow

/-- An introspection ends well, the chosen rows being apart, or it ends early at the first row that
repeats a name. -/
theorem introspect_of_answers (hanswers : source.Answers)
    (hlisted : source.ask [] .tables = .ok listed)
    (hdictionaries : source.ask [.tables] .dictionaries = .ok dictionaries)
    (hplaces : (listed.map TableRow.place).Nodup) :
    ((∃ found, (introspect source filter).1 = .ok found) ∧
        Apart (·.ModeledAs dictionaries) (filter.select listed)) ∨
      ∃ before row kind,
        FirstRepeat (·.ModeledAs dictionaries) (filter.select listed) before row kind ∧
          (introspect source filter).1 = .error (.duplicateName ⟨kind, row.name⟩) := by
  obtain ⟨left, first, hstart, hleft⟩ := exists_starts hdictionaries (filter.select listed)
  have hkinds : ∀ row ∈ filter.select listed, ∀ kind,
      row.fate left = .modeled kind ↔ row.ModeledAs dictionaries kind := fun row hrow kind => by
    rw [hleft row hrow, TableRow.modeledAs_iff]
  have hrows : ((filter.select listed).map TableRow.place).Nodup :=
    ((filter.select_perm listed).map _).nodup_iff.mpr
      (hplaces.sublist (List.filter_sublist.map _))
  rw [introspect_eq_of_starts hlisted hstart]
  rcases Progress.takeRows_outcome hanswers hrows left first with
    ⟨⟨p, after, hgives⟩, hapart⟩ | ⟨before, row, kind, hrepeat, hfails⟩
  · have hfound := hgives.bind (f := fun q => pure q.found) (gives_pure p.found after)
    exact .inl ⟨⟨p.found, congrArg Prod.fst hfound⟩, hapart.congr hkinds⟩
  · exact .inr ⟨before, row, kind, hrepeat.congr hkinds, hfails.bind _⟩

/-- **When an introspection ends early.** If every query is answered and the listed rows have
distinct places, an introspection ends well exactly when, within each kind, the names of the chosen
rows are distinct; otherwise it reports the first repeated name. A row that cannot be read, or that
nothing models, does not count for this: without it the same is found, but for its own failure. -/
theorem introspect_outcome (hanswers : source.Answers)
    (hlisted : source.ask [] .tables = .ok listed)
    (hdictionaries : source.ask [.tables] .dictionaries = .ok dictionaries)
    (hplaces : (listed.map TableRow.place).Nodup)
    (hchosen : rows.Perm (listed.filter filter.chooses))
    (hsorted : (rows.map TableRow.place).Pairwise InOrder) :
    ((∃ found, (introspect source filter).1 = .ok found) ↔
        Apart (·.ModeledAs dictionaries) rows) ∧
      (¬ Apart (·.ModeledAs dictionaries) rows →
        ∃ before row kind, FirstRepeat (·.ModeledAs dictionaries) rows before row kind ∧
          (introspect source filter).1 = .error (.duplicateName ⟨kind, row.name⟩)) ∧
      ∀ row ∈ listed, row.Traceless →
        ((introspect (source.without row) filter).1.map fun found =>
            (found.snapshot, found.statistics.dumpedCounts, found.statistics.failures)) =
          (introspect source filter).1.map fun found =>
            (found.snapshot, found.statistics.dumpedCounts,
              found.statistics.failures.filter fun f => (f.database, f.name) ≠ row.place) := by
  obtain rfl := Filter.eq_select hplaces hchosen hsorted
  have hwithout : ∀ row ∈ listed, row.Traceless → _ := fun row hrow htraceless =>
    (@introspect_without source filter row listed htraceless hrow hlisted hplaces).1
  rcases @introspect_of_answers source filter listed dictionaries hanswers hlisted
    hdictionaries hplaces with
    ⟨hfound, hapart⟩ | ⟨before, row, kind, hrepeat, hcause⟩
  · exact ⟨iff_of_true hfound hapart, fun h => absurd hapart h, hwithout⟩
  · refine ⟨iff_of_false ?_ hrepeat.not_apart, fun _ => ⟨before, row, kind, hrepeat, hcause⟩,
      hwithout⟩
    rintro ⟨found, hfound⟩
    rw [hcause] at hfound
    cases hfound

/-- Four rows: one that cannot be read, two tables of one name in two databases, and a view of this
name in between. -/
theorem introspect_outcome_events :
    let broken : TableRow :=
      { database := "a", name := "broken", engine := "MergeTree",
        engineFull := "MergeTree(1) ORDER BY id" }
    let catalog : Catalog :=
      { tables :=
          [broken,
            { database := "a", name := "events", engine := "MergeTree",
              engineFull := "MergeTree ORDER BY id" },
            { database := "b", name := "events", engine := "View", asSelect := "SELECT 1" },
            { database := "c", name := "events", engine := "MergeTree",
              engineFull := "MergeTree ORDER BY id" }] }
    (∃ before row kind,
        FirstRepeat (·.ModeledAs []) catalog.tables before row kind ∧
          (introspect catalog.source {}).1 = .error (.duplicateName ⟨kind, row.name⟩)) ∧
      (introspect catalog.source {}).1 = .error (.duplicateName ⟨.table, "events"⟩) ∧
      (introspect (catalog.source.without broken) {}).1 =
        .error (.duplicateName ⟨.table, "events"⟩) := by
  intro broken catalog
  have hplaces : (catalog.tables.map TableRow.place).Nodup := by decide
  have hselect : ({} : Filter).select catalog.tables = catalog.tables :=
    Filter.select_eq_self hplaces (by decide) (by decide)
  have hcause : (introspect catalog.source {}).1 = .error (.duplicateName ⟨.table, "events"⟩) := by
    rw [introspect_eq (show catalog.source.ask [] .tables = .ok catalog.tables from rfl), hselect]
    decide +kernel
  obtain ⟨hiff, hrepeat, hwithout⟩ := @introspect_outcome catalog.source {} catalog.tables
    catalog.tables [] catalog.source_answers rfl rfl hplaces (.of_eq (by decide)) (by decide)
  have hnot : ¬ Apart (·.ModeledAs []) catalog.tables := by
    rw [← hiff, hcause]
    rintro ⟨found, hfound⟩
    cases hfound
  have htraceless : broken.Traceless := by
    cases hparse : Engine.parse broken.engine broken.engineFull with
    | error cause => exact .unreadable ⟨.mergeTree, rfl⟩ hparse
    | ok engine =>
      have hfails : (Engine.parse broken.engine broken.engineFull).toOption = none := by
        decide +kernel
      rw [hparse] at hfails
      cases hfails
  refine ⟨hrepeat hnot, hcause, ?_⟩
  have hsame := hwithout broken (by decide) htraceless
  rw [hcause] at hsame
  cases hresult : (introspect (catalog.source.without broken) {}).1 with
  | ok found =>
    rw [hresult] at hsame
    cases hsame
  | error cause =>
    rw [hresult] at hsame
    exact congrArg Except.error (Except.error.inj hsame)

end Outcome

end SchemaPlan
