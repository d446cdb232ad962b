import SchemaPlan.Proofs.IntrospectionAccount

/-!
# Removal of rows

A row that cannot be read, or that nothing models, leaves no trace but a count and a failure of its
own: without it an introspection finds the same snapshot, takes the same rows and reports the same
other failures, or ends early in the same way.

* `CatalogSource.without`: a source that does not list a row.
* `TableRow.Traceless`: the rows that are not modeled because of their engine.
* `Progress.aside`: what was found, apart from what such a row adds; `Progress.map_takeRow_aside`:
  this is all that the rows after it depend on.
* `introspectionOf_remove`: the run over chosen rows.
* **`introspect_without`**: the whole introspection.
-/

namespace SchemaPlan

open Asking

/-- What a step makes of a part of the state depends on this part alone; then so does a run. -/
theorem Asking.map_foldlM {σ α : Type} {part : σ → σ} {step : σ → α → Asking σ}
    (h : ∀ s a, part <$> step s a = part <$> step (part s) a) (l : List α) (s : σ)
    (hpart : ∀ s, part (part s) = part s) :
    part <$> l.foldlM step s = part <$> l.foldlM step (part s) := by
  induction l generalizing s with
  | nil => simp [hpart]
  | cons a l ih =>
    calc part <$> (a :: l).foldlM step s
        = (part <$> step s a) >>= fun t => part <$> l.foldlM step t := by
          simp only [List.foldlM_cons, map_bind, bind_map_left, ← ih]
      _ = (part <$> step (part s) a) >>= fun t => part <$> l.foldlM step t := by rw [h]
      _ = part <$> (a :: l).foldlM step (part s) := by
          simp only [List.foldlM_cons, map_bind, bind_map_left, ← ih]

theorem Asking.run_map {α β : Type} (f : α → β) (m : Asking α) (before : List Query) :
    (f <$> m).run.run before = ((m.run.run before).1.map f, (m.run.run before).2) := by
  rw [ExceptT.run_map, StateT.run_map]
  rfl

/-- A source that does not list a row. -/
def CatalogSource.without (source : CatalogSource) (row : TableRow) : CatalogSource where
  ask before query :=
    match query with
    | .tables => (source.ask before .tables).map (List.filter (· ≠ row))
    | .dictionaries => source.ask before .dictionaries
    | .columns database table => source.ask before (.columns database table)
    | .indexes database table => source.ask before (.indexes database table)

/-- The engine of the row is not modeled, or its declaration cannot be read. -/
inductive TableRow.Traceless (row : TableRow) : Prop
  | unmodeled (view : row.engine ≠ "View") (materializedView : row.engine ≠ "MaterializedView")
      (dictionary : row.engine ≠ "Dictionary") (unsupported : ¬ row.IsSupported)
  | unreadable {cause : EngineError} (supported : row.IsSupported)
      (h : Engine.parse row.engine row.engineFull = .error cause)

/-- What was found, apart from the failures at a place and from what was skipped. -/
def Introspection.aside (place : String × String) (found : Introspection) : Introspection where
  snapshot := found.snapshot
  statistics :=
    { dumpedCounts := found.statistics.dumpedCounts
      failures := found.statistics.failures.filter fun f => (f.database, f.name) ≠ place }

namespace Progress

variable {source : CatalogSource} {row : TableRow} {place : String × String}

/-- The progress with what was found apart from a place. -/
def aside (place : String × String) (p : Progress) : Progress :=
  { p with found := p.found.aside place }

theorem aside_aside (place : String × String) (p : Progress) :
    (p.aside place).aside place = p.aside place := by
  simp [aside, Introspection.aside, List.filter_filter]

theorem map_taken_aside (p : Progress) (row : TableRow) (added : Except DuplicateName Snapshot) :
    aside place <$> p.taken row added = aside place <$> (p.aside place).taken row added := by
  cases added with
  | error cause => rfl
  | ok snapshot =>
    have hnext : aside place (p.adding row snapshot) =
        aside place ((p.aside place).adding row snapshot) := by
      simp [aside, Introspection.aside, adding, Statistics.recordDumped, List.filter_filter]
    exact congrArg (fun q => (pure q : Asking Progress)) hnext

/-- **What a row adds depends on what was found apart from the failures at a place.** -/
theorem map_takeRow_aside (source : CatalogSource) (p : Progress) (row : TableRow) :
    aside place <$> takeRow source p row = aside place <$> takeRow source (p.aside place) row := by
  unfold takeRow
  cases row.content with
  | view => exact map_taken_aside p row _
  | materializedView => exact map_taken_aside p row _
  | dictionary =>
    have hsame : (p.aside place).dictionaryOf? row = p.dictionaryOf? row := rfl
    dsimp only
    rw [hsame]
    cases p.dictionaryOf? row with
    | none => simp [aside_aside]
    | some d => exact map_taken_aside (p.withoutDictionary row) row _
  | table engine =>
    simp only [map_bind]
    refine congrArg _ (funext fun columns => congrArg _ (funext fun indexes => ?_))
    exact map_taken_aside p row _
  | unreadable cause =>
    simp [failed, aside, Introspection.aside, Statistics.recordFailure, List.filter_filter]
  | unmodeled =>
    simp [aside_aside]

/-- A row without a trace adds nothing but a failure at its place. -/
theorem map_takeRow_of_traceless (h : row.Traceless) (p : Progress) :
    aside row.place <$> takeRow source p row = pure (p.aside row.place) := by
  unfold takeRow
  cases h with
  | unmodeled view materializedView dictionary unsupported =>
    rw [TableRow.content_eq_unmodeled_iff.mpr ⟨view, materializedView, dictionary, unsupported⟩]
    exact map_pure _ _
  | unreadable supported h =>
    rw [TableRow.content_eq_unreadable_iff.mpr ⟨supported, h⟩]
    simp [failed, aside, Introspection.aside, Statistics.recordFailure, TableRow.place]

theorem map_takeRows_aside (rows : List TableRow) (p : Progress) :
    aside place <$> rows.foldlM (takeRow source) p =
      aside place <$> rows.foldlM (takeRow source) (p.aside place) :=
  map_foldlM (map_takeRow_aside source) rows p (aside_aside place)

/-- **A row without a trace changes nothing in what is found apart from its place.** -/
theorem map_takeRows_of_traceless (h : row.Traceless) (done rest : List TableRow) (p : Progress) :
    aside row.place <$> (done ++ row :: rest).foldlM (takeRow source) p =
      aside row.place <$> (done ++ rest).foldlM (takeRow source) p := by
  have hrow (q : Progress) : aside row.place <$> (row :: rest).foldlM (takeRow source) q =
      aside row.place <$> rest.foldlM (takeRow source) q := by
    calc aside row.place <$> (row :: rest).foldlM (takeRow source) q
        = (aside row.place <$> takeRow source q row) >>= fun t =>
            aside row.place <$> rest.foldlM (takeRow source) t := by
          simp only [List.foldlM_cons, map_bind, bind_map_left, ← map_takeRows_aside]
      _ = aside row.place <$> rest.foldlM (takeRow source) q := by
          rw [map_takeRow_of_traceless h, pure_bind, ← map_takeRows_aside]
  simp only [List.foldlM_append, map_bind, hrow]

end Progress

/-! ## Whole introspections -/

section Removal

variable {source : CatalogSource} {filter : Filter} {row : TableRow}

theorem TableRow.Traceless.ne_dictionary (h : row.Traceless) : row.engine ≠ "Dictionary" := by
  cases h with
  | unmodeled view materializedView dictionary unsupported => exact dictionary
  | unreadable supported h => exact supported.ne_dictionary

theorem introspectionOf_remove (h : row.Traceless) (done rest : List TableRow) :
    Introspection.aside row.place <$> introspectionOf source (done ++ row :: rest) =
      Introspection.aside row.place <$> introspectionOf source (done ++ rest) := by
  have hany : (done ++ row :: rest).any (·.engine = "Dictionary") =
      (done ++ rest).any (·.engine = "Dictionary") := by
    simp [h.ne_dictionary]
  have hstart (dictionaries : List DictionaryRow) :
      (Progress.start (done ++ row :: rest) dictionaries).aside row.place =
        (Progress.start (done ++ rest) dictionaries).aside row.place := by
    simp only [Progress.aside, Introspection.aside, Progress.dumpedCounts_start,
      Progress.failures_start]
    rfl
  have hrows (dictionaries : List DictionaryRow) :
      Progress.aside row.place <$> (done ++ row :: rest).foldlM (Progress.takeRow source)
          (.start (done ++ row :: rest) dictionaries) =
        Progress.aside row.place <$> (done ++ rest).foldlM (Progress.takeRow source)
          (.start (done ++ rest) dictionaries) := by
    rw [Progress.map_takeRows_of_traceless h, Progress.map_takeRows_aside, hstart,
      ← Progress.map_takeRows_aside]
  -- what is found apart from the place is a part of the progress apart from it
  have hfound (run : Asking Progress) :
      Introspection.aside row.place <$> (run >>= fun p => pure p.found) =
        (·.found) <$> Progress.aside row.place <$> run := by
    simp [Progress.aside]
  have hrun (dictionaries : List DictionaryRow) :=
    (hfound _).trans ((congrArg _ (hrows dictionaries)).trans (hfound _).symm)
  unfold introspectionOf
  rw [hany]
  split
  · rw [map_bind, map_bind]
    exact congrArg _ (funext hrun)
  · exact hrun []

/-- A row without a trace can as well not be listed, chosen or not. -/
theorem introspectionOf_without {listed : List TableRow} (h : row.Traceless)
    (hplaces : (listed.map TableRow.place).Nodup) :
    Introspection.aside row.place <$> introspectionOf source (filter.select listed) =
      Introspection.aside row.place <$>
        introspectionOf source (filter.select (listed.filter (· ≠ row))) := by
  rw [Filter.select_filter]
  have hselected : (filter.select listed).Nodup :=
    (filter.select_perm listed).nodup_iff.mpr (hplaces.of_map.filter _)
  by_cases hmem : row ∈ filter.select listed
  · obtain ⟨done, rest, hrows⟩ := List.append_of_mem hmem
    rw [hrows] at hselected ⊢
    have hrest : (done ++ row :: rest).filter (· ≠ row) = done ++ rest := by
      have hfresh := (List.nodup_middle.mp hselected)
      rw [List.nodup_cons] at hfresh
      rw [List.filter_append, List.filter_cons_of_neg (by simp), ← List.filter_append,
        List.filter_eq_self]
      exact fun other hother => by simpa using fun e : other = row => hfresh.1 (e ▸ hother)
    rw [introspectionOf_remove h, hrest]
  · rw [List.filter_eq_self.mpr]
    exact fun other hother => by simpa using fun e : other = row => hmem (e ▸ hother)

theorem ask_without {listed : List TableRow} (hlisted : source.ask [] .tables = .ok listed) :
    (source.without row).ask [] .tables = .ok (listed.filter (· ≠ row)) := by
  change (source.ask [] .tables).map (List.filter (· ≠ row)) = _
  rw [hlisted]
  rfl

theorem failures_without {listed : List TableRow} {found : Introspection} {asked : List Query}
    (hrow : row ∈ listed) (hlisted : source.ask [] .tables = .ok listed)
    (hplaces : (listed.map TableRow.place).Nodup)
    (hfound : introspect (source.without row) filter = (.ok found, asked)) :
    found.statistics.failures.filter (fun f => (f.database, f.name) ≠ row.place) =
      found.statistics.failures := by
  obtain ⟨remaining, dictionaries, first, p, outcomes, hreported, -, -, haccounts, rfl⟩ :=
    accounts_of_introspect hfound
  rw [ask_without hlisted, Except.ok.injEq] at hreported
  subst hreported
  rw [List.filter_eq_self]
  intro f hf
  rw [decide_eq_true_iff]
  intro hplace
  -- the failure is at the place of another row that is listed, too
  have hmem : (f.database, f.name) ∈
      (filter.select (listed.filter (· ≠ row))).map TableRow.place := by
    rw [haccounts.failures] at hf
    exact haccounts.rows.failures_sublist.subset (List.mem_map_of_mem hf)
  obtain ⟨other, hother, hotherPlace⟩ := List.mem_map.mp hmem
  have hkept := (TableRow.mem_select_iff.mp hother).1
  rw [List.mem_filter, decide_eq_true_iff] at hkept
  exact hkept.2 (List.inj_on_of_nodup_map hplaces hkept.1 hrow (hotherPlace.trans hplace))

/-- **Without a row that leaves no trace**, an introspection finds the same snapshot, takes the same
rows and reports the same other failures, or ends early for the same reason. It asks the same
queries. -/
theorem introspect_without {listed : List TableRow} (h : row.Traceless) (hrow : row ∈ listed)
    (hlisted : source.ask [] .tables = .ok listed)
    (hplaces : (listed.map TableRow.place).Nodup) :
    ((introspect (source.without row) filter).1.map fun found =>
        (found.snapshot, found.statistics.dumpedCounts, found.statistics.failures)) =
      ((introspect source filter).1.map fun found =>
        (found.snapshot, found.statistics.dumpedCounts,
          found.statistics.failures.filter fun f => (f.database, f.name) ≠ row.place)) ∧
      (introspect (source.without row) filter).2 = (introspect source filter).2 := by
  have hruns := congrArg (fun m : Asking Introspection => m.run.run [.tables])
    (@introspectionOf_without source filter row listed h hplaces)
  simp only [run_map] at hruns
  have hsame : introspectionOf (source.without row) = introspectionOf source := rfl
  rw [← hsame, ← introspect_eq (ask_without hlisted), hsame, ← introspect_eq hlisted] at hruns
  obtain ⟨hfound, hasked⟩ := Prod.mk.inj hruns
  refine ⟨?_, hasked.symm⟩
  calc (introspect (source.without row) filter).1.map (fun found =>
        (found.snapshot, found.statistics.dumpedCounts, found.statistics.failures))
      = ((introspect (source.without row) filter).1.map (Introspection.aside row.place)).map
          fun found => (found.snapshot, found.statistics.dumpedCounts,
            found.statistics.failures) := by
        rcases hresult : introspect (source.without row) filter with ⟨cause | found, asked⟩
        · rfl
        · have hfailures := failures_without hrow hlisted hplaces hresult
          exact congrArg (fun f => Except.ok (found.snapshot, found.statistics.dumpedCounts, f))
            hfailures.symm
    _ = ((introspect source filter).1.map (Introspection.aside row.place)).map
          fun found => (found.snapshot, found.statistics.dumpedCounts,
            found.statistics.failures) := by
        rw [hfound]
    _ = _ := by
        cases (introspect source filter).1 <;> rfl

end Removal

end SchemaPlan
