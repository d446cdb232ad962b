import SchemaPlan.Catalog.Introspect
import SchemaPlan.Proofs.FirstPlaces

/-!
# Destinations of materialized views

Where a materialized view stores its rows, as it is read from the query that created the view. The
clause that says so stands right after the name, but the word `TO` is searched up to the select
query, and the clauses of an engine have that word as well.

* `destinationIn?_eq_some_iff`: the destination that a query shows.
* `ViewQuery`: the parts of a query that creates a materialized view; `ViewQuery.WellFormed.upTo_text`:
  what of it is searched.
* `ViewQuery.destination_of_target`, `ViewQuery.destination_of_clauses`: what is read with a `TO`
  clause and without one.
* **`destination_eq_target_iff`**: exactly when the destination is the one of the clause.
* `destination_of_engine_clause`: a clause of the engine is taken for it.
-/

namespace SchemaPlan

/-! ## Queries -/

/-- A text without its backticks. -/
def withoutBackticks (text : String) : String := String.ofList (text.toList.filter (· ≠ '\x60'))

/-- The destination of a query: the first word after the first ` TO ` before the first ` AS `. -/
theorem destinationIn?_eq_some_iff {query d : String} : destinationIn? query = some d ↔
    ∃ before after word, FirstPlace " TO ".toList (upTo " AS ".toList query.toList) before after ∧
      FirstWord after word ∧ d = withoutBackticks (String.ofList word) ∧ d ≠ "" := by
  simp only [destinationIn?, Option.bind_eq_bind, Option.bind_eq_some_iff, Prod.exists,
    cutAt?_eq_some_iff, firstWord?_eq_some_iff, stated?, withoutBackticks, String.toList_ofList]
  refine exists_congr fun before => exists_congr fun after => ?_
  constructor
  · rintro ⟨hplace, word, hword, hstated⟩
    split_ifs at hstated with hempty
    cases hstated
    exact ⟨word, hplace, hword, rfl, fun h => hempty (String.isEmpty_iff.mpr h)⟩
  · rintro ⟨word, hplace, hword, rfl, hne⟩
    exact ⟨hplace, word, hword, if_neg fun h => hne (String.isEmpty_iff.mp h)⟩

/-- A name `database.table`, neither part empty, without blanks. Backticks may stand in it. -/
structure IsQualified (name : String) : Prop where
  blankless : ∀ c ∈ name.toList, isBlank c = false
  parts : ∃ database table, name.toList = database ++ '.' :: table ∧ database ≠ [] ∧ table ≠ []

namespace IsQualified

variable {name : String}

theorem dot_mem (h : IsQualified name) : '.' ∈ name.toList := by
  obtain ⟨database, table, hname, -⟩ := h.parts
  simp [hname]

theorem spaceless (h : IsQualified name) : ' ' ∉ name.toList := fun hmem => by
  have hspace := h.blankless ' ' hmem
  revert hspace
  decide

theorem ne (h : IsQualified name) {word : List Char} (hword : '.' ∉ word) : name.toList ≠ word :=
  fun e => hword (e ▸ h.dot_mem)

theorem withoutBackticks_ne (h : IsQualified name) : withoutBackticks name ≠ "" := by
  intro hempty
  have hdot : '.' ∈ (withoutBackticks name).toList := by
    simpa [withoutBackticks] using h.dot_mem
  rw [hempty] at hdot
  cases hdot

theorem firstWord (h : IsQualified name) {rest : List Char} (hrest : StartsWithSpace rest) :
    FirstWord (name.toList ++ rest) name.toList where
  nonempty := List.ne_nil_of_mem h.dot_mem
  blankless := h.blankless
  split := ⟨[], rest, rfl, by simp, fun c hc => hrest c hc ▸ by decide⟩

end IsQualified

/-- The parts of a query that creates a materialized view. -/
structure ViewQuery where
  name : String
  /-- The table of the `TO` clause. -/
  target : Option String := none
  /-- What stands between that and the select query: columns, an engine with its clauses. -/
  clauses : String := ""
  select : String

namespace ViewQuery

variable {q : ViewQuery}

/-- The words that name the destination. -/
def targetClause (q : ViewQuery) : String :=
  match q.target with
  | none => ""
  | some target => " TO " ++ target

/-- The whole statement. -/
def text (q : ViewQuery) : String :=
  "CREATE MATERIALIZED VIEW " ++ q.name ++ q.targetClause ++ q.clauses ++ " AS " ++ q.select

/-- The parts are what they are meant to be. -/
structure WellFormed (q : ViewQuery) : Prop where
  name : IsQualified q.name
  target : ∀ target ∈ q.target, IsQualified target
  starts : StartsWithSpace q.clauses.toList
  selectless : ¬ " AS ".toList <:+: q.clauses.toList

/-- The clauses as far as they stand before the first ` AS `: a last word `AS` is the first one's. -/
def seenClauses (q : ViewQuery) : List Char :=
  (q.clauses.toList.dropSuffix? " AS".toList).getD q.clauses.toList

/-- The clauses have a word behind their first ` TO `, which is `d` without backticks. -/
def ShowsDestination (q : ViewQuery) (d : String) : Prop :=
  ∃ before after word, FirstPlace " TO ".toList q.seenClauses before after ∧
    FirstWord after word ∧ d = withoutBackticks (String.ofList word) ∧ d ≠ ""

/-- The first ` AS ` is the one before the select query, or the clauses end in the word. -/
theorem WellFormed.clauses_before (h : q.WellFormed) {earlier later : List Char}
    (hplace : q.clauses.toList ++ (" AS ".toList ++ q.select.toList) =
      earlier ++ (" AS ".toList ++ later)) :
    q.clauses.toList.length ≤ earlier.length ∨ q.clauses.toList = earlier ++ " AS".toList := by
  rcases List.append_eq_append_iff.mp hplace with ⟨part, hearlier, -⟩ | ⟨part, hclauses, hpart⟩
  · left
    rw [hearlier, List.length_append]
    omega
  have hmark : " AS ".toList = [' ', 'A', 'S', ' '] := by decide
  rw [hmark] at hpart
  -- how far the first mark reaches into the other one
  rcases part with _ | ⟨a, _ | ⟨b, _ | ⟨c, _ | ⟨d, part⟩⟩⟩⟩
  · exact .inl (by simp [hclauses])
  · simp at hpart
  · simp at hpart
  · simp only [List.cons_append, List.nil_append, List.cons.injEq] at hpart
    obtain ⟨rfl, rfl, rfl, -⟩ := hpart
    exact .inr hclauses
  · simp only [List.cons_append, List.nil_append, List.cons.injEq] at hpart
    obtain ⟨rfl, rfl, rfl, rfl, -⟩ := hpart
    refine absurd ⟨earlier, part, ?_⟩ h.selectless
    rw [hclauses, hmark, List.append_assoc]
    rfl

theorem WellFormed.upTo_clauses (h : q.WellFormed) :
    upTo " AS ".toList (q.clauses.toList ++ (" AS ".toList ++ q.select.toList)) =
      q.seenClauses := by
  unfold seenClauses
  cases hsuffix : q.clauses.toList.dropSuffix? " AS".toList with
  | none =>
    refine upTo_of_firstPlace ⟨rfl, fun earlier later hplace => ?_⟩
    refine (h.clauses_before hplace).resolve_right fun hclauses => ?_
    rw [List.dropSuffix?_eq_some_iff.mpr ⟨_, hclauses, beq_self_eq_true _⟩] at hsuffix
    cases hsuffix
  | some clauses =>
    obtain ⟨suffix, hclauses, hsame⟩ := List.dropSuffix?_eq_some_iff.mp hsuffix
    obtain rfl := eq_of_beq hsame
    have hsplit : q.clauses.toList ++ (" AS ".toList ++ q.select.toList) =
        clauses ++ (" AS ".toList ++ ("AS ".toList ++ q.select.toList)) := by
      rw [hclauses]
      simp
    rw [Option.getD_some]
    refine upTo_of_firstPlace ⟨hsplit, fun earlier later hplace => ?_⟩
    rcases h.clauses_before hplace with hlength | hearlier
    · rw [hclauses, List.length_append] at hlength
      omega
    · rw [(List.append_inj' (hclauses.symm.trans hearlier) rfl).1]

/-- The words before the `TO` clause. -/
def opening (q : ViewQuery) : List (List Char) :=
  ["MATERIALIZED".toList, "VIEW".toList, q.name.toList]

/-- The words of the `TO` clause. -/
def targetWords (q : ViewQuery) : List (List Char) :=
  match q.target with
  | none => []
  | some target => ["TO".toList, target.toList]

theorem toList_text (q : ViewQuery) : q.text.toList =
    "CREATE".toList ++ (afterSpaces (q.opening ++ q.targetWords) ++
      (q.clauses.toList ++ (" AS ".toList ++ q.select.toList))) := by
  unfold text targetClause opening targetWords
  cases q.target <;> simp [afterSpaces]

namespace WellFormed

theorem opening_ne (h : q.WellFormed) {key : List Char} (hkey : key ∈ ["AS".toList, "TO".toList]) :
    ∀ word ∈ q.opening, ' ' ∉ word ∧ word ≠ key := by
  have hne : "MATERIALIZED".toList ≠ key ∧ "VIEW".toList ≠ key ∧ '.' ∉ key := by
    revert key
    decide
  simp only [opening, List.forall_mem_cons, List.not_mem_nil, false_imp_iff, implies_true,
    and_true]
  exact ⟨⟨by decide, hne.1⟩, ⟨by decide, hne.2.1⟩, h.name.spaceless, h.name.ne hne.2.2⟩

theorem targetWords_ne (h : q.WellFormed) :
    ∀ word ∈ q.targetWords, ' ' ∉ word ∧ word ≠ "AS".toList := by
  unfold targetWords
  cases htarget : q.target with
  | none => simp
  | some target =>
    have hname := h.target target htarget
    simp only [List.forall_mem_cons, List.not_mem_nil, false_imp_iff, implies_true, and_true]
    exact ⟨by decide, hname.spaceless, hname.ne (by decide)⟩

theorem upTo_text (h : q.WellFormed) : upTo " AS ".toList q.text.toList =
    "CREATE".toList ++ (afterSpaces (q.opening ++ q.targetWords) ++ q.seenClauses) := by
  have hwords : ∀ word ∈ q.opening ++ q.targetWords, ' ' ∉ word ∧ word ≠ "AS".toList :=
    List.forall_mem_append.mpr ⟨h.opening_ne (by simp), h.targetWords_ne⟩
  have hstarts : StartsWithSpace (q.clauses.toList ++ (" AS ".toList ++ q.select.toList)) := by
    intro c hc
    cases hclauses : q.clauses.toList with
    | nil =>
      rw [hclauses] at hc
      simpa using hc.symm
    | cons d clauses =>
      refine h.starts c ?_
      rw [hclauses] at hc ⊢
      exact hc
  rw [toList_text, ← h.upTo_clauses]
  exact upTo_after_words (by decide) (by decide) hwords hstarts

theorem starts_seenClauses (h : q.WellFormed) : StartsWithSpace q.seenClauses := by
  unfold seenClauses
  cases hsuffix : q.clauses.toList.dropSuffix? " AS".toList with
  | none => exact h.starts
  | some clauses =>
    obtain ⟨suffix, hclauses, -⟩ := List.dropSuffix?_eq_some_iff.mp hsuffix
    exact h.starts.of_prefix ⟨suffix, hclauses.symm⟩

theorem firstPlace_iff (h : q.WellFormed) {cs after : List Char} (hcs : StartsWithSpace cs) :
    (∃ before, FirstPlace " TO ".toList ("CREATE".toList ++ (afterSpaces q.opening ++ cs)) before
      after) ↔ ∃ before, FirstPlace " TO ".toList cs before after := by
  have hcut : cutAt? (spaced "TO".toList)
      ("CREATE".toList ++ (afterSpaces q.opening ++ cs)) =
        (cutAt? (spaced "TO".toList) cs).map fun p =>
          ("CREATE".toList ++ (afterSpaces q.opening ++ p.1), p.2) :=
    cutAt?_after_words (by decide) (by decide) (h.opening_ne (by decide)) hcs
  rw [show " TO ".toList = spaced "TO".toList from rfl]
  simp only [← cutAt?_eq_some_iff, hcut]
  rcases cutAt? (spaced "TO".toList) cs with _ | ⟨first, rest⟩ <;> simp

end WellFormed

/-- With a `TO` clause its table is the destination. -/
theorem destination_of_target (h : q.WellFormed) {target : String} (htarget : q.target = some target) :
    destinationIn? q.text = some (withoutBackticks target) := by
  have hname := h.target target htarget
  have hwords : afterSpaces (q.opening ++ q.targetWords) ++ q.seenClauses =
      afterSpaces q.opening ++ (" TO ".toList ++ (target.toList ++ q.seenClauses)) := by
    simp [afterSpaces, targetWords, htarget]
  have hstarts : StartsWithSpace (" TO ".toList ++ (target.toList ++ q.seenClauses)) := by
    simp [StartsWithSpace]
  obtain ⟨before, hplace⟩ := (h.firstPlace_iff hstarts).mpr
    ⟨[], cutAt?_eq_some_iff.mp (cutAt?_spaced "TO".toList (target.toList ++ q.seenClauses))⟩
  rw [destinationIn?_eq_some_iff, h.upTo_text, hwords]
  exact ⟨before, _, _, hplace, hname.firstWord h.starts_seenClauses,
    by rw [String.ofList_toList], hname.withoutBackticks_ne⟩

/-- Without a `TO` clause the destination is what the other clauses show. -/
theorem destination_of_clauses (h : q.WellFormed) (htarget : q.target = none) (d : String) :
    destinationIn? q.text = some d ↔ q.ShowsDestination d := by
  have hwords : q.opening ++ q.targetWords = q.opening := by
    simp [targetWords, htarget]
  have hplaces (after : List Char) :
      (∃ before, FirstPlace " TO ".toList
        ("CREATE".toList ++ (afterSpaces q.opening ++ q.seenClauses)) before after) ↔
        ∃ before, FirstPlace " TO ".toList q.seenClauses before after :=
    h.firstPlace_iff h.starts_seenClauses
  rw [destinationIn?_eq_some_iff, h.upTo_text, hwords, ShowsDestination]
  constructor
  · rintro ⟨before, after, word, hplace, hword⟩
    obtain ⟨before', hplace'⟩ := (hplaces after).mp ⟨before, hplace⟩
    exact ⟨before', after, word, hplace', hword⟩
  · rintro ⟨before, after, word, hplace, hword⟩
    obtain ⟨before', hplace'⟩ := (hplaces after).mpr ⟨before, hplace⟩
    exact ⟨before', after, word, hplace', hword⟩

end ViewQuery

/-- **The destination of a created view.** With a `TO` clause it is the table of the clause. Without
one it is the first word behind a ` TO ` of the other clauses, if there is such a word; so it is what
the clause says exactly if there is a clause or no such word. -/
theorem destination_eq_target_iff {q : ViewQuery} (h : q.WellFormed) {r : TableRow}
    (hquery : r.createTableQuery = q.text) :
    (∀ target, q.target = some target →
      r.materializedView.destinationTable = some (withoutBackticks target)) ∧
    (q.target = none → ∀ d,
      r.materializedView.destinationTable = some d ↔ q.ShowsDestination d) ∧
    (r.materializedView.destinationTable = q.target.map withoutBackticks ↔
      (q.target = none → ∀ d, ¬ q.ShowsDestination d)) := by
  have hdestination : r.materializedView.destinationTable = destinationIn? q.text :=
    congrArg destinationIn? hquery
  rw [hdestination]
  refine ⟨fun target htarget => ViewQuery.destination_of_target h htarget,
    fun htarget d => ViewQuery.destination_of_clauses h htarget d, ?_⟩
  cases htarget : q.target with
  | some target => simp [ViewQuery.destination_of_target h htarget]
  | none =>
    rw [Option.map_none, Option.eq_none_iff_forall_ne_some]
    simp only [ne_eq, ViewQuery.destination_of_clauses h htarget, true_imp_iff]

/-- A target in backticks, and a select query with the searched words. -/
theorem destination_eq_target_daily :
    let q : ViewQuery :=
      { name := "db.mv", target := some "db.\x60daily\x60", clauses := " (\x60n\x60 UInt64)"
        select := "SELECT 1 AS n TO x" }
    let r : TableRow :=
      { database := "db", name := "mv", engine := "MaterializedView", createTableQuery := q.text }
    q.WellFormed ∧ r.createTableQuery = q.text ∧
      r.materializedView.destinationTable = some "db.daily" := by
  intro q r
  have hname : IsQualified q.name :=
    ⟨List.forall_mem_iff_forall_getElem.mpr (by decide), "db".toList, "mv".toList, by decide⟩
  have htarget : IsQualified "db.\x60daily\x60" :=
    ⟨List.forall_mem_iff_forall_getElem.mpr (by decide), "db".toList, "\x60daily\x60".toList,
      by decide⟩
  have h : q.WellFormed :=
    ⟨hname, fun target htext => by cases htext; exact htarget, by decide, by decide⟩
  exact ⟨h, rfl, (destination_eq_target_iff h rfl).1 _ rfl⟩

/-- **A clause of the engine is taken for the destination**: a view that stores its rows itself moves
old ones to another disk. -/
theorem destination_of_engine_clause :
    let q : ViewQuery :=
      { name := "db.mv"
        clauses := " (\x60d\x60 Date) ENGINE = MergeTree ORDER BY d TTL d TO DISK 'cold'"
        select := "SELECT today() AS d" }
    let r : TableRow :=
      { database := "db", name := "mv", engine := "MaterializedView", createTableQuery := q.text }
    q.WellFormed ∧ q.target = none ∧ r.materializedView.destinationTable = some "DISK" := by
  intro q r
  have hname : IsQualified q.name :=
    ⟨List.forall_mem_iff_forall_getElem.mpr (by decide), "db".toList, "mv".toList, by decide⟩
  have h : q.WellFormed := ⟨hname, nofun, by decide, by decide +kernel⟩
  have hdestination : r.materializedView.destinationTable = some "DISK" := by decide +kernel
  exact ⟨h, rfl, hdestination⟩

end SchemaPlan
