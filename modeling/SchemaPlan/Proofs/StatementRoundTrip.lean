import SchemaPlan.Plan.Statement
import SchemaPlan.Proofs.SettingLists
import SchemaPlan.Proofs.EngineRoundTrip
import SchemaPlan.Proofs.FirstPlaces

/-!
# Create statements read back

A server reports the engine of a table as the text after `) ENGINE = ` in the statement that
creates the table, on one line. Reading that text gives the engine, the lifetime and the settings
of the table back.

* `onOneLine`: a text with spaces for its line breaks. Words of one line are found where they were
  (`findWordFrom?_onOneLine`).
* `Table.clauseList`, `Table.toList_engineText`: the text of the engine as a row of clauses.
* `Table.Reparsable`: what the texts of a table have to be.
* **`Table.parse_reportedEngine`**: the whole reading.
-/

namespace SchemaPlan

open Sql

/-! ## Texts on one line -/

/-- A space for a line break. -/
def spaceForBreak (c : Char) : Char := if c = '\n' then ' ' else c

/-- A text with spaces for its line breaks. -/
def onOneLine (cs : List Char) : List Char := cs.map spaceForBreak

variable {cs ds : List Char} {c : Char} {s : ScanState}

theorem onOneLine_append (cs ds : List Char) :
    onOneLine (cs ++ ds) = onOneLine cs ++ onOneLine ds := List.map_append

theorem onOneLine_eq_self (h : '\n' ∉ cs) : onOneLine cs = cs := by
  refine (List.map_congr_left fun c hc => ?_).trans (List.map_id cs)
  refine if_neg ?_
  rintro rfl
  exact h hc

theorem isBlank_spaceForBreak (c : Char) : isBlank (spaceForBreak c) = isBlank c := by
  unfold spaceForBreak
  split
  · rename_i h
    subst h
    decide
  · rfl

namespace Sql

theorem step_spaceForBreak (h : s.Marked) (c : Char) : s.step (spaceForBreak c) = s.step c := by
  unfold spaceForBreak
  split
  · rename_i hc
    subst hc
    obtain ⟨mode, depth⟩ := s
    cases mode with
    | escaped mark => rfl
    | quoted mark =>
      -- a quote mark opened the literal, so that neither character closes it
      have hspace : ' ' ≠ mark := by
        rintro rfl
        exact absurd h (by simp [ScanState.Marked, isQuoteMark])
      have hbreak : '\n' ≠ mark := by
        rintro rfl
        exact absurd h (by simp [ScanState.Marked, isQuoteMark])
      simp [ScanState.step, hspace, hbreak]
    | code => rfl
  · rfl

theorem run_onOneLine (h : s.Marked) : s.run (onOneLine cs) = s.run cs := by
  induction cs generalizing s with
  | nil => rfl
  | cons c cs ih =>
    have hstep := step_spaceForBreak h c
    rw [ScanState.run_cons, ← ih (h.step c), ← hstep]
    rfl

theorem Balanced.onOneLine (h : Balanced cs) : Balanced (onOneLine cs) := fun depth => by
  have hmarked : (ScanState.mk .code depth).Marked := trivial
  rw [run_onOneLine hmarked, h]

theorem exposes_spaceForBreak (s : ScanState) (c : Char) :
    s.exposes (spaceForBreak c) = s.exposes c := by
  unfold spaceForBreak
  split
  · rename_i h
    subst h
    rfl
  · rfl

theorem isPrefixOf?_onOneLine {word : List Char} (hword : ∀ c ∈ word, isBlank c = false)
    (cs : List Char) :
    word.isPrefixOf? (onOneLine cs) = (word.isPrefixOf? cs).map onOneLine := by
  induction word generalizing cs with
  | nil => rfl
  | cons c word ih =>
    cases cs with
    | nil => rfl
    | cons d cs =>
      have hc := hword c List.mem_cons_self
      -- `c` is no blank, so that it is neither the line break nor the space for it
      have hsame : (c == spaceForBreak d) = (c == d) := by
        rw [Bool.eq_iff_iff, beq_iff_eq, beq_iff_eq]
        unfold spaceForBreak
        split
        · rename_i h
          subst h
          exact iff_of_false (ne_of_isBlank (by decide) hc).symm (ne_of_isBlank (by decide) hc).symm
        · rfl
      have htail := ih (fun e he => hword e (List.mem_cons_of_mem _ he)) cs
      change (if c == spaceForBreak d then word.isPrefixOf? (onOneLine cs) else none) =
        Option.map onOneLine (if c == d then word.isPrefixOf? cs else none)
      rw [hsame, htail]
      split <;> rfl

theorem startsWithWord_onOneLine {word : List Char} (hword : ∀ c ∈ word, isBlank c = false)
    (cs : List Char) : startsWithWord word (onOneLine cs) = startsWithWord word cs := by
  rw [startsWithWord, startsWithWord, isPrefixOf?_onOneLine hword]
  cases word.isPrefixOf? cs with
  | none => rfl
  | some rest =>
    cases rest with
    | nil => rfl
    | cons d rest => exact isBlank_spaceForBreak d

/-- A word without blanks is found on one line where it was found before. -/
theorem findWordFrom?_onOneLine {word : List Char} (hword : ∀ c ∈ word, isBlank c = false)
    {before before' : Option Char} (hs : s.Marked)
    (hbefore : before'.any isBlank = before.any isBlank) :
    findWordFrom? word s before' (onOneLine cs) = findWordFrom? word s before cs := by
  induction cs generalizing s before before' with
  | nil => rfl
  | cons c cs ih =>
    have hhere := startsWithWord_onOneLine hword (c :: cs)
    have htail : findWordFrom? word (s.step c) (some (spaceForBreak c)) (onOneLine cs) =
        findWordFrom? word (s.step c) (some c) cs := ih (hs.step c) (isBlank_spaceForBreak c)
    change findWordFrom? word s before' (spaceForBreak c :: onOneLine cs) = _
    rw [findWordFrom?, findWordFrom?, exposes_spaceForBreak, hbefore, step_spaceForBreak hs, htail]
    change startsWithWord word (spaceForBreak c :: onOneLine cs) = _ at hhere
    rw [hhere]

end Sql

/-! ## The reported engine text -/

/-- The mark before the engine in a create statement. -/
def engineMark : List Char := ") ENGINE = ".toList

/-- The optional argument of an engine, if it has one. -/
def Engine.optional? : Engine → Option String
  | replacingMergeTree versionColumn => versionColumn
  | replicatedReplacingMergeTree _ _ versionColumn => versionColumn
  | distributed _ _ _ shardingKey => shardingKey
  | _ => none

/-- No optional argument of the engine is empty. -/
def Engine.Stated (e : Engine) : Prop := e.optional? ≠ some ""

instance (e : Engine) : Decidable e.Stated := inferInstanceAs (Decidable (e.optional? ≠ some ""))

theorem bind_stated?_eq_some_iff {text : Option String} {s : String} :
    text.bind stated? = some s ↔ text = some s ∧ s ≠ "" := by
  rw [Option.bind_eq_some_iff]
  constructor
  · rintro ⟨e, rfl, he⟩
    have hne : e ≠ "" := by
      rintro rfl
      cases he
    rw [stated?_of_ne hne] at he
    obtain rfl := Option.some.inj he
    exact ⟨rfl, hne⟩
  · rintro ⟨rfl, hne⟩
    exact ⟨s, rfl, stated?_of_ne hne⟩

theorem bind_stated?_of_ne {text : Option String} (h : text ≠ some "") :
    text.bind stated? = text := by
  cases text with
  | none => rfl
  | some s => exact bind_stated?_eq_some_iff.mpr ⟨rfl, fun e => h (congrArg some e)⟩

theorem Engine.readBack_of_stated {e : Engine} (h : e.Stated) : e.readBack = e := by
  cases e with
  | replacingMergeTree versionColumn => exact congrArg _ (bind_stated?_of_ne h)
  | replicatedReplacingMergeTree zooPath replicaName versionColumn =>
    exact congrArg _ (bind_stated?_of_ne h)
  | distributed clusterName remoteDatabase remoteTable shardingKey =>
    exact congrArg _ (bind_stated?_of_ne h)
  | _ => rfl

namespace Table

/-- A create statement up to the mark before the engine. -/
def createHead (t : Table) : String :=
  "CREATE TABLE " ++ t.database.getD "default" ++ "." ++ t.name ++ " (\n" ++
    ",\n".intercalate t.definitions ++ "\n"

/-- The engine text that a server reports for a table: what follows the first mark in its create
statement, on one line. -/
def reportedEngine? (t : Table) : Option String :=
  (cutAt? engineMark t.createStatement.toList).map fun parts =>
    String.ofList (onOneLine parts.2)

/-- What is needed to read the reported engine text of a table back. -/
structure Reparsable (t : Table) : Prop where
  unmarked : ¬engineMark <:+: t.createHead.toList
  engine_wellFormed : t.engine.WellFormed
  engine_stated : t.engine.Stated
  engine_line : '\n' ∉ t.engine.render.toList
  partitionBy_text : ∀ e ∈ t.partitionBy, IsClauseText e.toList
  orderBy_text : ∀ e ∈ t.orderBy, IsClauseText e.toList
  ttl_text : ∀ e ∈ t.ttl, IsClauseText e.toList ∧ trim e.toList = e.toList ∧ '\n' ∉ e.toList
  settings_text : ∀ p ∈ t.settings.pairs,
    IsSetting p.1.toList p.2.toList ∧ '\n' ∉ p.1.toList ∧ '\n' ∉ p.2.toList

instance (t : Table) : Decidable t.Reparsable :=
  decidable_of_iff (¬engineMark <:+: t.createHead.toList ∧ t.engine.WellFormed ∧ t.engine.Stated ∧
      '\n' ∉ t.engine.render.toList ∧ (∀ e ∈ t.partitionBy, IsClauseText e.toList) ∧
      (∀ e ∈ t.orderBy, IsClauseText e.toList) ∧
      (∀ e ∈ t.ttl, IsClauseText e.toList ∧ trim e.toList = e.toList ∧ '\n' ∉ e.toList) ∧
      ∀ p ∈ t.settings.pairs,
        IsSetting p.1.toList p.2.toList ∧ '\n' ∉ p.1.toList ∧ '\n' ∉ p.2.toList)
    ⟨fun ⟨hmark, hengine, hstated, hline, hpartition, horder, httl, hsettings⟩ =>
        ⟨hmark, hengine, hstated, hline, hpartition, horder, httl, hsettings⟩,
      fun h => ⟨h.unmarked, h.engine_wellFormed, h.engine_stated, h.engine_line,
        h.partitionBy_text, h.orderBy_text, h.ttl_text, h.settings_text⟩⟩

/-- The clause of an optional text. -/
def optionalClause (k : Clause) (text : Option String) : List (Clause × List Char) :=
  match text.bind stated? with
  | none => []
  | some text => [(k, text.toList)]

/-- The clause of a sorting key. -/
def sortingClauses : List String → List (Clause × List Char)
  | [] => []
  | [key] => [(.orderBy, key.toList)]
  | keys => [(.orderBy, '(' :: ([',', ' '].intercalate (keys.map String.toList) ++ [')']))]

/-- The clause of some settings. -/
def settingsClauses (settings : Keyed String) : List (Clause × List Char) :=
  if settings.isEmpty then [] else [(.settings, assignments settings.pairs)]

/-- The clauses of a table, each with its text. -/
def clauseList (t : Table) : List (Clause × List Char) :=
  optionalClause .partitionBy t.partitionBy ++ (sortingClauses t.orderBy ++
    (optionalClause .ttl t.ttl ++ settingsClauses t.settings))

/-- Clauses as they are written, each on a line of its own. -/
def writtenClauses (l : List (Clause × List Char)) : List Char :=
  l.flatMap fun p => '\n' :: (p.1.keyword.toList ++ ' ' :: p.2)

theorem toList_optionalPart {lead : String} {k : Clause} (text : Option String)
    (hlead : lead.toList = '\n' :: (k.keyword.toList ++ [' '])) :
    (optionalPart lead text).toList = writtenClauses (optionalClause k text) := by
  rw [optionalPart, optionalClause]
  cases text.bind stated? with
  | none => rfl
  | some s => simp [writtenClauses, hlead]

theorem toList_sortingClause (t : Table) :
    t.sortingClause.toList = writtenClauses (sortingClauses t.orderBy) := by
  have hkeyword : "\nORDER BY ".toList = '\n' :: (Clause.orderBy.keyword.toList ++ [' ']) := rfl
  have hopen : "\nORDER BY (".toList = '\n' :: (Clause.orderBy.keyword.toList ++ [' ', '(']) := rfl
  rw [sortingClause]
  cases t.orderBy with
  | nil => rfl
  | cons key keys =>
    cases keys with
    | nil => simp [sortingClauses, writtenClauses, hkeyword]
    | cons key' keys =>
      simp [sortingClauses, writtenClauses, hopen, String.toList_intercalate]

theorem toList_settingsClause (t : Table) :
    t.settingsClause.toList = writtenClauses (settingsClauses t.settings) := by
  have hkeyword : "\nSETTINGS ".toList = '\n' :: (Clause.settings.keyword.toList ++ [' ']) := rfl
  unfold settingsClause settingsClauses
  split
  · rfl
  · simp [writtenClauses, hkeyword, assignments, assignment, String.toList_intercalate,
      Function.comp_def]

theorem toList_engineText (t : Table) :
    t.engineText.toList = t.engine.render.toList ++ writtenClauses t.clauseList := by
  simp only [engineText, String.toList_append, toList_sortingClause, toList_settingsClause]
  rw [toList_optionalPart (k := .partitionBy) _ rfl, toList_optionalPart (k := .ttl) _ rfl]
  simp [writtenClauses, clauseList]

theorem reportedEngine?_eq {t : Table} (h : ¬engineMark <:+: t.createHead.toList) :
    t.reportedEngine? = some (String.ofList (onOneLine t.engineText.toList)) := by
  have hmark : engineMark = ')' :: " ENGINE = ".toList := rfl
  have hbreak : "\n) ENGINE = " = "\n" ++ ") ENGINE = " := by decide
  have hsplit : t.createStatement = t.createHead ++ (") ENGINE = " ++ t.engineText) := by
    unfold createStatement createHead
    rw [hbreak]
    simp only [String.append_assoc]
  have htext : t.createStatement.toList =
      t.createHead.toList ++ (engineMark ++ t.engineText.toList) := by
    rw [hsplit, String.toList_append, String.toList_append]
    rfl
  unfold reportedEngine?
  rw [hmark] at h htext ⊢
  rw [htext, cutAt?_append (by decide) h, Option.map_some]

/-! ## The clauses of the reported text -/

/-- A clause on the one line of the reported text. -/
def segmentOf (p : Clause × List Char) : Segment := ⟨[' '], p.1, ' ' :: onOneLine p.2⟩

theorem onOneLine_writtenClauses (l : List (Clause × List Char)) :
    onOneLine (writtenClauses l) = clauseText (l.map segmentOf) := by
  induction l with
  | nil => rfl
  | cons p l ih =>
    have hkeyword : onOneLine p.1.keyword.toList = p.1.keyword.toList :=
      onOneLine_eq_self (by cases p.1 <;> decide)
    rw [writtenClauses] at ih ⊢
    rw [List.flatMap_cons, onOneLine_append, ih, clauseText, clauseText, List.map_cons,
      List.flatMap_cons]
    change ' ' :: onOneLine (p.1.keyword.toList ++ ' ' :: p.2) ++ _ = _
    rw [onOneLine_append, hkeyword]
    rfl

theorem wellFormed_segmentOf {p : Clause × List Char} (h : IsClauseText p.2) :
    (segmentOf p).WellFormed where
  gap_ne := by simp [segmentOf]
  gap_blank := by
    intro b hb
    rw [List.mem_singleton.mp hb]
    decide
  body_head := by
    change isBlank ' ' = true
    decide
  body_run := h.balanced.onOneLine.run_start

theorem findKeyword?_segmentOf {p : Clause × List Char} {k : Clause} (h : IsClauseText p.2)
    (hword : k.keyword.toList.any isBlank = false) :
    findKeyword? k (segmentOf p).body = none := by
  have hmarked : ScanState.start.Marked := trivial
  refine findKeyword?_cons_blank (by decide) ?_
  rw [findWordFrom?_onOneLine (by simpa using hword) hmarked rfl]
  exact h.free k

theorem findKeyword?_segmentOf_line {p : Clause × List Char} (h : IsClauseText p.2)
    (hline : '\n' ∉ p.2) (k : Clause) : findKeyword? k (segmentOf p).body = none := by
  refine findKeyword?_cons_blank (by decide) ?_
  rw [onOneLine_eq_self hline]
  exact h.free k

theorem mem_optionalClause {k : Clause} {text : Option String} {p : Clause × List Char}
    (hp : p ∈ optionalClause k text) : ∃ e ∈ text, p = (k, e.toList) := by
  unfold optionalClause at hp
  split at hp
  · cases hp
  · rename_i e he
    exact ⟨e, (bind_stated?_eq_some_iff.mp he).1, List.mem_singleton.mp hp⟩

theorem isClauseText_of_mem_sortingClauses {keys : List String} {p : Clause × List Char}
    (hkeys : ∀ e ∈ keys, IsClauseText e.toList) (hp : p ∈ sortingClauses keys) :
    IsClauseText p.2 := by
  cases keys with
  | nil => cases hp
  | cons key keys =>
    cases keys with
    | nil =>
      rw [List.mem_singleton.mp hp]
      exact hkeys key List.mem_cons_self
    | cons key' keys =>
      rw [List.mem_singleton.mp hp]
      have hbal : Balanced ([',', ' '].intercalate ((key :: key' :: keys).map String.toList)) := by
        refine .intercalate (by decide) fun cs hcs => ?_
        obtain ⟨e, he, rfl⟩ := List.mem_map.mp hcs
        exact (hkeys e he).balanced
      exact ⟨hbal.parenthesized, fun k => passes_nil_iff.mp (passes_parenthesized hbal)⟩

theorem isClauseText_of_mem_settingsClauses {settings : Keyed String} {p : Clause × List Char}
    (hsettings : ∀ q ∈ settings.pairs, IsSetting q.1.toList q.2.toList)
    (hp : p ∈ settingsClauses settings) : IsClauseText p.2 := by
  unfold settingsClauses at hp
  split at hp
  · cases hp
  · rw [List.mem_singleton.mp hp]
    exact ⟨balanced_assignments hsettings,
      fun k => passes_nil_iff.mp (passes_assignments hsettings k)⟩

variable {t : Table}

theorem Reparsable.clauseText_of_mem (h : t.Reparsable) :
    ∀ p ∈ t.clauseList, IsClauseText p.2 := by
  intro p hp
  rw [clauseList, List.mem_append, List.mem_append, List.mem_append] at hp
  obtain hp | hp | hp | hp := hp
  · obtain ⟨e, he, rfl⟩ := mem_optionalClause hp
    exact h.partitionBy_text e he
  · exact isClauseText_of_mem_sortingClauses h.orderBy_text hp
  · obtain ⟨e, he, rfl⟩ := mem_optionalClause hp
    exact (h.ttl_text e he).1
  · exact isClauseText_of_mem_settingsClauses (fun q hq => (h.settings_text q hq).1) hp

theorem Reparsable.onOneLine_engineText (h : t.Reparsable) : onOneLine t.engineText.toList =
    t.engine.render.toList ++ clauseText (t.clauseList.map segmentOf) := by
  rw [toList_engineText, onOneLine_append, onOneLine_eq_self h.engine_line,
    onOneLine_writtenClauses]

theorem Reparsable.segments_wellFormed (h : t.Reparsable) :
    ∀ s ∈ t.clauseList.map segmentOf, s.WellFormed := by
  intro s hs
  obtain ⟨p, hp, rfl⟩ := List.mem_map.mp hs
  exact wellFormed_segmentOf (h.clauseText_of_mem p hp)

theorem Reparsable.parse_engineText (h : t.Reparsable) (engine : String) :
    Engine.parse engine (String.ofList (onOneLine t.engineText.toList)) = .ok t.engine := by
  have htail := clauseTail_of_wellFormed h.segments_wellFormed
  have htext : String.ofList (onOneLine t.engineText.toList) =
      t.engine.render ++ String.ofList (clauseText (t.clauseList.map segmentOf)) := by
    rw [h.onOneLine_engineText, String.ofList_append, String.ofList_toList]
  have hdeclaration : declaration (String.ofList (onOneLine t.engineText.toList)) =
      t.engine.render := by
    rw [htext]
    exact Engine.declaration_render_append h.engine_wellFormed (by rwa [String.toList_ofList])
  rw [Engine.parse_of_declaration h.engine_wellFormed engine hdeclaration,
    Engine.readBack_of_stated h.engine_stated]

theorem Reparsable.clauseBody?_of_split (h : t.Reparsable) {p : Clause × List Char}
    {before after : List (Clause × List Char)} (hsplit : t.clauseList = before ++ p :: after)
    (hword : p.1.keyword.toList.any isBlank = false) (hbefore : ∀ q ∈ before, p.1 ≠ q.1)
    (hline : '\n' ∉ p.2) (hne : trim p.2 ≠ []) :
    clauseBody? p.1 (onOneLine t.engineText.toList) = some (trim p.2) := by
  have hmap : t.clauseList.map segmentOf =
      before.map segmentOf ++ segmentOf p :: after.map segmentOf := by
    rw [hsplit, List.map_append, List.map_cons]
  have htexts := h.clauseText_of_mem
  rw [hsplit] at htexts
  have hwf := h.segments_wellFormed
  rw [hmap] at hwf
  have hbody : trim (segmentOf p).body = trim p.2 := by
    rw [segmentOf, onOneLine_eq_self hline]
    exact trim_cons_blank (by decide)
  have hfree := findKeyword?_segmentOf_line (htexts p (by simp)) hline
  have hearlier : ∀ r ∈ before.map segmentOf,
      p.1 ≠ r.clause ∧ findKeyword? p.1 r.body = none := by
    intro r hr
    obtain ⟨q, hq, rfl⟩ := List.mem_map.mp hr
    exact ⟨hbefore q hq, findKeyword?_segmentOf (htexts q (List.mem_append_left _ hq)) hword⟩
  rw [← hbody] at hne ⊢
  rw [h.onOneLine_engineText, hmap]
  exact clauseBody?_clauseText (s := segmentOf p) hwf (Engine.run_render h.engine_wellFormed)
    (Engine.passes_render h.engine_wellFormed _ _) hearlier hfree hne

theorem Reparsable.clauseBody?_of_absent (h : t.Reparsable) {k : Clause}
    (hword : k.keyword.toList.any isBlank = false) (habsent : ∀ p ∈ t.clauseList, k ≠ p.1) :
    clauseBody? k (onOneLine t.engineText.toList) = none := by
  rw [h.onOneLine_engineText]
  refine Sql.clauseBody?_of_absent h.segments_wellFormed (Engine.run_render h.engine_wellFormed)
    (Engine.passes_render h.engine_wellFormed _ _) fun r hr => ?_
  obtain ⟨p, hp, rfl⟩ := List.mem_map.mp hr
  exact ⟨habsent p hp, findKeyword?_segmentOf (h.clauseText_of_mem p hp) hword⟩

/-- The first clause of a keyword is read from the reported text, if it has one line. -/
theorem Reparsable.clauseBody?_engineText (h : t.Reparsable) {k : Clause}
    {found : Option (Clause × List Char)} (hword : k.keyword.toList.any isBlank = false)
    (hfind : t.clauseList.find? (·.1 = k) = found)
    (hline : ∀ p ∈ found, '\n' ∉ p.2 ∧ trim p.2 ≠ []) :
    clauseBody? k (onOneLine t.engineText.toList) = found.map fun p => trim p.2 := by
  cases found with
  | none =>
    rw [List.find?_eq_none] at hfind
    refine h.clauseBody?_of_absent hword fun p hp e => hfind p hp ?_
    simp [e]
  | some p =>
    obtain ⟨hp, before, after, hsplit, hbefore⟩ := List.find?_eq_some_iff_append.mp hfind
    obtain rfl : p.1 = k := by simpa using hp
    have hearlier : ∀ q ∈ before, p.1 ≠ q.1 := fun q hq e => by
      simpa [e] using hbefore q hq
    obtain ⟨hone, hne⟩ := hline p rfl
    exact h.clauseBody?_of_split hsplit hword hearlier hone hne

/-! ## The clause of a keyword -/

theorem find?_optionalClause (k j : Clause) (text : Option String) :
    (optionalClause k text).find? (·.1 = j) =
      if k = j then (text.bind stated?).map fun s => (k, s.toList) else none := by
  unfold optionalClause
  cases text.bind stated? <;> by_cases hk : k = j <;> simp [hk]

theorem find?_sortingClauses {j : Clause} (hj : .orderBy ≠ j) (keys : List String) :
    (sortingClauses keys).find? (·.1 = j) = none := by
  cases keys with
  | nil => rfl
  | cons key keys => cases keys <;> simp [sortingClauses, hj]

theorem find?_settingsClauses (j : Clause) (settings : Keyed String) :
    (settingsClauses settings).find? (·.1 = j) =
      if .settings = j ∧ settings.pairs ≠ [] then some (.settings, assignments settings.pairs)
      else none := by
  unfold settingsClauses Keyed.isEmpty
  cases settings.pairs <;> by_cases hj : .settings = j <;> simp [hj]

theorem find?_clauseList_ttl (t : Table) : t.clauseList.find? (·.1 = .ttl) =
    (t.ttl.bind stated?).map fun s => (.ttl, s.toList) := by
  rw [clauseList, List.find?_append, List.find?_append, List.find?_append, find?_optionalClause,
    find?_sortingClauses (by decide), find?_optionalClause, find?_settingsClauses]
  simp

theorem find?_clauseList_settings (t : Table) : t.clauseList.find? (·.1 = .settings) =
    if t.settings.pairs ≠ [] then some (.settings, assignments t.settings.pairs) else none := by
  rw [clauseList, List.find?_append, List.find?_append, List.find?_append, find?_optionalClause,
    find?_sortingClauses (by decide), find?_optionalClause, find?_settingsClauses]
  simp

theorem Reparsable.ttl_engineText (h : t.Reparsable) :
    (clauses (String.ofList (onOneLine t.engineText.toList))).ttl = t.ttl.bind stated? := by
  have hread := h.clauseBody?_engineText (by decide) t.find?_clauseList_ttl
  simp only [clauses, String.toList_ofList]
  cases httl : t.ttl.bind stated? with
  | none =>
    rw [httl] at hread
    rw [hread (by simp)]
    rfl
  | some ttl =>
    obtain ⟨hsome, hne⟩ := bind_stated?_eq_some_iff.mp httl
    obtain ⟨_, htrim, hline⟩ := h.ttl_text ttl hsome
    rw [httl] at hread
    rw [hread]
    · simp [htrim]
    · rintro p ⟨⟩
      exact ⟨hline, htrim.symm ▸ toList_ne_nil hne⟩

theorem Reparsable.settings_engineText (h : t.Reparsable) :
    (clauses (String.ofList (onOneLine t.engineText.toList))).settings = t.settings := by
  have hread := h.clauseBody?_engineText (by decide) t.find?_clauseList_settings
  rw [clauses, String.toList_ofList]
  cases hpairs : t.settings.pairs with
  | nil =>
    rw [hpairs] at hread
    rw [hread (by simp)]
    exact Keyed.ext hpairs.symm
  | cons p pairs =>
    have hline : '\n' ∉ assignments t.settings.pairs :=
      notMem_assignments (by decide) fun q hq => (h.settings_text q hq).2
    have hne : trim (assignments t.settings.pairs) ≠ [] := by
      rw [hpairs]
      exact trim_assignments_ne_nil p pairs
    rw [if_pos (by simp [hpairs])] at hread
    rw [hread (by rintro q ⟨⟩; exact ⟨hline, hne⟩)]
    change settingsOf (trim (assignments t.settings.pairs)) = t.settings
    rw [settingsOf_assignments fun q hq => (h.settings_text q hq).1, Keyed.ofList_pairs]

/-- **The reported engine text of a table is read back**: as its engine, its lifetime and its
settings. -/
theorem parse_reportedEngine (h : t.Reparsable) (engine : String) :
    ∃ text, t.reportedEngine? = some text ∧ Engine.parse engine text = .ok t.engine ∧
      (clauses text).ttl = t.ttl.bind stated? ∧ (clauses text).settings = t.settings := by
  exact ⟨_, reportedEngine?_eq h.unmarked, h.parse_engineText engine, h.ttl_engineText,
    h.settings_engineText⟩

/-- All four clauses, with keywords and marks inside literals and parentheses. -/
theorem parse_reportedEngine_events :
    let t : Table :=
      { name := "events"
        columns := [{ name := "id", type := "UInt64", comment := some "TTL ) SETTINGS" }]
        orderBy := ["id", "f(' TTL x', (a, b))"]
        partitionBy := some "toYYYYMM(ts)\n"
        ttl := some "ts + toIntervalDay(30)"
        settings := ⟨[("index_granularity", "8192"), ("storage_policy", "'a, TTL b'")], by decide⟩
        engine := .replicatedReplacingMergeTree "/tables/{shard} ORDER BY" "it's" (some "v") }
    t.Reparsable ∧
      ∃ text, t.reportedEngine? = some text ∧ Engine.parse "MergeTree" text = .ok t.engine ∧
        (clauses text).ttl = some "ts + toIntervalDay(30)" ∧
        (clauses text).settings = t.settings := by
  intro t
  have h : t.Reparsable := by decide +kernel
  exact ⟨h, parse_reportedEngine h "MergeTree"⟩

end Table

end SchemaPlan
