import SchemaPlan.Proofs.SettingLists

/-!
# Clauses in any order

A declaration with clauses after it is taken apart again: no clause swallows another or cuts it,
in whatever order they stand and whatever they say.

* `WrittenClause`: a clause between its blanks; `arrange`: a declaration with clauses after it.
* `IsDeclaration`, `WrittenClause.WellFormed`: what may stand where.
* `clauseBody?_arrange_iff`: the body that is read for a keyword is the body written after it.
* `clauses_arrange`: **the declaration, the lifetime and the settings of any arrangement**.
-/

namespace SchemaPlan.Sql

/-- Blanks between two words, at least one. -/
structure IsGap (cs : List Char) : Prop where
  ne_nil : cs ≠ []
  blank : ∀ b ∈ cs, isBlank b = true

instance (cs : List Char) : Decidable (IsGap cs) :=
  decidable_of_iff (cs ≠ [] ∧ cs.all isBlank = true)
    ⟨fun ⟨hne, hblank⟩ => ⟨hne, List.all_eq_true.mp hblank⟩,
      fun h => ⟨h.ne_nil, List.all_eq_true.mpr h.blank⟩⟩

/-- A clause as it is written: blanks, the keyword, blanks, and what the clause says. -/
structure WrittenClause where
  before : String
  clause : Clause
  after : String
  body : String

namespace WrittenClause

/-- The clause as it stands in a text. -/
def text (w : WrittenClause) : String := w.before ++ w.clause.keyword ++ w.after ++ w.body

/-- Blanks stand around the keyword, and the body is a trimmed text without keywords. -/
structure WellFormed (w : WrittenClause) : Prop where
  before_gap : IsGap w.before.toList
  after_gap : IsGap w.after.toList
  body_ne : w.body.toList ≠ []
  body_trimmed : trim w.body.toList = w.body.toList
  body_text : IsClauseText w.body.toList

instance (w : WrittenClause) : Decidable w.WellFormed :=
  decidable_of_iff (IsGap w.before.toList ∧ IsGap w.after.toList ∧ w.body.toList ≠ [] ∧
      trim w.body.toList = w.body.toList ∧ IsClauseText w.body.toList)
    ⟨fun ⟨hbefore, hafter, hne, htrim, htext⟩ => ⟨hbefore, hafter, hne, htrim, htext⟩,
      fun h => ⟨h.before_gap, h.after_gap, h.body_ne, h.body_trimmed, h.body_text⟩⟩

/-- The clause with the blanks after its keyword counted to its body. -/
def segment (w : WrittenClause) : Segment :=
  ⟨w.before.toList, w.clause, w.after.toList ++ w.body.toList⟩

end WrittenClause

/-- A text that may stand before clauses. A keyword at its start follows no blank. -/
structure IsDeclaration (d : String) : Prop where
  trimmed : trim d.toList = d.toList
  balanced : Balanced d.toList
  free : ∀ k : Clause, findKeyword? k d.toList = none

instance (d : String) : Decidable (IsDeclaration d) :=
  decidable_of_iff (trim d.toList = d.toList ∧ Balanced d.toList ∧
      ∀ k ∈ Clause.all, findKeyword? k d.toList = none)
    ⟨fun ⟨htrim, hbal, hfree⟩ => ⟨htrim, hbal, fun k => hfree k k.mem_all⟩,
      fun h => ⟨h.trimmed, h.balanced, fun k _ => h.free k⟩⟩

namespace IsDeclaration

variable {d : String} {l : List Segment} (hd : IsDeclaration d) (hl : ∀ s ∈ l, s.WellFormed)

include hd hl

theorem passes (k : Clause) :
    Passes k.keyword.toList (clauseText l) .start none d.toList :=
  (passes_nil_iff.mpr (hd.free k)).of_nil ((clauseTail_of_wellFormed hl).bordered k)

theorem declaration_eq {text : String} (h : text.toList = d.toList ++ clauseText l) :
    declaration text = d := by
  rw [declaration, declarationChars, h,
    trim_take_clausesStart (clauseTail_of_wellFormed hl) hd.balanced.run_start (hd.passes hl),
    hd.trimmed, String.ofList_toList]

end IsDeclaration

/-- A declaration with clauses after it. -/
def arrange (d : String) (l : List WrittenClause) : String :=
  d ++ String.join (l.map WrittenClause.text)

variable {d : String} {l : List WrittenClause} {w : WrittenClause} {k : Clause}

/-! ## The text as a row of clauses -/

theorem WrittenClause.toList_text (w : WrittenClause) : w.text.toList = w.segment.text := by
  simp [text, segment, Segment.text, String.toList_append]

theorem toList_arrange (d : String) (l : List WrittenClause) : (arrange d l).toList =
    d.toList ++ clauseText (l.map WrittenClause.segment) := by
  rw [arrange, String.toList_append, String.toList_join, clauseText, List.flatMap_map,
    List.flatMap_map]
  simp only [WrittenClause.toList_text]

theorem IsGap.head?_all {cs ds : List Char} (h : IsGap cs) :
    (cs ++ ds).head?.all isBlank = true := by
  obtain ⟨b, cs, rfl⟩ := List.exists_cons_of_ne_nil h.ne_nil
  exact h.blank b List.mem_cons_self

theorem IsGap.findKeyword?_append {cs ds : List Char} (h : IsGap cs)
    (hpass : ∀ before, Passes k.keyword.toList [] .start before ds) :
    findKeyword? k (cs ++ ds) = none := by
  obtain ⟨c, hc, hb, _⟩ := k.keyword_head_exposes
  rw [findKeyword?, ← passes_nil_iff, passes_append, ScanState.run_start_blanks h.blank]
  exact ⟨passes_blanks hc hb h.blank, hpass _⟩

namespace WrittenClause.WellFormed

theorem segment_wellFormed (h : w.WellFormed) : w.segment.WellFormed where
  gap_ne := h.before_gap.ne_nil
  gap_blank := h.before_gap.blank
  body_head := h.after_gap.head?_all
  body_run := by
    rw [segment, ScanState.run_append, ScanState.run_start_blanks h.after_gap.blank,
      h.body_text.balanced.run_start]

/-- No keyword stands in the body, also not right after the blanks before it. -/
theorem findKeyword?_segment (h : w.WellFormed) (k : Clause) :
    findKeyword? k w.segment.body = none :=
  h.after_gap.findKeyword?_append fun _ => h.body_text.passes (ClauseTail.nil.bordered k)

theorem trim_segment (h : w.WellFormed) : trim w.segment.body = w.body.toList := by
  rw [segment, trim_blanks_append h.after_gap.blank, h.body_trimmed]

end WrittenClause.WellFormed

/-! ## Reading an arrangement -/

section Arrange

variable (hd : IsDeclaration d) (hl : ∀ w ∈ l, w.WellFormed)

include hl in
theorem segments_wellFormed : ∀ s ∈ l.map WrittenClause.segment, s.WellFormed := by
  intro s hs
  obtain ⟨w, hw, rfl⟩ := List.mem_map.mp hs
  exact (hl w hw).segment_wellFormed

include hd hl

theorem clauseBody?_arrange (hnodup : (l.map (·.clause)).Nodup) (hw : w ∈ l) :
    clauseBody? w.clause (arrange d l).toList = some w.body.toList := by
  obtain ⟨before, after, rfl⟩ := List.append_of_mem hw
  have hother : ∀ v ∈ before, w.clause ≠ v.clause := by
    rw [List.map_append, List.map_cons] at hnodup
    intro v hv e
    exact (List.nodup_append.mp hnodup).2.2 _ (List.mem_map_of_mem hv) _ List.mem_cons_self e.symm
  have hsegments := segments_wellFormed hl
  have hpass := hd.passes hsegments w.clause
  rw [List.map_append, List.map_cons] at hpass hsegments
  have hbefore : ∀ s ∈ before.map WrittenClause.segment,
      w.segment.clause ≠ s.clause ∧ findKeyword? w.segment.clause s.body = none := by
    intro s hs
    obtain ⟨v, hv, rfl⟩ := List.mem_map.mp hs
    exact ⟨hother v hv, (hl v (List.mem_append_left _ hv)).findKeyword?_segment w.clause⟩
  have hbody := clauseBody?_clauseText hsegments hd.balanced.run_start hpass hbefore
    (hl w hw).findKeyword?_segment ((hl w hw).trim_segment ▸ (hl w hw).body_ne)
  rwa [(hl w hw).trim_segment, ← List.map_cons, ← List.map_append, ← toList_arrange] at hbody

theorem clauseBody?_arrange_of_absent (hk : ∀ w ∈ l, w.clause ≠ k) :
    clauseBody? k (arrange d l).toList = none := by
  rw [toList_arrange]
  refine clauseBody?_of_absent (segments_wellFormed hl) hd.balanced.run_start
    (hd.passes (segments_wellFormed hl) k) fun s hs => ?_
  obtain ⟨w, hw, rfl⟩ := List.mem_map.mp hs
  exact ⟨(hk w hw).symm, (hl w hw).findKeyword?_segment k⟩

/-- The body that is read for a keyword is the one that was written after it. -/
theorem clauseBody?_arrange_iff (hnodup : (l.map (·.clause)).Nodup) {body : List Char} :
    clauseBody? k (arrange d l).toList = some body ↔
      ∃ w ∈ l, w.clause = k ∧ w.body.toList = body := by
  constructor
  · intro h
    by_cases hk : ∀ w ∈ l, w.clause ≠ k
    · rw [clauseBody?_arrange_of_absent hd hl hk] at h
      cases h
    · push Not at hk
      obtain ⟨w, hw, rfl⟩ := hk
      rw [clauseBody?_arrange hd hl hnodup hw] at h
      exact ⟨w, hw, rfl, Option.some.inj h⟩
  · rintro ⟨w, hw, rfl, rfl⟩
    exact clauseBody?_arrange hd hl hnodup hw

/-- **Any arrangement of clauses is taken apart again.** The declaration comes back, the lifetime
is what the clause for it says, and a key has the last value that a part of the list of settings
assigns to it. -/
theorem clauses_arrange (hnodup : (l.map (·.clause)).Nodup) :
    declaration (arrange d l) = d ∧
      (∀ body, (clauses (arrange d l)).ttl = some body ↔
        ∃ w ∈ l, w.clause = .ttl ∧ w.body = body) ∧
      (∀ key value, (clauses (arrange d l)).settings.get? key = some value ↔
        ∃ w ∈ l, w.clause = .settings ∧
          ∃ parts, CommaParts w.body.toList parts ∧ LastAssigned parts key value) ∧
      ((∀ w ∈ l, w.clause ≠ .settings) → (clauses (arrange d l)).settings = .empty) := by
  have hread {k : Clause} {body : List Char} : clauseBody? k (arrange d l).toList = some body ↔
      ∃ w ∈ l, w.clause = k ∧ w.body.toList = body :=
    clauseBody?_arrange_iff hd hl hnodup
  refine ⟨hd.declaration_eq (segments_wellFormed hl) (toList_arrange d l), fun body => ?_,
    fun key value => ?_, fun hnone => ?_⟩
  · rw [clauses, Option.map_eq_some_iff]
    constructor
    · rintro ⟨cs, hcs, rfl⟩
      obtain ⟨w, hw, hk, rfl⟩ := hread.mp hcs
      exact ⟨w, hw, hk, String.ofList_toList.symm⟩
    · rintro ⟨w, hw, hk, rfl⟩
      exact ⟨w.body.toList, hread.mpr ⟨w, hw, hk, rfl⟩, String.ofList_toList⟩
  · rw [get?_settings_iff]
    constructor
    · rintro ⟨cs, hcs, hassigned⟩
      obtain ⟨w, hw, hk, rfl⟩ := hread.mp hcs
      exact ⟨w, hw, hk, hassigned⟩
    · rintro ⟨w, hw, hk, hassigned⟩
      exact ⟨w.body.toList, hread.mpr ⟨w, hw, hk, rfl⟩, hassigned⟩
  · rw [clauses, clauseBody?_arrange_of_absent hd hl hnone]

end Arrange

/-- The settings first and the lifetime last, over several lines, with keywords and commas in
literals and in parentheses. -/
def mixedClauses : List WrittenClause :=
  [⟨" ", .settings, "\n  ", "a = 'x, TTL y', b=1 ,note, b = f(2, 3)"⟩,
    ⟨"\n", .orderBy, " ", "(id, ' SETTINGS ')"⟩, ⟨" ", .ttl, "\t", "ts + 1 DELETE"⟩]

theorem clauses_arrange_mixed :
    declaration (arrange "MergeTree(' ORDER BY ')" mixedClauses) = "MergeTree(' ORDER BY ')" ∧
      (clauses (arrange "MergeTree(' ORDER BY ')" mixedClauses)).ttl = some "ts + 1 DELETE" ∧
      (clauses (arrange "MergeTree(' ORDER BY ')" mixedClauses)).settings.get? "b" =
        some "f(2, 3)" := by
  obtain ⟨hdeclaration, httl, hsettings, -⟩ := clauses_arrange
    (by decide : IsDeclaration "MergeTree(' ORDER BY ')")
    (by decide : ∀ w ∈ mixedClauses, w.WellFormed) (by decide)
  have hparts : CommaParts "a = 'x, TTL y', b=1 ,note, b = f(2, 3)".toList
      ["a = 'x, TTL y'".toList, " b=1 ".toList, "note".toList, " b = f(2, 3)".toList] :=
    commaParts_iff.mpr (by decide)
  have hlast : Assigns " b = f(2, 3)".toList "b" "f(2, 3)" :=
    assignment?_eq_some_iff.mp (by decide)
  have hmem : ⟨" ", .ttl, "\t", "ts + 1 DELETE"⟩ ∈ mixedClauses := by simp [mixedClauses]
  exact ⟨hdeclaration, (httl _).mpr ⟨_, hmem, rfl, rfl⟩,
    (hsettings _ _).mpr ⟨_, List.mem_cons_self, rfl, _, hparts,
      [_, _, _], _, [], rfl, hlast, by simp⟩⟩

end SchemaPlan.Sql
