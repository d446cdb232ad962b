import SchemaPlan.Proofs.ClauseSearch

/-!
# Clauses read back

A row of clauses after a text is taken apart again, whatever the clauses are and in whatever order
they stand. What a clause says may be any text that closes what it opens; only the keyword that is
looked for must not stand in it.

* `Segment`: blanks, a keyword, and what stands up to the next clause. `clauseText`: a row of them.
* `passes_clauseText`: the search for a keyword goes through clauses of other keywords.
* `findKeyword?_clauseText`, `clauseBody?_clauseText`: where a clause stands and what it says.
* `IsClauseText`: what may stand in a clause.
-/

namespace SchemaPlan.Sql

/-- A clause in a text: the blanks before it, its keyword, and what stands up to the next one. -/
structure Segment where
  gap : List Char
  clause : Clause
  body : List Char

namespace Segment

/-- The segment as it stands in a text. -/
def text (s : Segment) : List Char := s.gap ++ (s.clause.keyword.toList ++ s.body)

/-- The keyword stands as a word of its own, and the clause closes what it opens. -/
structure WellFormed (s : Segment) : Prop where
  gap_ne : s.gap ≠ []
  gap_blank : ∀ b ∈ s.gap, isBlank b = true
  body_head : s.body.head?.all isBlank = true
  body_run : ScanState.start.run s.body = .start

end Segment

/-- A row of clauses. -/
def clauseText (l : List Segment) : List Char := l.flatMap Segment.text

variable {l before after : List Segment} {s : Segment} {k : Clause} {cs rest : List Char}

/-! ## Searching in a row of clauses -/

theorem head?_all_append {ds : List Char} (hc : cs.head?.all isBlank = true)
    (hd : ds.head?.all isBlank = true) : (cs ++ ds).head?.all isBlank = true := by
  cases cs with
  | nil => exact hd
  | cons c cs => exact hc

theorem clauseTail_clauseText (h : ∀ s ∈ l, s.WellFormed) (ht : ClauseTail rest) :
    ClauseTail (clauseText l ++ rest) := by
  induction l with
  | nil => exact ht
  | cons s l ih =>
    have hs := h s List.mem_cons_self
    have hl := ih fun r hr => h r (List.mem_cons_of_mem _ hr)
    have htail := ClauseTail.clause s.gap s.clause (s.body ++ (clauseText l ++ rest)) hs.gap_ne
      hs.gap_blank (head?_all_append hs.body_head hl.head?_all)
    simpa only [clauseText, List.flatMap_cons, Segment.text, List.append_assoc] using htail

theorem clauseTail_of_wellFormed (h : ∀ s ∈ l, s.WellFormed) : ClauseTail (clauseText l) := by
  rw [← List.append_nil (clauseText l)]
  exact clauseTail_clauseText h .nil

theorem run_clauseText (h : ∀ s ∈ l, s.WellFormed) :
    ScanState.start.run (clauseText l) = .start := by
  induction l with
  | nil => rfl
  | cons s l ih =>
    have hs := h s List.mem_cons_self
    have hl := ih fun r hr => h r (List.mem_cons_of_mem _ hr)
    rw [clauseText] at hl ⊢
    rw [List.flatMap_cons, Segment.text, ScanState.run_append, ScanState.run_append,
      ScanState.run_append, ScanState.run_start_blanks hs.gap_blank, s.clause.run_keyword,
      hs.body_run, hl]

theorem passes_body {before : Option Char} (hfree : findKeyword? k cs = none)
    (hhead : cs.head?.all isBlank = true) (ht : ClauseTail rest) :
    Passes k.keyword.toList rest .start before cs := by
  obtain ⟨c, hc, hb, _⟩ := k.keyword_head_exposes
  have hpass : Passes k.keyword.toList rest .start none cs :=
    (passes_nil_iff.mpr hfree).of_nil (ht.bordered k)
  exact hpass.of_head_blank hc hb hhead

theorem passes_clauseText {before : Option Char} (h : ∀ s ∈ l, s.WellFormed)
    (hk : ∀ s ∈ l, k ≠ s.clause ∧ findKeyword? k s.body = none) (ht : ClauseTail rest) :
    Passes k.keyword.toList rest .start before (clauseText l) := by
  induction l generalizing before with
  | nil => trivial
  | cons s l ih =>
    have hs := h s List.mem_cons_self
    have hl : ∀ r ∈ l, r.WellFormed := fun r hr => h r (List.mem_cons_of_mem _ hr)
    obtain ⟨hne, hfree⟩ := hk s List.mem_cons_self
    obtain ⟨c, hc, hb, _⟩ := k.keyword_head_exposes
    rw [clauseText, List.flatMap_cons, Segment.text, passes_append, passes_append, passes_append,
      ScanState.run_append, ScanState.run_append, ScanState.run_start_blanks hs.gap_blank,
      s.clause.run_keyword, hs.body_run]
    exact ⟨⟨passes_blanks hc hb hs.gap_blank, Clause.passes_keyword hne _ _,
      passes_body hfree hs.body_head (clauseTail_clauseText hl ht)⟩,
      ih hl fun r hr => hk r (List.mem_cons_of_mem _ hr)⟩

/-- **The first clause of a keyword is found**, after a text and clauses without it. -/
theorem findKeyword?_clauseText (h : ∀ r ∈ before ++ s :: after, r.WellFormed)
    (hrun : ScanState.start.run cs = .start)
    (hpass : Passes s.clause.keyword.toList (clauseText (before ++ s :: after)) .start none cs)
    (hbefore : ∀ r ∈ before, s.clause ≠ r.clause ∧ findKeyword? s.clause r.body = none) :
    findKeyword? s.clause (cs ++ clauseText (before ++ s :: after)) =
      some (cs ++ (clauseText before ++ s.gap)).length := by
  have hs := h s (by simp)
  have hearlier : ∀ r ∈ before, r.WellFormed := fun r hr => h r (List.mem_append_left _ hr)
  have hlater : ∀ r ∈ after, r.WellFormed := fun r hr =>
    h r (List.mem_append_right _ (List.mem_cons_of_mem _ hr))
  have htail := clauseTail_of_wellFormed hlater
  have htext : clauseText (before ++ s :: after) =
      (clauseText before ++ s.gap) ++
        (s.clause.keyword.toList ++ (s.body ++ clauseText after)) := by
    simp only [clauseText, List.flatMap_append, List.flatMap_cons, Segment.text, List.append_assoc]
  obtain ⟨c, hc, hb, he⟩ := s.clause.keyword_head_exposes
  have hgap : Passes s.clause.keyword.toList
      (s.clause.keyword.toList ++ (s.body ++ clauseText after)) .start (lastRead none cs)
      (clauseText before ++ s.gap) := by
    rw [passes_append, run_clauseText hearlier]
    refine ⟨passes_clauseText hearlier hbefore ?_, passes_blanks hc hb hs.gap_blank⟩
    exact .clause s.gap s.clause _ hs.gap_ne hs.gap_blank
      (head?_all_append hs.body_head htail.head?_all)
  have hlast : (lastRead (lastRead none cs) (clauseText before ++ s.gap)).any isBlank = true := by
    rw [lastRead_append]
    exact lastRead_blanks hs.gap_ne hs.gap_blank
  rw [findKeyword?, findWordFrom?_of_passes hpass, hrun, htext, findWordFrom?_of_passes hgap,
    ScanState.run_append, run_clauseText hearlier, ScanState.run_start_blanks hs.gap_blank,
    findWordFrom?_here hc he hlast (head?_all_append hs.body_head htail.head?_all)]
  simp only [Option.map_some, List.length_append, Option.some.injEq]
  omega

/-- **The first clause of a keyword is read**, if no keyword stands in it. A clause of blanks is
none. -/
theorem clauseBody?_clauseText_eq (h : ∀ r ∈ before ++ s :: after, r.WellFormed)
    (hrun : ScanState.start.run cs = .start)
    (hpass : Passes s.clause.keyword.toList (clauseText (before ++ s :: after)) .start none cs)
    (hbefore : ∀ r ∈ before, s.clause ≠ r.clause ∧ findKeyword? s.clause r.body = none)
    (hfree : ∀ k, findKeyword? k s.body = none) :
    clauseBody? s.clause (cs ++ clauseText (before ++ s :: after)) =
      if trim s.body = [] then none else some (trim s.body) := by
  have hs := h s (by simp)
  have hlater : ∀ r ∈ after, r.WellFormed := fun r hr =>
    h r (List.mem_append_right _ (List.mem_cons_of_mem _ hr))
  have htail := clauseTail_of_wellFormed hlater
  have htext : cs ++ clauseText (before ++ s :: after) =
      (cs ++ (clauseText before ++ s.gap) ++ s.clause.keyword.toList) ++
        (s.body ++ clauseText after) := by
    simp only [clauseText, List.flatMap_append, List.flatMap_cons, Segment.text, List.append_assoc]
  have hlength : (cs ++ (clauseText before ++ s.gap)).length + s.clause.keyword.length =
      (cs ++ (clauseText before ++ s.gap) ++ s.clause.keyword.toList).length := by
    simp only [List.length_append, String.length_toList]
  have hbody :
      trim ((s.body ++ clauseText after).take (clausesStart (s.body ++ clauseText after))) =
        trim s.body :=
    trim_take_clausesStart htail hs.body_run fun k => passes_body (hfree k) hs.body_head htail
  rw [clauseBody?, findKeyword?_clauseText h hrun hpass hbefore]
  simp only [hlength]
  rw [htext, List.drop_left, hbody]
  cases trim s.body <;> rfl

theorem clauseBody?_clauseText (h : ∀ r ∈ before ++ s :: after, r.WellFormed)
    (hrun : ScanState.start.run cs = .start)
    (hpass : Passes s.clause.keyword.toList (clauseText (before ++ s :: after)) .start none cs)
    (hbefore : ∀ r ∈ before, s.clause ≠ r.clause ∧ findKeyword? s.clause r.body = none)
    (hfree : ∀ k, findKeyword? k s.body = none) (hne : trim s.body ≠ []) :
    clauseBody? s.clause (cs ++ clauseText (before ++ s :: after)) = some (trim s.body) := by
  rw [clauseBody?_clauseText_eq h hrun hpass hbefore hfree, if_neg hne]

theorem clauseBody?_of_absent (h : ∀ s ∈ l, s.WellFormed)
    (hrun : ScanState.start.run cs = .start)
    (hpass : Passes k.keyword.toList (clauseText l) .start none cs)
    (hk : ∀ s ∈ l, k ≠ s.clause ∧ findKeyword? k s.body = none) :
    clauseBody? k (cs ++ clauseText l) = none := by
  have htail : Passes k.keyword.toList [] .start (lastRead none cs) (clauseText l) :=
    passes_clauseText h hk .nil
  have hfind : findKeyword? k (cs ++ clauseText l) = none := by
    rw [findKeyword?, findWordFrom?_of_passes hpass, hrun, passes_nil_iff.mp htail]
    rfl
  rw [clauseBody?, hfind]

/-! ## Clause texts -/

/-- A text that may stand in a clause: it closes what it opens, and no keyword stands in it, also
not at its start. -/
structure IsClauseText (cs : List Char) : Prop where
  balanced : Balanced cs
  free : ∀ k : Clause, findWordFrom? k.keyword.toList .start (some ' ') cs = none

instance (cs : List Char) : Decidable (IsClauseText cs) :=
  decidable_of_iff (Balanced cs ∧
      ∀ k ∈ Clause.all, findWordFrom? k.keyword.toList .start (some ' ') cs = none)
    ⟨fun ⟨hbal, hfree⟩ => ⟨hbal, fun k => hfree k k.mem_all⟩,
      fun h => ⟨h.balanced, fun k _ => h.free k⟩⟩

theorem Passes.of_after_blank {word : List Char} {s : ScanState} {b : Char} {before : Option Char}
    (hb : isBlank b = true) (h : Passes word rest s (some b) cs) :
    Passes word rest s before cs := by
  cases cs with
  | nil => trivial
  | cons c cs =>
    have hc := h.1
    rw [Option.any_some, hb, Bool.and_true] at hc
    exact ⟨by rw [Bool.and_right_comm, hc, Bool.false_and], h.2⟩

/-- The search for a keyword goes through a clause text wherever it stands. -/
theorem IsClauseText.passes {before : Option Char} (h : IsClauseText cs)
    (hborder : Bordered k.keyword.toList rest) :
    Passes k.keyword.toList rest .start before cs :=
  ((passes_nil_iff.mpr (h.free k)).of_nil hborder).of_after_blank (by decide)

theorem findKeyword?_cons_blank {b : Char} (hb : isBlank b = true)
    (h : findWordFrom? k.keyword.toList .start (some b) cs = none) :
    findKeyword? k (b :: cs) = none := by
  have hexposed := ScanState.exposes_blank hb
  rw [findKeyword?, findWordFrom?, ScanState.step_of_exposes hexposed, h, hexposed]
  rfl

end SchemaPlan.Sql
