import SchemaPlan.Proofs.Trimming
import SchemaPlan.Sql.Literal
import SchemaPlan.Sql.Scan

/-!
# What a scan exposes

The characters of a text that stand outside its literals and parentheses, and the texts that leave
a scan where it was.

* `exposed`: the exposed characters of a text, in their order; `exposed_append`.
* `ScanState.Marked`: the scan is in no literal but those of quote marks, so that no blank ends one.
* `ScanState.deeper`: the same place inside one more parenthesis. A scan that starts deeper stays
  deeper (`step_deeper`) unless the text closes a parenthesis it did not open.
* `Balanced.exposed_deeper`: inside parentheses a balanced text exposes nothing.
* `balanced_iff`: the depths zero and one tell whether a text is balanced.
* `literal`: a text between two quote marks of either kind; `balanced_literal`, `exposed_literal`:
  it is balanced and exposes nothing.
-/

namespace SchemaPlan.Sql

/-! ## Exposed characters -/

/-- The exposed characters of a text that is read from state `s` on. -/
def exposed (s : ScanState) : List Char → List Char
  | [] => []
  | c :: cs => if s.exposes c then c :: exposed (s.step c) cs else exposed (s.step c) cs

@[simp] theorem exposed_nil (s : ScanState) : exposed s [] = [] := rfl

theorem exposed_append (s : ScanState) (cs ds : List Char) :
    exposed s (cs ++ ds) = exposed s cs ++ exposed (s.run cs) ds := by
  induction cs generalizing s with
  | nil => rfl
  | cons c cs ih =>
    rw [List.cons_append, exposed, exposed, ih, ScanState.run_cons]
    split <;> rfl

theorem exposed_sublist (s : ScanState) (cs : List Char) : (exposed s cs).Sublist cs := by
  induction cs generalizing s with
  | nil => exact List.nil_sublist _
  | cons c cs ih =>
    rw [exposed]
    split
    · exact (ih _).cons_cons c
    · exact (ih _).cons c

theorem isBlank_of_isQuoteMark {mark : Char} (h : isQuoteMark mark = true) :
    isBlank mark = false := by
  simp only [isQuoteMark, Bool.or_eq_true, beq_iff_eq] at h
  obtain (rfl | rfl) | rfl := h <;> decide

namespace ScanState

theorem exposes_iff {s : ScanState} {c : Char} :
    s.exposes c = true ↔ s = start ∧ isQuoteMark c = false ∧ c ≠ '(' ∧ c ≠ ')' := by
  simp [exposes, and_assoc]

theorem exposes_of_ne_start {s : ScanState} (h : s ≠ start) (c : Char) : s.exposes c = false := by
  simp [exposes, h]

theorem step_of_plain {c : Char} (hq : isQuoteMark c = false) (ho : c ≠ '(') (hc : c ≠ ')')
    (depth : Nat) : (⟨.code, depth⟩ : ScanState).step c = ⟨.code, depth⟩ := by
  simp [step, hq, ho, hc]

theorem step_of_exposes {s : ScanState} {c : Char} (h : s.exposes c = true) : s.step c = s := by
  obtain ⟨rfl, hq, ho, hc⟩ := exposes_iff.mp h
  exact step_of_plain hq ho hc 0

theorem exposes_blank {c : Char} (h : isBlank c = true) : start.exposes c = true := by
  have hquote : isQuoteMark c = false := by
    simp only [isQuoteMark, Bool.or_eq_false_iff, beq_eq_false_iff_ne]
    exact ⟨⟨ne_of_isBlank h (by decide), ne_of_isBlank h (by decide)⟩,
      ne_of_isBlank h (by decide)⟩
  exact exposes_iff.mpr
    ⟨rfl, hquote, ne_of_isBlank h (by decide), ne_of_isBlank h (by decide)⟩

theorem run_start_blanks {cs : List Char} (h : ∀ c ∈ cs, isBlank c = true) :
    start.run cs = start := by
  induction cs with
  | nil => rfl
  | cons c cs ih =>
    rw [run_cons, step_of_exposes (exposes_blank (h c List.mem_cons_self)),
      ih fun d hd => h d (List.mem_cons_of_mem _ hd)]

/-! ## Scans inside literals -/

/-- The scan is in no literal, or in one that a quote mark opened. -/
def Marked (s : ScanState) : Prop :=
  match s.mode with
  | .code => True
  | .quoted mark => isQuoteMark mark = true
  | .escaped mark => isQuoteMark mark = true

theorem Marked.step {s : ScanState} (h : s.Marked) (c : Char) : (s.step c).Marked := by
  obtain ⟨mode, depth⟩ := s
  cases mode with
  | escaped mark => exact h
  | quoted mark =>
    simp only [ScanState.step]
    split
    · exact h
    · split
      · trivial
      · exact h
  | code =>
    simp only [ScanState.step]
    split
    · assumption
    · split
      · trivial
      · split <;> trivial

theorem Marked.run {s : ScanState} (h : s.Marked) (cs : List Char) : (s.run cs).Marked := by
  induction cs generalizing s with
  | nil => exact h
  | cons c cs ih => exact ih (h.step c)

/-- No blank ends a literal. -/
theorem Marked.eq_start_of_blank {s : ScanState} {b : Char} (h : s.Marked) (hb : isBlank b = true)
    (hstep : s.step b = start) : s = start := by
  obtain ⟨mode, depth⟩ := s
  cases mode with
  | escaped mark => cases hstep
  | quoted mark =>
    have hmark : b ≠ mark := ne_of_isBlank hb (isBlank_of_isQuoteMark h)
    have hback : b ≠ '\\' := ne_of_isBlank hb (by decide)
    rw [ScanState.step] at hstep
    simp only [if_neg hback, if_neg hmark] at hstep
    exact hstep
  | code =>
    obtain ⟨-, hq, ho, hc⟩ := exposes_iff.mp (exposes_blank hb)
    rwa [step_of_plain hq ho hc] at hstep

/-- A scan that ends outside literals and parentheses after blanks was there before them. -/
theorem Marked.eq_start_of_blanks {s : ScanState} {cs : List Char} (h : s.Marked)
    (hcs : ∀ b ∈ cs, isBlank b = true) (hrun : s.run cs = start) : s = start := by
  induction cs generalizing s with
  | nil => exact hrun
  | cons b cs ih =>
    have hstep := ih (h.step b) (fun d hd => hcs d (List.mem_cons_of_mem _ hd)) hrun
    exact h.eq_start_of_blank (hcs b List.mem_cons_self) hstep

/-! ## Scans inside parentheses -/

/-- The same place inside one more parenthesis. -/
def deeper (s : ScanState) : ScanState := ⟨s.mode, s.depth + 1⟩

theorem deeper_ne (s : ScanState) : s.deeper ≠ s := fun h => by
  have := congrArg ScanState.depth h
  simp [deeper] at this

theorem deeper_exposes (s : ScanState) (c : Char) : s.deeper.exposes c = false :=
  exposes_of_ne_start (fun h => by simpa [deeper, start] using congrArg ScanState.depth h) c

/-- A scan inside one more parenthesis does the same, except that it can still close that
parenthesis. -/
theorem step_deeper (s : ScanState) (c : Char) :
    s.deeper.step c = (s.step c).deeper ∨ s.depth = 0 ∧ s.deeper.step c = s.step c := by
  obtain ⟨mode, depth⟩ := s
  cases mode with
  | escaped mark => exact .inl rfl
  | quoted mark =>
    left
    simp only [deeper, step]
    split
    · rfl
    · split <;> rfl
  | code =>
    simp only [deeper, step]
    split
    · exact .inl rfl
    · split
      · exact .inl rfl
      · split
        · cases depth with
          | zero => exact .inr ⟨rfl, rfl⟩
          | succ n => exact .inl rfl
        · exact .inl rfl

theorem step_deeper_deeper (s : ScanState) (c : Char) :
    s.deeper.deeper.step c = (s.deeper.step c).deeper :=
  (s.deeper.step_deeper c).resolve_right fun h => Nat.succ_ne_zero _ h.1

/-- A scan that ends one parenthesis deeper was there all the time. -/
theorem step_deeper_of_run {s : ScanState} {c : Char} {cs : List Char}
    (h : s.deeper.run (c :: cs) = (s.run (c :: cs)).deeper) :
    s.deeper.step c = (s.step c).deeper := by
  refine (s.step_deeper c).resolve_right fun e => ?_
  rw [run_cons, run_cons, e.2] at h
  exact deeper_ne _ h.symm

theorem run_deeper_of_append {s : ScanState} {part rest : List Char}
    (h : s.deeper.run (part ++ rest) = (s.run (part ++ rest)).deeper) :
    s.deeper.run part = (s.run part).deeper := by
  induction part generalizing s with
  | nil => rfl
  | cons c part ih =>
    have e := step_deeper_of_run h
    rw [List.cons_append, run_cons, run_cons, e] at h
    rw [run_cons, run_cons, e]
    exact ih h

theorem run_deeper_deeper {s : ScanState} {cs : List Char}
    (h : s.deeper.run cs = (s.run cs).deeper) :
    s.deeper.deeper.run cs = (s.deeper.run cs).deeper := by
  induction cs generalizing s with
  | nil => rfl
  | cons c cs ih =>
    have e := step_deeper_of_run h
    rw [run_cons, run_cons, e] at h
    rw [run_cons, run_cons, step_deeper_deeper, e]
    exact ih h

end ScanState

/-- A text that closes no parenthesis of its surroundings exposes nothing inside them. -/
theorem exposed_deeper {s : ScanState} {cs : List Char}
    (h : s.deeper.run cs = (s.run cs).deeper) : exposed s.deeper cs = [] := by
  induction cs generalizing s with
  | nil => rfl
  | cons c cs ih =>
    have e := ScanState.step_deeper_of_run h
    rw [ScanState.run_cons, ScanState.run_cons, e] at h
    rw [exposed, if_neg (by simp [ScanState.deeper_exposes]), e]
    exact ih h

/-! ## Balanced texts -/

/-- Two depths are enough to tell a balanced text. -/
theorem balanced_iff {cs : List Char} :
    Balanced cs ↔ ScanState.start.run cs = .start ∧
      ScanState.start.deeper.run cs = ScanState.start.deeper := by
  refine ⟨fun h => ⟨h 0, h 1⟩, fun ⟨h₀, h₁⟩ => ?_⟩
  -- at each depth the scan agrees with the scan one parenthesis further out
  have key (n : Nat) : (ScanState.mk .code n).run cs = ⟨.code, n⟩ ∧
      (ScanState.mk .code n).deeper.run cs = (ScanState.mk .code n).deeper := by
    induction n with
    | zero => exact ⟨h₀, h₁⟩
    | succ n ih =>
      have hdeeper : (ScanState.mk .code n).deeper.run cs =
          ((ScanState.mk .code n).run cs).deeper := by rw [ih.2, ih.1]
      refine ⟨ih.2, ?_⟩
      have := ScanState.run_deeper_deeper hdeeper
      rwa [ih.2] at this
  exact fun n => (key n).1

instance (cs : List Char) : Decidable (Balanced cs) := decidable_of_iff _ balanced_iff.symm

namespace Balanced

variable {cs ds : List Char}

theorem run_start (h : Balanced cs) : ScanState.start.run cs = .start := h 0

/-- **Inside parentheses a balanced text exposes nothing.** -/
theorem exposed_deeper (h : Balanced cs) (depth : Nat) : exposed ⟨.code, depth + 1⟩ cs = [] :=
  Sql.exposed_deeper (s := ⟨.code, depth⟩) (by rw [h depth]; exact h (depth + 1))

theorem nil : Balanced [] := fun _ => rfl

theorem append (h : Balanced cs) (h' : Balanced ds) : Balanced (cs ++ ds) := fun depth => by
  rw [ScanState.run_append, h, h']

theorem of_plain (h : ∀ c ∈ cs, isQuoteMark c = false ∧ c ≠ '(' ∧ c ≠ ')') : Balanced cs := by
  induction cs with
  | nil => exact nil
  | cons c cs ih =>
    intro depth
    obtain ⟨hq, ho, hc⟩ := h c List.mem_cons_self
    rw [ScanState.run_cons, ScanState.step_of_plain hq ho hc,
      ih (fun d hd => h d (List.mem_cons_of_mem _ hd))]

theorem of_blank (h : ∀ c ∈ cs, isBlank c = true) : Balanced cs :=
  of_plain fun c hc =>
    (ScanState.exposes_iff.mp (ScanState.exposes_blank (h c hc))).2

theorem parenthesized (h : Balanced cs) : Balanced ('(' :: (cs ++ [')'])) := fun depth => by
  rw [ScanState.run_cons, ScanState.run_append]
  change ((ScanState.mk .code (depth + 1)).run cs).run [')'] = _
  rw [h]
  rfl

theorem exposed_parenthesized (h : Balanced cs) : exposed .start ('(' :: (cs ++ [')'])) = [] := by
  change exposed ⟨.code, 1⟩ (cs ++ [')']) = []
  rw [exposed_append, h.exposed_deeper, h 1]
  rfl

theorem intercalate {sep : List Char} {l : List (List Char)} (hsep : Balanced sep)
    (h : ∀ cs ∈ l, Balanced cs) : Balanced (sep.intercalate l) := by
  induction l with
  | nil => exact nil
  | cons cs l ih =>
    have hcs := h cs List.mem_cons_self
    have hl := ih fun ds hds => h ds (List.mem_cons_of_mem _ hds)
    cases l with
    | nil => simpa using hcs
    | cons ds l =>
      rw [List.intercalate_cons_cons]
      exact (hcs.append hsep).append hl

end Balanced

/-! ## Literals -/

/-- `cs` with a backslash before each backslash and each `mark`. -/
def escapeFor (mark : Char) : List Char → List Char
  | [] => []
  | c :: cs =>
    if c = '\\' ∨ c = mark then '\\' :: c :: escapeFor mark cs else c :: escapeFor mark cs

/-- The literal of a text between two of `mark`. -/
def literal (mark : Char) (cs : List Char) : List Char := mark :: (escapeFor mark cs ++ [mark])

theorem escapeFor_single (cs : List Char) : escapeFor '\'' cs = escape cs := by
  induction cs with
  | nil => rfl
  | cons c cs ih => rw [escapeFor, escape, ih]

theorem literal_single (cs : List Char) : literal '\'' cs = quote cs := by
  rw [literal, escapeFor_single, quote]

variable {mark : Char}

theorem unescape_escapeFor (mark : Char) (cs : List Char) : unescape (escapeFor mark cs) = cs := by
  induction cs with
  | nil => rfl
  | cons c cs ih =>
    rw [escapeFor]
    split
    · rw [unescape, ih]
    · rename_i h
      rw [unescape, ih]
      rintro d ds rfl
      exact absurd (Or.inl rfl) h

/-- The backslash before a mark is read first and shields it. -/
theorem run_escapeFor (mark : Char) (cs : List Char) (depth : Nat) :
    (ScanState.mk (.quoted mark) depth).run (escapeFor mark cs) = ⟨.quoted mark, depth⟩ := by
  induction cs with
  | nil => rfl
  | cons c cs ih =>
    rw [escapeFor]
    split
    · exact ih
    · rename_i h
      obtain ⟨hb, hq⟩ := not_or.mp h
      rw [ScanState.run_cons]
      simpa [ScanState.step, hb, hq] using ih

theorem exposed_escapeFor (mark : Char) (cs : List Char) (depth : Nat) :
    exposed ⟨.quoted mark, depth⟩ (escapeFor mark cs) = [] := by
  induction cs with
  | nil => rfl
  | cons c cs ih =>
    rw [escapeFor]
    split
    · exact ih
    · rename_i h
      obtain ⟨hb, hq⟩ := not_or.mp h
      rw [exposed, if_neg (by simp [ScanState.exposes, ScanState.start])]
      simpa [ScanState.step, hb, hq] using ih

theorem ScanState.step_open (h : isQuoteMark mark = true) (depth : Nat) :
    (ScanState.mk .code depth).step mark = ⟨.quoted mark, depth⟩ :=
  if_pos h

theorem ScanState.step_close (h : isQuoteMark mark = true) (depth : Nat) :
    (ScanState.mk (.quoted mark) depth).step mark = ⟨.code, depth⟩ := by
  have hb : mark ≠ '\\' := by
    rintro rfl
    cases h
  exact (if_neg hb).trans (if_pos rfl)

/-- A literal is one opaque part of a text. -/
theorem balanced_literal (h : isQuoteMark mark = true) (cs : List Char) :
    Balanced (literal mark cs) := fun depth => by
  rw [literal, ScanState.run_cons, ScanState.step_open h, ScanState.run_append, run_escapeFor,
    ScanState.run_cons, ScanState.step_close h, ScanState.run_nil]

theorem exposed_literal (h : isQuoteMark mark = true) (cs : List Char) :
    exposed .start (literal mark cs) = [] := by
  have hopen : ScanState.start.exposes mark = false := by simp [ScanState.exposes, h]
  have hclose : (ScanState.mk (.quoted mark) 0).exposes mark = false :=
    ScanState.exposes_of_ne_start (by simp [ScanState.start]) mark
  rw [literal, exposed, if_neg (by simp [hopen]), ScanState.start, ScanState.step_open h,
    exposed_append, exposed_escapeFor, run_escapeFor, exposed, if_neg (by simp [hclose]),
    exposed_nil, List.append_nil]

theorem balanced_quote (cs : List Char) : Balanced (quote cs) :=
  literal_single cs ▸ balanced_literal rfl cs

theorem exposed_quote (cs : List Char) : exposed .start (quote cs) = [] :=
  literal_single cs ▸ exposed_literal rfl cs

end SchemaPlan.Sql
