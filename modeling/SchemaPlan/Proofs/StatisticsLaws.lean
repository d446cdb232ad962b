import Mathlib.Algebra.GroupWithZero.Nat
import SchemaPlan.Catalog.Statistics
import SchemaPlan.Proofs.KeyedLaws

/-!
# Laws of statistics

What each record does to the counters of an engine, and what a whole run of records does.

* `dumped_recordDumped`, `skipped_recordSeen`, `skipped_recordDumped`: one record.
* `skipped_foldl_recordSeen`, `skipped_foldl_recordDumped`: a run of records.
* `foldl_keeps`: what no record changes.
* `totalDumped_recordDumped`: the total of what was taken.
* `totalSkipped_eq_zero_iff`: nothing was left out exactly when no engine was.
-/

namespace SchemaPlan.Statistics

variable {s : Statistics} {engine x : String}

/-! ## One record -/

theorem skipped_recordSeen (s : Statistics) (engine x : String) :
    (s.recordSeen engine).skipped x = s.skipped x + if engine = x then 1 else 0 := by
  rw [skipped, skipped, recordSeen, Keyed.alter, Keyed.get?_insert]
  by_cases h : engine = x
  · subst h
    simp
  · simp [h]

/-- A record of a taken row lowers the counter of its engine, but not below zero. -/
theorem skipped_recordDumped (s : Statistics) (engine x : String) :
    (s.recordDumped engine).skipped x = s.skipped x - if engine = x then 1 else 0 := by
  unfold skipped recordDumped
  by_cases h : engine = x
  · subst h
    cases hget : s.skippedCounts.get? engine <;> simp [hget]
  · cases s.skippedCounts.get? engine <;> simp [h]

theorem dumped_recordDumped (s : Statistics) (engine x : String) :
    (s.recordDumped engine).dumped x = s.dumped x + if engine = x then 1 else 0 := by
  rw [dumped, dumped, recordDumped, Keyed.alter, Keyed.get?_insert]
  by_cases h : engine = x
  · subst h
    simp
  · simp [h]

@[simp] theorem dumpedCounts_recordSeen (s : Statistics) (engine : String) :
    (s.recordSeen engine).dumpedCounts = s.dumpedCounts := rfl

@[simp] theorem failures_recordSeen (s : Statistics) (engine : String) :
    (s.recordSeen engine).failures = s.failures := rfl

@[simp] theorem failures_recordDumped (s : Statistics) (engine : String) :
    (s.recordDumped engine).failures = s.failures := rfl

/-! ## Runs of records -/

theorem skipped_foldl_recordSeen (s : Statistics) (engines : List String) (x : String) :
    (engines.foldl recordSeen s).skipped x = s.skipped x + engines.count x := by
  induction engines generalizing s with
  | nil => simp
  | cons engine engines ih =>
    rw [List.foldl_cons, ih, skipped_recordSeen, List.count_cons]
    by_cases h : engine = x
    · simp only [h, if_true, beq_self_eq_true]
      omega
    · simp [h]

theorem skipped_foldl_recordDumped (s : Statistics) (engines : List String) (x : String) :
    (engines.foldl recordDumped s).skipped x = s.skipped x - engines.count x := by
  induction engines generalizing s with
  | nil => simp
  | cons engine engines ih =>
    rw [List.foldl_cons, ih, skipped_recordDumped, List.count_cons]
    by_cases h : engine = x
    · simp only [h, if_true, beq_self_eq_true]
      omega
    · simp [h]

theorem foldl_keeps {α : Type} {f : Statistics → α} {record : Statistics → String → Statistics}
    (h : ∀ s engine, f (record s engine) = f s) (s : Statistics) (engines : List String) :
    f (engines.foldl record s) = f s := by
  induction engines generalizing s with
  | nil => rfl
  | cons engine engines ih => rw [List.foldl_cons, ih, h]

/-! ## Totals -/

theorem total_eq_zero_iff {counts : Keyed Nat} :
    total counts = 0 ↔ ∀ x, (counts.get? x).getD 0 = 0 := by
  have hsum (l : List Nat) : l.foldr (· + ·) 0 = 0 ↔ ∀ n ∈ l, n = 0 := by
    induction l with
    | nil => simp
    | cons n l ih => rw [List.foldr_cons, Nat.add_eq_zero_iff, ih, List.forall_mem_cons]
  rw [total, hsum]
  constructor
  · intro h x
    cases hget : counts.get? x with
    | none => rfl
    | some n => exact h n (List.mem_map.mpr ⟨(x, n), Keyed.mem_pairs_iff.mpr hget, rfl⟩)
  · intro h n hn
    obtain ⟨⟨x, m⟩, hmem, rfl⟩ := List.mem_map.mp hn
    have := h x
    rwa [Keyed.mem_pairs_iff.mp hmem] at this

theorem sum_insertPair {l : List (String × Nat)} (h : l.Pairwise (·.1 < ·.1)) (key : String)
    (value : Nat) :
    ((insertPair key value l).map (·.2)).sum + ((l.find? (·.1 = key)).map (·.2)).getD 0 =
      (l.map (·.2)).sum + value := by
  induction l with
  | nil => simp [insertPair]
  | cons q rest ih =>
    obtain ⟨hq, hrest⟩ := List.pairwise_cons.mp h
    rw [insertPair]
    split
    · -- the key comes before all others, so that it had no value
      rename_i hlt
      have hnone : (q :: rest).find? (·.1 = key) = none := by
        rw [List.find?_eq_none]
        intro p hp
        have hle : key < p.1 := by
          rcases List.mem_cons.mp hp with rfl | hp
          · exact hlt
          · exact String.lt_trans hlt (hq p hp)
        simpa using fun e : p.1 = key => String.lt_irrefl _ (e ▸ hle)
      rw [hnone]
      simp only [List.map_cons, List.sum_cons, Option.map_none, Option.getD_none]
      omega
    · split
      · rename_i heq
        simp only [List.map_cons, List.sum_cons, List.find?_cons, heq, decide_true,
          Option.map_some, Option.getD_some]
        omega
      · rename_i hne
        have := ih hrest
        simp only [List.map_cons, List.sum_cons, List.find?_cons, Ne.symm hne, decide_false]
        omega

theorem totalDumped_recordDumped (s : Statistics) (engine : String) :
    (s.recordDumped engine).totalDumped = s.totalDumped + 1 := by
  have hsum := sum_insertPair s.dumpedCounts.ascending engine
    ((s.dumpedCounts.get? engine).getD 0 + 1)
  have hold : ((s.dumpedCounts.pairs.find? (·.1 = engine)).map (·.2)).getD 0 =
      (s.dumpedCounts.get? engine).getD 0 := rfl
  change ((insertPair engine ((s.dumpedCounts.get? engine).getD 0 + 1)
    s.dumpedCounts.pairs).map (·.2)).sum = (s.dumpedCounts.pairs.map (·.2)).sum + 1
  omega

theorem totalSkipped_eq_zero_iff : s.totalSkipped = 0 ↔ ∀ x, s.skipped x = 0 :=
  total_eq_zero_iff

end SchemaPlan.Statistics
