import Mathlib.Algebra.BigOperators.Finprod
import SchemaPlan.Proofs.ByteOrder
import SchemaPlan.Proofs.StatisticsLaws

/-!
# Counters after any history

What statistics say after any sequence of records, told by the sequence alone. The number of rows
taken is counted. The number of rows left out never falls below zero, so that rows taken before they
were seen are forgotten: it is the largest surplus of rows seen over rows taken that some end of the
sequence has.

* `Statistics.Record`, `Statistics.ofRecords`: a sequence of records and the statistics it makes.
* `Statistics.surplus`: by how much the rows seen exceed the rows taken.
* `Statistics.skipped_record`: one record; `Statistics.isGreatest_skipped`: a sequence of them.
* `Statistics.dumped_add_skipped_iff`: when no row is forgotten.
* `Statistics.Totals`, `Statistics.totals_nonZero`: the totals and the lists of engines.
* **`Statistics.counters_ofRecords`**: all of it together.
-/

namespace SchemaPlan.Statistics

/-! ## Records -/

/-- One record of an introspection. -/
inductive Record
  | seen (engine : String)
  | dumped (engine : String)
  | failed (table : UnreadableTable)
  deriving DecidableEq

namespace Record

/-- The record counts a row of the engine `x`. -/
def counts (x : String) : Record → Bool
  | seen engine | dumped engine => engine = x
  | failed _ => false

/-- The table a record reports as unreadable. -/
def failure? : Record → Option UnreadableTable
  | failed table => some table
  | seen _ | dumped _ => none

end Record

/-- The statistics after one more record. -/
def record (s : Statistics) : Record → Statistics
  | .seen engine => s.recordSeen engine
  | .dumped engine => s.recordDumped engine
  | .failed table => s.recordFailure table

/-- The statistics of a sequence of records, made in its order. -/
def ofRecords (records : List Record) : Statistics := records.foldl record .empty

/-- By how much the rows of the engine `x` that were seen exceed those that were taken. -/
def surplus (x : String) (records : List Record) : ℤ :=
  records.count (.seen x) - records.count (.dumped x)

variable {r : Record} {x : String}

theorem ofRecords_concat (records : List Record) (r : Record) :
    ofRecords (records ++ [r]) = (ofRecords records).record r := by
  rw [ofRecords, List.foldl_append]
  rfl

theorem surplus_append (x : String) (first last : List Record) :
    surplus x (first ++ last) = surplus x first + surplus x last := by
  simp only [surplus, List.count_append]
  omega

theorem surplus_seen (engine x : String) :
    surplus x [.seen engine] = if engine = x then 1 else 0 := by
  simp [surplus, List.count_singleton]

theorem surplus_dumped (engine x : String) :
    surplus x [.dumped engine] = if engine = x then -1 else 0 := by
  by_cases h : engine = x <;> simp [surplus, h]

/-! ## One record -/

theorem dumped_record (s : Statistics) (r : Record) (x : String) :
    (s.record r).dumped x = s.dumped x + [r].count (.dumped x) := by
  cases r with
  | dumped engine => simp [record, dumped_recordDumped, List.count_singleton]
  | seen engine | failed table => simp [record, dumped, recordFailure]

/-- **What one record makes of the rows left out**: the surplus moves their number, which stops at
zero. -/
theorem skipped_record (s : Statistics) (r : Record) (x : String) :
    ((s.record r).skipped x : ℤ) = max 0 (s.skipped x + surplus x [r]) := by
  cases r with
  | seen engine =>
    rw [record, skipped_recordSeen, surplus_seen]
    split <;> omega
  | dumped engine =>
    rw [record, skipped_recordDumped, surplus_dumped]
    split <;> omega
  | failed table => simp [record, recordFailure, skipped, surplus]

theorem record_of_counts_eq_false (s : Statistics) (h : r.counts x = false) :
    (s.record r).dumped x = s.dumped x ∧ (s.record r).skipped x = s.skipped x := by
  have hskipped := skipped_record s r x
  rw [dumped_record]
  cases r with
  | seen engine =>
    have hne : engine ≠ x := by simpa [Record.counts] using h
    rw [surplus_seen, if_neg hne] at hskipped
    exact ⟨by simp, by omega⟩
  | dumped engine =>
    have hne : engine ≠ x := by simpa [Record.counts] using h
    rw [surplus_dumped, if_neg hne] at hskipped
    exact ⟨by simp [hne], by omega⟩
  | failed table => exact ⟨by simp, rfl⟩

/-! ## Sequences of records -/

theorem dumped_ofRecords (records : List Record) (x : String) :
    (ofRecords records).dumped x = records.count (.dumped x) := by
  induction records using List.reverseRecOn with
  | nil => rfl
  | append_singleton records r ih =>
    rw [ofRecords_concat, dumped_record, ih, List.count_append]

theorem failures_ofRecords (records : List Record) :
    (ofRecords records).failures = records.filterMap Record.failure? := by
  induction records using List.reverseRecOn with
  | nil => rfl
  | append_singleton records r ih =>
    rw [ofRecords_concat, List.filterMap_append, ← ih]
    cases r <;> simp [record, recordFailure, Record.failure?]

/-- **The rows left out are the largest surplus of an end of the sequence.** -/
theorem isGreatest_skipped (records : List Record) (x : String) :
    IsGreatest {n : ℤ | ∃ last, last <:+ records ∧ surplus x last = n}
      ((ofRecords records).skipped x) := by
  induction records using List.reverseRecOn with
  | nil =>
    refine ⟨⟨[], List.suffix_rfl, rfl⟩, ?_⟩
    rintro _ ⟨last, hlast, rfl⟩
    rw [List.suffix_nil.mp hlast]
    rfl
  | append_singleton records r ih =>
    obtain ⟨⟨best, hbest, heq⟩, hbound⟩ := ih
    rw [ofRecords_concat, skipped_record]
    constructor
    · -- either the last record belongs to the best end, or that end is empty
      rcases max_choice 0 (((ofRecords records).skipped x : ℤ) + surplus x [r]) with h | h
      · exact ⟨[], List.nil_suffix, h.symm⟩
      · refine ⟨best ++ [r], List.suffix_concat_iff.mpr (.inr ⟨best, rfl, hbest⟩), ?_⟩
        rw [surplus_append, heq, h]
    · rintro _ ⟨last, hlast, rfl⟩
      rcases List.suffix_concat_iff.mp hlast with rfl | ⟨last, rfl, hshort⟩
      · exact le_max_left _ _
      · have := hbound ⟨last, hshort, rfl⟩
        rw [surplus_append]
        exact le_max_of_le_right (by omega)

theorem ofRecords_filter (records : List Record) (x : String) :
    (ofRecords (records.filter (·.counts x))).dumped x = (ofRecords records).dumped x ∧
      (ofRecords (records.filter (·.counts x))).skipped x = (ofRecords records).skipped x := by
  induction records using List.reverseRecOn with
  | nil => exact ⟨rfl, rfl⟩
  | append_singleton records r ih =>
    rw [List.filter_append, ofRecords_concat]
    cases hr : r.counts x with
    | false =>
      obtain ⟨hdumped, hskipped⟩ := record_of_counts_eq_false (ofRecords records) hr
      rw [hdumped, hskipped, List.filter_singleton, hr]
      simpa using ih
    | true =>
      have hskipped := skipped_record (ofRecords records) r x
      have hfiltered := skipped_record (ofRecords (records.filter (·.counts x))) r x
      rw [ih.2, ← hskipped] at hfiltered
      rw [List.filter_singleton, hr, cond_true, ofRecords_concat, dumped_record, dumped_record,
        ih.1]
      exact ⟨rfl, Int.ofNat_inj.mp hfiltered⟩

/-- **No row is forgotten exactly when none is taken before it was seen.** -/
theorem dumped_add_skipped_iff (records : List Record) (x : String) :
    (ofRecords records).dumped x + (ofRecords records).skipped x = records.count (.seen x) ↔
      ∀ first, first <+: records → first.count (.dumped x) ≤ first.count (.seen x) := by
  obtain ⟨⟨best, ⟨before, rfl⟩, hbest⟩, hbound⟩ := isGreatest_skipped records x
  rw [dumped_ofRecords]
  constructor
  · rintro h first ⟨last, hsplit⟩
    have hle := hbound ⟨last, ⟨first, hsplit⟩, rfl⟩
    have hsurplus := surplus_append x first last
    rw [hsplit] at hsurplus
    simp only [surplus] at hsurplus hle hbest
    omega
  · intro h
    have hle := hbound ⟨before ++ best, List.suffix_rfl, rfl⟩
    have hbefore := h before (List.prefix_append before best)
    have hsurplus := surplus_append x before best
    simp only [surplus] at hsurplus hle hbest
    omega

/-! ## Totals -/

/-- What a list of engines and a total say of the number of rows of each engine: the engines that
have any are listed once, in the order of their bytes, and the total is the sum over the list, which
is the sum over all engines. -/
structure Totals (count : String → Nat) (listed : List (String × Nat)) (total : Nat) : Prop where
  mem_iff : ∀ x n, (x, n) ∈ listed ↔ count x = n ∧ n ≠ 0
  ascending : listed.Pairwise fun p q => utf8 p.1 < utf8 q.1
  sum_listed : (listed.map (·.2)).sum = total
  finsum_eq : ∑ᶠ x, count x = total

theorem totals_nonZero (counts : Keyed Nat) :
    Totals (fun x => (counts.get? x).getD 0) (nonZero counts) (total counts) where
  mem_iff x n := by
    rw [nonZero, List.mem_filter, Keyed.mem_pairs_iff]
    cases counts.get? x with
    | none => exact ⟨by simp, fun ⟨h, hn⟩ => absurd h.symm hn⟩
    | some m => simp [Nat.pos_iff_ne_zero]
  ascending := (counts.ascending.filter _).imp utf8_lt_utf8_of_lt
  sum_listed := by
    have hpos (p : String × Nat) : decide (0 < p.2) = (p.2 != 0) := by
      cases p.2 <;> rfl
    rw [nonZero, List.filter_congr fun p _ => hpos p]
    have hmap := List.filter_map (p := (· != 0)) (f := Prod.snd) (l := counts.pairs)
    rw [Function.comp_def] at hmap
    rw [← hmap, List.sum_filter_bne_zero]
    rfl
  finsum_eq := by
    have hsupport : (Function.support fun x => (counts.get? x).getD 0) ⊆ counts.keys.toFinset := by
      intro x hx
      obtain ⟨n, hn⟩ : ∃ n, counts.get? x = some n := by
        by_contra! h
        exact hx (by simp [Option.eq_none_iff_forall_ne_some.mpr h])
      exact List.mem_toFinset.mpr (List.mem_map_of_mem (Keyed.mem_pairs_iff.mpr hn))
    rw [finsum_eq_sum_of_support_subset _ hsupport, List.sum_toFinset _ counts.keys_nodup,
      Keyed.keys, List.map_map]
    refine congrArg List.sum (List.map_congr_left fun p hp => ?_)
    simp [Keyed.mem_pairs_iff.mp hp]

/-- **The counters of statistics after any sequence of records.** For each engine, the rows taken
are counted, the rows left out are the largest surplus of an end of the sequence, both depend on the
records of the engine alone, and together they are the rows seen exactly when no row is taken before
it was seen. The failures stand in their order, and the totals and the lists agree with the
counters. -/
theorem counters_ofRecords (records : List Record) :
    (∀ x, (ofRecords records).dumped x = records.count (.dumped x) ∧
      IsGreatest {n : ℤ | ∃ last, last <:+ records ∧ surplus x last = n}
        ((ofRecords records).skipped x) ∧
      (∀ others, others.filter (·.counts x) = records.filter (·.counts x) →
        (ofRecords others).dumped x = (ofRecords records).dumped x ∧
          (ofRecords others).skipped x = (ofRecords records).skipped x) ∧
      ((ofRecords records).dumped x + (ofRecords records).skipped x = records.count (.seen x) ↔
        ∀ first, first <+: records → first.count (.dumped x) ≤ first.count (.seen x))) ∧
      (ofRecords records).failures = records.filterMap Record.failure? ∧
      Totals (ofRecords records).dumped (ofRecords records).dumpedEngines
        (ofRecords records).totalDumped ∧
      Totals (ofRecords records).skipped (ofRecords records).skippedEngines
        (ofRecords records).totalSkipped := by
  refine ⟨fun x => ⟨dumped_ofRecords records x, isGreatest_skipped records x, fun others h => ?_,
    dumped_add_skipped_iff records x⟩, failures_ofRecords records, totals_nonZero _,
    totals_nonZero _⟩
  obtain ⟨hdumped, hskipped⟩ := ofRecords_filter others x
  rw [h] at hdumped hskipped
  obtain ⟨hdumped', hskipped'⟩ := ofRecords_filter records x
  exact ⟨hdumped.symm.trans hdumped', hskipped.symm.trans hskipped'⟩

/-- A row that is taken before it was seen is forgotten. -/
example :
    let s := ofRecords [.dumped "Log", .seen "Log", .seen "View", .seen "Log", .dumped "Log"]
    s.dumpedEngines = [("Log", 2)] ∧ s.skippedEngines = [("Log", 1), ("View", 1)] := by
  decide

end SchemaPlan.Statistics
