import Mathlib.Data.List.Nodup
import SchemaPlan.Catalog.Introspect

/-!
# The order of rows

Rows are taken in by their places, a place being a database and a name. Rows with distinct places
have only one order.

* `InOrder`: the order of places; `InOrder.trans`, `InOrder.total`, `InOrder.antisymm`.
* `TableRow.place`: the place of a row; `TableRow.before_trans`, `TableRow.before_total`: rows are
  sorted by it.
* `Filter.select_perm`, `Filter.select_pairwise`: the rows that a filter chooses, in order.
* `Filter.eq_select`: any other way to put them in order gives the same list.
* `filter_mergeSort`, `Filter.select_filter`: rows that are left out before or after.
-/

namespace SchemaPlan

/-- Places are in order: by database, then by name. -/
def InOrder (a b : String × String) : Prop := a.1 < b.1 ∨ a.1 = b.1 ∧ a.2 ≤ b.2

instance : DecidableRel InOrder := fun a b =>
  inferInstanceAs (Decidable (a.1 < b.1 ∨ a.1 = b.1 ∧ a.2 ≤ b.2))

namespace InOrder

variable {a b c : String × String}

theorem trans (hab : InOrder a b) (hbc : InOrder b c) : InOrder a c := by
  rcases hab with hab | ⟨hab, hab'⟩
  · rcases hbc with hbc | ⟨hbc, _⟩
    · exact .inl (String.lt_trans hab hbc)
    · exact .inl (hbc ▸ hab)
  · rcases hbc with hbc | ⟨hbc, hbc'⟩
    · exact .inl (hab ▸ hbc)
    · exact .inr ⟨hab.trans hbc, String.le_trans hab' hbc'⟩

theorem total (a b : String × String) : InOrder a b ∨ InOrder b a := by
  by_cases hab : a.1 < b.1
  · exact .inl (.inl hab)
  by_cases hba : b.1 < a.1
  · exact .inr (.inl hba)
  have heq : a.1 = b.1 := String.le_antisymm (String.not_lt.mp hba) (String.not_lt.mp hab)
  exact (String.le_total a.2 b.2).imp (fun h => .inr ⟨heq, h⟩) fun h => .inr ⟨heq.symm, h⟩

theorem antisymm (hab : InOrder a b) (hba : InOrder b a) : a = b := by
  rcases hab with hab | ⟨hab, hab'⟩
  · rcases hba with hba | ⟨hba, _⟩
    · exact absurd (String.lt_trans hab hba) (String.lt_irrefl _)
    · exact absurd (hba ▸ hab) (String.lt_irrefl _)
  · rcases hba with hba | ⟨_, hba'⟩
    · exact absurd (hab ▸ hba) (String.lt_irrefl _)
    · exact Prod.ext hab (String.le_antisymm hab' hba')

end InOrder

namespace TableRow

/-- The place of a row. -/
def place (row : TableRow) : String × String := (row.database, row.name)

theorem before_iff {a b : TableRow} : a.before b = true ↔ InOrder a.place b.place := by
  simp [before, InOrder, place]

theorem before_trans (a b c : TableRow) (hab : a.before b = true) (hbc : b.before c = true) :
    a.before c = true := by
  rw [before_iff] at hab hbc ⊢
  exact hab.trans hbc

theorem before_total (a b : TableRow) : (a.before b || b.before a) = true := by
  rw [Bool.or_eq_true, before_iff, before_iff]
  exact InOrder.total _ _

end TableRow

/-! ## Stable sorts -/

section Stable

variable {α : Type} {le : α → α → Bool}

/-- Where a stable sort puts the first element: after the elements that it is not before. -/
theorem mergeSort_cons_of_split (trans : ∀ a b c, le a b → le b c → le a c)
    (total : ∀ a b, le a b || le b a) {a : α} {l before after : List α}
    (h : l.mergeSort le = before ++ after) (hbefore : ∀ b ∈ before, (!le a b) = true)
    (hafter : ∀ b ∈ after, le a b = true) : (a :: l).mergeSort le = before ++ a :: after := by
  obtain ⟨l₁, l₂, hcons, hl, h₁⟩ := List.mergeSort_cons trans total a l
  have hsorted := List.pairwise_mergeSort trans total (a :: l)
  rw [hcons, List.pairwise_append, List.pairwise_cons] at hsorted
  have h₂ : ∀ b ∈ l₂, le a b = true := hsorted.2.1.1
  -- both splits separate the elements that `a` is before from the others
  have hsplit : before ++ after = l₁ ++ l₂ := h.symm.trans hl
  have hfirst {xs ys : List α} (hxs : ∀ b ∈ xs, (!le a b) = true)
      (hys : ∀ b ∈ ys, le a b = true) : (xs ++ ys).filter (!le a ·) = xs := by
    rw [List.filter_append, List.filter_eq_self.mpr hxs,
      List.filter_eq_nil_iff.mpr fun b hb => by simp [hys b hb], List.append_nil]
  have hleft : before = l₁ := by
    rw [← hfirst hbefore hafter, hsplit, hfirst h₁ h₂]
  rw [hleft, List.append_cancel_left_eq] at hsplit
  rw [hcons, hleft, hsplit]

/-- A stable sort commutes with leaving elements out. -/
theorem filter_mergeSort (trans : ∀ a b c, le a b → le b c → le a c)
    (total : ∀ a b, le a b || le b a) (p : α → Bool) (l : List α) :
    (l.filter p).mergeSort le = (l.mergeSort le).filter p := by
  induction l with
  | nil => simp
  | cons a l ih =>
    obtain ⟨l₁, l₂, hcons, hl, h₁⟩ := List.mergeSort_cons trans total a l
    rw [hl, List.filter_append] at ih
    rw [hcons, List.filter_append]
    by_cases ha : p a = true
    · have hsorted := List.pairwise_mergeSort trans total (a :: l)
      rw [hcons, List.pairwise_append, List.pairwise_cons] at hsorted
      rw [List.filter_cons_of_pos ha, List.filter_cons_of_pos ha]
      refine mergeSort_cons_of_split trans total ih (fun b hb => ?_) fun b hb => ?_
      · exact h₁ b (List.mem_filter.mp hb).1
      · exact hsorted.2.1.1 b (List.mem_filter.mp hb).1
    · rw [List.filter_cons_of_neg ha, List.filter_cons_of_neg ha, ih]

end Stable

namespace Filter

/-- The filter chooses a row. -/
def chooses (filter : Filter) (row : TableRow) : Bool := filter.matchesTable row.database row.name

theorem select_perm (filter : Filter) (rows : List TableRow) :
    (filter.select rows).Perm (rows.filter filter.chooses) :=
  List.mergeSort_perm _ _

theorem select_pairwise (filter : Filter) (rows : List TableRow) :
    ((filter.select rows).map TableRow.place).Pairwise InOrder := by
  rw [List.pairwise_map]
  exact (List.pairwise_mergeSort TableRow.before_trans TableRow.before_total _).imp
    TableRow.before_iff.mp

/-- **Rows with distinct places have only one order.** -/
theorem eq_select {filter : Filter} {rows chosen : List TableRow}
    (hd : (rows.map TableRow.place).Nodup) (hperm : chosen.Perm (rows.filter filter.chooses))
    (hsorted : (chosen.map TableRow.place).Pairwise InOrder) : chosen = filter.select rows := by
  have hmem {a : TableRow} (ha : a ∈ chosen) : a ∈ rows :=
    (List.mem_filter.mp (hperm.mem_iff.mp ha)).1
  refine (hperm.trans (filter.select_perm rows).symm).eq_of_pairwise (fun a b ha hb hab hba => ?_)
    (List.pairwise_map.mp hsorted) (List.pairwise_map.mp (filter.select_pairwise rows))
  have hb : b ∈ rows := (List.mem_filter.mp ((filter.select_perm rows).mem_iff.mp hb)).1
  exact List.inj_on_of_nodup_map hd (hmem ha) hb (hab.antisymm hba)

theorem select_filter (filter : Filter) (p : TableRow → Bool) (rows : List TableRow) :
    filter.select (rows.filter p) = (filter.select rows).filter p := by
  have hcomm : (rows.filter p).filter filter.chooses = (rows.filter filter.chooses).filter p := by
    rw [List.filter_filter, List.filter_filter]
    exact List.filter_congr fun row _ => Bool.and_comm _ _
  exact (congrArg (·.mergeSort TableRow.before) hcomm).trans
    (filter_mergeSort TableRow.before_trans TableRow.before_total p _)

theorem select_eq_self {filter : Filter} {rows : List TableRow}
    (hd : (rows.map TableRow.place).Nodup) (hchosen : rows.filter filter.chooses = rows)
    (hsorted : (rows.map TableRow.place).Pairwise InOrder) : filter.select rows = rows :=
  (eq_select hd (.of_eq hchosen.symm) hsorted).symm

end Filter

end SchemaPlan
