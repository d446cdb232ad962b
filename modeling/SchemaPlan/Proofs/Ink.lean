import Mathlib.Algebra.GroupWithZero.Nat
import Mathlib.Algebra.Order.BigOperators.Group.List
import Mathlib.Algebra.Order.Group.Nat
import SchemaPlan.Engine.Parse
import SchemaPlan.Proofs.Pieces

/-!
# Ink

How many characters of a text are not blank. Reading never adds any, so that a reading with less
ink than what was written is not what was written.

* `ink_trim`, `ink_unquote_le`: trimming and taking off quotes.
* `ink_splitPieces`: each cut at a comma takes one character away.
* `ink_commaList_le`: the columns or brokers in a list have no more ink than the list.
-/

namespace SchemaPlan

variable {cs ds : List Char}

/-- The number of characters that are not blank. -/
def ink (cs : List Char) : Nat := cs.countP fun c => !isBlank c

@[simp] theorem ink_nil : ink [] = 0 := rfl

@[simp] theorem ink_append (cs ds : List Char) : ink (cs ++ ds) = ink cs + ink ds :=
  List.countP_append

theorem ink_cons {c : Char} (h : isBlank c = false) (cs : List Char) :
    ink (c :: cs) = ink cs + 1 := List.countP_cons_of_pos (by simp [h])

theorem ink_blanks (h : ∀ b ∈ cs, isBlank b = true) : ink cs = 0 :=
  List.countP_eq_zero.mpr fun b hb => by simp [h b hb]

theorem ink_le_of_sublist (h : cs.Sublist ds) : ink cs ≤ ink ds := h.countP_le

theorem ink_trim (cs : List Char) : ink (trim cs) = ink cs := by
  obtain ⟨before, after, h, hbefore, hafter⟩ := exists_trim cs
  conv_rhs => rw [h, ink_append, ink_append, ink_blanks hbefore, ink_blanks hafter]
  omega

/-! ## Quotes -/

namespace Sql

theorem unescape_sublist (cs : List Char) : (unescape cs).Sublist cs := by
  fun_induction unescape cs with
  | case1 c cs ih => exact (ih.cons_cons c).cons _
  | case2 c cs _ ih => exact ih.cons_cons c
  | case3 => exact List.Sublist.refl _

theorem between?_sublist {opening closing : Char} {inner : List Char}
    (h : between? opening closing cs = some inner) : inner.Sublist cs := by
  rw [between?_eq_some_iff.mp h]
  exact (List.sublist_append_left inner _).cons _

/-- What a text stands for: the inside of a literal, or the text itself without the blanks at its
ends. -/
theorem unquote_cases (cs : List Char) : unquote cs = trim cs ∨
    ∃ inner, unquote cs = unescape inner ∧ inner.Sublist cs ∧ inner.length < cs.length := by
  have hinner {mark : Char} {inner : List Char} (h : between? mark mark (trim cs) = some inner) :
      inner.Sublist cs ∧ inner.length < cs.length := by
    have hlength := congrArg List.length (between?_eq_some_iff.mp h)
    have := (trim_sublist cs).length_le
    rw [List.length_cons, List.length_append, List.length_singleton] at hlength
    exact ⟨(between?_sublist h).trans (trim_sublist cs), by omega⟩
  unfold unquote
  split
  · rename_i inner h
    exact .inr ⟨inner, rfl, hinner h⟩
  · split
    · rename_i inner h
      exact .inr ⟨inner, rfl, hinner h⟩
    · exact .inl rfl

theorem unquote_sublist (cs : List Char) : (unquote cs).Sublist cs := by
  obtain h | ⟨inner, h, hsub, _⟩ := unquote_cases cs
  · exact h ▸ trim_sublist cs
  · exact h ▸ (unescape_sublist inner).trans hsub

theorem ink_unquote_le (cs : List Char) : ink (unquote cs) ≤ ink cs :=
  ink_le_of_sublist (unquote_sublist cs)

theorem trim_of_unquote (h : unquote cs = cs) : trim cs = cs := by
  obtain e | ⟨inner, e, _, hlt⟩ := unquote_cases cs
  · rw [← e, h]
  · have := (unescape_sublist inner).length_le
    rw [← e, h] at this
    omega

/-! ## Cuts -/

theorem ink_piecesFrom (s : ScanState) (cs : List Char) :
    ((piecesFrom s cs).map ink).sum + (piecesFrom s cs).length = ink cs + 1 := by
  induction cs generalizing s with
  | nil => rfl
  | cons c cs ih =>
    have hrest := ih (s.step c)
    by_cases hc : s.exposes c = true ∧ c = ','
    · obtain ⟨he, rfl⟩ := hc
      rw [piecesFrom_cons_comma he, List.map_cons, List.sum_cons, List.length_cons,
        ink_cons (by decide), ink_nil]
      omega
    · obtain ⟨piece, rest, e, e'⟩ := piecesFrom_cons_of_ne (not_and.mp hc) cs
      have hwhole : ink (c :: cs) = ink [c] + ink cs := ink_append [c] cs
      have hpiece : ink (c :: piece) = ink [c] + ink piece := ink_append [c] piece
      rw [e, List.map_cons, List.sum_cons, List.length_cons] at hrest
      rw [e', List.map_cons, List.sum_cons, List.length_cons]
      omega

theorem ink_splitPieces (cs : List Char) :
    ((splitPieces cs).map ink).sum + (splitPieces cs).length = ink cs + 1 := by
  have htrim : (splitPieces cs).map ink = (pieces cs).map ink := by
    rw [splitPieces, List.map_map]
    exact List.map_congr_left fun piece _ => ink_trim piece
  rw [htrim, splitPieces, List.length_map]
  exact ink_piecesFrom .start cs

theorem ink_keyword (k : Clause) : 3 ≤ ink k.keyword.toList := by cases k <;> decide

end Sql

/-! ## Lists cut at every comma -/

theorem ink_intercalate (sep : List Char) (hsep : ink sep = 1) {l : List (List Char)}
    (hne : l ≠ []) : ink (sep.intercalate l) + 1 = (l.map (ink · + 1)).sum := by
  induction l with
  | nil => exact absurd rfl hne
  | cons p l ih =>
    cases l with
    | nil => simp
    | cons q l =>
      have hrest := ih (by simp)
      rw [List.intercalate_cons_cons, ink_append, ink_append, List.map_cons, List.sum_cons, hsep]
      omega

theorem ink_commaList_le (cs : List Char) :
    ink ([',', ' '].intercalate ((commaList cs).map String.toList)) ≤ ink cs := by
  have hparts : (commaList cs).map String.toList =
      ((cs.splitOn ',').map trim).filter (!·.isEmpty) := by
    rw [commaList, List.map_filterMap, ← List.filterMap_eq_filter]
    refine List.filterMap_congr fun part _ => ?_
    cases h : part.isEmpty <;> simp [h, Option.guard]
  rw [hparts]
  rcases eq_or_ne (((cs.splitOn ',').map trim).filter (!·.isEmpty)) [] with hnil | hne
  · rw [hnil]
    exact Nat.zero_le _
  have hkept := ink_intercalate [',', ' '] (by decide) hne
  have hall := ink_intercalate [','] (by decide) (List.splitOn_ne_nil ',' cs)
  rw [List.intercalate_splitOn] at hall
  have htrim : ((cs.splitOn ',').map trim).map (ink · + 1) =
      (cs.splitOn ',').map (ink · + 1) := by
    rw [List.map_map]
    exact List.map_congr_left fun part _ => by rw [Function.comp_apply, ink_trim]
  have hle : ((((cs.splitOn ',').map trim).filter (!·.isEmpty)).map (ink · + 1)).sum ≤
      (((cs.splitOn ',').map trim).map (ink · + 1)).sum :=
    (List.filter_sublist.map _).sum_le_sum fun _ _ => Nat.zero_le _
  rw [htrim] at hle
  omega

end SchemaPlan
