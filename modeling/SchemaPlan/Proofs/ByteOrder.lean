import Mathlib.Tactic.ByContra
import Mathlib.Tactic.SplitIfs

/-!
# The order of texts by their bytes

Texts are compared character by character. This is the order of their bytes in UTF-8, because the
encoding of the smaller one of two characters has a smaller byte at the first difference.

* `DiffersBelow`: two lists differ at some place, and the first one is smaller there.
* `utf8Digits_below`: the bytes of two characters, as numbers.
* **`utf8_lt_utf8_iff`**: the two orders are the same.
* `pairwise_mergeSort_text`: what is sorted by a text is in the order of these texts.
-/

namespace SchemaPlan

/-- Neither list goes on where the other one ends before they differ, and the first one is smaller
where they do. -/
def DiffersBelow {α : Type} [LT α] : List α → List α → Prop
  | x :: l, y :: m => x < y ∨ x = y ∧ DiffersBelow l m
  | _, _ => False

theorem DiffersBelow.append_lt {α : Type} [LT α] {l m : List α} (h : DiffersBelow l m)
    (a b : List α) : l ++ a < m ++ b := by
  induction l generalizing m with
  | nil => cases h
  | cons x l ih =>
    cases m with
    | nil => cases h
    | cons y m =>
      rw [List.cons_append, List.cons_append, List.cons_lt_cons_iff]
      exact h.imp_right fun ⟨e, h⟩ => ⟨e, ih h⟩

/-! ## The bytes of a character -/

/-- The bytes of the character with a given code point, as numbers. -/
def utf8Digits (v : Nat) : List Nat :=
  if v ≤ 0x7f then [v]
  else if v ≤ 0x7ff then [v / 64 % 0x20 + 0xc0, v % 0x40 + 0x80]
  else if v ≤ 0xffff then [v / 64 / 64 % 0x10 + 0xe0, v / 64 % 0x40 + 0x80, v % 0x40 + 0x80]
  else
    [v / 64 / 64 / 64 % 0x08 + 0xf0, v / 64 / 64 % 0x40 + 0x80, v / 64 % 0x40 + 0x80,
      v % 0x40 + 0x80]

theorem utf8EncodeChar_eq_map (c : Char) :
    String.utf8EncodeChar c = (utf8Digits c.val.toNat).map UInt8.ofNat := by
  simp only [String.utf8EncodeChar, utf8Digits, Nat.div_div_eq_div_mul]
  split_ifs <;> rfl

theorem lt_of_mem_utf8Digits {v d : Nat} (h : d ∈ utf8Digits v) : d < 256 := by
  unfold utf8Digits at h
  split_ifs at h <;> simp only [List.mem_cons, List.not_mem_nil, or_false] at h <;> omega

theorem utf8Digits_below {v w : Nat} (h : v < w) (hw : w < 0x110000) :
    DiffersBelow (utf8Digits v) (utf8Digits w) := by
  unfold utf8Digits
  split_ifs <;> simp only [DiffersBelow] <;> omega

theorem DiffersBelow.map_ofNat {l m : List Nat} (h : DiffersBelow l m) (hm : ∀ d ∈ m, d < 256) :
    DiffersBelow (l.map UInt8.ofNat) (m.map UInt8.ofNat) := by
  induction l generalizing m with
  | nil => cases h
  | cons x l ih =>
    cases m with
    | nil => cases h
    | cons y m =>
      have hy : y < 256 := hm y List.mem_cons_self
      refine h.imp (fun hlt => ?_) fun ⟨e, h⟩ => ⟨congrArg _ e, ih h fun d hd =>
        hm d (List.mem_cons_of_mem _ hd)⟩
      rwa [UInt8.lt_iff_toNat_lt, UInt8.toNat_ofNat_of_lt' hy,
        UInt8.toNat_ofNat_of_lt' (Nat.lt_trans hlt hy)]

theorem utf8EncodeChar_below {a b : Char} (h : a < b) :
    DiffersBelow (String.utf8EncodeChar a) (String.utf8EncodeChar b) := by
  have hb : b.val.toNat < 0x110000 := by
    have hvalid := b.valid
    simp only [UInt32.isValidChar, Nat.isValidChar] at hvalid
    omega
  rw [utf8EncodeChar_eq_map, utf8EncodeChar_eq_map]
  exact (utf8Digits_below h hb).map_ofNat fun d => lt_of_mem_utf8Digits

/-! ## The bytes of a text -/

/-- The bytes of a text in UTF-8. -/
def utf8 (s : String) : List UInt8 := s.toUTF8.data.toList

theorem utf8_eq_flatMap (s : String) : utf8 s = s.toList.flatMap String.utf8EncodeChar := by
  rw [utf8, String.toUTF8_eq_toByteArray, ← String.utf8Encode_toList, List.utf8Encode]
  simp

theorem flatMap_utf8EncodeChar_lt {l m : List Char} (h : l < m) :
    l.flatMap String.utf8EncodeChar < m.flatMap String.utf8EncodeChar := by
  induction h with
  | nil =>
    rename_i b m
    rw [List.flatMap_nil, List.flatMap_cons]
    cases hb : String.utf8EncodeChar b with
    | nil => exact absurd hb String.utf8EncodeChar_ne_nil
    | cons x l => exact List.nil_lt_cons x _
  | cons _ ih =>
    rw [List.flatMap_cons, List.flatMap_cons]
    exact List.append_left_lt ih
  | rel hab =>
    rw [List.flatMap_cons, List.flatMap_cons]
    exact (utf8EncodeChar_below hab).append_lt _ _

theorem utf8_lt_utf8_of_lt {s t : String} (h : s < t) : utf8 s < utf8 t := by
  rw [utf8_eq_flatMap, utf8_eq_flatMap]
  exact flatMap_utf8EncodeChar_lt h

/-- **Texts are in the order of their bytes.** -/
theorem utf8_lt_utf8_iff {s t : String} : utf8 s < utf8 t ↔ s < t := by
  refine ⟨fun h => ?_, utf8_lt_utf8_of_lt⟩
  by_contra hst
  have hne : s ≠ t := by
    rintro rfl
    exact List.lt_irrefl _ h
  have hts : t < s :=
    String.not_le.mp fun hle => hne (String.le_antisymm hle (String.not_lt.mp hst))
  exact List.lt_asymm h (utf8_lt_utf8_of_lt hts)

/-! ## Sorted lists -/

theorem pairwise_mergeSort_text {α : Type} (text : α → String) (l : List α) :
    (l.mergeSort fun x y => text x ≤ text y).Pairwise fun x y => text x ≤ text y := by
  refine (List.pairwise_mergeSort (fun x y z hxy hyz => ?_) (fun x y => ?_) _).imp
    of_decide_eq_true
  · exact decide_eq_true (String.le_trans (of_decide_eq_true hxy) (of_decide_eq_true hyz))
  · simpa using String.le_total _ _

end SchemaPlan
