import Mathlib.Data.List.Infix
import Mathlib.Data.List.TakeWhile
import SchemaPlan.Text.Blank
import SchemaPlan.Text.Infix

/-!
# First places

What is found by searching a text: the first place of a mark, and the first word.

* `FirstPlace`, `cutAt?_eq_some_iff`: the first place of a mark; `upTo_of_firstPlace`: what stands
  before it.
* `cutAt?_append`: the first place of a mark that cannot overlap itself.
* `spaced`, `cutAt?_words`: a word between spaces is not found among other words.
* `FirstWord`, `firstWord?_eq_some_iff`: the first word.
-/

namespace SchemaPlan

variable {mark cs before after key word start : List Char} {words : List (List Char)}

/-! ## First places -/

/-- The first place of a mark in a text, by what stands before it and what stands after it. -/
structure FirstPlace (mark cs before after : List Char) : Prop where
  eq : cs = before ++ (mark ++ after)
  first : ∀ earlier later, cs = earlier ++ (mark ++ later) → before.length ≤ earlier.length

theorem FirstPlace.unique {before' after' : List Char} (h : FirstPlace mark cs before after)
    (h' : FirstPlace mark cs before' after') : before = before' ∧ after = after' := by
  have hlength := Nat.le_antisymm (h.first _ _ h'.eq) (h'.first _ _ h.eq)
  obtain ⟨hbefore, hrest⟩ := List.append_inj (h.eq.symm.trans h'.eq) hlength
  exact ⟨hbefore, List.append_cancel_left hrest⟩

theorem firstPlace_of_cutAt? (h : cutAt? mark cs = some (before, after)) :
    FirstPlace mark cs before after := by
  induction cs generalizing before with
  | nil =>
    rw [cutAt?] at h
    split at h
    · rename_i hmark
      cases h
      rw [List.isEmpty_iff.mp hmark]
      exact ⟨rfl, fun _ _ _ => Nat.zero_le _⟩
    · cases h
  | cons c cs ih =>
    rw [cutAt?] at h
    split at h
    · rename_i rest hprefix
      cases h
      exact ⟨(List.isPrefixOf?_eq_some_iff_append_eq.mp hprefix).symm, fun _ _ _ => Nat.zero_le _⟩
    · rename_i hnone
      obtain ⟨⟨b, a⟩, hcut, hparts⟩ := Option.map_eq_some_iff.mp h
      cases hparts
      have htail := ih hcut
      refine ⟨congrArg (c :: ·) htail.eq, fun earlier later hcs => ?_⟩
      cases earlier with
      | nil =>
        rw [List.nil_append] at hcs
        rw [List.isPrefixOf?_eq_some_iff_append_eq.mpr hcs.symm] at hnone
        cases hnone
      | cons d earlier =>
        exact Nat.succ_le_succ (htail.first earlier later (List.cons.inj hcs).2)

theorem cutAt?_append_ne_none (mark before after : List Char) :
    cutAt? mark (before ++ (mark ++ after)) ≠ none := by
  induction before with
  | nil =>
    cases hcs : mark ++ after with
    | nil => simp [cutAt?, (List.append_eq_nil_iff.mp hcs).1]
    | cons c cs =>
      rw [List.nil_append, cutAt?, List.isPrefixOf?_eq_some_iff_append_eq.mpr hcs]
      simp
  | cons c before ih =>
    rw [List.cons_append, cutAt?]
    split
    · simp
    · simpa using ih

theorem cutAt?_eq_some_iff :
    cutAt? mark cs = some (before, after) ↔ FirstPlace mark cs before after := by
  refine ⟨firstPlace_of_cutAt?, fun h => ?_⟩
  obtain ⟨⟨b, a⟩, hcut⟩ := Option.ne_none_iff_exists'.mp
    (h.eq ▸ cutAt?_append_ne_none mark before after)
  obtain ⟨rfl, rfl⟩ := h.unique (firstPlace_of_cutAt? hcut)
  exact hcut

theorem upTo_of_firstPlace (h : FirstPlace mark cs before after) : upTo mark cs = before := by
  rw [upTo, cutAt?_eq_some_iff.mpr h]

/-- A mark whose first character does not come again in it is found after a text without it. -/
theorem cutAt?_append {c : Char} {head rest : List Char} (hc : c ∉ mark)
    (hhead : ¬c :: mark <:+: head) :
    cutAt? (c :: mark) (head ++ (c :: mark ++ rest)) = some (head, rest) := by
  refine cutAt?_eq_some_iff.mpr ⟨rfl, fun earlier later hplace => ?_⟩
  rcases List.append_eq_append_iff.mp hplace with ⟨part, hearlier, -⟩ | ⟨part, rfl, hpart⟩
  · simp [hearlier]
  rcases List.append_eq_append_iff.mp hpart with ⟨more, rfl, -⟩ | ⟨more, hmark, hrest⟩
  · exact absurd ⟨earlier, more, by simp⟩ hhead
  rcases part with _ | ⟨d, part⟩
  · simp
  rcases more with _ | ⟨e, more⟩
  · exact absurd ⟨earlier, [], by simp [hmark]⟩ hhead
  · -- the mark reaches into the mark that follows, so that its first character comes again
    have hsame : e = c := (List.cons.inj hrest).1.symm
    have hmember : e ∈ mark := (List.cons.inj hmark).2 ▸ List.mem_append_right _ List.mem_cons_self
    exact absurd (hsame ▸ hmember) hc

/-! ## Words between spaces -/

/-- A word between spaces. -/
def spaced (word : List Char) : List Char := ' ' :: (word ++ [' '])

/-- Words with a space before each. -/
def afterSpaces (words : List (List Char)) : List Char := words.flatMap (' ' :: ·)

/-- A text starts with a space, if with anything. -/
def StartsWithSpace (cs : List Char) : Prop := ∀ c ∈ cs.head?, c = ' '

instance (cs : List Char) : Decidable (StartsWithSpace cs) :=
  match cs with
  | [] => isTrue nofun
  | c :: _ => decidable_of_iff (c = ' ') (by simp [StartsWithSpace])

theorem StartsWithSpace.of_prefix (h : StartsWithSpace cs) (hbefore : before <+: cs) :
    StartsWithSpace before := by
  intro c hc
  obtain ⟨after, rfl⟩ := hbefore
  exact h c (List.mem_head?_append_of_mem_head? hc)

theorem takeWhile_word (hword : ' ' ∉ word) (hcs : StartsWithSpace cs) :
    (word ++ cs).takeWhile (· ≠ ' ') = word := by
  have hpos : ∀ c ∈ word, decide (c ≠ ' ') = true := fun c hc => by
    simpa using ne_of_mem_of_not_mem hc hword
  rw [List.takeWhile_append_of_pos hpos]
  cases cs with
  | nil => simp
  | cons c cs => simp [hcs c rfl]

theorem cutAt?_spaceless (hword : ' ' ∉ word) (mark cs : List Char) :
    cutAt? (' ' :: mark) (word ++ cs) =
      (cutAt? (' ' :: mark) cs).map fun p => (word ++ p.1, p.2) := by
  induction word with
  | nil => simp
  | cons c word ih =>
    rw [List.mem_cons, not_or] at hword
    obtain ⟨hc, hword⟩ := hword
    have hnone : (' ' :: mark).isPrefixOf? (c :: (word ++ cs)) = none := by
      simp [List.isPrefixOf?, hc]
    rw [List.cons_append, cutAt?, hnone, ih hword]
    simp [Option.map_map, Function.comp_def]

theorem cutAt?_other_word (hkey : ' ' ∉ key) (hword : ' ' ∉ word) (hne : word ≠ key)
    (hcs : StartsWithSpace cs) :
    cutAt? (spaced key) (' ' :: (word ++ cs)) =
      (cutAt? (spaced key) cs).map fun p => (' ' :: (word ++ p.1), p.2) := by
  have hnone : (spaced key).isPrefixOf? (' ' :: (word ++ cs)) = none := by
    rw [Option.eq_none_iff_forall_ne_some]
    intro rest hrest
    have hprefix := List.isPrefixOf?_eq_some_iff_append_eq.mp hrest
    rw [spaced, List.cons_append, List.cons.injEq, List.append_assoc] at hprefix
    have hsame := congrArg (List.takeWhile (· ≠ ' ')) hprefix.2
    rw [takeWhile_word hword hcs, takeWhile_word hkey (by simp [StartsWithSpace])] at hsame
    exact hne hsame.symm
  rw [cutAt?, hnone]
  simp only [spaced, cutAt?_spaceless hword, Option.map_map, Function.comp_def]

/-- **A spaced word is not found among other words.** -/
theorem cutAt?_words (hkey : ' ' ∉ key)
    (hwords : ∀ word ∈ words, ' ' ∉ word ∧ word ≠ key) (hcs : StartsWithSpace cs) :
    cutAt? (spaced key) (afterSpaces words ++ cs) =
      (cutAt? (spaced key) cs).map fun p => (afterSpaces words ++ p.1, p.2) := by
  induction words with
  | nil => simp [afterSpaces]
  | cons word words ih =>
    obtain ⟨⟨hword, hne⟩, hwords⟩ := List.forall_mem_cons.mp hwords
    have hrest : StartsWithSpace (afterSpaces words ++ cs) := by
      cases words with
      | nil => exact hcs
      | cons => simp [StartsWithSpace, afterSpaces]
    have hsplit (ds : List Char) :
        afterSpaces (word :: words) ++ ds = ' ' :: (word ++ (afterSpaces words ++ ds)) := by
      simp [afterSpaces]
    simp only [hsplit, cutAt?_other_word hkey hword hne hrest, ih hwords, Option.map_map,
      Function.comp_def]

/-- What a text has before a spaced word, if it starts with other words. -/
theorem cutAt?_after_words (hstart : ' ' ∉ start)
    (hkey : ' ' ∉ key) (hwords : ∀ word ∈ words, ' ' ∉ word ∧ word ≠ key)
    (hcs : StartsWithSpace cs) : cutAt? (spaced key) (start ++ (afterSpaces words ++ cs)) =
      (cutAt? (spaced key) cs).map fun p => (start ++ (afterSpaces words ++ p.1), p.2) := by
  have hcut := cutAt?_words hkey hwords hcs
  rw [spaced] at hcut ⊢
  rw [cutAt?_spaceless hstart, hcut, Option.map_map]
  rfl

theorem upTo_after_words (hstart : ' ' ∉ start)
    (hkey : ' ' ∉ key) (hwords : ∀ word ∈ words, ' ' ∉ word ∧ word ≠ key)
    (hcs : StartsWithSpace cs) : upTo (spaced key) (start ++ (afterSpaces words ++ cs)) =
      start ++ (afterSpaces words ++ upTo (spaced key) cs) := by
  rw [upTo, upTo, cutAt?_after_words hstart hkey hwords hcs]
  cases cutAt? (spaced key) cs <;> rfl

theorem cutAt?_spaced (key cs : List Char) :
    cutAt? (spaced key) (spaced key ++ cs) = some ([], cs) :=
  cutAt?_eq_some_iff.mpr ⟨rfl, fun _ _ _ => Nat.zero_le _⟩

/-! ## First words -/

/-- The first word of a text: blanks may stand before it, and it goes as far as the next one. -/
structure FirstWord (cs word : List Char) : Prop where
  nonempty : word ≠ []
  blankless : ∀ c ∈ word, isBlank c = false
  split : ∃ blanks rest, cs = blanks ++ (word ++ rest) ∧ (∀ c ∈ blanks, isBlank c = true) ∧
    ∀ c ∈ rest.head?, isBlank c = true

theorem firstWord?_of_firstWord (h : FirstWord cs word) : firstWord? cs = some word := by
  obtain ⟨blanks, rest, rfl, hblanks, hrest⟩ := h.split
  have hword : trimStart (blanks ++ (word ++ rest)) = word ++ rest := by
    obtain ⟨c, tail, rfl⟩ := List.exists_cons_of_ne_nil h.nonempty
    rw [trimStart, List.dropWhile_append_of_pos hblanks, List.cons_append,
      List.dropWhile_cons_of_neg (by simp [h.blankless c List.mem_cons_self])]
  have hend : rest.takeWhile (fun c => !isBlank c) = [] := by
    cases rest with
    | nil => rfl
    | cons c rest => exact List.takeWhile_cons_of_neg (by simp [hrest c rfl])
  have htake : (word ++ rest).takeWhile (fun c => !isBlank c) = word := by
    rw [List.takeWhile_append_of_pos fun c hc => by simp [h.blankless c hc], hend, List.append_nil]
  rw [firstWord?, hword, htake]
  cases word with
  | nil => exact absurd rfl h.nonempty
  | cons => rfl

theorem firstWord_of_firstWord? (h : firstWord? cs = some word) : FirstWord cs word := by
  have hword : (trimStart cs).takeWhile (fun c => !isBlank c) = word ∧ word ≠ [] := by
    unfold firstWord? at h
    split at h
    · cases h
    · rename_i hne
      cases h
      exact ⟨rfl, hne⟩
  refine ⟨hword.2, fun c hc => ?_, cs.takeWhile isBlank,
    (trimStart cs).dropWhile (fun c => !isBlank c), ?_, fun c hc => List.mem_takeWhile_imp hc,
    fun c hc => ?_⟩
  · rw [← hword.1] at hc
    simpa using List.mem_takeWhile_imp hc
  · rw [← hword.1, List.takeWhile_append_dropWhile, trimStart, List.takeWhile_append_dropWhile]
  · have hhead := List.head?_dropWhile_not (fun c => !isBlank c) (trimStart cs)
    rw [Option.mem_def] at hc
    rw [hc] at hhead
    simpa using hhead

theorem firstWord?_eq_some_iff : firstWord? cs = some word ↔ FirstWord cs word :=
  ⟨firstWord_of_firstWord?, firstWord?_of_firstWord⟩

end SchemaPlan
