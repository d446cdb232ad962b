import Mathlib.Data.List.DropRight
import SchemaPlan.Text.Blank

/-!
# Trimming

Blanks at the ends of a text make no difference once it is trimmed, and a text is trimmed exactly
when it neither starts nor ends with one.

* `trim_blanks_append`, `trim_append_blanks`: what trimming takes away.
* `exists_trim`: a text is its trimmed form between two runs of blanks.
* `prefix_trim`: what starts without blanks keeps its start.
* `trim_eq_self_iff`: the trimmed texts; `trim_trim`: trimming gives one.
-/

namespace SchemaPlan

variable {cs ds : List Char} {b : Char}

theorem trimEnd_eq_rdropWhile (cs : List Char) : trimEnd cs = cs.rdropWhile isBlank := rfl

theorem ne_of_isBlank {c : Char} (hb : isBlank b = true) (hc : isBlank c = false) : b ≠ c := by
  rintro rfl
  rw [hb] at hc
  cases hc

theorem notMem_of_blank {c : Char} (h : ∀ b ∈ cs, isBlank b = true) (hc : isBlank c = false) :
    c ∉ cs := fun hmem => ne_of_isBlank (h c hmem) hc rfl

/-! ## Blanks at the ends -/

theorem trim_cons_blank (h : isBlank b = true) : trim (b :: cs) = trim cs := by
  rw [trim, trim, trimStart, trimStart, List.dropWhile_cons_of_pos h]

theorem trim_append_blank (h : isBlank b = true) : trim (cs ++ [b]) = trim cs := by
  simp only [trim, trimStart, List.dropWhile_append]
  split
  · rename_i hnil
    rw [List.isEmpty_iff.mp hnil, List.dropWhile_cons_of_pos h]
    rfl
  · rw [trimEnd_eq_rdropWhile, List.rdropWhile_concat_pos _ _ _ h]
    rfl

theorem trim_blanks_append (h : ∀ b ∈ cs, isBlank b = true) : trim (cs ++ ds) = trim ds := by
  induction cs with
  | nil => rfl
  | cons b cs ih =>
    rw [List.cons_append, trim_cons_blank (h b List.mem_cons_self),
      ih fun d hd => h d (List.mem_cons_of_mem _ hd)]

theorem trim_append_blanks (h : ∀ b ∈ ds, isBlank b = true) : trim (cs ++ ds) = trim cs := by
  induction ds using List.reverseRecOn with
  | nil => rw [List.append_nil]
  | append_singleton ds b ih =>
    rw [← List.append_assoc, trim_append_blank (h b (by simp)),
      ih fun d hd => h d (List.mem_append_left _ hd)]

theorem exists_trim (cs : List Char) :
    ∃ before after, cs = before ++ trim cs ++ after ∧ (∀ b ∈ before, isBlank b = true) ∧
      ∀ b ∈ after, isBlank b = true := by
  refine ⟨cs.takeWhile isBlank, (trimStart cs).rtakeWhile isBlank, ?_,
    fun _ h => List.mem_takeWhile_imp h, fun _ h => List.mem_rtakeWhile_imp h⟩
  rw [List.append_assoc, trim, trimEnd_eq_rdropWhile, List.rdropWhile_append_rtakeWhile]
  exact List.takeWhile_append_dropWhile.symm

theorem trim_sublist (cs : List Char) : (trim cs).Sublist cs := by
  obtain ⟨before, after, h, _, _⟩ := exists_trim cs
  conv_rhs => rw [h, List.append_assoc]
  exact (List.sublist_append_left _ _).trans (List.sublist_append_right _ _)

theorem prefix_trim (h : ∀ c ∈ cs, isBlank c = false) (ds : List Char) :
    cs <+: trim (cs ++ ds) := by
  cases cs with
  | nil => exact List.nil_prefix
  | cons c cs =>
    obtain ⟨before, after, e, hbefore, hafter⟩ := exists_trim (c :: cs ++ ds)
    have hnil : before = [] := by
      cases before with
      | nil => rfl
      | cons b before =>
        have hb := hbefore b List.mem_cons_self
        obtain ⟨rfl, _⟩ := List.cons.inj e
        rw [h c List.mem_cons_self] at hb
        cases hb
    rw [hnil, List.nil_append] at e
    obtain ⟨part, e', _⟩ | ⟨part, e', hafter'⟩ := List.append_eq_append_iff.mp e
    · exact ⟨part, e'.symm⟩
    · have hpart : part = [] := by
        refine List.eq_nil_iff_forall_not_mem.mpr fun b hb => ?_
        have hblank := hafter b (hafter' ▸ List.mem_append_left _ hb)
        rw [h b (e' ▸ List.mem_append_right _ hb)] at hblank
        cases hblank
      rw [hpart, List.append_nil] at e'
      exact ⟨[], (List.append_nil _).trans e'⟩

/-! ## Trimmed texts -/

theorem trim_eq_self_iff : trim cs = cs ↔
    (∀ c ∈ cs.head?, isBlank c = false) ∧ ∀ c ∈ cs.getLast?, isBlank c = false := by
  constructor
  · intro h
    have hstart : trimStart cs = cs := by
      refine List.IsSuffix.eq_of_length_le (List.dropWhile_suffix _) ?_
      have := (List.rdropWhile_prefix isBlank (l := trimStart cs)).length_le
      rwa [← trimEnd_eq_rdropWhile, ← trim, h] at this
    have hend : trimEnd cs = cs := by rwa [trim, hstart] at h
    refine ⟨fun c hc => ?_, fun c hc => ?_⟩
    · obtain ⟨rest, rfl⟩ := List.head?_eq_some_iff.mp hc
      rw [Bool.eq_false_iff]
      intro hb
      have hlen := congrArg List.length hstart
      rw [trimStart, List.dropWhile_cons_of_pos hb, List.length_cons] at hlen
      have := (List.dropWhile_suffix isBlank (l := rest)).length_le
      omega
    · obtain ⟨init, rfl⟩ := List.getLast?_eq_some_iff.mp hc
      have := List.rdropWhile_eq_self_iff.mp hend (by simp)
      simpa using this
  · rintro ⟨hhead, hlast⟩
    cases cs with
    | nil => rfl
    | cons c cs =>
      have hc := hhead c rfl
      rw [trim, trimStart, List.dropWhile_cons_of_neg (by simp [hc]), trimEnd_eq_rdropWhile,
        List.rdropWhile_eq_self_iff]
      intro hne
      simpa using hlast _ (List.getLast?_eq_some_getLast hne)

theorem trim_eq_nil_iff : trim cs = [] ↔ ∀ b ∈ cs, isBlank b = true := by
  constructor
  · intro h
    obtain ⟨before, after, e, hb, ha⟩ := exists_trim cs
    rw [h, List.append_nil] at e
    intro b hmem
    rw [e, List.mem_append] at hmem
    exact hmem.elim (hb b) (ha b)
  · intro h
    have hnil : trim ([] ++ cs) = trim [] := trim_append_blanks h
    rwa [List.nil_append] at hnil

theorem trim_trim (cs : List Char) : trim (trim cs) = trim cs := by
  obtain ⟨before, after, h, hb, ha⟩ := exists_trim cs
  conv_rhs => rw [h, trim_append_blanks ha, trim_blanks_append hb]

end SchemaPlan
