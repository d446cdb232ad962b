import Mathlib.Data.List.Forall2
import Mathlib.Data.List.Nodup
import Mathlib.Tactic.SplitIfs

/-!
# Paired lists

Computations that may fail, and lists whose elements are paired with values one by one, as the
results of such computations are.

* `bind_eq_ok_iff`, `mapError_eq_ok_iff`: computations that succeed; `mapM_eq_ok_iff`: one for each
  element of a list.
* `bind_eq_error_iff`, `mapError_eq_error_iff`, `mapM_eq_error_iff`: computations that fail.
* `exists_left_of_forall₂`, `exists_right_of_forall₂`: the two sides of a pairing.
* `nodup_keys_iff`: values with distinct keys.
-/

namespace SchemaPlan

/-! ## Computations that succeed -/

theorem bind_eq_ok_iff {α β ε : Type} {m : Except ε α} {f : α → Except ε β} {b : β} :
    (m >>= f) = .ok b ↔ ∃ a, m = .ok a ∧ f a = .ok b := by
  cases m with
  | error cause =>
    refine iff_of_false (fun h => ?_) ?_
    · cases h
    · rintro ⟨a, ha, -⟩
      cases ha
  | ok a =>
    refine ⟨fun h => ⟨a, rfl, h⟩, ?_⟩
    rintro ⟨a, ha, h⟩
    cases ha
    exact h

theorem mapError_eq_ok_iff {α ε ε' : Type} {m : Except ε α} {f : ε → ε'} {a : α} :
    m.mapError f = .ok a ↔ m = .ok a := by
  cases m <;> simp [Except.mapError]

theorem mapM_eq_ok_iff {α β ε : Type} {read : α → Except ε β} {l : List α} {found : List β} :
    l.mapM read = .ok found ↔ List.Forall₂ (fun x y => read x = .ok y) l found := by
  induction l generalizing found with
  | nil =>
    rw [List.forall₂_nil_left_iff]
    exact ⟨fun h => (Except.ok.inj h).symm, fun h => h ▸ rfl⟩
  | cons x l ih =>
    rw [List.mapM_cons, List.forall₂_cons_left_iff]
    simp only [bind_eq_ok_iff, ih]
    constructor
    · rintro ⟨y, hy, rest, hrest, h⟩
      exact ⟨y, rest, hy, hrest, (Except.ok.inj h).symm⟩
    · rintro ⟨y, rest, hy, hrest, rfl⟩
      exact ⟨y, hy, rest, hrest, rfl⟩

/-! ## Computations that fail -/

theorem bind_eq_error_iff {α β ε : Type} {m : Except ε α} {f : α → Except ε β} {cause : ε} :
    (m >>= f) = .error cause ↔ m = .error cause ∨ ∃ a, m = .ok a ∧ f a = .error cause := by
  cases m with
  | error other =>
    constructor
    · intro h
      cases h
      exact .inl rfl
    · rintro (h | ⟨a, ha, -⟩)
      · cases h
        rfl
      · cases ha
  | ok a =>
    refine ⟨fun h => .inr ⟨a, rfl, h⟩, ?_⟩
    rintro (h | ⟨b, hb, h⟩)
    · cases h
    · cases hb
      exact h

theorem mapError_eq_error_iff {α ε ε' : Type} {m : Except ε α} {f : ε → ε'} {cause : ε'} :
    m.mapError f = .error cause ↔ ∃ inner, m = .error inner ∧ f inner = cause := by
  cases m <;> simp [Except.mapError]

theorem mapM_eq_error_iff {α β ε : Type} {read : α → Except ε β} {l : List α} {cause : ε} :
    l.mapM read = .error cause ↔ ∃ before x after found, l = before ++ x :: after ∧
      List.Forall₂ (fun x y => read x = .ok y) before found ∧ read x = .error cause := by
  induction l with
  | nil =>
    refine iff_of_false (fun h => by cases h) ?_
    rintro ⟨before, x, after, found, hl, -⟩
    simp at hl
  | cons a l ih =>
    rw [List.mapM_cons]
    simp only [bind_eq_error_iff, ih]
    constructor
    · rintro (ha | ⟨b, hb, (⟨before, x, after, found, rfl, hbefore, hx⟩ | ⟨rest, -, h⟩)⟩)
      · exact ⟨[], a, l, [], rfl, .nil, ha⟩
      · exact ⟨a :: before, x, after, b :: found, rfl, .cons hb hbefore, hx⟩
      · cases h
    · rintro ⟨_ | ⟨c, before⟩, x, after, found, hl, hbefore, hx⟩
      · obtain ⟨rfl, -⟩ := List.cons.inj hl
        exact .inl hx
      · obtain ⟨rfl, rfl⟩ := List.cons.inj hl
        obtain ⟨b, rest, hb, hrest, rfl⟩ := List.forall₂_cons_left_iff.mp hbefore
        exact .inr ⟨b, hb, .inl ⟨before, x, after, rest, rfl, hrest, hx⟩⟩

/-! ## Pairings -/

section Pairing

variable {α β κ : Type} {R : α → β → Prop} {key : β → κ} {l : List α} {found : List β}

theorem exists_left_of_forall₂ (h : List.Forall₂ R l found) {y : β} (hy : y ∈ found) :
    ∃ x ∈ l, R x y := by
  induction h with
  | nil => cases hy
  | cons hxy _ ih =>
    rcases List.mem_cons.mp hy with rfl | hy
    · exact ⟨_, List.mem_cons_self, hxy⟩
    · obtain ⟨x, hx, hxy⟩ := ih hy
      exact ⟨x, List.mem_cons_of_mem _ hx, hxy⟩

theorem exists_right_of_forall₂ (h : List.Forall₂ R l found) {x : α} (hx : x ∈ l) :
    ∃ y ∈ found, R x y :=
  exists_left_of_forall₂ h.flip hx

theorem exists_forall₂ (h : ∀ x ∈ l, ∃ y, R x y) : ∃ found, List.Forall₂ R l found := by
  induction l with
  | nil => exact ⟨[], .nil⟩
  | cons x l ih =>
    obtain ⟨⟨y, hy⟩, hl⟩ := List.forall_mem_cons.mp h
    obtain ⟨found, hfound⟩ := ih hl
    exact ⟨y :: found, .cons hy hfound⟩

/-- The keys of the values are distinct if an element is known by the key of its value. -/
theorem nodup_keys_iff (h : List.Forall₂ R l found) (hl : l.Nodup)
    (hfunctional : ∀ x y y', R x y → R x y' → y = y') :
    (found.map key).Nodup ↔
      ∀ x ∈ l, ∀ x' ∈ l, ∀ y y', R x y → R x' y' → key y = key y' → x = x' := by
  induction h with
  | nil => simp
  | @cons x y l found hxy hrest ih =>
    obtain ⟨hfresh, hl⟩ := List.nodup_cons.mp hl
    rw [List.map_cons, List.nodup_cons, ih hl, List.mem_map]
    constructor
    · rintro ⟨hkey, hapart⟩ a ha b hb z z' hz hz' hzz'
      have hother {c : α} {w : β} (hc : c ∈ l) (hw : R c w) : key w ≠ key y := fun e => by
        obtain ⟨v, hv, hcv⟩ := exists_right_of_forall₂ hrest hc
        exact hkey ⟨v, hv, hfunctional c v w hcv hw ▸ e⟩
      rw [List.mem_cons] at ha hb
      obtain rfl | ha := ha
      · obtain rfl | hb := hb
        · rfl
        · exact absurd (hfunctional a y z hxy hz ▸ hzz'.symm) (hother hb hz')
      · obtain rfl | hb := hb
        · exact absurd (hfunctional b y z' hxy hz' ▸ hzz') (hother ha hz)
        · exact hapart a ha b hb z z' hz hz' hzz'
    · intro hapart
      refine ⟨?_, fun a ha b hb =>
        hapart a (List.mem_cons_of_mem _ ha) b (List.mem_cons_of_mem _ hb)⟩
      rintro ⟨w, hw, hkey⟩
      obtain ⟨b, hb, hbw⟩ := exists_left_of_forall₂ hrest hw
      exact hfresh (hapart x List.mem_cons_self b (List.mem_cons_of_mem _ hb) y w hxy hbw
        hkey.symm ▸ hb)

end Pairing

end SchemaPlan
