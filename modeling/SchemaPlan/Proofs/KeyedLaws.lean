import Mathlib.Data.List.Induction
import Mathlib.Data.List.Nodup
import SchemaPlan.Keyed

/-!
# Laws of keyed lists

A finite map is determined by what it has under each key, and inserting, erasing and building from
a list are described by that.

* `find?_key_eq_some_iff`: the search for a key in a list with distinct keys.
* `mem_pairs_iff`, `ext_get?`: the pairs and the values under the keys tell the same.
* `get?_ofList`, `get?_ofList_of_nodup`: what a list of pairs puts under a key.
* `ofList_pairs`: a map is the map of its own pairs.
* `Keyed.without`: the pairs whose keys another map lacks, and how they change when one key comes
  or goes on either side.
-/

namespace SchemaPlan

theorem find?_key_eq_some_iff {α κ : Type} [DecidableEq κ] {key : α → κ} {l : List α}
    (hl : (l.map key).Nodup) {k : κ} {x : α} :
    l.find? (key · = k) = some x ↔ x ∈ l ∧ key x = k := by
  refine ⟨fun h => ⟨List.mem_of_find?_eq_some h, ?_⟩, fun ⟨hx, hk⟩ => ?_⟩
  · simpa using List.find?_some h
  · cases hfind : l.find? (key · = k) with
    | none => exact absurd hk (by simpa using List.find?_eq_none.mp hfind x hx)
    | some y =>
      have hy : key y = k := by simpa using List.find?_some hfind
      have hmem : y ∈ l := List.mem_of_find?_eq_some hfind
      rw [List.inj_on_of_nodup_map hl hmem hx (hy.trans hk.symm)]

namespace Keyed

variable {α β : Type} {m n : Keyed α} {key k : String} {v : α}

/-! ## Pairs and values -/

theorem keys_nodup (m : Keyed α) : m.keys.Nodup := by
  refine List.pairwise_map.mpr (m.ascending.imp fun {p q} h e => ?_)
  rw [e] at h
  exact String.lt_irrefl _ h

theorem mem_pairs_iff : (k, v) ∈ m.pairs ↔ m.get? k = some v := by
  rw [get?, Option.map_eq_some_iff]
  constructor
  · intro h
    exact ⟨(k, v), (find?_key_eq_some_iff m.keys_nodup).mpr ⟨h, rfl⟩, rfl⟩
  · rintro ⟨p, hfind, rfl⟩
    obtain ⟨hmem, rfl⟩ := (find?_key_eq_some_iff m.keys_nodup).mp hfind
    exact hmem

theorem contains_iff : m.contains k = true ↔ ∃ v, (k, v) ∈ m.pairs := by
  simp only [mem_pairs_iff, contains, Option.isSome_iff_exists]

/-- **Maps with the same values under all keys are equal.** -/
theorem ext_get? (h : ∀ k, m.get? k = n.get? k) : m = n := by
  have hnodup (m : Keyed α) : m.pairs.Nodup := m.keys_nodup.of_map _
  have hmem : ∀ p, p ∈ m.pairs ↔ p ∈ n.pairs := by
    rintro ⟨k, v⟩
    rw [mem_pairs_iff, mem_pairs_iff, h]
  refine Keyed.ext (((List.perm_ext_iff_of_nodup (hnodup m) (hnodup n)).mpr hmem).eq_of_pairwise
    (fun p q _ _ hpq hqp => ?_) m.ascending n.ascending)
  exact absurd (String.lt_trans hpq hqp) (String.lt_irrefl _)

@[simp] theorem contains_insert (m : Keyed α) (key k : String) (v : α) :
    (m.insert key v).contains k = (key == k || m.contains k) := by
  rw [contains, contains, get?_insert]
  by_cases h : key = k <;> simp [h]

@[simp] theorem get?_erase (m : Keyed α) (key k : String) :
    (m.erase key).get? k = if key = k then none else m.get? k := by
  rw [get?, get?, erase, List.find?_filter]
  split
  · rename_i h
    subst h
    rw [Option.map_eq_none_iff, List.find?_eq_none]
    intro p _
    simp
  · rename_i h
    congr 2
    funext p
    by_cases hp : p.1 = k <;> simp [hp, Ne.symm h]

@[simp] theorem contains_erase (m : Keyed α) (key k : String) :
    (m.erase key).contains k = (key != k && m.contains k) := by
  rw [contains, contains, get?_erase]
  by_cases h : key = k <;> simp [h]

theorem erase_of_get?_eq_none (h : m.get? key = none) : m.erase key = m := by
  refine ext_get? fun k => ?_
  rw [get?_erase]
  split
  · rename_i e
    rw [← e, h]
  · rfl

/-! ## Maps of lists -/

theorem ofList_concat (l : List (String × α)) (p : String × α) :
    ofList (l ++ [p]) = (ofList l).insert p.1 p.2 := by
  rw [ofList, List.foldl_append]
  rfl

/-- Of several pairs with one key the last one stays. -/
theorem get?_ofList (l : List (String × α)) (k : String) :
    (ofList l).get? k = (l.reverse.find? (·.1 = k)).map (·.2) := by
  induction l using List.reverseRecOn with
  | nil => rfl
  | append_singleton l p ih =>
    rw [ofList_concat, get?_insert, ih, List.reverse_concat, List.find?_cons]
    by_cases h : p.1 = k <;> simp [h]

theorem mem_of_get?_ofList {l : List (String × α)} (h : (ofList l).get? k = some v) :
    (k, v) ∈ l := by
  rw [get?_ofList] at h
  obtain ⟨p, hfind, rfl⟩ := Option.map_eq_some_iff.mp h
  have hp : p.1 = k := by simpa using List.find?_some hfind
  exact hp ▸ List.mem_reverse.mp (List.mem_of_find?_eq_some hfind)

theorem name_of_mem_ofList {name : α → String} {l : List α} :
    ∀ p ∈ (ofList (l.map fun a => (name a, a))).pairs, name p.2 = p.1 := by
  rintro ⟨k, a⟩ h
  obtain ⟨b, _, e⟩ := List.mem_map.mp (mem_of_get?_ofList (mem_pairs_iff.mp h))
  cases e
  rfl

theorem contains_ofList {l : List (String × α)} :
    (ofList l).contains k = true ↔ k ∈ l.map (·.1) := by
  rw [contains, get?_ofList, Option.isSome_map, List.find?_isSome, List.mem_map]
  simp

theorem get?_ofList_of_nodup {l : List (String × α)} (h : (l.map (·.1)).Nodup) :
    (ofList l).get? k = some v ↔ (k, v) ∈ l := by
  refine ⟨mem_of_get?_ofList, fun hmem => ?_⟩
  have hk : (ofList l).contains k = true := contains_ofList.mpr (List.mem_map.mpr ⟨_, hmem, rfl⟩)
  obtain ⟨w, hw⟩ := Option.isSome_iff_exists.mp hk
  have := List.inj_on_of_nodup_map h (mem_of_get?_ofList hw) hmem rfl
  rw [hw, (Prod.mk.inj this).2]

/-- **A map is the map of its own pairs.** -/
theorem ofList_pairs (m : Keyed α) : ofList m.pairs = m := by
  refine ext_get? fun k => Option.ext fun v => ?_
  rw [get?_ofList_of_nodup m.keys_nodup, mem_pairs_iff]

theorem ofList_filter_ne (l : List (String × α)) (key : String) :
    ofList (l.filter (·.1 ≠ key)) = (ofList l).erase key := by
  refine ext_get? fun k => ?_
  rw [get?_erase, get?_ofList, get?_ofList, ← List.filter_reverse, List.find?_filter]
  split
  · rename_i h
    subst h
    rw [Option.map_eq_none_iff, List.find?_eq_none]
    intro p _
    simp
  · rename_i h
    congr 2
    funext p
    by_cases hp : p.1 = k <;> simp [hp, Ne.symm h]

theorem filter_values {name : α → String} (h : ∀ p ∈ m.pairs, name p.2 = p.1)
    (test : String → Bool) :
    m.values.filter (fun v => test (name v)) = (m.pairs.filter fun p => test p.1).map (·.2) := by
  rw [values, List.filter_map]
  refine congrArg (List.map _) (List.filter_congr fun p hp => ?_)
  rw [Function.comp_apply, h p hp]

/-! ## What another map lacks -/

/-- The pairs of `m` whose keys `n` lacks. -/
def without (m : Keyed α) (n : Keyed β) : List (String × α) := m.pairs.filter (!n.contains ·.1)

variable {p : Keyed β} {w : β} {rest : List (String × α)}

theorem mem_without {q : String × α} :
    q ∈ m.without p ↔ q ∈ m.pairs ∧ p.contains q.1 = false := by
  rw [without, List.mem_filter, Bool.not_eq_true']

theorem without_eq_nil_iff :
    m.without p = [] ↔ ∀ k, m.contains k = true → p.contains k = true := by
  rw [List.eq_nil_iff_forall_not_mem]
  constructor
  · intro h k hk
    obtain ⟨v, hv⟩ := contains_iff.mp hk
    by_contra hp
    exact h _ (mem_without.mpr ⟨hv, by simpa using hp⟩)
  · intro h q hq
    obtain ⟨hmem, hp⟩ := mem_without.mp hq
    rw [h q.1 (contains_iff.mpr ⟨q.2, hmem⟩)] at hp
    cases hp

theorem without_congr {p' : Keyed β} (h : ∀ k, p.contains k = p'.contains k) :
    m.without p = m.without p' :=
  List.filter_congr fun q _ => by rw [h]

theorem filter_without (h : m.without p = (k, v) :: rest) :
    (m.without p).filter (·.1 != k) = rest := by
  have hsub : (m.without p).Pairwise (·.1 < ·.1) := m.ascending.filter _
  rw [h] at hsub ⊢
  rw [List.filter_cons_of_neg (by simp), List.filter_eq_self]
  intro q hq
  have hlt := (List.pairwise_cons.mp hsub).1 q hq
  simpa using fun e : q.1 = k => String.lt_irrefl _ (e ▸ hlt)

theorem without_insert (h : m.without p = (k, v) :: rest) : m.without (p.insert k w) = rest := by
  rw [← filter_without h, without, without, List.filter_filter]
  refine List.filter_congr fun q _ => ?_
  rw [contains_insert, Bool.not_or, bne_comm]
  rfl

theorem erase_without (h : m.without p = (k, v) :: rest) : (m.erase k).without p = rest := by
  rw [← filter_without h, without, without, erase, List.filter_filter, List.filter_filter]
  exact List.filter_congr fun q _ => Bool.and_comm _ _

theorem filter_insertPair {l : List (String × α)} {test : String × α → Bool}
    (h : ∀ v, test (key, v) = false) : (insertPair key v l).filter test = l.filter test := by
  induction l with
  | nil => simp [insertPair, h]
  | cons q rest ih =>
    rw [insertPair]
    split
    · rw [List.filter_cons_of_neg (by simp [h])]
    · split
      · rename_i e
        subst e
        rw [List.filter_cons_of_neg (by simp [h]), List.filter_cons_of_neg (by simp [h])]
      · rw [List.filter_cons, List.filter_cons, ih]

theorem insert_without (h : p.contains key = true) : (m.insert key v).without p = m.without p :=
  filter_insertPair fun _ => by simp [h]

theorem without_erase (h : m.contains key = false) : m.without (p.erase key) = m.without p := by
  refine List.filter_congr fun q hq => ?_
  have hne : key ≠ q.1 := by
    rintro rfl
    rw [contains_iff.mpr ⟨q.2, hq⟩] at h
    cases h
  rw [contains_erase, bne_iff_ne.mpr hne, Bool.true_and]

end Keyed

end SchemaPlan
