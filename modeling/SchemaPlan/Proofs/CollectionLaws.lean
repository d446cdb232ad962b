import Mathlib.Data.List.Nodup
import SchemaPlan.Schema.Snapshot

/-!
# Laws of collections

* `IsFirstRepeat`: the first element of a list that stands in it twice by then.
* `Collection.entries_of_add`: an entity that was added stands at the end.
* `Collection.addAll_of_nodup`: entities with fresh, distinct names are all added, in their order.
* `Collection.ofList_outcome`: a list makes up a collection, or a name in it is repeated;
  `Collection.ofList_eq_ok_iff`, `Collection.ofList_eq_error_iff`: which of them.
* `Snapshot.ofTables_of_nodup`: the snapshot of tables with distinct names.
-/

namespace SchemaPlan

/-! ## Repeated elements -/

/-- The first element of a list that stands in the list before. -/
def IsFirstRepeat {κ : Type} (l : List κ) (k : κ) : Prop :=
  ∃ before after, l = before ++ k :: after ∧ before.Nodup ∧ k ∈ before

namespace IsFirstRepeat

variable {κ : Type} {l : List κ} {k k' : κ}

theorem not_nodup (h : IsFirstRepeat l k) : ¬ l.Nodup := by
  obtain ⟨before, after, rfl, _, hk⟩ := h
  intro hd
  exact (List.nodup_append.mp hd).2.2 k hk k List.mem_cons_self rfl

theorem eq (h : IsFirstRepeat l k) (h' : IsFirstRepeat l k') : k = k' := by
  obtain ⟨before, after, rfl, hd, hk⟩ := h
  obtain ⟨before', after', hl, hd', hk'⟩ := h'
  -- the two ways to cut the list are at the same place, or one of them cuts off a repetition
  have hlonger {a b c d : List κ} {x y : κ} (hcut : a ++ x :: b = c ++ y :: d) (hx : x ∈ a)
      (hc : c.Nodup) : c.length ≤ a.length := by
    by_contra hlt
    have hprefix : a ++ [x] <+: c := by
      have hwhole : a ++ [x] <+: a ++ x :: b := ⟨b, by simp⟩
      refine List.prefix_of_prefix_length_le hwhole (hcut ▸ List.prefix_append c _) ?_
      rw [List.length_append, List.length_singleton]
      omega
    exact (List.nodup_append.mp (hc.sublist hprefix.sublist)).2.2 x hx x (by simp) rfl
  have hlength : before.length = before'.length :=
    Nat.le_antisymm (hlonger hl.symm hk' hd) (hlonger hl hk hd')
  exact (List.cons.inj (List.append_inj_right hl hlength)).1

end IsFirstRepeat

/-! ## Collections -/

namespace Collection

variable {α : Type} [Entity α]

theorem entries_of_add {c d : Collection α} {x : α} (h : c.add x = .ok d) :
    d.entries = c.entries ++ [x] := by
  by_cases hmem : Entity.name x ∈ c.names
  · rw [add_of_mem hmem] at h
    cases h
  · obtain ⟨e, he, hentries⟩ := add_of_notMem hmem
    rw [he] at h
    cases h
    exact hentries

theorem addAll_of_nodup {c : Collection α} {l : List α}
    (h : ((c.entries ++ l).map Entity.name).Nodup) :
    ∃ d, c.addAll l = .ok d ∧ d.entries = c.entries ++ l := by
  induction l generalizing c with
  | nil => exact ⟨c, rfl, by rw [List.append_nil]⟩
  | cons x l ih =>
    have hfresh : Entity.name x ∉ c.names := by
      rw [List.map_append, List.nodup_append] at h
      exact fun hmem => h.2.2 _ hmem _ (List.mem_map.mpr ⟨x, List.mem_cons_self, rfl⟩) rfl
    obtain ⟨d, hadd, hd⟩ := add_of_notMem hfresh
    have hassoc : d.entries ++ l = c.entries ++ x :: l := by
      rw [hd, List.append_assoc, List.singleton_append]
    rw [← hassoc] at h ⊢
    rw [addAll, hadd]
    exact ih h

theorem ofList_of_nodup {l : List α} (h : (l.map Entity.name).Nodup) :
    ∃ d : Collection α, ofList l = .ok d ∧ d.entries = l :=
  addAll_of_nodup h

/-- The entities of a list are all added, or the first name that is there already is reported. -/
theorem addAll_outcome (c : Collection α) (l : List α) :
    (∃ d, c.addAll l = .ok d ∧ d.entries = c.entries ++ l) ∨
      ∃ name, c.addAll l = .error ⟨Entity.kind α, name⟩ ∧
        IsFirstRepeat ((c.entries ++ l).map Entity.name) name := by
  induction l generalizing c with
  | nil => exact .inl ⟨c, rfl, by rw [List.append_nil]⟩
  | cons x l ih =>
    by_cases hmem : Entity.name x ∈ c.names
    · refine .inr ⟨Entity.name x, by rw [addAll, add_of_mem hmem], ?_⟩
      exact ⟨c.names, l.map Entity.name, by rw [List.map_append, List.map_cons]; rfl, c.distinct,
        hmem⟩
    · obtain ⟨d, hadd, hd⟩ := add_of_notMem hmem
      have hassoc : c.entries ++ x :: l = d.entries ++ l := by
        rw [hd, List.append_assoc, List.singleton_append]
      rw [addAll, hadd, hassoc]
      exact ih d

/-- **A list makes up a collection, or its first repeated name is reported.** -/
theorem ofList_outcome (l : List α) :
    (∃ d : Collection α, ofList l = .ok d ∧ d.entries = l) ∨
      ∃ name, ofList l = .error ⟨Entity.kind α, name⟩ ∧
        IsFirstRepeat (l.map Entity.name) name :=
  addAll_outcome empty l

theorem ofList_eq_ok_iff {l : List α} {c : Collection α} : ofList l = .ok c ↔ c.entries = l := by
  constructor
  · intro h
    rcases ofList_outcome l with ⟨d, hd, hentries⟩ | ⟨name, herror, -⟩
    · rw [← Except.ok.inj (hd.symm.trans h), hentries]
    · rw [herror] at h
      cases h
  · rintro rfl
    obtain ⟨d, hd, hentries⟩ := ofList_of_nodup c.distinct
    rw [hd, Collection.ext hentries]

theorem ofList_eq_error_iff {l : List α} {cause : DuplicateName} : ofList l = .error cause ↔
    ∃ name, IsFirstRepeat (l.map Entity.name) name ∧ cause = ⟨Entity.kind α, name⟩ := by
  rcases ofList_outcome l with ⟨d, hd, hentries⟩ | ⟨name, herror, hrepeat⟩
  · refine iff_of_false (fun h => ?_) ?_
    · rw [hd] at h
      cases h
    · rintro ⟨name, hrepeat, -⟩
      exact hrepeat.not_nodup (hentries ▸ d.distinct)
  · rw [herror, Except.error.injEq]
    constructor
    · rintro rfl
      exact ⟨name, hrepeat, rfl⟩
    · rintro ⟨other, hother, rfl⟩
      rw [hrepeat.eq hother]

end Collection

namespace Snapshot

theorem ofTables_of_nodup {l : List Table} (h : (l.map (·.name)).Nodup) :
    ∃ c : Collection Table, c.entries = l ∧ ofTables l = .ok { tables := c } := by
  obtain ⟨c, hc, hentries⟩ := Collection.ofList_of_nodup h
  refine ⟨c, hentries, ?_⟩
  rw [ofTables, ofLists, hc]
  rfl

end Snapshot

end SchemaPlan
