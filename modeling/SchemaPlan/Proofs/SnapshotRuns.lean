import Mathlib.Logic.Function.Basic
import SchemaPlan.Proofs.EntityKinds
import SchemaPlan.Proofs.KeyedLaws

/-!
# Runs of snapshot operations

What a snapshot holds after any sequence of operations, refused ones included: of the entities that
were offered for a kind, the first one of each name, in the order in which they were offered.

* `Snapshot.Operation`: the ways to make a snapshot and to change it; `Snapshot.run`: a sequence of
  them, from the empty snapshot.
* `Snapshot.offered`: the entities that a sequence of operations offers, said without snapshots.
* `Snapshot.Holds`: what a snapshot keeps of them; `Snapshot.Holds.perform`: one operation,
  `Snapshot.holds_run`: a run.
* **`Snapshot.run_laws`**: what a run leads to, and what becomes of the next entity and of lists.
-/

namespace SchemaPlan

namespace Snapshot

/-- An operation on a snapshot. -/
inductive Operation
  | add (kind : EntityKind) (x : kind.Member)
  | ofTables (tables : List Table)
  | ofDocument (lists : Lists)
  | resolveDatabase (database : String)

/-- The snapshot that an operation leads to, unless it is refused. -/
def Operation.apply (s : Snapshot) : Operation → Except DuplicateName Snapshot
  | add kind x => s.add kind x
  | ofTables tables => Snapshot.ofTables tables
  | ofDocument lists => Snapshot.ofDocument lists
  | resolveDatabase database => .ok (s.resolveDatabase database)

/-- An operation that is refused leaves the snapshot as it was. -/
def perform (s : Snapshot) (op : Operation) : Snapshot := (op.apply s).toOption.getD s

/-- A sequence of operations, from the empty snapshot. -/
def run (ops : List Operation) : Snapshot := ops.foldl perform empty

/-! ## Offered entities -/

/-- The lists of tables alone. -/
def Lists.ofTables (tables : List Table) : Lists := Function.update (fun _ => []) .table tables

/-- What is offered after one more operation: one more entity, the entities of lists that make up a
snapshot, or the same ones with a database. -/
def Operation.offer (lists : Lists) : Operation → Lists
  | add kind x => Function.update lists kind (lists kind ++ [x])
  | ofTables tables => if (Lists.ofTables tables).Distinct then .ofTables tables else lists
  | ofDocument new => if new.Distinct then new else lists
  | resolveDatabase database => fun kind => (lists kind).map (Entity.resolve database)

/-- The entities that a sequence of operations offers, those included that are refused. -/
def offered (ops : List Operation) : Lists := ops.foldl Operation.offer fun _ => []

/-- Of the entities that were offered, the first one of each name is kept. -/
structure KeepsFirsts {α : Type} [Entity α] (kept offered : List α) : Prop where
  sublist : kept.Sublist offered
  find?_eq : ∀ name, kept.find? (Entity.name · = name) = offered.find? (Entity.name · = name)

namespace KeepsFirsts

variable {α : Type} [Entity α] {kept offered : List α} {x : α}

theorem refl (l : List α) : KeepsFirsts l l := ⟨List.Sublist.refl _, fun _ => rfl⟩

theorem concat (h : KeepsFirsts kept offered) (x : α) :
    KeepsFirsts (kept ++ [x]) (offered ++ [x]) :=
  ⟨h.sublist.append_right _, fun name => by
    rw [List.find?_append, List.find?_append, h.find?_eq]⟩

theorem concat_of_mem (h : KeepsFirsts kept offered) (hx : Entity.name x ∈ kept.map Entity.name) :
    KeepsFirsts kept (offered ++ [x]) := by
  refine ⟨h.sublist.trans (List.sublist_append_left _ _), fun name => ?_⟩
  rw [List.find?_append, h.find?_eq]
  cases hfound : offered.find? (Entity.name · = name) with
  | some y => rfl
  | none =>
    have hne : Entity.name x ≠ name := by
      rintro rfl
      obtain ⟨y, hy, e⟩ := List.mem_map.mp hx
      rw [← h.find?_eq, List.find?_eq_none] at hfound
      exact hfound y hy (by simpa using e)
    simp [hne]

theorem map_resolve (h : KeepsFirsts kept offered) (database : String) :
    KeepsFirsts (kept.map (Entity.resolve database)) (offered.map (Entity.resolve database)) := by
  refine ⟨h.sublist.map _, fun name => ?_⟩
  have hname : (fun x : α => decide (Entity.name x = name)) ∘ Entity.resolve database =
      fun x => decide (Entity.name x = name) := by
    funext x
    rw [Function.comp_apply, Entity.name_resolve]
  rw [List.find?_map, List.find?_map, hname, h.find?_eq]

end KeepsFirsts

/-! ## Runs -/

/-- Of some lists a snapshot holds the first entity of each name. -/
def Holds (s : Snapshot) (lists : Lists) : Prop :=
  ∀ kind, KeepsFirsts (s.collection kind).entries (lists kind)

variable {s t : Snapshot} {lists new : Lists}

theorem holds_of_entries (h : ∀ kind, (s.collection kind).entries = lists kind) :
    s.Holds lists :=
  fun kind => h kind ▸ .refl _

theorem holds_empty : empty.Holds fun _ => [] :=
  holds_of_entries fun kind => by cases kind <;> rfl

theorem Holds.perform_add (h : s.Holds lists) (kind : EntityKind) (x : kind.Member) :
    (s.perform (.add kind x)).Holds (Operation.offer lists (.add kind x)) := by
  intro other
  rw [Operation.offer]
  by_cases hmem : Entity.name x ∈ (s.collection kind).names
  · rw [perform, Operation.apply, add_of_mem hmem]
    by_cases hother : other = kind
    · subst hother
      rw [Function.update_self]
      exact (h other).concat_of_mem hmem
    · rw [Function.update_of_ne hother]
      exact h other
  · obtain ⟨t, hadd, ht⟩ := add_of_notMem hmem
    rw [perform, Operation.apply, hadd]
    by_cases hother : other = kind
    · subst hother
      rw [Function.update_self]
      exact ht.entries ▸ (h other).concat x
    · rw [Function.update_of_ne hother]
      exact ht.others other hother ▸ h other

/-- Lists with distinct names take the place of what was held; others are refused. -/
theorem Holds.perform_ofDocument (h : s.Holds lists) (new : Lists) :
    (s.perform (.ofDocument new)).Holds (Operation.offer lists (.ofDocument new)) := by
  rw [perform, Operation.apply, Operation.offer]
  rcases ofDocument_outcome new with ⟨t, ht, hentries⟩ | ⟨cause, hcause, hrepeat⟩
  · have hd : new.Distinct := fun kind _ => hentries kind ▸ (t.collection kind).distinct
    rw [ht, if_pos hd]
    exact holds_of_entries hentries
  · rw [hcause, if_neg hrepeat.not_distinct]
    exact h

theorem collection_resolveDatabase (s : Snapshot) (database : String) (kind : EntityKind) :
    (s.resolveDatabase database).collection kind =
      (s.collection kind).resolveDatabase database := by
  cases kind <;> rfl

/-- **What an operation keeps.** -/
theorem Holds.perform (h : s.Holds lists) (op : Operation) :
    (s.perform op).Holds (op.offer lists) := by
  cases op with
  | add kind x => exact h.perform_add kind x
  | ofTables tables =>
    -- tables alone are lists whose other kinds are empty
    exact h.perform_ofDocument (.ofTables tables)
  | ofDocument new => exact h.perform_ofDocument new
  | resolveDatabase database =>
    intro kind
    change KeepsFirsts ((s.resolveDatabase database).collection kind).entries _
    rw [collection_resolveDatabase]
    exact (h kind).map_resolve database

/-- **What a run of operations keeps**: of all that was offered, the first entity of each name. -/
theorem holds_run (ops : List Operation) : (run ops).Holds (offered ops) := by
  have hfold {s : Snapshot} {lists : Lists} (h : s.Holds lists) :
      (ops.foldl Snapshot.perform s).Holds (ops.foldl Operation.offer lists) := by
    induction ops generalizing s lists with
    | nil => exact h
    | cons op ops ih => exact ih (h.perform op)
  exact hfold holds_empty

theorem run_concat (ops : List Operation) (op : Operation) :
    run (ops ++ [op]) = (run ops).perform op := by
  rw [run, List.foldl_append]
  rfl

/-- **What runs of operations lead to.** After any run the names of each kind are distinct, and a
name finds the one entity of that name, which is the first one of those that were offered. One more
entity is added at the end of its kind if its name is free there, whatever the other kinds hold;
otherwise its kind and name are reported and nothing changes. Lists make up the snapshot with these
entities in this order if their names are distinct; otherwise their earliest repeated name is
reported. -/
theorem run_laws (ops : List Operation) :
    (∀ kind, ((run ops).collection kind).names.Nodup ∧
      ((run ops).collection kind).entries.Sublist (offered ops kind) ∧
      ∀ name,
        ((run ops).collection kind).find? name =
          (offered ops kind).find? (Entity.name · = name) ∧
        ∀ x, ((run ops).collection kind).find? name = some x ↔
          x ∈ ((run ops).collection kind).entries ∧ Entity.name x = name) ∧
    (∀ kind x,
      (Entity.name x ∉ ((run ops).collection kind).names →
        (run ops).add kind x = .ok (run (ops ++ [.add kind x])) ∧
          (run ops).Gains kind x (run (ops ++ [.add kind x]))) ∧
      (Entity.name x ∈ ((run ops).collection kind).names →
        (run ops).add kind x = .error ⟨kind, Entity.name x⟩ ∧
          run (ops ++ [.add kind x]) = run ops)) ∧
    ∀ lists : Lists,
      (lists.Distinct →
        ∃ s, ofDocument lists = .ok s ∧ ∀ kind, (s.collection kind).entries = lists kind) ∧
      (¬ lists.Distinct →
        ∃ cause, ofDocument lists = .error cause ∧ EarliestRepeat lists cause) := by
  refine ⟨fun kind => ⟨((run ops).collection kind).distinct, (holds_run ops kind).sublist,
    fun name => ⟨(holds_run ops kind).find?_eq name, fun x => ?_⟩⟩, fun kind x => ?_,
    fun lists => ?_⟩
  · exact find?_key_eq_some_iff ((run ops).collection kind).distinct
  · rw [run_concat, perform, Operation.apply]
    refine ⟨fun hfree => ?_, fun htaken => ?_⟩
    · obtain ⟨t, hadd, ht⟩ := add_of_notMem hfree
      rw [hadd]
      exact ⟨rfl, ht⟩
    · rw [add_of_mem htaken]
      exact ⟨rfl, rfl⟩
  · rcases ofDocument_outcome lists with ⟨s, hs, hentries⟩ | ⟨cause, hcause, hrepeat⟩
    · exact ⟨fun _ => ⟨s, hs, hentries⟩,
        fun hd => absurd (fun kind _ => hentries kind ▸ (s.collection kind).distinct) hd⟩
    · exact ⟨fun hd => absurd hd hrepeat.not_distinct, fun _ => ⟨cause, hcause, hrepeat⟩⟩

end Snapshot

end SchemaPlan
