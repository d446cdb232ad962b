import SchemaPlan.Schema.Entity

/-!
# Collections of entities

The entities of one kind in the order they were added, no two of one name.

* `Collection.add`: one more entity at the end, refused if its name is taken.
* `Collection.ofList`: the collection of a list, refused at the first repeated name.
* `Collection.find?`: the entity of a name.
-/

namespace SchemaPlan

/-- A second entity of one kind with the same name. -/
structure DuplicateName where
  kind : EntityKind
  name : String
  deriving DecidableEq, Repr

/-- The wording of a repeated name. -/
def DuplicateName.message (e : DuplicateName) : String :=
  "duplicate " ++ e.kind.text ++ " name `" ++ e.name ++ "` in one snapshot"

/-- Entities of one kind in the order they were added, with pairwise distinct names. -/
structure Collection (α : Type) [Entity α] where
  entries : List α
  distinct : (entries.map Entity.name).Nodup := by simp

namespace Collection

variable {α : Type} [Entity α]

@[ext] theorem ext {c d : Collection α} (h : c.entries = d.entries) : c = d := by
  cases c; cases d; cases h; rfl

instance [DecidableEq α] : DecidableEq (Collection α) := fun c d =>
  if h : c.entries = d.entries then isTrue (Collection.ext h)
  else isFalse fun e => h (congrArg Collection.entries e)

/-- No entities. -/
def empty : Collection α where
  entries := []

instance : Inhabited (Collection α) := ⟨empty⟩

/-- There are no entities. -/
def isEmpty (c : Collection α) : Bool := c.entries.isEmpty

/-- The names of the entities, in their order. -/
def names (c : Collection α) : List String := c.entries.map Entity.name

/-- The entity of a name. -/
def find? (c : Collection α) (name : String) : Option α :=
  c.entries.find? (Entity.name · = name)

/-- The collection with one more entity at its end, if the name is free. -/
def add (c : Collection α) (x : α) : Except DuplicateName (Collection α) :=
  if h : Entity.name x ∈ c.names then .error ⟨Entity.kind α, Entity.name x⟩
  else .ok {
    entries := c.entries ++ [x]
    distinct := by
      rw [List.map_append, List.map_singleton, List.nodup_append]
      refine ⟨c.distinct, by simp, fun a ha b hb e => h ?_⟩
      rw [List.mem_singleton.mp hb] at e
      exact e ▸ ha }

/-- The collection with the entities of a list added in turn. -/
def addAll (c : Collection α) : List α → Except DuplicateName (Collection α)
  | [] => .ok c
  | x :: rest =>
    match c.add x with
    | .error e => .error e
    | .ok d => d.addAll rest

/-- The collection of a list, if its names are distinct. -/
def ofList (l : List α) : Except DuplicateName (Collection α) := empty.addAll l

/-- Every entity that names no database gets the given one. -/
def resolveDatabase (c : Collection α) (database : String) : Collection α where
  entries := c.entries.map (Entity.resolve database)
  distinct := by
    rw [List.map_map, show Entity.name ∘ Entity.resolve database = Entity.name from
      funext (Entity.name_resolve database)]
    exact c.distinct

theorem add_of_mem {c : Collection α} {x : α} (h : Entity.name x ∈ c.names) :
    c.add x = .error ⟨Entity.kind α, Entity.name x⟩ := dif_pos h

theorem add_of_notMem {c : Collection α} {x : α} (h : Entity.name x ∉ c.names) :
    ∃ d, c.add x = .ok d ∧ d.entries = c.entries ++ [x] := ⟨_, dif_neg h, rfl⟩

end Collection

end SchemaPlan
