/-!
# Keyed lists

Finite maps from texts, kept as lists of pairs in ascending order of keys. Two of them are equal
exactly when they hold the same pairs.

* `Keyed.insert`: put a value under a key, in place of the one it had.
* `Keyed.get?`: the value under a key.
* `Keyed.ofList`: insert pairs from left to right, so that the last pair of a key wins.
* `get?_insert`: what an insertion does to each key.
-/

namespace SchemaPlan

/-- Put `value` under `key` in a list of pairs that ascends by key. -/
def insertPair {α : Type} (key : String) (value : α) : List (String × α) → List (String × α)
  | [] => [(key, value)]
  | (k, v) :: rest =>
    if key < k then (key, value) :: (k, v) :: rest
    else if key = k then (key, value) :: rest
    else (k, v) :: insertPair key value rest

section InsertPair

variable {α : Type} {key : String} {value : α}

theorem mem_insertPair {p : String × α} {l : List (String × α)}
    (h : p ∈ insertPair key value l) : p = (key, value) ∨ p ∈ l := by
  induction l with
  | nil => simpa [insertPair] using h
  | cons q rest ih =>
    rw [insertPair] at h
    split at h
    · simpa using h
    · split at h
      · rcases List.mem_cons.mp h with h | h
        · exact .inl h
        · exact .inr (List.mem_cons_of_mem _ h)
      · rcases List.mem_cons.mp h with h | h
        · exact .inr (h ▸ List.mem_cons_self)
        · exact (ih h).imp_right (List.mem_cons_of_mem _)

theorem insertPair_ascending {l : List (String × α)} (h : l.Pairwise (·.1 < ·.1)) :
    (insertPair key value l).Pairwise (·.1 < ·.1) := by
  induction l with
  | nil => simp [insertPair]
  | cons q rest ih =>
    obtain ⟨hq, hrest⟩ := List.pairwise_cons.mp h
    rw [insertPair]
    split
    · rename_i hlt
      refine List.pairwise_cons.mpr ⟨fun p hp => ?_, h⟩
      rcases List.mem_cons.mp hp with rfl | hp
      · exact hlt
      · exact String.lt_trans hlt (hq p hp)
    · split
      · rename_i heq
        exact List.pairwise_cons.mpr ⟨fun p hp => heq ▸ hq p hp, hrest⟩
      · rename_i hlt hne
        refine List.pairwise_cons.mpr ⟨fun p hp => ?_, ih hrest⟩
        rcases mem_insertPair hp with rfl | hp
        · exact String.not_le.mp fun hle => hne (String.le_antisymm hle (String.not_lt.mp hlt))
        · exact hq p hp

end InsertPair

/-- A finite map from texts to values of type `α`. -/
structure Keyed (α : Type) where
  pairs : List (String × α)
  ascending : pairs.Pairwise (·.1 < ·.1) := by simp

namespace Keyed

variable {α β : Type}

@[ext] theorem ext {m n : Keyed α} (h : m.pairs = n.pairs) : m = n := by
  cases m; cases n; cases h; rfl

instance [DecidableEq α] : DecidableEq (Keyed α) := fun m n =>
  if h : m.pairs = n.pairs then isTrue (Keyed.ext h)
  else isFalse fun e => h (congrArg Keyed.pairs e)

instance [Repr α] : Repr (Keyed α) where
  reprPrec m p := reprPrec m.pairs p

/-- The map without keys. -/
def empty : Keyed α where
  pairs := []

instance : Inhabited (Keyed α) := ⟨empty⟩

/-- The map has no keys. -/
def isEmpty (m : Keyed α) : Bool := m.pairs.isEmpty

/-- The keys, in ascending order. -/
def keys (m : Keyed α) : List String := m.pairs.map (·.1)

/-- The values, in the order of their keys. -/
def values (m : Keyed α) : List α := m.pairs.map (·.2)

/-- The value under a key. -/
def get? (m : Keyed α) (key : String) : Option α :=
  (m.pairs.find? (·.1 = key)).map (·.2)

/-- There is a value under the key. -/
def contains (m : Keyed α) (key : String) : Bool := (m.get? key).isSome

/-- Put `value` under `key`, in place of the value it had. -/
def insert (m : Keyed α) (key : String) (value : α) : Keyed α where
  pairs := insertPair key value m.pairs
  ascending := insertPair_ascending m.ascending

/-- Take the value away from a key. -/
def erase (m : Keyed α) (key : String) : Keyed α where
  pairs := m.pairs.filter (·.1 != key)
  ascending := m.ascending.filter _

/-- Change the value under a key by `f`, which is told what it was. -/
def alter (m : Keyed α) (key : String) (f : Option α → α) : Keyed α :=
  m.insert key (f (m.get? key))

/-- The pairs inserted from left to right: of several pairs with one key the last one stays. -/
def ofList (l : List (String × α)) : Keyed α := l.foldl (fun m p => m.insert p.1 p.2) empty

/-! ## Look-up -/

theorem find?_insertPair {key k : String} {value : α} {l : List (String × α)} :
    (insertPair key value l).find? (·.1 = k) =
      if key = k then some (key, value) else l.find? (·.1 = k) := by
  induction l with
  | nil => by_cases h : key = k <;> simp [insertPair, h]
  | cons q rest ih =>
    rw [insertPair]
    split
    · by_cases h : key = k <;> simp [List.find?_cons, h]
    · split
      · rename_i heq
        by_cases h : key = k <;> simp [h, ← heq]
      · rename_i hne
        rw [List.find?_cons, List.find?_cons, ih]
        by_cases h : key = k
        · subst h
          simp [Ne.symm hne]
        · simp [h]

@[simp] theorem get?_insert (m : Keyed α) (key k : String) (value : α) :
    (m.insert key value).get? k = if key = k then some value else m.get? k := by
  rw [get?, insert, find?_insertPair]
  split <;> rfl

@[simp] theorem get?_empty (k : String) : (empty : Keyed α).get? k = none := rfl

end Keyed

end SchemaPlan
