import SchemaPlan.Proofs.CollectionLaws

/-!
# Entities by kind

The five collections of a snapshot as one family, so that what holds of each of them is said once.

* `EntityKind.Member`: the entities of a kind.
* `Snapshot.collection`: the entities of a kind in a snapshot; `Snapshot.ext_collection`: there is
  nothing else in it.
* `Snapshot.add`: one more entity of any kind; `Snapshot.add_eq_ok_iff`,
  `Snapshot.add_eq_error_iff`: what becomes of it.
* `Snapshot.ofDocument`: the snapshot of one list for each kind; `Snapshot.ofDocument_outcome`: what
  becomes of the lists.
-/

namespace SchemaPlan

namespace EntityKind

/-- The entities of a kind. -/
@[reducible] def Member : EntityKind → Type
  | table => Table
  | view => View
  | materializedView => MaterializedView
  | dictionary => Dictionary
  | cluster => Cluster

instance entity : (kind : EntityKind) → Entity kind.Member
  | table => inferInstanceAs (Entity Table)
  | view => inferInstanceAs (Entity View)
  | materializedView => inferInstanceAs (Entity MaterializedView)
  | dictionary => inferInstanceAs (Entity Dictionary)
  | cluster => inferInstanceAs (Entity Cluster)

@[simp] theorem kind_member (kind : EntityKind) : Entity.kind kind.Member = kind := by
  cases kind <;> rfl

theorem mem_all (kind : EntityKind) : kind ∈ all := by
  cases kind <;> decide

end EntityKind

namespace Snapshot

variable {s t : Snapshot} {kind : EntityKind} {x : kind.Member} {cause : DuplicateName}

/-- The entities of a kind in a snapshot. -/
def collection (s : Snapshot) : (kind : EntityKind) → Collection kind.Member
  | .table => s.tables
  | .view => s.views
  | .materializedView => s.materializedViews
  | .dictionary => s.dictionaries
  | .cluster => s.clusters

theorem ext_collection (h : ∀ kind, s.collection kind = t.collection kind) : s = t := by
  cases s
  cases t
  rw [Snapshot.mk.injEq]
  exact ⟨h .table, h .view, h .materializedView, h .dictionary, h .cluster⟩

/-! ## One more entity -/

/-- The snapshot with one more entity of a kind, if the name is free. -/
def add (s : Snapshot) : (kind : EntityKind) → kind.Member → Except DuplicateName Snapshot
  | .table, x => s.addTable x
  | .view, x => s.addView x
  | .materializedView, x => s.addMaterializedView x
  | .dictionary, x => s.addDictionary x
  | .cluster, x => s.addCluster x

/-- The snapshot `t` has one entity more than `s`, as the last one of its kind. -/
structure Gains (s : Snapshot) (kind : EntityKind) (x : kind.Member) (t : Snapshot) : Prop where
  entries : (t.collection kind).entries = (s.collection kind).entries ++ [x]
  others : ∀ other, other ≠ kind → t.collection other = s.collection other

theorem Gains.eq {u : Snapshot} (ht : s.Gains kind x t) (hu : s.Gains kind x u) : t = u := by
  refine ext_collection fun other => ?_
  by_cases h : other = kind
  · subst h
    exact Collection.ext (ht.entries.trans hu.entries.symm)
  · rw [ht.others other h, hu.others other h]

/-- The snapshot with another collection for a kind. -/
def put (s : Snapshot) : (kind : EntityKind) → Collection kind.Member → Snapshot
  | .table, c => { s with tables := c }
  | .view, c => { s with views := c }
  | .materializedView, c => { s with materializedViews := c }
  | .dictionary, c => { s with dictionaries := c }
  | .cluster, c => { s with clusters := c }

theorem collection_put (s : Snapshot) (kind : EntityKind) (c : Collection kind.Member) :
    (s.put kind c).collection kind = c := by
  cases kind <;> rfl

theorem collection_put_of_ne {other : EntityKind} (c : Collection kind.Member)
    (h : other ≠ kind) : (s.put kind c).collection other = s.collection other := by
  cases kind <;> cases other <;> first | rfl | exact absurd rfl h

theorem add_eq_map (s : Snapshot) (kind : EntityKind) (x : kind.Member) :
    s.add kind x = ((s.collection kind).add x).map (s.put kind) := by
  cases kind <;> rfl

theorem add_of_mem (h : Entity.name x ∈ (s.collection kind).names) :
    s.add kind x = .error ⟨kind, Entity.name x⟩ := by
  rw [add_eq_map, Collection.add_of_mem h, EntityKind.kind_member]
  rfl

theorem add_of_notMem (h : Entity.name x ∉ (s.collection kind).names) :
    ∃ t, s.add kind x = .ok t ∧ s.Gains kind x t := by
  obtain ⟨c, hc, hentries⟩ := Collection.add_of_notMem h
  refine ⟨s.put kind c, by rw [add_eq_map, hc]; rfl, ?_, fun _ => collection_put_of_ne c⟩
  rw [collection_put, hentries]

theorem add_eq_ok_iff :
    s.add kind x = .ok t ↔ Entity.name x ∉ (s.collection kind).names ∧ s.Gains kind x t := by
  by_cases h : Entity.name x ∈ (s.collection kind).names
  · simp [add_of_mem h, h]
  · obtain ⟨u, hadd, hu⟩ := add_of_notMem h
    rw [hadd, Except.ok.injEq]
    exact ⟨fun e => e ▸ ⟨h, hu⟩, fun ⟨_, ht⟩ => hu.eq ht⟩

theorem gains_of_add (kind : EntityKind) {x : kind.Member} (h : s.add kind x = .ok t) :
    s.Gains kind x t :=
  (add_eq_ok_iff.mp h).2

theorem add_eq_error_iff :
    s.add kind x = .error cause ↔
      Entity.name x ∈ (s.collection kind).names ∧ cause = ⟨kind, Entity.name x⟩ := by
  by_cases h : Entity.name x ∈ (s.collection kind).names
  · rw [add_of_mem h, Except.error.injEq, eq_comm]
    exact (and_iff_right h).symm
  · obtain ⟨u, hadd, _⟩ := add_of_notMem h
    simp [hadd, h]

/-! ## Lists of entities -/

/-- One list of entities for each kind, not necessarily with distinct names. -/
abbrev Lists : Type := (kind : EntityKind) → List kind.Member

/-- The names in each list are distinct. -/
def Lists.Distinct (lists : Lists) : Prop :=
  ∀ kind ∈ EntityKind.all, ((lists kind).map Entity.name).Nodup

instance (lists : Lists) : Decidable lists.Distinct :=
  inferInstanceAs (Decidable (∀ kind ∈ EntityKind.all, ((lists kind).map Entity.name).Nodup))

/-- The snapshot of one list for each kind. -/
def ofDocument (lists : Lists) : Except DuplicateName Snapshot :=
  ofLists (lists .table) (lists .view) (lists .materializedView) (lists .dictionary)
    (lists .cluster)

/-- The earliest repeated name of some lists: the first one in the list of its kind, while the
kinds before have distinct names. -/
structure EarliestRepeat (lists : Lists) (cause : DuplicateName) : Prop where
  before : ∀ kind ∈ EntityKind.all.takeWhile (· ≠ cause.kind),
    ((lists kind).map Entity.name).Nodup
  repeated : IsFirstRepeat ((lists cause.kind).map Entity.name) cause.name

theorem EarliestRepeat.not_distinct {lists : Lists} (h : EarliestRepeat lists cause) :
    ¬ lists.Distinct :=
  fun hd => h.repeated.not_nodup (hd cause.kind (EntityKind.mem_all _))

/-- **Lists make up a snapshot, or their earliest repeated name is reported.** -/
theorem ofDocument_outcome (lists : Lists) :
    (∃ s, ofDocument lists = .ok s ∧ ∀ kind, (s.collection kind).entries = lists kind) ∨
      ∃ cause, ofDocument lists = .error cause ∧ EarliestRepeat lists cause := by
  unfold ofDocument ofLists
  -- the kinds are looked at in turn, each one after those before it made up collections
  rcases Collection.ofList_outcome (lists .table) with ⟨c1, h1, e1⟩ | ⟨n, hn, hr⟩
  swap
  · exact .inr ⟨_, by rw [hn]; rfl, by simp [EntityKind.all, Entity.kind], hr⟩
  have d1 : ((lists .table).map Entity.name).Nodup := e1 ▸ c1.distinct
  rcases Collection.ofList_outcome (lists .view) with ⟨c2, h2, e2⟩ | ⟨n, hn, hr⟩
  swap
  · exact .inr ⟨_, by rw [h1, hn]; rfl, by simp [EntityKind.all, Entity.kind, d1], hr⟩
  have d2 : ((lists .view).map Entity.name).Nodup := e2 ▸ c2.distinct
  rcases Collection.ofList_outcome (lists .materializedView) with ⟨c3, h3, e3⟩ | ⟨n, hn, hr⟩
  swap
  · exact .inr ⟨_, by rw [h1, h2, hn]; rfl, by simp [EntityKind.all, Entity.kind, d1, d2], hr⟩
  have d3 : ((lists .materializedView).map Entity.name).Nodup := e3 ▸ c3.distinct
  rcases Collection.ofList_outcome (lists .dictionary) with ⟨c4, h4, e4⟩ | ⟨n, hn, hr⟩
  swap
  · exact .inr ⟨_, by rw [h1, h2, h3, hn]; rfl, by simp [EntityKind.all, Entity.kind, d1, d2, d3],
      hr⟩
  have d4 : ((lists .dictionary).map Entity.name).Nodup := e4 ▸ c4.distinct
  rcases Collection.ofList_outcome (lists .cluster) with ⟨c5, h5, e5⟩ | ⟨n, hn, hr⟩
  swap
  · exact .inr ⟨_, by rw [h1, h2, h3, h4, hn]; rfl,
      by simp [EntityKind.all, Entity.kind, d1, d2, d3, d4], hr⟩
  refine .inl ⟨⟨c1, c2, c3, c4, c5⟩, by rw [h1, h2, h3, h4, h5]; rfl, fun kind => ?_⟩
  cases kind
  exacts [e1, e2, e3, e4, e5]

end Snapshot

end SchemaPlan
