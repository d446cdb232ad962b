import SchemaPlan.Document.Schema
import SchemaPlan.Proofs.DocumentMeaning
import SchemaPlan.Proofs.EntityKinds

/-!
# Entities as documents

The documents that entities are written as are read as these entities again.

* `Engine.exists_arguments`: what is written of an engine besides its kind; `Engine.restores`: an
  engine, whose arguments are typed before they are read.
* `Column.restores`, `Index.restores`, `Node.restores`: the parts of entities.
* **`EntityKind.restores`**: the entities of all kinds.
-/

namespace SchemaPlan

open Document

/-! ## Machine words -/

theorem restores_word16 : Restores (fun n : UInt16 => ofNat n.toNat) word16 := by
  intro n d h
  rw [word16, natural_of_meant_of_lt h n.toNat_lt]
  exact congrArg Except.ok UInt16.ofNat_toNat

theorem restores_word32 : Restores (fun n : UInt32 => ofNat n.toNat) word32 := by
  intro n d h
  rw [word32, natural_of_meant_of_lt h n.toNat_lt]
  exact congrArg Except.ok UInt32.ofNat_toNat

theorem restores_word64 : Restores (fun n : UInt64 => ofNat n.toNat) word64 := by
  intro n d h
  rw [word64, natural_of_meant_of_lt h n.toNat_lt]
  exact congrArg Except.ok UInt64.ofNat_toNat

/-! ## Engines -/

namespace EngineFamily

theorem ofName?_name (family : EngineFamily) : ofName? family.name = some family := by
  cases family <;> decide

theorem nodup_fieldNames (family : EngineFamily) : family.fieldNames.Nodup := by
  cases family <;> decide

theorem kind_not_mem_fieldNames (family : EngineFamily) : "kind" ∉ family.fieldNames := by
  cases family <;> decide

end EngineFamily

namespace Engine

/-- A document that means this one keeps its meaning when its plain scalars are typed. -/
def Resolvable (meaning : Document) : Prop :=
  ∀ d : Document, d.meant = meaning → ∃ typed, d.resolve = .ok typed ∧ typed.meant = meaning

theorem resolveScalar_plain {s : String} (h : Scalar.ofPlain s = .text s) (wanted : String) :
    resolveScalar wanted (.plain s) = .ok (ofText s) := by
  rw [resolveScalar, h]
  rfl

theorem resolve_of_meant {d : Document} {s : String} (h : d.meant = ofText s) :
    d.resolve = .ok (ofText s) := by
  rcases text_of_meant h with rfl | ⟨rfl, hplain⟩
  · rfl
  · exact resolveScalar_plain hplain _

theorem resolvable_text (s : String) : Resolvable (ofText s) := fun _ h =>
  ⟨ofText s, resolve_of_meant h, rfl⟩

theorem resolveItems_of_meant (texts : List String) (i : Nat) {found : List Document}
    (h : found.map meant = texts.map ofText) :
    resolveItems i found = .ok (texts.map ofText) := by
  induction texts generalizing i found with
  | nil =>
    rw [List.map_nil, List.map_eq_nil_iff] at h
    rw [h, resolveItems]
    rfl
  | cons s texts ih =>
    obtain ⟨d, rest, rfl, hd, hrest⟩ := List.map_eq_cons_iff.mp h
    rw [resolveItems, resolve_of_meant hd, ih (i + 1) hrest]
    rfl

theorem resolvable_texts (texts : List String) : Resolvable (.list (texts.map ofText)) := by
  intro d h
  have hmeant (texts : List String) : (texts.map ofText).map meant = texts.map ofText := by
    rw [List.map_map]
    rfl
  obtain ⟨found, rfl | rfl, hfound⟩ := list_of_meant h
  · refine ⟨.list (texts.map ofText), ?_, ?_⟩
    · rw [resolve, resolveItems_of_meant texts 0 hfound]
      rfl
    · rw [meant, meantItems_eq, hmeant]
  · refine ⟨.tuple (texts.map ofText), ?_, ?_⟩
    · rw [resolve, resolveItems_of_meant texts 0 hfound]
      rfl
    · rw [meant, meantItems_eq, hmeant]

/-- Entries with keys among these names, in their order, whose values keep their meaning when they
are typed. -/
structure Given (names : List String) (entries : List (Document × Document)) : Prop where
  keys : HasKeys names entries
  resolvable : ∀ entry ∈ entries, Resolvable entry.2

namespace Given

variable {names more : List String} {entries rest : List (Document × Document)}

theorem append (h : Given names entries) (h' : Given more rest) :
    Given (names ++ more) (entries ++ rest) :=
  ⟨h.keys.append h'.keys, List.forall_mem_append.mpr ⟨h.resolvable, h'.resolvable⟩⟩

theorem nil (names : List String) : Given names [] := ⟨.nil names, List.forall_mem_nil _⟩

theorem entry (name : String) {d : Document} (h : Resolvable d) :
    Given [name] (Document.entry name d) :=
  ⟨.entry name d, List.forall_mem_singleton.mpr h⟩

theorem text (name s : String) : Given [name] (textEntry name s) := .entry name (resolvable_text s)

theorem option (name : String) (s : Option String) : Given [name] (optionEntry name s) := by
  cases s with
  | none => exact .nil _
  | some s => exact .text name s

theorem texts (name : String) (l : List String) : Given [name] (listEntry name ofText l) :=
  .entry name (resolvable_texts l)

theorem shownTexts (name : String) (l : List String) : Given [name] (shownList name ofText l) := by
  unfold shownList
  split_ifs
  · exact .nil _
  · exact .texts name l

end Given

/-- What is written of an engine besides its kind. -/
structure Arguments (e : Engine) (entries : List (Document × Document)) : Prop where
  encode : e.encode = .mapping (textEntry "kind" e.name ++ entries)
  given : Given e.family.fieldNames entries
  ofFields : ∀ fs : Fields, fs.Holds entries → Engine.ofFields fs e.family = .ok e

theorem exists_arguments (e : Engine) : ∃ entries, e.Arguments entries := by
  cases e with
  | mergeTree => exact ⟨[], rfl, .nil _, fun _ _ => rfl⟩
  | aggregatingMergeTree => exact ⟨[], rfl, .nil _, fun _ _ => rfl⟩
  | log => exact ⟨[], rfl, .nil _, fun _ _ => rfl⟩
  | replicatedMergeTree zooPath replicaName =>
    refine ⟨_, rfl, (Given.text _ _).append (.text _ _), fun fs h => ?_⟩
    simp only [ofFields, family, h.required "zooPath" zooPath restores_text (by simp),
      h.required "replicaName" replicaName restores_text (by simp),
      Gathered.map_ok, Gathered.ok_seq_ok]
  | replicatedAggregatingMergeTree zooPath replicaName =>
    refine ⟨_, rfl, (Given.text _ _).append (.text _ _), fun fs h => ?_⟩
    simp only [ofFields, family, h.required "zooPath" zooPath restores_text (by simp),
      h.required "replicaName" replicaName restores_text (by simp),
      Gathered.map_ok, Gathered.ok_seq_ok]
  | replacingMergeTree versionColumn =>
    refine ⟨_, rfl, .option _ _, fun fs h => ?_⟩
    simp only [ofFields, family, h.optional "versionColumn" versionColumn (by simp),
      Gathered.map_ok]
  | replicatedReplacingMergeTree zooPath replicaName versionColumn =>
    refine ⟨_, rfl, ((Given.text _ _).append (.text _ _)).append (.option _ _), fun fs h => ?_⟩
    simp only [ofFields, family, h.required "zooPath" zooPath restores_text (by simp),
      h.required "replicaName" replicaName restores_text (by simp),
      h.optional "versionColumn" versionColumn (by simp), Gathered.map_ok, Gathered.ok_seq_ok]
  | summingMergeTree sumColumns =>
    refine ⟨_, rfl, .shownTexts _ _, fun fs h => ?_⟩
    simp only [ofFields, family, h.shownList "sumColumns" sumColumns restores_text (by simp),
      Gathered.map_ok]
  | collapsingMergeTree signColumn =>
    refine ⟨_, rfl, .text _ _, fun fs h => ?_⟩
    simp only [ofFields, family, h.required "signColumn" signColumn restores_text (by simp),
      Gathered.map_ok]
  | replicatedCollapsingMergeTree zooPath replicaName signColumn =>
    refine ⟨_, rfl, ((Given.text _ _).append (.text _ _)).append (.text _ _), fun fs h => ?_⟩
    simp only [ofFields, family, h.required "zooPath" zooPath restores_text (by simp),
      h.required "replicaName" replicaName restores_text (by simp),
      h.required "signColumn" signColumn restores_text (by simp),
      Gathered.map_ok, Gathered.ok_seq_ok]
  | distributed clusterName remoteDatabase remoteTable shardingKey =>
    refine ⟨_, rfl, (((Given.text _ _).append (.text _ _)).append (.text _ _)).append
      (.option _ _), fun fs h => ?_⟩
    simp only [ofFields, family, h.required "clusterName" clusterName restores_text (by simp),
      h.required "remoteDatabase" remoteDatabase restores_text (by simp),
      h.required "remoteTable" remoteTable restores_text (by simp),
      h.optional "shardingKey" shardingKey (by simp), Gathered.map_ok, Gathered.ok_seq_ok]
  | kafka brokerList topic consumerGroup format =>
    refine ⟨_, rfl, (((Given.texts _ _).append (.text _ _)).append (.text _ _)).append
      (.text _ _), fun fs h => ?_⟩
    simp only [ofFields, family,
      h.required "brokerList" brokerList (restores_listOf restores_text) (by simp),
      h.required "topic" topic restores_text (by simp),
      h.required "consumerGroup" consumerGroup restores_text (by simp),
      h.required "format" format restores_text (by simp),
      Gathered.map_ok, Gathered.ok_seq_ok]

theorem resolveKey_of_meant {key : Document} {name : String} (h : key.meant = ofText name) :
    resolveKey key = .ok (ofText name) := by
  rcases text_of_meant h with rfl | ⟨rfl, hplain⟩
  · rfl
  · exact resolveScalar_plain hplain _

/-- The entries after the kind are typed, and keep their meaning. -/
theorem splitKind_of_meant {found : List (Document × Document)} {present : List String}
    (hkeys : List.Forall₂ (fun entry name => entry.1.meant = ofText name) found present)
    (hkind : "kind" ∉ present) (hvalues : ∀ entry ∈ found, Resolvable entry.2.meant)
    (family : EngineFamily) (i : Nat) :
    ∃ typed, splitKind (some family) i found = .ok (some family, typed) ∧
      List.Forall₂ (fun entry name => entry.1 = ofText name) typed present ∧
      typed.map (Prod.map meant meant) = found.map (Prod.map meant meant) := by
  induction hkeys generalizing i with
  | nil => exact ⟨[], rfl, .nil, rfl⟩
  | @cons entry name found present hkey hkeys ih =>
    obtain ⟨key, value⟩ := entry
    rw [List.mem_cons, not_or] at hkind
    rw [List.forall_mem_cons] at hvalues
    obtain ⟨typed, hsplit, htyped, hmeant⟩ := ih hkind.2 hvalues.2 (i + 1)
    obtain ⟨value', hresolve, hvalue⟩ := hvalues.1 value rfl
    have hname : isKindKey (ofText name) = false := by
      simpa [isKindKey, ofText] using Ne.symm hkind.1
    refine ⟨(ofText name, value') :: typed, ?_, .cons rfl htyped, ?_⟩
    · rw [splitKind, resolveKey_of_meant hkey]
      simp only [within, Except.mapError, bind, Except.bind, hname, hresolve, hsplit]
      rfl
    · have hentry : Prod.map meant meant (ofText name, value') =
          Prod.map meant meant (key, value) := Prod.ext hkey.symm hvalue
      rw [List.map_cons, List.map_cons, hentry, hmeant]

theorem familyOf_of_meant {d : Document} {family : EngineFamily}
    (h : d.meant = ofText family.name) : familyOf d = .ok family := by
  simp only [familyOf, textAs_of_meant h, bind, Except.bind, family.ofName?_name]

theorem ofEntries_of_meant {e : Engine} {entries found : List (Document × Document)}
    (h : e.Arguments entries) {present : List String} (hsub : present.Sublist e.family.fieldNames)
    (hkeys : List.Forall₂ (fun entry name => entry.1 = ofText name) found present)
    (hfound : found.map (Prod.map meant meant) = entries) :
    ofEntries e.family found = .ok e := by
  have hbuild {fs : Fields} (hholds : fs.Holds entries) :
      unplaced (build (ofFields · e.family) (fs, .ok ())) = .ok e :=
    congrArg unplaced (build_of_read (h.ofFields fs hholds))
  unfold ofEntries
  split_ifs with hempty
  · -- an engine without arguments
    rw [List.isEmpty_iff.mp hempty, List.sublist_nil] at hsub
    subst hsub
    cases hkeys
    exact hbuild fun name => hfound ▸ rfl
  · have hnames : List.Forall₂ (fun entry name => entry.1.meant = ofText name ∧
        fieldName e.family.fieldNames entry.1 = .ok name) found present :=
      hkeys.imp fun entry name hentry => by rw [hentry]; exact ⟨rfl, rfl⟩
    obtain ⟨fs, hfs, hholds⟩ := collectFields_holds (shapeOf e.family) hnames hsub.subset
      (e.family.nodup_fieldNames.sublist hsub) (List.disjoint_nil_right _) 0
    rw [hfs]
    exact hbuild (hfound ▸ hholds)

theorem restores : Restores Engine.encode Engine.decode := by
  intro e d hd
  obtain ⟨entries, h⟩ := e.exists_arguments
  rw [h.encode] at hd
  obtain ⟨found, rfl, hfound⟩ := mapping_of_meant hd
  obtain ⟨⟨key, value⟩, found, rfl, hkind, hfound⟩ := List.map_eq_cons_iff.mp hfound
  obtain ⟨hkey, hvalue⟩ := Prod.mk.inj hkind
  change found.map (Prod.map meant meant) = entries at hfound
  obtain ⟨present, hsub, hpresent⟩ := h.given.keys
  have hresolvable := h.given.resolvable
  rw [← hfound, List.map_map, ← List.forall₂_eq_eq_eq, List.forall₂_map_left_iff,
    List.forall₂_map_right_iff] at hpresent
  rw [← hfound, List.forall_mem_map] at hresolvable
  obtain ⟨typed, hsplit, htyped, hmeant⟩ := splitKind_of_meant hpresent
    (fun hmem => e.family.kind_not_mem_fieldNames (hsub.subset hmem)) hresolvable e.family 1
  have hall : splitKind none 0 ((key, value) :: found) = .ok (some e.family, typed) := by
    rw [splitKind, resolveKey_of_meant hkey]
    simp only [within, Except.mapError, bind, Except.bind]
    rw [familyOf_of_meant hvalue]
    exact hsplit
  rw [decode, hall]
  exact ofEntries_of_meant h hsub htyped (hmeant.trans hfound)

end Engine

/-! ## Parts of entities -/

theorem Column.restores : Restores Column.encode Column.decode := by
  refine restores_record (fun c => ((((HasKeys.text _ _).append (.text _ _)).append
    (.option _ _)).append (.option _ _)).append (.option _ _)) (by decide) fun c fs h => ?_
  simp only [h.required "name" c.name restores_text (by simp),
    h.required "type" c.type restores_text (by simp),
    h.optional "defaultExpression" c.defaultExpression (by simp),
    h.optional "codec" c.codec (by simp), h.optional "comment" c.comment (by simp),
    Gathered.map_ok, Gathered.ok_seq_ok]

theorem Index.restores : Restores Index.encode Index.decode := by
  refine restores_record (fun i => (((HasKeys.text _ _).append (.text _ _)).append
    (.text _ _)).append (.entry _ _)) (by decide) fun i fs h => ?_
  simp only [h.required "name" i.name restores_text (by simp),
    h.required "expression" i.expression restores_text (by simp),
    h.required "type" i.type restores_text (by simp),
    h.required "granularity" i.granularity restores_word64 (by simp),
    Gathered.map_ok, Gathered.ok_seq_ok]

theorem Node.restores : Restores Node.encode Node.decode := by
  refine restores_record (fun n => (((HasKeys.text _ _).append (.entry _ _)).append
    (.entry _ _)).append (.entry _ _)) (by decide) fun n fs h => ?_
  simp only [h.required "host" n.host restores_text (by simp),
    h.required "port" n.port restores_word16 (by simp),
    h.withDefault "shard" n.shard restores_word32 (by simp),
    h.withDefault "replica" n.replica restores_word32 (by simp),
    Gathered.map_ok, Gathered.ok_seq_ok]

/-! ## Entities -/

theorem Table.restores : Restores Table.encode Table.decode := by
  refine restores_record (fun t => ((((((((HasKeys.text _ _).append (.option _ _)).append
    (.list _ _ _)).append (.shownList _ _ _)).append (.option _ _)).append (.option _ _)).append
    (.shownMap _ _)).append (.shownList _ _ _)).append (.entry _ _)) (by decide) fun t fs h => ?_
  simp only [h.required "name" t.name restores_text (by simp),
    h.optional "database" t.database (by simp),
    h.withDefault "columns" t.columns (restores_listOf Column.restores) (by simp),
    h.shownList "orderBy" t.orderBy restores_text (by simp),
    h.optional "partitionBy" t.partitionBy (by simp), h.optional "ttl" t.ttl (by simp),
    h.shownMap "settings" t.settings (by simp),
    h.shownList "indexes" t.indexes Index.restores (by simp),
    h.required "engine" t.engine Engine.restores (by simp),
    Gathered.map_ok, Gathered.ok_seq_ok]

theorem View.restores : Restores View.encode View.decode := by
  refine restores_record (fun v => ((HasKeys.text _ _).append (.option _ _)).append (.text _ _))
    (by decide) fun v fs h => ?_
  simp only [h.required "name" v.name restores_text (by simp),
    h.optional "database" v.database (by simp),
    h.required "selectQuery" v.selectQuery restores_text (by simp),
    Gathered.map_ok, Gathered.ok_seq_ok]

theorem MaterializedView.restores : Restores MaterializedView.encode MaterializedView.decode := by
  refine restores_record (fun v => (((HasKeys.text _ _).append (.option _ _)).append
    (.option _ _)).append (.text _ _)) (by decide) fun v fs h => ?_
  simp only [h.required "name" v.name restores_text (by simp),
    h.optional "database" v.database (by simp),
    h.optional "destinationTable" v.destinationTable (by simp),
    h.required "selectQuery" v.selectQuery restores_text (by simp),
    Gathered.map_ok, Gathered.ok_seq_ok]

theorem Dictionary.restores : Restores Dictionary.encode Dictionary.decode := by
  refine restores_record (fun d => ((((((HasKeys.text _ _).append (.option _ _)).append
    (.list _ _ _)).append (.shownList _ _ _)).append (.text _ _)).append (.text _ _)).append
    (.option _ _)) (by decide) fun d fs h => ?_
  simp only [h.required "name" d.name restores_text (by simp),
    h.optional "database" d.database (by simp),
    h.withDefault "attributes" d.attributes (restores_listOf Column.restores) (by simp),
    h.shownList "primaryKey" d.primaryKey restores_text (by simp),
    h.required "source" d.source restores_text (by simp),
    h.required "layout" d.layout restores_text (by simp),
    h.optional "lifetime" d.lifetime (by simp), Gathered.map_ok, Gathered.ok_seq_ok]

theorem Cluster.restores : Restores Cluster.encode Cluster.decode := by
  refine restores_record (fun c => (HasKeys.text _ _).append (.list _ _ _)) (by decide)
    fun c fs h => ?_
  simp only [h.required "name" c.name restores_text (by simp),
    h.withDefault "nodes" c.nodes (restores_listOf Node.restores) (by simp),
    Gathered.map_ok, Gathered.ok_seq_ok]

namespace EntityKind

/-- An entity of a kind as a document. -/
def encode : (kind : EntityKind) → kind.Member → Document
  | table => Table.encode
  | view => View.encode
  | materializedView => MaterializedView.encode
  | dictionary => Dictionary.encode
  | cluster => Cluster.encode

/-- The entities of a kind from documents. -/
def decoder : (kind : EntityKind) → Decoder kind.Member
  | table => Table.decode
  | view => View.decode
  | materializedView => MaterializedView.decode
  | dictionary => Dictionary.decode
  | cluster => Cluster.decode

/-- **An entity is read from its document as it was written**, with absent fields absent and empty
ones empty. -/
theorem restores (kind : EntityKind) : Restores kind.encode kind.decoder := by
  cases kind with
  | table => exact Table.restores
  | view => exact View.restores
  | materializedView => exact MaterializedView.restores
  | dictionary => exact Dictionary.restores
  | cluster => exact Cluster.restores

end EntityKind

end SchemaPlan
