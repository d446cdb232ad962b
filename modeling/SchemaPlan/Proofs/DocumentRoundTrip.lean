import Mathlib.Logic.Function.Basic
import SchemaPlan.Document.Catalog
import SchemaPlan.Proofs.EntityDocuments

/-!
# Documents read back

Everything that is written as a document is read from it as it was written: absent texts are
absent and empty ones empty, lists and maps that were left out are empty, and numbers keep all
their bits.

* `Snapshot.restores`: a snapshot, whose names are found distinct again; `TableRow.restores` and its
  siblings: the rows of a catalog.
* `DocumentKind`: the types of values that are written as documents.
* `DocumentKind.meant_encode`: a document that was written has nothing in it that is typed by its
  look.
* **`DocumentKind.decode_encode`**: the round trip.
-/

namespace SchemaPlan

open Document

/-! ## Snapshots -/

namespace Snapshot

theorem ofLists_entries (s : Snapshot) :
    ofLists s.tables.entries s.views.entries s.materializedViews.entries s.dictionaries.entries
      s.clusters.entries = .ok s := by
  have hlist {α : Type} [Entity α] (c : Collection α) : Collection.ofList c.entries = .ok c := by
    obtain ⟨d, hd, hentries⟩ := Collection.ofList_of_nodup c.distinct
    rw [hd, Collection.ext hentries]
  rw [ofLists, hlist, hlist, hlist, hlist, hlist]
  rfl

/-- **A snapshot is read back.** Its names are distinct, so that none is refused. -/
theorem restores : Restores Snapshot.encode Snapshot.decode := by
  intro s d h
  have hlists : snapshotLists d = .ok (.ok s) := by
    refine record_of_meant (((((HasKeys.shownList _ _ _).append (.shownList _ _ _)).append
      (.shownList _ _ _)).append (.shownList _ _ _)).append (.shownList _ _ _)) (by decide)
      (fun fs hfs => ?_) h
    simp only [hfs.shownList "tables" s.tables.entries Table.restores (by simp),
      hfs.shownList "views" s.views.entries View.restores (by simp),
      hfs.shownList "materializedViews" s.materializedViews.entries MaterializedView.restores
        (by simp),
      hfs.shownList "dictionaries" s.dictionaries.entries Dictionary.restores (by simp),
      hfs.shownList "clusters" s.clusters.entries Cluster.restores (by simp),
      Gathered.map_ok, Gathered.ok_seq_ok, ofLists_entries]
  rw [Snapshot.decode, hlists]
  rfl

end Snapshot

/-! ## Catalog rows -/

theorem TableRow.restores : Restores TableRow.encode TableRow.decode := by
  refine restores_record (fun r => (((((((HasKeys.text _ _).append (.text _ _)).append
    (.text _ _)).append (.text _ _)).append (.text _ _)).append (.text _ _)).append
    (.text _ _)).append (.text _ _)) (by decide) fun r fs h => ?_
  simp only [h.withDefault "database" r.database restores_text (by simp),
    h.withDefault "name" r.name restores_text (by simp),
    h.withDefault "engine" r.engine restores_text (by simp),
    h.withDefault "engine_full" r.engineFull restores_text (by simp),
    h.withDefault "sorting_key" r.sortingKey restores_text (by simp),
    h.withDefault "partition_key" r.partitionKey restores_text (by simp),
    h.withDefault "as_select" r.asSelect restores_text (by simp),
    h.withDefault "create_table_query" r.createTableQuery restores_text (by simp),
    Gathered.map_ok, Gathered.ok_seq_ok]

theorem ColumnRow.restores : Restores ColumnRow.encode ColumnRow.decode := by
  refine restores_record (fun r => ((((((HasKeys.text _ _).append (.text _ _)).append
    (.text _ _)).append (.text _ _)).append (.text _ _)).append (.text _ _)).append (.text _ _))
    (by decide) fun r fs h => ?_
  simp only [h.withDefault "database" r.database restores_text (by simp),
    h.withDefault "table" r.table restores_text (by simp),
    h.withDefault "name" r.name restores_text (by simp),
    h.withDefault "type" r.type restores_text (by simp),
    h.withDefault "default_expression" r.defaultExpression restores_text (by simp),
    h.withDefault "compression_codec" r.compressionCodec restores_text (by simp),
    h.withDefault "comment" r.comment restores_text (by simp),
    Gathered.map_ok, Gathered.ok_seq_ok]

theorem IndexRow.restores : Restores IndexRow.encode IndexRow.decode := by
  refine restores_record (fun r => (((((HasKeys.text _ _).append (.text _ _)).append
    (.text _ _)).append (.text _ _)).append (.text _ _)).append (.entry _ _)) (by decide)
    fun r fs h => ?_
  simp only [h.withDefault "database" r.database restores_text (by simp),
    h.withDefault "table" r.table restores_text (by simp),
    h.withDefault "name" r.name restores_text (by simp),
    h.withDefault "expr" r.expr restores_text (by simp),
    h.withDefault "type_full" r.typeFull restores_text (by simp),
    h.withDefault "granularity" r.granularity restores_word64 (by simp),
    Gathered.map_ok, Gathered.ok_seq_ok]

theorem DictionaryRow.restores : Restores DictionaryRow.encode DictionaryRow.decode := by
  have htexts := restores_listOf restores_text
  refine restores_record (fun r => (((((((((HasKeys.text _ _).append (.text _ _)).append
    (.list _ _ _)).append (.list _ _ _)).append (.list _ _ _)).append (.list _ _ _)).append
    (.text _ _)).append (.text _ _)).append (.entry _ _)).append (.entry _ _)) (by decide)
    fun r fs h => ?_
  simp only [h.withDefault "database" r.database restores_text (by simp),
    h.withDefault "name" r.name restores_text (by simp),
    h.withDefault "key.names" r.keyNames htexts (by simp),
    h.withDefault "key.types" r.keyTypes htexts (by simp),
    h.withDefault "attribute.names" r.attributeNames htexts (by simp),
    h.withDefault "attribute.types" r.attributeTypes htexts (by simp),
    h.withDefault "source" r.source restores_text (by simp),
    h.withDefault "type" r.layout restores_text (by simp),
    h.withDefault "lifetime_min" r.lifetimeMin restores_word64 (by simp),
    h.withDefault "lifetime_max" r.lifetimeMax restores_word64 (by simp),
    Gathered.map_ok, Gathered.ok_seq_ok]

/-! ## What documents that were written mean -/

namespace Document

section Entries

variable {α : Type} {encode : α → Document}

@[simp] theorem meant_ofText (s : String) : (ofText s).meant = ofText s := by
  simp [ofText, meant, Scalar.meant]

@[simp] theorem meant_ofNat (n : Nat) : (ofNat n).meant = ofNat n := by
  simp [ofNat, meant, Scalar.meant]

@[simp] theorem meantEntries_append (entries rest : List (Document × Document)) :
    meantEntries (entries ++ rest) = meantEntries entries ++ meantEntries rest := by
  simp only [meantEntries_eq, List.map_append]

@[simp] theorem meantEntries_entry (name : String) (d : Document) :
    meantEntries (entry name d) = entry name d.meant := rfl

@[simp] theorem meantEntries_textEntry (name s : String) :
    meantEntries (textEntry name s) = textEntry name s := rfl

@[simp] theorem meantEntries_optionEntry (name : String) (s : Option String) :
    meantEntries (optionEntry name s) = optionEntry name s := by
  cases s <;> rfl

@[simp] theorem meantEntries_listEntry (h : ∀ x, (encode x).meant = encode x) (name : String)
    (l : List α) : meantEntries (listEntry name encode l) = listEntry name encode l := by
  have hitems : (l.map encode).map meant = l.map encode := by
    rw [List.map_map]
    exact List.map_congr_left fun x _ => h x
  rw [listEntry, meantEntries_entry, meant, meantItems_eq, hitems]

@[simp] theorem meantEntries_shownList (h : ∀ x, (encode x).meant = encode x) (name : String)
    (l : List α) : meantEntries (shownList name encode l) = shownList name encode l := by
  unfold shownList
  split_ifs
  · rfl
  · exact meantEntries_listEntry h name l

@[simp] theorem meantEntries_shownMap (name : String) (m : Keyed String) :
    meantEntries (shownMap name m) = shownMap name m := by
  unfold shownMap
  split_ifs
  · rfl
  · rw [meantEntries_entry, meant, meantEntries_eq, List.map_map]
    rfl

end Entries

end Document

@[simp] theorem Engine.meant_encode (e : Engine) : e.encode.meant = e.encode := by
  cases e <;> simp [Engine.encode, meant]

@[simp] theorem Column.meant_encode (c : Column) : c.encode.meant = c.encode := by
  simp [Column.encode, meant]

@[simp] theorem Index.meant_encode (i : Index) : i.encode.meant = i.encode := by
  simp [Index.encode, meant]

@[simp] theorem Node.meant_encode (n : Node) : n.encode.meant = n.encode := by
  simp [Node.encode, meant]

@[simp] theorem Table.meant_encode (t : Table) : t.encode.meant = t.encode := by
  simp [Table.encode, meant]

@[simp] theorem View.meant_encode (v : View) : v.encode.meant = v.encode := by
  simp [View.encode, meant]

@[simp] theorem MaterializedView.meant_encode (v : MaterializedView) :
    v.encode.meant = v.encode := by
  simp [MaterializedView.encode, meant]

@[simp] theorem Dictionary.meant_encode (d : Dictionary) : d.encode.meant = d.encode := by
  simp [Dictionary.encode, meant]

@[simp] theorem Cluster.meant_encode (c : Cluster) : c.encode.meant = c.encode := by
  simp [Cluster.encode, meant]

/-! ## All values that are written -/

/-- The types of values that are written as documents. -/
inductive DocumentKind
  | entity (kind : EntityKind)
  | column
  | index
  | engine
  | node
  | snapshot
  | tableRow
  | columnRow
  | indexRow
  | dictionaryRow
  deriving DecidableEq, Repr

namespace DocumentKind

/-- What a document of a kind stands for. -/
@[reducible] def Value : DocumentKind → Type
  | entity kind => kind.Member
  | column => Column
  | index => Index
  | engine => Engine
  | node => Node
  | snapshot => Snapshot
  | tableRow => TableRow
  | columnRow => ColumnRow
  | indexRow => IndexRow
  | dictionaryRow => DictionaryRow

/-- A value as a document. -/
def encode : (kind : DocumentKind) → kind.Value → Document
  | entity kind => kind.encode
  | column => Column.encode
  | index => Index.encode
  | engine => Engine.encode
  | node => Node.encode
  | snapshot => Snapshot.encode
  | tableRow => TableRow.encode
  | columnRow => ColumnRow.encode
  | indexRow => IndexRow.encode
  | dictionaryRow => DictionaryRow.encode

/-- The values of a type from documents. -/
def decoder : (kind : DocumentKind) → Decoder kind.Value
  | entity kind => kind.decoder
  | column => Column.decode
  | index => Index.decode
  | engine => Engine.decode
  | node => Node.decode
  | snapshot => Snapshot.decode
  | tableRow => TableRow.decode
  | columnRow => ColumnRow.decode
  | indexRow => IndexRow.decode
  | dictionaryRow => DictionaryRow.decode

theorem restores (kind : DocumentKind) : Restores kind.encode kind.decoder := by
  cases kind with
  | entity kind => exact kind.restores
  | column => exact Column.restores
  | index => exact Index.restores
  | engine => exact Engine.restores
  | node => exact Node.restores
  | snapshot => exact Snapshot.restores
  | tableRow => exact TableRow.restores
  | columnRow => exact ColumnRow.restores
  | indexRow => exact IndexRow.restores
  | dictionaryRow => exact DictionaryRow.restores

/-- A document that was written is what it means: nothing in it is typed by its look. -/
theorem meant_encode (kind : DocumentKind) (x : kind.Value) :
    (kind.encode x).meant = kind.encode x := by
  cases kind with
  | entity kind =>
    cases kind with
    | table => exact Table.meant_encode x
    | view => exact View.meant_encode x
    | materializedView => exact MaterializedView.meant_encode x
    | dictionary => exact Dictionary.meant_encode x
    | cluster => exact Cluster.meant_encode x
  | column => exact Column.meant_encode x
  | index => exact Index.meant_encode x
  | engine => exact Engine.meant_encode x
  | node => exact Node.meant_encode x
  | snapshot => simp [encode, Snapshot.encode, meant]
  | tableRow => simp [encode, TableRow.encode, meant]
  | columnRow => simp [encode, ColumnRow.encode, meant]
  | indexRow => simp [encode, IndexRow.encode, meant]
  | dictionaryRow => simp [encode, DictionaryRow.encode, meant]

/-- **Every value is read back from its document.** The same goes for every other form of the
document, such as one whose lists may stand for records or whose texts are without quotes; and
different values, such as an absent text and one without characters, have different documents. -/
theorem decode_encode (kind : DocumentKind) :
    (∀ x : kind.Value, kind.decoder (kind.encode x) = .ok x) ∧
      (∀ (x : kind.Value) (d : Document), d.meant = kind.encode x → kind.decoder d = .ok x) ∧
      Function.Injective kind.encode := by
  have hread (x : kind.Value) : kind.decoder (kind.encode x) = .ok x :=
    kind.restores x _ (kind.meant_encode x)
  refine ⟨hread, kind.restores, fun x y h => ?_⟩
  have hx := hread x
  rw [h, hread y, Except.ok.injEq] at hx
  exact hx.symm

/-- A table without a database, with an empty partition and an index of the largest granularity,
from a document with a name without quotes and lists that may stand for records. -/
theorem decode_encode_events :
    let t : Table :=
      { name := "events", columns := [{ name := "id", type := "UInt64", comment := some "" }]
        partitionBy := some "", indexes := [⟨"by_id", "id", "minmax", 18446744073709551615⟩]
        engine := .replacingMergeTree none }
    let d : Document := .mapping [
      (ofText "name", .scalar (.plain "events")),
      (ofText "columns", .tuple [.mapping (textEntry "name" "id" ++ textEntry "type" "UInt64" ++
        textEntry "comment" "")]),
      (ofText "partitionBy", ofText ""),
      (ofText "indexes", .tuple [.mapping (textEntry "name" "by_id" ++
        textEntry "expression" "id" ++ textEntry "type" "minmax" ++
        entry "granularity" (.scalar (.plain "18446744073709551615")))]),
      (ofText "engine", .mapping (textEntry "kind" "ReplacingMergeTree"))]
    d.meant = t.encode ∧ Table.decode d = .ok t := by
  intro t d
  have hmeant : d.meant = t.encode := by decide +kernel
  exact ⟨hmeant, (decode_encode (.entity .table)).2.1 t d hmeant⟩

end DocumentKind

end SchemaPlan
