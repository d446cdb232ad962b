import SchemaPlan.Document.Encode
import SchemaPlan.Document.Record
import SchemaPlan.Document.Resolve
import SchemaPlan.Engine.Basic

/-!
# Engines as documents

An engine is a mapping with its name under `kind` and its arguments under names of their own.
Plain scalars in it have the type they look like before they are read as arguments. What is wrong
with an argument is then told of the record that the engine is a part of.
-/

namespace SchemaPlan

open Document

/-- The names of the arguments in a document, in the order of the declaration. -/
def EngineFamily.fieldNames : EngineFamily → List String
  | replicatedMergeTree => ["zooPath", "replicaName"]
  | replicatedAggregatingMergeTree => ["zooPath", "replicaName"]
  | replacingMergeTree => ["versionColumn"]
  | replicatedReplacingMergeTree => ["zooPath", "replicaName", "versionColumn"]
  | summingMergeTree => ["sumColumns"]
  | collapsingMergeTree => ["signColumn"]
  | replicatedCollapsingMergeTree => ["zooPath", "replicaName", "signColumn"]
  | distributed => ["clusterName", "remoteDatabase", "remoteTable", "shardingKey"]
  | kafka => ["brokerList", "topic", "consumerGroup", "format"]
  | aggregatingMergeTree => []
  | mergeTree => []
  | log => []

namespace Engine

/-- An engine as it is written: its kind, then its arguments under their names. -/
def encode (e : Engine) : Document :=
  .mapping (textEntry "kind" e.name ++
    match e with
    | mergeTree => []
    | aggregatingMergeTree => []
    | log => []
    | replicatedMergeTree zooPath replicaName =>
      textEntry "zooPath" zooPath ++ textEntry "replicaName" replicaName
    | replicatedAggregatingMergeTree zooPath replicaName =>
      textEntry "zooPath" zooPath ++ textEntry "replicaName" replicaName
    | replacingMergeTree versionColumn => optionEntry "versionColumn" versionColumn
    | replicatedReplacingMergeTree zooPath replicaName versionColumn =>
      textEntry "zooPath" zooPath ++ textEntry "replicaName" replicaName ++
        optionEntry "versionColumn" versionColumn
    | summingMergeTree sumColumns => shownList "sumColumns" ofText sumColumns
    | collapsingMergeTree signColumn => textEntry "signColumn" signColumn
    | replicatedCollapsingMergeTree zooPath replicaName signColumn =>
      textEntry "zooPath" zooPath ++ textEntry "replicaName" replicaName ++
        textEntry "signColumn" signColumn
    | distributed clusterName remoteDatabase remoteTable shardingKey =>
      textEntry "clusterName" clusterName ++ textEntry "remoteDatabase" remoteDatabase ++
        textEntry "remoteTable" remoteTable ++ optionEntry "shardingKey" shardingKey
    | kafka brokerList topic consumerGroup format =>
      listEntry "brokerList" ofText brokerList ++ textEntry "topic" topic ++
        textEntry "consumerGroup" consumerGroup ++ textEntry "format" format)

/-- The names of the engines in the order in which messages list them. -/
def familyNames : List String :=
  ["MergeTree", "ReplicatedMergeTree", "ReplacingMergeTree", "ReplicatedReplacingMergeTree",
    "SummingMergeTree", "CollapsingMergeTree", "ReplicatedCollapsingMergeTree",
    "AggregatingMergeTree", "ReplicatedAggregatingMergeTree", "Distributed", "Log", "Kafka"]

/-- The engine of a family with the fields of a document. -/
def ofFields (fs : Fields) : EngineFamily → Gathered Engine
  | .mergeTree => pure mergeTree
  | .aggregatingMergeTree => pure aggregatingMergeTree
  | .log => pure log
  | .replicatedMergeTree =>
    replicatedMergeTree <$> fs.required "zooPath" text <*> fs.required "replicaName" text
  | .replicatedAggregatingMergeTree =>
    replicatedAggregatingMergeTree <$> fs.required "zooPath" text <*>
      fs.required "replicaName" text
  | .replacingMergeTree => replacingMergeTree <$> fs.optional "versionColumn" text
  | .replicatedReplacingMergeTree =>
    replicatedReplacingMergeTree <$> fs.required "zooPath" text <*>
      fs.required "replicaName" text <*> fs.optional "versionColumn" text
  | .summingMergeTree => summingMergeTree <$> fs.withDefault "sumColumns" (listOf text) []
  | .collapsingMergeTree => collapsingMergeTree <$> fs.required "signColumn" text
  | .replicatedCollapsingMergeTree =>
    replicatedCollapsingMergeTree <$> fs.required "zooPath" text <*>
      fs.required "replicaName" text <*> fs.required "signColumn" text
  | .distributed =>
    distributed <$> fs.required "clusterName" text <*> fs.required "remoteDatabase" text <*>
      fs.required "remoteTable" text <*> fs.optional "shardingKey" text
  | .kafka =>
    kafka <$> fs.required "brokerList" (listOf text) <*> fs.required "topic" text <*>
      fs.required "consumerGroup" text <*> fs.required "format" text

/-- The fields of an engine of a family. Other fields are left out. -/
def shapeOf (family : EngineFamily) : RecordShape where
  wanted := "struct variant Engine::" ++ family.name ++ " with " ++
    toString family.fieldNames.length ++ " elements"
  names := family.fieldNames
  isClosed := false

/-- The field that a key names: by its name, or by its position if the key is a natural number. -/
def fieldName (names : List String) : KeyReader
  | .scalar (.natural n) => .ok (names.getD n "")
  | .scalar (.text s) => .ok s
  | d => .error (.here (d.mismatch "field identifier"))

/-- An error in an argument, told of no part of the engine. -/
def unplaced {α : Type} (r : Except DecodeError α) : Except DecodeError α :=
  r.mapError fun e => ⟨e.misfit, none⟩

/-- The engine of a family with the entries of a mapping besides its kind. An engine without
arguments may have any. -/
def ofEntries (family : EngineFamily) (entries : List (Document × Document)) :
    Except DecodeError Engine :=
  let given :=
    if family.fieldNames.isEmpty then ([], .ok ())
    else collectFields (shapeOf family) (fieldName family.fieldNames) [] 0 entries
  unplaced (build (ofFields · family) given)

/-- The length of a list in messages. -/
def itemCount (n : Nat) : String :=
  toString n ++ (if n = 1 then " element" else " elements") ++ " in sequence"

/-- The engine of a family with the values of its arguments. -/
def ofItems (family : EngineFamily) (items : List Document) : Except DecodeError Engine :=
  let limit := family.fieldNames.length
  match build (ofFields · family) ((positionalFields (shapeOf family) items).1, .ok ()) with
  | .error ⟨.missingField _, _⟩ =>
    .error ⟨.wrongLength items.length (shapeOf family).wanted, none⟩
  | .error e => unplaced (.error e)
  | .ok e =>
    if items.length ≤ limit then .ok e
    else .error ⟨.wrongLength items.length (itemCount limit), none⟩

/-- The family that a document names. -/
def familyOf (kind : Document) : Except DecodeError EngineFamily := do
  let name ← kind.textAs "variant identifier"
  match EngineFamily.ofName? name with
  | none => .error (.here (.unknownVariant name familyNames))
  | some family => .ok family

/-- The key under which the name of an engine stands. -/
def isKindKey : Document → Bool
  | .scalar (.text s) => s == "kind"
  | _ => false

/-- The key of an entry of an engine, with the type it looks like. -/
def resolveKey : Document → Except DecodeError Document
  | .scalar s => resolveScalar ("a type tag " ++ ticked "kind" ++ " or any other value") s
  | d => d.resolve

/-- The kind of an engine and the other entries of its mapping, from the `i`-th one on and after the
kind that was found before them. The plain scalars of the other entries are typed. -/
def splitKind (found : Option EngineFamily) (i : Nat) :
    List (Document × Document) →
      Except DecodeError (Option EngineFamily × List (Document × Document))
  | [] => .ok (found, [])
  | (key, value) :: rest => do
    let key ← within (.key i) (resolveKey key)
    if isKindKey key then
      if found.isSome then throw (.here (.repeatedField "kind"))
      let family ← within (.value i) (familyOf value)
      splitKind (some family) (i + 1) rest
    else
      let value ← within (.value i) value.resolve
      let (kind, others) ← splitKind found (i + 1) rest
      return (kind, (key, value) :: others)

/-- An engine from a list of its kind and its arguments. -/
def decodeItems : List Document → Except DecodeError Engine
  | [] => .error (.here (.missingField "kind"))
  | kind :: given => do
    let family ← within (.item 0) (familyOf kind)
    ofItems family (← resolveItems 1 given)

/-- An engine from a document: a mapping, or a list of the kind and the arguments. -/
def decode : Decoder Engine
  | .mapping entries => do
    match ← splitKind none 0 entries with
    | (none, _) => throw (.here (.missingField "kind"))
    | (some family, others) => ofEntries family others
  | .list items => decodeItems items
  | .tuple items => decodeItems items
  | d => .error (.here (d.mismatch "internally tagged enum Engine"))

end Engine

end SchemaPlan
