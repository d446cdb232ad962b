import SchemaPlan.Engine.Basic
import SchemaPlan.Sql.Arguments
import SchemaPlan.Sql.Clause

/-!
# Reading engine declarations

From the engine name and the engine text of a catalog row to an engine.

* `EngineFamily.ofDeclaration?`: the family a declaration names.
* `EngineFamily.build?`: an engine from its family and its arguments.
* `Engine.parse`: the whole reading, with the two ways in which it fails.
-/

namespace SchemaPlan

open Sql (arguments clauses)

/-- Why an engine text cannot be read. -/
inductive EngineError
  /-- The declaration names no supported engine. -/
  | unsupported (engine declaration : String)
  /-- The declaration has too few or too many arguments. -/
  | malformed (family : EngineFamily) (declaration : String) (found : Nat)
  deriving DecidableEq, Repr

/-- The wording of an engine text that cannot be read. -/
def EngineError.message : EngineError → String
  | unsupported engine declaration =>
    "unsupported engine type: " ++ engine ++ " (declaration `" ++ declaration ++ "`)"
  | malformed family declaration found =>
    "malformed " ++ family.name ++ " declaration `" ++ declaration ++ "`: expected " ++
      family.arity.text ++ " parameters, got " ++ toString found ++
      if family.arity.missing found = 0 then ""
      else " (" ++ toString (family.arity.missing found) ++ " missing)"

/-- The parts of a list `a, b`, cut at every comma and trimmed, without the empty ones. -/
def commaList (cs : List Char) : List String :=
  ((cs.splitOn ',').map trim).filterMap fun part =>
    if part.isEmpty then none else some (String.ofList part)

/-- The columns of a list `(a, b)`, or of the same list without its parentheses. -/
def columnList (text : String) : List String :=
  match Sql.between? '(' ')' (trim text.toList) with
  | some inner => commaList inner
  | none => commaList (trim text.toList)

namespace EngineFamily

/-- The settings that stand for the arguments of a `Kafka` declaration without any, in the order
of those arguments. -/
def kafkaSettings : List String :=
  ["kafka_broker_list", "kafka_topic_list", "kafka_group_name", "kafka_format"]

/-- The declaration is the name of the family alone or followed by `(` or a blank. -/
def isDeclaredBy (f : EngineFamily) (declaration : String) : Bool :=
  match f.name.toList.isPrefixOf? declaration.toList with
  | none => false
  | some rest => rest.head?.all fun c => c == '(' || isBlank c

/-- The family a declaration names. -/
def ofDeclaration? (declaration : String) : Option EngineFamily :=
  all.find? (·.isDeclaredBy declaration)

/-- The arguments of a declaration in an engine text. A `Kafka` declaration without arguments has
those of its four settings that are there. -/
def argumentsIn (f : EngineFamily) (declaration text : String) : List String :=
  match f, arguments declaration with
  | kafka, [] =>
    kafkaSettings.filterMap fun key =>
      ((clauses text).settings.get? key).map fun value =>
        String.ofList (Sql.unquote value.toList)
  | _, given => given

/-- The engine of a family with given arguments, if their number is right. -/
def build? : EngineFamily → List String → Option Engine
  | mergeTree, [] => some .mergeTree
  | aggregatingMergeTree, [] => some .aggregatingMergeTree
  | log, [] => some .log
  | replicatedMergeTree, [zooPath, replicaName] =>
    some (.replicatedMergeTree zooPath replicaName)
  | replicatedAggregatingMergeTree, [zooPath, replicaName] =>
    some (.replicatedAggregatingMergeTree zooPath replicaName)
  | replacingMergeTree, [] => some (.replacingMergeTree none)
  | replacingMergeTree, [versionColumn] => some (.replacingMergeTree (some versionColumn))
  | replicatedReplacingMergeTree, [zooPath, replicaName] =>
    some (.replicatedReplacingMergeTree zooPath replicaName none)
  | replicatedReplacingMergeTree, [zooPath, replicaName, versionColumn] =>
    some (.replicatedReplacingMergeTree zooPath replicaName (some versionColumn))
  | summingMergeTree, [] => some (.summingMergeTree [])
  | summingMergeTree, [sumColumns] => some (.summingMergeTree (columnList sumColumns))
  | collapsingMergeTree, [signColumn] => some (.collapsingMergeTree signColumn)
  | replicatedCollapsingMergeTree, [zooPath, replicaName, signColumn] =>
    some (.replicatedCollapsingMergeTree zooPath replicaName signColumn)
  | distributed, [clusterName, remoteDatabase, remoteTable] =>
    some (.distributed clusterName remoteDatabase remoteTable none)
  | distributed, [clusterName, remoteDatabase, remoteTable, shardingKey] =>
    some (.distributed clusterName remoteDatabase remoteTable (some shardingKey))
  | kafka, [brokerList, topic, consumerGroup, format] =>
    some (.kafka (commaList brokerList.toList) topic consumerGroup format)
  | _, _ => none

/-- An engine can be built exactly from as many arguments as the family takes. -/
theorem isSome_build? (f : EngineFamily) (given : List String) :
    (f.build? given).isSome = f.arity.accepts given.length := by
  rcases given with _ | ⟨a, _ | ⟨b, _ | ⟨c, _ | ⟨d, _ | ⟨e, rest⟩⟩⟩⟩⟩ <;>
    cases f <;> simp [build?, arity, Arity.accepts, Arity.exactly]

end EngineFamily

namespace Engine

/-- The declaration in an engine text; the bare engine name if the text has none. -/
def declarationIn (engine text : String) : String :=
  if (Sql.declaration text).isEmpty then trimText engine else Sql.declaration text

/-- The engine that a catalog row declares by its engine name and its engine text. -/
def parse (engine text : String) : Except EngineError Engine :=
  let declaration := declarationIn engine text
  match EngineFamily.ofDeclaration? declaration with
  | none => .error (.unsupported engine declaration)
  | some family =>
    let given := family.argumentsIn declaration text
    match family.build? given with
    | some e => .ok e
    | none => .error (.malformed family declaration given.length)

end Engine

end SchemaPlan
