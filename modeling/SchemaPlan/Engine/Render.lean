import SchemaPlan.Engine.Basic
import SchemaPlan.Sql.Literal

/-!
# Engine declarations

The declaration of an engine as text. Paths, replica names and the arguments of `Distributed` and
`Kafka` tables are quoted literals; columns and expressions stand bare.
-/

namespace SchemaPlan.Engine

open Sql (quoteLiteral)

/-- An argument that is left out when it is absent. -/
def optionalArgument : Option String → List String
  | none => []
  | some argument => [argument]

/-- The arguments of a declaration as they are written. -/
def writtenArguments : Engine → List String
  | mergeTree => []
  | aggregatingMergeTree => []
  | log => []
  | replicatedMergeTree zooPath replicaName => [quoteLiteral zooPath, quoteLiteral replicaName]
  | replicatedAggregatingMergeTree zooPath replicaName =>
    [quoteLiteral zooPath, quoteLiteral replicaName]
  | replacingMergeTree versionColumn => optionalArgument versionColumn
  | replicatedReplacingMergeTree zooPath replicaName versionColumn =>
    [quoteLiteral zooPath, quoteLiteral replicaName] ++ optionalArgument versionColumn
  | summingMergeTree [] => []
  | summingMergeTree sumColumns => ["(" ++ ", ".intercalate sumColumns ++ ")"]
  | collapsingMergeTree signColumn => [signColumn]
  | replicatedCollapsingMergeTree zooPath replicaName signColumn =>
    [quoteLiteral zooPath, quoteLiteral replicaName, signColumn]
  | distributed clusterName remoteDatabase remoteTable shardingKey =>
    [quoteLiteral clusterName, quoteLiteral remoteDatabase, quoteLiteral remoteTable] ++
      optionalArgument shardingKey
  | kafka brokerList topic consumerGroup format =>
    [quoteLiteral (",".intercalate brokerList), quoteLiteral topic, quoteLiteral consumerGroup,
      quoteLiteral format]

/-- The declaration of an engine: its name and its arguments in parentheses. -/
def render (e : Engine) : String :=
  e.name ++ "(" ++ ", ".intercalate e.writtenArguments ++ ")"

end SchemaPlan.Engine
