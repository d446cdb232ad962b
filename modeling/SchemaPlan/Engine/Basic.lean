import SchemaPlan.Engine.Arity

/-!
# Table engines

The storage engines of tables, each with the arguments its declaration takes.

* `EngineFamily`: the engines without their arguments, in the order in which a declaration is
  compared with their names.
* `Engine`: an engine with its arguments.
* `Engine.family`: the family an engine belongs to.
-/

namespace SchemaPlan

/-- The supported engines, without arguments. -/
inductive EngineFamily
  | replicatedReplacingMergeTree
  | replicatedCollapsingMergeTree
  | replicatedAggregatingMergeTree
  | replicatedMergeTree
  | replacingMergeTree
  | summingMergeTree
  | collapsingMergeTree
  | aggregatingMergeTree
  | mergeTree
  | distributed
  | kafka
  | log
  deriving DecidableEq, Repr

namespace EngineFamily

/-- All supported engines, in the order in which a declaration is compared with their names. -/
def all : List EngineFamily :=
  [replicatedReplacingMergeTree, replicatedCollapsingMergeTree, replicatedAggregatingMergeTree,
    replicatedMergeTree, replacingMergeTree, summingMergeTree, collapsingMergeTree,
    aggregatingMergeTree, mergeTree, distributed, kafka, log]

/-- The name of an engine as the server spells it. -/
def name : EngineFamily → String
  | replicatedReplacingMergeTree => "ReplicatedReplacingMergeTree"
  | replicatedCollapsingMergeTree => "ReplicatedCollapsingMergeTree"
  | replicatedAggregatingMergeTree => "ReplicatedAggregatingMergeTree"
  | replicatedMergeTree => "ReplicatedMergeTree"
  | replacingMergeTree => "ReplacingMergeTree"
  | summingMergeTree => "SummingMergeTree"
  | collapsingMergeTree => "CollapsingMergeTree"
  | aggregatingMergeTree => "AggregatingMergeTree"
  | mergeTree => "MergeTree"
  | distributed => "Distributed"
  | kafka => "Kafka"
  | log => "Log"

/-- How many arguments a declaration of the engine takes. -/
def arity : EngineFamily → Arity
  | replicatedReplacingMergeTree => ⟨2, 3⟩
  | replicatedCollapsingMergeTree => .exactly 3
  | replicatedAggregatingMergeTree => .exactly 2
  | replicatedMergeTree => .exactly 2
  | replacingMergeTree => ⟨0, 1⟩
  | summingMergeTree => ⟨0, 1⟩
  | collapsingMergeTree => .exactly 1
  | aggregatingMergeTree => .exactly 0
  | mergeTree => .exactly 0
  | distributed => ⟨3, 4⟩
  | kafka => .exactly 4
  | log => .exactly 0

theorem mem_all (f : EngineFamily) : f ∈ all := by cases f <;> decide

theorem name_injective {f g : EngineFamily} (h : f.name = g.name) : f = g := by
  revert h; cases f <;> cases g <;> decide

/-- The family of a name. -/
def ofName? (name : String) : Option EngineFamily := all.find? (·.name = name)

end EngineFamily

/-- The storage engine of a table, with the arguments of its declaration. -/
inductive Engine
  | mergeTree
  | replicatedMergeTree (zooPath replicaName : String)
  | replacingMergeTree (versionColumn : Option String)
  | replicatedReplacingMergeTree (zooPath replicaName : String) (versionColumn : Option String)
  | summingMergeTree (sumColumns : List String)
  | collapsingMergeTree (signColumn : String)
  | replicatedCollapsingMergeTree (zooPath replicaName signColumn : String)
  | aggregatingMergeTree
  | replicatedAggregatingMergeTree (zooPath replicaName : String)
  | distributed (clusterName remoteDatabase remoteTable : String) (shardingKey : Option String)
  | log
  | kafka (brokerList : List String) (topic consumerGroup format : String)
  deriving DecidableEq, Repr

namespace Engine

/-- The engine without its arguments. -/
def family : Engine → EngineFamily
  | mergeTree => .mergeTree
  | replicatedMergeTree .. => .replicatedMergeTree
  | replacingMergeTree .. => .replacingMergeTree
  | replicatedReplacingMergeTree .. => .replicatedReplacingMergeTree
  | summingMergeTree .. => .summingMergeTree
  | collapsingMergeTree .. => .collapsingMergeTree
  | replicatedCollapsingMergeTree .. => .replicatedCollapsingMergeTree
  | aggregatingMergeTree => .aggregatingMergeTree
  | replicatedAggregatingMergeTree .. => .replicatedAggregatingMergeTree
  | distributed .. => .distributed
  | log => .log
  | kafka .. => .kafka

/-- The name of the engine as the server spells it. -/
def name (e : Engine) : String := e.family.name

/-- The engine keeps its replicas in step through a coordination path. -/
def isReplicated : Engine → Bool
  | replicatedMergeTree .. => true
  | replicatedReplacingMergeTree .. => true
  | replicatedCollapsingMergeTree .. => true
  | replicatedAggregatingMergeTree .. => true
  | _ => false

end Engine

end SchemaPlan
