import SchemaPlan.Proofs.EngineRoundTrip

/-!
# What becomes of a declaration

A declaration is attributed by the name it calls and checked by the number of its arguments, and
nothing else decides whether it is read.

* `find?_isDeclaredBy`: a declaration finds one family, in whatever order they are tried.
* `EngineFamily.argumentCount`, `length_argumentsIn`: how many arguments a declaration has.
* `Engine.Holds`: an engine holds given arguments, none of them made up; `holds_of_build?`.
* `Engine.readBy`: names tried in a given order, then the number of arguments checked, then the
  arguments taken apart with a way out of its own.
* `parse_outcome`: **the outcome for every engine name and engine text**.
-/

namespace SchemaPlan

open Sql

/-! ## Attribution -/

namespace EngineFamily

theorem find?_isDeclaredBy {dispatch : List EngineFamily} (hall : ∀ g, g ∈ dispatch)
    (declaration : String) :
    dispatch.find? (·.isDeclaredBy declaration) = ofDeclaration? declaration := by
  ext f
  rw [find?_isDeclaredBy_eq_some_iff hall, ofDeclaration?_eq_some_iff]

/-! ## Counting -/

/-- How many arguments a declaration has. For a `Kafka` declaration without any, those of four
settings that are there count instead. -/
def argumentCount (f : EngineFamily) (declaration text : String) : Nat :=
  if f = .kafka ∧ (arguments declaration).length = 0 then
    (["kafka_broker_list", "kafka_topic_list", "kafka_group_name", "kafka_format"].filter
      (clauses text).settings.contains).length
  else (arguments declaration).length

theorem length_argumentsIn (f : EngineFamily) (declaration text : String) :
    (f.argumentsIn declaration text).length = f.argumentCount declaration text := by
  unfold argumentCount
  split
  · rename_i h
    obtain ⟨rfl, hnone⟩ := h
    unfold argumentsIn
    simp only [List.length_eq_zero_iff.mp hnone]
    rw [List.length_filterMap_eq_countP, List.countP_eq_length_filter]
    simp only [Option.isSome_map]
    rfl
  · rename_i h
    rw [argumentsIn_of_ne_nil text fun hf hnone => h ⟨hf, by simp [hnone]⟩]

end EngineFamily

/-! ## Arguments held -/

namespace Engine

/-- The engine holds the given arguments: each of them, in their order, and nothing for one that is
not given. Lists are held cut into their items. -/
def Holds : Engine → List String → Prop
  | mergeTree, given | aggregatingMergeTree, given | log, given => given = []
  | replicatedMergeTree zooPath replicaName, given
  | replicatedAggregatingMergeTree zooPath replicaName, given => given = [zooPath, replicaName]
  | replacingMergeTree versionColumn, given => given = versionColumn.toList
  | replicatedReplacingMergeTree zooPath replicaName versionColumn, given =>
    given = [zooPath, replicaName] ++ versionColumn.toList
  | summingMergeTree sumColumns, given =>
    given = [] ∧ sumColumns = [] ∨ ∃ columns, given = [columns] ∧ sumColumns = columnList columns
  | collapsingMergeTree signColumn, given => given = [signColumn]
  | replicatedCollapsingMergeTree zooPath replicaName signColumn, given =>
    given = [zooPath, replicaName, signColumn]
  | distributed clusterName remoteDatabase remoteTable shardingKey, given =>
    given = [clusterName, remoteDatabase, remoteTable] ++ shardingKey.toList
  | kafka brokerList topic consumerGroup format, given =>
    ∃ brokers, given = [brokers, topic, consumerGroup, format] ∧
      brokerList = commaList brokers.toList

theorem holds_of_build? {f : EngineFamily} {given : List String} {e : Engine}
    (h : f.build? given = some e) : e.Holds given := by
  unfold EngineFamily.build? at h
  split at h <;> cases h <;> simp [Holds]

/-! ## The outcome -/

/-- Read a declaration in steps: the first name of `dispatch` that it calls, then the number of its
arguments, then the arguments. If they cannot be taken apart, the outcome is `fallback`. -/
def readBy (dispatch : List EngineFamily) (fallback : EngineError) (engine text : String) :
    Except EngineError Engine :=
  let declaration := declarationIn engine text
  match dispatch.find? (·.isDeclaredBy declaration) with
  | none => .error (.unsupported engine declaration)
  | some f =>
    let given := f.argumentsIn declaration text
    if f.arity.accepts given.length then
      match f.build? given with
      | some e => .ok e
      | none => .error fallback
    else .error (.malformed f declaration given.length)

/-- The order of the names makes no difference, and the way out is never taken. -/
theorem readBy_eq_parse {dispatch : List EngineFamily} (hall : ∀ f, f ∈ dispatch)
    (fallback : EngineError) (engine text : String) :
    readBy dispatch fallback engine text = parse engine text := by
  unfold readBy parse
  simp only [EngineFamily.find?_isDeclaredBy hall, ← EngineFamily.isSome_build?]
  cases EngineFamily.ofDeclaration? (declarationIn engine text) with
  | none => rfl
  | some f =>
    cases hbuild : f.build? (f.argumentsIn (declarationIn engine text) text) <;> simp [hbuild]

variable {engine text : String} {f : EngineFamily}

theorem parse_of_uncalled
    (h : ∀ f : EngineFamily, f.name.toList ≠ EngineFamily.calledName (declarationIn engine text)) :
    parse engine text = .error (.unsupported engine (declarationIn engine text)) := by
  have hnone : EngineFamily.ofDeclaration? (declarationIn engine text) = none := by
    cases hf : EngineFamily.ofDeclaration? (declarationIn engine text) with
    | none => rfl
    | some f => exact absurd (EngineFamily.ofDeclaration?_eq_some_iff.mp hf).symm (h f)
  unfold parse
  simp only [hnone]

theorem parse_of_called
    (h : f.name.toList = EngineFamily.calledName (declarationIn engine text)) :
    parse engine text =
      match f.build? (f.argumentsIn (declarationIn engine text) text) with
      | some e => .ok e
      | none => .error (.malformed f (declarationIn engine text)
          (f.argumentCount (declarationIn engine text) text)) := by
  have hfamily := EngineFamily.ofDeclaration?_eq_some_iff.mpr h.symm
  unfold parse
  cases hbuild : f.build? (f.argumentsIn (declarationIn engine text) text) <;>
    simp only [hfamily, hbuild, EngineFamily.length_argumentsIn]

/-- **The outcome for every engine name and engine text.** A declaration that calls no supported
name is unsupported. One that calls the name of a family is read, as an engine of this name that
holds its arguments, exactly if their number is in the range of the family, and is malformed
otherwise. Neither the order in which the names are tried nor a way out after the check of the
number makes a difference. -/
theorem parse_outcome (engine text : String) :
    let declaration := declarationIn engine text
    let called := String.ofList (EngineFamily.calledName declaration)
    ((∀ f : EngineFamily, f.name ≠ called) →
        parse engine text = .error (.unsupported engine declaration)) ∧
      (∀ f : EngineFamily, f.name = called →
        let n := f.argumentCount declaration text
        ((∃ e, parse engine text = .ok e ∧ e.name = called ∧
            e.Holds (f.argumentsIn declaration text)) ↔ f.arity.min ≤ n ∧ n ≤ f.arity.max) ∧
          (¬(f.arity.min ≤ n ∧ n ≤ f.arity.max) →
            parse engine text = .error (.malformed f declaration n))) ∧
      ∀ (dispatch : List EngineFamily) (fallback : EngineError),
        dispatch.Perm EngineFamily.all →
          readBy dispatch fallback engine text = parse engine text := by
  intro declaration called
  refine ⟨fun hnone => parse_of_uncalled fun f hf => hnone f ?_, fun f hf => ?_,
    fun dispatch fallback hperm => readBy_eq_parse (fun f => hperm.mem_iff.mpr f.mem_all) _ _ _⟩
  · exact String.toList_inj.mp (hf.trans String.toList_ofList.symm)
  · intro n
    have hcalled : f.name.toList = EngineFamily.calledName (declarationIn engine text) := by
      rw [hf, String.toList_ofList]
    have hparse := parse_of_called hcalled
    have haccepts : (f.build? (f.argumentsIn declaration text)).isSome = true ↔
        f.arity.min ≤ n ∧ n ≤ f.arity.max := by
      rw [EngineFamily.isSome_build?, EngineFamily.length_argumentsIn, Arity.accepts_iff]
    cases hbuild : f.build? (f.argumentsIn declaration text) with
    | some e =>
      rw [hbuild] at hparse haccepts
      have hrange := haccepts.mp rfl
      refine ⟨iff_of_true ⟨e, hparse, ?_, holds_of_build? hbuild⟩ hrange,
        fun h => absurd hrange h⟩
      rw [name, EngineFamily.family_of_build? hbuild, hf]
    | none =>
      rw [hbuild] at hparse haccepts
      refine ⟨iff_of_false ?_ fun h => absurd (haccepts.mpr h) (by simp), fun _ => hparse⟩
      rintro ⟨e, hok, -⟩
      rw [hparse] at hok
      cases hok

end Engine

end SchemaPlan
