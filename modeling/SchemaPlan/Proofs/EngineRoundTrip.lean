import SchemaPlan.Engine.Parse
import SchemaPlan.Engine.Render
import SchemaPlan.Proofs.ClauseSearch
import SchemaPlan.Proofs.Pieces
import SchemaPlan.Schema.Table

/-!
# Engines read back

An engine that is rendered and read again is the same engine, whatever clauses follow its
declaration. Quoted arguments may be any texts; what stands bare has to be told apart from its
surroundings.

* `Engine.WellFormed`: what the bare arguments of an engine have to be.
* `Engine.readBack`: the engine that is read, in which an empty optional argument is absent.
* `Engine.arguments_render`, `Engine.build?_readArguments`: the arguments that are read.
* `EngineFamily.ofDeclaration?_eq_some_iff`: a declaration names the family up to its first
  parenthesis or blank, and no other.
* **`Engine.parse_render_append`**: the whole reading.
-/

namespace SchemaPlan

open Sql

/-! ## Arguments that stand bare -/

/-- A text that stands for itself as an argument. -/
structure IsBareArgument (s : String) : Prop where
  nonempty : s ≠ ""
  argument : IsArgument s.toList
  unquoted : ∀ mark, mark = '\'' ∨ mark = '"' →
    ¬(s.toList.head? = some mark ∧ s.toList.getLast? = some mark)

/-- A text that stands for itself in a list that is cut at every comma. -/
structure IsListItem (s : String) : Prop where
  nonempty : s ≠ ""
  trimmed : trim s.toList = s.toList
  commaless : ',' ∉ s.toList

/-- An optional argument may be empty. -/
def IsOptionalArgument (argument : Option String) : Prop :=
  ∀ s ∈ argument, s ≠ "" → IsBareArgument s

instance (s : String) : Decidable (IsBareArgument s) :=
  decidable_of_iff (s ≠ "" ∧ IsArgument s.toList ∧
      ¬(s.toList.head? = some '\'' ∧ s.toList.getLast? = some '\'') ∧
      ¬(s.toList.head? = some '"' ∧ s.toList.getLast? = some '"'))
    ⟨fun ⟨hne, harg, hsingle, hdouble⟩ =>
        ⟨hne, harg, fun _ hmark => hmark.elim (fun e => e ▸ hsingle) (fun e => e ▸ hdouble)⟩,
      fun h => ⟨h.nonempty, h.argument, h.unquoted _ (.inl rfl), h.unquoted _ (.inr rfl)⟩⟩

instance (s : String) : Decidable (IsListItem s) :=
  decidable_of_iff (s ≠ "" ∧ trim s.toList = s.toList ∧ ',' ∉ s.toList)
    ⟨fun ⟨hne, htrim, hcomma⟩ => ⟨hne, htrim, hcomma⟩,
      fun h => ⟨h.nonempty, h.trimmed, h.commaless⟩⟩

instance (argument : Option String) : Decidable (IsOptionalArgument argument) :=
  inferInstanceAs (Decidable (∀ s ∈ argument, s ≠ "" → IsBareArgument s))

namespace Engine

/-- The arguments that are rendered bare can be told apart from what stands around them. -/
def WellFormed : Engine → Prop
  | replacingMergeTree versionColumn => IsOptionalArgument versionColumn
  | replicatedReplacingMergeTree _ _ versionColumn => IsOptionalArgument versionColumn
  | summingMergeTree sumColumns => ∀ c ∈ sumColumns, IsListItem c ∧ Balanced c.toList
  | collapsingMergeTree signColumn => IsBareArgument signColumn
  | replicatedCollapsingMergeTree _ _ signColumn => IsBareArgument signColumn
  | distributed _ _ _ shardingKey => IsOptionalArgument shardingKey
  | kafka brokerList _ _ _ => ∀ b ∈ brokerList, IsListItem b
  | _ => True

instance : (e : Engine) → Decidable e.WellFormed
  | replacingMergeTree versionColumn =>
    inferInstanceAs (Decidable (IsOptionalArgument versionColumn))
  | replicatedReplacingMergeTree _ _ versionColumn =>
    inferInstanceAs (Decidable (IsOptionalArgument versionColumn))
  | summingMergeTree sumColumns =>
    inferInstanceAs (Decidable (∀ c ∈ sumColumns, IsListItem c ∧ Balanced c.toList))
  | collapsingMergeTree signColumn => inferInstanceAs (Decidable (IsBareArgument signColumn))
  | replicatedCollapsingMergeTree _ _ signColumn =>
    inferInstanceAs (Decidable (IsBareArgument signColumn))
  | distributed _ _ _ shardingKey => inferInstanceAs (Decidable (IsOptionalArgument shardingKey))
  | kafka brokerList _ _ _ => inferInstanceAs (Decidable (∀ b ∈ brokerList, IsListItem b))
  | mergeTree | replicatedMergeTree .. | aggregatingMergeTree | replicatedAggregatingMergeTree ..
  | log => inferInstanceAs (Decidable True)

/-- The engine with an empty optional argument taken for an absent one. -/
def readBack : Engine → Engine
  | replacingMergeTree versionColumn => .replacingMergeTree (versionColumn.bind stated?)
  | replicatedReplacingMergeTree zooPath replicaName versionColumn =>
    .replicatedReplacingMergeTree zooPath replicaName (versionColumn.bind stated?)
  | distributed clusterName remoteDatabase remoteTable shardingKey =>
    .distributed clusterName remoteDatabase remoteTable (shardingKey.bind stated?)
  | e => e

end Engine

theorem stated?_of_ne {s : String} (h : s ≠ "") : stated? s = some s :=
  if_neg (by simpa [String.isEmpty_iff] using h)

@[simp] theorem stated?_empty : stated? "" = none := rfl

theorem toList_ne_nil {s : String} (h : s ≠ "") : s.toList ≠ [] :=
  fun e => h (String.toList_eq_nil_iff.mp e)

/-! ## The value of an argument -/

/-- What a written argument stands for. -/
def argumentValue (s : String) : String := String.ofList (unquote s.toList)

@[simp] theorem argumentValue_quoteLiteral (s : String) : argumentValue (quoteLiteral s) = s := by
  rw [argumentValue, quoteLiteral, String.toList_ofList, unquote_quote, String.ofList_toList]

theorem quoteLiteral_ne_empty (s : String) : quoteLiteral s ≠ "" := fun h => by
  have := congrArg String.toList h
  rw [quoteLiteral, String.toList_ofList, quote] at this
  cases this

theorem between?_eq_none {mark : Char} {cs : List Char}
    (h : ¬(cs.head? = some mark ∧ cs.getLast? = some mark)) : between? mark mark cs = none := by
  cases cs with
  | nil => rfl
  | cons c cs =>
    refine if_neg fun ⟨hc, hlast⟩ => h ⟨congrArg some hc, ?_⟩
    rw [List.getLast?_cons, hlast]
    rfl

theorem argumentValue_of_unquoted {s : String} (htrim : trim s.toList = s.toList)
    (h : ∀ mark, mark = '\'' ∨ mark = '"' →
      ¬(s.toList.head? = some mark ∧ s.toList.getLast? = some mark)) : argumentValue s = s := by
  rw [argumentValue, unquote, htrim, between?_eq_none (h _ (.inl rfl)),
    between?_eq_none (h _ (.inr rfl)), String.ofList_toList]

theorem IsBareArgument.value {s : String} (h : IsBareArgument s) : argumentValue s = s :=
  argumentValue_of_unquoted h.argument.trimmed h.unquoted

/-! ## Lists cut at every comma -/

theorem commaList_of_splitOn {cs : List Char} {items : List String}
    (h : ∀ i ∈ items, i ≠ "") (hcs : (cs.splitOn ',').map trim = items.map String.toList) :
    commaList cs = items := by
  rw [commaList, hcs, List.filterMap_map]
  have hi : ∀ i ∈ items, (if i.toList.isEmpty then none else some (String.ofList i.toList)) =
      some i := fun i hi => by
    rw [if_neg (by simpa using toList_ne_nil (h i hi)), String.ofList_toList]
  exact (List.filterMap_congr hi).trans List.filterMap_some

theorem commaList_join {items : List String} (h : ∀ i ∈ items, IsListItem i) :
    commaList ([','].intercalate (items.map String.toList)) = items := by
  rcases eq_or_ne items [] with rfl | hne
  · rfl
  refine commaList_of_splitOn (fun i hi => (h i hi).nonempty) ?_
  rw [List.splitOn_intercalate _ _ (by simpa using hne)]
  · rw [List.map_map]
    exact List.map_congr_left fun i hi => (h i hi).trimmed
  · intro cs hcs
    obtain ⟨i, hi, rfl⟩ := List.mem_map.mp hcs
    exact (h i hi).commaless

theorem commaList_join_blank {items : List String} (h : ∀ i ∈ items, IsListItem i) :
    commaList ([',', ' '].intercalate (items.map String.toList)) = items := by
  cases items with
  | nil => rfl
  | cons i items =>
    refine commaList_of_splitOn (fun j hj => (h j hj).nonempty) ?_
    rw [List.map_cons, intercalate_comma_blank, List.splitOn_intercalate _ _ (by simp)]
    · rw [List.map_cons, (h i List.mem_cons_self).trimmed, List.map_map, List.map_map]
      refine congrArg (i.toList :: ·) (List.map_congr_left fun j hj => ?_)
      exact (trim_cons_blank (by decide)).trans (h j (List.mem_cons_of_mem _ hj)).trimmed
    · intro cs hcs
      rcases List.mem_cons.mp hcs with rfl | hcs
      · exact (h i List.mem_cons_self).commaless
      · obtain ⟨ds, hds, rfl⟩ := List.mem_map.mp hcs
        obtain ⟨j, hj, rfl⟩ := List.mem_map.mp hds
        simpa using (h j (List.mem_cons_of_mem _ hj)).commaless

theorem commaless_of_mem_splitOn {cs part : List Char} (h : part ∈ cs.splitOn ',') :
    ',' ∉ part := by
  induction cs generalizing part with
  | nil => simp_all
  | cons c cs ih =>
    rw [List.splitOn_cons_eq_if_modifyHead] at h
    split at h
    · obtain rfl | h := List.mem_cons.mp h
      · exact List.not_mem_nil
      · exact ih h
    · rename_i hc
      obtain ⟨first, rest, e⟩ := List.exists_cons_of_ne_nil (List.splitOn_ne_nil ',' cs)
      rw [e, List.modifyHead_cons, List.mem_cons] at h
      obtain rfl | h := h
      · have hfirst : ',' ∉ first := ih (e ▸ List.mem_cons_self)
        simpa [hfirst] using Ne.symm (by simpa using hc : c ≠ ',')
      · exact ih (e ▸ List.mem_cons_of_mem _ h)

theorem isListItem_of_mem_commaList {cs : List Char} {item : String} (h : item ∈ commaList cs) :
    IsListItem item := by
  obtain ⟨part, hpart, hitem⟩ := List.mem_filterMap.mp h
  split_ifs at hitem with hempty
  obtain rfl := Option.some.inj hitem
  obtain ⟨piece, hpiece, rfl⟩ := List.mem_map.mp hpart
  refine ⟨fun hnil => hempty ?_, ?_, ?_⟩
  · rw [← String.toList_ofList (l := trim piece), hnil]
    rfl
  · rw [String.toList_ofList, trim_trim]
  · rw [String.toList_ofList]
    exact fun hmem => commaless_of_mem_splitOn hpiece ((trim_sublist piece).subset hmem)

/-- The columns `a, b` in parentheses. -/
def columnTuple (columns : List String) : String := "(" ++ ", ".intercalate columns ++ ")"

theorem toList_columnTuple (columns : List String) : (columnTuple columns).toList =
    '(' :: ([',', ' '].intercalate (columns.map String.toList) ++ [')']) := by
  rw [columnTuple, String.toList_append, String.toList_append, String.toList_intercalate]
  rfl

theorem isArgument_columnTuple {columns : List String} (h : ∀ c ∈ columns, Balanced c.toList) :
    IsArgument (columnTuple columns).toList := by
  rw [toList_columnTuple]
  refine isArgument_parenthesized (.intercalate (by decide) fun cs hcs => ?_)
  obtain ⟨c, hc, rfl⟩ := List.mem_map.mp hcs
  exact h c hc

theorem columnList_columnTuple {columns : List String} (h : ∀ c ∈ columns, IsListItem c) :
    columnList (columnTuple columns) = columns := by
  rw [columnList, toList_columnTuple, trim_parenthesized, between?_append]
  exact commaList_join_blank h

theorem argumentValue_columnTuple (columns : List String) :
    argumentValue (columnTuple columns) = columnTuple columns := by
  refine argumentValue_of_unquoted ?_ ?_
  · rw [toList_columnTuple, trim_parenthesized]
  · rintro mark (rfl | rfl) <;> simp [toList_columnTuple]

/-! ## The family of a declaration -/

namespace EngineFamily

theorem name_plain (f : EngineFamily) : ∀ c ∈ f.name.toList,
    isBlank c = false ∧ isQuoteMark c = false ∧ c ≠ '(' ∧ c ≠ ')' := by
  have h : f.name.toList.all
      (fun c => !isBlank c && !isQuoteMark c && c != '(' && c != ')') = true := by
    cases f <;> decide
  simpa [and_assoc] using h

theorem name_ne_nil (f : EngineFamily) : f.name.toList ≠ [] := by cases f <;> decide

/-- A character that ends the name in a declaration. -/
def endsName (c : Char) : Bool := c == '(' || isBlank c

/-- A declaration up to the first parenthesis or blank. -/
def calledName (declaration : String) : List Char := declaration.toList.takeWhile (!endsName ·)

theorem name_endless (f : EngineFamily) : ∀ c ∈ f.name.toList, (!endsName c) = true := by
  intro c hc
  obtain ⟨hb, _, ho, _⟩ := f.name_plain c hc
  simp [endsName, hb, ho]

theorem isDeclaredBy_iff {f : EngineFamily} {declaration : String} :
    f.isDeclaredBy declaration = true ↔ calledName declaration = f.name.toList := by
  unfold isDeclaredBy calledName
  constructor
  · intro h
    split at h
    · cases h
    · rename_i rest e
      rw [← List.isPrefixOf?_eq_some_iff_append_eq.mp e,
        List.takeWhile_append_of_pos f.name_endless]
      cases rest with
      | nil => simp
      | cons c rest =>
        have hc : endsName c = true := h
        rw [List.takeWhile_cons_of_neg (by simp [hc]), List.append_nil]
  · intro h
    have e : f.name.toList ++ declaration.toList.dropWhile (!endsName ·) = declaration.toList := by
      rw [← h, List.takeWhile_append_dropWhile]
    rw [List.isPrefixOf?_eq_some_iff_append_eq.mpr e]
    change (declaration.toList.dropWhile (!endsName ·)).head?.all endsName = true
    have := List.head?_dropWhile_not (!endsName ·) declaration.toList
    cases hhead : (declaration.toList.dropWhile (!endsName ·)).head? with
    | none => rfl
    | some c => simpa [hhead] using this

/-- **A declaration names one family**: the one whose name is its text up to the first parenthesis
or blank. The order in which the names are tried makes no difference. -/
theorem find?_isDeclaredBy_eq_some_iff {dispatch : List EngineFamily} (hall : ∀ g, g ∈ dispatch)
    {f : EngineFamily} {declaration : String} :
    dispatch.find? (·.isDeclaredBy declaration) = some f ↔
      calledName declaration = f.name.toList := by
  rw [← isDeclaredBy_iff]
  constructor
  · exact fun h => by simpa using List.find?_some h
  · intro h
    cases hfind : dispatch.find? (·.isDeclaredBy declaration) with
    | none => exact absurd h (List.find?_eq_none.mp hfind f (hall f))
    | some g =>
      have hg : g.isDeclaredBy declaration = true := by simpa using List.find?_some hfind
      refine congrArg some (name_injective (String.toList_inj.mp ?_))
      rw [← isDeclaredBy_iff.mp hg, isDeclaredBy_iff.mp h]

theorem ofDeclaration?_eq_some_iff {f : EngineFamily} {declaration : String} :
    ofDeclaration? declaration = some f ↔ calledName declaration = f.name.toList :=
  find?_isDeclaredBy_eq_some_iff mem_all

theorem family_of_build? {f : EngineFamily} {given : List String} {e : Engine}
    (h : f.build? given = some e) : e.family = f := by
  unfold build? at h
  split at h <;> cases h <;> rfl

theorem argumentsIn_of_ne_nil {f : EngineFamily} {declaration : String} (text : String)
    (h : f = .kafka → arguments declaration ≠ []) :
    f.argumentsIn declaration text = arguments declaration := by
  unfold argumentsIn
  split
  · rename_i hnil
    exact absurd hnil (h rfl)
  · rfl

end EngineFamily

/-! ## Rendered engines -/

namespace Engine

variable {e : Engine}

theorem toList_render (e : Engine) : e.render.toList =
    e.family.name.toList ++
      '(' :: ([',', ' '].intercalate (e.writtenArguments.map String.toList) ++ [')']) := by
  rw [render, String.toList_append, String.toList_append, String.toList_append,
    String.toList_intercalate, List.append_assoc, List.append_assoc]
  rfl

theorem isArgument_quoteLiteral (s : String) : IsArgument (quoteLiteral s).toList := by
  rw [quoteLiteral, String.toList_ofList]
  exact isArgument_quote _

theorem isArgument_optionalArgument {argument : Option String} (h : IsOptionalArgument argument) :
    ∀ a ∈ optionalArgument argument, IsArgument a.toList := by
  intro a ha
  cases argument with
  | none => cases ha
  | some s =>
    obtain rfl := List.mem_singleton.mp ha
    by_cases hs : a = ""
    · exact hs ▸ isArgument_nil
    · exact (h a rfl hs).argument

theorem isArgument_writtenArguments (he : e.WellFormed) :
    ∀ a ∈ e.writtenArguments, IsArgument a.toList := by
  have hquote := isArgument_quoteLiteral
  cases e with
  | mergeTree | aggregatingMergeTree | log => simp [writtenArguments]
  | replicatedMergeTree | replicatedAggregatingMergeTree | kafka =>
    simp [writtenArguments, hquote]
  | replacingMergeTree versionColumn => exact isArgument_optionalArgument he
  | replicatedReplacingMergeTree zooPath replicaName versionColumn =>
    simpa [writtenArguments, hquote] using isArgument_optionalArgument he
  | summingMergeTree sumColumns =>
    cases sumColumns with
    | nil => simp [writtenArguments]
    | cons c columns =>
      intro a ha
      obtain rfl : a = columnTuple (c :: columns) := List.mem_singleton.mp ha
      exact isArgument_columnTuple fun c hc => (he c hc).2
  | collapsingMergeTree signColumn => simpa [writtenArguments] using he.argument
  | replicatedCollapsingMergeTree zooPath replicaName signColumn =>
    simpa [writtenArguments, hquote] using he.argument
  | distributed clusterName remoteDatabase remoteTable shardingKey =>
    simpa [writtenArguments, hquote] using isArgument_optionalArgument he

/-- The arguments that are read from written ones: one empty argument at the end is none. -/
def readArguments (written : List String) : List String :=
  (if written.getLast? = some "" then written.dropLast else written).map argumentValue

theorem arguments_render (he : e.WellFormed) :
    arguments e.render = readArguments e.writtenArguments := by
  have hpieces : argumentPieces ([',', ' '].intercalate (e.writtenArguments.map String.toList)) =
      (if e.writtenArguments.getLast? = some "" then e.writtenArguments.dropLast
        else e.writtenArguments).map String.toList := by
    rw [argumentPieces_join]
    · rw [List.getLast?_map]
      have hlast : e.writtenArguments.getLast?.map String.toList = some [] ↔
          e.writtenArguments.getLast? = some "" := by
        cases e.writtenArguments.getLast? <;> simp
      by_cases h : e.writtenArguments.getLast? = some ""
      · rw [if_pos h, if_pos (hlast.mpr h), List.map_dropLast]
      · rw [if_neg h, if_neg (mt hlast.mp h)]
    · intro p hp
      obtain ⟨a, ha, rfl⟩ := List.mem_map.mp hp
      exact isArgument_writtenArguments he a ha
  have hname : '(' ∉ e.family.name.toList := fun h => (e.family.name_plain _ h).2.2.1 rfl
  rw [arguments, toList_render, parenthesized?_append hname]
  simp only [hpieces, List.map_map]
  rfl

theorem readArguments_append_optional {argument : Option String} {quoted : List String}
    (h : IsOptionalArgument argument) (hquoted : quoted.getLast? ≠ some "") :
    readArguments (quoted ++ optionalArgument argument) =
      quoted.map argumentValue ++ optionalArgument (argument.bind stated?) := by
  cases argument with
  | none => simp [readArguments, optionalArgument, hquoted]
  | some s =>
    by_cases hs : s = ""
    · subst hs
      simp [readArguments, optionalArgument]
    · simp [readArguments, optionalArgument, hs, stated?_of_ne hs, (h s rfl hs).value]

theorem build?_readArguments (he : e.WellFormed) :
    e.family.build? (readArguments e.writtenArguments) = some e.readBack := by
  have hquote := quoteLiteral_ne_empty
  cases e with
  | mergeTree | aggregatingMergeTree | log => rfl
  | replicatedMergeTree | replicatedAggregatingMergeTree =>
    simp [writtenArguments, readArguments, hquote, family, EngineFamily.build?, readBack]
  | replacingMergeTree versionColumn =>
    have hread := readArguments_append_optional he (by simp : ([] : List String).getLast? ≠ _)
    rw [List.nil_append, List.map_nil, List.nil_append] at hread
    rw [writtenArguments, hread]
    cases h : versionColumn.bind stated? <;>
      simp [optionalArgument, family, EngineFamily.build?, readBack, h]
  | replicatedReplacingMergeTree zooPath replicaName versionColumn =>
    rw [writtenArguments, readArguments_append_optional he (by simp [hquote])]
    simp only [List.map_cons, argumentValue_quoteLiteral, List.map_nil]
    cases h : versionColumn.bind stated? <;>
      simp [optionalArgument, family, EngineFamily.build?, readBack, h]
  | summingMergeTree sumColumns =>
    cases sumColumns with
    | nil => rfl
    | cons c columns =>
      have hne : columnTuple (c :: columns) ≠ "" := fun h => by
        have := congrArg String.toList h
        rw [toList_columnTuple] at this
        cases this
      change EngineFamily.build? .summingMergeTree (readArguments [columnTuple (c :: columns)]) = _
      rw [readArguments, List.getLast?_singleton, if_neg (by simpa using hne), List.map_singleton]
      change some (Engine.summingMergeTree (columnList (argumentValue _))) = _
      rw [argumentValue_columnTuple, columnList_columnTuple fun c hc => (he c hc).1]
      rfl
  | collapsingMergeTree signColumn =>
    simp [writtenArguments, readArguments, he.nonempty, he.value, family, EngineFamily.build?,
      readBack]
  | replicatedCollapsingMergeTree zooPath replicaName signColumn =>
    simp [writtenArguments, readArguments, he.nonempty, he.value, family, EngineFamily.build?,
      readBack]
  | distributed clusterName remoteDatabase remoteTable shardingKey =>
    rw [writtenArguments, readArguments_append_optional he (by simp [hquote])]
    simp only [List.map_cons, argumentValue_quoteLiteral, List.map_nil]
    cases h : shardingKey.bind stated? <;>
      simp [optionalArgument, family, EngineFamily.build?, readBack, h]
  | kafka brokerList topic consumerGroup format =>
    have hbrokers := commaList_join he
    simp [writtenArguments, readArguments, hquote, family, EngineFamily.build?, readBack, hbrokers]

theorem ofDeclaration?_render (e : Engine) :
    EngineFamily.ofDeclaration? e.render = some e.family := by
  rw [EngineFamily.ofDeclaration?_eq_some_iff, EngineFamily.calledName, toList_render,
    List.takeWhile_append_of_pos e.family.name_endless,
    List.takeWhile_cons_of_neg (by simp [EngineFamily.endsName]), List.append_nil]

theorem balanced_arguments (he : e.WellFormed) :
    Balanced ([',', ' '].intercalate (e.writtenArguments.map String.toList)) := by
  refine .intercalate (by decide) fun cs hcs => ?_
  obtain ⟨a, ha, rfl⟩ := List.mem_map.mp hcs
  exact (isArgument_writtenArguments he a ha).balanced

/-- No clause starts inside a rendered engine. -/
theorem passes_render (he : e.WellFormed) (word rest : List Char) :
    Passes word rest .start none e.render.toList := by
  have hname : Balanced e.family.name.toList :=
    .of_plain fun c hc => (e.family.name_plain c hc).2
  rw [toList_render, passes_append, hname.run_start]
  exact ⟨passes_of_blankless (fun c hc => (e.family.name_plain c hc).1) rfl,
    passes_parenthesized (balanced_arguments he)⟩

theorem run_render (he : e.WellFormed) : ScanState.start.run e.render.toList = .start := by
  have hname : Balanced e.family.name.toList :=
    .of_plain fun c hc => (e.family.name_plain c hc).2
  rw [toList_render]
  exact (hname.append (balanced_arguments he).parenthesized).run_start

theorem trim_render (e : Engine) : trim e.render.toList = e.render.toList := by
  rw [trim_eq_self_iff, toList_render]
  refine ⟨fun c hc => ?_, fun c hc => ?_⟩
  · obtain ⟨d, tail, hd⟩ := List.exists_cons_of_ne_nil e.family.name_ne_nil
    rw [hd, List.cons_append, List.head?_cons, Option.mem_some_iff] at hc
    exact hc ▸ (e.family.name_plain d (hd ▸ List.mem_cons_self)).1
  · rw [← List.cons_append, ← List.append_assoc, List.getLast?_concat, Option.mem_some_iff] at hc
    exact hc ▸ by decide

theorem declaration_render_append (he : e.WellFormed) {tail : String}
    (ht : ClauseTail tail.toList) : declaration (e.render ++ tail) = e.render := by
  rw [declaration, declarationChars, String.toList_append,
    trim_take_clausesStart ht (run_render he) fun k => passes_render he _ _, trim_render,
    String.ofList_toList]

theorem render_ne_empty (e : Engine) : e.render ≠ "" := fun h => by
  have := congrArg String.toList h
  rw [toList_render] at this
  exact absurd (List.append_eq_nil_iff.mp this).2 (by simp)

theorem readArguments_kafka {written : Engine} (h : written.family = .kafka) :
    readArguments written.writtenArguments ≠ [] := by
  cases written <;> simp [family] at h
  simp [writtenArguments, readArguments, quoteLiteral_ne_empty]

/-- What is read is built from the arguments of a declaration that names its family. -/
theorem parse_eq_ok_iff {engine text : String} : parse engine text = .ok e ↔
    EngineFamily.ofDeclaration? (declarationIn engine text) = some e.family ∧
      e.family.build? (e.family.argumentsIn (declarationIn engine text) text) = some e := by
  unfold parse
  constructor
  · intro h
    dsimp only at h
    split at h
    · cases h
    · rename_i f hf
      split at h
      · rename_i e' hbuild
        obtain rfl : e' = e := by simpa using h
        have hfamily := EngineFamily.family_of_build? hbuild
        rw [hfamily]
        exact ⟨hf, hbuild⟩
      · cases h
  · rintro ⟨hf, hbuild⟩
    simp only [hf, hbuild]

theorem parse_of_declaration (he : e.WellFormed) (engine : String) {text : String}
    (h : declaration text = e.render) : parse engine text = .ok e.readBack := by
  have hdeclaration : declarationIn engine text = e.render := by
    rw [declarationIn, h, if_neg (by simpa [String.isEmpty_iff] using e.render_ne_empty)]
  have harguments : e.family.argumentsIn e.render text = readArguments e.writtenArguments := by
    rw [← arguments_render he]
    refine EngineFamily.argumentsIn_of_ne_nil text fun hk => ?_
    rw [arguments_render he]
    exact readArguments_kafka hk
  unfold parse
  simp only [hdeclaration, ofDeclaration?_render, harguments, build?_readArguments he]

/-- **A rendered engine is read back**, whatever clauses follow it. -/
theorem parse_render_append (engine : String) (he : e.WellFormed) {tail : String}
    (ht : ClauseTail tail.toList) : parse engine (e.render ++ tail) = .ok e.readBack :=
  parse_of_declaration he engine (declaration_render_append he ht)

/-- Quotes, commas, parentheses and keywords inside literals, and a bare expression. -/
theorem parse_render_append_distributed :
    let e := distributed "it's" "a, (b ORDER BY c" "\\" (some "cityHash64(a, 'x,)')")
    e.WellFormed ∧ ClauseTail "\n ORDER BY id".toList ∧
      parse "Distributed" (e.render ++ "\n ORDER BY id") = .ok e := by
  intro e
  have he : e.WellFormed := by decide
  have ht : ClauseTail "\n ORDER BY id".toList :=
    .clause ['\n', ' '] .orderBy " id".toList (by simp) (List.all_eq_true.mp (by decide))
      (by decide)
  exact ⟨he, ht, parse_render_append "Distributed" he ht⟩

end Engine

end SchemaPlan
