import SchemaPlan.Proofs.ArgumentLists
import SchemaPlan.Proofs.EngineRoundTrip
import SchemaPlan.Proofs.Ink

/-!
# Bare arguments read again

Reading a declaration takes the quotes off every argument, rendering puts them back on some. An
argument that is rendered bare comes back as it was only if it could have been written bare in the
first place.

* `StandsApart`: the texts that stand for themselves as the last argument of a declaration.
* `argumentValues_eq_singleton_iff`: an argument list is its only argument.
* `exists_cut`: a clause inside the list cuts the declaration off, and what is left of the list has
  less ink than the argument.
* **`Engine.parse_render_iff`**: an engine that was read is read again from its rendered form
  exactly when its bare argument stands apart.
-/

namespace SchemaPlan

open Sql

/-- A text that stands for itself as the last argument of a declaration. -/
structure StandsApart (s : String) : Prop where
  nonempty : s ≠ ""
  itself : unquote s.toList = s.toList
  commaless : ',' ∉ exposed .start s.toList
  /-- No clause starts in the text or after it, read inside one parenthesis that is closed behind
  it. -/
  clauseless : ∀ k : Clause,
    findWordFrom? k.keyword.toList ⟨.code, 1⟩ none (s.toList ++ [')']) = none

instance (s : String) : Decidable (StandsApart s) :=
  decidable_of_iff (s ≠ "" ∧ unquote s.toList = s.toList ∧ ',' ∉ exposed .start s.toList ∧
      ∀ k ∈ Clause.all,
        findWordFrom? k.keyword.toList ⟨.code, 1⟩ none (s.toList ++ [')']) = none)
    ⟨fun ⟨hne, hself, hcomma, hclause⟩ => ⟨hne, hself, hcomma, fun k => hclause k k.mem_all⟩,
      fun h => ⟨h.nonempty, h.itself, h.commaless, fun k _ => h.clauseless k⟩⟩

namespace Sql

variable {cs : List Char}

/-! ## A list of one argument -/

theorem ink_argumentValues_le (cs : List Char) :
    ((argumentValues cs).map fun a => ink a.toList).sum + (exposed .start cs).count ',' ≤
      ink cs := by
  have hpieces := ink_splitPieces cs
  rw [splitPieces, List.length_map, pieces, length_piecesFrom, ← pieces, ← splitPieces] at hpieces
  have hsub : (argumentPieces cs).Sublist (splitPieces cs) := by
    rw [argumentPieces_eq]
    split
    · exact List.dropLast_sublist _
    · exact List.Sublist.refl _
  have hle : ((argumentPieces cs).map ink).sum ≤ ((splitPieces cs).map ink).sum :=
    (hsub.map ink).sum_le_sum fun _ _ => Nat.zero_le _
  have hvalues : ((argumentValues cs).map fun a => ink a.toList).sum ≤
      ((argumentPieces cs).map ink).sum := by
    rw [argumentValues, List.map_map]
    refine List.sum_le_sum fun piece _ => ?_
    rw [Function.comp_apply, String.toList_ofList]
    exact ink_unquote_le piece
  omega

theorem unquote_trim (cs : List Char) : unquote (trim cs) = unquote cs := by
  rw [unquote, trim_trim, unquote]

theorem argumentValues_of_commaless (h : ',' ∉ exposed .start cs) (hne : trim cs ≠ []) :
    argumentValues cs = [String.ofList (unquote cs)] := by
  have hsplit : splitPieces cs = [trim cs] := by
    rw [splitPieces, pieces, piecesFrom_of_commaless h, List.map_singleton]
  rw [argumentValues, argumentPieces_eq, hsplit, List.getLast?_singleton,
    if_neg (by simpa using hne), List.map_singleton, unquote_trim]

theorem argumentValues_eq_singleton_iff {s : String} : argumentValues s.toList = [s] ↔
    s ≠ "" ∧ unquote s.toList = s.toList ∧ ',' ∉ exposed .start s.toList := by
  constructor
  · intro h
    have hcomma : ',' ∉ exposed .start s.toList := by
      have hink := ink_argumentValues_le s.toList
      rw [h, List.map_singleton, List.sum_singleton] at hink
      exact List.count_eq_zero.mp (by omega)
    have hne : trim s.toList ≠ [] := by
      intro hblank
      rw [argumentValues, argumentPieces, hblank] at h
      cases h
    rw [argumentValues_of_commaless hcomma hne, List.singleton_inj] at h
    refine ⟨?_, ?_, hcomma⟩
    · rintro rfl
      exact hne rfl
    · conv_rhs => rw [← h, String.toList_ofList]
  · rintro ⟨hne, hself, hcomma⟩
    have hblank : trim s.toList ≠ [] := by
      rw [trim_of_unquote hself]
      exact toList_ne_nil hne
    rw [argumentValues_of_commaless hcomma hblank, hself, String.ofList_toList]

theorem length_argumentValues_close (cs : List Char) : (argumentValues (cs ++ [')'])).length =
    (exposed .start (cs ++ [')'])).count ',' + 1 := by
  have hclose : ',' ∉ exposed (ScanState.start.run cs) [')'] := fun hmem =>
    absurd ((exposed_sublist _ _).subset hmem) (by decide)
  obtain ⟨init, last, -, hpieces⟩ := piecesFrom_append_right hclose
  have hlast : trim (last ++ [')']) ≠ [] := fun hblank =>
    absurd (trim_eq_nil_iff.mp hblank ')' (by simp)) (by decide)
  have hsplit : argumentPieces (cs ++ [')']) = splitPieces (cs ++ [')']) := by
    rw [argumentPieces_eq, if_neg]
    rw [splitPieces, pieces, hpieces, List.map_append, List.map_singleton, List.getLast?_concat,
      Option.some_inj]
    exact hlast
  rw [argumentValues, List.length_map, hsplit, splitPieces, List.length_map, pieces,
    length_piecesFrom]

/-! ## Literals before the last argument -/

/-- Literals, each followed by a comma and a blank. -/
def literalsText (texts : List String) : List Char :=
  texts.flatMap fun text => quote text.toList ++ [',', ' ']

theorem balanced_literalsText (texts : List String) : Balanced (literalsText texts) := by
  induction texts with
  | nil => exact .nil
  | cons text texts ih => exact ((balanced_quote _).append (by decide)).append ih

theorem argumentValues_literals_append (texts : List String) (rest : List Char) :
    argumentValues (literalsText texts ++ rest) = texts ++ argumentValues rest := by
  induction texts with
  | nil => rfl
  | cons text texts ih =>
    have hblank : argumentValues (' ' :: (literalsText texts ++ rest)) =
        argumentValues (literalsText texts ++ rest) := by
      rw [argumentValues, argumentPieces_eq, splitPieces_cons_blank (by decide),
        ← argumentPieces_eq, argumentValues]
    have hlist : literalsText (text :: texts) ++ rest =
        quote text.toList ++ ',' :: ' ' :: (literalsText texts ++ rest) := by
      simp [literalsText]
    rw [hlist, argumentValues_quote_append, String.ofList_toList, hblank, ih, List.cons_append]

theorem intercalate_literals (texts : List String) (last : List Char) :
    [',', ' '].intercalate (texts.map (quote ·.toList) ++ [last]) = literalsText texts ++ last := by
  induction texts with
  | nil => simp [literalsText]
  | cons text texts ih =>
    obtain ⟨p, ps, hrest⟩ := List.exists_cons_of_ne_nil
      (List.append_ne_nil_of_right_ne_nil (texts.map (quote ·.toList)) (List.cons_ne_nil last []))
    rw [List.map_cons, List.cons_append, hrest, List.intercalate_cons_cons, ← hrest, ih]
    simp [literalsText]

/-! ## Clauses inside a list -/

/-- Only a `)` closes a parenthesis. -/
theorem depth_le_run (h : ')' ∉ cs) (s : ScanState) : s.depth ≤ (s.run cs).depth := by
  induction cs generalizing s with
  | nil => exact le_rfl
  | cons c cs ih =>
    rw [List.mem_cons, not_or] at h
    refine le_trans ?_ (ih h.2 (s.step c))
    rw [ScanState.step]
    repeat' split
    all_goals first
      | exact le_rfl
      | exact Nat.le_succ _
      | exact absurd (Eq.symm ‹c = ')'›) h.1

/-- A clause that starts in a list comes after a `)` that closes the list. What stands before the
`)` has less ink than the list. -/
theorem exists_cut {k : Clause} {n : Nat}
    (h : findWordFrom? k.keyword.toList ⟨.code, 1⟩ none (cs ++ [')']) = some n) :
    ∃ inner after, (cs ++ [')']).take n = inner ++ ')' :: after ∧ ')' ∉ after ∧
      ink inner + 3 ≤ ink cs := by
  obtain ⟨c, rest, hdrop, hexposes, -, hword⟩ := findWordFrom?_eq_some h
  have hclose : ')' ∈ (cs ++ [')']).take n := by
    by_contra hmem
    have hdepth := depth_le_run hmem ⟨.code, 1⟩
    rw [(ScanState.exposes_iff.mp hexposes).1] at hdepth
    exact absurd hdepth (by decide)
  obtain ⟨inner, hinner⟩ := Option.ne_none_iff_exists'.mp
    (mt upToLast?_eq_none_iff.mp (not_not.mpr hclose))
  obtain ⟨after, htake, hafter⟩ := upToLast?_eq_some_iff.mp hinner
  refine ⟨inner, after, htake, hafter, ?_⟩
  obtain ⟨tail, htail, _⟩ := startsWithWord_iff.mp hword
  have hwhole : ink cs + 1 = ink ((cs ++ [')']).take n) + ink ((cs ++ [')']).drop n) := by
    rw [← ink_append, List.take_append_drop, ink_append]
    rfl
  have hkeyword := ink_keyword k
  rw [htake, hdrop, ← htail, ink_append, ink_append, ink_cons (by decide)] at hwhole
  omega

end Sql

/-! ## Sum columns -/

theorem ink_columnList_le (text : String) :
    ink ([',', ' '].intercalate ((columnList text).map String.toList)) ≤ ink text.toList := by
  rw [← ink_trim text.toList, columnList]
  split
  · rename_i inner h
    exact (ink_commaList_le inner).trans (ink_le_of_sublist (between?_sublist h))
  · exact ink_commaList_le _

theorem ink_columnTuple (columns : List String) : ink (columnTuple columns).toList =
    ink ([',', ' '].intercalate (columns.map String.toList)) + 2 := by
  rw [toList_columnTuple, ink_cons (by decide), ink_append]
  rfl

theorem isListItem_of_mem_columnList {text column : String} (h : column ∈ columnList text) :
    IsListItem column := by
  unfold columnList at h
  split at h <;> exact isListItem_of_mem_commaList h

theorem argumentValues_columnTuple {columns : List String} {v : String}
    (h : argumentValues (columnTuple columns).toList = [v]) : v = columnTuple columns := by
  have hcomma : ',' ∉ exposed .start (columnTuple columns).toList := by
    have hlength := congrArg List.length h
    rw [toList_columnTuple, ← List.cons_append, length_argumentValues_close] at hlength
    rw [toList_columnTuple, ← List.cons_append]
    exact List.count_eq_zero.mp (by simpa using hlength)
  have htrim : trim (columnTuple columns).toList ≠ [] := by
    rw [toList_columnTuple, trim_parenthesized]
    exact List.cons_ne_nil _ _
  rw [argumentValues_of_commaless hcomma htrim, List.singleton_inj] at h
  rw [← h]
  exact argumentValue_columnTuple columns

/-! ## The parts of a rendered engine -/

namespace Engine

/-- The arguments that are rendered as literals; they come first. -/
def quotedArguments : Engine → List String
  | replicatedMergeTree zooPath replicaName => [zooPath, replicaName]
  | replicatedAggregatingMergeTree zooPath replicaName => [zooPath, replicaName]
  | replicatedReplacingMergeTree zooPath replicaName _ => [zooPath, replicaName]
  | replicatedCollapsingMergeTree zooPath replicaName _ => [zooPath, replicaName]
  | distributed clusterName remoteDatabase remoteTable _ =>
    [clusterName, remoteDatabase, remoteTable]
  | kafka brokerList topic consumerGroup format =>
    [",".intercalate brokerList, topic, consumerGroup, format]
  | _ => []

/-- The argument that is rendered as it is: a version or sign column, a sharding key, or the sum
columns in their parentheses. -/
def bareArgument? : Engine → Option String
  | replacingMergeTree versionColumn => versionColumn
  | replicatedReplacingMergeTree _ _ versionColumn => versionColumn
  | summingMergeTree [] => none
  | summingMergeTree (column :: columns) => some (columnTuple (column :: columns))
  | collapsingMergeTree signColumn => some signColumn
  | replicatedCollapsingMergeTree _ _ signColumn => some signColumn
  | distributed _ _ _ shardingKey => shardingKey
  | _ => none

theorem writtenArguments_eq (e : Engine) : e.writtenArguments =
    e.quotedArguments.map quoteLiteral ++ optionalArgument e.bareArgument? := by
  cases e with
  | summingMergeTree columns => cases columns <;> rfl
  | _ => rfl

/-- A rendered engine up to its bare argument. -/
def opening (e : Engine) : List Char :=
  e.family.name.toList ++ '(' :: literalsText e.quotedArguments

variable {e : Engine} {a : String}

theorem toList_render_of_bare (h : e.bareArgument? = some a) :
    e.render.toList = e.opening ++ (a.toList ++ [')']) := by
  have hquoted : (e.quotedArguments.map quoteLiteral).map String.toList =
      e.quotedArguments.map (quote ·.toList) := by
    rw [List.map_map]
    exact List.map_congr_left fun text _ => String.toList_ofList
  rw [toList_render, writtenArguments_eq, h, optionalArgument, List.map_append, hquoted,
    List.map_singleton, intercalate_literals, opening]
  simp

theorem run_opening (e : Engine) : ScanState.start.run e.opening = ⟨.code, 1⟩ := by
  have hname : Balanced e.family.name.toList :=
    .of_plain fun c hc => (e.family.name_plain c hc).2
  rw [opening, ScanState.run_append, hname.run_start]
  exact balanced_literalsText _ 1

theorem passes_opening (e : Engine) (word rest : List Char) :
    Passes word rest .start none e.opening := by
  rw [opening, passes_append]
  refine ⟨passes_of_blankless (fun c hc => (e.family.name_plain c hc).1) rfl, ?_⟩
  rw [Balanced.run_start (.of_plain fun c hc => (e.family.name_plain c hc).2)]
  exact passes_of_unexposed ((balanced_literalsText _).exposed_deeper 0)

theorem findKeyword?_opening_append (e : Engine) (k : Clause) (rest : List Char) :
    findKeyword? k (e.opening ++ rest) =
      (findWordFrom? k.keyword.toList ⟨.code, 1⟩ none rest).map (· + e.opening.length) := by
  rw [findKeyword?, findWordFrom?_of_passes (e.passes_opening _ _), run_opening,
    findWordFrom?_of_ne_start (by decide) _ none]

/-- The declaration in a rendered engine is all of it, unless a clause starts in its bare
argument. -/
theorem declarationChars_render (h : e.bareArgument? = some a) :
    ∃ inner after, declarationChars e.render.toList = trim (e.opening ++ (inner ++ ')' :: after)) ∧
      ')' ∉ after ∧
      (inner = a.toList ∧ (∀ k : Clause,
          findWordFrom? k.keyword.toList ⟨.code, 1⟩ none (a.toList ++ [')']) = none) ∨
        ink inner + 3 ≤ ink a.toList ∧ ∃ k : Clause,
          findWordFrom? k.keyword.toList ⟨.code, 1⟩ none (a.toList ++ [')']) ≠ none) := by
  rw [declarationChars, toList_render_of_bare h]
  obtain ⟨hnone, hstart⟩ | ⟨k, hk⟩ := clausesStart_eq (e.opening ++ (a.toList ++ [')']))
  · refine ⟨a.toList, [], by rw [hstart, List.take_length], by simp, .inl ⟨rfl, fun k => ?_⟩⟩
    simpa [findKeyword?_opening_append] using hnone k
  · rw [findKeyword?_opening_append] at hk
    obtain ⟨n, hn, hstart⟩ := Option.map_eq_some_iff.mp hk
    obtain ⟨inner, after, htake, hafter, hink⟩ := exists_cut hn
    refine ⟨inner, after, ?_, hafter, .inr ⟨hink, k, by simp [hn]⟩⟩
    rw [← hstart, Nat.add_comm, List.take_length_add_append, htake]

/-- The family of a rendered engine stays, wherever the declaration is cut off. -/
theorem ofDeclaration?_opening_append (e : Engine) (rest : List Char) :
    EngineFamily.ofDeclaration? (String.ofList (trim (e.opening ++ rest))) = some e.family := by
  have hblank : ∀ c ∈ e.family.name.toList ++ ['('], isBlank c = false := by
    intro c hc
    rcases List.mem_append.mp hc with hc | hc
    · exact (e.family.name_plain c hc).1
    · rw [List.mem_singleton.mp hc]
      decide
  have hopening : e.opening ++ rest =
      (e.family.name.toList ++ ['(']) ++ (literalsText e.quotedArguments ++ rest) := by
    simp [opening]
  obtain ⟨tail, htail⟩ := prefix_trim hblank (literalsText e.quotedArguments ++ rest)
  rw [EngineFamily.ofDeclaration?_eq_some_iff, EngineFamily.calledName, String.toList_ofList,
    hopening, ← htail, List.append_assoc, List.takeWhile_append_of_pos e.family.name_endless,
    List.singleton_append, List.takeWhile_cons_of_neg (by simp [EngineFamily.endsName]),
    List.append_nil]

theorem arguments_opening_append (e : Engine) (inner : List Char) {after : List Char}
    (h : ')' ∉ after) :
    arguments (String.ofList (trim (e.opening ++ (inner ++ ')' :: after)))) =
      e.quotedArguments ++ argumentValues inner := by
  have hlist : parenthesized? (e.opening ++ (inner ++ ')' :: after)) =
      some (literalsText e.quotedArguments ++ inner) := by
    refine parenthesized?_eq_some_iff.mpr ⟨e.family.name.toList, after, by simp [opening],
      fun hmem => (e.family.name_plain _ hmem).2.2.1 rfl, h⟩
  rw [arguments_of_parenthesized, argumentValues_literals_append]
  rw [String.toList_ofList, parenthesized?_trim, hlist]

/-! ## Reading again -/

/-- The lists of an engine consist of what a list can be cut into. -/
def ListsItems : Engine → Prop
  | summingMergeTree sumColumns => ∀ c ∈ sumColumns, IsListItem c
  | kafka brokerList _ _ _ => ∀ b ∈ brokerList, IsListItem b
  | _ => True

theorem listsItems_of_build? {f : EngineFamily} {given : List String}
    (h : f.build? given = some e) : e.ListsItems := by
  unfold EngineFamily.build? at h
  split at h <;> cases h <;> try exact trivial
  · exact List.forall_mem_nil _
  · exact fun c hc => isListItem_of_mem_columnList hc
  · exact fun b hb => isListItem_of_mem_commaList hb

/-- An engine is built again from its quoted arguments and its bare one; the sum columns may have
lost their parentheses. -/
theorem build?_quoted_append (he : e.ListsItems) (h : e.bareArgument? = some a)
    (given : List String) : e.family.build? (e.quotedArguments ++ given) = some e ↔
      given = [a] ∨ ∃ columns v, e = .summingMergeTree columns ∧ given = [v] ∧
        columnList v = columns := by
  cases e with
  | mergeTree | replicatedMergeTree | aggregatingMergeTree | replicatedAggregatingMergeTree | log
  | kafka => cases h
  | summingMergeTree columns =>
    obtain ⟨column, columns, rfl⟩ : ∃ column rest, columns = column :: rest :=
      List.exists_cons_of_ne_nil fun hnil => by subst hnil; cases h
    obtain rfl := Option.some.inj h
    have hread : columnList (columnTuple (column :: columns)) = column :: columns :=
      columnList_columnTuple he
    rcases given with _ | ⟨v, _ | ⟨w, rest⟩⟩
    · simp [quotedArguments, family, EngineFamily.build?]
    · simp only [quotedArguments, family, EngineFamily.build?, List.nil_append, Option.some.injEq,
        summingMergeTree.injEq, List.cons.injEq, and_true]
      constructor
      · exact fun hv => .inr ⟨_, v, rfl, rfl, hv⟩
      · rintro (rfl | ⟨_, _, rfl, rfl, hv⟩)
        · exact hread
        · exact hv
    · simp [quotedArguments, family, EngineFamily.build?]
  | replacingMergeTree | replicatedReplacingMergeTree | collapsingMergeTree
  | replicatedCollapsingMergeTree | distributed =>
    rcases given with _ | ⟨v, _ | ⟨w, rest⟩⟩ <;>
      simp_all [quotedArguments, family, bareArgument?, EngineFamily.build?]

theorem parse_render_of_bareless (he : e.ListsItems) (h : e.bareArgument? = none)
    (engine : String) : parse engine e.render = .ok e := by
  have hformed : e.WellFormed ∧ e.readBack = e := by
    cases e with
    | summingMergeTree columns =>
      cases columns with
      | nil => exact ⟨List.forall_mem_nil _, rfl⟩
      | cons column columns => cases h
    | replacingMergeTree | replicatedReplacingMergeTree | distributed =>
      simp_all [WellFormed, IsOptionalArgument, readBack, bareArgument?]
    | collapsingMergeTree | replicatedCollapsingMergeTree => cases h
    | kafka => exact ⟨he, rfl⟩
    | _ => exact ⟨trivial, rfl⟩
  have hdeclaration : declaration e.render = e.render := by
    have happend : declaration (e.render ++ "") = e.render :=
      declaration_render_append hformed.1 .nil
    rwa [String.append_empty] at happend
  rw [parse_of_declaration hformed.1 engine hdeclaration, hformed.2]

theorem parse_iff_of_opening (h : e.bareArgument? = some a) {text : String}
    {inner after : List Char}
    (htext : declarationChars text.toList = trim (e.opening ++ (inner ++ ')' :: after)))
    (hafter : ')' ∉ after) (engine : String) : parse engine text = .ok e ↔
      e.family.build? (e.quotedArguments ++ argumentValues inner) = some e := by
  have hfamily := e.ofDeclaration?_opening_append (inner ++ ')' :: after)
  have harguments := e.arguments_opening_append inner hafter
  rw [← htext, ← declaration] at hfamily harguments
  have hdeclaration : declarationIn engine text = declaration text := by
    refine if_neg fun hempty => ?_
    have hnone : EngineFamily.ofDeclaration? "" = none := by decide
    rw [String.isEmpty_iff.mp hempty, hnone] at hfamily
    cases hfamily
  have hkafka : e.family ≠ .kafka := by
    cases e <;> simp_all [family, bareArgument?]
  rw [parse_eq_ok_iff, hdeclaration, hfamily,
    EngineFamily.argumentsIn_of_ne_nil text fun hk => absurd hk hkafka, harguments]
  exact and_iff_right rfl

/-- **An engine that was read is read again from its rendered form exactly when its bare argument
stands apart.** -/
theorem parse_render_iff {engine text : String} (h : parse engine text = .ok e) :
    parse e.name e.render = .ok e ↔ ∀ a ∈ e.bareArgument?, StandsApart a := by
  have he := listsItems_of_build? (parse_eq_ok_iff.mp h).2
  cases hbare : e.bareArgument? with
  | none => exact iff_of_true (parse_render_of_bareless he hbare e.name) (by simp)
  | some a =>
    simp only [Option.mem_some_iff, forall_eq']
    have htuple {columns : List String} (hsum : e = .summingMergeTree columns) :
        a = columnTuple columns := by
      subst hsum
      cases columns <;> cases hbare
      rfl
    obtain ⟨inner, after, htext, hafter, hinner⟩ := declarationChars_render hbare
    rw [parse_iff_of_opening hbare htext hafter, build?_quoted_append he hbare]
    rcases hinner with ⟨rfl, hclauseless⟩ | ⟨hink, k, hclause⟩
    · -- the list is read whole
      constructor
      · rintro (hvalues | ⟨columns, v, hsum, hvalues, -⟩)
        · obtain ⟨hne, hself, hcomma⟩ := argumentValues_eq_singleton_iff.mp hvalues
          exact ⟨hne, hself, hcomma, hclauseless⟩
        · rw [htuple hsum] at hvalues ⊢
          rw [argumentValues_columnTuple hvalues] at hvalues
          obtain ⟨hne, hself, hcomma⟩ := argumentValues_eq_singleton_iff.mp hvalues
          exact ⟨hne, hself, hcomma, htuple hsum ▸ hclauseless⟩
      · exact fun ha =>
          .inl (argumentValues_eq_singleton_iff.mpr ⟨ha.nonempty, ha.itself, ha.commaless⟩)
    · -- a clause cuts the list short, and what is left of it is too little
      refine iff_of_false ?_ fun ha => hclause (ha.clauseless k)
      have hvalues := ink_argumentValues_le inner
      rintro (hgiven | ⟨columns, v, hsum, hgiven, hcolumns⟩)
      · rw [hgiven, List.map_singleton, List.sum_singleton] at hvalues
        omega
      · rw [hgiven, List.map_singleton, List.sum_singleton] at hvalues
        have hlist := ink_columnList_le v
        rw [hcolumns] at hlist
        rw [htuple hsum, ink_columnTuple] at hink
        omega

/-- A sharding key with commas and quotes of its own stands apart. -/
theorem parse_render_iff_distributed :
    let e := distributed "main" "db" "events" (some "cityHash64(id, 'x,)')")
    parse "Distributed" "Distributed('main', db, \"events\", cityHash64(id, 'x,)'))" = .ok e ∧
      parse e.name e.render = .ok e := by
  intro e
  have h : parse "Distributed"
      "Distributed('main', db, \"events\", cityHash64(id, 'x,)'))" = .ok e := by decide +kernel
  exact ⟨h, (parse_render_iff h).mpr (by decide)⟩

/-- Arguments that have to be quoted do not stand apart: an empty one is taken for none, quotes in
one are taken off again, and one with a comma is two. -/
theorem parse_render_unstable :
    (parse "ReplacingMergeTree" "ReplacingMergeTree('') ORDER BY id" =
        .ok (.replacingMergeTree (some "")) ∧
      parse "ReplacingMergeTree" (replacingMergeTree (some "")).render =
        .ok (.replacingMergeTree none)) ∧
    (parse "ReplacingMergeTree" "ReplacingMergeTree('\"ver\"') ORDER BY id" =
        .ok (.replacingMergeTree (some "\"ver\"")) ∧
      parse "ReplacingMergeTree" (replacingMergeTree (some "\"ver\"")).render =
        .ok (.replacingMergeTree (some "ver"))) ∧
    (parse "CollapsingMergeTree" "CollapsingMergeTree('a,b') ORDER BY id" =
        .ok (.collapsingMergeTree "a,b") ∧
      parse "CollapsingMergeTree" (collapsingMergeTree "a,b").render =
        .error (.malformed .collapsingMergeTree "CollapsingMergeTree(a,b)" 2)) := by
  decide +kernel

end Engine

end SchemaPlan
