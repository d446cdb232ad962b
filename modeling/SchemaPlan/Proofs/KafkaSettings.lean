import SchemaPlan.Proofs.ClauseArrangement
import SchemaPlan.Proofs.DeclarationOutcome
import SchemaPlan.Proofs.RepeatedNames

/-!
# The two forms of a Kafka declaration

The arguments of a `Kafka` engine stand in its declaration or in settings of its own. Both forms
give the same engine, and what else is set stays with the table.

* `settingsText`: a declaration with a list of settings; `settings_settingsText`: it is read back.
* `argumentsIn_of_settings`: the arguments are the values of the four settings, in their order.
* `TableRow.Yields`: introspecting a row gives a table with an engine and settings.
* `parse_settingsText`: **the form with settings agrees with the form with arguments**, and with
  fewer than four of the settings it is malformed.
-/

namespace SchemaPlan

open Sql

/-! ## Maps of pairs -/

theorem Keyed.foldl_erase_ofList {α : Type} (keys : List String) (l : List (String × α)) :
    keys.foldl Keyed.erase (.ofList l) = .ofList (l.filter (·.1 ∉ keys)) := by
  induction keys generalizing l with
  | nil => simp
  | cons key keys ih =>
    rw [List.foldl_cons, ← Keyed.ofList_filter_ne, ih, List.filter_filter]
    refine congrArg Keyed.ofList (List.filter_congr fun p _ => ?_)
    simp [Bool.and_comm]

theorem Keyed.get?_ofList_filter {α : Type} {keys : List String} {k : String} (hk : k ∈ keys)
    (l : List (String × α)) :
    (Keyed.ofList (l.filter (·.1 ∈ keys))).get? k = (Keyed.ofList l).get? k := by
  rw [Keyed.get?_ofList, Keyed.get?_ofList, ← List.filter_reverse, List.find?_filter]
  congr 2
  ext p
  simp only [decide_eq_true_eq]
  exact decide_eq_decide.mpr ⟨And.right, fun h => ⟨h ▸ hk, h⟩⟩

/-! ## Declarations with settings -/

/-- A declaration with a list of settings after it. -/
def settingsText (d before after : String) (l : List WrittenSetting) : String :=
  d ++ before ++ Clause.settings.keyword ++ after ++ String.ofList (settingList l)

section SettingsText

variable {d before after : String} {l : List WrittenSetting}

/-- A declaration with settings is read back, whatever blanks stand in it. -/
theorem settings_settingsText (hd : IsDeclaration d) (hbefore : IsGap before.toList)
    (hafter : IsGap after.toList) (hl : ∀ w ∈ l, w.WellFormed) :
    declaration (settingsText d before after l) = d ∧
      (clauses (settingsText d before after l)).settings =
        .ofList (l.map WrittenSetting.pair) := by
  let s : Segment := ⟨before.toList, .settings, after.toList ++ settingList l⟩
  have hs : ∀ r ∈ [s], r.WellFormed := by
    intro r hr
    obtain rfl := List.mem_singleton.mp hr
    refine ⟨hbefore.ne_nil, hbefore.blank, hafter.head?_all, ?_⟩
    rw [ScanState.run_append, ScanState.run_start_blanks hafter.blank,
      (balanced_settingList hl).run_start]
  have htext : (settingsText d before after l).toList = d.toList ++ clauseText [s] := by
    simp [settingsText, clauseText, Segment.text, s]
  have hfree : ∀ k, findKeyword? k s.body = none := fun k =>
    hafter.findKeyword?_append fun _ => passes_settingList hl k
  have hbody : clauseBody? .settings (settingsText d before after l).toList =
      if trim s.body = [] then none else some (trim s.body) := by
    rw [htext]
    have halone : ∀ r ∈ [] ++ s :: [], r.WellFormed := hs
    exact clauseBody?_clauseText_eq halone hd.balanced.run_start (hd.passes hs .settings)
      (by simp) hfree
  refine ⟨hd.declaration_eq hs htext, ?_⟩
  rw [clauses, hbody, trim_blanks_append hafter.blank]
  rcases eq_or_ne l [] with rfl | hne
  · rfl
  · rw [if_neg (trim_settingList_ne_nil hne)]
    exact settingsOf_settingList hl

end SettingsText

/-! ## Arguments in settings -/

namespace EngineFamily

/-- The assignments to the settings of `Kafka`, one for each that is given a value. -/
def assigned (given : String → Option String) : List (String × String) :=
  kafkaSettings.filterMap fun key => (given key).map (key, ·)

theorem mem_assigned_iff {given : String → Option String} {key value : String}
    (hkey : key ∈ kafkaSettings) : (key, value) ∈ assigned given ↔ given key = some value := by
  rw [assigned, List.mem_filterMap]
  constructor
  · rintro ⟨k, _, hk⟩
    obtain ⟨v, hv, e⟩ := Option.map_eq_some_iff.mp hk
    cases e
    exact hv
  · exact fun h => ⟨key, hkey, by rw [h]; rfl⟩

theorem assigned_keys_nodup (given : String → Option String) :
    ((assigned given).map (·.1)).Nodup := by
  rw [assigned, List.map_filterMap]
  refine List.Nodup.filterMap (fun a a' b ha ha' => ?_) (by decide)
  simp only [Option.map_map, Option.mem_def, Option.map_eq_some_iff, Function.comp_apply] at ha ha'
  obtain ⟨_, _, rfl⟩ := ha
  obtain ⟨_, _, rfl⟩ := ha'
  rfl

/-- The arguments of a `Kafka` declaration without any are the values of its settings, in the order
of the arguments and without quotes. -/
theorem argumentsIn_of_settings {d text : String} {pairs : List (String × String)}
    {given : String → Option String} (hd : arguments d = [])
    (hsettings : (clauses text).settings = .ofList pairs)
    (hgiven : (pairs.filter (·.1 ∈ kafkaSettings)).Perm (assigned given)) :
    kafka.argumentsIn d text = (kafkaSettings.filterMap given).map argumentValue := by
  have hvalue : ∀ key ∈ kafkaSettings, (clauses text).settings.get? key = given key := by
    intro key hkey
    have hnodup : ((pairs.filter (·.1 ∈ kafkaSettings)).map (·.1)).Nodup :=
      (hgiven.map _).nodup_iff.mpr (assigned_keys_nodup given)
    rw [hsettings, ← Keyed.get?_ofList_filter hkey]
    ext value
    rw [Keyed.get?_ofList_of_nodup hnodup, hgiven.mem_iff, mem_assigned_iff hkey]
  unfold argumentsIn
  simp only [hd]
  rw [List.map_filterMap]
  refine List.filterMap_congr fun key hkey => ?_
  rw [hvalue key hkey]
  rfl

theorem map_argumentValue_of_given {given : String → Option String} {args : List String}
    (h : kafkaSettings.map given = args.map (some ∘ quoteLiteral)) :
    (kafkaSettings.filterMap given).map argumentValue = args := by
  have hgiven : kafkaSettings.filterMap given = args.map quoteLiteral := by
    rw [← Function.id_comp given, ← List.filterMap_map, h, List.filterMap_map]
    exact congrFun List.filterMap_eq_map' args
  rw [hgiven, List.map_map]
  exact (List.map_congr_left fun a _ => argumentValue_quoteLiteral a).trans (List.map_id args)

theorem build?_kafka_eq_none {given : List String} (h : given.length ≠ 4) :
    kafka.build? given = none := by
  rw [← Option.not_isSome_iff_eq_none, isSome_build?, arity, Arity.accepts_exactly, beq_iff_eq]
  exact h.symm

theorem isSetting_quoteLiteral {key : String} (hkey : key ∈ kafkaSettings) (text : String) :
    IsSetting key.toList (quoteLiteral text).toList := by
  have hplain : ∀ key ∈ kafkaSettings, IsSetting key.toList [] := by decide
  have hexposed : exposed .start (quoteLiteral text).toList = [] := by
    rw [quoteLiteral, String.toList_ofList]
    exact exposed_quote _
  have hargument := Engine.isArgument_quoteLiteral text
  exact
    { key_trimmed := (hplain key hkey).key_trimmed
      value_trimmed := hargument.trimmed
      key_plain := (hplain key hkey).key_plain
      key_text := (hplain key hkey).key_text
      value_text := ⟨hargument.balanced,
        fun k => passes_nil_iff.mp (passes_of_unexposed hexposed)⟩
      value_commaless := hargument.commaless }

end EngineFamily

/-! ## Arguments in the declaration -/

/-- A `Kafka` declaration with literals for its arguments. -/
def kafkaCall (args : List String) : String :=
  "Kafka(" ++ ", ".intercalate (args.map quoteLiteral) ++ ")"

section KafkaCall

variable (args : List String)

theorem toList_kafkaCall : (kafkaCall args).toList =
    EngineFamily.kafka.name.toList ++
      '(' :: ([',', ' '].intercalate (args.map (quote ·.toList)) ++ [')']) := by
  rw [kafkaCall, String.toList_append, String.toList_append, String.toList_intercalate,
    List.map_map]
  have hquote : args.map (String.toList ∘ quoteLiteral) = args.map (quote ·.toList) :=
    List.map_congr_left fun a _ => String.toList_ofList
  rw [hquote, List.append_assoc]
  rfl

theorem balanced_quotes : Balanced ([',', ' '].intercalate (args.map (quote ·.toList))) := by
  refine .intercalate (by decide) fun cs hcs => ?_
  obtain ⟨a, _, rfl⟩ := List.mem_map.mp hcs
  exact balanced_quote _

theorem isDeclaration_kafkaCall : IsDeclaration (kafkaCall args) where
  trimmed := by
    rw [trim_eq_self_iff, toList_kafkaCall]
    refine ⟨fun c hc => ?_, fun c hc => ?_⟩
    · obtain rfl : 'K' = c := Option.some.inj hc
      decide
    · rw [← List.cons_append, ← List.append_assoc, List.getLast?_concat, Option.mem_some_iff] at hc
      exact hc ▸ by decide
  balanced := by
    rw [toList_kafkaCall]
    exact Balanced.append (by decide) (balanced_quotes args).parenthesized
  free k := by
    have hname : ∀ c ∈ EngineFamily.kafka.name.toList, isBlank c = false := fun c hc =>
      (EngineFamily.name_plain .kafka c hc).1
    rw [findKeyword?, ← passes_nil_iff, toList_kafkaCall, passes_append]
    exact ⟨passes_of_blankless hname rfl, passes_parenthesized (balanced_quotes args)⟩

theorem arguments_kafkaCall : arguments (kafkaCall args) = args := by
  have hargument : ∀ cs ∈ args.map (quote ·.toList), IsArgument cs ∧ cs ≠ [] := by
    intro cs hcs
    obtain ⟨a, _, rfl⟩ := List.mem_map.mp hcs
    exact ⟨isArgument_quote _, by simp [quote]⟩
  have hlast : ¬(args.map (quote ·.toList)).getLast? = some [] := fun h =>
    (hargument _ (List.mem_of_getLast? h)).2 rfl
  rw [arguments, toList_kafkaCall, parenthesized?_append (by decide)]
  simp only [argumentPieces_join fun cs hcs => (hargument cs hcs).1, if_neg hlast, List.map_map,
    Function.comp_def, unquote_quote, String.ofList_toList, List.map_id']

theorem ofDeclaration?_kafkaCall :
    EngineFamily.ofDeclaration? (kafkaCall args) = some .kafka := by
  rw [EngineFamily.ofDeclaration?_eq_some_iff, EngineFamily.calledName, toList_kafkaCall,
    List.takeWhile_append_of_pos (EngineFamily.kafka.name_endless),
    List.takeWhile_cons_of_neg (by decide), List.append_nil]

end KafkaCall

/-- A `Kafka` declaration is read from its arguments. -/
theorem Engine.parse_of_kafka {d text : String} {given : List String} (engine : String)
    (hd : declaration text = d) (hfamily : EngineFamily.ofDeclaration? d = some .kafka)
    (hgiven : EngineFamily.kafka.argumentsIn d text = given) :
    Engine.parse engine text =
      match EngineFamily.kafka.build? given with
      | some e => .ok e
      | none => .error (.malformed .kafka d given.length) := by
  have hne : d.isEmpty = false := by
    cases hempty : d.isEmpty with
    | false => rfl
    | true =>
      rw [String.isEmpty_iff.mp hempty] at hfamily
      exact absurd hfamily (by decide)
  have hdeclaration : Engine.declarationIn engine text = d := by
    rw [Engine.declarationIn, hd, hne]
    rfl
  have hcalled := (EngineFamily.ofDeclaration?_eq_some_iff.mp hfamily).symm
  have hparse := Engine.parse_of_called (f := .kafka) (by rwa [hdeclaration])
  rw [hdeclaration, ← EngineFamily.length_argumentsIn, hgiven] at hparse
  refine hparse.trans ?_
  cases EngineFamily.kafka.build? given <;> rfl

theorem Engine.parse_kafkaCall (engine b t g f : String) :
    Engine.parse engine (kafkaCall [b, t, g, f]) = .ok (.kafka (commaList b.toList) t g f) := by
  have harguments := arguments_kafkaCall [b, t, g, f]
  have hdeclaration : declaration (kafkaCall [b, t, g, f]) = kafkaCall [b, t, g, f] :=
    (isDeclaration_kafkaCall _).declaration_eq (l := []) (by simp) (by simp [clauseText])
  have hgiven : EngineFamily.kafka.argumentsIn (kafkaCall [b, t, g, f]) (kafkaCall [b, t, g, f]) =
      arguments (kafkaCall [b, t, g, f]) :=
    EngineFamily.argumentsIn_of_ne_nil _ (by simp [harguments])
  rw [Engine.parse_of_kafka engine hdeclaration (ofDeclaration?_kafkaCall _)
    (hgiven.trans harguments)]
  rfl

/-! ## Tables of rows -/

/-- Reading the row gives a table with this engine and these settings: alone it is introspected
without an error, and in every introspection that ends well there is a table for it. -/
structure TableRow.Yields (row : TableRow) (engine : Engine) (settings : Keyed String) : Prop where
  alone : ∀ {source : CatalogSource} {filter : Filter}, source.Answers →
    source.ask [] .tables = .ok [row] → filter.matchesTable row.database row.name = true →
      ∃ found, (introspect source filter).1 = .ok found
  table : ∀ {source : CatalogSource} {filter : Filter} {rows : List TableRow}
    {found : Introspection}, (introspect source filter).1 = .ok found →
      source.ask [] .tables = .ok rows → row ∈ rows →
      filter.matchesTable row.database row.name = true →
      ∃ table ∈ found.snapshot.tables.entries, table.qualifiedName = row.qualifiedName ∧
        table.engine = engine ∧ table.settings = settings

theorem TableRow.yields_of_parse {row : TableRow} {engine : Engine} (hsupported : row.IsSupported)
    (hparse : Engine.parse row.engine row.engineFull = .ok engine) :
    row.Yields engine (row.settings engine) where
  alone {source filter} hanswers hlisted hmatches := by
    obtain ⟨dictionaries, hdictionaries⟩ := hanswers [.tables] .dictionaries
    rcases @introspect_of_answers source filter [row] dictionaries hanswers hlisted hdictionaries
      (by simp) with ⟨hfound, _⟩ | ⟨before, repeated, kind, hrepeat, _⟩
    · exact hfound
    · -- the only row has no earlier one
      obtain ⟨earlier, hearlier, _⟩ := hrepeat.repeated
      have hselect : (filter.select [row]).length ≤ 1 := by
        rw [Filter.select, List.length_mergeSort]
        exact List.length_filter_le _ _
      have hlength := hrepeat.next.length_le.trans hselect
      rw [List.length_append, List.length_singleton] at hlength
      have := List.length_pos_of_mem hearlier
      omega
  table {source filter rows found} hfound hlisted hrow hmatches := by
    obtain ⟨listed, hread⟩ := introspected_of_introspect (Prod.ext hfound rfl)
    obtain rfl : rows = listed := Except.ok.inj (hlisted.symm.trans hread.listed)
    obtain ⟨table, htable, hreads⟩ := hread.exists_table hrow
      ⟨TableRow.user_of_matchesTable hmatches, hmatches, hsupported, engine, hparse⟩
    refine ⟨table, htable, hreads.qualifiedName_eq, ?_⟩
    cases hreads with
    | mk hcontent _ _ =>
      obtain ⟨_, hcontent⟩ := TableRow.content_eq_table_iff.mp hcontent
      obtain rfl := Except.ok.inj (hparse.symm.trans hcontent)
      exact ⟨rfl, rfl⟩

/-! ## Both forms -/

/-- **The form with settings agrees with the form with arguments.** `given` says which settings of
`Kafka` have which values; they stand in any order among other settings. With all four of them, the
engine is the one with these arguments, and a table of such a row has the other settings. With
fewer, the declaration is malformed. -/
theorem parse_settingsText {opening before after : String} {l : List WrittenSetting}
    {given : String → Option String} (hopening : opening = "Kafka" ∨ opening = "Kafka()")
    (hbefore : IsGap before.toList) (hafter : IsGap after.toList)
    (hgaps : ∀ w ∈ l, ∀ b ∈ w.gaps, isBlank b = true)
    (hl : ∀ w ∈ l, (w.key ∈ EngineFamily.kafkaSettings ∧ ∃ text, w.value = quoteLiteral text) ∨
      IsSetting w.key.toList w.value.toList)
    (hgiven : ((l.map WrittenSetting.pair).filter (·.1 ∈ EngineFamily.kafkaSettings)).Perm
      (EngineFamily.assigned given)) (engine : String) :
    (∀ b t g f, EngineFamily.kafkaSettings.map given = [b, t, g, f].map (some ∘ quoteLiteral) →
      Engine.parse engine (settingsText opening before after l) =
          .ok (.kafka (commaList b.toList) t g f) ∧
        Engine.parse engine (settingsText opening before after l) =
          Engine.parse engine (kafkaCall [b, t, g, f]) ∧
        ∀ row : TableRow, row.engine = "Kafka" →
          row.engineFull = settingsText opening before after l →
          row.Yields (.kafka (commaList b.toList) t g f)
            (.ofList ((l.map WrittenSetting.pair).filter
              (·.1 ∉ EngineFamily.kafkaSettings)))) ∧
      (none ∈ EngineFamily.kafkaSettings.map given →
        Engine.parse engine (settingsText opening before after l) =
          .error (.malformed .kafka opening (EngineFamily.kafkaSettings.filterMap given).length) ∧
        (EngineFamily.kafkaSettings.filterMap given).length < 4 ∧
        EngineFamily.kafka.arity = .exactly 4) := by
  have hwritten : ∀ w ∈ l, w.WellFormed := fun w hw => by
    refine ⟨hgaps w hw, ?_⟩
    rcases hl w hw with ⟨hkey, text, hvalue⟩ | hsetting
    · exact hvalue ▸ EngineFamily.isSetting_quoteLiteral hkey text
    · exact hsetting
  have hd : IsDeclaration opening ∧ arguments opening = [] ∧
      EngineFamily.ofDeclaration? opening = some .kafka := by
    rcases hopening with rfl | rfl <;> decide
  obtain ⟨hdeclaration, hnone, hfamily⟩ := hd
  obtain ⟨hread, hsettings⟩ := settings_settingsText hdeclaration hbefore hafter hwritten
  have hparse (engine : String) := Engine.parse_of_kafka engine hread hfamily
    (EngineFamily.argumentsIn_of_settings hnone hsettings hgiven)
  refine ⟨fun b t g f hall => ?_, fun hmissing => ?_⟩
  · have hok (engine : String) : Engine.parse engine (settingsText opening before after l) =
        .ok (.kafka (commaList b.toList) t g f) := by
      rw [hparse, EngineFamily.map_argumentValue_of_given hall]
      rfl
    refine ⟨hok engine, (hok engine).trans (Engine.parse_kafkaCall engine b t g f).symm,
      fun row hengine htext => ?_⟩
    have hyields : row.Yields (.kafka (commaList b.toList) t g f)
        (row.settings (.kafka (commaList b.toList) t g f)) :=
      TableRow.yields_of_parse ⟨.kafka, hengine.symm⟩ (htext ▸ hok row.engine)
    have hrest : row.settings (.kafka (commaList b.toList) t g f) =
        .ofList ((l.map WrittenSetting.pair).filter (·.1 ∉ EngineFamily.kafkaSettings)) := by
      rw [← Keyed.foldl_erase_ofList, ← hsettings, ← htext]
      rfl
    rwa [hrest] at hyields
  · have hfew : (EngineFamily.kafkaSettings.filterMap given).length < 4 := by
      obtain ⟨key, hkey, hnone⟩ := List.mem_map.mp hmissing
      exact List.length_filterMap_lt_length_iff_exists.mpr ⟨key, hkey, hnone⟩
    have hbuild : EngineFamily.kafka.build?
        ((EngineFamily.kafkaSettings.filterMap given).map argumentValue) = none :=
      EngineFamily.build?_kafka_eq_none (by rw [List.length_map]; exact hfew.ne)
    refine ⟨?_, hfew, rfl⟩
    rw [hparse, hbuild, List.length_map]

/-- The four settings in another order and with other blanks, among two settings of one key. -/
def mixedSettings : List WrittenSetting :=
  [{ key := "kafka_format", value := quoteLiteral "JSON" },
    { beforeKey := "\n ", key := "a", afterKey := "", beforeValue := "", value := "1" },
    { key := "kafka_topic_list", value := quoteLiteral "it's, x = (TTL" },
    { key := "kafka_broker_list", value := quoteLiteral "a:1, b:2", afterValue := "\t" },
    { beforeKey := " ", key := "a", value := "f(2, ' SETTINGS ')" },
    { beforeKey := " ", key := "kafka_group_name", value := quoteLiteral "" }]

theorem parse_settingsText_mixed :
    Engine.parse "Kafka" (settingsText "Kafka()" "\n" " " mixedSettings) =
        .ok (.kafka ["a:1", "b:2"] "it's, x = (TTL" "" "JSON") ∧
      TableRow.Yields
        { database := "db", name := "queue", engine := "Kafka",
          engineFull := settingsText "Kafka()" "\n" " " mixedSettings }
        (.kafka ["a:1", "b:2"] "it's, x = (TTL" "" "JSON")
        (.ofList [("a", "1"), ("a", "f(2, ' SETTINGS ')")]) := by
  have hgaps : ∀ w ∈ mixedSettings, w.gaps.all isBlank = true := by decide
  have hl : ∀ w ∈ mixedSettings,
      (w.key ∈ EngineFamily.kafkaSettings ∧ ∃ text, w.value = quoteLiteral text) ∨
        IsSetting w.key.toList w.value.toList := by
    have ha : IsSetting "a".toList "1".toList ∧
        IsSetting "a".toList "f(2, ' SETTINGS ')".toList := by decide
    simp only [mixedSettings, List.forall_mem_cons, List.not_mem_nil, false_imp_iff, implies_true,
      and_true]
    exact ⟨.inl ⟨by decide, _, rfl⟩, .inr ha.1, .inl ⟨by decide, _, rfl⟩,
      .inl ⟨by decide, _, rfl⟩, .inr ha.2, .inl ⟨by decide, _, rfl⟩⟩
  have hgiven : ((mixedSettings.map WrittenSetting.pair).filter
      (·.1 ∈ EngineFamily.kafkaSettings)).Perm
        (EngineFamily.assigned fun key => (mixedSettings.map WrittenSetting.pair).lookup key) := by
    decide
  have hopening : "Kafka()" = "Kafka" ∨ "Kafka()" = "Kafka()" := .inr rfl
  obtain ⟨hall, -⟩ := parse_settingsText hopening (by decide : IsGap "\n".toList)
    (by decide : IsGap " ".toList) (fun w hw => List.all_eq_true.mp (hgaps w hw)) hl hgiven "Kafka"
  obtain ⟨hparse, -, hyields⟩ := hall "a:1, b:2" "it's, x = (TTL" "" "JSON" (by decide)
  have hbrokers : commaList "a:1, b:2".toList = ["a:1", "b:2"] := by decide
  have hrest : (mixedSettings.map WrittenSetting.pair).filter
      (·.1 ∉ EngineFamily.kafkaSettings) = [("a", "1"), ("a", "f(2, ' SETTINGS ')")] := by decide
  rw [hbrokers, hrest] at hyields
  exact ⟨hbrokers ▸ hparse, hyields _ rfl rfl⟩

end SchemaPlan
