import SchemaPlan.Proofs.EngineRoundTrip
import SchemaPlan.Proofs.Ink

/-!
# Declarations in normal form

What is cut out as the declaration of an engine text has nothing left to cut. A keyword may come to
the end of a text when the text is cut, but then it was a keyword before: what follows it is a blank
or the end of the text, because a clause only starts after a blank.

* `KeywordPlace`, `HasClause`: a keyword in a text, as a reader finds it.
* `exists_of_findKeyword?`, `clausesStart_le`: the search finds a keyword, and the first one.
* `not_hasClause_declarationChars`: nothing is left; `declarationChars_prefix`: what is cut out
  stands at the start; `declarationChars_eq_trim_iff`: when all of a text is taken.
* `Engine.parse_declaration_iff`: an engine text is read like its declaration, unless settings
  stand for arguments.
* **`Engine.declaration_normalForm`**: all of it together.
-/

namespace SchemaPlan.Sql

variable {cs before after word rest : List Char} {s : ScanState} {k : Clause} {n : Nat}

/-! ## Keywords in a text -/

/-- The keyword of a clause would stand between the two texts as a word of its own, after a blank
and outside literals and parentheses. -/
structure KeywordPlace (before after : List Char) : Prop where
  outside : ScanState.start.run before = .start
  blank_before : before.getLast?.any isBlank = true
  blank_after : after.head?.all isBlank = true

/-- The keyword of some clause stands in the text. -/
def HasClause (cs : List Char) : Prop :=
  ∃ (k : Clause) (before after : List Char),
    cs = before ++ (k.keyword.toList ++ after) ∧ KeywordPlace before after

theorem lastRead_eq (before : Option Char) (cs : List Char) :
    lastRead before cs = cs.getLast?.or before := by
  rcases List.eq_nil_or_concat cs with rfl | ⟨init, c, rfl⟩
  · rfl
  · simp [lastRead]

theorem Clause.keyword_length_pos (k : Clause) : 0 < k.keyword.toList.length := by
  cases k <;> decide

/-! ## What the search finds -/

theorem exists_of_findKeyword? (h : findKeyword? k cs = some n) :
    ∃ before after, cs = before ++ (k.keyword.toList ++ after) ∧ before.length = n ∧
      KeywordPlace before after := by
  obtain ⟨c, rest, hdrop, hexposes, hblank, hword⟩ := findWordFrom?_eq_some h
  obtain ⟨after, e, hafter⟩ := startsWithWord_iff.mp hword
  rw [lastRead_eq, Option.or_none] at hblank
  have hlength := congrArg List.length hdrop
  rw [List.length_drop, List.length_cons] at hlength
  refine ⟨cs.take n, after, ?_, List.length_take_of_le (by omega),
    (ScanState.exposes_iff.mp hexposes).1, hblank, hafter⟩
  rw [e, ← hdrop, List.take_append_drop]

theorem findWordFrom?_le {last : Option Char} {c : Char} (hhead : word.head? = some c)
    (hc : ScanState.start.exposes c = true) (hrun : s.run before = .start)
    (hblank : (lastRead last before).any isBlank = true)
    (hafter : after.head?.all isBlank = true) :
    ∃ n ≤ before.length, findWordFrom? word s last (before ++ (word ++ after)) = some n := by
  induction before generalizing s last with
  | nil =>
    obtain rfl : s = .start := hrun
    exact ⟨0, Nat.le_refl 0, findWordFrom?_here hhead hc hblank hafter⟩
  | cons d before ih =>
    rw [List.cons_append, findWordFrom?]
    split
    · exact ⟨0, Nat.zero_le _, rfl⟩
    · obtain ⟨n, hn, hfound⟩ := ih hrun hblank
      exact ⟨n + 1, Nat.succ_le_succ hn, by rw [hfound]; rfl⟩

theorem clausesStart_le (k : Clause) (h : KeywordPlace before after) :
    clausesStart (before ++ (k.keyword.toList ++ after)) ≤ before.length := by
  obtain ⟨c, hhead, _, hc⟩ := k.keyword_head_exposes
  have hblank : (lastRead none before).any isBlank = true := by
    rw [lastRead_eq, Option.or_none]
    exact h.blank_before
  obtain ⟨n, hle, hn⟩ := findWordFrom?_le hhead hc h.outside hblank h.blank_after
  refine Nat.le_trans ?_ hle
  have hmin : (_ :: Clause.all.filterMap (findKeyword? · _)).min? =
      some (clausesStart (before ++ (k.keyword.toList ++ after))) := List.min?_cons'
  exact (List.min?_eq_some_iff.mp hmin).2 n
    (List.mem_cons_of_mem _ (List.mem_filterMap.mpr ⟨k, k.mem_all, hn⟩))

/-- A text has no clause and all of it comes before clauses, or a keyword stands where the clauses
start. -/
theorem clausesStart_cases (cs : List Char) :
    ¬HasClause cs ∧ clausesStart cs = cs.length ∨
      ∃ (k : Clause) (before after : List Char), cs = before ++ (k.keyword.toList ++ after) ∧
        before.length = clausesStart cs ∧ KeywordPlace before after := by
  rcases clausesStart_eq cs with ⟨_, hlength⟩ | ⟨k, hk⟩
  · refine .inl ⟨?_, hlength⟩
    rintro ⟨k, before, after, rfl, h⟩
    have hle := clausesStart_le k h
    have := k.keyword_length_pos
    rw [hlength, List.length_append, List.length_append] at hle
    omega
  · exact .inr ⟨k, exists_of_findKeyword? hk⟩

theorem hasClause_of_findKeyword? (h : findKeyword? k cs = some n) : HasClause cs := by
  obtain ⟨before, after, e, _, hplace⟩ := exists_of_findKeyword? h
  exact ⟨k, before, after, e, hplace⟩

/-! ## Cutting and trimming -/

theorem trim_declarationChars (cs : List Char) : trim (declarationChars cs) = declarationChars cs :=
  trim_trim _

theorem KeywordPlace.ne_nil (h : KeywordPlace before after) : before ≠ [] := by
  rintro rfl
  cases h.blank_before

/-- Blanks before the text and what does not lengthen the keyword behind it make no difference. -/
theorem KeywordPlace.extend {lead : List Char} (h : KeywordPlace before after)
    (hlead : ∀ b ∈ lead, isBlank b = true) (hrest : rest.head?.all isBlank = true) :
    KeywordPlace (lead ++ before) (after ++ rest) where
  outside := by
    rw [ScanState.run_append, ScanState.run_start_blanks hlead, h.outside]
  blank_before := by
    rw [List.getLast?_append_of_ne_nil _ h.ne_nil]
    exact h.blank_before
  blank_after := by
    cases after with
    | nil => exact hrest
    | cons c after => exact h.blank_after

theorem drop_clausesStart_cases (cs : List Char) : cs.drop (clausesStart cs) = [] ∨
    (cs.take (clausesStart cs)).getLast?.any isBlank = true := by
  rcases clausesStart_cases cs with ⟨_, hlength⟩ | ⟨k, before, after, e, hlength, hplace⟩
  · exact .inl (List.drop_eq_nil_of_le (Nat.le_of_eq hlength.symm))
  · right
    rw [← hlength, e, List.take_left]
    exact hplace.blank_before

/-- Where a declaration stands in its text: after blanks, before a blank or the end of the text, and
before the clauses. -/
theorem exists_declarationChars (cs : List Char) :
    ∃ lead rest, cs = lead ++ (declarationChars cs ++ rest) ∧ (∀ b ∈ lead, isBlank b = true) ∧
      (declarationChars cs ≠ [] → rest.head?.all isBlank = true) ∧
      lead.length + (declarationChars cs).length ≤ clausesStart cs := by
  obtain ⟨lead, trail, htake, hlead, htrail⟩ := exists_trim (cs.take (clausesStart cs))
  rw [← declarationChars] at htake
  refine ⟨lead, trail ++ cs.drop (clausesStart cs), ?_, hlead, fun hne => ?_, ?_⟩
  · conv_lhs => rw [← List.take_append_drop (clausesStart cs) cs, htake]
    simp only [List.append_assoc]
  · cases trail with
    | cons b trail => exact htrail b List.mem_cons_self
    | nil =>
      rcases drop_clausesStart_cases cs with hnil | hblank
      · rw [hnil]
        rfl
      · -- the text before the clauses ends with a blank, which was trimmed
        rw [htake, List.append_nil, List.getLast?_append_of_ne_nil _ hne,
          List.getLast?_eq_some_getLast hne] at hblank
        have hlast := (trim_eq_self_iff.mp (trim_declarationChars cs)).2 _
          (List.getLast?_eq_some_getLast hne)
        exact absurd hblank (by simp [hlast])
  · have hlength := congrArg List.length htake
    have := List.length_take_le (clausesStart cs) cs
    rw [List.length_append, List.length_append] at hlength
    omega

/-- **No keyword is left in a declaration.** It would be one in the whole text, before the first. -/
theorem not_hasClause_declarationChars (cs : List Char) : ¬HasClause (declarationChars cs) := by
  rintro ⟨k, before, after, e, hplace⟩
  obtain ⟨lead, rest, hcs, hlead, hrest, hlength⟩ := exists_declarationChars cs
  have hne : declarationChars cs ≠ [] := by
    rw [e]
    exact fun hnil => hplace.ne_nil (List.append_eq_nil_iff.mp hnil).1
  have hwhole : cs = (lead ++ before) ++ (k.keyword.toList ++ (after ++ rest)) := by
    rw [hcs, e]
    simp only [List.append_assoc]
  have hle := clausesStart_le k (hplace.extend hlead (hrest hne))
  rw [← hwhole] at hle
  rw [e] at hlength
  simp only [List.length_append] at hle hlength
  have := k.keyword_length_pos
  omega

theorem declarationChars_of_not_hasClause (h : ¬HasClause cs) : declarationChars cs = trim cs := by
  rcases clausesStart_cases cs with ⟨_, hlength⟩ | ⟨k, before, after, e, _, hplace⟩
  · rw [declarationChars, hlength, List.take_length]
  · exact absurd ⟨k, before, after, e, hplace⟩ h

/-- A declaration is all of a text exactly when no keyword stands in it. -/
theorem declarationChars_eq_trim_iff : declarationChars cs = trim cs ↔ ¬HasClause cs := by
  refine ⟨fun heq => ?_, declarationChars_of_not_hasClause⟩
  rcases clausesStart_cases cs with ⟨hfree, _⟩ | ⟨k, before, after, e, hlength, _⟩
  · exact hfree
  · -- the ink of the keyword is cut off
    have hink := congrArg ink heq
    rw [declarationChars, ink_trim, ink_trim, ← hlength, e, List.take_left, ink_append,
      ink_append] at hink
    have := ink_keyword k
    omega

theorem declarationChars_declarationChars (cs : List Char) :
    declarationChars (declarationChars cs) = declarationChars cs := by
  rw [declarationChars_of_not_hasClause (not_hasClause_declarationChars cs),
    trim_declarationChars]

theorem declarationChars_prefix (cs : List Char) : declarationChars cs <+: trimStart cs := by
  obtain ⟨lead, rest, hcs, hlead, -, -⟩ := exists_declarationChars cs
  cases hd : declarationChars cs with
  | nil => exact List.nil_prefix
  | cons c tail =>
    have hc : isBlank c = false :=
      (trim_eq_self_iff.mp (trim_declarationChars cs)).1 c (by rw [hd]; rfl)
    conv_rhs => rw [hcs, hd, trimStart, List.dropWhile_append_of_pos hlead]
    rw [List.cons_append, List.dropWhile_cons_of_neg (by simp [hc]), ← List.cons_append]
    exact List.prefix_append _ _

theorem not_hasClause_declaration (text : String) : ¬HasClause (declaration text).toList := by
  rw [declaration, String.toList_ofList]
  exact not_hasClause_declarationChars text.toList

theorem declaration_declaration (text : String) :
    declaration (declaration text) = declaration text := by
  rw [declaration, declaration, String.toList_ofList, declarationChars_declarationChars]

theorem settings_of_not_hasClause {text : String} (h : ¬HasClause text.toList) :
    (clauses text).settings = .empty := by
  have hnone : findKeyword? .settings text.toList = none :=
    Option.eq_none_iff_forall_ne_some.mpr fun n hn => h (hasClause_of_findKeyword? hn)
  simp only [clauses, clauseBody?, hnone]

end SchemaPlan.Sql

namespace SchemaPlan

open Sql

variable {engine text : String}

/-! ## Reading declarations -/

theorem EngineFamily.argumentsIn_of_unset {declaration : String} (f : EngineFamily)
    (h : ∀ key ∈ kafkaSettings, (clauses text).settings.get? key = none) :
    f.argumentsIn declaration text = arguments declaration := by
  unfold argumentsIn
  split
  · rename_i hnil
    rw [hnil, List.filterMap_eq_nil_iff]
    intro key hkey
    rw [h key hkey, Option.map_none]
  · rfl

theorem EngineFamily.argumentsIn_kafka_eq_nil_iff {declaration : String}
    (h : arguments declaration = []) : kafka.argumentsIn declaration text = [] ↔
      ∀ key ∈ kafkaSettings, (clauses text).settings.get? key = none := by
  simp only [argumentsIn, h, List.filterMap_eq_nil_iff, Option.map_eq_none_iff]

namespace Engine

theorem declarationIn_declaration (engine text : String) :
    declarationIn engine (Sql.declaration text) = declarationIn engine text := by
  simp only [declarationIn, declaration_declaration]

theorem argumentsIn_declaration (f : EngineFamily) (declaration text : String) :
    f.argumentsIn declaration (Sql.declaration text) = arguments declaration := by
  refine f.argumentsIn_of_unset fun key _ => ?_
  rw [settings_of_not_hasClause (not_hasClause_declaration text)]
  rfl

/-- **An engine text is read like its declaration**, unless settings stand for the arguments of a
`Kafka` declaration without any. -/
theorem parse_declaration_iff : parse engine (Sql.declaration text) = parse engine text ↔
    (EngineFamily.ofDeclaration? (declarationIn engine text) = some .kafka →
      arguments (declarationIn engine text) = [] →
        ∀ key ∈ EngineFamily.kafkaSettings, (clauses text).settings.get? key = none) := by
  constructor
  · intro heq hkafka hnone
    rw [← EngineFamily.argumentsIn_kafka_eq_nil_iff hnone]
    have hbare : EngineFamily.kafka.build? [] = none := rfl
    unfold parse at heq
    simp only [declarationIn_declaration, argumentsIn_declaration, hkafka, hnone, hbare] at heq
    -- the declaration alone is reported to have no arguments
    generalize EngineFamily.kafka.argumentsIn (declarationIn engine text) text = given at heq ⊢
    cases hbuild : EngineFamily.kafka.build? given with
    | some e => simp [hbuild] at heq
    | none => simpa [hbuild, eq_comm] using heq
  · intro h
    have harguments (f : EngineFamily)
        (hf : EngineFamily.ofDeclaration? (declarationIn engine text) = some f) :
        f.argumentsIn (declarationIn engine text) text =
          arguments (declarationIn engine text) := by
      by_cases hnone : f = .kafka ∧ arguments (declarationIn engine text) = []
      · obtain ⟨rfl, hnone⟩ := hnone
        exact EngineFamily.argumentsIn_of_unset _ (h hf hnone)
      · exact EngineFamily.argumentsIn_of_ne_nil text fun hk hnil => hnone ⟨hk, hnil⟩
    unfold parse
    simp only [declarationIn_declaration]
    cases hf : EngineFamily.ofDeclaration? (declarationIn engine text) with
    | none => simp only
    | some f => simp only [argumentsIn_declaration, harguments f hf]

/-- **Declarations are in normal form.** The declaration of any text is trimmed, has no keyword of a
clause left, stands at the start of the text after its blanks, and is its own declaration. It is all
of the text, but for the blanks at its ends, exactly when no keyword stands in the text. And an
engine text is read like its declaration, whatever the name of the engine, unless its settings stand
for the arguments of a `Kafka` declaration without any. -/
theorem declaration_normalForm (engine text : String) :
    trimText (Sql.declaration text) = Sql.declaration text ∧
      ¬HasClause (Sql.declaration text).toList ∧
      (Sql.declaration text).toList <+: trimStart text.toList ∧
      Sql.declaration (Sql.declaration text) = Sql.declaration text ∧
      (Sql.declaration text = trimText text ↔ ¬HasClause text.toList) ∧
      (parse engine (Sql.declaration text) = parse engine text ↔
        (EngineFamily.ofDeclaration? (declarationIn engine text) = some .kafka →
          arguments (declarationIn engine text) = [] →
            ∀ key ∈ EngineFamily.kafkaSettings, (clauses text).settings.get? key = none)) := by
  refine ⟨?_, not_hasClause_declaration text, ?_, declaration_declaration text, ?_,
    parse_declaration_iff⟩
  · rw [trimText, declaration, String.toList_ofList, trim_declarationChars]
  · rw [declaration, String.toList_ofList]
    exact declarationChars_prefix text.toList
  · rw [declaration, trimText, String.ofList_inj, declarationChars_eq_trim_iff]

/-- A keyword at the start of a text follows no blank, so that it is a declaration. -/
example : Sql.declaration " Log\tTTL\nORDER BY id" = "Log" ∧
    Sql.declaration "TTL\nORDER BY id" = "TTL" := by decide +kernel

end Engine

end SchemaPlan
