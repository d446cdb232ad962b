import SchemaPlan.Proofs.ClauseRoundTrip
import SchemaPlan.Proofs.KeyedLaws
import SchemaPlan.Proofs.Pieces

/-!
# Lists of settings

What a list of settings says, and that a written list says what it was written from.

* `IsSetting`: a key and a value that can be told apart; `WrittenSetting`: they and the blanks
  around them; `settingsOf_settingList`: a written list of settings is read back.
* `assignments`: the list with one blank on each side of a sign and after a comma.
* `Assigns`: the key and the value of a part; `LastAssigned`: the value of a key in a row of parts.
* `get?_settingsOf`: **the reader gives a key the last value assigned to it**.
-/

namespace SchemaPlan.Sql

variable {rest cs part : List Char} {parts : List (List Char)} {key value : String}

/-! ## Settings -/

/-- A setting that can be told apart from what stands around it in a list of settings. -/
structure IsSetting (key value : List Char) : Prop where
  key_trimmed : trim key = key
  value_trimmed : trim value = value
  key_plain : ∀ c ∈ key, c ≠ '=' ∧ c ≠ ',' ∧ isQuoteMark c = false ∧ c ≠ '(' ∧ c ≠ ')'
  key_text : IsClauseText key
  value_text : IsClauseText value
  value_commaless : ',' ∉ exposed .start value

instance (key value : List Char) : Decidable (IsSetting key value) :=
  decidable_of_iff (trim key = key ∧ trim value = value ∧
      key.all (fun c => c != '=' && c != ',' && !isQuoteMark c && c != '(' && c != ')') = true ∧
      IsClauseText key ∧ IsClauseText value ∧ ',' ∉ exposed .start value)
    ⟨fun ⟨hkey, hvalue, hplain, hkeyText, hvalueText, hcomma⟩ =>
        ⟨hkey, hvalue, by simpa [and_assoc] using hplain, hkeyText, hvalueText, hcomma⟩,
      fun h => ⟨h.key_trimmed, h.value_trimmed, by simpa [and_assoc] using h.key_plain,
        h.key_text, h.value_text, h.value_commaless⟩⟩

theorem assignment?_blanks_append {blanks : List Char} (hb : ∀ b ∈ blanks, isBlank b = true) :
    assignment? (blanks ++ cs) = assignment? cs := by
  have hne : ∀ b ∈ blanks, (b != '=') = true := fun b hmem =>
    bne_iff_ne.mpr (ne_of_isBlank (hb b hmem) (by decide))
  rw [assignment?, assignment?, List.dropWhile_append_of_pos hne,
    List.takeWhile_append_of_pos hne, trim_blanks_append hb]

theorem assignment?_append_blanks {blanks : List Char} (hb : ∀ b ∈ blanks, isBlank b = true) :
    assignment? (cs ++ blanks) = assignment? cs := by
  have hne : ∀ b ∈ blanks, (b != '=') = true := fun b hmem =>
    bne_iff_ne.mpr (ne_of_isBlank (hb b hmem) (by decide))
  have hblanks : blanks.dropWhile (· != '=') = [] := List.dropWhile_eq_nil_iff.mpr hne
  rw [assignment?, assignment?, List.dropWhile_append, List.takeWhile_append]
  cases hdrop : cs.dropWhile (· != '=') with
  | nil => simp [hblanks]
  | cons c value =>
    have hlength : (cs.takeWhile (· != '=')).length ≠ cs.length := by
      intro e
      have := congrArg List.length (List.takeWhile_append_dropWhile (p := (· != '=')) (l := cs))
      rw [List.length_append, e, hdrop, List.length_cons] at this
      omega
    simp [hlength, trim_append_blanks hb]

theorem assignment?_trim (cs : List Char) : assignment? (trim cs) = assignment? cs := by
  obtain ⟨before, after, h, hb, ha⟩ := exists_trim cs
  conv_rhs => rw [h, assignment?_append_blanks ha, assignment?_blanks_append hb]

theorem assignment?_append {left right : List Char} (h : '=' ∉ left) :
    assignment? (left ++ '=' :: right) =
      some (String.ofList (trim left), String.ofList (trim right)) := by
  have hleft : ∀ c ∈ left, (c != '=') = true := fun c hc =>
    bne_iff_ne.mpr fun e => h (e ▸ hc)
  rw [assignment?, List.dropWhile_append_of_pos hleft, List.takeWhile_append_of_pos hleft,
    List.dropWhile_cons_of_neg (by simp), List.takeWhile_cons_of_neg (by simp), List.append_nil]

/-- A setting in a list of settings, with the blanks around its key and its value. -/
structure WrittenSetting where
  beforeKey : String := ""
  key : String
  afterKey : String := " "
  beforeValue : String := " "
  value : String
  afterValue : String := ""

namespace WrittenSetting

/-- The setting without its blanks. -/
def pair (w : WrittenSetting) : String × String := (w.key, w.value)

/-- What stands before the equals sign. -/
def left (w : WrittenSetting) : List Char :=
  w.beforeKey.toList ++ (w.key.toList ++ w.afterKey.toList)

/-- What stands after the equals sign. -/
def right (w : WrittenSetting) : List Char :=
  w.beforeValue.toList ++ (w.value.toList ++ w.afterValue.toList)

/-- The setting as it stands in a list. -/
def text (w : WrittenSetting) : List Char := w.left ++ '=' :: w.right

/-- What stands around the key, the sign and the value. -/
def gaps (w : WrittenSetting) : List Char :=
  w.beforeKey.toList ++ w.afterKey.toList ++ w.beforeValue.toList ++ w.afterValue.toList

/-- The gaps are blanks, and the setting may stand in a list. -/
structure WellFormed (w : WrittenSetting) : Prop where
  gaps_blank : ∀ b ∈ w.gaps, isBlank b = true
  setting : IsSetting w.key.toList w.value.toList

theorem bordered_blanks {blanks : List Char} (k : Clause) (hb : ∀ b ∈ blanks, isBlank b = true)
    (hrest : ∀ c ∈ rest.head?, c = '=' ∨ c = ',') :
    Bordered k.keyword.toList (blanks ++ rest) := by
  have hmark : ∀ c, c = '=' ∨ c = ',' → c ∉ k.keyword.toList ∧ c ≠ 'B' ∧ c ≠ 'K' := by
    rintro c (rfl | rfl) <;> cases k <;> decide
  cases blanks with
  | nil =>
    cases rest with
    | nil => exact ClauseTail.nil.bordered k
    | cons c rest => exact bordered_of_notMem (hmark c (hrest c rfl)).1
  | cons b blanks =>
    refine bordered_of_blank k (hb b List.mem_cons_self) fun d hd => ?_
    cases blanks with
    | nil => exact (hmark d (hrest d hd)).2
    | cons b' blanks =>
      obtain rfl : b' = d := Option.some.inj hd
      have hb' := hb b' (by simp)
      exact ⟨ne_of_isBlank hb' (by decide), ne_of_isBlank hb' (by decide)⟩

namespace WellFormed

variable {w : WrittenSetting} (h : w.WellFormed)

include h

theorem beforeKey_blank : ∀ b ∈ w.beforeKey.toList, isBlank b = true :=
  fun b hb => h.gaps_blank b (by simp [gaps, hb])

theorem afterKey_blank : ∀ b ∈ w.afterKey.toList, isBlank b = true :=
  fun b hb => h.gaps_blank b (by simp [gaps, hb])

theorem beforeValue_blank : ∀ b ∈ w.beforeValue.toList, isBlank b = true :=
  fun b hb => h.gaps_blank b (by simp [gaps, hb])

theorem afterValue_blank : ∀ b ∈ w.afterValue.toList, isBlank b = true :=
  fun b hb => h.gaps_blank b (by simp [gaps, hb])

theorem notMem_left {c : Char} (hc : isBlank c = false) (hkey : c ∉ w.key.toList) :
    c ∉ w.left := by
  simp only [left, List.mem_append, not_or]
  exact ⟨notMem_of_blank h.beforeKey_blank hc, hkey, notMem_of_blank h.afterKey_blank hc⟩

theorem assignment?_text : assignment? w.text = some w.pair := by
  have hsign : '=' ∉ w.left :=
    h.notMem_left (by decide) fun hmem => (h.setting.key_plain _ hmem).1 rfl
  rw [text, assignment?_append hsign, left, trim_blanks_append h.beforeKey_blank,
    trim_append_blanks h.afterKey_blank, h.setting.key_trimmed, right,
    trim_blanks_append h.beforeValue_blank, trim_append_blanks h.afterValue_blank,
    h.setting.value_trimmed, String.ofList_toList, String.ofList_toList]
  rfl

theorem balanced_left : Balanced w.left :=
  (Balanced.of_blank h.beforeKey_blank).append
    (h.setting.key_text.balanced.append (.of_blank h.afterKey_blank))

theorem balanced_text : Balanced w.text :=
  h.balanced_left.append <| (by decide : Balanced ['=']).append <|
    (Balanced.of_blank h.beforeValue_blank).append <|
      h.setting.value_text.balanced.append (.of_blank h.afterValue_blank)

theorem commaless_text : ',' ∉ exposed .start w.text := by
  have hleft : ',' ∉ w.left :=
    h.notMem_left (by decide) fun hmem => (h.setting.key_plain _ hmem).2.1 rfl
  have hbefore : ',' ∉ '=' :: w.beforeValue.toList := by
    simpa using notMem_of_blank h.beforeValue_blank (by decide)
  have hafter : ',' ∉ w.afterValue.toList := notMem_of_blank h.afterValue_blank (by decide)
  have hbalanced : Balanced ('=' :: w.beforeValue.toList) :=
    (by decide : Balanced ['=']).append (.of_blank h.beforeValue_blank)
  rw [text, right, ← List.cons_append, exposed_append, h.balanced_left.run_start, exposed_append,
    hbalanced.run_start, exposed_append, h.setting.value_text.balanced.run_start]
  simp only [List.mem_append, not_or]
  exact ⟨fun hmem => hleft ((exposed_sublist _ _).subset hmem),
    fun hmem => hbefore ((exposed_sublist _ _).subset hmem), h.setting.value_commaless,
    fun hmem => hafter ((exposed_sublist _ _).subset hmem)⟩

theorem passes_text {before : Option Char} (k : Clause)
    (hrest : ∀ c ∈ rest.head?, c = '=' ∨ c = ',') :
    Passes k.keyword.toList rest .start before w.text := by
  obtain ⟨c, hc, hblank, _⟩ := k.keyword_head_exposes
  have hsign : c ∉ ['='] := by
    obtain ⟨d, hd, hletter⟩ := k.keyword_head
    obtain rfl : c = d := Option.some.inj (hc.symm.trans hd)
    rcases hletter with rfl | rfl | rfl | rfl <;> decide
  have hbalanced : Balanced (['='] ++ w.beforeValue.toList) :=
    (by decide : Balanced ['=']).append (.of_blank h.beforeValue_blank)
  have htext : w.text = w.beforeKey.toList ++ (w.key.toList ++ (w.afterKey.toList ++
      ((['='] ++ w.beforeValue.toList) ++ (w.value.toList ++ w.afterValue.toList)))) := by
    simp [text, left, right]
  rw [htext, passes_append, passes_append, passes_append, passes_append, passes_append,
    passes_append, ScanState.run_start_blanks h.beforeKey_blank,
    h.setting.key_text.balanced.run_start, ScanState.run_start_blanks h.afterKey_blank,
    hbalanced.run_start, h.setting.value_text.balanced.run_start]
  exact ⟨passes_blanks hc hblank h.beforeKey_blank,
    h.setting.key_text.passes (by
      rw [List.append_assoc]
      exact bordered_blanks k h.afterKey_blank (by simp)),
    passes_blanks hc hblank h.afterKey_blank,
    ⟨passes_of_notMem hc hsign, passes_blanks hc hblank h.beforeValue_blank⟩,
    h.setting.value_text.passes (bordered_blanks k h.afterValue_blank hrest),
    passes_blanks hc hblank h.afterValue_blank⟩

end WellFormed

end WrittenSetting

/-! ## Lists of settings -/

/-- Settings separated by commas. -/
def settingList (l : List WrittenSetting) : List Char :=
  [','].intercalate (l.map WrittenSetting.text)

variable {written : List WrittenSetting}

theorem settingList_cons_cons (w v : WrittenSetting) (l : List WrittenSetting) :
    settingList (w :: v :: l) = w.text ++ [','] ++ settingList (v :: l) := by
  rw [settingList, List.map_cons, List.map_cons, List.intercalate_cons_cons]
  rfl

theorem trim_settingList_ne_nil (hne : written ≠ []) : trim (settingList written) ≠ [] := by
  obtain ⟨w, l, rfl⟩ := List.exists_cons_of_ne_nil hne
  have hmem : '=' ∈ settingList (w :: l) := by
    have hsign : '=' ∈ w.text := by simp [WrittenSetting.text]
    cases l with
    | nil => simpa [settingList] using hsign
    | cons v l => simp [settingList_cons_cons, hsign]
  exact fun h => notMem_of_blank (trim_eq_nil_iff.mp h) (by decide : isBlank '=' = false) hmem

section WellFormed

variable (h : ∀ w ∈ written, w.WellFormed)

include h

theorem balanced_settingList : Balanced (settingList written) := by
  refine .intercalate (by decide) fun cs hcs => ?_
  obtain ⟨w, hw, rfl⟩ := List.mem_map.mp hcs
  exact (h w hw).balanced_text

theorem passes_settingList {before : Option Char} (k : Clause) :
    Passes k.keyword.toList [] .start before (settingList written) := by
  induction written generalizing before with
  | nil => trivial
  | cons w l ih =>
    have hw := h w List.mem_cons_self
    have hl := @ih fun v hv => h v (List.mem_cons_of_mem _ hv)
    cases l with
    | nil => simpa [settingList] using hw.passes_text k (by simp)
    | cons v l =>
      obtain ⟨c, hc, hletter⟩ := k.keyword_head
      have hcomma : c ∉ [','] := by
        rcases hletter with rfl | rfl | rfl | rfl <;> decide
      rw [settingList_cons_cons, passes_append, passes_append, ScanState.run_append,
        hw.balanced_text.run_start]
      exact ⟨⟨hw.passes_text k (by simp), passes_of_notMem hc hcomma⟩, hl⟩

/-- **A written list of settings is read back**, whatever blanks stand in it. -/
theorem settingsOf_settingList :
    settingsOf (trim (settingList written)) = .ofList (written.map WrittenSetting.pair) := by
  rcases eq_or_ne written [] with rfl | hne
  · rfl
  have hpieces : pieces (settingList written) = written.map WrittenSetting.text := by
    refine pieces_intercalate (by simpa using hne) (fun cs hcs => ?_) fun cs hcs => ?_
    · obtain ⟨w, hw, rfl⟩ := List.mem_map.mp hcs
      exact (h w hw).commaless_text
    · obtain ⟨w, hw, rfl⟩ := List.mem_map.mp (List.dropLast_subset _ hcs)
      exact (h w hw).balanced_text.run_start
  have hread : ∀ w ∈ written, assignment? (trim w.text) = some w.pair := fun w hw => by
    rw [assignment?_trim, (h w hw).assignment?_text]
  rw [settingsOf, splitPieces_trim, splitPieces, hpieces, List.map_map, List.filterMap_map]
  refine congrArg Keyed.ofList ((List.filterMap_congr hread).trans ?_)
  exact congrFun List.filterMap_eq_map' written

end WellFormed

/-- A setting as it is written. -/
def assignment (key value : List Char) : List Char := key ++ ([' ', '=', ' '] ++ value)

/-- Settings as they are written. -/
def assignments (l : List (String × String)) : List Char :=
  [',', ' '].intercalate (l.map fun p => assignment p.1.toList p.2.toList)

variable {settings : List (String × String)}

theorem assignments_cons_cons (p q : String × String) (l : List (String × String)) :
    assignments (p :: q :: l) =
      assignment p.1.toList p.2.toList ++ [',', ' '] ++ assignments (q :: l) := by
  rw [assignments, List.map_cons, List.map_cons, List.intercalate_cons_cons]
  rfl

theorem notMem_assignments {c : Char} (hc : c ∉ [',', ' ', '='])
    (h : ∀ p ∈ settings, c ∉ p.1.toList ∧ c ∉ p.2.toList) : c ∉ assignments settings := by
  have hassignment : ∀ p ∈ settings, c ∉ assignment p.1.toList p.2.toList := by
    intro p hp
    obtain ⟨hkey, hvalue⟩ := h p hp
    simp only [List.mem_cons, List.not_mem_nil, or_false, not_or] at hc
    simp [assignment, hkey, hvalue, hc]
  induction settings with
  | nil => simp [assignments]
  | cons p l ih =>
    have hp := hassignment p List.mem_cons_self
    have hl := ih (fun q hq => h q (List.mem_cons_of_mem _ hq))
      fun q hq => hassignment q (List.mem_cons_of_mem _ hq)
    cases l with
    | nil => simpa [assignments] using hp
    | cons q l =>
      rw [assignments_cons_cons, List.mem_append, List.mem_append]
      rintro ((hmem | hmem) | hmem)
      · exact hp hmem
      · simp only [List.mem_cons, List.not_mem_nil, or_false] at hmem hc
        exact hc (by tauto)
      · exact hl hmem

/-- Settings with a blank before and after each sign and after each comma. -/
def writtenSettings : List (String × String) → List WrittenSetting
  | [] => []
  | p :: l =>
    { key := p.1, value := p.2 } ::
      l.map fun q => { beforeKey := " ", key := q.1, value := q.2 }

theorem assignments_eq (l : List (String × String)) :
    assignments l = settingList (writtenSettings l) := by
  cases l with
  | nil => rfl
  | cons p l =>
    rw [assignments, List.map_cons, intercalate_comma_blank, settingList, writtenSettings,
      List.map_cons, List.map_map, List.map_map]
    simp [assignment, WrittenSetting.text, WrittenSetting.left, WrittenSetting.right,
      Function.comp_def]

theorem map_pair_writtenSettings (l : List (String × String)) :
    (writtenSettings l).map WrittenSetting.pair = l := by
  cases l with
  | nil => rfl
  | cons p l => simp [writtenSettings, WrittenSetting.pair, Function.comp_def]

theorem wellFormed_writtenSettings (h : ∀ p ∈ settings, IsSetting p.1.toList p.2.toList) :
    ∀ w ∈ writtenSettings settings, w.WellFormed := by
  have hblank : isBlank ' ' = true := by decide
  cases settings with
  | nil => simp [writtenSettings]
  | cons p l =>
    intro w hw
    rcases List.mem_cons.mp hw with rfl | hw
    · exact ⟨by simp [WrittenSetting.gaps, hblank], h p List.mem_cons_self⟩
    · obtain ⟨q, hq, rfl⟩ := List.mem_map.mp hw
      exact ⟨by simp [WrittenSetting.gaps, hblank], h q (List.mem_cons_of_mem _ hq)⟩

theorem trim_assignments_ne_nil (p : String × String) (l : List (String × String)) :
    trim (assignments (p :: l)) ≠ [] :=
  assignments_eq (p :: l) ▸ trim_settingList_ne_nil (by simp [writtenSettings])

theorem balanced_assignments (h : ∀ p ∈ settings, IsSetting p.1.toList p.2.toList) :
    Balanced (assignments settings) :=
  assignments_eq settings ▸ balanced_settingList (wellFormed_writtenSettings h)

theorem passes_assignments (h : ∀ p ∈ settings, IsSetting p.1.toList p.2.toList) (k : Clause) :
    Passes k.keyword.toList [] .start (some ' ') (assignments settings) :=
  assignments_eq settings ▸ passes_settingList (wellFormed_writtenSettings h) k

theorem settingsOf_assignments (h : ∀ p ∈ settings, IsSetting p.1.toList p.2.toList) :
    settingsOf (trim (assignments settings)) = .ofList settings := by
  rw [assignments_eq, settingsOf_settingList (wellFormed_writtenSettings h),
    map_pair_writtenSettings]

/-! ## Assignments -/

/-- A part `key = value`, cut at its first equals sign. -/
def Assigns (part : List Char) (key value : String) : Prop :=
  ∃ left right, part = left ++ '=' :: right ∧ '=' ∉ left ∧
    trim left = key.toList ∧ trim right = value.toList

theorem assignment?_eq_none_iff : assignment? part = none ↔ '=' ∉ part := by
  rw [assignment?]
  split
  · rename_i hnil
    refine ⟨fun _ hmem => ?_, fun _ => rfl⟩
    simpa using List.dropWhile_eq_nil_iff.mp hnil _ hmem
  · rename_i c right hdrop
    refine ⟨fun h => absurd h (by simp), fun h => ?_⟩
    have hall : part.dropWhile (· != '=') = [] :=
      List.dropWhile_eq_nil_iff.mpr fun c hc => bne_iff_ne.mpr fun e => h (e ▸ hc)
    rw [hall] at hdrop
    cases hdrop

theorem assignment?_eq_some_iff :
    assignment? part = some (key, value) ↔ Assigns part key value := by
  constructor
  · intro h
    have hsign : '=' ∈ part := by
      by_contra hnone
      rw [assignment?_eq_none_iff.mpr hnone] at h
      cases h
    obtain ⟨left, right, rfl, hleft⟩ := List.eq_append_cons_of_mem hsign
    rw [assignment?_append hleft] at h
    cases h
    exact ⟨left, right, rfl, hleft, by simp, by simp⟩
  · rintro ⟨left, right, rfl, hleft, hkey, hvalue⟩
    rw [assignment?_append hleft, hkey, hvalue, String.ofList_toList, String.ofList_toList]

/-- Of the parts that assign to `key`, the last one assigns `value`. -/
def LastAssigned (parts : List (List Char)) (key value : String) : Prop :=
  ∃ earlier part later, parts = earlier ++ part :: later ∧ Assigns part key value ∧
    ∀ p ∈ later, ∀ v, ¬Assigns p key v

theorem lastAssigned_concat : LastAssigned (parts ++ [part]) key value ↔
    Assigns part key value ∨ (∀ v, ¬Assigns part key v) ∧ LastAssigned parts key value := by
  constructor
  · rintro ⟨earlier, p, later, hsplit, hp, hlater⟩
    rcases List.eq_nil_or_concat' later with rfl | ⟨later, q, rfl⟩
    · obtain ⟨-, hlast⟩ := List.append_inj' hsplit rfl
      cases hlast
      exact .inl hp
    · rw [← List.cons_append, ← List.append_assoc] at hsplit
      obtain ⟨rfl, hlast⟩ := List.append_inj' hsplit rfl
      cases hlast
      exact .inr ⟨hlater part (by simp), earlier, p, later, rfl, hp,
        fun r hr => hlater r (List.mem_append_left _ hr)⟩
  · rintro (hp | ⟨hnone, earlier, p, later, rfl, hp, hlater⟩)
    · exact ⟨parts, part, [], rfl, hp, by simp⟩
    · refine ⟨earlier, p, later ++ [part], by simp, hp, fun q hq v => ?_⟩
      rcases List.mem_append.mp hq with hq | hq
      · exact hlater q hq v
      · exact List.mem_singleton.mp hq ▸ hnone v

theorem get?_ofList_assignments (parts : List (List Char)) :
    (Keyed.ofList (parts.filterMap assignment?)).get? key = some value ↔
      LastAssigned parts key value := by
  induction parts using List.reverseRecOn with
  | nil => simp [LastAssigned, Keyed.ofList]
  | append_singleton parts part ih =>
    rw [lastAssigned_concat, ← ih, List.filterMap_append]
    simp only [← assignment?_eq_some_iff]
    cases hpart : assignment? part with
    | none => simp [hpart]
    | some p =>
      obtain ⟨k, v⟩ := p
      have hlast : [part].filterMap assignment? = [(k, v)] := by simp [hpart]
      rw [hlast, Keyed.ofList_concat, Keyed.get?_insert]
      by_cases hk : k = key <;> simp [hk]

/-- **The reader gives a key the last value that a part of the list assigns to it.** -/
theorem get?_settingsOf (h : CommaParts cs parts) :
    (settingsOf cs).get? key = some value ↔ LastAssigned parts key value := by
  have htrim : (splitPieces cs).filterMap assignment? = parts.filterMap assignment? := by
    rw [splitPieces, h.pieces_eq, List.filterMap_map]
    exact List.filterMap_congr fun part _ => assignment?_trim part
  rw [settingsOf, htrim, get?_ofList_assignments]

/-- The settings of a text are those of its list of settings. -/
theorem get?_settings_iff {text : String} : (clauses text).settings.get? key = some value ↔
    ∃ body, clauseBody? .settings text.toList = some body ∧
      ∃ parts, CommaParts body parts ∧ LastAssigned parts key value := by
  rw [clauses]
  cases hbody : clauseBody? .settings text.toList with
  | none => simp
  | some body =>
    obtain ⟨parts, hparts⟩ := exists_commaParts body
    simp only [get?_settingsOf hparts, Option.some.injEq, exists_eq_left']
    refine ⟨fun h => ⟨parts, hparts, h⟩, fun ⟨parts', hparts', h⟩ => ?_⟩
    rwa [← hparts.pieces_eq, hparts'.pieces_eq]

end SchemaPlan.Sql
