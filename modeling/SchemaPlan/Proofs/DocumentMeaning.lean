import SchemaPlan.Document.Encode
import SchemaPlan.Document.Record
import SchemaPlan.Document.TextFormat
import SchemaPlan.Proofs.KeyedLaws

/-!
# What documents mean

A document that was written may be found again in another form: a text or a number without quotes,
a list that could as well be a record. All forms mean the same, and readers take any of them.

* `Document.meant`: what a document means; documents can be compared.
* `Restores`: a reader gives back what was written; `restores_text`, `restores_listOf`,
  `restores_mapOf`: the readers of values, lists and maps do.
* `Fields.Holds`: the fields that were collected from a record are those that were written;
  `restores_record`: a reader of records restores what the reader of its fields does.
* `TextFormat.Preserves`: what is needed of a format of texts; `TextFormat.decode_write`: what is
  read from a text that was written.
-/

namespace SchemaPlan

/-! ## Forms of a document -/

/-- What a scalar means: a plain one is what it looks like. -/
def Scalar.meant : Scalar → Scalar
  | .plain s => .ofPlain s
  | s => s

namespace Document

mutual

/-- What a document means. -/
def meant : Document → Document
  | .scalar s => .scalar s.meant
  | .list items => .list (meantItems items)
  | .tuple items => .list (meantItems items)
  | .mapping entries => .mapping (meantEntries entries)
  | .nothing => .nothing
  | .unread cause => .unread cause

/-- The meanings of the items of a list. -/
def meantItems : List Document → List Document
  | [] => []
  | item :: rest => meant item :: meantItems rest

/-- The meanings of the keys and values of a mapping. -/
def meantEntries : List (Document × Document) → List (Document × Document)
  | [] => []
  | (key, value) :: rest => (meant key, meant value) :: meantEntries rest

end

theorem meantItems_eq (items : List Document) : meantItems items = items.map meant := by
  induction items with
  | nil => rfl
  | cons item rest ih => rw [meantItems, ih, List.map_cons]

theorem meantEntries_eq (entries : List (Document × Document)) :
    meantEntries entries = entries.map (Prod.map meant meant) := by
  induction entries with
  | nil => rfl
  | cons entry rest ih =>
    rw [meantEntries, ih, List.map_cons]
    rfl

mutual

/-- Two documents are the same. -/
def same : Document → Document → Bool
  | .scalar s, .scalar t => s == t
  | .list items, .list others => sameItems items others
  | .tuple items, .tuple others => sameItems items others
  | .mapping entries, .mapping others => sameEntries entries others
  | .nothing, .nothing => true
  | .unread cause, .unread other => cause == other
  | _, _ => false

/-- Two lists agree item by item. -/
def sameItems : List Document → List Document → Bool
  | [], [] => true
  | item :: rest, other :: others => same item other && sameItems rest others
  | _, _ => false

/-- Two mappings agree entry by entry, in their order. -/
def sameEntries : List (Document × Document) → List (Document × Document) → Bool
  | [], [] => true
  | (key, value) :: rest, (key', value') :: others =>
    same key key' && same value value' && sameEntries rest others
  | _, _ => false

end

mutual

theorem same_iff : ∀ d e : Document, same d e = true ↔ d = e
  | .scalar s, e => by cases e <;> simp [same]
  | .list items, e => by cases e <;> simp [same, sameItems_iff items]
  | .tuple items, e => by cases e <;> simp [same, sameItems_iff items]
  | .mapping entries, e => by cases e <;> simp [same, sameEntries_iff entries]
  | .nothing, e => by cases e <;> simp [same]
  | .unread cause, e => by cases e <;> simp [same]

theorem sameItems_iff : ∀ l m : List Document, sameItems l m = true ↔ l = m
  | [], m => by cases m <;> simp [sameItems]
  | item :: rest, m => by cases m <;> simp [sameItems, same_iff item, sameItems_iff rest]

theorem sameEntries_iff : ∀ l m : List (Document × Document), sameEntries l m = true ↔ l = m
  | [], m => by cases m <;> simp [sameEntries]
  | (key, value) :: rest, m => by
    cases m <;> simp [sameEntries, same_iff key, same_iff value, sameEntries_iff rest, Prod.ext_iff]

end

instance : DecidableEq Document := fun d e => decidable_of_iff _ (same_iff d e)
end Document

theorem Scalar.eq_of_ofPlain {p s : String} (h : Scalar.ofPlain p = .text s) : p = s := by
  unfold ofPlain at h
  split_ifs at h with habsent
  dsimp only at h
  split at h
  all_goals try cases h
  split_ifs at h
  injection h

theorem Scalar.unsigned_of_ofPlain {p : String} {n : Nat} (h : Scalar.ofPlain p = .natural n) :
    Plain.unsignedOf? (Nat.pow 2 64) p.toList = some n := by
  unfold ofPlain at h
  split_ifs at h with habsent
  dsimp only at h
  split at h
  · cases h
  · rename_i hn
    injection h with h
    rw [hn, h]
  · cases h
  · cases h
  · split_ifs at h

theorem Scalar.not_absent_of_ofPlain {p s : String} (h : Scalar.ofPlain p = .text s) :
    (p.isEmpty || Plain.nullWords.contains p) = false := by
  unfold ofPlain at h
  split_ifs at h with habsent
  exact eq_false_of_ne_true habsent

namespace Document

variable {d : Document}

/-- The forms in which a text can be found. -/
theorem text_of_meant {s : String} (h : d.meant = ofText s) :
    d = .scalar (.text s) ∨ d = .scalar (.plain s) ∧ Scalar.ofPlain s = .text s := by
  cases d with
  | scalar found =>
    rw [meant, ofText, Document.scalar.injEq] at h
    cases found with
    | plain p =>
      have hplain : Scalar.ofPlain p = .text s := h
      have hp := Scalar.eq_of_ofPlain hplain
      exact .inr ⟨hp ▸ rfl, hp ▸ hplain⟩
    | text p => exact .inl (congrArg _ h)
    | _ => cases h
  | _ => cases h

theorem natural_of_meant {n : Nat} (h : d.meant = ofNat n) :
    d = .scalar (.natural n) ∨
      ∃ p, d = .scalar (.plain p) ∧ Plain.unsignedOf? (Nat.pow 2 64) p.toList = some n := by
  cases d with
  | scalar found =>
    rw [meant, ofNat, Document.scalar.injEq] at h
    cases found with
    | plain p => exact .inr ⟨p, rfl, Scalar.unsigned_of_ofPlain h⟩
    | natural m => exact .inl (congrArg _ h)
    | _ => cases h
  | _ => cases h

theorem list_of_meant {items : List Document} (h : d.meant = .list items) :
    ∃ found, (d = .list found ∨ d = .tuple found) ∧ found.map meant = items := by
  cases d with
  | list found =>
    rw [meant, meantItems_eq, Document.list.injEq] at h
    exact ⟨found, .inl rfl, h⟩
  | tuple found =>
    rw [meant, meantItems_eq, Document.list.injEq] at h
    exact ⟨found, .inr rfl, h⟩
  | _ => cases h

theorem mapping_of_meant {entries : List (Document × Document)} (h : d.meant = .mapping entries) :
    ∃ found, d = .mapping found ∧ found.map (Prod.map meant meant) = entries := by
  cases d with
  | mapping found =>
    rw [meant, meantEntries_eq, Document.mapping.injEq] at h
    exact ⟨found, rfl, h⟩
  | _ => cases h

end Document

/-! ## Values, lists and maps -/

open Document

/-- A reader gives back what was written, in whatever form it is found. -/
def Restores {α : Type} (encode : α → Document) (decode : Decoder α) : Prop :=
  ∀ x d, d.meant = encode x → decode d = .ok x

section Values

variable {α : Type} {encode : α → Document} {decode : Decoder α} {d : Document}

theorem textAs_of_meant {s : String} (h : d.meant = ofText s) (wanted : String) :
    textAs wanted d = .ok s := by
  rcases text_of_meant h with rfl | ⟨rfl, _⟩ <;> rfl

theorem restores_text : Restores ofText text := fun _ _ h => textAs_of_meant h _

/-- A text is not absent, even if it has no characters. -/
theorem not_absent_of_meant {s : String} (h : d.meant = ofText s) : d.isAbsent = false := by
  rcases text_of_meant h with rfl | ⟨rfl, hplain⟩
  · rfl
  · exact Scalar.not_absent_of_ofPlain hplain

theorem natural_of_meant_of_lt {n bound : Nat} (h : d.meant = ofNat n) (hn : n < bound)
    (wanted : String) : natural bound wanted d = .ok n := by
  have hcheck : checkBound bound wanted n = .ok n := if_pos hn
  rcases natural_of_meant h with rfl | ⟨p, rfl, hp⟩
  · exact hcheck
  · rw [natural, hp]
    exact hcheck

theorem items_of_meant {items : List Document} (h : d.meant = .list items) :
    ∃ found, d.items = .ok found ∧ found.map meant = items := by
  obtain ⟨found, rfl | rfl, hfound⟩ := list_of_meant h
  · exact ⟨found, rfl, hfound⟩
  · exact ⟨found, rfl, hfound⟩

theorem decodeItems_of_meant (hdecode : Restores encode decode) (l : List α) (i : Nat)
    {found : List Document} (h : found.map meant = l.map encode) :
    decodeItems decode i found = .ok l := by
  induction l generalizing i found with
  | nil =>
    rw [List.map_nil, List.map_eq_nil_iff] at h
    rw [h]
    rfl
  | cons x l ih =>
    obtain ⟨d, rest, rfl, hd, hrest⟩ := List.map_eq_cons_iff.mp h
    rw [decodeItems, hdecode x d hd, ih (i + 1) hrest]
    rfl

theorem restores_listOf (hdecode : Restores encode decode) :
    Restores (fun l : List α => .list (l.map encode)) (listOf decode) := by
  intro l d h
  obtain ⟨found, hitems, hfound⟩ := items_of_meant h
  rw [listOf, hitems]
  exact decodeItems_of_meant hdecode l 0 hfound

theorem decodeEntries_of_meant (hdecode : Restores encode decode) (l : List (String × α)) (i : Nat)
    {found : List (Document × Document)}
    (h : found.map (Prod.map meant meant) = l.map (Prod.map ofText encode)) :
    decodeEntries decode i found = .ok l := by
  induction l generalizing i found with
  | nil =>
    rw [List.map_nil, List.map_eq_nil_iff] at h
    rw [h]
    rfl
  | cons p l ih =>
    obtain ⟨⟨key, value⟩, rest, rfl, hentry, hrest⟩ := List.map_eq_cons_iff.mp h
    obtain ⟨hkey, hvalue⟩ := Prod.mk.inj hentry
    rw [decodeEntries, restores_text _ _ hkey, hdecode _ _ hvalue, ih (i + 1) hrest]
    rfl

theorem restores_mapOf (hdecode : Restores encode decode) :
    Restores (fun m : Keyed α => .mapping (m.pairs.map (Prod.map ofText encode)))
      (mapOf decode) := by
  intro m d h
  obtain ⟨found, rfl, hfound⟩ := mapping_of_meant h
  have hentries : (Document.mapping found).entries "a map" = .ok found := rfl
  rw [mapOf, hentries]
  change (do return Keyed.ofList (← decodeEntries decode 0 found)) = _
  rw [decodeEntries_of_meant hdecode m.pairs 0 hfound]
  exact congrArg Except.ok m.ofList_pairs

end Values

/-! ## What is written of a record -/

/-- The name that a written key gives to its field. -/
def keyName? : Document → Option String
  | .scalar (.text s) => some s
  | _ => none

/-- The value that is written under a name. -/
def value? (name : String) (entries : List (Document × Document)) : Option Document :=
  (entries.find? fun entry => keyName? entry.1 = some name).map (·.2)

/-- The keys of some entries are among these names, in their order. -/
def HasKeys (names : List String) (entries : List (Document × Document)) : Prop :=
  ∃ present : List String, present.Sublist names ∧ entries.map (·.1) = present.map ofText

section Entries

variable {α : Type} {name other : String} {names more : List String}
  {entries rest : List (Document × Document)} {encode : α → Document}

theorem value?_cons (name other : String) (d : Document) (rest : List (Document × Document)) :
    value? name ((ofText other, d) :: rest) =
      if other = name then some d else value? name rest := by
  unfold value?
  split_ifs with h
  · rw [List.find?_cons_of_pos (by simp [keyName?, ofText, h])]
    rfl
  · rw [List.find?_cons_of_neg (by simp [keyName?, ofText, h])]

@[simp]
theorem value?_nil (name : String) : value? name [] = none := rfl

@[simp]
theorem value?_append (name : String) (entries rest : List (Document × Document)) :
    value? name (entries ++ rest) = (value? name entries).or (value? name rest) := by
  rw [value?, List.find?_append, Option.map_or, value?, value?]

@[simp]
theorem value?_entry (name other : String) (d : Document) :
    value? name (entry other d) = if other = name then some d else none :=
  value?_cons name other d []

@[simp]
theorem value?_textEntry (name other s : String) :
    value? name (textEntry other s) = if other = name then some (ofText s) else none :=
  value?_entry name other _

@[simp]
theorem value?_optionEntry (name other : String) (s : Option String) :
    value? name (optionEntry other s) = if other = name then s.map ofText else none := by
  cases s with
  | none => simp [optionEntry]
  | some s => simp [optionEntry]

@[simp]
theorem value?_listEntry (name other : String) (encode : α → Document) (l : List α) :
    value? name (listEntry other encode l) =
      if other = name then some (.list (l.map encode)) else none :=
  value?_entry name other _

@[simp]
theorem value?_shownList (name other : String) (encode : α → Document) (l : List α) :
    value? name (shownList other encode l) =
      if other = name then if l.isEmpty then none else some (.list (l.map encode)) else none := by
  unfold shownList
  cases h : l.isEmpty <;> simp

@[simp]
theorem value?_shownMap (name other : String) (m : Keyed String) :
    value? name (shownMap other m) =
      if other = name then
        if m.isEmpty then none else some (.mapping (m.pairs.map (Prod.map ofText ofText)))
      else none := by
  unfold shownMap
  cases h : m.isEmpty
  · simp
    rfl
  · simp

namespace HasKeys

theorem append (h : HasKeys names entries) (h' : HasKeys more rest) :
    HasKeys (names ++ more) (entries ++ rest) := by
  obtain ⟨present, hsub, hkeys⟩ := h
  obtain ⟨present', hsub', hkeys'⟩ := h'
  exact ⟨present ++ present', hsub.append hsub', by simp [hkeys, hkeys']⟩

theorem nil (names : List String) : HasKeys names [] := ⟨[], List.nil_sublist _, rfl⟩

theorem entry (name : String) (d : Document) : HasKeys [name] (Document.entry name d) :=
  ⟨[name], List.Sublist.refl _, rfl⟩

theorem text (name s : String) : HasKeys [name] (textEntry name s) := .entry name _

theorem option (name : String) (s : Option String) : HasKeys [name] (optionEntry name s) := by
  cases s with
  | none => exact .nil _
  | some s => exact .text name s

theorem list (name : String) (encode : α → Document) (l : List α) :
    HasKeys [name] (listEntry name encode l) :=
  .entry name _

theorem shownList (name : String) (encode : α → Document) (l : List α) :
    HasKeys [name] (Document.shownList name encode l) := by
  unfold Document.shownList
  split_ifs
  · exact .nil _
  · exact .list name encode l

theorem shownMap (name : String) (m : Keyed String) :
    HasKeys [name] (Document.shownMap name m) := by
  unfold Document.shownMap
  split_ifs
  · exact .nil _
  · exact .entry name _

end HasKeys

end Entries

/-! ## Fields that were collected -/

namespace Fields

/-- The fields are those that were written. -/
def Holds (fs : Fields) (entries : List (Document × Document)) : Prop :=
  ∀ name, (fs.get? name).map (·.value.meant) = value? name entries

namespace Holds

variable {α : Type} {fs : Fields} {entries : List (Document × Document)} {name : String}
  {encode : α → Document} {decode : Decoder α} {x : α}

theorem exists_field (h : fs.Holds entries) {d : Document} (hvalue : value? name entries = some d) :
    ∃ f, fs.get? name = some f ∧ f.value.meant = d := by
  rw [← h name, Option.map_eq_some_iff] at hvalue
  exact hvalue

theorem get?_eq_none (h : fs.Holds entries) (hvalue : value? name entries = none) :
    fs.get? name = none := by
  rwa [← h name, Option.map_eq_none_iff] at hvalue

theorem read_eq (hdecode : Restores encode decode) {f : Field} (hf : f.value.meant = encode x) :
    read decode f = .ok x := by
  rw [read, hdecode x f.value hf]
  rfl

theorem required (h : fs.Holds entries) (name : String) (x : α) (hdecode : Restores encode decode)
    (hvalue : value? name entries = some (encode x)) : fs.required name decode = .ok x := by
  obtain ⟨f, hf, hmeant⟩ := h.exists_field hvalue
  rw [Fields.required, hf]
  exact read_eq hdecode hmeant

theorem withDefault (h : fs.Holds entries) (name : String) (x : α)
    (hdecode : Restores encode decode)
    (hvalue : value? name entries = some (encode x)) (fallback : α) :
    fs.withDefault name decode fallback = .ok x := by
  obtain ⟨f, hf, hmeant⟩ := h.exists_field hvalue
  rw [Fields.withDefault, hf]
  exact read_eq hdecode hmeant

theorem withDefault_of_none (h : fs.Holds entries) (hvalue : value? name entries = none)
    (decode : Decoder α) (fallback : α) : fs.withDefault name decode fallback = .ok fallback := by
  rw [Fields.withDefault, h.get?_eq_none hvalue]

/-- **An absent text is absent again**, and one without characters is not. -/
theorem optional (h : fs.Holds entries) (name : String) (s : Option String)
    (hvalue : value? name entries = s.map ofText) : fs.optional name Document.text = .ok s := by
  cases s with
  | none => exact h.withDefault_of_none hvalue _ _
  | some s =>
    obtain ⟨f, hf, hmeant⟩ := h.exists_field hvalue
    rw [Fields.optional, Fields.withDefault, hf]
    simp only [read, optionOf, not_absent_of_meant hmeant, restores_text s f.value hmeant]
    rfl

theorem shownList (h : fs.Holds entries) (name : String) (l : List α)
    (hdecode : Restores encode decode)
    (hvalue : value? name entries = if l.isEmpty then none else some (.list (l.map encode))) :
    fs.withDefault name (listOf decode) [] = .ok l := by
  cases l with
  | nil => exact h.withDefault_of_none hvalue _ _
  | cons x l => exact h.withDefault name (x :: l) (restores_listOf hdecode) hvalue _

theorem shownMap (h : fs.Holds entries) (name : String) (m : Keyed String)
    (hvalue : value? name entries =
      if m.isEmpty then none else some (.mapping (m.pairs.map (Prod.map ofText ofText)))) :
    fs.withDefault name (mapOf Document.text) .empty = .ok m := by
  cases hempty : m.isEmpty with
  | true =>
    rw [hempty, if_pos rfl] at hvalue
    rw [h.withDefault_of_none hvalue]
    obtain ⟨pairs, _⟩ := m
    cases List.isEmpty_iff.mp hempty
    rfl
  | false =>
    rw [hempty, if_neg (by simp)] at hvalue
    exact h.withDefault name m (restores_mapOf restores_text) hvalue _

end Holds

end Fields

/-! ## Records -/

section Records

variable {nameOf : KeyReader}

/-- The fields of a record are collected, if all keys are names of the record and none comes
twice. -/
theorem collectFields_holds (shape : RecordShape) {found : List (Document × Document)}
    {present : List String}
    (hkeys : List.Forall₂ (fun entry name => entry.1.meant = ofText name ∧
      nameOf entry.1 = .ok name) found present)
    (hmem : present ⊆ shape.names) (hnodup : present.Nodup) {seen : List String}
    (hseen : present.Disjoint seen) (i : Nat) :
    ∃ fs : Fields, collectFields shape nameOf seen i found = (fs, .ok ()) ∧
      fs.Holds (found.map (Prod.map meant meant)) := by
  induction hkeys generalizing seen i with
  | nil => exact ⟨[], rfl, fun name => rfl⟩
  | @cons entry name found present hentry hkeys ih =>
    obtain ⟨key, value⟩ := entry
    obtain ⟨hmeant, hname⟩ := hentry
    rw [List.cons_subset] at hmem
    rw [List.nodup_cons] at hnodup
    rw [List.disjoint_cons_left] at hseen
    obtain ⟨fs, hfs, hholds⟩ := ih hmem.2 hnodup.2
      (List.disjoint_cons_right.mpr ⟨hnodup.1, hseen.2⟩) (i + 1)
    refine ⟨⟨name, value, .value i, 2 * i + 1⟩ :: fs, ?_, fun wanted => ?_⟩
    · rw [collectFields, hname]
      simp only [within, Except.mapError, if_pos hmem.1, if_neg hseen.1, hfs]
    · have hentry : Prod.map meant meant (key, value) = (ofText name, value.meant) :=
        Prod.ext hmeant rfl
      rw [List.map_cons, hentry, value?_cons, ← hholds wanted]
      unfold Fields.get?
      split_ifs with h
      · rw [List.find?_cons_of_pos (by simpa using h)]
        rfl
      · rw [List.find?_cons_of_neg (by simpa using h)]

theorem build_of_read {α : Type} {read : Fields → Gathered α} {fs : Fields} {x : α}
    (h : read fs = .ok x) : build read (fs, .ok ()) = .ok x := by
  rw [build, h]
  rfl

theorem record_of_meant {α : Type} {shape : RecordShape} {read : Fields → Gathered α} {x : α}
    {entries : List (Document × Document)} (hkeys : HasKeys shape.names entries)
    (hnodup : shape.names.Nodup) (hread : ∀ fs : Fields, fs.Holds entries → read fs = .ok x)
    {d : Document} (h : d.meant = .mapping entries) : record shape read d = .ok x := by
  obtain ⟨found, rfl, hfound⟩ := mapping_of_meant h
  obtain ⟨present, hsub, hpresent⟩ := hkeys
  have hforall : List.Forall₂ (fun entry name => entry.1.meant = ofText name ∧
      textAs "field identifier" entry.1 = .ok name) found present := by
    rw [← hfound, List.map_map, ← List.forall₂_eq_eq_eq, List.forall₂_map_left_iff,
      List.forall₂_map_right_iff] at hpresent
    exact hpresent.imp fun entry name hentry => ⟨hentry, textAs_of_meant hentry _⟩
  obtain ⟨fs, hfs, hholds⟩ := collectFields_holds shape hforall hsub.subset
    (hnodup.sublist hsub) (List.disjoint_nil_right _) 0
  change build read (collectFields shape (textAs "field identifier") [] 0 found) = _
  rw [hfs, build_of_read (hread fs (hfound ▸ hholds))]

/-- **A reader of records gives back what was written**, if the reader of the fields does. -/
theorem restores_record {α : Type} {shape : RecordShape} {read : Fields → Gathered α}
    {entries : α → List (Document × Document)} (hkeys : ∀ x, HasKeys shape.names (entries x))
    (hnodup : shape.names.Nodup)
    (hread : ∀ x (fs : Fields), fs.Holds (entries x) → read fs = .ok x) :
    Restores (fun x => .mapping (entries x)) (record shape read) :=
  fun x _ h => record_of_meant (hkeys x) hnodup (hread x) h

end Records

/-! ## Texts -/

namespace TextFormat

/-- A document that is written as a text is found in this text, in one of its forms. -/
structure Preserves (format : TextFormat) (d : Document) : Prop where
  fault : (format.read (format.write d)).fault = none
  meant : (format.read (format.write d)).document.meant = d

instance (format : TextFormat) (d : Document) : Decidable (format.Preserves d) :=
  decidable_of_iff ((format.read (format.write d)).fault = none ∧
    (format.read (format.write d)).document.meant = d)
    ⟨fun h => ⟨h.1, h.2⟩, fun h => ⟨h.fault, h.meant⟩⟩

/-- **What was written is read**, if the text preserves it and the reader of its document restores
it. -/
theorem decode_write {α : Type} {format : TextFormat} {encode : α → Document} {decode : Decoder α}
    {x : α} (h : format.Preserves (encode x)) (hdecode : Restores encode decode) :
    format.decode decode (format.write (encode x)) = .ok x := by
  rw [TextFormat.decode, h.fault, hdecode x _ h.meant]

end TextFormat

end SchemaPlan
