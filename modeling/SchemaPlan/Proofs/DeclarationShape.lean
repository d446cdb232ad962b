import SchemaPlan.Proofs.ArgumentLists
import SchemaPlan.Proofs.EngineRoundTrip

/-!
# The shape of a declaration

A declaration is whole if it is the name of an engine alone or followed by one argument list. What
is read as a declaration need not be whole: the name is compared with the start of the text, the
list is looked for between the first `(` and the last `)`, and the rest of the text is not read.

* `WholeDeclaration`: the whole declarations, with `ClosesAtEnd` for the list.
* `ListShape`, `Shaped`: the four ways in which text follows a name; every text has one of them
  (`exists_shaped`), and two of them are whole (`Shaped.isWhole_iff`).
* `Engine.wholeDeclaration_render`: what is rendered is whole.
* **`Engine.parse_eq_ok_iff_shaped`**: what is accepted, with which arguments, and when it is
  whole.
-/

namespace SchemaPlan

open Sql

/-- A parenthesis opened before `inner` is still open after each part of it and is closed by a `)`
behind it. -/
structure ClosesAtEnd (inner : List Char) : Prop where
  opened : ∀ part ∈ inner.inits, ((ScanState.mk .code 1).run part).depth ≠ 0
  closed : (ScanState.mk .code 1).run inner = ⟨.code, 1⟩

instance (inner : List Char) : Decidable (ClosesAtEnd inner) :=
  decidable_of_iff ((∀ part ∈ inner.inits, ((ScanState.mk .code 1).run part).depth ≠ 0) ∧
      (ScanState.mk .code 1).run inner = ⟨.code, 1⟩)
    ⟨fun ⟨hopen, hclosed⟩ => ⟨hopen, hclosed⟩, fun h => ⟨h.opened, h.closed⟩⟩

theorem closesAtEnd_of_balanced {inner : List Char} (h : Balanced inner) : ClosesAtEnd inner where
  opened part hpart := by
    obtain ⟨rest, rfl⟩ := (List.mem_inits part inner).mp hpart
    have hdeeper : ScanState.start.deeper.run (part ++ rest) =
        (ScanState.start.run (part ++ rest)).deeper := by
      rw [h.run_start]
      exact h 1
    change (ScanState.start.deeper.run part).depth ≠ 0
    rw [ScanState.run_deeper_of_append hdeeper]
    exact Nat.succ_ne_zero _
  closed := h 1

/-- Nothing, or one argument list after blanks. -/
def WholeList (rest : List Char) : Prop :=
  rest = [] ∨ ∃ gap inner, rest = gap ++ '(' :: (inner ++ [')']) ∧
    (∀ b ∈ gap, isBlank b = true) ∧ ClosesAtEnd inner

/-- The name of a supported engine, alone or with one argument list. -/
def WholeDeclaration (declaration : String) : Prop :=
  ∃ (f : EngineFamily) (rest : List Char),
    declaration.toList = f.name.toList ++ rest ∧ WholeList rest

theorem wholeList_iff {rest : List Char} : WholeList rest ↔
    rest = [] ∨ ∃ inner ∈ between? '(' ')' (trimStart rest), ClosesAtEnd inner := by
  refine or_congr_right ⟨?_, ?_⟩
  · rintro ⟨gap, inner, rfl, hgap, hinner⟩
    refine ⟨inner, ?_, hinner⟩
    rw [trimStart, List.dropWhile_append_of_pos hgap, List.dropWhile_cons_of_neg (by decide),
      between?_append]
    rfl
  · rintro ⟨inner, hbetween, hinner⟩
    refine ⟨rest.takeWhile isBlank, inner, ?_, fun b hb => List.mem_takeWhile_imp hb, hinner⟩
    rw [← between?_eq_some_iff.mp hbetween, trimStart, List.takeWhile_append_dropWhile]

instance (rest : List Char) : Decidable (WholeList rest) :=
  decidable_of_iff (rest = [] ∨ ∃ inner ∈ between? '(' ')' (trimStart rest), ClosesAtEnd inner)
    wholeList_iff.symm

theorem wholeDeclaration_iff_exists_mem {declaration : String} : WholeDeclaration declaration ↔
    ∃ f ∈ EngineFamily.all, ∃ rest ∈ f.name.toList.isPrefixOf? declaration.toList,
      WholeList rest := by
  constructor
  · rintro ⟨f, rest, h, hrest⟩
    exact ⟨f, f.mem_all, rest, List.isPrefixOf?_eq_some_iff_append_eq.mpr h.symm, hrest⟩
  · rintro ⟨f, -, rest, h, hrest⟩
    exact ⟨f, rest, (List.isPrefixOf?_eq_some_iff_append_eq.mp h).symm, hrest⟩

instance (declaration : String) : Decidable (WholeDeclaration declaration) :=
  decidable_of_iff (∃ f ∈ EngineFamily.all,
      ∃ rest ∈ f.name.toList.isPrefixOf? declaration.toList, WholeList rest)
    wholeDeclaration_iff_exists_mem.symm

/-- How an argument list stands in the text after a name. -/
inductive ListShape
  /-- There is no text. -/
  | alone
  /-- The text is one list. -/
  | whole (inner : List Char)
  /-- No `(` stands before a `)`, though there is text. -/
  | unlisted
  /-- There is more text than one list, or the parentheses do not belong together. -/
  | loose (inner : List Char)

namespace ListShape

/-- The declaration is a name alone, or a name with one list. -/
def IsWhole : ListShape → Prop
  | alone | whole _ => True
  | unlisted | loose _ => False

/-- The arguments that are read. -/
def arguments : ListShape → List String
  | alone | unlisted => []
  | whole inner | loose inner => argumentValues inner

end ListShape

/-- The text `rest` after a name has a shape. -/
inductive Shaped : List Char → ListShape → Prop
  | alone : Shaped [] .alone
  | whole {gap inner : List Char} (hgap : ∀ b ∈ gap, isBlank b = true)
      (hinner : ClosesAtEnd inner) : Shaped (gap ++ '(' :: (inner ++ [')'])) (.whole inner)
  | unlisted {rest : List Char} (hne : rest ≠ []) (hlist : ¬['(', ')'].Sublist rest) :
      Shaped rest .unlisted
  | loose {before inner after : List Char} (hbefore : '(' ∉ before) (hafter : ')' ∉ after)
      (hloose : ¬((∀ b ∈ before, isBlank b = true) ∧ after = [] ∧ ClosesAtEnd inner)) :
      Shaped (before ++ '(' :: (inner ++ ')' :: after)) (.loose inner)

theorem takeWhile_append_mark {before rest : List Char} (h : '(' ∉ before) :
    (before ++ '(' :: rest).takeWhile (· != '(') = before := by
  rw [List.takeWhile_append_of_pos fun c hc => by simpa using fun e : c = '(' => h (e ▸ hc),
    List.takeWhile_cons_of_neg (by simp), List.append_nil]

namespace Shaped

variable {rest : List Char} {shape : ListShape}

theorem parenthesized?_eq (h : Shaped rest shape) : parenthesized? rest =
    match shape with
    | .alone | .unlisted => none
    | .whole inner | .loose inner => some inner := by
  cases h with
  | alone => rfl
  | whole hgap _ =>
    exact parenthesized?_append fun hmem => absurd (hgap _ hmem) (by decide)
  | unlisted _ hlist => exact parenthesized?_eq_none_iff.mpr hlist
  | loose hbefore hafter _ => exact parenthesized?_eq_some_iff.mpr ⟨_, _, rfl, hbefore, hafter⟩

theorem isWhole_iff (h : Shaped rest shape) : WholeList rest ↔ shape.IsWhole := by
  cases h with
  | alone => exact iff_of_true (.inl rfl) trivial
  | whole hgap hinner => exact iff_of_true (.inr ⟨_, _, rfl, hgap, hinner⟩) trivial
  | unlisted hne hlist =>
    refine iff_of_false ?_ id
    rintro (rfl | ⟨gap, inner, rfl, -, -⟩)
    · exact hne rfl
    · exact hlist (by simp)
  | @loose before inner after hbefore hafter hloose =>
    refine iff_of_false ?_ id
    rintro (hnil | ⟨gap, inner', e, hgap, hinner'⟩)
    · simp at hnil
    -- both lists stand between the first `(` and the last `)`
    have hmark : '(' ∉ gap := fun hmem => absurd (hgap _ hmem) (by decide)
    have hinner : parenthesized? (before ++ '(' :: (inner ++ ')' :: after)) = some inner :=
      parenthesized?_eq_some_iff.mpr ⟨before, after, rfl, hbefore, hafter⟩
    rw [e, parenthesized?_append hmark, Option.some.injEq] at hinner
    have hgap' : before = gap := by
      have h := congrArg (List.takeWhile (· != '(')) e
      rwa [takeWhile_append_mark hbefore, takeWhile_append_mark hmark] at h
    subst hinner hgap'
    have hafter : ')' :: after = [')'] := by simpa using e
    exact hloose ⟨hgap, (List.cons.inj hafter).2, hinner'⟩

end Shaped

theorem exists_shaped (rest : List Char) : ∃ shape, Shaped rest shape := by
  cases hlist : parenthesized? rest with
  | none =>
    rcases eq_or_ne rest [] with rfl | hne
    · exact ⟨_, .alone⟩
    · exact ⟨_, .unlisted hne (parenthesized?_eq_none_iff.mp hlist)⟩
  | some inner =>
    obtain ⟨before, after, rfl, hbefore, hafter⟩ := parenthesized?_eq_some_iff.mp hlist
    by_cases hwhole : (∀ b ∈ before, isBlank b = true) ∧ after = [] ∧ ClosesAtEnd inner
    · obtain ⟨hgap, rfl, hinner⟩ := hwhole
      exact ⟨_, .whole hgap hinner⟩
    · exact ⟨_, .loose hbefore hafter hwhole⟩

/-! ## Declarations -/

namespace EngineFamily

/-- A declaration names a family if its name ends before a parenthesis, a blank or the end. -/
theorem ofDeclaration?_eq_some_iff_append {f : EngineFamily} {declaration : String} :
    ofDeclaration? declaration = some f ↔ ∃ rest, declaration.toList = f.name.toList ++ rest ∧
      rest.head?.all endsName = true := by
  rw [ofDeclaration?_eq_some_iff, ← isDeclaredBy_iff, isDeclaredBy]
  cases hname : f.name.toList.isPrefixOf? declaration.toList with
  | none =>
    refine iff_of_false (by simp) fun ⟨rest, e, _⟩ => ?_
    rw [List.isPrefixOf?_eq_some_iff_append_eq.mpr e.symm] at hname
    cases hname
  | some rest =>
    have e := List.isPrefixOf?_eq_some_iff_append_eq.mp hname
    refine ⟨fun h => ⟨rest, e.symm, h⟩, fun ⟨rest', e', h⟩ => ?_⟩
    rwa [List.append_cancel_left (e.trans e')]

end EngineFamily

theorem WholeList.head {rest : List Char} (h : WholeList rest) :
    rest.head?.all EngineFamily.endsName = true := by
  rcases h with rfl | ⟨gap, inner, rfl, hgap, -⟩
  · rfl
  · cases gap with
    | nil => rfl
    | cons b gap => simp [EngineFamily.endsName, hgap b List.mem_cons_self]

theorem wholeDeclaration_iff {f : EngineFamily} {declaration : String} {rest : List Char}
    (h : declaration.toList = f.name.toList ++ rest)
    (hrest : rest.head?.all EngineFamily.endsName) :
    WholeDeclaration declaration ↔ WholeList rest := by
  refine ⟨fun ⟨g, rest', h', hwhole⟩ => ?_, fun hwhole => ⟨f, rest, h, hwhole⟩⟩
  have hf := EngineFamily.ofDeclaration?_eq_some_iff_append.mpr ⟨rest, h, hrest⟩
  have hg := EngineFamily.ofDeclaration?_eq_some_iff_append.mpr ⟨rest', h', hwhole.head⟩
  obtain rfl : f = g := Option.some.inj (hf.symm.trans hg)
  rwa [List.append_cancel_left (h.symm.trans h')]

theorem arguments_eq {f : EngineFamily} {declaration : String} {rest : List Char}
    {shape : ListShape} (h : declaration.toList = f.name.toList ++ rest)
    (hshape : Shaped rest shape) : arguments declaration = shape.arguments := by
  have hname : '(' ∉ f.name.toList := fun hmem => (f.name_plain _ hmem).2.2.1 rfl
  have hlist : parenthesized? declaration.toList = parenthesized? rest := by
    rw [h, parenthesized?, List.dropWhile_append_of_pos fun c hc => by
      simpa using fun e : c = '(' => hname (e ▸ hc), parenthesized?]
  rw [arguments, hlist, hshape.parenthesized?_eq]
  cases shape <;> rfl

namespace Engine

theorem wholeDeclaration_render {e : Engine} (he : e.WellFormed) : WholeDeclaration e.render :=
  ⟨e.family, _, toList_render e, .inr ⟨[], _, rfl, by simp,
    closesAtEnd_of_balanced (balanced_arguments he)⟩⟩

/-- **What is accepted as a declaration**: the name of an engine with any text after it from whose
list, if one is found, the engine can be built. It is whole exactly when that text is. -/
theorem parse_eq_ok_iff_shaped {engine text : String} {e : Engine} :
    parse engine text = .ok e ↔ ∃ rest shape,
      (declarationIn engine text).toList = e.name.toList ++ rest ∧
      rest.head?.all EngineFamily.endsName = true ∧ Shaped rest shape ∧
      (WholeDeclaration (declarationIn engine text) ↔ shape.IsWhole) ∧
      arguments (declarationIn engine text) = shape.arguments ∧
      e.family.build? (e.family.argumentsIn (declarationIn engine text) text) = some e := by
  rw [parse_eq_ok_iff, EngineFamily.ofDeclaration?_eq_some_iff_append]
  constructor
  · rintro ⟨⟨rest, hname, hrest⟩, hbuild⟩
    obtain ⟨shape, hshape⟩ := exists_shaped rest
    exact ⟨rest, shape, hname, hrest, hshape,
      (wholeDeclaration_iff hname hrest).trans hshape.isWhole_iff,
      arguments_eq hname hshape, hbuild⟩
  · rintro ⟨rest, shape, hname, hrest, -, -, -, hbuild⟩
    exact ⟨⟨rest, hname, hrest⟩, hbuild⟩

/-- Text that is not whole is accepted: an unclosed list is dropped, a list that is closed early
goes on in its last argument, words without a list are dropped. -/
theorem parse_partial_declarations :
    (parse "MergeTree" "MergeTree(date, id, 8192" = .ok .mergeTree ∧
      ¬WholeDeclaration (declarationIn "MergeTree" "MergeTree(date, id, 8192")) ∧
    (parse "ReplacingMergeTree" "ReplacingMergeTree(ver" = .ok (.replacingMergeTree none) ∧
      ¬WholeDeclaration (declarationIn "ReplacingMergeTree" "ReplacingMergeTree(ver")) ∧
    (parse "CollapsingMergeTree" "CollapsingMergeTree(sign) AS (SELECT 1)" =
        .ok (.collapsingMergeTree "sign) AS (SELECT 1") ∧
      ¬WholeDeclaration
        (declarationIn "CollapsingMergeTree" "CollapsingMergeTree(sign) AS (SELECT 1)")) ∧
    (parse "MergeTree" "MergeTree of events ORDER BY id" = .ok .mergeTree ∧
      ¬WholeDeclaration (declarationIn "MergeTree" "MergeTree of events ORDER BY id")) := by
  decide +kernel

end Engine

end SchemaPlan
