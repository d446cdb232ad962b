import SchemaPlan.Proofs.Pieces

/-!
# Argument lists in a text

Which part of a text is read as its argument list, and what is read of it.

* `parenthesized?_eq_some_iff`: the list stands between the first `(` and the last `)`;
  `parenthesized?_eq_none_iff`: a text has none if no `(` stands before a `)`.
* `parenthesized?_trim`: blanks at the ends of a text make no difference.
* `argumentValues`: the arguments in the text of a list.
* `argumentValues_quote_append`: a literal at the start of a list is read for itself, whatever
  follows it.
-/

namespace SchemaPlan.Sql

variable {cs : List Char} {mark : Char}

/-! ## The text of the list -/

theorem upToLast?_eq_none_iff : upToLast? mark cs = none ↔ mark ∉ cs := by
  induction cs with
  | nil => simp [upToLast?]
  | cons c cs ih =>
    rw [upToLast?, List.mem_cons, not_or, ← ih]
    cases upToLast? mark cs with
    | some init => simp
    | none => simp [eq_comm]

theorem upToLast?_eq_some_iff {init : List Char} :
    upToLast? mark cs = some init ↔ ∃ after, cs = init ++ mark :: after ∧ mark ∉ after := by
  induction cs generalizing init with
  | nil => simp [upToLast?]
  | cons c cs ih =>
    rw [upToLast?]
    cases hrest : upToLast? mark cs with
    | some found =>
      obtain ⟨after, rfl, hafter⟩ := ih.mp hrest
      rw [Option.some.injEq]
      refine ⟨fun h => ⟨after, h ▸ rfl, hafter⟩, ?_⟩
      rintro ⟨other, e, hother⟩
      cases init with
      | nil =>
        -- the last mark is not the first character
        rw [List.nil_append, List.cons.injEq] at e
        exact absurd (e.2 ▸ by simp) hother
      | cons d init =>
        rw [List.cons_append, List.cons.injEq] at e
        have hinit := ih.mpr ⟨other, e.2, hother⟩
        rw [hrest, Option.some.injEq] at hinit
        rw [hinit, e.1]
    | none =>
      have hnone := upToLast?_eq_none_iff.mp hrest
      constructor
      · intro h
        dsimp only at h
        split_ifs at h with hc
        obtain rfl : [] = init := Option.some.inj h
        exact ⟨cs, by rw [hc]; rfl, hnone⟩
      · rintro ⟨after, e, hafter⟩
        cases init with
        | nil =>
          rw [List.nil_append, List.cons.injEq] at e
          exact if_pos e.1
        | cons d init =>
          rw [List.cons_append, List.cons.injEq] at e
          exact absurd (e.2 ▸ by simp) hnone

/-- **The list stands between the first `(` and the last `)`.** -/
theorem parenthesized?_eq_some_iff {inner : List Char} : parenthesized? cs = some inner ↔
    ∃ before after, cs = before ++ '(' :: (inner ++ ')' :: after) ∧ '(' ∉ before ∧
      ')' ∉ after := by
  unfold parenthesized?
  constructor
  · intro h
    split at h
    · cases h
    · rename_i c rest hrest
      obtain ⟨after, rfl, hafter⟩ := upToLast?_eq_some_iff.mp h
      have hc : c = '(' := by
        have := List.head?_dropWhile_not (· != '(') cs
        simpa [hrest] using this
      refine ⟨cs.takeWhile (· != '('), after, ?_, fun hmem => ?_, hafter⟩
      · rw [hc] at hrest
        rw [← hrest, List.takeWhile_append_dropWhile]
      · simpa using List.mem_takeWhile_imp hmem
  · rintro ⟨before, after, rfl, hbefore, hafter⟩
    rw [List.dropWhile_append_of_pos fun c hc => by
      simpa using fun e : c = '(' => hbefore (e ▸ hc)]
    rw [List.dropWhile_cons_of_neg (by simp)]
    exact upToLast?_eq_some_iff.mpr ⟨after, rfl, hafter⟩

/-- A text has no list if no `(` stands before a `)`. -/
theorem parenthesized?_eq_none_iff : parenthesized? cs = none ↔ ¬['(', ')'].Sublist cs := by
  induction cs with
  | nil => simp [parenthesized?]
  | cons c cs ih =>
    by_cases hc : c = '('
    · subst hc
      rw [parenthesized?, List.dropWhile_cons_of_neg (by simp)]
      refine upToLast?_eq_none_iff.trans (not_congr ?_)
      rw [List.cons_sublist_cons, List.singleton_sublist]
    · have hskip : parenthesized? (c :: cs) = parenthesized? cs := by
        rw [parenthesized?, parenthesized?, List.dropWhile_cons_of_pos (by simpa using hc)]
      rw [hskip, ih, List.cons_sublist_cons']
      simp [Ne.symm hc]

theorem parenthesized?_trim (cs : List Char) : parenthesized? (trim cs) = parenthesized? cs := by
  obtain ⟨before, after, h, hbefore, hafter⟩ := exists_trim cs
  have hblank {c : Char} (hc : isBlank c = false) : c ∉ before ∧ c ∉ after :=
    ⟨fun hmem => by simp [hbefore c hmem] at hc, fun hmem => by simp [hafter c hmem] at hc⟩
  cases hlist : parenthesized? (trim cs) with
  | some inner =>
    obtain ⟨start, rest, e, hstart, hrest⟩ := parenthesized?_eq_some_iff.mp hlist
    refine (parenthesized?_eq_some_iff.mpr ⟨before ++ start, rest ++ after, ?_, ?_, ?_⟩).symm
    · rw [h, e]
      simp
    · simpa using ⟨(hblank (by decide)).1, hstart⟩
    · simpa using ⟨hrest, (hblank (by decide)).2⟩
  | none =>
    -- the marks of a list stay when the blanks are taken away
    rw [eq_comm, parenthesized?_eq_none_iff]
    refine mt (fun hsub => ?_) (parenthesized?_eq_none_iff.mp hlist)
    have hgone {bs : List Char} (hbs : ∀ b ∈ bs, isBlank b = true) :
        bs.filter (!isBlank ·) = [] := List.filter_eq_nil_iff.mpr fun b hb => by simp [hbs b hb]
    have hkept : cs.filter (!isBlank ·) = (trim cs).filter (!isBlank ·) := by
      conv_lhs => rw [h, List.filter_append, List.filter_append, hgone hbefore, hgone hafter,
        List.nil_append, List.append_nil]
    have hmarks : ['(', ')'].Sublist (cs.filter (!isBlank ·)) := hsub.filter (!isBlank ·)
    rw [hkept] at hmarks
    exact hmarks.trans List.filter_sublist

/-! ## The arguments of a list -/

/-- The arguments in the text of a list. -/
def argumentValues (content : List Char) : List String :=
  (argumentPieces content).map fun piece => String.ofList (unquote piece)

theorem arguments_of_parenthesized {text : String} {content : List Char}
    (h : parenthesized? text.toList = some content) : arguments text = argumentValues content := by
  rw [arguments, h]
  rfl

theorem argumentPieces_eq (content : List Char) : argumentPieces content =
    if (splitPieces content).getLast? = some [] then (splitPieces content).dropLast
    else splitPieces content := by
  rw [argumentPieces, ← splitPieces_trim content]
  split
  · rename_i h
    rw [h]
    rfl
  · rfl

/-- A literal at the start of a list is one argument, whatever follows its comma. -/
theorem argumentValues_quote_append (text rest : List Char) :
    argumentValues (quote text ++ ',' :: rest) = String.ofList text :: argumentValues rest := by
  have hquote := isArgument_quote text
  have hsplit : splitPieces (quote text ++ ',' :: rest) = quote text :: splitPieces rest := by
    rw [splitPieces, pieces, piecesFrom_append_comma hquote.commaless hquote.balanced.run_start,
      List.map_cons, hquote.trimmed, splitPieces]
  obtain ⟨piece, more, hrest⟩ := List.exists_cons_of_ne_nil (splitPieces_ne_nil rest)
  have hpieces : argumentPieces (quote text ++ ',' :: rest) =
      quote text :: argumentPieces rest := by
    rw [argumentPieces_eq, argumentPieces_eq, hsplit, hrest, List.getLast?_cons_cons,
      List.dropLast_cons_cons]
    split <;> rfl
  rw [argumentValues, hpieces, List.map_cons, unquote_quote, argumentValues]

end SchemaPlan.Sql
