import SchemaPlan.Proofs.Exposure
import SchemaPlan.Proofs.Trimming
import SchemaPlan.Sql.Arguments

/-!
# Lists of pieces

Cutting a text at its exposed commas undoes joining pieces by commas.

* `exists_piecesFrom_append`: the pieces of two texts beside each other. Text without exposed commas
  only makes the piece beside it longer (`piecesFrom_append_left`, `piecesFrom_append_right`).
* `length_piecesFrom`: how many pieces there are.
* `splitPieces_trim`: blanks at the ends of a list make no difference.
* `pieces_intercalate`, `splitPieces_join`: joined pieces are cut apart again.
* `CommaParts`: a text cut at its exposed commas; `commaParts_iff`: into the pieces of the reader.
* `argumentPieces_join`: the pieces of an argument list, less one empty piece at its end.
-/

namespace SchemaPlan.Sql

variable {s : ScanState} {cs ds rest part : List Char} {parts : List (List Char)}

/-! ## Cutting -/

/-- Text without exposed commas belongs to the first piece of what follows it. -/
theorem piecesFrom_append_left (h : ',' ∉ exposed s cs) {piece : List Char}
    {rest : List (List Char)} (hrest : piecesFrom (s.run cs) ds = piece :: rest) :
    piecesFrom s (cs ++ ds) = (cs ++ piece) :: rest := by
  induction cs generalizing s with
  | nil => exact hrest
  | cons c cs ih =>
    have hc : (s.exposes c && c == ',') = false := by
      rw [Bool.and_eq_false_iff, beq_eq_false_iff_ne]
      by_cases he : s.exposes c = true
      · rw [exposed, if_pos he] at h
        exact .inr fun e => h (e ▸ List.mem_cons_self)
      · exact .inl (by simpa using he)
    have hcs : ',' ∉ exposed (s.step c) cs := by
      rw [exposed] at h
      split at h
      · exact fun hm => h (List.mem_cons_of_mem _ hm)
      · exact h
    rw [List.cons_append, piecesFrom, if_neg (by simp [hc]), ih hcs hrest]
    rfl

theorem piecesFrom_of_commaless (h : ',' ∉ exposed s cs) : piecesFrom s cs = [cs] := by
  have hnil : piecesFrom (s.run cs) [] = [] :: [] := rfl
  simpa using piecesFrom_append_left h hnil

theorem exists_piecesFrom_append (s : ScanState) (cs : List Char) :
    ∃ init last, piecesFrom s cs = init ++ [last] ∧
      ∀ ds piece rest, piecesFrom (s.run cs) ds = piece :: rest →
        piecesFrom s (cs ++ ds) = init ++ (last ++ piece) :: rest := by
  induction cs generalizing s with
  | nil => exact ⟨[], [], rfl, fun ds piece rest hds => hds⟩
  | cons c cs ih =>
    obtain ⟨init, last, e, happend⟩ := ih (s.step c)
    by_cases hc : (s.exposes c && c == ',') = true
    · refine ⟨[] :: init, last, ?_, fun ds piece rest hds => ?_⟩
      · rw [piecesFrom, if_pos hc, e, List.cons_append]
      · rw [List.cons_append, piecesFrom, if_pos hc, happend ds piece rest hds, List.cons_append]
    · -- the character belongs to the first piece, which may be the last one too
      cases init with
      | nil =>
        refine ⟨[], c :: last, ?_, fun ds piece rest hds => ?_⟩
        · rw [piecesFrom, if_neg hc, e]
          rfl
        · rw [List.cons_append, piecesFrom, if_neg hc, happend ds piece rest hds]
          rfl
      | cons first init =>
        refine ⟨(c :: first) :: init, last, ?_, fun ds piece rest hds => ?_⟩
        · rw [piecesFrom, if_neg hc, e]
          rfl
        · rw [List.cons_append, piecesFrom, if_neg hc, happend ds piece rest hds]
          rfl

theorem piecesFrom_append_right (h : ',' ∉ exposed (s.run cs) ds) :
    ∃ init last, piecesFrom s cs = init ++ [last] ∧
      piecesFrom s (cs ++ ds) = init ++ [last ++ ds] := by
  obtain ⟨init, last, e, happend⟩ := exists_piecesFrom_append s cs
  exact ⟨init, last, e, happend ds ds [] (piecesFrom_of_commaless h)⟩

theorem piecesFrom_append_comma (h : ',' ∉ exposed s cs) (hrun : s.run cs = .start) :
    piecesFrom s (cs ++ ',' :: ds) = cs :: pieces ds := by
  have hrest : piecesFrom (s.run cs) (',' :: ds) = [] :: pieces ds := by
    rw [hrun]
    rfl
  simpa using piecesFrom_append_left h hrest

theorem piecesFrom_cons_comma {s : ScanState} (h : s.exposes ',' = true) (cs : List Char) :
    piecesFrom s (',' :: cs) = [] :: piecesFrom (s.step ',') cs := by
  rw [piecesFrom, if_pos (by simp [h])]

theorem piecesFrom_cons_of_ne {s : ScanState} {c : Char} (h : s.exposes c = true → c ≠ ',')
    (cs : List Char) : ∃ piece rest, piecesFrom (s.step c) cs = piece :: rest ∧
      piecesFrom s (c :: cs) = (c :: piece) :: rest := by
  obtain ⟨piece, rest, e⟩ := List.exists_cons_of_ne_nil (piecesFrom_ne_nil (s.step c) cs)
  refine ⟨piece, rest, e, ?_⟩
  rw [piecesFrom, if_neg (by simpa using h), e]

theorem length_piecesFrom (s : ScanState) (cs : List Char) :
    (piecesFrom s cs).length = (exposed s cs).count ',' + 1 := by
  induction cs generalizing s with
  | nil => rfl
  | cons c cs ih =>
    have hrest := ih (s.step c)
    by_cases hc : s.exposes c = true ∧ c = ','
    · obtain ⟨he, rfl⟩ := hc
      rw [piecesFrom_cons_comma he, exposed, if_pos he, List.count_cons_self, List.length_cons,
        hrest]
    · obtain ⟨piece, rest, e, e'⟩ := piecesFrom_cons_of_ne (not_and.mp hc) cs
      have hcount : (exposed s (c :: cs)).count ',' = (exposed (s.step c) cs).count ',' := by
        rw [exposed]
        split_ifs with he
        · exact List.count_cons_of_ne fun h => hc ⟨he, h⟩
        · rfl
      rw [e', hcount, ← hrest, e]
      rfl

/-! ## Blanks at the ends -/

theorem splitPieces_cons_blank {b : Char} (h : isBlank b = true) :
    splitPieces (b :: cs) = splitPieces cs := by
  have hb := ScanState.exposes_blank h
  have hcomma : b ≠ ',' := ne_of_isBlank h (by decide)
  rw [splitPieces, pieces, piecesFrom, if_neg (by simp [hcomma]),
    ScanState.step_of_exposes hb, splitPieces, pieces]
  cases hp : piecesFrom .start cs with
  | nil => exact absurd hp (piecesFrom_ne_nil _ _)
  | cons piece rest => rw [List.map_cons, List.map_cons, trim_cons_blank h]

theorem splitPieces_append_blank {b : Char} (h : isBlank b = true) :
    splitPieces (cs ++ [b]) = splitPieces cs := by
  have hne : b ≠ ',' := ne_of_isBlank h (by decide)
  have hcomma : ',' ∉ exposed (ScanState.start.run cs) [b] := by
    rw [exposed]
    split <;> simp [hne.symm]
  obtain ⟨init, last, e, e'⟩ := piecesFrom_append_right hcomma
  rw [splitPieces, splitPieces, pieces, pieces, e, e', List.map_append, List.map_append,
    List.map_singleton, List.map_singleton, trim_append_blank h]

theorem splitPieces_blanks_append (h : ∀ b ∈ cs, isBlank b = true) :
    splitPieces (cs ++ ds) = splitPieces ds := by
  induction cs with
  | nil => rfl
  | cons b cs ih =>
    rw [List.cons_append, splitPieces_cons_blank (h b List.mem_cons_self),
      ih fun d hd => h d (List.mem_cons_of_mem _ hd)]

theorem splitPieces_append_blanks (h : ∀ b ∈ ds, isBlank b = true) :
    splitPieces (cs ++ ds) = splitPieces cs := by
  induction ds using List.reverseRecOn with
  | nil => rw [List.append_nil]
  | append_singleton ds b ih =>
    rw [← List.append_assoc, splitPieces_append_blank (h b (by simp)),
      ih fun d hd => h d (List.mem_append_left _ hd)]

/-- **Blanks at the ends of a list make no difference.** -/
theorem splitPieces_trim (cs : List Char) : splitPieces (trim cs) = splitPieces cs := by
  obtain ⟨before, after, h, hb, ha⟩ := exists_trim cs
  conv_rhs => rw [h, splitPieces_append_blanks ha, splitPieces_blanks_append hb]

/-! ## Joining -/

/-- **Joined pieces are cut apart again.** Only the last piece may leave a literal or a parenthesis
open. -/
theorem pieces_intercalate {ps : List (List Char)} (hne : ps ≠ [])
    (hcomma : ∀ p ∈ ps, ',' ∉ exposed .start p)
    (hrun : ∀ p ∈ ps.dropLast, ScanState.start.run p = .start) :
    pieces ([','].intercalate ps) = ps := by
  induction ps with
  | nil => exact absurd rfl hne
  | cons p ps ih =>
    have hp := hcomma p List.mem_cons_self
    cases ps with
    | nil => rw [List.intercalate_singleton, pieces, piecesFrom_of_commaless hp]
    | cons q qs =>
      rw [List.intercalate_cons_cons, List.append_assoc, List.singleton_append, pieces,
        piecesFrom_append_comma hp (hrun p (by simp)),
        ih (by simp) (fun r hr => hcomma r (List.mem_cons_of_mem _ hr))
          (fun r hr => hrun r (by simpa using .inr hr))]

theorem intercalate_comma_blank (p : List Char) (ps : List (List Char)) :
    [',', ' '].intercalate (p :: ps) = [','].intercalate (p :: ps.map (' ' :: ·)) := by
  induction ps generalizing p with
  | nil => rfl
  | cons q qs ih =>
    rw [List.intercalate_cons_cons, ih, List.map_cons, List.intercalate_cons_cons,
      List.append_assoc, List.append_assoc]
    congr 1
    cases qs with
    | nil => simp [List.intercalate_singleton]
    | cons r rs => simp [List.intercalate_cons_cons]

theorem exposed_cons_blank {b : Char} (h : isBlank b = true) :
    exposed .start (b :: cs) = b :: exposed .start cs := by
  rw [exposed, if_pos (ScanState.exposes_blank h),
    ScanState.step_of_exposes (ScanState.exposes_blank h)]

/-- Joined pieces are cut apart again, each as it is without the blanks at its ends. -/
theorem splitPieces_join {ps : List (List Char)} (hne : ps ≠ [])
    (hcomma : ∀ p ∈ ps, ',' ∉ exposed .start p)
    (hrun : ∀ p ∈ ps.dropLast, ScanState.start.run p = .start) :
    splitPieces ([',', ' '].intercalate ps) = ps.map trim := by
  obtain ⟨p, ps, rfl⟩ := List.exists_cons_of_ne_nil hne
  have hblank : isBlank ' ' = true := by decide
  rw [intercalate_comma_blank, splitPieces, pieces_intercalate (by simp)]
  · rw [List.map_cons, List.map_map, List.map_cons]
    exact congrArg (trim p :: ·) (List.map_congr_left fun q _ => trim_cons_blank hblank)
  · intro q hq
    rcases List.mem_cons.mp hq with rfl | hq
    · exact hcomma q List.mem_cons_self
    · obtain ⟨r, hr, rfl⟩ := List.mem_map.mp hq
      rw [exposed_cons_blank hblank]
      simpa using hcomma r (List.mem_cons_of_mem _ hr)
  · intro q hq
    cases ps with
    | nil => cases hq
    | cons r rs =>
      rw [List.map_cons, List.dropLast_cons_cons, ← List.map_cons, ← List.map_dropLast] at hq
      rcases List.mem_cons.mp hq with rfl | hq
      · exact hrun q List.mem_cons_self
      · obtain ⟨r', hr', rfl⟩ := List.mem_map.mp hq
        exact hrun r' (List.mem_cons_of_mem _ hr')

/-! ## Parts between commas -/

/-- A text and its parts between the commas outside literals and parentheses. -/
inductive CommaParts : List Char → List (List Char) → Prop
  | last {part : List Char} (hcomma : ',' ∉ exposed .start part) : CommaParts part [part]
  | cons {part rest : List Char} {parts : List (List Char)} (hcomma : ',' ∉ exposed .start part)
      (hrun : ScanState.start.run part = .start) (hrest : CommaParts rest parts) :
      CommaParts (part ++ ',' :: rest) (part :: parts)

theorem CommaParts.pieces_eq (h : CommaParts cs parts) : pieces cs = parts := by
  induction h with
  | last hcomma => exact piecesFrom_of_commaless hcomma
  | cons hcomma hrun _ ih => rw [pieces, piecesFrom_append_comma hcomma hrun, ih]

/-- An exposed comma cuts a text, and the first of them leaves none before the cut. -/
theorem exists_comma_cut {s : ScanState} (h : ',' ∈ exposed s cs) :
    ∃ part rest, cs = part ++ ',' :: rest ∧ ',' ∉ exposed s part ∧ s.run part = .start := by
  induction cs generalizing s with
  | nil => simp at h
  | cons c cs ih =>
    by_cases hc : s.exposes c = true ∧ c = ','
    · obtain ⟨hexposed, rfl⟩ := hc
      exact ⟨[], cs, rfl, by simp, (ScanState.exposes_iff.mp hexposed).1⟩
    · have hrest : ',' ∈ exposed (s.step c) cs := by
        rw [exposed] at h
        split at h
        · rename_i hexposed
          exact (List.mem_cons.mp h).resolve_left fun e => hc ⟨hexposed, e.symm⟩
        · exact h
      obtain ⟨part, rest, rfl, hcomma, hrun⟩ := ih hrest
      refine ⟨c :: part, rest, rfl, ?_, hrun⟩
      rw [exposed]
      split
      · rename_i hexposed
        exact fun hmem => (List.mem_cons.mp hmem).elim (fun e => hc ⟨hexposed, e.symm⟩) hcomma
      · exact hcomma

theorem exists_commaParts (cs : List Char) : ∃ parts, CommaParts cs parts := by
  by_cases h : ',' ∈ exposed .start cs
  · obtain ⟨part, rest, hcut, hcomma, hrun⟩ := exists_comma_cut h
    obtain ⟨parts, hrest⟩ := exists_commaParts rest
    exact ⟨part :: parts, hcut ▸ .cons hcomma hrun hrest⟩
  · exact ⟨[cs], .last h⟩
termination_by cs.length
decreasing_by
  rw [hcut, List.length_append, List.length_cons]
  omega

/-- **A text has one row of parts, the pieces the reader cuts it into.** -/
theorem commaParts_iff : CommaParts cs parts ↔ pieces cs = parts := by
  refine ⟨CommaParts.pieces_eq, ?_⟩
  rintro rfl
  obtain ⟨parts, h⟩ := exists_commaParts cs
  rwa [h.pieces_eq]

/-! ## Argument lists -/

/-- A text that is one argument wherever it stands in an argument list. -/
structure IsArgument (cs : List Char) : Prop where
  trimmed : trim cs = cs
  balanced : Balanced cs
  commaless : ',' ∉ exposed .start cs

instance (cs : List Char) : Decidable (IsArgument cs) :=
  decidable_of_iff (trim cs = cs ∧ Balanced cs ∧ ',' ∉ exposed .start cs)
    ⟨fun ⟨htrim, hbal, hcomma⟩ => ⟨htrim, hbal, hcomma⟩,
      fun h => ⟨h.trimmed, h.balanced, h.commaless⟩⟩

theorem isArgument_nil : IsArgument [] := ⟨rfl, .nil, by simp⟩

theorem isArgument_literal {mark : Char} (h : isQuoteMark mark = true) (cs : List Char) :
    IsArgument (literal mark cs) where
  trimmed := by
    refine trim_eq_self_iff.mpr ⟨fun c hc => ?_, fun c hc => ?_⟩
    · simp only [literal, List.head?_cons, Option.mem_some_iff] at hc
      exact hc ▸ isBlank_of_isQuoteMark h
    · rw [literal, ← List.cons_append, List.getLast?_concat, Option.mem_some_iff] at hc
      exact hc ▸ isBlank_of_isQuoteMark h
  balanced := balanced_literal h cs
  commaless := by simp [exposed_literal h]

theorem isArgument_quote (cs : List Char) : IsArgument (quote cs) :=
  literal_single cs ▸ isArgument_literal rfl cs

theorem trim_parenthesized (cs : List Char) :
    trim ('(' :: (cs ++ [')'])) = '(' :: (cs ++ [')']) := by
  refine trim_eq_self_iff.mpr ⟨fun c hc => ?_, fun c hc => ?_⟩
  · simp only [List.head?_cons, Option.mem_some_iff] at hc
    exact hc ▸ by decide
  · rw [← List.cons_append, List.getLast?_concat, Option.mem_some_iff] at hc
    exact hc ▸ by decide

theorem isArgument_parenthesized (h : Balanced cs) : IsArgument ('(' :: (cs ++ [')'])) where
  trimmed := trim_parenthesized cs
  balanced := h.parenthesized
  commaless := by simp [h.exposed_parenthesized]

/-- The pieces of a written argument list are its arguments. One empty argument at the end is
none. -/
theorem argumentPieces_join {ps : List (List Char)} (h : ∀ p ∈ ps, IsArgument p) :
    argumentPieces ([',', ' '].intercalate ps) =
      if ps.getLast? = some [] then ps.dropLast else ps := by
  rcases eq_or_ne ps [] with rfl | hne
  · rfl
  have hsplit : splitPieces (trim ([',', ' '].intercalate ps)) = ps := by
    rw [splitPieces_trim, splitPieces_join hne (fun p hp => (h p hp).commaless)
      fun p hp => (h p (List.dropLast_subset _ hp)).balanced.run_start]
    exact (List.map_congr_left fun p hp => (h p hp).trimmed).trans (List.map_id ps)
  rw [argumentPieces]
  split
  · -- a list of blanks alone is cut into one empty piece
    rename_i hnil
    rw [hnil] at hsplit
    rw [← hsplit]
    rfl
  · simp only [hsplit]

theorem upToLast?_append (mark : Char) (cs : List Char) :
    upToLast? mark (cs ++ [mark]) = some cs := by
  induction cs with
  | nil => simp [upToLast?]
  | cons c cs ih => rw [List.cons_append, upToLast?, ih]

theorem parenthesized?_append (h : '(' ∉ cs) :
    parenthesized? (cs ++ '(' :: (ds ++ [')'])) = some ds := by
  have hdrop : (cs ++ '(' :: (ds ++ [')'])).dropWhile (· != '(') = '(' :: (ds ++ [')']) := by
    rw [List.dropWhile_append_of_pos fun c hc => by
      simpa using fun e : c = '(' => h (e ▸ hc)]
    exact List.dropWhile_cons_of_neg (by simp)
  rw [parenthesized?, hdrop]
  exact upToLast?_append ')' ds

/-! ## Quotes around arguments -/

theorem between?_append (opening closing : Char) (cs : List Char) :
    between? opening closing (opening :: (cs ++ [closing])) = some cs := by
  simp [between?]

theorem between?_eq_some_iff {opening closing : Char} {inner : List Char} :
    between? opening closing cs = some inner ↔ cs = opening :: (inner ++ [closing]) := by
  refine ⟨fun h => ?_, fun h => h ▸ between?_append opening closing inner⟩
  cases cs with
  | nil => cases h
  | cons c cs =>
    rw [between?] at h
    split_ifs at h with hmarks
    obtain ⟨rfl, hlast⟩ := hmarks
    rw [← Option.some.inj h, List.dropLast_append_getLast? _ hlast]

/-- **A literal stands for its text**, whichever of the two marks it is written with. -/
theorem unquote_literal {mark : Char} (h : mark = '\'' ∨ mark = '"') (cs : List Char) :
    unquote (literal mark cs) = cs := by
  have hmark : isQuoteMark mark = true := by
    rcases h with rfl | rfl <;> rfl
  rw [unquote, (isArgument_literal hmark cs).trimmed, literal]
  rcases h with rfl | rfl
  · rw [between?_append]
    exact unescape_escapeFor _ cs
  · rw [between?, if_neg (by simp), between?_append]
    exact unescape_escapeFor _ cs

theorem unquote_quote (cs : List Char) : unquote (quote cs) = cs :=
  literal_single cs ▸ unquote_literal (.inl rfl) cs

end SchemaPlan.Sql
