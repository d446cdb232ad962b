import SchemaPlan.Proofs.Pieces

/-!
# Lists that a text is cut into

Which lists of texts are the parts of some text between its top-level commas, and that such a list
is cut apart as it was once it is joined again.

* `topLevelCommas`: where the cuts are; `map_offsetsFrom`: the characters at the exposed offsets.
* `IsSplit`: what the parts of a text have in common; `isSplit_splitTopLevel`: every list of parts
  has it.
* `splitTopLevel_intercalate`: joining such a list and cutting it again.
* `splitTopLevel_inverse`: **the lists that are cut out are those that are cut out of their join**.
-/

namespace SchemaPlan.Sql

variable {cs : List Char} {p : String} {ps : List String}

/-! ## The cuts -/

/-- The offsets of the commas of a text that stand outside literals and parentheses. -/
def topLevelCommas (text : String) : List Nat :=
  (topLevelOffsets text.toList).filter fun i => text.toList[i]? = some ','

/-- At the offsets of the exposed characters these characters stand. -/
theorem map_offsetsFrom {s : ScanState} {at_ : Nat} {text : List Char} (h : text.drop at_ = cs) :
    (offsetsFrom s at_ cs).map (text[·]?) = (exposed s cs).map some := by
  induction cs generalizing s at_ with
  | nil => rfl
  | cons c cs ih =>
    have hhere : text[at_]? = some c := by
      rw [← List.head?_drop, h, List.head?_cons]
    have hrest : text.drop (at_ + 1) = cs := by
      rw [← List.tail_drop, h, List.tail_cons]
    rw [offsetsFrom, exposed]
    split
    · rw [List.map_cons, List.map_cons, hhere, ih hrest]
    · exact ih hrest

theorem length_topLevelCommas (text : String) :
    (topLevelCommas text).length = (exposed .start text.toList).count ',' := by
  have hmap : (topLevelOffsets text.toList).map (text.toList[·]?) =
      (exposed .start text.toList).map some := map_offsetsFrom (List.drop_zero ..)
  have hcount := congrArg (List.countP (· = some ',')) hmap
  rw [List.countP_map, List.countP_map] at hcount
  rw [topLevelCommas, ← List.countP_eq_length_filter]
  simpa [List.count, Function.comp_def, beq_eq_decide] using hcount

theorem topLevelCommas_eq_nil_iff (text : String) :
    topLevelCommas text = [] ↔ ',' ∉ exposed .start text.toList := by
  rw [← List.length_eq_zero_iff, length_topLevelCommas, List.count_eq_zero]

/-! ## The parts -/

/-- Each text is trimmed and without top-level commas, and all but the last one end outside
literals and parentheses. -/
structure IsSplit (ps : List String) : Prop where
  nonempty : ps ≠ []
  trimmed : ∀ p ∈ ps, trimText p = p
  commaless : ∀ p ∈ ps, topLevelCommas p = []
  closed : ∀ p ∈ ps.dropLast, ScanState.start.run p.toList = .start

namespace CommaParts

variable {parts : List (List Char)}

theorem commaless (h : CommaParts cs parts) : ∀ part ∈ parts, ',' ∉ exposed .start part := by
  induction h with
  | last hcomma => simpa using hcomma
  | cons hcomma _ _ ih => exact List.forall_mem_cons.mpr ⟨hcomma, ih⟩

theorem closed (h : CommaParts cs parts) :
    ∀ part ∈ parts.dropLast, ScanState.start.run part = .start := by
  induction h with
  | last => simp
  | @cons part rest parts _ hrun hrest ih =>
    obtain ⟨next, parts, rfl⟩ := List.exists_cons_of_ne_nil (l := parts) (by cases hrest <;> simp)
    rw [List.dropLast_cons_cons]
    exact List.forall_mem_cons.mpr ⟨hrun, ih⟩

end CommaParts

theorem commaless_trim (h : ',' ∉ exposed .start cs) : ',' ∉ exposed .start (trim cs) := by
  obtain ⟨before, after, e, hbefore, -⟩ := exists_trim cs
  rw [e, List.append_assoc, exposed_append, ScanState.run_start_blanks hbefore, exposed_append,
    List.mem_append, List.mem_append, not_or, not_or] at h
  exact h.2.1

theorem run_trim (h : ScanState.start.run cs = .start) :
    ScanState.start.run (trim cs) = .start := by
  obtain ⟨before, after, e, hbefore, hafter⟩ := exists_trim cs
  have hmarked : ScanState.start.Marked := trivial
  rw [e, List.append_assoc, ScanState.run_append, ScanState.run_start_blanks hbefore,
    ScanState.run_append] at h
  exact (hmarked.run _).eq_start_of_blanks hafter h

/-- **The parts of any text make up such a list.** -/
theorem isSplit_splitTopLevel (text : String) : IsSplit (splitTopLevel text) := by
  have hparts : CommaParts text.toList (pieces text.toList) := commaParts_iff.mpr rfl
  have hmap : splitTopLevel text = (pieces text.toList).map fun part => String.ofList (trim part) :=
    List.map_map
  rw [hmap]
  refine ⟨?_, fun p hp => ?_, fun p hp => ?_, fun p hp => ?_⟩
  · simpa [pieces] using piecesFrom_ne_nil .start text.toList
  · obtain ⟨part, -, rfl⟩ := List.mem_map.mp hp
    rw [trimText, String.toList_ofList, trim_trim]
  · obtain ⟨part, hpart, rfl⟩ := List.mem_map.mp hp
    rw [topLevelCommas_eq_nil_iff, String.toList_ofList]
    exact commaless_trim (hparts.commaless part hpart)
  · rw [← List.map_dropLast] at hp
    obtain ⟨part, hpart, rfl⟩ := List.mem_map.mp hp
    rw [String.toList_ofList]
    exact run_trim (hparts.closed part hpart)

theorem IsSplit.splitTopLevel_intercalate (h : IsSplit ps) :
    splitTopLevel (", ".intercalate ps) = ps := by
  have hcomma : ", ".toList = [',', ' '] := rfl
  have hsplit : splitPieces ([',', ' '].intercalate (ps.map String.toList)) =
      (ps.map String.toList).map trim := by
    refine splitPieces_join (by simpa using h.nonempty) (fun cs hcs => ?_) fun cs hcs => ?_
    · obtain ⟨p, hp, rfl⟩ := List.mem_map.mp hcs
      exact (topLevelCommas_eq_nil_iff p).mp (h.commaless p hp)
    · rw [← List.map_dropLast] at hcs
      obtain ⟨p, hp, rfl⟩ := List.mem_map.mp hcs
      exact h.closed p hp
  rw [splitTopLevel, String.toList_intercalate, hcomma, hsplit, List.map_map, List.map_map]
  exact (List.map_congr_left fun p hp => h.trimmed p hp).trans (List.map_id ps)

/-- **Cutting at the top-level commas is inverse to joining.** A list is cut out of some text
exactly if its texts are such parts, and exactly if it is cut out of its own join. So what was cut
out of any text is cut apart again in the same way, and there is one part more than the text has
top-level commas. -/
theorem splitTopLevel_inverse (text : String) (ps : List String) :
    ((∃ t, splitTopLevel t = ps) ↔ IsSplit ps) ∧
      (splitTopLevel (", ".intercalate ps) = ps ↔ IsSplit ps) ∧
      splitTopLevel (", ".intercalate (splitTopLevel text)) = splitTopLevel text ∧
      (splitTopLevel text).length = (topLevelCommas text).length + 1 := by
  have hsplit {t : String} (h : splitTopLevel t = ps) : IsSplit ps := h ▸ isSplit_splitTopLevel t
  refine ⟨⟨fun ⟨t, h⟩ => hsplit h, fun h => ⟨_, h.splitTopLevel_intercalate⟩⟩,
    ⟨hsplit, fun h => h.splitTopLevel_intercalate⟩,
    (isSplit_splitTopLevel text).splitTopLevel_intercalate, ?_⟩
  rw [length_topLevelCommas, splitTopLevel, List.length_map, splitPieces, List.length_map, pieces,
    length_piecesFrom]

/-- A surplus `)` closes nothing, and a literal that is not closed is the last part. -/
example : splitTopLevel "f(a, b)) ,\tc, 'd, e" = ["f(a, b))", "c", "'d, e"] := by decide +kernel

end SchemaPlan.Sql
