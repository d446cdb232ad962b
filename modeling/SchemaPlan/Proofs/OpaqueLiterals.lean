import SchemaPlan.Proofs.ClauseSearch
import SchemaPlan.Proofs.Pieces

/-!
# Opaque literals

A literal that stands in a text outside other literals is one token, whatever it says. Where the
scan stood before it, the scan stands after it, and nothing in it is exposed. So the text around it
is read as if the literal were empty, only that what comes after it is moved.

* `run_quote_of_code`, `exposed_quote_of_code`: the scan of a literal.
* `IsMeasure`, `offsetsBy`: offsets in characters and in bytes alike; `offsetsBy_quote`.
* `findKeyword?_quote`, `clausesStart_quote`: the search for clauses.
* `pieces_quote`: the cuts at commas.
* **`quote_opaque`**: all of it together.
-/

namespace SchemaPlan.Sql

variable {a cs word : List Char} {s : ScanState} {n : Nat}

/-! ## The scan of a literal -/

theorem quote_nil : quote [] = ['\'', '\''] := rfl

theorem run_quote_of_code (h : s.mode = .code) (v : List Char) : s.run (quote v) = s := by
  obtain ⟨mode, depth⟩ := s
  obtain rfl : mode = .code := h
  exact balanced_quote v depth

theorem exposed_quote_of_code (h : s.mode = .code) (v : List Char) : exposed s (quote v) = [] := by
  obtain ⟨mode, depth⟩ := s
  obtain rfl : mode = .code := h
  cases depth with
  | zero => exact exposed_quote v
  | succ depth => exact (balanced_quote v).exposed_deeper depth

/-! ## Offsets -/

theorem offsetsFrom_append (s : ScanState) (n : Nat) (cs ds : List Char) :
    offsetsFrom s n (cs ++ ds) =
      offsetsFrom s n cs ++ offsetsFrom (s.run cs) (n + cs.length) ds := by
  induction cs generalizing s n with
  | nil => rfl
  | cons c cs ih =>
    rw [List.cons_append, offsetsFrom, offsetsFrom, ih, ScanState.run_cons, List.length_cons,
      Nat.add_right_comm, Nat.add_assoc n]
    split <;> rfl

theorem offsetsFrom_eq_map (s : ScanState) (n : Nat) (cs : List Char) :
    offsetsFrom s n cs = (offsetsFrom s 0 cs).map (n + ·) := by
  induction cs generalizing s n with
  | nil => rfl
  | cons c cs ih =>
    rw [offsetsFrom, offsetsFrom, ih (s.step c) (n + 1), ih (s.step c) (0 + 1)]
    split <;> simp [Nat.add_assoc, Function.comp_def]

theorem offsetsFrom_of_unexposed (h : exposed s cs = []) (n : Nat) : offsetsFrom s n cs = [] := by
  induction cs generalizing s n with
  | nil => rfl
  | cons c cs ih =>
    rw [exposed] at h
    rw [offsetsFrom]
    split at h
    · cases h
    · rename_i hc
      rw [if_neg hc, ih h]

theorem lt_of_mem_offsetsFrom {m : Nat} (h : n ∈ offsetsFrom s m cs) : n < m + cs.length := by
  induction cs generalizing s m with
  | nil => cases h
  | cons c cs ih =>
    rw [offsetsFrom] at h
    rw [List.length_cons]
    have hrest (hn : n ∈ offsetsFrom (s.step c) (m + 1) cs) : n < m + (cs.length + 1) := by
      have := ih hn
      omega
    split at h
    · rcases List.mem_cons.mp h with rfl | hn
      · omega
      · exact hrest hn
    · exact hrest h

/-- **The offsets around a literal**: those before it, and those behind it after its length. -/
theorem topLevelOffsets_quote (h : (ScanState.start.run a).mode = .code) (v b : List Char) :
    topLevelOffsets (a ++ (quote v ++ b)) = topLevelOffsets a ++
      (offsetsFrom (ScanState.start.run a) 0 b).map (a.length + (quote v).length + ·) := by
  rw [topLevelOffsets, offsetsFrom_append, offsetsFrom_append, run_quote_of_code h,
    offsetsFrom_of_unexposed (exposed_quote_of_code h v), List.nil_append, Nat.zero_add,
    offsetsFrom_eq_map _ (a.length + _)]
  rfl

/-- A size of texts: every character adds to it. -/
structure IsMeasure (size : List Char → Nat) : Prop where
  append : ∀ cs ds, size (cs ++ ds) = size cs + size ds
  pos : ∀ cs, cs ≠ [] → 0 < size cs

theorem isMeasure_length : IsMeasure List.length where
  append _ _ := List.length_append
  pos _ := List.length_pos_of_ne_nil

/-- The number of bytes of a text. -/
def byteLength (cs : List Char) : Nat := (String.ofList cs).utf8ByteSize

theorem isMeasure_byteLength : IsMeasure byteLength where
  append cs ds := by rw [byteLength, String.ofList_append, String.utf8ByteSize_append]; rfl
  pos cs h := by
    rw [byteLength, Nat.pos_iff_ne_zero, ne_eq, String.utf8ByteSize_eq_zero_iff]
    simpa using h

/-- The sizes of the texts before the exposed characters of a text. -/
def offsetsBy (size : List Char → Nat) (cs : List Char) : List Nat :=
  (topLevelOffsets cs).map fun n => size (cs.take n)

/-- The offsets of the exposed characters of a text in its bytes. -/
def byteOffsets : List Char → List Nat := offsetsBy byteLength

theorem offsetsBy_length (cs : List Char) : offsetsBy List.length cs = topLevelOffsets cs := by
  refine (List.map_congr_left fun n hn => ?_).trans (List.map_id _)
  have := lt_of_mem_offsetsFrom hn
  rw [List.length_take, id]
  omega

/-- Where a position comes to be when the empty literal after `a` becomes a literal of `v`: one
behind the literal is moved. -/
def pastLiteral (size : List Char → Nat) (a v : List Char) (n : Nat) : Nat :=
  if n < size a + size (quote []) then n else n + (size (quote v) - size (quote []))

section Measures

variable {size : List Char → Nat} (hsize : IsMeasure size)
  (h : (ScanState.start.run a).mode = .code) (v b : List Char)

include hsize

theorem IsMeasure.size_take_lt (hn : n < cs.length) : size (cs.take n) < size cs := by
  have hpos := hsize.pos (cs.drop n) (List.ne_nil_of_length_pos (by rw [List.length_drop]; omega))
  have happend := hsize.append (cs.take n) (cs.drop n)
  rw [List.take_append_drop] at happend
  omega

theorem IsMeasure.size_quote_le : size (quote []) ≤ size (quote v) := by
  have hempty : quote [] = ['\''] ++ ([] ++ ['\'']) := quote_nil
  have hquote : quote v = ['\''] ++ (escape v ++ ['\'']) := rfl
  have hnil : size ([] ++ []) = size [] + size [] := hsize.append [] []
  rw [List.append_nil] at hnil
  rw [hempty, hquote, hsize.append, hsize.append, hsize.append, hsize.append (escape v)]
  omega

include h

theorem offsetsBy_quote_eq : offsetsBy size (a ++ (quote v ++ b)) = offsetsBy size a ++
    (offsetsFrom (ScanState.start.run a) 0 b).map fun n =>
      size a + size (quote v) + size (b.take n) := by
  rw [offsetsBy, topLevelOffsets_quote h, List.map_append, List.map_map]
  refine congrArg₂ _ (List.map_congr_left fun n hn => ?_) (List.map_congr_left fun n _ => ?_)
  · have := lt_of_mem_offsetsFrom hn
    rw [List.take_append_of_le_length (by omega)]
  · rw [Function.comp_apply, Nat.add_assoc, List.take_length_add_append,
      List.take_length_add_append, hsize.append, hsize.append, Nat.add_assoc]

/-- **A literal moves what is behind it** and has no exposed character. -/
theorem offsetsBy_quote : offsetsBy size (a ++ (quote v ++ b)) =
    (offsetsBy size (a ++ (quote [] ++ b))).map (pastLiteral size a v) := by
  have hle := hsize.size_quote_le v
  rw [offsetsBy_quote_eq hsize h, offsetsBy_quote_eq hsize h, List.map_append, List.map_map,
    offsetsBy, List.map_map]
  refine congrArg₂ _ (List.map_congr_left fun n hn => ?_) (List.map_congr_left fun n _ => ?_)
  · have hlt := hsize.size_take_lt (by simpa using lt_of_mem_offsetsFrom hn : n < a.length)
    rw [Function.comp_apply, pastLiteral, if_pos (by omega)]
  · rw [Function.comp_apply, pastLiteral, if_neg (by omega)]
    omega

theorem offsetsBy_quote_outside (hn : n ∈ offsetsBy size (a ++ (quote v ++ b))) :
    n < size a ∨ size a + size (quote v) ≤ n := by
  rw [offsetsBy_quote_eq hsize h, List.mem_append, offsetsBy, List.mem_map, List.mem_map] at hn
  rcases hn with ⟨m, hm, rfl⟩ | ⟨m, _, rfl⟩
  · exact .inl (hsize.size_take_lt (by simpa using lt_of_mem_offsetsFrom hm))
  · exact .inr (by omega)

end Measures

/-! ## The search for clauses -/

theorem startsWithWord_append_mark {mark : Char} (hword : mark ∉ word)
    (hmark : isBlank mark = false) (cs ds ds' : List Char)
    (h : startsWithWord word (cs ++ mark :: ds) = true) :
    startsWithWord word (cs ++ mark :: ds') = true := by
  obtain ⟨rest, e, hrest⟩ := startsWithWord_iff.mp h
  refine startsWithWord_iff.mpr ?_
  rcases List.append_eq_append_iff.mp e with ⟨part, rfl, rfl⟩ | ⟨part, rfl, e'⟩
  · refine ⟨part ++ mark :: ds', (List.append_assoc ..).symm, ?_⟩
    cases part with
    | nil => exact absurd hrest (by simp [hmark])
    | cons c part => exact hrest
  · -- the mark is behind the word, because the word does not have it
    cases part with
    | nil =>
      obtain rfl : mark :: ds = rest := e'
      exact absurd hrest (by simp [hmark])
    | cons c part =>
      obtain ⟨rfl, _⟩ := List.cons.inj e'
      exact absurd (List.mem_append_right _ List.mem_cons_self) hword

theorem pastLiteral_add (a v : List Char) (n : Nat) :
    pastLiteral List.length a v (n + (a.length + 2)) = n + (a.length + (quote v).length) := by
  have hle := isMeasure_length.size_quote_le v
  rw [quote_nil, List.length_cons, List.length_singleton] at hle
  rw [pastLiteral, quote_nil, List.length_cons, List.length_singleton, if_neg (by omega)]
  omega

theorem pastLiteral_cons (c : Char) (a v : List Char) (n : Nat) :
    pastLiteral List.length (c :: a) v (n + 1) = pastLiteral List.length a v n + 1 := by
  simp only [pastLiteral, List.length_cons]
  split <;> split <;> omega

/-- The search goes through a literal. -/
theorem findWordFrom?_quote_append (h : s.mode = .code) (last : Option Char) (v b : List Char) :
    findWordFrom? word s last (quote v ++ b) =
      (findWordFrom? word s (some '\'') b).map (· + (quote v).length) := by
  have hlast : lastRead last (quote v) = some '\'' := by
    rw [quote, lastRead, lastRead_append]
    rfl
  rw [findWordFrom?_of_passes (passes_of_unexposed (exposed_quote_of_code h v)),
    run_quote_of_code h, hlast]

theorem findWordFrom?_quote (hword : '\'' ∉ word) {last : Option Char}
    (h : (s.run a).mode = .code) (v b : List Char) :
    findWordFrom? word s last (a ++ (quote v ++ b)) =
      (findWordFrom? word s last (a ++ (quote [] ++ b))).map (pastLiteral List.length a v) := by
  induction a generalizing s last with
  | nil =>
    have hcode : s.mode = .code := h
    have hlength : (quote []).length = 2 := rfl
    rw [List.nil_append, List.nil_append, findWordFrom?_quote_append hcode,
      findWordFrom?_quote_append hcode, Option.map_map, hlength]
    congr 1
    funext n
    simpa using (pastLiteral_add [] v n).symm
  | cons c a ih =>
    have hstart : startsWithWord word (c :: (a ++ (quote v ++ b))) =
        startsWithWord word (c :: (a ++ (quote [] ++ b))) :=
      Bool.eq_iff_iff.mpr ⟨startsWithWord_append_mark hword rfl (c :: a) _ _,
        startsWithWord_append_mark hword rfl (c :: a) _ _⟩
    rw [List.cons_append, List.cons_append, findWordFrom?, findWordFrom?, hstart, ih h]
    split
    · rw [Option.map_some, pastLiteral, if_pos (by rw [List.length_cons]; omega)]
    · simp only [Option.map_map, Function.comp_def, pastLiteral_cons]

theorem Clause.mark_notMem_keyword (k : Clause) : '\'' ∉ k.keyword.toList := by
  cases k <;> decide

/-- **A literal moves the clauses behind it** and neither starts one nor hides one. -/
theorem findKeyword?_quote (h : (ScanState.start.run a).mode = .code) (k : Clause)
    (v b : List Char) : findKeyword? k (a ++ (quote v ++ b)) =
      (findKeyword? k (a ++ (quote [] ++ b))).map (pastLiteral List.length a v) :=
  findWordFrom?_quote k.mark_notMem_keyword h v b

theorem clausesStart_quote (h : (ScanState.start.run a).mode = .code) (v b : List Char) :
    clausesStart (a ++ (quote v ++ b)) =
      pastLiteral List.length a v (clausesStart (a ++ (quote [] ++ b))) := by
  have hend : (a ++ (quote v ++ b)).length =
      pastLiteral List.length a v (a ++ (quote [] ++ b)).length := by
    have hempty : (a ++ (quote [] ++ b)).length = b.length + (a.length + 2) := by
      simp only [quote, escape, List.length_append, List.length_cons, List.length_nil]
      omega
    rw [hempty, pastLiteral_add, List.length_append, List.length_append]
    omega
  have hmin (m n : Nat) : min (pastLiteral List.length a v m) (pastLiteral List.length a v n) =
      pastLiteral List.length a v (min m n) := by
    simp only [pastLiteral]
    split_ifs <;> omega
  have hfound : Clause.all.filterMap (findKeyword? · (a ++ (quote v ++ b))) =
      (Clause.all.filterMap (findKeyword? · (a ++ (quote [] ++ b)))).map
        (pastLiteral List.length a v) := by
    rw [List.map_filterMap]
    exact List.filterMap_congr fun k _ => findKeyword?_quote h k v b
  rw [clausesStart, clausesStart, hfound, hend, List.foldl_map]
  exact List.foldl_hom (pastLiteral List.length a v) hmin

/-! ## Cuts at commas -/

/-- **A literal lies in one piece**, and the cuts are where they are around any other literal. -/
theorem pieces_quote (h : (ScanState.start.run a).mode = .code) (b : List Char) :
    ∃ init before after rest, pieces a = init ++ [before] ∧
      piecesFrom (ScanState.start.run a) b = after :: rest ∧
      ∀ v, pieces (a ++ (quote v ++ b)) = init ++ (before ++ (quote v ++ after)) :: rest := by
  obtain ⟨init, before, ha, happend⟩ := exists_piecesFrom_append .start a
  obtain ⟨after, rest, hb⟩ :=
    List.exists_cons_of_ne_nil (piecesFrom_ne_nil (ScanState.start.run a) b)
  refine ⟨init, before, after, rest, ha, hb,
    fun v => happend _ _ _ (piecesFrom_append_left ?_ ?_)⟩
  · rw [exposed_quote_of_code h]
    exact List.not_mem_nil
  · rw [run_quote_of_code h, hb]

/-- **A literal is one opaque token.** Let a literal of any text stand in a text, outside other
literals. Then the exposed characters are those around the empty literal, those behind it moved by
what the literal is longer, in characters as in bytes, and none of them is in the literal. The
literal stands for its text. So wherever a clause starts it starts around the empty literal, and the
text is cut at the same commas whatever the literal says. -/
theorem quote_opaque (h : (ScanState.start.run a).mode = .code) (v b : List Char) :
    topLevelOffsets (a ++ (quote v ++ b)) =
        (topLevelOffsets (a ++ (quote [] ++ b))).map (pastLiteral List.length a v) ∧
      (∀ n ∈ topLevelOffsets (a ++ (quote v ++ b)),
        n < a.length ∨ a.length + (quote v).length ≤ n) ∧
      byteOffsets (a ++ (quote v ++ b)) =
        (byteOffsets (a ++ (quote [] ++ b))).map (pastLiteral byteLength a v) ∧
      (∀ n ∈ byteOffsets (a ++ (quote v ++ b)),
        n < byteLength a ∨ byteLength a + byteLength (quote v) ≤ n) ∧
      unquote (quote v) = v ∧
      (∀ k, findKeyword? k (a ++ (quote v ++ b)) =
        (findKeyword? k (a ++ (quote [] ++ b))).map (pastLiteral List.length a v)) ∧
      clausesStart (a ++ (quote v ++ b)) =
        pastLiteral List.length a v (clausesStart (a ++ (quote [] ++ b))) ∧
      ∃ init before after rest, pieces a = init ++ [before] ∧
        piecesFrom (ScanState.start.run a) b = after :: rest ∧
        ∀ w, pieces (a ++ (quote w ++ b)) = init ++ (before ++ (quote w ++ after)) :: rest := by
  refine ⟨?_, ?_, offsetsBy_quote isMeasure_byteLength h v b,
    fun n => offsetsBy_quote_outside isMeasure_byteLength h v b, unquote_quote v,
    fun k => findKeyword?_quote h k v b, clausesStart_quote h v b, pieces_quote h b⟩
  · rw [← offsetsBy_length, ← offsetsBy_length]
    exact offsetsBy_quote isMeasure_length h v b
  · rw [← offsetsBy_length]
    exact fun n => offsetsBy_quote_outside isMeasure_length h v b

theorem quote_opaque_comment :
    (ScanState.start.run "Log() COMMENT ".toList).mode = .code ∧
      unquote (quote "it's \\, TTL (".toList) = "it's \\, TTL (".toList ∧
      findKeyword? .ttl ("Log() COMMENT ".toList ++
        (quote "it's \\, TTL (".toList ++ " ORDER BY id, ts".toList)) = none ∧
      clausesStart ("Log() COMMENT ".toList ++
        (quote "it's \\, TTL (".toList ++ " ORDER BY id, ts".toList)) = 32 := by
  have h : (ScanState.start.run "Log() COMMENT ".toList).mode = .code := by decide
  obtain ⟨-, -, -, -, hunquote, hfind, hstart, -⟩ :=
    quote_opaque h "it's \\, TTL (".toList " ORDER BY id, ts".toList
  exact ⟨h, hunquote, (hfind .ttl).trans (by decide), hstart.trans (by decide)⟩

end SchemaPlan.Sql
