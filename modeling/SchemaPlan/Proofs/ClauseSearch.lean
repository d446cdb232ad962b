import Mathlib.Data.List.Infix
import SchemaPlan.Proofs.Exposure
import SchemaPlan.Proofs.Trimming
import SchemaPlan.Sql.Clause

/-!
# Searching for clauses

Where the search for a keyword stops. A part of a text is read with the text that follows it in
view, so that a keyword across their border is not overlooked.

* `Passes`: the search for a word goes through a part of a text without stopping;
  `findWordFrom?_of_passes`, `passes_append`.
* `findWordFrom?_eq_some`: where a search stops; `clausesStart_eq`: no clause starts, or the first
  one does.
* `ClauseTail`: the end of a text, or a clause after blanks.
* `trim_take_clausesStart`: what stands before a tail of clauses is cut out whole.
-/

namespace SchemaPlan.Sql

variable {word rest cs ds : List Char} {s : ScanState} {before : Option Char}

/-! ## Words -/

theorem startsWithWord_iff {cs : List Char} : startsWithWord word cs = true ↔
    ∃ rest, word ++ rest = cs ∧ rest.head?.all isBlank = true := by
  rw [startsWithWord]
  cases h : word.isPrefixOf? cs with
  | none =>
    refine ⟨fun e => absurd e (by simp), fun ⟨rest, e, _⟩ => ?_⟩
    rw [List.isPrefixOf?_eq_some_iff_append_eq.mpr e] at h
    cases h
  | some rest =>
    have e := List.isPrefixOf?_eq_some_iff_append_eq.mp h
    refine ⟨fun hb => ⟨rest, e, hb⟩, fun ⟨rest', e', hb⟩ => ?_⟩
    rwa [List.append_cancel_left (e.trans e'.symm)]

theorem startsWithWord_of_head {c d : Char} {cs : List Char} (hc : word.head? = some c)
    (h : c ≠ d) : startsWithWord word (d :: cs) = false := by
  rw [Bool.eq_false_iff]
  intro e
  obtain ⟨rest, e, _⟩ := startsWithWord_iff.mp e
  obtain ⟨tail, rfl⟩ := List.head?_eq_some_iff.mp hc
  exact h (List.cons.inj e).1

/-- No border of `word` crosses into `rest`: a word that ends in `rest` starts there. -/
def Bordered (word rest : List Char) : Prop :=
  ∀ part, part <:+ word → part ≠ word → part <+: rest → part = []

theorem startsWithWord_of_append {c : Char} (hborder : Bordered word rest)
    (h : startsWithWord word (c :: cs ++ rest) = true) :
    startsWithWord word (c :: cs) = true := by
  obtain ⟨after, e, hafter⟩ := startsWithWord_iff.mp h
  refine startsWithWord_iff.mpr ?_
  rcases List.append_eq_append_iff.mp e with ⟨part, e₁, e₂⟩ | ⟨part, e₁, e₂⟩
  · refine ⟨part, e₁.symm, ?_⟩
    cases part with
    | nil => rfl
    | cons d part =>
      rw [e₂] at hafter
      exact hafter
  · -- the word reaches into `rest`, so that its part there is empty
    have hpart : part = [] := by
      refine hborder part ⟨_, e₁.symm⟩ (fun e => ?_) ⟨_, e₂.symm⟩
      have := congrArg List.length e₁
      rw [e, List.length_append, List.length_cons] at this
      omega
    rw [hpart, List.append_nil] at e₁
    exact ⟨[], by rw [List.append_nil, e₁], rfl⟩

/-! ## Passing through a text -/

/-- The character read last, after `cs`. -/
def lastRead (before : Option Char) : List Char → Option Char
  | [] => before
  | c :: cs => lastRead (some c) cs

@[simp] theorem lastRead_append (before : Option Char) (cs ds : List Char) :
    lastRead before (cs ++ ds) = lastRead (lastRead before cs) ds := by
  induction cs generalizing before with
  | nil => rfl
  | cons c cs ih => exact ih (some c)

theorem lastRead_blanks (hne : cs ≠ []) (h : ∀ b ∈ cs, isBlank b = true) :
    (lastRead before cs).any isBlank = true := by
  rw [← List.dropLast_concat_getLast hne, lastRead_append]
  exact h _ (List.getLast_mem hne)

/-- The search for `word` goes through the text before `rest` without stopping. -/
def Passes (word rest : List Char) (s : ScanState) (before : Option Char) : List Char → Prop
  | [] => True
  | c :: cs =>
    (s.exposes c && before.any isBlank && startsWithWord word (c :: cs ++ rest)) = false ∧
      Passes word rest (s.step c) (some c) cs

theorem findWordFrom?_of_passes (h : Passes word rest s before cs) :
    findWordFrom? word s before (cs ++ rest) =
      (findWordFrom? word (s.run cs) (lastRead before cs) rest).map (· + cs.length) := by
  induction cs generalizing s before with
  | nil => simp [lastRead]
  | cons c cs ih =>
    obtain ⟨hc, hcs⟩ := h
    rw [List.cons_append] at hc ⊢
    rw [findWordFrom?, if_neg (by simp [hc]), ih hcs, Option.map_map, ScanState.run_cons, lastRead]
    congr 1

theorem passes_append : Passes word rest s before (cs ++ ds) ↔
    Passes word (ds ++ rest) s before cs ∧
      Passes word rest (s.run cs) (lastRead before cs) ds := by
  induction cs generalizing s before with
  | nil => simp [Passes, lastRead]
  | cons c cs ih =>
    rw [List.cons_append, Passes, Passes, ih, and_assoc, List.cons_append, List.append_assoc]
    rfl

theorem passes_nil_iff : Passes word [] s before cs ↔ findWordFrom? word s before cs = none := by
  induction cs generalizing s before with
  | nil => simp [Passes, findWordFrom?]
  | cons c cs ih =>
    rw [Passes, findWordFrom?, ih, List.append_nil]
    split
    · rename_i hc
      simp [hc]
    · rename_i hc
      simp [Bool.eq_false_iff.mpr hc]

theorem Passes.of_nil (h : Passes word [] s before cs) (hborder : Bordered word rest) :
    Passes word rest s before cs := by
  induction cs generalizing s before with
  | nil => trivial
  | cons c cs ih =>
    obtain ⟨hc, hcs⟩ := h
    refine ⟨?_, ih hcs⟩
    rw [Bool.eq_false_iff] at hc ⊢
    intro e
    rw [Bool.and_eq_true] at e
    rw [List.append_nil, e.1, startsWithWord_of_append hborder e.2] at hc
    exact hc rfl

theorem passes_of_unexposed (h : exposed s cs = []) : Passes word rest s before cs := by
  induction cs generalizing s before with
  | nil => trivial
  | cons c cs ih =>
    rw [exposed] at h
    split at h
    · cases h
    · rename_i hc
      exact ⟨by simp [hc], ih h⟩

theorem passes_of_blankless (h : ∀ c ∈ cs, isBlank c = false)
    (hbefore : before.any isBlank = false) : Passes word rest s before cs := by
  induction cs generalizing s before with
  | nil => trivial
  | cons c cs ih =>
    exact ⟨by simp [hbefore], ih (fun d hd => h d (List.mem_cons_of_mem _ hd))
      (h c List.mem_cons_self)⟩

theorem passes_of_notMem {c : Char} (hhead : word.head? = some c) (h : c ∉ cs) :
    Passes word rest s before cs := by
  induction cs generalizing s before with
  | nil => trivial
  | cons d cs ih =>
    have hne : c ≠ d := fun e => h (e ▸ List.mem_cons_self)
    refine ⟨?_, ih fun hc => h (List.mem_cons_of_mem _ hc)⟩
    rw [List.cons_append, startsWithWord_of_head hhead hne, Bool.and_false]

theorem passes_blanks {c : Char} (hhead : word.head? = some c) (hc : isBlank c = false)
    (h : ∀ b ∈ cs, isBlank b = true) : Passes word rest s before cs :=
  passes_of_notMem hhead fun hmem => ne_of_isBlank (h c hmem) hc rfl

theorem Passes.of_head_blank {before' : Option Char} {c : Char} (h : Passes word rest s before cs)
    (hhead : word.head? = some c) (hc : isBlank c = false)
    (hcs : cs.head?.all isBlank = true) : Passes word rest s before' cs := by
  cases cs with
  | nil => trivial
  | cons b cs =>
    have hne : c ≠ b := (ne_of_isBlank hcs hc).symm
    refine ⟨?_, h.2⟩
    rw [List.cons_append, startsWithWord_of_head hhead hne, Bool.and_false]

theorem passes_parenthesized (h : Balanced cs) :
    Passes word rest .start before ('(' :: (cs ++ [')'])) :=
  passes_of_unexposed h.exposed_parenthesized

theorem findWordFrom?_here {c : Char} (hhead : word.head? = some c)
    (hc : ScanState.start.exposes c = true) (hbefore : before.any isBlank = true)
    (hrest : rest.head?.all isBlank = true) :
    findWordFrom? word .start before (word ++ rest) = some 0 := by
  obtain ⟨tail, rfl⟩ := List.head?_eq_some_iff.mp hhead
  rw [List.cons_append, findWordFrom?, if_pos]
  rw [hc, hbefore, Bool.true_and, Bool.true_and]
  exact startsWithWord_iff.mpr ⟨rest, rfl, hrest⟩

/-- A search stops at an exposed character that comes after a blank and starts the word. -/
theorem findWordFrom?_eq_some {n : Nat} (h : findWordFrom? word s before cs = some n) :
    ∃ c rest, cs.drop n = c :: rest ∧ (s.run (cs.take n)).exposes c = true ∧
      (lastRead before (cs.take n)).any isBlank = true ∧
      startsWithWord word (c :: rest) = true := by
  induction cs generalizing s before n with
  | nil => cases h
  | cons c cs ih =>
    rw [findWordFrom?] at h
    split at h
    · rename_i hstop
      rw [Bool.and_eq_true, Bool.and_eq_true] at hstop
      obtain rfl : 0 = n := Option.some.inj h
      exact ⟨c, cs, rfl, hstop.1.1, hstop.1.2, hstop.2⟩
    · obtain ⟨m, hm, rfl⟩ := Option.map_eq_some_iff.mp h
      exact ih hm

/-- Where nothing is exposed, what comes before makes no difference. -/
theorem findWordFrom?_of_ne_start (h : s ≠ .start) (before before' : Option Char) :
    findWordFrom? word s before cs = findWordFrom? word s before' cs := by
  cases cs with
  | nil => rfl
  | cons c cs =>
    have hc := ScanState.exposes_of_ne_start h c
    rw [findWordFrom?, findWordFrom?, if_neg (by simp [hc]), if_neg (by simp [hc])]

/-! ## Keywords -/

namespace Clause

theorem mem_all (k : Clause) : k ∈ all := by cases k <;> decide

theorem keyword_head (k : Clause) : ∃ c, k.keyword.toList.head? = some c ∧
    (c = 'P' ∨ c = 'O' ∨ c = 'S' ∨ c = 'T') := by
  cases k
  case partitionBy => exact ⟨'P', rfl, .inl rfl⟩
  case primaryKey => exact ⟨'P', rfl, .inl rfl⟩
  case orderBy => exact ⟨'O', rfl, .inr (.inl rfl)⟩
  case sampleBy => exact ⟨'S', rfl, .inr (.inr (.inl rfl))⟩
  case ttl => exact ⟨'T', rfl, .inr (.inr (.inr rfl))⟩
  case settings => exact ⟨'S', rfl, .inr (.inr (.inl rfl))⟩

theorem keyword_head_exposes (k : Clause) : ∃ c, k.keyword.toList.head? = some c ∧
    isBlank c = false ∧ ScanState.start.exposes c = true := by
  obtain ⟨c, hc, h⟩ := k.keyword_head
  refine ⟨c, hc, ?_⟩
  rcases h with rfl | rfl | rfl | rfl <;> decide

/-- A part of a keyword that starts with a blank goes on with a letter that starts no keyword. -/
theorem keyword_inner (k : Clause) : ∀ part ∈ k.keyword.toList.tails,
    part.head?.any isBlank = true → part.tail.head? = some 'B' ∨ part.tail.head? = some 'K' := by
  cases k <;> decide

theorem passes_keyword {k k' : Clause} (h : k ≠ k') (rest : List Char) (before : Option Char) :
    Passes k.keyword.toList rest .start before k'.keyword.toList := by
  have key : ∀ c cs, k'.keyword.toList = c :: cs →
      startsWithWord k.keyword.toList (c :: cs ++ rest) = false →
      Passes k.keyword.toList rest (ScanState.start.step c) (some c) cs →
      Passes k.keyword.toList rest .start before k'.keyword.toList := by
    intro c cs e hword htail
    rw [e]
    exact ⟨by rw [hword, Bool.and_false], htail⟩
  cases k <;> cases k' <;> first
    | exact absurd rfl h
    | exact key _ _ rfl rfl (by repeat' first | exact trivial | refine ⟨rfl, ?_⟩)

theorem run_keyword (k : Clause) : ScanState.start.run k.keyword.toList = .start := by
  cases k <;> decide

end Clause

/-! ## Tails of clauses -/

/-- The end of a text, or a clause after blanks. -/
inductive ClauseTail : List Char → Prop
  | nil : ClauseTail []
  | clause (gap : List Char) (k : Clause) (rest : List Char) (hne : gap ≠ [])
      (hgap : ∀ b ∈ gap, isBlank b = true) (hrest : rest.head?.all isBlank = true) :
      ClauseTail (gap ++ (k.keyword.toList ++ rest))

theorem ClauseTail.head?_all (h : ClauseTail rest) : rest.head?.all isBlank = true := by
  cases h with
  | nil => rfl
  | clause gap k rest hne hgap hrest =>
    obtain ⟨b, gap, rfl⟩ := List.exists_cons_of_ne_nil hne
    exact hgap b List.mem_cons_self

theorem bordered_of_blank (k : Clause) {b : Char} (hb : isBlank b = true)
    (hrest : ∀ d ∈ rest.head?, d ≠ 'B' ∧ d ≠ 'K') : Bordered k.keyword.toList (b :: rest) := by
  intro part hsuffix _ hprefix
  cases part with
  | nil => rfl
  | cons c part =>
    obtain ⟨rfl, hnext⟩ := List.cons_prefix_cons.mp hprefix
    have hinner := k.keyword_inner _ ((List.mem_tails _ _).mpr hsuffix) hb
    cases part with
    | nil => simp at hinner
    | cons e part =>
      obtain ⟨after, rfl⟩ := hnext
      simp only [List.tail_cons, List.head?_cons, Option.some.injEq] at hinner
      exact absurd hinner (not_or.mpr (hrest e rfl))

theorem bordered_of_notMem {c : Char} (h : c ∉ word) : Bordered word (c :: rest) := by
  intro part hsuffix _ hprefix
  cases part with
  | nil => rfl
  | cons d part =>
    obtain ⟨rfl, _⟩ := List.cons_prefix_cons.mp hprefix
    exact absurd (hsuffix.subset List.mem_cons_self) h

theorem ClauseTail.bordered (h : ClauseTail rest) (k : Clause) :
    Bordered k.keyword.toList rest := by
  cases h with
  | nil => exact fun part _ _ hprefix => List.prefix_nil.mp hprefix
  | clause gap k' rest hne hgap _ =>
    obtain ⟨b, gap, rfl⟩ := List.exists_cons_of_ne_nil hne
    have hb := hgap b List.mem_cons_self
    -- the tail goes on with a blank or with the first letter of its keyword
    cases gap with
    | nil =>
      obtain ⟨c, hc, hletter⟩ := k'.keyword_head
      obtain ⟨tail, htail⟩ := List.head?_eq_some_iff.mp hc
      rw [htail]
      refine bordered_of_blank k hb fun d hd => ?_
      obtain rfl : c = d := Option.some.inj hd
      rcases hletter with rfl | rfl | rfl | rfl <;> decide
    | cons d gap =>
      have hd := hgap d (by simp)
      refine bordered_of_blank k hb fun e he => ?_
      obtain rfl : d = e := Option.some.inj he
      exact ⟨ne_of_isBlank hd (by decide), ne_of_isBlank hd (by decide)⟩

theorem clausesStart_of_first {n : Nat} (k : Clause) (hn : findKeyword? k cs = some n)
    (hle : n ≤ cs.length) (hfirst : ∀ k' m, findKeyword? k' cs = some m → n ≤ m) :
    clausesStart cs = n := by
  have hmin : (cs.length :: Clause.all.filterMap (findKeyword? · cs)).min? = some n := by
    refine List.min?_eq_some_iff.mpr ⟨List.mem_cons_of_mem _ ?_, fun m hm => ?_⟩
    · exact List.mem_filterMap.mpr ⟨k, k.mem_all, hn⟩
    · rcases List.mem_cons.mp hm with rfl | hm
      · exact hle
      · obtain ⟨k', _, hk'⟩ := List.mem_filterMap.mp hm
        exact hfirst k' m hk'
  exact Option.some.inj (List.min?_cons'.symm.trans hmin)

/-- No clause starts in a text, or the first one starts where its keyword is found. -/
theorem clausesStart_eq (cs : List Char) :
    (∀ k, findKeyword? k cs = none) ∧ clausesStart cs = cs.length ∨
      ∃ k, findKeyword? k cs = some (clausesStart cs) := by
  rcases eq_or_ne (Clause.all.filterMap (findKeyword? · cs)) [] with hnil | hne
  · refine .inl ⟨fun k => List.filterMap_eq_nil_iff.mp hnil k k.mem_all, ?_⟩
    rw [clausesStart, hnil, List.foldl_nil]
  · right
    have hmin : (cs.length :: Clause.all.filterMap (findKeyword? · cs)).min? =
        some (clausesStart cs) := List.min?_cons'
    obtain ⟨hmem, hle⟩ := List.min?_eq_some_iff.mp hmin
    have hfound : clausesStart cs ∈ Clause.all.filterMap (findKeyword? · cs) := by
      refine (List.mem_cons.mp hmem).resolve_left fun hend => ?_
      -- a keyword that is found starts before the end of the text
      obtain ⟨n, hn⟩ := List.exists_mem_of_ne_nil _ hne
      obtain ⟨k, _, hk⟩ := List.mem_filterMap.mp hn
      obtain ⟨c, rest, hdrop, _⟩ := findWordFrom?_eq_some hk
      have hlength := congrArg List.length hdrop
      rw [List.length_drop, List.length_cons] at hlength
      have := hle n (List.mem_cons_of_mem _ hn)
      omega
    obtain ⟨k, _, hk⟩ := List.mem_filterMap.mp hfound
    exact ⟨k, hk⟩

/-- **What stands before a tail of clauses is cut out whole.** -/
theorem trim_take_clausesStart (ht : ClauseTail rest) (hrun : ScanState.start.run cs = .start)
    (hpass : ∀ k : Clause, Passes k.keyword.toList rest .start none cs) :
    trim ((cs ++ rest).take (clausesStart (cs ++ rest))) = trim cs := by
  have hfind (k : Clause) : findKeyword? k (cs ++ rest) =
      (findWordFrom? k.keyword.toList .start (lastRead none cs) rest).map (· + cs.length) := by
    rw [findKeyword?, findWordFrom?_of_passes (hpass k), hrun]
  cases ht with
  | nil =>
    have hnone : Clause.all.filterMap (findKeyword? · (cs ++ [])) = [] :=
      List.filterMap_eq_nil_iff.mpr fun k _ => hfind k
    rw [clausesStart, hnone, List.foldl_nil, List.take_length, List.append_nil]
  | clause gap k rest hne hgap hrest =>
    have hgap' (k' : Clause) : findKeyword? k' (cs ++ (gap ++ (k.keyword.toList ++ rest))) =
        (findWordFrom? k'.keyword.toList .start (lastRead (lastRead none cs) gap)
          (k.keyword.toList ++ rest)).map (· + gap.length + cs.length) := by
      obtain ⟨c, hc, hb, _⟩ := k'.keyword_head_exposes
      rw [hfind, findWordFrom?_of_passes (passes_blanks hc hb hgap),
        ScanState.run_start_blanks hgap, Option.map_map]
      rfl
    have hstart : clausesStart (cs ++ (gap ++ (k.keyword.toList ++ rest))) =
        (cs ++ gap).length := by
      refine clausesStart_of_first k ?_ ?_ fun k' m hm => ?_
      · obtain ⟨c, hc, _, he⟩ := k.keyword_head_exposes
        rw [hgap', findWordFrom?_here hc he (lastRead_blanks hne hgap) hrest, Option.map_some,
          List.length_append]
        congr 1
        omega
      · simp only [List.length_append]
        omega
      · rw [hgap'] at hm
        obtain ⟨n, _, rfl⟩ := Option.map_eq_some_iff.mp hm
        rw [List.length_append]
        omega
    rw [hstart, ← List.append_assoc, List.take_left, trim_append_blanks hgap]

end SchemaPlan.Sql
