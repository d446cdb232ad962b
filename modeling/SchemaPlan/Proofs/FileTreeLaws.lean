import Mathlib.Tactic.SplitIfs
import SchemaPlan.Files.FileTree
import SchemaPlan.Proofs.PairedLists

/-!
# Laws of file trees

What lies where after a change, and which places the paths of a tree name.

* `node?_put`, `nodes_put`: a node that was put at a place.
* `Keeps`: nothing that was there changed; `KeepsDirectories`: no directory did; `WellFormed`:
  everything lies in a directory.
* `follow`: the place that names lead to, whatever lies on the way.
* `keeps_makeWay`, `files_makeWay`, `walk_makeWay`: directories that were created, and the way
  through them; `makeWay_of_walk`, `makeWay_append`: they are created once.
-/

namespace SchemaPlan.FileTree

variable {t u v : FileTree} {place other here : Place} {name : String} {names more : List String}
  {node : FileNode}

/-! ## Nodes -/

theorem node?_of_ne_nil (h : place ≠ []) :
    t.node? place = (t.nodes.find? (·.1 = place)).map (·.2) := by
  cases place with
  | nil => exact absurd rfl h
  | cons => rfl

theorem nodes_put (h : place ≠ []) (hfree : t.node? place = none) (node : FileNode) :
    (t.put place node).nodes = t.nodes ++ [(place, node)] := by
  rw [node?_of_ne_nil h, Option.map_eq_none_iff, List.find?_eq_none] at hfree
  have hany : t.nodes.any (·.1 = place) = false := List.any_eq_false.mpr hfree
  simp [put, hany]

theorem node?_put (h : place ≠ []) (t : FileTree) (node : FileNode) (other : Place) :
    (t.put place node).node? other = if other = place then some node else t.node? other := by
  by_cases hroot : other = []
  · subst hroot
    rw [if_neg (Ne.symm h)]
    rfl
  rw [node?_of_ne_nil hroot, node?_of_ne_nil hroot, put]
  cases hany : t.nodes.any (·.1 = place) with
  | true =>
    -- what is found stays at its place, with another node if it is at this one
    have hsame : ((fun entry => decide (entry.1 = other)) ∘ fun entry : Place × FileNode =>
        if entry.1 = place then (place, node) else entry) =
          fun entry => decide (entry.1 = other) := by
      funext entry
      by_cases h : entry.1 = place <;> simp [h]
    simp only [if_true, List.find?_map, hsame]
    cases hfind : t.nodes.find? (·.1 = other) with
    | none =>
      have hne : other ≠ place := by
        rintro rfl
        obtain ⟨entry, hentry, hplace⟩ := List.any_eq_true.mp hany
        exact List.find?_eq_none.mp hfind entry hentry hplace
      rw [if_neg hne]
      rfl
    | some entry =>
      have hentry : entry.1 = other := by simpa using List.find?_some hfind
      by_cases h : other = place <;> simp [h, hentry]
  | false =>
    simp only [Bool.false_eq_true, if_false, List.find?_append, List.find?_singleton]
    by_cases h : other = place
    · subst h
      have hnone : t.nodes.find? (·.1 = other) = none :=
        List.find?_eq_none.mpr (List.any_eq_false.mp hany)
      simp [hnone]
    · simp [h, Ne.symm h]

theorem node?_put_self (h : place ≠ []) (t : FileTree) (node : FileNode) :
    (t.put place node).node? place = some node := by
  rw [node?_put h, if_pos rfl]

theorem node?_put_of_ne (h : place ≠ []) (t : FileTree) (node : FileNode) (hne : other ≠ place) :
    (t.put place node).node? other = t.node? other := by
  rw [node?_put h, if_neg hne]

/-- The files of a tree, with their places. -/
def files (t : FileTree) : List (Place × Option String) :=
  t.nodes.filterMap fun entry =>
    match entry.2 with
    | .directory => none
    | .file content => some (entry.1, content)

theorem files_put_directory (h : place ≠ []) (hfree : t.node? place = none) :
    (t.put place .directory).files = t.files := by
  simp [files, nodes_put h hfree]

theorem files_put_file (h : place ≠ []) (hfree : t.node? place = none) (content : Option String) :
    (t.put place (.file content)).files = t.files ++ [(place, content)] := by
  simp [files, nodes_put h hfree]

/-! ## Trees that grow -/

/-- Nothing that was there changed. -/
structure Keeps (t u : FileTree) : Prop where
  nodes : ∀ place node, t.node? place = some node → u.node? place = some node
  workingDirectory : u.workingDirectory = t.workingDirectory
  nameLimit : u.nameLimit = t.nameLimit
  pathLimit : u.pathLimit = t.pathLimit

namespace Keeps

theorem refl (t : FileTree) : Keeps t t := ⟨fun _ _ h => h, rfl, rfl, rfl⟩

theorem trans (htu : Keeps t u) (huv : Keeps u v) : Keeps t v where
  nodes place node h := huv.nodes place node (htu.nodes place node h)
  workingDirectory := huv.workingDirectory.trans htu.workingDirectory
  nameLimit := huv.nameLimit.trans htu.nameLimit
  pathLimit := huv.pathLimit.trans htu.pathLimit

theorem put (h : place ≠ []) (hfree : t.node? place = none) (node : FileNode) :
    Keeps t (t.put place node) := by
  refine ⟨fun other node' h' => ?_, rfl, rfl, rfl⟩
  have hne : other ≠ place := by
    rintro rfl
    rw [hfree] at h'
    cases h'
  rw [node?_put_of_ne h t node hne, h']

end Keeps

/-- Every directory that was there still is one, and the bounds on names and paths are the same. -/
structure KeepsDirectories (t u : FileTree) : Prop where
  directories : ∀ place, t.node? place = some .directory → u.node? place = some .directory
  workingDirectory : u.workingDirectory = t.workingDirectory
  nameLimit : u.nameLimit = t.nameLimit
  pathLimit : u.pathLimit = t.pathLimit

namespace KeepsDirectories

theorem refl (t : FileTree) : KeepsDirectories t t := ⟨fun _ h => h, rfl, rfl, rfl⟩

theorem trans (htu : KeepsDirectories t u) (huv : KeepsDirectories u v) : KeepsDirectories t v where
  directories place h := huv.directories place (htu.directories place h)
  workingDirectory := huv.workingDirectory.trans htu.workingDirectory
  nameLimit := huv.nameLimit.trans htu.nameLimit
  pathLimit := huv.pathLimit.trans htu.pathLimit

theorem put (h : t.node? place ≠ some .directory) (content : Option String) :
    KeepsDirectories t (t.put place (.file content)) := by
  have hne : place ≠ [] := by
    rintro rfl
    exact h rfl
  refine ⟨fun other hother => ?_, rfl, rfl, rfl⟩
  rwa [node?_put_of_ne hne]
  rintro rfl
  exact h hother

theorem allowsName (h : KeepsDirectories t u) (name : String) :
    u.allowsName name = t.allowsName name := by
  rw [FileTree.allowsName, h.nameLimit, FileTree.allowsName]

theorem allowsPath (h : KeepsDirectories t u) (path : String) :
    u.allowsPath path = t.allowsPath path := by
  rw [FileTree.allowsPath, h.pathLimit, FileTree.allowsPath]

theorem base (h : KeepsDirectories t u) (path : String) : u.base path = t.base path := by
  rw [FileTree.base, h.workingDirectory, FileTree.base]

end KeepsDirectories

namespace Keeps

theorem keepsDirectories (h : Keeps t u) : KeepsDirectories t u :=
  ⟨fun place => h.nodes place .directory, h.workingDirectory, h.nameLimit, h.pathLimit⟩

theorem allowsName (h : Keeps t u) (name : String) : u.allowsName name = t.allowsName name :=
  h.keepsDirectories.allowsName name

theorem allowsPath (h : Keeps t u) (path : String) : u.allowsPath path = t.allowsPath path :=
  h.keepsDirectories.allowsPath path

theorem base (h : Keeps t u) (path : String) : u.base path = t.base path :=
  h.keepsDirectories.base path

end Keeps

/-- What lies somewhere lies in a directory, and the working directory is there. -/
structure WellFormed (t : FileTree) : Prop where
  parent : ∀ place name node, t.node? (place ++ [name]) = some node →
    t.node? place = some .directory
  working : t.node? t.workingDirectory = some .directory

namespace WellFormed

theorem of_nodes (h : ∀ entry ∈ t.nodes, t.node? entry.1.dropLast = some .directory)
    (working : t.node? t.workingDirectory = some .directory) : t.WellFormed := by
  refine ⟨fun place name node hnode => ?_, working⟩
  rw [node?_of_ne_nil (by simp), Option.map_eq_some_iff] at hnode
  obtain ⟨entry, hfind, _⟩ := hnode
  have hplace : entry.1 = place ++ [name] := by simpa using List.find?_some hfind
  have hparent := h entry (List.mem_of_find?_eq_some hfind)
  rwa [hplace, List.dropLast_concat] at hparent

theorem put (h : t.WellFormed) (hhere : t.node? here = some .directory)
    (hfree : t.node? (here ++ [name]) = none) (node : FileNode) :
    (t.put (here ++ [name]) node).WellFormed := by
  have hkeeps := Keeps.put (by simp) hfree node
  refine ⟨fun place name' node' h' => ?_, hkeeps.nodes _ _ h.working⟩
  by_cases hplace : place ++ [name'] = here ++ [name]
  · obtain ⟨rfl, _⟩ := List.append_inj' hplace rfl
    exact hkeeps.nodes _ _ hhere
  · rw [node?_put_of_ne (by simp) t node hplace] at h'
    exact hkeeps.nodes _ _ (h.parent place name' node' h')

theorem dropLast (h : t.WellFormed) (hhere : t.node? here = some .directory) :
    t.node? here.dropLast = some .directory := by
  rcases List.eq_nil_or_concat here with rfl | ⟨place, name, rfl⟩
  · rfl
  · rw [List.concat_eq_append] at hhere ⊢
    rw [List.dropLast_concat]
    exact h.parent place name _ hhere

end WellFormed

/-! ## Ways -/

/-- The place that names lead to from a directory, whatever lies on the way. -/
def follow (here : Place) : List String → Place
  | [] => here
  | name :: rest =>
    if name = "" ∨ name = "." then follow here rest
    else if name = ".." then follow here.dropLast rest
    else follow (here ++ [name]) rest

theorem follow_append (here : Place) (names more : List String) :
    follow here (names ++ more) = follow (follow here names) more := by
  induction names generalizing here with
  | nil => rfl
  | cons name names ih =>
    simp only [List.cons_append, follow, ih]
    split_ifs <;> rfl

theorem needDirectory_eq_ok_iff :
    t.needDirectory place = .ok () ↔ t.node? place = some .directory := by
  unfold needDirectory
  split <;> simp_all

theorem walk_cons (hhere : t.node? here = some .directory) (name : String) (rest : List String) :
    t.walk here (name :: rest) =
      if name = "" ∨ name = "." then t.walk here rest
      else if name = ".." then t.walk here.dropLast rest
      else if t.allowsName name then t.walk (here ++ [name]) rest
      else .error .invalidName := by
  rw [walk, needDirectory_eq_ok_iff.mpr hhere]
  rfl

theorem walk_append (t : FileTree) (here : Place) (names more : List String) :
    t.walk here (names ++ more) = t.walk here names >>= fun place => t.walk place more := by
  induction names generalizing here with
  | nil => rfl
  | cons name names ih =>
    simp only [List.cons_append, walk, ih, bind_assoc]
    split_ifs <;> rfl

theorem directory_of_walk (h : t.walk here (name :: names) = .ok place) :
    t.node? here = some .directory := by
  rw [walk, bind_eq_ok_iff] at h
  obtain ⟨_, hneed, -⟩ := h
  exact needDirectory_eq_ok_iff.mp hneed

theorem follow_of_walk (h : t.walk here names = .ok place) : place = follow here names := by
  induction names generalizing here with
  | nil => exact (Except.ok.inj h).symm
  | cons name names ih =>
    rw [walk_cons (directory_of_walk h)] at h
    rw [follow]
    split_ifs at h ⊢
    all_goals exact ih h

/-- Where the directories are kept, ways lead where they led. -/
theorem KeepsDirectories.walk (hkeeps : KeepsDirectories t u) (h : t.walk here names = .ok place) :
    u.walk here names = .ok place := by
  induction names generalizing here with
  | nil => exact h
  | cons name names ih =>
    have hhere := directory_of_walk h
    rw [walk_cons hhere] at h
    rw [walk_cons (hkeeps.directories _ hhere), hkeeps.allowsName]
    split_ifs at h ⊢
    all_goals exact ih h

theorem directory_of_walk_to (h : t.walk here names = .ok place)
    (hplace : t.node? place = some .directory) : t.node? here = some .directory := by
  cases names with
  | nil => exact Except.ok.inj h ▸ hplace
  | cons name names => exact directory_of_walk h

/-! ## Directories that are created -/

theorem keeps_makeWay (t : FileTree) (here : Place) (names : List String) :
    Keeps t (t.makeWay here names).2 := by
  fun_induction makeWay t here names with
  | case1 t here => exact .refl t
  | case2 t here name rest h ih => exact ih
  | case3 t here rest _ ih => exact ih
  | case4 t here name rest => exact .refl t
  | case5 t here name rest _ _ _ hnode ih => exact ih
  | case6 t here name rest => exact .refl t
  | case7 t here name rest _ _ _ hnode ih => exact (Keeps.put (by simp) hnode _).trans ih

/-- Only directories are created. -/
theorem files_makeWay (t : FileTree) (here : Place) (names : List String) :
    (t.makeWay here names).2.files = t.files := by
  fun_induction makeWay t here names with
  | case1 | case4 | case6 => rfl
  | case2 t here name rest h ih => exact ih
  | case3 t here rest _ ih => exact ih
  | case5 t here name rest _ _ _ hnode ih => exact ih
  | case7 t here name rest _ _ _ hnode ih => rw [ih, files_put_directory (by simp) hnode]

theorem WellFormed.makeWay (h : t.WellFormed) (hhere : t.node? here = some .directory)
    (names : List String) : (t.makeWay here names).2.WellFormed := by
  fun_induction FileTree.makeWay t here names with
  | case1 | case4 | case6 => exact h
  | case2 t here name rest _ ih => exact ih h hhere
  | case3 t here rest _ ih => exact ih h (h.dropLast hhere)
  | case5 t here name rest _ _ _ hnode ih => exact ih h hnode
  | case7 t here name rest _ _ _ hnode ih =>
    exact ih (h.put hhere hnode _) (node?_put_self (by simp) t _)

/-- **A way that was made can be walked**, and there is a directory at its end. -/
theorem walk_makeWay (h : t.WellFormed) (hhere : t.node? here = some .directory)
    (hmade : (t.makeWay here names).1 = .ok ()) :
    (t.makeWay here names).2.walk here names = .ok (follow here names) ∧
      (t.makeWay here names).2.node? (follow here names) = some .directory := by
  fun_induction makeWay t here names with
  | case1 t here => exact ⟨rfl, hhere⟩
  | case2 t here name rest hname ih =>
    rw [walk_cons ((keeps_makeWay t here rest).nodes _ _ hhere), follow, if_pos hname, if_pos hname]
    exact ih h hhere hmade
  | case3 t here rest hname ih =>
    rw [walk_cons ((keeps_makeWay t here.dropLast rest).nodes _ _ hhere), follow, if_neg hname,
      if_pos rfl, if_neg hname, if_pos rfl]
    exact ih h (h.dropLast hhere) hmade
  | case4 | case6 => cases hmade
  | case5 t here name rest hname hup hallowed hnode ih =>
    have hkeeps := keeps_makeWay t (here ++ [name]) rest
    rw [walk_cons (hkeeps.nodes _ _ hhere), follow, if_neg hname, if_neg hup, if_neg hname,
      if_neg hup, hkeeps.allowsName, if_pos (by simpa using hallowed)]
    exact ih h hnode hmade
  | case7 t here name rest hname hup hallowed hnode ih =>
    have hput := Keeps.put (by simp) hnode .directory
    have hkeeps := hput.trans
      (keeps_makeWay (t.put (here ++ [name]) .directory) (here ++ [name]) rest)
    rw [walk_cons (hkeeps.nodes _ _ hhere), follow, if_neg hname, if_neg hup, if_neg hname,
      if_neg hup, hkeeps.allowsName, if_pos (by simpa using hallowed)]
    exact ih (h.put hhere hnode _) (node?_put_self (by simp) t _) hmade

theorem makeWay_of_walk (h : t.walk here names = .ok place)
    (hplace : t.node? place = some .directory) : t.makeWay here names = (.ok (), t) := by
  induction names generalizing here with
  | nil => rfl
  | cons name names ih =>
    rw [walk_cons (directory_of_walk h)] at h
    rw [makeWay]
    split_ifs at h with hname hup hallowed
    · rw [if_pos hname]
      exact ih h
    · rw [if_neg hname, if_pos hup]
      exact ih h
    · rw [if_neg hname, if_neg hup, if_neg (by simpa using hallowed),
        directory_of_walk_to h hplace]
      exact ih h

theorem makeWay_append (t : FileTree) (here : Place) (names more : List String) :
    t.makeWay here (names ++ more) =
      match t.makeWay here names with
      | (.ok (), u) => u.makeWay (follow here names) more
      | (.error cause, u) => (.error cause, u) := by
  fun_induction makeWay t here names with
  | case1 => rfl
  | case2 t here name rest hname ih =>
    rw [List.cons_append, makeWay, follow, if_pos hname, if_pos hname]
    exact ih
  | case3 t here rest hname ih =>
    rw [List.cons_append, makeWay, follow, if_neg hname, if_pos rfl, if_neg hname, if_pos rfl]
    exact ih
  | case4 t here name rest hname hup hallowed =>
    rw [List.cons_append, makeWay, if_neg hname, if_neg hup, if_pos hallowed]
  | case5 t here name rest hname hup hallowed hnode ih =>
    rw [List.cons_append, makeWay, follow, if_neg hname, if_neg hup, if_neg hallowed, hnode,
      if_neg hname, if_neg hup]
    exact ih
  | case6 t here name rest hname hup hallowed content hnode =>
    rw [List.cons_append, makeWay, if_neg hname, if_neg hup, if_neg hallowed, hnode]
  | case7 t here name rest hname hup hallowed hnode ih =>
    rw [List.cons_append, makeWay, follow, if_neg hname, if_neg hup, if_neg hallowed, hnode,
      if_neg hname, if_neg hup]
    exact ih

/-- The first part of a way is made only once. -/
theorem makeWay_again (h : t.WellFormed) (hhere : t.node? here = some .directory)
    (hmade : t.makeWay here names = (.ok (), u)) (more : List String) :
    u.makeWay here (names ++ more) = t.makeWay here (names ++ more) := by
  have hwalk := walk_makeWay h hhere (congrArg Prod.fst hmade)
  rw [hmade] at hwalk
  rw [makeWay_append, makeWay_append, hmade, makeWay_of_walk hwalk.1 hwalk.2]

/-- Where a way could be made, it can be walked, or else something on it is not there yet. -/
theorem walk_of_makeWay (h : t.WellFormed) (hhere : t.node? here = some .directory)
    (hmade : (t.makeWay here names).1 = .ok ()) :
    t.walk here names = .ok (follow here names) ∨ t.walk here names = .error .notFound := by
  induction names generalizing here with
  | nil => exact .inl rfl
  | cons name names ih =>
    rw [walk_cons hhere, follow]
    rw [makeWay] at hmade
    by_cases hname : name = "" ∨ name = "."
    · rw [if_pos hname] at hmade ⊢
      rw [if_pos hname]
      exact ih hhere hmade
    by_cases hup : name = ".."
    · rw [if_neg hname, if_pos hup] at hmade ⊢
      rw [if_neg hname, if_pos hup]
      exact ih (h.dropLast hhere) hmade
    rw [if_neg hname, if_neg hup] at hmade ⊢
    rw [if_neg hname, if_neg hup]
    by_cases hallowed : t.allowsName name = true
    · rw [if_neg (by simpa using hallowed)] at hmade
      rw [if_pos hallowed]
      cases hnode : t.node? (here ++ [name]) with
      | none =>
        -- what is not there can be named, but nothing lies below it
        cases names with
        | nil => exact .inl rfl
        | cons next rest =>
          right
          rw [walk, needDirectory, hnode]
          rfl
      | some node =>
        cases node with
        | directory =>
          rw [hnode] at hmade
          exact ih hnode hmade
        | file content =>
          rw [hnode] at hmade
          cases hmade
    · rw [if_pos (by simpa using hallowed)] at hmade
      cases hmade

end SchemaPlan.FileTree
