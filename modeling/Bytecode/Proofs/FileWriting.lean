import Bytecode.Command.FileTree

/-!
Files that are written and read again.

Writing a file changes what is found at one place of the tree. No path leads
through that place, which holds a file and not a directory, so every path that
could be followed before can be followed afterwards, and the path that the file
was written to leads to it. Hence what is written to a path can be read from it
(`contents?_write`), and nothing is changed anywhere else (`node?_write_of_ne`).
-/

namespace Bytecode

namespace Command

namespace FileTree

/-! ## Places -/

theorem node?_put_self (tree : FileTree) {place : Place} (below : place ≠ [])
    (node : Node) : (tree.put place node).node? place = some node := by
  unfold node? put
  rw [if_neg below, List.lookup_cons_self]

theorem lookup_filter {place other : Place} (elsewhere : other ≠ place)
    (nodes : List (Place × Node)) :
    (nodes.filter (·.1 ≠ place)).lookup other = nodes.lookup other := by
  induction nodes with
  | nil => rfl
  | cons entry nodes ih =>
    rcases entry with ⟨at_, node⟩
    by_cases here : at_ = place
    · have skipped : (other == at_) = false := by
        rw [here]
        exact beq_false_of_ne elsewhere
      rw [List.filter_cons_of_neg (by simp [here]), List.lookup_cons, skipped, ih]
    · rw [List.filter_cons_of_pos (by simp [here]), List.lookup_cons,
        List.lookup_cons, ih]

theorem node?_put_of_ne (tree : FileTree) {place other : Place}
    (elsewhere : other ≠ place) (node : Node) :
    (tree.put place node).node? other = tree.node? other := by
  have skipped : (other == place) = false := beq_false_of_ne elsewhere
  unfold node? put
  dsimp only
  rw [List.lookup_cons, skipped, lookup_filter elsewhere]

/-- Directories stay once something has been put where there was none. -/
theorem node?_put_of_directory (tree : FileTree) {place other : Place}
    (free : tree.node? place ≠ some .directory)
    (directory : tree.node? other = some .directory) (node : Node) :
    (tree.put place node).node? other = some .directory := by
  have elsewhere : other ≠ place := fun same => free (same ▸ directory)
  rw [tree.node?_put_of_ne elsewhere, directory]

theorem put_put (tree : FileTree) (place : Place) (node node' : Node) :
    (tree.put place node).put place node' = tree.put place node' := by
  unfold put
  dsimp only
  rw [List.filter_cons_of_neg (by simp), List.filter_filter]
  simp only [Bool.and_self]

/-! ## Paths -/

/-- A name that is looked up in a directory. -/
def IsPlain (name : List Char) : Prop :=
  name ≠ [] ∧ name ≠ ['.'] ∧ name ≠ ['.', '.']

/-- Names that lead from a place to another: all are met in directories. -/
inductive Leads (tree : FileTree) : Place → List (List Char) → Place → Prop
  | here {place : Place} : Leads tree place [] place
  | stay {place last : Place} {name : List Char} {rest : List (List Char)} :
    tree.node? place = some .directory → name = [] ∨ name = ['.'] →
    Leads tree place rest last → Leads tree place (name :: rest) last
  | leave {place last : Place} {rest : List (List Char)} :
    tree.node? place = some .directory →
    Leads tree place.dropLast rest last →
    Leads tree place (['.', '.'] :: rest) last
  | enter {place last : Place} {name : List Char} {node : Node}
    {rest : List (List Char)} :
    tree.node? place = some .directory → IsPlain name →
    tree.node? (place ++ [String.ofList name]) = some node →
    Leads tree (place ++ [String.ofList name]) rest last →
    Leads tree place (name :: rest) last

/-- The place at which a path creates a file: a plain name in the directory that
the names before it lead to. -/
inductive Aims (tree : FileTree) (path : String) : Place → Prop
  | intro {names : List (List Char)} {name : List Char} {parent : Place} :
    (route path).2 = names ++ [name] → IsPlain name →
    Leads tree (route path).1 names parent →
    tree.node? parent = some .directory →
    Aims tree path (parent ++ [String.ofList name])

theorem leads_of_follow {tree : FileTree} {place last : Place}
    {names : List (List Char)} (found : tree.follow place names = .ok last) :
    Leads tree place names last := by
  induction names generalizing place with
  | nil =>
    cases found
    exact .here
  | cons name names ih =>
    unfold follow at found
    split at found
    · cases found
    · next directory =>
      split at found
      · next stays => exact .stay directory stays (ih found)
      · next moves =>
        split at found
        · next up =>
          rw [up]
          exact .leave directory (ih found)
        · next down =>
          dsimp only at found
          split at found
          · cases found
          · next node there =>
            rw [not_or] at moves
            exact .enter directory ⟨moves.1, moves.2, down⟩ there (ih found)
    · cases found

theorem Leads.follow {tree : FileTree} {place last : Place}
    {names : List (List Char)} (leads : Leads tree place names last) :
    tree.follow place names = .ok last := by
  induction leads with
  | here => rfl
  | stay directory stays _ ih =>
    unfold FileTree.follow
    rw [directory]
    dsimp only
    rw [if_pos stays, ih]
  | leave directory _ ih =>
    unfold FileTree.follow
    rw [directory]
    exact ih
  | enter directory plain there _ ih =>
    unfold FileTree.follow
    rw [directory]
    dsimp only
    rw [if_neg (not_or.2 ⟨plain.1, plain.2.1⟩), if_neg plain.2.2, there]
    exact ih

theorem Leads.concat {tree : FileTree} {place last : Place} {name : List Char}
    {node : Node} {names : List (List Char)} (leads : Leads tree place names last)
    (directory : tree.node? last = some .directory) (plain : IsPlain name)
    (there : tree.node? (last ++ [String.ofList name]) = some node) :
    Leads tree place (names ++ [name]) (last ++ [String.ofList name]) := by
  induction leads with
  | here => exact .enter directory plain there .here
  | stay here stays _ ih => exact .stay here stays (ih directory there)
  | leave here _ ih => exact .leave here (ih directory there)
  | enter here plain next _ ih => exact .enter here plain next (ih directory there)

/-- Names lead on in every tree with the same directories in which nothing is
missing. -/
theorem Leads.mono {tree other : FileTree} {place last : Place}
    {names : List (List Char)} (leads : Leads tree place names last)
    (directories : ∀ here, tree.node? here = some .directory →
      other.node? here = some .directory)
    (nodes : ∀ here node, tree.node? here = some node →
      ∃ node', other.node? here = some node') :
    Leads other place names last := by
  induction leads with
  | here => exact .here
  | stay directory stays _ ih => exact .stay (directories _ directory) stays ih
  | leave directory _ ih => exact .leave (directories _ directory) ih
  | enter directory plain found _ ih =>
    obtain ⟨node', found'⟩ := nodes _ _ found
    exact .enter (directories _ directory) plain found' ih

/-- Names lead on as before once something has been put where there was no
directory. -/
theorem Leads.put {tree : FileTree} {target place last : Place}
    {names : List (List Char)} (leads : Leads tree place names last)
    (free : tree.node? target ≠ some .directory) (node : Node) :
    Leads (tree.put target node) place names last := by
  refine leads.mono (fun here directory => ?_) (fun here found there => ?_)
  · exact tree.node?_put_of_directory free directory node
  · by_cases same : here = target
    · have below : target ≠ [] := by
        rintro rfl
        exact free rfl
      rw [same]
      exact ⟨node, tree.node?_put_self below node⟩
    · rw [← tree.node?_put_of_ne same node] at there
      exact ⟨found, there⟩

theorem withoutEmptyEnd_concat {names : List (List Char)} {name : List Char}
    (visible : name ≠ []) : withoutEmptyEnd (names ++ [name]) = names ++ [name] := by
  unfold withoutEmptyEnd
  rw [List.reverse_concat, List.dropWhile_cons_of_neg (by simpa using visible),
    List.reverse_cons, List.reverse_reverse]

theorem aims_of_target {tree : FileTree} {path : String} {place : Place}
    (found : tree.target path = .ok place) : Aims tree path place := by
  unfold target at found
  dsimp only [bind, Except.bind] at found
  split at found
  · cases found
  · next parent followed =>
    split at found
    · next directory =>
      split at found
      · cases found
      · next usable =>
        cases found
        simp only [not_or, ne_eq, Decidable.not_not] at usable
        rcases usable with ⟨same, visible, plain⟩
        rw [same] at followed visible plain ⊢
        rcases List.eq_nil_or_concat (route path).2 with empty | ⟨names, name, ends⟩
        · rw [empty] at visible
          exact absurd rfl visible
        · rw [ends, List.concat_eq_append, List.getLastD_concat] at visible plain ⊢
          rw [ends, List.concat_eq_append, List.dropLast_concat] at followed
          exact .intro (ends.trans (List.concat_eq_append ..)) ⟨visible, plain⟩
            (leads_of_follow followed) directory
    · cases found
    · cases found

theorem Aims.target {tree : FileTree} {path : String} {place : Place}
    (aims : Aims tree path place) : tree.target path = .ok place := by
  rcases aims with ⟨ends, plain, leads, directory⟩
  unfold FileTree.target
  dsimp only [bind, Except.bind]
  rw [ends, withoutEmptyEnd_concat plain.1, List.dropLast_concat, leads.follow,
    List.getLastD_concat]
  dsimp only
  rw [directory]
  exact if_neg (by simp [plain.1, plain.2.1, plain.2.2])

/-- A path still creates its file at the same place once something has been put
where there was no directory. -/
theorem Aims.put {tree : FileTree} {path : String} {place other : Place}
    (aims : Aims tree path place) (free : tree.node? other ≠ some .directory)
    (node : Node) : Aims (tree.put other node) path place := by
  rcases aims with ⟨ends, plain, leads, directory⟩
  exact .intro ends plain (leads.put free node)
    (tree.node?_put_of_directory free directory node)

/-- What is at the place at which a path creates a file is found by that path. -/
theorem Aims.find {tree : FileTree} {path : String} {place : Place} {node : Node}
    (aims : Aims tree path place) (there : tree.node? place = some node) :
    tree.find path = .ok place := by
  rcases aims with ⟨ends, plain, leads, directory⟩
  unfold FileTree.find
  rw [ends]
  exact (leads.concat directory plain there).follow

theorem Aims.ne_nil {tree : FileTree} {path : String} {place : Place}
    (aims : Aims tree path place) : place ≠ [] := by
  rcases aims with ⟨⟩
  exact List.concat_ne_nil _ _

/-! ## Writing -/

/-- Nothing is at a place, or a file is. -/
def IsFree (tree : FileTree) (place : Place) : Prop :=
  tree.node? place = none ∨ ∃ bytes, tree.node? place = some (.file bytes)

/-- A file can be created at the end of a path, or is there already. -/
def Writable (tree : FileTree) (path : String) : Prop :=
  ∃ place, tree.target path = .ok place ∧ tree.IsFree place

/-- The tree with a file of these bytes at the end of a path. -/
def write (tree : FileTree) (path : String) (bytes : Bytes) : FileTree :=
  match tree.target path with
  | .ok place => tree.put place (.file bytes)
  | .error _ => tree

theorem IsFree.not_directory {tree : FileTree} {place : Place}
    (free : tree.IsFree place) : tree.node? place ≠ some .directory := by
  intro directory
  rcases free with absent | ⟨bytes, there⟩
  · rw [absent] at directory
    cases directory
  · rw [there] at directory
    cases directory

theorem write_of_target {tree : FileTree} {path : String} {place : Place}
    (found : tree.target path = .ok place) (bytes : Bytes) :
    tree.write path bytes = tree.put place (.file bytes) := by
  unfold write
  rw [found]

theorem Writable.createFile {tree : FileTree} {path : String}
    (writable : tree.Writable path) :
    tree.createFile path = .ok (tree.write path []) := by
  rcases writable with ⟨place, found, free⟩
  rw [write_of_target found]
  unfold FileTree.createFile
  dsimp only [bind, Except.bind]
  rw [found]
  rcases free with absent | ⟨old, there⟩
  · dsimp only
    rw [absent]
  · dsimp only
    rw [there]

theorem Writable.appendFile {tree : FileTree} {path : String}
    (writable : tree.Writable path) (old bytes : Bytes) :
    (tree.write path old).appendFile path bytes =
      .ok (tree.write path (old ++ bytes)) := by
  rcases writable with ⟨place, found, free⟩
  have aims := aims_of_target found
  rw [write_of_target found, write_of_target found]
  unfold FileTree.appendFile
  dsimp only [bind, Except.bind]
  rw [(aims.put free.not_directory _).target]
  dsimp only
  rw [tree.node?_put_self aims.ne_nil]
  dsimp only
  rw [put_put]

theorem contents?_eq_some_iff {tree : FileTree} {path : String} {bytes : Bytes} :
    tree.contents? path = some bytes ↔
      tree.openFile path = .ok (Source.ofBytes bytes) := by
  unfold contents?
  constructor
  · intro held
    split at held
    · next opened =>
      cases held
      exact opened
    · cases held
  · intro opened
    rw [opened]
    rfl

/-- What a file holds is read from the path that creates it. -/
theorem Aims.contents? {tree : FileTree} {path : String} {place : Place}
    {bytes : Bytes} (aims : Aims tree path place)
    (there : tree.node? place = some (.file bytes)) :
    tree.contents? path = some bytes := by
  rw [contents?_eq_some_iff]
  unfold openFile
  rw [aims.find there]
  dsimp only [bind, Except.bind]
  rw [there]

/-- What is written to a path can be read from it. -/
theorem Writable.contents?_write {tree : FileTree} {path : String}
    (writable : tree.Writable path) (bytes : Bytes) :
    (tree.write path bytes).contents? path = some bytes := by
  rcases writable with ⟨place, found, free⟩
  have aims := aims_of_target found
  rw [write_of_target found]
  exact (aims.put free.not_directory (.file bytes)).contents?
    (tree.node?_put_self aims.ne_nil _)

/-- Writing to a path changes what is at one place only. -/
theorem node?_write_of_ne (tree : FileTree) {path : String} {place : Place}
    (elsewhere : tree.target path ≠ .ok place) (bytes : Bytes) :
    (tree.write path bytes).node? place = tree.node? place := by
  unfold write
  split
  · next other found =>
    have different : place ≠ other := fun same => elsewhere (same ▸ found)
    rw [tree.node?_put_of_ne different]
  · rfl

end FileTree

end Command

end Bytecode
