import Bytecode.Proofs.FileAcceptance

/-!
Trees that differ in one file, and paths that keep away from it.

`Beside` compares a tree with one that has a file of its own at some place, or at
none. A path that never comes to that place (`Avoids`) leads to the same place in
both trees, and what is created and written there is the same; so the trees still
differ in that one file only. A path that leads to another file keeps away from it
(`avoids_of_find`, `avoids_of_target`), and so does one that leads nowhere, unless it
takes the file for a directory.
-/

namespace Bytecode

namespace Command

namespace FileTree

/-! ## Following names -/

section

variable {tree : FileTree} {start place last : Place}

theorem follow_append (tree : FileTree) (start : Place)
    (front back : List (List Char)) :
    tree.follow start (front ++ back) =
      (tree.follow start front).bind fun place => tree.follow place back := by
  induction front generalizing start with
  | nil => rfl
  | cons name front ih =>
    rw [List.cons_append, follow, follow]
    split
    · rfl
    · split
      · exact ih start
      · split
        · exact ih start.dropLast
        · dsimp only
          split
          · rfl
          · exact ih _
    · rfl

/-- No path goes on from a file. -/
theorem eq_of_follow_file {bytes : Bytes} {names : List (List Char)}
    (there : tree.node? place = some (.file bytes))
    (found : tree.follow place names = .ok last) : last = place := by
  cases names with
  | nil => exact (Except.ok.inj found).symm
  | cons name names =>
    rw [follow, there] at found
    cases found

/-- A path whose beginning leads to a file leads nowhere else. -/
theorem eq_of_begins {bytes : Bytes} {front names : List (List Char)}
    (there : tree.node? place = some (.file bytes)) (begins : front <+: names)
    (reached : tree.follow start front = .ok place)
    (found : tree.follow start names = .ok last) : last = place := by
  rcases begins with ⟨back, rfl⟩
  rw [follow_append, reached] at found
  exact eq_of_follow_file there found

/-- Where a path creates a file, it finds what is there. -/
theorem find_of_target {path : String} (found : tree.target path = .ok place) :
    tree.find path =
      if (tree.node? place).isSome then .ok place else .error .notFound := by
  rcases aims_of_target found with ⟨ends, plain, leads, directory⟩
  unfold find
  rw [ends, follow_append, leads.follow]
  dsimp only [Except.bind]
  rw [follow, directory]
  dsimp only
  rw [if_neg (not_or.2 ⟨plain.1, plain.2.1⟩), if_neg plain.2.2]
  split
  · next absent =>
    rw [absent]
    rfl
  · next node there =>
    rw [there]
    rfl

end

/-! ## Paths that keep away from a place -/

/-- None of the beginnings of a path leads to a place: the path does not lead there,
and does not lead on from there. -/
def Avoids (tree : FileTree) (path : String) (place : Place) : Prop :=
  ∀ names, names <+: (route path).2 → tree.follow (route path).1 names ≠ .ok place

section

variable {tree : FileTree} {path : String} {place here : Place} {bytes : Bytes}

theorem avoids_of_find (there : tree.node? place = some (.file bytes))
    (found : tree.find path = .ok here) (apart : here ≠ place) :
    tree.Avoids path place :=
  fun _ begins reached => apart (eq_of_begins there begins reached found)

theorem avoids_of_target (there : tree.node? place = some (.file bytes))
    (found : tree.target path = .ok here) (apart : here ≠ place) :
    tree.Avoids path place := by
  intro names begins reached
  have leads := find_of_target found
  rcases aims_of_target found with ⟨ends, plain, parent, directory⟩
  rw [ends, List.prefix_concat_iff] at begins
  rcases begins with whole | begins
  · unfold find at leads
    rw [ends, ← whole, reached] at leads
    split at leads
    · exact apart (Except.ok.inj leads).symm
    · cases leads
  · have file := eq_of_begins there begins reached parent.follow
    rw [file, there] at directory
    cases directory

end

/-! ## Trees that differ in one file -/

/-- A tree that has a file of its own at a place, if there is one, and is otherwise
like another. -/
structure Beside (tree : FileTree) (own : Option Place) (bytes : Bytes)
    (other : FileTree) : Prop where
  there : ∀ place ∈ own, other.node? place = some (.file bytes)
  elsewhere : ∀ here, here ∉ own → other.node? here = tree.node? here

/-- What an operation comes to on trees that differ in one file: the same error, or
trees that differ in that file. -/
inductive BothBeside (own : Option Place) (bytes : Bytes)
    (result result' : Except SystemError FileTree) : Prop
  | refused {e : SystemError} : result = .error e → result' = .error e →
    BothBeside own bytes result result'
  | changed {tree other : FileTree} : result = .ok tree → result' = .ok other →
    tree.Beside own bytes other → BothBeside own bytes result result'

namespace Beside

variable {tree other : FileTree} {own : Option Place} {bytes : Bytes}
variable {path : String} {place : Place}

theorem refl (tree : FileTree) (bytes : Bytes) : tree.Beside none bytes tree :=
  ⟨nofun, fun _ _ => rfl⟩

theorem follow_eq (beside : tree.Beside own bytes other) {start : Place}
    {names : List (List Char)}
    (avoids : ∀ place ∈ own, ∀ front, front <+: names →
      other.follow start front ≠ .ok place) :
    other.follow start names = tree.follow start names := by
  induction names generalizing start with
  | nil => rfl
  | cons name names ih =>
    have apart : start ∉ own := fun own => avoids start own [] List.nil_prefix rfl
    have same := beside.elsewhere start apart
    -- What the first name does is the same for every beginning that has it.
    have first : ∀ place ∈ own, ∀ front, front <+: names →
        other.follow start (name :: front) ≠ .ok place := fun place owned front begins =>
      avoids place owned _ (List.cons_prefix_cons.2 ⟨rfl, begins⟩)
    unfold follow at first ⊢
    rw [same] at first ⊢
    split
    · rfl
    · next directory =>
      simp only [directory] at first
      split
      · next stays =>
        simp only [if_pos stays] at first
        exact ih first
      · next moves =>
        simp only [if_neg moves] at first
        split
        · next up =>
          simp only [if_pos up] at first
          exact ih first
        · next down =>
          simp only [if_neg down] at first
          have next : start ++ [String.ofList name] ∉ own := by
            intro owned
            refine first _ owned [] List.nil_prefix ?_
            rw [beside.there _ owned]
            rfl
          dsimp only
          simp only [beside.elsewhere _ next] at first ⊢
          split
          · rfl
          · next node found =>
            simp only [found] at first
            exact ih first
    · rfl

theorem openFile_eq (beside : tree.Beside own bytes other)
    (avoids : ∀ place ∈ own, other.Avoids path place) :
    other.openFile path = tree.openFile path := by
  have leads : other.find path = tree.find path :=
    beside.follow_eq fun place owned front begins => avoids place owned front begins
  unfold openFile
  rw [leads]
  cases found : tree.find path with
  | error e => rfl
  | ok here =>
    have apart : here ∉ own := fun owned =>
      avoids here owned _ List.prefix_rfl (leads.trans found)
    dsimp only [bind, Except.bind]
    rw [beside.elsewhere here apart]

theorem target_eq (beside : tree.Beside own bytes other)
    (avoids : ∀ place ∈ own, other.Avoids path place) :
    other.target path = tree.target path := by
  have visible : withoutEmptyEnd (route path).2 <+: (route path).2 :=
    List.reverse_suffix.1 (by
      rw [withoutEmptyEnd, List.reverse_reverse]
      exact List.dropWhile_suffix _)
  have begins : (withoutEmptyEnd (route path).2).dropLast <+: (route path).2 :=
    (List.dropLast_prefix _).trans visible
  have leads : other.follow (route path).1 (withoutEmptyEnd (route path).2).dropLast =
      tree.follow (route path).1 (withoutEmptyEnd (route path).2).dropLast :=
    beside.follow_eq fun place owned front first =>
      avoids place owned front (first.trans begins)
  unfold target
  dsimp only [bind, Except.bind]
  rw [leads]
  split
  · rfl
  · next parent found =>
    have apart : parent ∉ own := fun owned =>
      avoids parent owned _ begins (leads.trans found)
    rw [beside.elsewhere parent apart]

theorem target_apart (beside : tree.Beside own bytes other)
    (avoids : ∀ place ∈ own, other.Avoids path place)
    (found : other.target path = .ok place) : place ∉ own := by
  intro owned
  have leads := find_of_target found
  rw [beside.there place owned] at leads
  exact avoids place owned _ List.prefix_rfl leads

theorem put (beside : tree.Beside own bytes other) (apart : place ∉ own)
    (below : place ≠ []) (node : Node) :
    (tree.put place node).Beside own bytes (other.put place node) := by
  constructor
  case there =>
    intro here owned
    have different : here ≠ place := fun same => apart (same ▸ owned)
    rw [other.node?_put_of_ne different, beside.there here owned]
  case elsewhere =>
    intro here notOwned
    by_cases same : here = place
    · rw [same, other.node?_put_self below, tree.node?_put_self below]
    · rw [other.node?_put_of_ne same, tree.node?_put_of_ne same,
        beside.elsewhere here notOwned]

/-- Whatever is put at a place, the trees are alike elsewhere if they were. -/
theorem of_put (elsewhere : ∀ here, here ∉ some place → other.node? here = tree.node? here)
    (below : place ≠ []) (bytes : Bytes) :
    tree.Beside (some place) bytes (other.put place (.file bytes)) := by
  constructor
  case there =>
    rintro _ ⟨⟩
    exact other.node?_put_self below _
  case elsewhere =>
    intro here notOwned
    have different : here ≠ place := fun same => notOwned (congrArg some same.symm)
    rw [other.node?_put_of_ne different, elsewhere here notOwned]

theorem createFile (beside : tree.Beside own bytes other)
    (avoids : ∀ place ∈ own, other.Avoids path place) :
    BothBeside own bytes (tree.createFile path) (other.createFile path) := by
  have same := beside.target_eq avoids
  cases found : tree.target path with
  | error e =>
    unfold FileTree.createFile
    rw [same, found]
    exact .refused rfl rfl
  | ok place =>
    rw [found] at same
    have apart := beside.target_apart avoids same
    have below := (aims_of_target found).ne_nil
    rw [createFile_of_target found, createFile_of_target same,
      beside.elsewhere place apart]
    split
    · exact .refused rfl rfl
    · exact .changed rfl rfl (beside.put apart below _)
    · exact .changed rfl rfl (beside.put apart below _)
    · exact .changed rfl rfl beside

section

variable (beside : tree.Beside own bytes other) (apart : place ∉ own)
variable (found : tree.target path = .ok place) (found' : other.target path = .ok place)

include beside apart found found'

theorem appendFile (more : Bytes) :
    BothBeside own bytes (tree.appendFile path more) (other.appendFile path more) := by
  have below := (aims_of_target found).ne_nil
  rw [appendFile_of_target found, appendFile_of_target found',
    beside.elsewhere place apart]
  split
  · exact .changed rfl rfl (beside.put apart below _)
  · split
    · exact .changed rfl rfl beside
    · exact .refused rfl rfl
  · exact .refused rfl rfl
  · exact .refused rfl rfl
  · exact .changed rfl rfl beside

theorem contents?_eq : other.contents? path = tree.contents? path := by
  have same := beside.elsewhere place apart
  have leads := find_of_target found
  have leads' := find_of_target found'
  rw [same] at leads'
  have opened : other.openFile path = tree.openFile path := by
    unfold openFile
    rw [leads, leads']
    split
    · dsimp only [bind, Except.bind]
      rw [same]
    · rfl
  unfold contents?
  rw [opened]

end

/-- A path keeps away from a file whatever the file holds. -/
theorem avoids (beside : tree.Beside own bytes other)
    (clear : ∀ place ∈ own, (tree.put place (.file [])).Avoids path place) :
    ∀ place ∈ own, other.Avoids path place := by
  intro place owned names begins reached
  have there := beside.there place owned
  have below : place ≠ [] := by
    rintro rfl
    cases there
  have same : ∀ here, here ≠ place →
      (tree.put place (.file [])).node? here = other.node? here := by
    intro here different
    have apart : here ∉ own := fun owned' => different (Option.mem_unique owned' owned)
    rw [tree.node?_put_of_ne different, beside.elsewhere here apart]
  refine clear place owned names begins ((leads_of_follow reached).mono ?_ ?_).follow
  · intro here directory
    have different : here ≠ place := by
      rintro rfl
      rw [there] at directory
      cases directory
    rwa [same here different]
  · intro here node found
    by_cases different : here = place
    · rw [different]
      exact ⟨_, tree.node?_put_self below _⟩
    · exact ⟨node, (same here different).trans found⟩

end Beside

end FileTree

end Command

end Bytecode
