import Bytecode.Proofs.FileWriting

/-!
Paths that take what is written to them.

Creating a file and writing to it can fail: the path may lead to no place for a
file, to a directory, or to a device that takes nothing. `Accepts` says when it
does not (`overwrites`).

Files come and grow, but no operation touches a directory or a device. Trees that
have these in common (`Resembles`) are reached by the same paths, so a path that
accepts bytes in one of them accepts them in the others (`Resembles.accepts_iff`).
-/

namespace Bytecode

namespace Command

namespace FileTree

/-! ## Trees that differ in their files only -/

/-- What is at a place and is not a file: a directory or a device. -/
def fixture? (tree : FileTree) (place : Place) : Option Node :=
  match tree.node? place with
  | some (.file _) => none
  | found => found

/-- Two trees with the same directories and devices. -/
def Resembles (tree other : FileTree) : Prop :=
  ∀ place, other.fixture? place = tree.fixture? place

theorem fixture?_eq_some_iff {tree : FileTree} {place : Place} {node : Node} :
    tree.fixture? place = some node ↔
      tree.node? place = some node ∧ ∀ bytes, node ≠ .file bytes := by
  unfold fixture?
  split
  · next bytes there =>
    constructor
    · intro found
      cases found
    · rintro ⟨same, other⟩
      rw [there] at same
      exact absurd (Option.some.inj same).symm (other bytes)
  · next other =>
    constructor
    · intro found
      refine ⟨found, ?_⟩
      rintro bytes rfl
      exact other bytes found
    · exact fun found => found.1

theorem isFree_iff {tree : FileTree} {place : Place} :
    tree.IsFree place ↔ tree.fixture? place = none := by
  unfold IsFree fixture?
  split
  · next bytes there => exact ⟨fun _ => rfl, fun _ => .inr ⟨bytes, there⟩⟩
  · next other =>
    constructor
    · rintro (absent | ⟨bytes, there⟩)
      · exact absent
      · exact absurd there (other bytes)
    · exact .inl

theorem IsFree.ne_nil {tree : FileTree} {place : Place} (free : tree.IsFree place) :
    place ≠ [] := by
  rintro rfl
  exact free.not_directory rfl

namespace Resembles

variable {tree other : FileTree}

theorem refl (tree : FileTree) : tree.Resembles tree :=
  fun _ => rfl

theorem symm (alike : tree.Resembles other) : other.Resembles tree :=
  fun place => (alike place).symm

theorem trans {third : FileTree} (first : tree.Resembles other)
    (second : other.Resembles third) : tree.Resembles third :=
  fun place => (second place).trans (first place)

/-- Directories and devices are found in both trees. -/
theorem node?_eq (alike : tree.Resembles other) {place : Place} {node : Node}
    (fixed : ∀ bytes, node ≠ .file bytes) (there : tree.node? place = some node) :
    other.node? place = some node := by
  have found := fixture?_eq_some_iff.2 ⟨there, fixed⟩
  rw [← alike place] at found
  exact (fixture?_eq_some_iff.1 found).1

theorem directory (alike : tree.Resembles other) {place : Place}
    (there : tree.node? place = some .directory) :
    other.node? place = some .directory :=
  alike.node?_eq nofun there

end Resembles

/-- Putting a file where there is none, or another, touches no directory and no
device. -/
theorem IsFree.resembles_put {tree : FileTree} {place : Place}
    (free : tree.IsFree place) (bytes : Bytes) :
    tree.Resembles (tree.put place (.file bytes)) := by
  intro here
  by_cases same : here = place
  · have put : (tree.put place (.file bytes)).IsFree here := by
      rw [same]
      exact .inr ⟨bytes, tree.node?_put_self free.ne_nil _⟩
    rw [isFree_iff.1 put, same, isFree_iff.1 free]
  · unfold fixture?
    rw [tree.node?_put_of_ne same]

section

variable {tree : FileTree} {path : String} {place : Place}

theorem createFile_of_target (found : tree.target path = .ok place) :
    tree.createFile path =
      match tree.node? place with
      | some .directory => .error .isDirectory
      | none | some (.file _) => .ok (tree.put place (.file []))
      | some _ => .ok tree := by
  unfold createFile
  rw [found]
  rfl

theorem appendFile_of_target (found : tree.target path = .ok place)
    (bytes : Bytes) :
    tree.appendFile path bytes =
      match tree.node? place with
      | some (.file old) => .ok (tree.put place (.file (old ++ bytes)))
      | some .fullDevice => if bytes = [] then .ok tree else .error .noSpace
      | some .directory => .error .isDirectory
      | none => .error .notFound
      | some _ => .ok tree := by
  unfold appendFile
  rw [found]
  rfl

end

/-- What creating a file comes to: an empty file where there was room for one, or
nothing at a device. -/
inductive Creates (tree : FileTree) (path : String) : FileTree → Prop
  | file {place : Place} : tree.target path = .ok place → tree.IsFree place →
    Creates tree path (tree.put place (.file []))
  | device {place : Place} {node : Node} : tree.target path = .ok place →
    tree.node? place = some node → (∀ bytes, node ≠ .file bytes) →
    node ≠ .directory → Creates tree path tree

theorem creates_of_createFile {tree created : FileTree} {path : String}
    (creates : tree.createFile path = .ok created) : Creates tree path created := by
  cases found : tree.target path with
  | error e =>
    unfold createFile at creates
    rw [found] at creates
    cases creates
  | ok place =>
    rw [createFile_of_target found] at creates
    split at creates
    · cases creates
    · next absent =>
      cases creates
      exact .file found (.inl absent)
    · next old there =>
      cases creates
      exact .file found (.inr ⟨old, there⟩)
    · next node noDirectory noFile there =>
      cases creates
      exact .device found there noFile noDirectory

theorem exists_target_of_createFile {tree created : FileTree} {path : String}
    (creates : tree.createFile path = .ok created) :
    ∃ place, tree.target path = .ok place := by
  cases creates_of_createFile creates with
  | file found _ | device found _ _ _ => exact ⟨_, found⟩

theorem resembles_of_createFile {tree created : FileTree} {path : String}
    (creates : tree.createFile path = .ok created) : tree.Resembles created := by
  cases creates_of_createFile creates with
  | file _ free => exact free.resembles_put []
  | device _ _ _ _ => exact .refl tree

theorem resembles_of_appendFile {tree after : FileTree} {path : String}
    {bytes : Bytes} (appends : tree.appendFile path bytes = .ok after) :
    tree.Resembles after := by
  cases found : tree.target path with
  | error e =>
    unfold appendFile at appends
    rw [found] at appends
    cases appends
  | ok place =>
    rw [appendFile_of_target found] at appends
    split at appends
    · next old there =>
      cases appends
      exact IsFree.resembles_put (.inr ⟨old, there⟩) _
    · split at appends
      · cases appends
        exact .refl tree
      · cases appends
    · cases appends
    · cases appends
    · cases appends
      exact .refl tree

/-! ## Paths that accept bytes -/

/-- Names that lead to a directory start at one. -/
theorem Leads.directory {tree : FileTree} {place last : Place}
    {names : List (List Char)} (leads : Leads tree place names last)
    (ends : tree.node? last = some .directory) :
    tree.node? place = some .directory := by
  cases leads with
  | here => exact ends
  | stay here _ _ | leave here _ | enter here _ _ _ => exact here

/-- Names that lead to a directory lead to it in every tree with the same
directories: nothing but directories is met on the way. -/
theorem Leads.resembles {tree other : FileTree} {place last : Place}
    {names : List (List Char)} (leads : Leads tree place names last)
    (ends : tree.node? last = some .directory) (alike : tree.Resembles other) :
    Leads other place names last := by
  induction leads with
  | here => exact .here
  | stay here stays _ ih => exact .stay (alike.directory here) stays (ih ends)
  | leave here _ ih => exact .leave (alike.directory here) (ih ends)
  | enter here plain _ rest ih =>
    have next := alike.directory (rest.directory ends)
    exact .enter (alike.directory here) plain next (ih ends)

theorem Resembles.target {tree other : FileTree} (alike : tree.Resembles other)
    {path : String} {place : Place} (found : tree.target path = .ok place) :
    other.target path = .ok place := by
  rcases aims_of_target found with ⟨ends, plain, leads, parent⟩
  exact (Aims.intro ends plain (leads.resembles parent alike)
    (alike.directory parent)).target

/-- A path that bytes can be written to as a new file: it leads to a place for a
file, where there is no directory, and no device that takes nothing, unless there
is nothing to take. -/
def Accepts (tree : FileTree) (path : String) (bytes : Bytes) : Prop :=
  ∃ place, tree.target path = .ok place ∧
    tree.node? place ≠ some .directory ∧
    (tree.node? place = some .fullDevice → bytes = [])

theorem Resembles.accepts {tree other : FileTree} (alike : tree.Resembles other)
    {path : String} {bytes : Bytes} (accepts : tree.Accepts path bytes) :
    other.Accepts path bytes := by
  rcases accepts with ⟨place, found, noDirectory, room⟩
  exact ⟨place, alike.target found,
    fun there => noDirectory (alike.symm.directory there),
    fun there => room (alike.symm.node?_eq nofun there)⟩

theorem Resembles.accepts_iff {tree other : FileTree} (alike : tree.Resembles other)
    (path : String) (bytes : Bytes) :
    other.Accepts path bytes ↔ tree.Accepts path bytes :=
  ⟨alike.symm.accepts, alike.accepts⟩

/-! ## Writing a new file -/

section

variable {tree : FileTree} {path : String} {place : Place} {bytes : Bytes}

theorem accepts_iff_of_target (found : tree.target path = .ok place) :
    tree.Accepts path bytes ↔ tree.node? place ≠ some .directory ∧
      (tree.node? place = some .fullDevice → bytes = []) := by
  constructor
  · rintro ⟨_, leads, room⟩
    cases found.symm.trans leads
    exact room
  · exact fun room => ⟨place, found, room⟩

/-- What can come of creating a file and writing bytes to it. -/
inductive Overwrites (tree : FileTree) (path : String) (bytes : Bytes) : Prop
  | refused {e : SystemError} :
    tree.createFile path = .error e → ¬ tree.Accepts path bytes →
    Overwrites tree path bytes
  | cut {created : FileTree} {e : SystemError} :
    tree.createFile path = .ok created →
    created.appendFile path bytes = .error e → ¬ tree.Accepts path bytes →
    Overwrites tree path bytes
  | done {created after : FileTree} :
    tree.createFile path = .ok created →
    created.appendFile path bytes = .ok after → tree.Accepts path bytes →
    Overwrites tree path bytes

theorem IsFree.overwrites (free : tree.IsFree place)
    (found : tree.target path = .ok place) : Overwrites tree path bytes := by
  have writable : tree.Writable path := ⟨place, found, free⟩
  refine .done writable.createFile (writable.appendFile [] bytes) ?_
  refine (accepts_iff_of_target found).2 ⟨free.not_directory, fun device => ?_⟩
  have fixed := fixture?_eq_some_iff.2 ⟨device, nofun⟩
  rw [isFree_iff.1 free] at fixed
  cases fixed

/-- A file can be created and written exactly if the path accepts the bytes. -/
theorem overwrites (tree : FileTree) (path : String) (bytes : Bytes) :
    Overwrites tree path bytes := by
  cases found : tree.target path with
  | error e =>
    refine .refused (e := e) ?_ ?_
    · unfold createFile
      rw [found]
      rfl
    · rintro ⟨place, leads, -⟩
      cases found.symm.trans leads
  | ok place =>
    have creates := createFile_of_target found
    have appends := appendFile_of_target found bytes
    have accepts_iff := @accepts_iff_of_target _ _ _ bytes found
    cases there : tree.node? place with
    | none => exact IsFree.overwrites (.inl there) found
    | some node =>
      rw [there] at creates appends accepts_iff
      cases node with
      | file old => exact IsFree.overwrites (.inr ⟨old, there⟩) found
      | directory => exact .refused creates fun accepts => (accepts_iff.1 accepts).1 rfl
      | nullDevice | zeroDevice =>
        exact .done creates appends (accepts_iff.2 ⟨nofun, nofun⟩)
      | fullDevice =>
        by_cases empty : bytes = []
        · exact .done creates (appends.trans (if_pos empty))
            (accepts_iff.2 ⟨nofun, fun _ => empty⟩)
        · exact .cut creates (appends.trans (if_neg empty))
            fun accepts => empty ((accepts_iff.1 accepts).2 rfl)

end

end FileTree

end Command

end Bytecode
