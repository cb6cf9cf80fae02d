import Bytecode.Command.Host

/-!
A tree of files, and what becomes of operations on it.

Paths are followed one name at a time, as the system does: an empty name and
`.` stay in a directory, `..` leaves it, and only a directory can be entered. A
path that does not start at the root starts at the working directory. A
directory can be opened for reading but not read, and can never be created or
written as a file.
-/

namespace Bytecode

namespace Command

/-- What is found at a place in the tree. -/
inductive Node where
  | directory
  | file (bytes : Bytes)
  /-- A device without bytes to read, which takes everything. -/
  | nullDevice
  /-- A device that gives null bytes without end, and takes everything. -/
  | zeroDevice
  /-- A device that gives null bytes without end, and takes nothing. -/
  | fullDevice
deriving DecidableEq

/-- A place in the tree: the names on the way from the root. -/
abbrev Place := List String

/-- A tree of files. -/
structure FileTree where
  nodes : List (Place × Node)

/-- The names in a path. -/
def pathNames : List Char → List (List Char)
  | [] => [[]]
  | c :: rest =>
    if c = '/' then [] :: pathNames rest
    else
      match pathNames rest with
      | [] => [[c]]
      | name :: names => (c :: name) :: names

namespace FileTree

/-- The working directory. -/
def home : Place :=
  ["home"]

/-- The tree with an empty working directory and the devices. -/
def initial : FileTree where
  nodes :=
    [(home, .directory), (["tmp"], .directory), (["dev"], .directory),
      (["dev", "null"], .nullDevice), (["dev", "zero"], .zeroDevice),
      (["dev", "full"], .fullDevice)]

/-- What is found at a place. -/
def node? (tree : FileTree) (place : Place) : Option Node :=
  if place = [] then some .directory else tree.nodes.lookup place

/-- Puts something at a place, instead of what was there. -/
def put (tree : FileTree) (place : Place) (node : Node) : FileTree where
  nodes := (place, node) :: tree.nodes.filter (·.1 ≠ place)

/-! ## Paths -/

/-- Follows names from a place. -/
def follow (tree : FileTree) (place : Place) :
    List (List Char) → Except SystemError Place
  | [] => .ok place
  | name :: rest =>
    match tree.node? place with
    | none => .error .notFound
    | some .directory =>
      if name = [] ∨ name = ['.'] then tree.follow place rest
      else if name = ['.', '.'] then tree.follow place.dropLast rest
      else
        let next := place ++ [String.ofList name]
        match tree.node? next with
        | none => .error .notFound
        | some _ => tree.follow next rest
    | some _ => .error .notDirectory

/-- The place that a path starts at, and its names. -/
def route (path : String) : Place × List (List Char) :=
  match path.toList with
  | '/' :: rest => ([], pathNames rest)
  | cs => (home, pathNames cs)

/-- The place that a path leads to. -/
def find (tree : FileTree) (path : String) : Except SystemError Place :=
  tree.follow (route path).1 (route path).2

/-- Names without the empty ones at the end, which come from slashes after the
last name. -/
def withoutEmptyEnd (names : List (List Char)) : List (List Char) :=
  (names.reverse.dropWhile (· = [])).reverse

/-- The place at which a path creates a file: its last name in the directory
that the others lead to. A last name that stands for a directory, or is followed
by a slash, is refused once that directory has been reached. -/
def target (tree : FileTree) (path : String) : Except SystemError Place := do
  let (start, allNames) := route path
  let names := withoutEmptyEnd allNames
  let parent ← tree.follow start names.dropLast
  match tree.node? parent with
  | some .directory =>
    let name := names.getLastD []
    if names ≠ allNames ∨ name = [] ∨ name = ['.'] ∨ name = ['.', '.'] then
      .error .isDirectory
    else .ok (parent ++ [String.ofList name])
  | some _ => .error .notDirectory
  | none => .error .notFound

/-! ## Operations -/

/-- How many bytes of an endless device are ever asked for: a reader that finds
no program in one block gives up. -/
def endless : Bytes :=
  List.replicate Program.blockSize 0

/-- Opens a file for reading. -/
def openFile (tree : FileTree) (path : String) : Except SystemError Source := do
  let place ← tree.find path
  match tree.node? place with
  | none => .error .notFound
  | some .directory => .ok ⟨[], .failing SystemError.isDirectory.message⟩
  | some (.file bytes) => .ok (Source.ofBytes bytes)
  | some .nullDevice => .ok (Source.ofBytes [])
  | some .zeroDevice | some .fullDevice => .ok (Source.ofBytes endless)

/-- Creates a file, or empties it if it exists. -/
def createFile (tree : FileTree) (path : String) :
    Except SystemError FileTree := do
  let place ← tree.target path
  match tree.node? place with
  | some .directory => .error .isDirectory
  | none | some (.file _) => .ok (tree.put place (.file []))
  | some _ => .ok tree

/-- Writes at the end of a file that was created. -/
def appendFile (tree : FileTree) (path : String) (bytes : Bytes) :
    Except SystemError FileTree := do
  let place ← tree.target path
  match tree.node? place with
  | some (.file old) => .ok (tree.put place (.file (old ++ bytes)))
  | some .fullDevice => if bytes = [] then .ok tree else .error .noSpace
  | some .directory => .error .isDirectory
  | none => .error .notFound
  | some _ => .ok tree

/-- Adds the directories on a way from a place, where they are missing. -/
def addWay (tree : FileTree) (place : Place) : List (List Char) → FileTree
  | [] => tree
  | name :: rest =>
    let next := place ++ [String.ofList name]
    if (tree.node? next).isSome then tree.addWay next rest
    else (tree.put next .directory).addWay next rest

/-- Adds a directory, with the directories on the way to it. -/
def addDirectory (tree : FileTree) (path : String) : FileTree :=
  tree.addWay (route path).1 ((route path).2.filter (· ≠ []))

/-- Adds a file, with the directories on the way to it. -/
def addFile (tree : FileTree) (path : String) (bytes : Bytes) : FileTree :=
  let (start, names) := route path
  let tree := tree.addWay start (names.dropLast.filter (· ≠ []))
  match tree.target path with
  | .ok place => tree.put place (.file bytes)
  | .error _ => tree

/-- The bytes that can be read from a path. -/
def contents? (tree : FileTree) (path : String) : Option Bytes :=
  match tree.openFile path with
  | .ok ⟨bytes, .closed⟩ => some bytes
  | _ => none

end FileTree

end Command

end Bytecode
