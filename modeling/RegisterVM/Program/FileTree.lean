import RegisterVM.Program.Run

/-
  Directories held in memory. A path is a sequence of names
  separated by slashes, followed name by name; empty names and
  single dots stay where they are, and double dots go up. Outside
  the directory there is nothing but the directories above it.

  Paths and names have greatest lengths, counted in bytes. That
  of a path holds at once, that of a name where it is looked up.

  Key definitions include:
    * `FileTree`
    * `FileTree.follow`
    * `FileTree.read`
    * `Program.runIn`
-/

namespace RegisterVM

/- Files, each by the names along its path. -/
structure FileTree where
  files : List (List String × List UInt8)
  deriving DecidableEq, Repr

namespace FileTree

------------------------------------------------------------
-- Paths
------------------------------------------------------------

/- The longest path, in bytes. -/
def maxPath : Nat :=
  4095

/- The longest name, in bytes. -/
def maxName : Nat :=
  255

/- The names along a path. -/
def names
    (path : String) : List String :=
  (path.splitOn "/").filter fun name => name ≠ "" ∧ name ≠ "."

/- Whether a path can only stand for a directory. -/
def namesDirectory
    (path : String) : Bool :=
  match (path.splitOn "/").getLast? with
  | some last => last == "" || last == "."
  | none => false

/- Whether a path starts at the root of all directories. -/
def isAbsolute
    (path : String) : Bool :=
  path.startsWith "/"

/- The tree of some files. -/
def ofFiles
    (files : List (String × List UInt8)) : FileTree :=
  ⟨files.map fun (path, content) => (names path, content)⟩

------------------------------------------------------------
-- Places
------------------------------------------------------------

/- A place in a tree by the names that lead there, or above it. -/
abbrev Place :=
  Option (List String)

/- Whether there is a file at a place in a tree. -/
def isFile
    (tree : FileTree)
    (place : List String) : Bool :=
  (tree.files.lookup place).isSome

/- Whether there is anything at a place in a tree. -/
def holds
    (tree : FileTree)
    (place : List String) : Bool :=
  tree.files.any fun file => place.isPrefixOf file.1

/- The place one up. -/
def up : Place → Place
  | none | some [] => none
  | some place => some place.dropLast

/- Follow one name. -/
def step
    (tree : FileTree)
    (place : Place)
    (name : String) : Except FileError Place :=
  if place.any tree.isFile then
    .error .notDirectory
  else if name = ".." then
    .ok (up place)
  else if maxName < name.utf8ByteSize then
    .error .nameTooLong
  else
    match place with
    | none => .error .notFound
    | some inside =>
      let next := inside ++ [name]
      if tree.holds next then .ok (some next) else .error .notFound

/- Follow names from a place. -/
def follow
    (tree : FileTree)
    (place : Place)
    (names : List String) : Except FileError Place :=
  names.foldlM tree.step place

------------------------------------------------------------
-- Reading
------------------------------------------------------------

/- Read a file. -/
def read
    (tree : FileTree)
    (path : String) : FileContent := do
  if path.contains '\x00' then
    throw .hasNul
  if maxPath < path.utf8ByteSize then
    throw .nameTooLong
  let start := if isAbsolute path then none else some []
  match ← tree.follow start (names path) with
  | none => throw .isDirectory
  | some place =>
    match tree.files.lookup place with
    | none => throw .isDirectory
    | some content =>
      if namesDirectory path then throw .notDirectory
      return content

end FileTree

/- What a command leaves behind in a directory. -/
def Command.executeIn
    (command : Command)
    (tree : FileTree) : Outcome :=
  command.execute (tree.read (command.file?.getD ""))

/- Run the program in a directory. -/
def Program.runIn
    (args : List String)
    (switches : Switches)
    (tree : FileTree) : RunResult :=
  Program.run args switches (tree.read ((Program.file? args).getD ""))

end RegisterVM
