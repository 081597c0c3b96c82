/-
# Disks

Where records are read from and documents are written to.  `Disk` is what a program
needs of one, in any monad; `FileTree` is a disk in memory, a tree of directories in
which the files are found by path the way a file system finds them.

Source: the reading in `directive.load` and the writing in `main.main`, with the rules by
which the file system they use follows a path.  Links and permissions are left out.
-/

import DocTree.Text.Split

namespace DocTree

/-- What can be done with files.  An operation that fails says why and changes nothing. -/
structure Disk (m : Type → Type) where
  /-- The bytes of the file at a path. -/
  read (path : String) : m (Except String ByteArray)
  /-- Makes a text the content of the file at a path. -/
  write (path text : String) : m (Except String Unit)

/-- The names that lead from the root of a tree to a file or directory. -/
abbrev Location := List String

/-- What there can be at a location of a tree. -/
inductive FileTree.Entry where
  /-- A directory. -/
  | directory
  /-- A file. -/
  | file (content : ByteArray)

namespace FileTree.Entry

instance : (found : Option Entry) → Decidable (found = some directory)
  | some directory => isTrue rfl
  | some (file _) => isFalse nofun
  | none => isFalse nofun

/-- The bytes of a file. -/
def content? : Entry → Option ByteArray
  | directory => none
  | file content => some content

/-- What some entries say is at a location, where the first one counts.  The root is a
directory. -/
def at? (entries : List (Location × Entry)) (location : Location) : Option Entry :=
  if location = [] then some directory else entries.lookup location

variable {entries : List (Location × Entry)} {location other : Location}

/-- A directory stays when something is put where there is none. -/
theorem at?_cons_of_directory (hplace : at? entries location ≠ some directory)
    (h : at? entries other = some directory) (entry : Entry) :
    at? ((location, entry) :: entries) other = some directory := by
  have hne : (other == location) = false := beq_eq_false_iff_ne.2 fun heq => hplace (heq ▸ h)
  rwa [at?, List.lookup_cons, hne]

end FileTree.Entry

/-- Files and directories by location, and the directory that paths start in.  One location
holds one thing, and what is there lies in a directory: nothing is below a file. -/
structure FileTree where
  /-- What is where; of several entries for a location the first one counts. -/
  entries : List (Location × FileTree.Entry) := []
  /-- Where paths start that do not start at the root. -/
  workingDirectory : Location := []
  /-- Whatever is in the tree lies in a directory. -/
  closed : ∀ item ∈ entries, FileTree.Entry.at? entries item.1.dropLast = some .directory := by
    decide
  /-- Paths start in a directory. -/
  starts : FileTree.Entry.at? entries workingDirectory = some .directory := by decide

namespace FileTree

/-- What is at a location. -/
def at? (tree : FileTree) (location : Location) : Option Entry :=
  Entry.at? tree.entries location

/-- Whether something can be put at a location: it is in a directory and none itself. -/
def IsPlace (tree : FileTree) (location : Location) : Prop :=
  tree.at? location.dropLast = some .directory ∧ tree.at? location ≠ some .directory

instance (tree : FileTree) (location : Location) : Decidable (tree.IsPlace location) :=
  inferInstanceAs (Decidable (_ ∧ _))

/-- The tree with something put at a location. -/
def put (tree : FileTree) (location : Location) (entry : Entry) (h : tree.IsPlace location) :
    FileTree where
  entries := (location, entry) :: tree.entries
  workingDirectory := tree.workingDirectory
  closed item hitem := by
    refine Entry.at?_cons_of_directory h.2 ?_ entry
    rcases List.mem_cons.1 hitem with rfl | hitem
    · exact h.1
    · exact tree.closed item hitem
  starts := Entry.at?_cons_of_directory h.2 tree.starts entry

/-- Follows the names of a path from a location.  Every name is looked up in a directory;
an empty name and a dot stay in it, and two dots leave it, unless it is the root. -/
def walk (tree : FileTree) (here : Location) : List String → Option Location
  | [] => some here
  | name :: names =>
    if tree.at? here ≠ some .directory then none
    else if name = "" ∨ name = "." then tree.walk here names
    else if name = ".." then tree.walk here.dropLast names
    else tree.walk (here ++ [name]) names

/-- The greatest number of bytes in a name. -/
def nameLimit : Nat := 255

/-- The greatest number of bytes in a path. -/
def pathLimit : Nat := 4095

/-- The names on a path.  A path that is empty or too long has none that could be followed,
and neither has one with a null character or too long a name. -/
def names? (path : String) : Option (List String) :=
  let names := (Text.split '/' path.toList).map String.ofList
  if path = "" ∨ pathLimit < path.utf8ByteSize ∨ path.toList.contains '\x00' then none
  else if names.any fun name => nameLimit < name.utf8ByteSize then none
  else some names

/-- Where a path starts: at the root if it begins with a slash, or in the working directory. -/
def start (tree : FileTree) (path : String) : Location :=
  if path.toList.head? = some '/' then [] else tree.workingDirectory

/-- The location that a path leads to, be there anything or not. -/
def locate (tree : FileTree) (path : String) : Option Location :=
  (names? path).bind (tree.walk (tree.start path))

/-- The bytes of the file at a path. -/
def read? (tree : FileTree) (path : String) : Option ByteArray :=
  (tree.locate path).bind fun location => (tree.at? location).bind Entry.content?

/-- The tree with a file at a path, in place of the one that may be there. -/
def write? (tree : FileTree) (path : String) (content : ByteArray) : Option FileTree :=
  (tree.locate path).bind fun location =>
    if h : tree.IsPlace location then some (tree.put location (.file content) h) else none

/-- The tree with a directory for every name that leads on from a location.  A name that
is a file's is in the way. -/
def makeWay (tree : FileTree) (here : Location) : List String → Option FileTree
  | [] => some tree
  | name :: names =>
    if name = "" ∨ name = "." then tree.makeWay here names
    else if name = ".." then tree.makeWay here.dropLast names
    else
      let next := here ++ [name]
      if tree.at? next = some .directory then tree.makeWay next names
      else if h : tree.at? next = none ∧ tree.IsPlace next then
        (tree.put next .directory h.2).makeWay next names
      else none

/-- The tree with a file at a path and the directories that lead there. -/
def provide? (tree : FileTree) (path : String) (content : ByteArray) : Option FileTree := do
  let names ← names? path
  let tree ← tree.makeWay (tree.start path) names.dropLast
  tree.write? path content

/-- A working directory with nothing in it. -/
def scratch : FileTree :=
  { entries := [(["work"], .directory)], workingDirectory := ["work"] }

/-- The tree of some files by path; a later one replaces an earlier one, and one that
finds no place is left out. -/
def ofFiles (files : List (String × ByteArray)) : FileTree :=
  files.foldl (fun tree (path, content) => (tree.provide? path content).getD tree) scratch

/-- The tree as a disk. -/
def disk : Disk (StateM FileTree) where
  read path := do
    match (← get).read? path with
    | some content => return .ok content
    | none => return .error "no such file"
  write path text := do
    match (← get).write? path text.toUTF8 with
    | some tree =>
      set tree
      return .ok ()
    | none => return .error "no file can be written there"

end FileTree
end DocTree
