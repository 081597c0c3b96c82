/-
# Files that were written

A file is found again at every path that leads to where it was written, and every other path
goes on leading to what it led to (`FileTree.read?_write?`): a file takes the place of no
directory, so all paths lead where they led (`FileTree.locate_put`).  So on a file tree, as on
any disk that can be relied on (`Disk.Lawful`), reading changes nothing and what was written is
read back (`FileTree.lawful_disk`).
-/

import DocTree.Disk
import Mathlib.Data.List.Basic

namespace DocTree

/-- What can be relied on when files are read and written. -/
structure Disk.Lawful {σ : Type} (disk : Disk (StateM σ)) : Prop where
  /-- Reading changes nothing. -/
  run_read : ∀ path state, ∃ result, (disk.read path).run state = (result, state)
  /-- Writing that fails changes nothing. -/
  run_write_error : ∀ path text before after reason,
    (disk.write path text).run before = (.error reason, after) → after = before
  /-- A text that was written is read back. -/
  run_read_written : ∀ path text before after,
    (disk.write path text).run before = (.ok (), after) →
      (disk.read path).run after = (.ok text.toUTF8, after)

namespace FileTree

variable {tree : FileTree} {location : Location}

/-! ### Directories -/

@[simp] theorem at?_nil (tree : FileTree) : tree.at? [] = some .directory :=
  rfl

/-- What a directory lies in is a directory. -/
theorem directory_dropLast (h : tree.at? location = some .directory) :
    tree.at? location.dropLast = some .directory := by
  by_cases hroot : location = []
  · rwa [hroot] at h ⊢
  · rw [at?, Entry.at?, if_neg hroot] at h
    obtain ⟨before, after, hentries, -⟩ := List.lookup_eq_some_iff.1 h
    exact tree.closed (location, .directory) (by simp [hentries])

/-- Where a walk ends lies in a directory. -/
theorem directory_dropLast_of_walk {here : Location} {names : List String}
    (hhere : tree.at? here.dropLast = some .directory)
    (h : tree.walk here names = some location) :
    tree.at? location.dropLast = some .directory := by
  induction names generalizing here with
  | nil =>
    obtain rfl := Option.some.inj h
    exact hhere
  | cons name names ih =>
    rw [walk] at h
    split at h
    · cases h
    · next hdirectory =>
      rw [not_not] at hdirectory
      split at h
      · exact ih hhere h
      · split at h
        · exact ih (directory_dropLast hhere) h
        · exact ih (by rwa [List.dropLast_concat]) h

/-- What a path leads to lies in a directory, so a file can be put there unless it is one. -/
theorem isPlace_iff_of_locate {path : String} (h : tree.locate path = some location) :
    tree.IsPlace location ↔ tree.at? location ≠ some .directory := by
  obtain ⟨names, -, hwalk⟩ := Option.bind_eq_some_iff.1 h
  have hstart : tree.at? (tree.start path) = some .directory := by
    rw [start]
    split
    · rfl
    · exact tree.starts
  exact and_iff_right (directory_dropLast_of_walk (directory_dropLast hstart) hwalk)

/-! ### Putting a file somewhere -/

/-- What is at a location after something was put somewhere. -/
theorem at?_put (h : tree.IsPlace location) (entry : Entry) (other : Location) :
    (tree.put location entry h).at? other =
      if other = location then some entry else tree.at? other := by
  by_cases hother : other = location
  · have hroot : other ≠ [] := by
      rintro rfl
      exact h.2 (hother ▸ tree.at?_nil)
    simp [at?, Entry.at?, put, hother ▸ hroot, hother]
  · have hne : (other == location) = false := beq_eq_false_iff_ne.2 hother
    simp [at?, Entry.at?, put, List.lookup_cons, hne, hother]

/-- A file makes no directory, and takes the place of none. -/
theorem at?_put_file_iff (h : tree.IsPlace location) (content : ByteArray) (other : Location) :
    (tree.put location (.file content) h).at? other = some .directory ↔
      tree.at? other = some .directory := by
  rw [at?_put]
  split
  · next heq => simp [heq, h.2]
  · rfl

/-- Where names lead depends only on what is a directory. -/
theorem walk_congr {other : FileTree}
    (h : ∀ location, other.at? location = some .directory ↔
      tree.at? location = some .directory)
    (here : Location) (names : List String) : other.walk here names = tree.walk here names := by
  induction names generalizing here with
  | nil => rfl
  | cons name names ih => simp only [walk, ne_eq, h, ih]

/-- **A file that is put somewhere changes where no path leads.** -/
theorem locate_put (h : tree.IsPlace location) (content : ByteArray) (path : String) :
    (tree.put location (.file content) h).locate path = tree.locate path :=
  congrArg (Option.bind (names? path))
    (funext (walk_congr (at?_put_file_iff h content) (tree.start path)))

/-! ### What is written -/

/-- Writing puts a file where the path leads, unless that is a directory. -/
theorem write?_eq_some_iff {path : String} {content : ByteArray} {next : FileTree} :
    tree.write? path content = some next ↔
      ∃ location h, tree.locate path = some location ∧
        next = tree.put location (.file content) h := by
  simp only [write?, Option.bind_eq_some_iff, Option.dite_none_right_eq_some, Option.some.injEq,
    eq_comm (b := next)]
  constructor
  · rintro ⟨location, hlocate, h, hnext⟩
    exact ⟨location, h, hlocate, hnext⟩
  · rintro ⟨location, h, hlocate, hnext⟩
    exact ⟨location, hlocate, h, hnext⟩

/-- **What is read after writing a file:** the file on every path that leads to it, and what was
there before on every other path. -/
theorem read?_write? {path : String} {content : ByteArray} {next : FileTree}
    (h : tree.write? path content = some next) (other : String) :
    next.read? other =
      if tree.locate other = tree.locate path then some content else tree.read? other := by
  obtain ⟨location, hplace, hlocate, rfl⟩ := write?_eq_some_iff.1 h
  rw [read?, locate_put, hlocate, read?]
  cases tree.locate other with
  | none => simp
  | some otherLocation =>
    rw [Option.bind_some, Option.bind_some, at?_put]
    by_cases hsame : otherLocation = location
    · simp [hsame, Entry.content?]
    · simp [hsame]

/-- **Writing a file changes what is at its own location only.** -/
theorem at?_write? {path : String} {content : ByteArray} {next : FileTree}
    (h : tree.write? path content = some next) {other : Location}
    (hother : tree.locate path ≠ some other) : next.at? other = tree.at? other := by
  obtain ⟨location, hplace, hlocate, rfl⟩ := write?_eq_some_iff.1 h
  rw [at?_put, if_neg]
  rintro rfl
  exact hother hlocate

/-- A file that was provided is read at its path. -/
theorem read?_provide? {path : String} {content : ByteArray} {next : FileTree}
    (h : tree.provide? path content = some next) : next.read? path = some content := by
  obtain ⟨names, -, hmade⟩ := Option.bind_eq_some_iff.1 h
  obtain ⟨made, -, hwrite⟩ := Option.bind_eq_some_iff.1 hmade
  rw [read?_write? hwrite, if_pos rfl]

/-! ### The tree as a disk -/

theorem run_read (path : String) (tree : FileTree) :
    (disk.read path).run tree =
      (match tree.read? path with
        | some content => Except.ok content
        | none => Except.error "no such file", tree) := by
  show StateT.run (match tree.read? path with
    | some content => pure (Except.ok content)
    | none => pure (Except.error "no such file")) tree = _
  cases tree.read? path <;> rfl

theorem run_write (path text : String) (tree : FileTree) :
    (disk.write path text).run tree =
      match tree.write? path text.toUTF8 with
      | some next => (Except.ok (), next)
      | none => (Except.error "no file can be written there", tree) := by
  show StateT.run (match tree.write? path text.toUTF8 with
    | some next => do
      set next
      return Except.ok ()
    | none => pure (Except.error "no file can be written there")) tree = _
  cases tree.write? path text.toUTF8 <;> rfl

/-- Writing succeeds with the tree that has the file. -/
theorem run_write_ok_iff {path text : String} {tree next : FileTree} :
    (disk.write path text).run tree = (.ok (), next) ↔
      tree.write? path text.toUTF8 = some next := by
  rw [run_write]
  cases tree.write? path text.toUTF8 with
  | none => exact iff_of_false nofun nofun
  | some written =>
    constructor
    · rintro ⟨⟩
      rfl
    · rintro ⟨⟩
      rfl

/-- Writing does not fail where a path leads that leads to no directory. -/
theorem run_write_ne_error {path text reason : String} {after : FileTree}
    (hlocate : tree.locate path = some location) (hentry : tree.at? location ≠ some .directory) :
    (disk.write path text).run tree ≠ (.error reason, after) := by
  have hplace := (isPlace_iff_of_locate hlocate).2 hentry
  rw [run_write, write?_eq_some_iff.2 ⟨location, hplace, hlocate, rfl⟩]
  exact nofun

/-- **A file tree is a disk that can be relied on.** -/
theorem lawful_disk : disk.Lawful where
  run_read path tree := ⟨_, run_read path tree⟩
  run_write_error path text before after reason h := by
    rw [run_write] at h
    split at h
    · cases h
    · exact (Prod.mk.inj h).2.symm
  run_read_written path text before after h := by
    have hread := read?_write? (run_write_ok_iff.1 h) path
    rw [if_pos rfl] at hread
    rw [run_read, hread]

end FileTree
end DocTree
