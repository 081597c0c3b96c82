/-
# Version notes

Remarks that something was added, changed or deprecated in some version, written in
the source as the directives `versionadded`, `versionchanged` and `deprecated`.

Source: `roles.VersionChange` with `from_name`, `is_directive` and `verb`, and
`roles.version_note`.
-/

import DocTree.Node

namespace DocTree

/-- What happened to a documented thing in a version. -/
inductive VersionChange where
  | added
  | changed
  | deprecated
  deriving Repr, DecidableEq, Inhabited

namespace VersionChange

/-- The name of the directive that writes the note. -/
def directive : VersionChange → String
  | added => "versionadded"
  | changed => "versionchanged"
  | deprecated => "deprecated"

/-- The word the note begins with. -/
def verb : VersionChange → String
  | added => "Added"
  | changed => "Changed"
  | deprecated => "Deprecated"

/-- The change that a directive name stands for, if it is one of the three. -/
def ofDirective? (name : String) : Option VersionChange :=
  [added, changed, deprecated].find? (·.directive = name)

/-- Whether the name is that of a version directive. -/
def isDirective (name : String) : Bool :=
  (ofDirective? name).isSome

/-- The change that a directive name stands for; every other name counts as an addition. -/
def ofDirective (name : String) : VersionChange :=
  (ofDirective? name).getD added

/-- The remark that the change happened in a version. -/
def note (change : VersionChange) (version : String) : Node :=
  .admonition "note" [.paragraph [.text (change.verb ++ " in Version " ++ version)]]

end VersionChange
end DocTree
