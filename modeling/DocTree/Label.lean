/-
# Labels

The label of an anchor is the dotted name of the thing it stands at, such as
`pkg.filters.blur`.  A component that is absent or empty is left out together with
its dot.

Source: `label.label`.
-/

namespace DocTree

/-- The components that are present and not empty, with a dot between each two. -/
def dotted (components : List (Option String)) : String :=
  ".".intercalate ((components.filterMap id).filter (· ≠ ""))

/-- The label of a function of a submodule of a module, each of which may be absent. -/
def label (module? submodule? function? : Option String) : String :=
  dotted [module?, submodule?, function?]

end DocTree
