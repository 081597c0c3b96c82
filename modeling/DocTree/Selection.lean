/-
# Selections

What to render is named by an address: the path of a record, and after a `#` the
submodule, or the submodule and the function with a dot between them.  What names
nothing in the record falls back to what is named before it, the submodule or the
whole catalog.

Source: `directive.DirectiveArg` with `parse`, `directive.Selection`, `directive.select`
and `directive.render`.
-/

import DocTree.Render
import DocTree.Text.Split

namespace DocTree

/-- The path of a record and what is asked for in it. -/
structure Address where
  /-- The path of the record. -/
  path : String
  /-- The submodule and function asked for, if any. -/
  target? : Option String := none
  deriving Repr, DecidableEq, Inhabited

/-- The address that a text spells.  A second `#` ends it. -/
def Address.ofString (s : String) : Address :=
  let parts := Text.split '#' s.toList
  { path := String.ofList (parts.headD []), target? := Text.part? parts 1 }

/-- A part of a catalog. -/
inductive Selection where
  /-- All of it. -/
  | whole
  /-- A submodule. -/
  | submodule (name : String) (functions : Submodule)
  /-- A function of a submodule. -/
  | function (submodule name : String) (doc : Docstring)

namespace Catalog

/-- The part of a catalog that a target names.  What follows a second dot is ignored, and
an empty component names nothing. -/
def select (catalog : Catalog) (target? : Option String) : Selection :=
  let components := Text.split '.' (target?.getD "").toList
  match Text.part? components 0 with
  | none => .whole
  | some submodule => match catalog.get? submodule with
    | none => .whole
    | some functions =>
      match (Text.part? components 1).bind fun name => (functions.get? name).map (name, ·) with
      | some (name, doc) => .function submodule name doc
      | none => .submodule submodule functions

/-- The nodes of the part of a catalog that a target names. -/
def render (catalog : Catalog) (target? : Option String) (parse : ProseParser)
    (ctx : Context) : List Node :=
  match catalog.select target? with
  | .function submodule name doc => doc.render name parse (ctx.inSubmodule submodule)
  | .submodule name functions => renderSubmodule name functions parse ctx
  | .whole => renderCatalog catalog parse ctx

end Catalog
end DocTree
