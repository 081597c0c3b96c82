/-
# Docstrings

The documentation of one function, split into its sections, and the catalog of the
functions of a module by submodule.  Every section is optional: one that is absent is
not the same as one that is empty.

Source: `model.Parameter` with `display_name` and `annotation`, `model.FunctionDoc`,
`model.Submodule` and `model.Record`; `render.Section` with `title`, `parameters` and
`is_present`, and `render.SECTION_ORDER`.
-/

import DocTree.Json.Value
import DocTree.Listing

namespace DocTree

/-- An entry of a parameter list.  An exception or an unnamed result has no name, and its
type is what it is known by. -/
structure Parameter where
  /-- The name, which may be empty. -/
  name : String := ""
  /-- The type, which may be empty. -/
  type : String := ""
  /-- What it is for, as prose. -/
  description : String := ""
  deriving Repr, DecidableEq, Inhabited

namespace Parameter

/-- What the entry is known by: its name, or its type if it has no name. -/
def displayName (p : Parameter) : String :=
  if p.name = "" then p.type else p.name

/-- The type as a remark on the name, if there are both. -/
def typeRemark? (p : Parameter) : Option String :=
  if p.name ≠ "" ∧ p.type ≠ "" then some p.type else none

end Parameter

/-- A section that is a parameter list. -/
inductive Group where
  | parameters
  | otherParameters
  | returns
  | yields
  | receives
  | raises
  | warns
  | attributes
  deriving Repr, DecidableEq, Inhabited

/-- A section of a docstring. -/
inductive Section where
  | summary
  | extendedSummary
  | group (group : Group)
  | notes
  | references
  | examples
  | seeAlso
  deriving Repr, DecidableEq, Inhabited

namespace Group

/-- The parameter lists in the order they are rendered in. -/
def all : List Group :=
  [parameters, otherParameters, returns, yields, receives, raises, warns, attributes]

/-- The heading of a parameter list, and its name in a record. -/
def title : Group → String
  | parameters => "Parameters"
  | otherParameters => "Other Parameters"
  | returns => "Returns"
  | yields => "Yields"
  | receives => "Receives"
  | raises => "Raises"
  | warns => "Warns"
  | attributes => "Attributes"

/-- The plain name of a parameter list in a record. -/
def plainName : Group → String
  | parameters => "parameters"
  | otherParameters => "other_parameters"
  | returns => "returns"
  | yields => "yields"
  | receives => "receives"
  | raises => "raises"
  | warns => "warns"
  | attributes => "attributes"

end Group

namespace Section

/-- The sections in the order they are rendered in, which is also that of a docstring
written by position. -/
def all : List Section :=
  [summary, extendedSummary] ++ Group.all.map group ++ [notes, references, examples, seeAlso]

/-- The heading of a section, and its name in a record. -/
def title : Section → String
  | summary => "Summary"
  | extendedSummary => "Extended Summary"
  | group g => g.title
  | notes => "Notes"
  | references => "References"
  | examples => "Examples"
  | seeAlso => "See Also"

/-- The plain name of a section in a record. -/
def plainName : Section → String
  | summary => "summary"
  | extendedSummary => "extended_summary"
  | group g => g.plainName
  | notes => "notes"
  | references => "references"
  | examples => "examples"
  | seeAlso => "see_also"

/-- The section that a key of a record names, by either of its names. -/
def ofKey? (key : String) : Option Section :=
  all.find? fun s => s.title = key || s.plainName = key

end Section

/-- The documentation of a function. -/
structure Docstring where
  /-- The lines of the summary. -/
  summary : Option (List String) := none
  /-- More prose on what the function does. -/
  extendedSummary : Option String := none
  parameters : Option (List Parameter) := none
  otherParameters : Option (List Parameter) := none
  returns : Option (List Parameter) := none
  yields : Option (List Parameter) := none
  receives : Option (List Parameter) := none
  raises : Option (List Parameter) := none
  warns : Option (List Parameter) := none
  attributes : Option (List Parameter) := none
  /-- Remarks, as prose. -/
  notes : Option String := none
  /-- The lines of the bibliography. -/
  references : Option (List String) := none
  /-- The lines of an example session. -/
  examples : Option (List String) := none
  /-- Related functions and remarks on them, nested in one of several ways. -/
  seeAlso : Option Json := none
  deriving Repr, BEq, Inhabited

namespace Docstring

/-- A parameter list of the docstring. -/
def group (doc : Docstring) : Group → Option (List Parameter)
  | .parameters => doc.parameters
  | .otherParameters => doc.otherParameters
  | .returns => doc.returns
  | .yields => doc.yields
  | .receives => doc.receives
  | .raises => doc.raises
  | .warns => doc.warns
  | .attributes => doc.attributes

/-- The docstring with another parameter list in place of one. -/
def setGroup (doc : Docstring) (g : Group) (list : Option (List Parameter)) : Docstring :=
  match g with
  | .parameters => { doc with parameters := list }
  | .otherParameters => { doc with otherParameters := list }
  | .returns => { doc with returns := list }
  | .yields => { doc with yields := list }
  | .receives => { doc with receives := list }
  | .raises => { doc with raises := list }
  | .warns => { doc with warns := list }
  | .attributes => { doc with attributes := list }

/-- Whether the docstring has a section. -/
def has (doc : Docstring) : Section → Bool
  | .summary => doc.summary.isSome
  | .extendedSummary => doc.extendedSummary.isSome
  | .group g => (doc.group g).isSome
  | .notes => doc.notes.isSome
  | .references => doc.references.isSome
  | .examples => doc.examples.isSome
  | .seeAlso => doc.seeAlso.isSome

end Docstring

/-- The functions of a submodule. -/
abbrev Submodule := Listing Docstring

/-- The submodules of a module. -/
abbrev Catalog := Listing Submodule

end DocTree
