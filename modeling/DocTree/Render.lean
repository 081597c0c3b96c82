/-
# Rendering a catalog

The nodes of a function are its target, its heading and its sections in a fixed
order.  Headings of sections are one level below that of the function, and those of
functions one level below that of their submodule; a module has no heading of its
own.  Prose is handed to a parser, everything else is rendered as it stands.

Source: `fields`, that is `parameter`, `parameter_group`, `summary`, `join_summary`,
`free_text`, `titled_text`, `references` and `examples`; `render.function`,
`render.submodule`, `render.module` and the `render` of `render.Section`.
-/

import DocTree.Docstring
import DocTree.SeeAlso
import DocTree.Text.Blank

namespace DocTree

namespace Parameter

/-- The term of an entry: what it is known by, with its type if that is something else. -/
def term (p : Parameter) : Node :=
  .definitionTerm <| .text p.displayName :: match p.typeRemark? with
    | some type => [.text " : ", .emphasis [.text type]]
    | none => []

/-- The term of an entry and its description. -/
def render (parse : ProseParser) (p : Parameter) : List Node :=
  [p.term, .definitionDescription (parse p.description).children]

/-- A parameter list under its heading.  An empty list leaves out the heading too. -/
def renderList (title : String) (list : List Parameter) (parse : ProseParser)
    (ctx : Context) : List Node :=
  if list.isEmpty then []
  else [.titled ctx.depth title, .definitionList (list.flatMap (render parse))]

end Parameter

/-- The lines of a summary as one line, each without the blanks at its ends. -/
def summaryText (lines : List String) : String :=
  " ".intercalate (lines.map fun line => String.ofList (Text.trim line.toList))

/-- A summary, which is one piece of prose. -/
def renderSummary (lines : List String) (parse : ProseParser) : List Node :=
  (parse (summaryText lines)).children

/-- Prose without a heading. -/
def renderProse (text : String) (parse : ProseParser) : List Node :=
  (parse text).children

/-- Prose under a heading, which stays even if there is no prose. -/
def renderTitled (title text : String) (parse : ProseParser) (depth : UInt64) : List Node :=
  .titled depth title :: (parse text).children

/-- A bibliography: its lines are prose, under a heading. -/
def renderReferences (lines : List String) (parse : ProseParser) (depth : UInt64) : List Node :=
  renderTitled "References" ("\n".intercalate lines) parse depth

/-- An example session: its lines are one block of code, under a heading.  Without lines
there is no heading either. -/
def renderExamples (lines : List String) (depth : UInt64) : List Node :=
  if lines.isEmpty then []
  else [.titled depth "Examples", .code "python" ("\n".intercalate lines)]

namespace Docstring

/-- A section of the function `name`, nothing if it is absent.  The context is that of
the function's heading. -/
def renderSection (name : String) (doc : Docstring) (parse : ProseParser) (ctx : Context)
    (part : Section) : List Node :=
  let inner := ctx.nested.inFunction name
  match part with
  | .summary => (doc.summary.map (renderSummary · parse)).getD []
  | .extendedSummary => (doc.extendedSummary.map (renderProse · parse)).getD []
  | .group g => ((doc.group g).map (Parameter.renderList g.title · parse inner)).getD []
  | .notes => (doc.notes.map (renderTitled part.title · parse inner.depth)).getD []
  | .references => (doc.references.map (renderReferences · parse inner.depth)).getD []
  | .examples => (doc.examples.map (renderExamples · inner.depth)).getD []
  | .seeAlso => (doc.seeAlso.map (SeeAlso.render · ctx)).getD []

/-- The function `name`: its target and heading, then its sections. -/
def render (name : String) (doc : Docstring) (parse : ProseParser) (ctx : Context) :
    List Node :=
  .target (ctx.nested.inFunction name).label :: .titled ctx.depth name ::
    Section.all.flatMap (doc.renderSection name parse ctx)

end Docstring

/-- The submodule `name`: its target and heading, then its functions one level deeper. -/
def renderSubmodule (name : String) (functions : Submodule) (parse : ProseParser)
    (ctx : Context) : List Node :=
  let inner := (ctx.nested.inSubmodule name).outsideFunction
  .target inner.label :: .titled ctx.depth name ::
    functions.entries.flatMap fun entry => entry.2.render entry.1 parse inner

/-- All submodules of a catalog. -/
def renderCatalog (catalog : Catalog) (parse : ProseParser) (ctx : Context) : List Node :=
  catalog.entries.flatMap fun entry => renderSubmodule entry.1 entry.2 parse ctx

end DocTree
