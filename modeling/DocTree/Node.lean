/-
# Document trees

The tree a documentation record is rendered to.  Text, inline code, code blocks and
targets are leaves; every other node has a list of children.

Source: `node.Node` with `text`, `heading`, `paragraph`, `anchor_link`, `target`, `code`
and `children`, `node.Root`, `roles.func_role` and `markup.TextParser`.
-/

namespace DocTree

/-- A node of a document tree. -/
inductive Node where
  /-- Plain text. -/
  | text (value : String)
  /-- Emphasised content. -/
  | emphasis (children : List Node)
  /-- Code within a paragraph. -/
  | inlineCode (value : String)
  /-- Content that leads to an address. -/
  | link (url : String) (children : List Node)
  /-- A heading at a depth. -/
  | heading (depth : UInt64) (children : List Node)
  /-- A paragraph. -/
  | paragraph (children : List Node)
  /-- Terms, each followed by its description. -/
  | definitionList (children : List Node)
  /-- A term of a definition list. -/
  | definitionTerm (children : List Node)
  /-- The description of the term before it. -/
  | definitionDescription (children : List Node)
  /-- A block of code in a language. -/
  | code (lang value : String)
  /-- A boxed remark of some kind. -/
  | admonition (kind : String) (children : List Node)
  /-- An anchor that links of the document can lead to. -/
  | target (label : String)
  deriving Repr, BEq, Inhabited

/-- A whole document, or the tree of one text. -/
structure Root where
  /-- The top-level nodes, in document order. -/
  children : List Node := []
  deriving Repr, BEq, Inhabited

/-- Whatever turns prose into a tree. -/
abbrev ProseParser := String → Root

namespace Node

/-- The children of a node; a leaf has none. -/
def children : Node → List Node
  | emphasis children | link _ children | heading _ children | paragraph children
  | definitionList children | definitionTerm children | definitionDescription children
  | admonition _ children => children
  | text _ | inlineCode _ | code _ _ | target _ => []

/-- A heading whose content is one text. -/
def titled (depth : UInt64) (title : String) : Node :=
  heading depth [text title]

/-- A link, shown as `display`, to the target with the given label. -/
def anchorLink (label display : String) : Node :=
  link ("#" ++ label) [text display]

/-- A link to a documented function that shows the function's full name. -/
def functionLink (name : String) : Node :=
  anchorLink name name

end Node
end DocTree
