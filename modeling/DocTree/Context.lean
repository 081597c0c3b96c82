/-
# Rendering contexts

Where in the document a part is rendered: how deep its headings are, and which
module, submodule and function it belongs to.  A context is never changed in place;
going into a part gives a new one.

Source: `label.RenderOptions` with `new`, `with_submodule`, `with_function`, `nested` and
`label`.
-/

import DocTree.Label

namespace DocTree

/-- The depth one level further down.  The deepest level has none below it and is
its own successor. -/
def deeper (depth : UInt64) : UInt64 :=
  if depth = UInt64.ofNat (UInt64.size - 1) then depth else depth + 1

/-- Where a part of the document stands. -/
structure Context where
  /-- Depth of the headings of the part. -/
  depth : UInt64 := 1
  /-- The module, if it is named. -/
  module? : Option String := none
  /-- The submodule that is being rendered, if any. -/
  submodule? : Option String := none
  /-- The function that is being rendered, if any. -/
  function? : Option String := none
  deriving Repr, DecidableEq

namespace Context

/-- The context inside the named submodule. -/
def inSubmodule (ctx : Context) (name : String) : Context :=
  { ctx with submodule? := some name }

/-- The context inside the named function. -/
def inFunction (ctx : Context) (name : String) : Context :=
  { ctx with function? := some name }

/-- The context outside of any function. -/
def outsideFunction (ctx : Context) : Context :=
  { ctx with function? := none }

/-- The context one heading level further down. -/
def nested (ctx : Context) : Context :=
  { ctx with depth := deeper ctx.depth }

/-- The label of the innermost thing that the context is inside. -/
def label (ctx : Context) : String :=
  DocTree.label ctx.module? ctx.submodule? ctx.function?

end Context
end DocTree
