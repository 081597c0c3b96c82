/-
# What a rendering reads of its context

A function is rendered from the depth, the module and the submodule of its context.
Which function the context was in before is not read: the function's own name takes the
place of it wherever a label is made, and that of the function referred to wherever a
reference is resolved (`Docstring.render_outsideFunction`).
-/

import DocTree.Render

namespace DocTree

theorem SeeAlso.link?_outsideFunction (ctx : Context) (entry : SeeAlso.Entry) :
    SeeAlso.link? ctx.outsideFunction entry = SeeAlso.link? ctx entry := by
  cases entry with
  | text text => rfl
  | reference name qualified => cases qualified <;> rfl

theorem SeeAlso.render_outsideFunction (value : Json) (ctx : Context) :
    SeeAlso.render value ctx.outsideFunction = SeeAlso.render value ctx := by
  have hlink : SeeAlso.link? ctx.outsideFunction = SeeAlso.link? ctx :=
    funext (SeeAlso.link?_outsideFunction ctx)
  have hdepth : ctx.outsideFunction.nested.depth = ctx.nested.depth := rfl
  rw [SeeAlso.render, SeeAlso.render, hlink, hdepth]

theorem Docstring.renderSection_outsideFunction (name : String) (doc : Docstring)
    (parse : ProseParser) (ctx : Context) (part : Section) :
    doc.renderSection name parse ctx.outsideFunction part =
      doc.renderSection name parse ctx part := by
  have hinner : ctx.outsideFunction.nested.inFunction name = ctx.nested.inFunction name := rfl
  cases part <;> simp only [renderSection, hinner, SeeAlso.render_outsideFunction]

/-- **A function does not read which function the context is in.** -/
theorem Docstring.render_outsideFunction (name : String) (doc : Docstring)
    (parse : ProseParser) (ctx : Context) :
    doc.render name parse ctx.outsideFunction = doc.render name parse ctx := by
  have hsections : doc.renderSection name parse ctx.outsideFunction =
      doc.renderSection name parse ctx :=
    funext (renderSection_outsideFunction name doc parse ctx)
  have hinner : ctx.outsideFunction.nested.inFunction name = ctx.nested.inFunction name := rfl
  have hdepth : ctx.outsideFunction.depth = ctx.depth := rfl
  rw [render, render, hsections, hinner, hdepth]

/-! ### An example -/

/-- The docstring of a function that refers to one beside it. -/
def Docstring.sample : Docstring where
  summary := some ["Blurs an image."]
  parameters := some [{ name := "radius", type := "float" }]
  returns := some []
  seeAlso := some (.array [.array [.string "sobel", .null], .string "Faster."])

/-- A submodule of two functions, the first of which refers to the second. -/
def Submodule.sample : Submodule where
  entries := [
    ("blur", Docstring.sample),
    ("sobel", { notes := some "", examples := some ["sobel(image)"] })]
  nodup := by decide

/-- A catalog of two submodules. -/
def Catalog.sample : Catalog where
  entries := [
    ("filters", Submodule.sample),
    ("io", { entries := [("read", { references := some [] })], nodup := by decide })]
  nodup := by decide

end DocTree
