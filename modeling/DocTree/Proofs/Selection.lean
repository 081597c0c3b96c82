/-
# Parts of a document

What a target selects is rendered as it stands in the document of the whole catalog
(`Catalog.render_parts`): the whole is its submodules one after the other, and a
submodule is its target, its heading and its functions one after the other, one level
deeper.  The ways to a function put together its context differently; they agree because
a function does not read all of it (`Docstring.render_outsideFunction`).
-/

import DocTree.Markup.Block
import DocTree.Selection
import DocTree.Proofs.Listing
import DocTree.Proofs.Render
import DocTree.Proofs.Text.Split
import Mathlib.Data.List.Basic

namespace DocTree

/-! ### What a target selects -/

/-- A name that a target can spell: one that is not empty and has no dot. -/
def IsPlainName (name : String) : Prop :=
  name ≠ "" ∧ '.' ∉ name.toList

instance (name : String) : Decidable (IsPlainName name) :=
  inferInstanceAs (Decidable (_ ∧ _))

namespace Catalog

/-- Whether all submodules and functions of a catalog have names that a target can spell. -/
def HasPlainNames (catalog : Catalog) : Prop :=
  ∀ entry ∈ catalog.entries, IsPlainName entry.1 ∧ ∀ name ∈ entry.2.names, IsPlainName name

instance (catalog : Catalog) : Decidable catalog.HasPlainNames :=
  inferInstanceAs (Decidable (∀ entry ∈ _, _ ∧ _))

/-- The name of a submodule selects the submodule. -/
theorem select_submodule {catalog : Catalog} {name : String} {functions : Submodule}
    (h : (name, functions) ∈ catalog.entries) (hname : IsPlainName name) :
    catalog.select (some name) = .submodule name functions := by
  have hparts : Text.split '.' name.toList = [name.toList] := Text.split_of_not_mem hname.2
  have hno : Text.part? [] 0 = none := rfl
  simp only [select, Option.getD_some, hparts, Text.part?_zero_cons hname.1,
    Text.part?_succ_cons, hno, Listing.get?_eq_some_iff.2 h, Option.bind_none]

/-- The names of a submodule and a function with a dot between them select the function. -/
theorem select_function {catalog : Catalog} {submodule name : String} {functions : Submodule}
    {doc : Docstring} (hs : (submodule, functions) ∈ catalog.entries)
    (hf : (name, doc) ∈ functions.entries) (hsub : IsPlainName submodule)
    (hname : IsPlainName name) :
    catalog.select (some (submodule ++ "." ++ name)) = .function submodule name doc := by
  have hparts : Text.split '.' (submodule ++ "." ++ name).toList =
      [submodule.toList, name.toList] := by
    have htext : (submodule ++ "." ++ name).toList = submodule.toList ++ '.' :: name.toList := by
      simp
    rw [htext, Text.split_append_cons, Text.split_of_not_mem hsub.2,
      Text.split_of_not_mem hname.2]
    rfl
  simp only [select, Option.getD_some, hparts, Text.part?_zero_cons hsub.1,
    Text.part?_succ_cons, Text.part?_zero_cons hname.1, Listing.get?_eq_some_iff.2 hs,
    Listing.get?_eq_some_iff.2 hf, Option.bind_some, Option.map_some]

/-! ### The whole and its parts -/

/-- **The document of a part is cut out of the document of the whole.**  A catalog is
rendered as its submodules one after the other, each as it is rendered when it is
selected; and a submodule as its target, its heading and its functions one after the
other, each as it is rendered when it is selected one level deeper. -/
theorem render_parts {catalog : Catalog} (h : catalog.HasPlainNames) (parse : ProseParser)
    (ctx : Context) :
    renderCatalog catalog parse ctx =
        catalog.names.flatMap (fun s => catalog.render (some s) parse ctx) ∧
      ∀ s functions, (s, functions) ∈ catalog.entries →
        catalog.render (some s) parse ctx =
          .target (label ctx.module? (some s) none) :: .titled ctx.depth s ::
            functions.names.flatMap fun f =>
              catalog.render (some (s ++ "." ++ f)) parse ctx.nested := by
  have hsub : ∀ s functions, (s, functions) ∈ catalog.entries →
      catalog.render (some s) parse ctx = renderSubmodule s functions parse ctx := by
    intro s functions hs
    rw [render, select_submodule hs (h _ hs).1]
  refine ⟨?_, fun s functions hs => ?_⟩
  · rw [renderCatalog, Listing.names, List.flatMap_map]
    refine List.flatMap_congr fun entry hentry => ?_
    rw [hsub entry.1 entry.2 hentry]
  · rw [hsub s functions hs, renderSubmodule, Listing.names, List.flatMap_map]
    congr 2
    refine List.flatMap_congr fun entry hentry => ?_
    have hname := (h _ hs).2 entry.1 (List.mem_map_of_mem hentry)
    rw [render, select_function hs hentry (h _ hs).1 hname]
    exact Docstring.render_outsideFunction entry.1 entry.2 parse (ctx.nested.inSubmodule s)

/-- The parts of a catalog of two submodules, in a context that was in another function. -/
theorem render_parts_sample :
    sample.HasPlainNames ∧
      renderCatalog sample Markup.parse { submodule? := some "io", function? := some "old" } =
        sample.render (some "filters") Markup.parse
            { submodule? := some "io", function? := some "old" } ++
          sample.render (some "io") Markup.parse
            { submodule? := some "io", function? := some "old" } ∧
      sample.render (some "io") Markup.parse { depth := 3, module? := some "pkg" } =
        .target "pkg.io" :: .titled 3 "io" ::
          sample.render (some "io.read") Markup.parse { depth := 4, module? := some "pkg" } := by
  have hplain : sample.HasPlainNames := by decide
  refine ⟨hplain, ?_, ?_⟩
  · have hwhole := (render_parts hplain Markup.parse
      { submodule? := some "io", function? := some "old" }).1
    exact hwhole.trans (congrArg _ (List.append_nil _))
  · have hparts := (render_parts hplain Markup.parse { depth := 3, module? := some "pkg" }).2
    have hio := hparts "io" _ (List.mem_cons_of_mem _ (List.mem_cons_self ..))
    exact hio.trans (congrArg (_ :: _ :: ·) (List.append_nil _))

end Catalog
end DocTree
