/-
# The paragraphs of the section of references

The names that a value refers to are shown in one paragraph, as links with a comma between each
two, and its remarks are put together in another (`SeeAlso.render_paragraphs`).  Nothing else is
in the section, and it is there exactly if the value has an entry.
-/

import DocTree.Proofs.Context
import DocTree.Proofs.SeeAlso
import Mathlib.Data.List.Basic

namespace DocTree
namespace SeeAlso

/-- The name of a reference. -/
def Entry.name? : Entry → Option String
  | .reference name _ => some name
  | .text _ => none

/-- The names that a value refers to, in order. -/
def names (value : Json) : List String :=
  (entries value).filterMap Entry.name?

/-- The remarks of a value, in order. -/
def remarks (value : Json) : List String :=
  (entries value).filterMap text?

/-- The link of a name: to what it says itself if it has a dot, and otherwise to the function of
the name in the submodule of the context. -/
def linkOf (ctx : Context) (name : String) : Node :=
  .link ("#" ++ if '.' ∈ name.toList then name else label ctx.module? ctx.submodule? (some name))
    [.text name]

/-- Whether the children of a paragraph are the links of some names with a comma between each
two. -/
structure AreLinks (ctx : Context) (names : List String) (children : List Node) : Prop where
  length : children.length = 2 * names.length - 1
  link (i : Nat) (name : String) (h : names[i]? = some name) :
    children[2 * i]? = some (linkOf ctx name)
  comma (i : Nat) (h : i + 1 < names.length) : children[2 * i + 1]? = some (.text ", ")

/-- A proper reference is shown as the link of its name. -/
theorem link?_eq {entry : Entry} (h : entry.IsProper) (ctx : Context) :
    link? ctx entry = entry.name?.map (linkOf ctx) := by
  cases entry with
  | text remark => rfl
  | reference name qualified =>
    obtain ⟨-, rfl⟩ := h
    by_cases hdot : '.' ∈ name.toList <;>
      simp [link?, Entry.name?, linkOf, resolve, Node.anchorLink, hdot, Context.label,
        Context.inFunction]

/-- The links of a value are those of its names. -/
theorem filterMap_link? (value : Json) (ctx : Context) :
    (entries value).filterMap (link? ctx) = (names value).map (linkOf ctx) := by
  rw [names, List.map_filterMap]
  exact List.filterMap_congr fun entry hentry => link?_eq (isProper_of_mem_entries hentry) ctx

theorem areLinks_intersperse (ctx : Context) (names : List String) :
    AreLinks ctx names ((names.map (linkOf ctx)).intersperse (.text ", ")) where
  length := by rw [List.length_intersperse, List.length_map]
  link i name h := by rw [List.getElem?_intersperse_two_mul, List.getElem?_map, h, Option.map_some]
  comma i h := List.getElem?_intersperse_two_mul_add_one (by rwa [List.length_map])

/-- **The section of references shows the entries and nothing else.**  It is empty if there are no
entries; otherwise it is a heading one level down, then, if there are references, a paragraph of
their links with commas in between, and then, if there are remarks, a paragraph of one text, which
is the remarks with spaces in between. -/
theorem render_paragraphs (value : Json) (ctx : Context) :
    (render value ctx = [] ↔ entries value = []) ∧
      (entries value ≠ [] → ∃ children, AreLinks ctx (names value) children ∧
        render value ctx =
          .heading (depthBelow ctx.depth 1) [.text "See Also"] ::
            ((if names value = [] then [] else [.paragraph children]) ++
              if remarks value = [] then []
              else [.paragraph [.text (" ".intercalate (remarks value))]])) := by
  constructor
  · constructor
    · intro hnone
      by_contra hentries
      rw [render_of_ne_nil hentries] at hnone
      exact List.cons_ne_nil _ _ hnone
    · exact fun hentries => render_of_nil hentries ctx
  · intro hentries
    refine ⟨_, areLinks_intersperse ctx (names value), ?_⟩
    rw [render_of_ne_nil hentries, filterMap_link?, ← deeper_eq_depthBelow]
    simp only [List.map_eq_nil_iff]
    rfl

/-- Two references, the second to elsewhere, with a remark behind each, on the deepest level. -/
theorem render_paragraphs_sample :
    let value : Json := .array [.array [.string "sobel", .null], .string "Faster.",
      .array [.string "feature.canny", .null], .string "Slower."]
    let ctx : Context :=
      { depth := 18446744073709551615, module? := some "pkg", submodule? := some "filters" }
    entries value ≠ [] ∧ linkOf ctx "sobel" = .link "#pkg.filters.sobel" [.text "sobel"] ∧
      linkOf ctx "feature.canny" = .link "#feature.canny" [.text "feature.canny"] ∧
      ∃ children, AreLinks ctx ["sobel", "feature.canny"] children ∧
        render value ctx = [.heading 18446744073709551615 [.text "See Also"],
          .paragraph children, .paragraph [.text "Faster. Slower."]] := by
  intro value ctx
  have hentries : entries value ≠ [] := by decide
  have hnames : names value = ["sobel", "feature.canny"] := by decide
  have hremarks : remarks value = ["Faster.", "Slower."] := by decide
  have hdepth : depthBelow ctx.depth 1 = 18446744073709551615 := by decide
  obtain ⟨children, hchildren, hrender⟩ := (render_paragraphs value ctx).2 hentries
  rw [hnames, hremarks, hdepth] at hrender
  exact ⟨hentries, by rfl, by rfl, children, hnames ▸ hchildren, hrender⟩

end SeeAlso
end DocTree
