/-
# What prose is made of

Paragraphs hold nothing but running text, and a piece of prose is made of paragraphs, blocks
of code and boxed remarks (`Markup.pick_parse`); the references of a function are running
text under a heading (`SeeAlso.pick_render`).  So whoever looks for something else in a
document need not look there.
-/

import DocTree.Markup.Block
import DocTree.Proofs.Node
import DocTree.Proofs.SeeAlso

namespace DocTree

/-- Whether a node is a paragraph or stands in one. -/
def Node.isRunningText : Node → Bool
  | text _ | emphasis _ | inlineCode _ | link .. | paragraph _ => true
  | _ => false

/-- Whether a node is one that a piece of prose may be made of. -/
def Node.isProse : Node → Bool
  | code .. | admonition .. => true
  | node => node.isRunningText

section Pick

variable {p : Node → Bool}

/-- Nothing is picked from trees whose nodes are all of a kind that does not pass. -/
theorem Node.pick_eq_nil_of_all {q : Node → Bool} (hp : ∀ node, q node = true → p node = false)
    {nodes : List Node} (h : (flatList nodes).all q = true) : pick p nodes = [] := by
  rw [List.all_eq_true] at h
  rw [pick, List.filter_eq_nil_iff]
  exact fun node hnode => by simp [hp node (h node hnode)]

/-! ### References -/

section RunningText

variable (hp : ∀ node, node.isRunningText = true → p node = false)

include hp

theorem Node.pick_paragraph (children : List Node) :
    pick p [.paragraph children] = pick p children := by
  simp [hp (.paragraph children) rfl, Node.children]

theorem SeeAlso.pick_links (ctx : Context) (all : List Entry) :
    Node.pick p ((all.filterMap (link? ctx)).intersperse (.text ", ")) = [] := by
  rw [Node.pick_intersperse (Node.pick_eq_nil_of_all hp rfl)]
  refine Node.pick_eq_nil fun node hnode => ?_
  obtain ⟨entry, -, hlink⟩ := List.mem_filterMap.1 hnode
  cases entry with
  | text text => cases hlink
  | reference name qualified =>
    obtain rfl := Option.some.inj hlink
    exact Node.pick_eq_nil_of_all hp rfl

/-- Of references and remarks, nothing but their heading is picked. -/
theorem SeeAlso.pick_render (value : Json) (ctx : Context) :
    Node.pick p (render value ctx) =
      if (entries value).isEmpty then []
      else Node.pick p [.titled ctx.nested.depth "See Also"] := by
  by_cases h : entries value = []
  · rw [render_of_nil h, h]
    rfl
  · have hlinks : Node.pick p (if (entries value).filterMap (link? ctx) = [] then []
        else [.paragraph (((entries value).filterMap (link? ctx)).intersperse (.text ", "))]) =
          [] := by
      split
      · rfl
      · rw [Node.pick_paragraph hp, pick_links hp]
    have hremarks : Node.pick p (if (entries value).filterMap text? = [] then []
        else [.paragraph [.text (" ".intercalate ((entries value).filterMap text?))]]) = [] := by
      split <;> exact Node.pick_eq_nil_of_all hp rfl
    rw [if_neg (by simpa using h), render_of_ne_nil h, Node.pick_first, Node.pick_append, hlinks,
      hremarks, List.append_nil, List.append_nil]

end RunningText

/-! ### Markup -/

namespace Markup

variable (hp : ∀ node, node.isProse = true → p node = false)

include hp

theorem pick_inlineNodes (cs : List Char) : Node.pick p (inlineNodes cs) = [] := by
  refine Node.pick_eq_nil fun node hnode => ?_
  obtain ⟨span, -, rfl⟩ := List.mem_map.1 hnode
  cases span <;> exact Node.pick_eq_nil_of_all hp rfl

theorem pick_block (block : Block) : Node.pick p [block.toNode] = [] := by
  cases block with
  | paragraph lines =>
    have hnode : p (.paragraph (inlineNodes (Text.joinLines lines))) = false := hp _ rfl
    rw [Block.toNode, Node.pick_cons, hnode, Node.children, pick_inlineNodes hp]
    rfl
  | fenced info body =>
    rw [Block.toNode, fencedBlock]
    split
    · split <;> exact Node.pick_eq_nil_of_all hp rfl
    · exact Node.pick_eq_nil_of_all hp rfl

/-- **The markup of this library makes nothing but prose:** nothing else is picked from what
it makes of a text. -/
theorem pick_parse (source : String) : Node.pick p (parse source).children = [] := by
  refine Node.pick_eq_nil fun node hnode => ?_
  obtain ⟨block, -, rfl⟩ := List.mem_map.1 hnode
  exact pick_block hp block

end Markup
end Pick
end DocTree
