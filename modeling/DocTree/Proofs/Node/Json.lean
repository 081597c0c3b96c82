/-
# Trees read back from JSON

The value that stands for a tree stands for no other (`Root.ofJson?_toJson`).  Its only
numbers are depths (`Root.numbers_toJson`), so nothing about it is out of the ordinary for a
reader of JSON.
-/

import DocTree.Node.Json
import DocTree.Proofs.Json.Draft
import DocTree.Proofs.Json.Numeral

namespace DocTree
namespace Node

theorem ofJson?_children (type : String) (items : List Json) :
    ofJson? (object type [("children", .array items)]) =
      (listOfJson? items).bind (parent? type) :=
  rfl

theorem ofJson?_link (url : String) (items : List Json) :
    ofJson? (object "link" [("url", .string url), ("children", .array items)]) =
      (listOfJson? items).bind fun children => some (link url children) :=
  rfl

theorem ofJson?_admonition (kind : String) (items : List Json) :
    ofJson? (object "admonition" [("kind", .string kind), ("children", .array items)]) =
      (listOfJson? items).bind fun children => some (admonition kind children) :=
  rfl

theorem ofJson?_heading (depth : Json.Numeral) (items : List Json) :
    ofJson? (object "heading" [("depth", .number depth), ("children", .array items)]) =
      depth.toNat?.bind fun n =>
        (listOfJson? items).bind fun children => some (heading (.ofNat n) children) :=
  rfl

mutual

/-- **A tree is read back** from the value that stands for it. -/
theorem ofJson?_toJson : ∀ node : Node, ofJson? node.toJson = some node
  | .text _ | .inlineCode _ | .code _ _ | .target _ => rfl
  | .emphasis children | .paragraph children | .definitionList children
  | .definitionTerm children | .definitionDescription children => by
    rw [toJson, ofJson?_children, listOfJson?_listToJson children]
    rfl
  | .link url children => by
    rw [toJson, ofJson?_link, listOfJson?_listToJson children]
    rfl
  | .admonition kind children => by
    rw [toJson, ofJson?_admonition, listOfJson?_listToJson children]
    rfl
  | .heading depth children => by
    rw [toJson, Json.natural, ofJson?_heading, Json.Numeral.toNat?_ofNat,
      listOfJson?_listToJson children, Option.bind_some, Option.bind_some, UInt64.ofNat_toNat]

theorem listOfJson?_listToJson : ∀ nodes : List Node, listOfJson? (listToJson nodes) = some nodes
  | [] => rfl
  | node :: nodes => by
    rw [listToJson, listOfJson?, ofJson?_toJson node, listOfJson?_listToJson nodes]
    rfl

end

mutual

/-- The numbers of a node are the depths of its headings. -/
theorem numbers_toJson : ∀ node : Node, ∀ n ∈ node.toJson.numbers,
    ∃ depth : UInt64, n = .ofNat depth.toNat
  | .text _, _, hn | .inlineCode _, _, hn | .code _ _, _, hn | .target _, _, hn => nomatch hn
  | .emphasis children, n, hn | .paragraph children, n, hn | .definitionList children, n, hn
  | .definitionTerm children, n, hn | .definitionDescription children, n, hn
  | .link _ children, n, hn | .admonition _ children, n, hn => by
    simp only [toJson, object, Json.numbers, Json.numbersOfMembers, List.nil_append,
      List.append_nil] at hn
    exact numbers_listToJson children n hn
  | .heading depth children, n, hn => by
    simp only [toJson, object, Json.natural, Json.numbers, Json.numbersOfMembers,
      List.nil_append, List.append_nil, List.singleton_append, List.mem_cons] at hn
    rcases hn with rfl | hn
    · exact ⟨depth, rfl⟩
    · exact numbers_listToJson children n hn

theorem numbers_listToJson : ∀ nodes : List Node, ∀ n ∈ Json.numbersOfItems (listToJson nodes),
    ∃ depth : UInt64, n = .ofNat depth.toNat
  | [], _, hn => nomatch hn
  | node :: nodes, n, hn => by
    rw [listToJson, Json.numbersOfItems, List.mem_append] at hn
    exact hn.elim (numbers_toJson node n) (numbers_listToJson nodes n)

end

end Node

namespace Root

theorem numbers_toJson (root : Root) {n : Json.Numeral} (h : n ∈ root.toJson.numbers) :
    ∃ depth : UInt64, n = .ofNat depth.toNat := by
  simp only [toJson, Node.object, Json.numbers, Json.numbersOfMembers, List.nil_append,
    List.append_nil] at h
  exact Node.numbers_listToJson root.children n h

theorem isGrammatical_toJson (root : Root) : ∀ n ∈ root.toJson.numbers, n.IsGrammatical := by
  intro n hn
  obtain ⟨depth, rfl⟩ := root.numbers_toJson hn
  exact Json.Numeral.isGrammatical_ofNat depth.toNat

theorem inRange_toJson (root : Root) : root.toJson.InRange := by
  intro n hn
  obtain ⟨depth, rfl⟩ := root.numbers_toJson hn
  exact Json.Numeral.inRange_ofNat depth.toNat_lt

/-- **A document is read back** from the value that stands for it. -/
theorem ofJson?_toJson (root : Root) : ofJson? root.toJson = some root := by
  show (Node.listOfJson? (Node.listToJson root.children)).map Root.mk = some root
  rw [Node.listOfJson?_listToJson]
  rfl

theorem eq_of_toJson_eq {root other : Root} (h : root.toJson = other.toJson) : root = other := by
  have hread := root.ofJson?_toJson
  rw [h, other.ofJson?_toJson] at hread
  exact (Option.some.inj hread).symm

end Root
end DocTree
