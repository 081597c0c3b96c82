/-
# Document trees as JSON

A node is an object that begins with its type and goes on with its fields, the
children last.  A document is an object of type `root`.  What is written this way can be
read again (`Node.ofJson?`).

Source: the writing that `node.Node` and `node.Root` declare for their fields.
-/

import DocTree.Json.Text
import DocTree.Node

namespace DocTree
namespace Node

/-- An object of a type with some fields. -/
def object (type : String) (fields : List (String × Json)) : Json :=
  .object (("type", .string type) :: fields)

mutual

/-- The value that stands for a node. -/
def toJson : Node → Json
  | text value => object "text" [("value", .string value)]
  | emphasis children => object "emphasis" [("children", .array (listToJson children))]
  | inlineCode value => object "inlineCode" [("value", .string value)]
  | link url children =>
    object "link" [("url", .string url), ("children", .array (listToJson children))]
  | heading depth children =>
    object "heading"
      [("depth", .natural depth.toNat), ("children", .array (listToJson children))]
  | paragraph children => object "paragraph" [("children", .array (listToJson children))]
  | definitionList children =>
    object "definitionList" [("children", .array (listToJson children))]
  | definitionTerm children =>
    object "definitionTerm" [("children", .array (listToJson children))]
  | definitionDescription children =>
    object "definitionDescription" [("children", .array (listToJson children))]
  | code lang value => object "code" [("lang", .string lang), ("value", .string value)]
  | admonition kind children =>
    object "admonition" [("kind", .string kind), ("children", .array (listToJson children))]
  | target label => object "mystTarget" [("label", .string label)]

/-- The values that stand for some nodes. -/
def listToJson : List Node → List Json
  | [] => []
  | node :: nodes => node.toJson :: listToJson nodes

end

/-- The node of a type whose only field holds children. -/
def parent? (type : String) (children : List Node) : Option Node :=
  match type with
  | "emphasis" => some (emphasis children)
  | "paragraph" => some (paragraph children)
  | "definitionList" => some (definitionList children)
  | "definitionTerm" => some (definitionTerm children)
  | "definitionDescription" => some (definitionDescription children)
  | _ => none

mutual

/-- The node that a value stands for. -/
def ofJson? : Json → Option Node
  | .object [("type", .string type), ("children", .array items)] => do
    parent? type (← listOfJson? items)
  | .object [("type", .string "text"), ("value", .string value)] => some (text value)
  | .object [("type", .string "inlineCode"), ("value", .string value)] => some (inlineCode value)
  | .object [("type", .string "mystTarget"), ("label", .string label)] => some (target label)
  | .object [("type", .string "code"), ("lang", .string lang), ("value", .string value)] =>
    some (code lang value)
  | .object [("type", .string "link"), ("url", .string url), ("children", .array items)] => do
    return link url (← listOfJson? items)
  | .object [("type", .string "admonition"), ("kind", .string kind),
      ("children", .array items)] => do
    return admonition kind (← listOfJson? items)
  | .object [("type", .string "heading"), ("depth", .number depth),
      ("children", .array items)] => do
    return heading (.ofNat (← depth.toNat?)) (← listOfJson? items)
  | _ => none

/-- The nodes that some values stand for. -/
def listOfJson? : List Json → Option (List Node)
  | [] => some []
  | item :: items => do
    let node ← ofJson? item
    return node :: (← listOfJson? items)

end

end Node

/-- The value that stands for a document. -/
def Root.toJson (root : Root) : Json :=
  Node.object "root" [("children", .array (Node.listToJson root.children))]

/-- The document that a value stands for. -/
def Root.ofJson? : Json → Option Root
  | .object [("type", .string "root"), ("children", .array items)] =>
    (Node.listOfJson? items).map Root.mk
  | _ => none

end DocTree
