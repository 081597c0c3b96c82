/-
# The nodes of a tree

A tree as the list of its nodes at every level, in the order in which a reader meets
them (`Node.flat`), and those of them that pass a test (`Node.pick`).  Picking is taken
apart along the list, node by node, and then into the children of the node.
-/

import DocTree.Node

namespace DocTree
namespace Node

mutual

/-- The node and all nodes below it, in document order. -/
def flat : Node → List Node
  | text value => [text value]
  | emphasis children => emphasis children :: flatList children
  | inlineCode value => [inlineCode value]
  | link url children => link url children :: flatList children
  | heading depth children => heading depth children :: flatList children
  | paragraph children => paragraph children :: flatList children
  | definitionList children => definitionList children :: flatList children
  | definitionTerm children => definitionTerm children :: flatList children
  | definitionDescription children => definitionDescription children :: flatList children
  | code lang value => [code lang value]
  | admonition kind children => admonition kind children :: flatList children
  | target label => [target label]

/-- All nodes of some trees, in document order. -/
def flatList : List Node → List Node
  | [] => []
  | node :: nodes => node.flat ++ flatList nodes

end

theorem flat_eq (node : Node) : node.flat = node :: flatList node.children := by
  cases node <;> rfl

theorem flatList_append (ms ns : List Node) :
    flatList (ms ++ ns) = flatList ms ++ flatList ns := by
  induction ms with
  | nil => rfl
  | cons node ms ih => rw [List.cons_append, flatList, flatList, ih, List.append_assoc]

/-- The nodes at any level of some trees that pass a test, in document order. -/
def pick (p : Node → Bool) (nodes : List Node) : List Node :=
  (flatList nodes).filter p

variable {p : Node → Bool}

@[simp] theorem pick_nil : pick p [] = [] := rfl

@[simp] theorem pick_cons (node : Node) (nodes : List Node) :
    pick p (node :: nodes) =
      (if p node then [node] else []) ++ pick p node.children ++ pick p nodes := by
  simp only [pick, flatList, flat_eq, List.filter_append, List.filter_cons]
  split <;> rfl

@[simp] theorem pick_append (ms ns : List Node) :
    pick p (ms ++ ns) = pick p ms ++ pick p ns := by
  rw [pick, flatList_append, List.filter_append, pick, pick]

@[simp] theorem pick_flatMap {α : Type} (f : α → List Node) (xs : List α) :
    pick p (xs.flatMap f) = xs.flatMap fun x => pick p (f x) := by
  induction xs with
  | nil => rfl
  | cons x xs ih => rw [List.flatMap_cons, List.flatMap_cons, pick_append, ih]

/-- What is picked from the first tree comes first. -/
theorem pick_first (node : Node) (nodes : List Node) :
    pick p (node :: nodes) = pick p [node] ++ pick p nodes :=
  pick_append [node] nodes

/-- Nothing is picked from a separator where nothing is picked from it alone. -/
theorem pick_intersperse {separator : Node} (h : pick p [separator] = []) :
    ∀ nodes : List Node, pick p (nodes.intersperse separator) = pick p nodes
  | [] => rfl
  | [_] => rfl
  | node :: next :: nodes => by
    rw [List.intersperse_cons_cons, pick_first, pick_first separator, h, List.nil_append,
      pick_intersperse h (next :: nodes), ← pick_first]

/-- Nothing is picked from trees of which no node passes the test. -/
theorem pick_eq_nil {nodes : List Node} (h : ∀ node ∈ nodes, pick p [node] = []) :
    pick p nodes = [] := by
  induction nodes with
  | nil => rfl
  | cons node nodes ih =>
    rw [pick_first, h node (List.mem_cons_self ..),
      ih fun n hn => h n (List.mem_cons_of_mem _ hn), List.append_nil]

theorem pick_optional {α : Type} (f : α → List Node) (x : Option α) :
    pick p ((x.map f).getD []) = (x.map fun a => pick p (f a)).getD [] := by
  cases x <;> rfl

end Node
end DocTree
