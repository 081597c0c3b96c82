/-
# Inline markup

The text of a paragraph as spans: plain text, references to functions, code between
single or double backticks, and emphasis between asterisks.  At each place the
constructs are tried in this order, and where none begins the text is plain.  None of
them nests: the content of a construct runs to the first character that could close
it.

Source: `markup.parse_inline` and `markup.RE_INLINE`.
-/

import DocTree.Node
import DocTree.Text.Blank

namespace DocTree
namespace Markup

/-- The character that code is written between. -/
def backtick : Char := '\x60'

/-- What a reference to a function begins with. -/
def referenceMark : List Char :=
  '\x7b' :: "func".toList ++ ['\x7d', backtick]

/-- A piece of a paragraph. -/
inductive Span where
  /-- Text as it stands, not empty. -/
  | plain (text : List Char)
  /-- A reference to a function by its full name. -/
  | reference (name : List Char)
  /-- Code, between two backticks on either side if `doubled`, else between one. -/
  | code (doubled : Bool) (text : List Char)
  /-- Emphasised text. -/
  | emphasis (text : List Char)
  deriving Repr, DecidableEq, Inhabited

namespace Span

/-- The span as it is written. -/
def spelling : Span → List Char
  | plain text => text
  | reference name => referenceMark ++ name ++ [backtick]
  | code false text => backtick :: text ++ [backtick]
  | code true text => backtick :: backtick :: text ++ [backtick, backtick]
  | emphasis text => '*' :: text ++ ['*']

/-- The node of a span. -/
def toNode : Span → Node
  | plain text => .text (String.ofList text)
  | reference name => .functionLink (String.ofList name)
  | code _ text => .inlineCode (String.ofList text)
  | emphasis text => .emphasis [.text (String.ofList text)]

end Span

/-- Text that begins with `opening`, then a content up to the first `mark`, then `closing`:
the content, which must not be empty, and what follows. -/
def enclosed? (opening : List Char) (mark : Char) (closing cs : List Char) :
    Option (List Char × List Char) :=
  if opening.isPrefixOf cs then
    let rest := cs.drop opening.length
    let content := rest.takeWhile (· ≠ mark)
    let after := rest.dropWhile (· ≠ mark)
    if !content.isEmpty && closing.isPrefixOf after then
      some (content, after.drop closing.length)
    else none
  else none

/-- The reference a text begins with, and what follows it. -/
def reference? (cs : List Char) : Option (Span × List Char) :=
  (enclosed? referenceMark backtick [backtick] cs).map fun (name, rest) => (.reference name, rest)

/-- The code between double or single backticks a text begins with, and what follows it. -/
def code? (doubled : Bool) (cs : List Char) : Option (Span × List Char) :=
  let fence := List.replicate (if doubled then 2 else 1) backtick
  (enclosed? fence backtick fence cs).map fun (text, rest) => (.code doubled text, rest)

/-- Whether a text may be emphasised: it neither begins nor ends with a blank. -/
def isTight (cs : List Char) : Bool :=
  (cs.head?.all fun c => !Text.isBlank c) && (cs.getLast?.all fun c => !Text.isBlank c)

/-- The emphasis a text begins with, and what follows it. -/
def emphasis? (cs : List Char) : Option (Span × List Char) :=
  match enclosed? ['*'] '*' ['*'] cs with
  | some (text, rest) => if isTight text then some (.emphasis text, rest) else none
  | none => none

/-- The construct a text begins with, and what follows it. -/
def construct? (cs : List Char) : Option (Span × List Char) :=
  (reference? cs).or ((code? true cs).or ((code? false cs).or (emphasis? cs)))

theorem length_of_enclosed? {opening closing cs content rest : List Char} {mark : Char}
    (h : enclosed? opening mark closing cs = some (content, rest)) :
    rest.length < cs.length := by
  unfold enclosed? at h
  split at h
  · next hp =>
    simp only at h
    split at h
    · next hc =>
      obtain ⟨rfl, rfl⟩ := Prod.mk.inj (Option.some.inj h)
      rw [Bool.and_eq_true, Bool.not_eq_true', List.isEmpty_eq_false_iff] at hc
      have hlen := congrArg List.length
        (List.takeWhile_append_dropWhile (p := (· ≠ mark)) (l := cs.drop opening.length))
      rw [List.length_append, List.length_drop] at hlen
      have := List.length_pos_iff.2 hc.1
      simp only [List.length_drop]
      omega
    · cases h
  · cases h

theorem length_of_emphasis? {cs rest : List Char} {span : Span}
    (h : emphasis? cs = some (span, rest)) : rest.length < cs.length := by
  unfold emphasis? at h
  split at h
  · next text rest' he =>
    split at h
    · obtain ⟨-, rfl⟩ := Prod.mk.inj (Option.some.inj h)
      exact length_of_enclosed? he
    · cases h
  · cases h

/-- **A construct takes something off the text.** -/
theorem length_of_construct? {cs rest : List Char} {span : Span}
    (h : construct? cs = some (span, rest)) : rest.length < cs.length := by
  have enclosed {opening closing : List Char} {mark : Char} {f : List Char → Span}
      (h : (enclosed? opening mark closing cs).map (fun (content, rest) => (f content, rest)) =
        some (span, rest)) : rest.length < cs.length := by
    obtain ⟨⟨content, rest'⟩, he, hr⟩ := Option.map_eq_some_iff.1 h
    obtain ⟨-, rfl⟩ := Prod.mk.inj hr
    exact length_of_enclosed? he
  simp only [construct?, Option.or_eq_some_iff] at h
  obtain h | ⟨-, h | ⟨-, h | ⟨-, h⟩⟩⟩ := h
  · exact enclosed h
  · exact enclosed h
  · exact enclosed h
  · exact length_of_emphasis? h

/-- The spans of a text after some plain text, whose characters are given newest first. -/
def spansFrom (plain : List Char) (cs : List Char) : List Span :=
  let flush := if plain.isEmpty then [] else [Span.plain plain.reverse]
  match _h : construct? cs with
  | some (span, rest) => flush ++ span :: spansFrom [] rest
  | none => match cs with
    | [] => flush
    | c :: cs => spansFrom (c :: plain) cs
termination_by cs.length
decreasing_by
  · exact length_of_construct? _h
  · exact Nat.lt_succ_self _

/-- The spans of the text of a paragraph. -/
def spans (cs : List Char) : List Span :=
  spansFrom [] cs

/-- The nodes of the text of a paragraph. -/
def inlineNodes (cs : List Char) : List Node :=
  (spans cs).map Span.toNode

end Markup
end DocTree
