/-
# White space in the text of a value

The two layouts of a value differ only in their white space.  `Json.spacedText` has any
white space where a layout may have some, and is either of the two for the white space of
that layout (`spacedText_none`, `spacedText_lines`), so what holds of it holds of both.
-/

import DocTree.Json.Reader
import DocTree.Json.Text

namespace DocTree
namespace Json

/-- The white space that a layout puts between tokens. -/
structure Spacing where
  /-- What precedes an item, a member or a closing bracket at an indentation level. -/
  line : Nat → List Char
  /-- What follows the colon after a key. -/
  colon : List Char
  /-- All of it is white space. -/
  line_isSpace (level : Nat) : ∀ c ∈ line level, isSpace c = true
  colon_isSpace : ∀ c ∈ colon, isSpace c = true

namespace Spacing

/-- No white space. -/
def none : Spacing where
  line _ := []
  colon := []
  line_isSpace _ := List.forall_mem_nil _
  colon_isSpace := List.forall_mem_nil _

/-- A line for each item and member, and a blank after a colon. -/
def lines : Spacing where
  line := newLine
  colon := [' ']
  line_isSpace level c hc := by
    rcases List.mem_cons.1 hc with rfl | hc
    · decide
    · rw [List.eq_of_mem_replicate hc]
      decide
  colon_isSpace := List.forall_mem_singleton.2 rfl

end Spacing

mutual

/-- The characters of a value that stands at an indentation level, with some white space. -/
def spacedText (gaps : Spacing) (level : Nat) : Json → List Char
  | array (item :: items) =>
    '[' :: (gaps.line (level + 1) ++ (item.spacedText gaps (level + 1) ++
      (spacedItems gaps (level + 1) items ++ (gaps.line level ++ [']']))))
  | object ((key, value) :: members) =>
    '\x7b' :: (gaps.line (level + 1) ++ (quote key ++ ':' :: (gaps.colon ++
      (value.spacedText gaps (level + 1) ++
        (spacedMembers gaps (level + 1) members ++ (gaps.line level ++ ['\x7d']))))))
  | value => value.compactText

/-- The items of an array after the first. -/
def spacedItems (gaps : Spacing) (level : Nat) : List Json → List Char
  | [] => []
  | item :: items =>
    ',' :: (gaps.line level ++ (item.spacedText gaps level ++ spacedItems gaps level items))

/-- The members of an object after the first. -/
def spacedMembers (gaps : Spacing) (level : Nat) : List (String × Json) → List Char
  | [] => []
  | (key, value) :: members =>
    ',' :: (gaps.line level ++ (quote key ++ ':' :: (gaps.colon ++
      (value.spacedText gaps level ++ spacedMembers gaps level members))))

end

/-! ### The two layouts -/

mutual

/-- **On one line there is no white space.** -/
theorem spacedText_none : ∀ (value : Json) (level : Nat),
    value.spacedText .none level = value.compactText
  | .null, _ | .bool _, _ | .number _, _ | .string _, _ | .array [], _ | .object [], _ => rfl
  | .array (item :: items), level => by
    rw [spacedText, compactText, compactItems_eq_append items item (level + 1),
      spacedText_none item]
    simp [Spacing.none]
  | .object ((key, value) :: members), level => by
    rw [spacedText, compactText, compactMembers_eq_append members key value (level + 1),
      spacedText_none value]
    simp [Spacing.none]

theorem compactItems_eq_append : ∀ (items : List Json) (item : Json) (level : Nat),
    compactItems (item :: items) = item.compactText ++ spacedItems .none level items
  | [], item, level => (List.append_nil _).symm
  | next :: items, item, level => by
    have hnext : compactItems (item :: next :: items) =
        item.compactText ++ ',' :: compactItems (next :: items) := rfl
    rw [hnext, compactItems_eq_append items next level, spacedItems, spacedText_none next]
    rfl

theorem compactMembers_eq_append : ∀ (members : List (String × Json)) (key : String)
    (value : Json) (level : Nat), compactMembers ((key, value) :: members) =
      quote key ++ ':' :: (value.compactText ++ spacedMembers .none level members)
  | [], key, value, level => by
    rw [spacedMembers, List.append_nil]
    rfl
  | (next, value') :: members, key, value, level => by
    have hnext : compactMembers ((key, value) :: (next, value') :: members) =
        quote key ++ ':' :: value.compactText ++
          ',' :: compactMembers ((next, value') :: members) := rfl
    rw [hnext, compactMembers_eq_append members next value' level, spacedMembers,
      spacedText_none value', List.append_assoc]
    rfl

end

mutual

/-- **With one item or member to a line, the white space is that before each line.** -/
theorem spacedText_lines : ∀ (value : Json) (level : Nat),
    value.spacedText .lines level = value.prettyText level
  | .null, _ | .bool _, _ | .number _, _ | .string _, _ | .array [], _ | .object [], _ => rfl
  | .array (item :: items), level => by
    rw [spacedText, prettyText, spacedText_lines item, spacedItems_lines items]
    simp [Spacing.lines]
  | .object ((key, value) :: members), level => by
    rw [spacedText, prettyText, spacedText_lines value, spacedMembers_lines members]
    simp [Spacing.lines]

theorem spacedItems_lines : ∀ (items : List Json) (level : Nat),
    spacedItems .lines level items = prettyItems level items
  | [], _ => rfl
  | item :: items, level => by
    rw [spacedItems, prettyItems, spacedText_lines item, spacedItems_lines items]
    simp [Spacing.lines]

theorem spacedMembers_lines : ∀ (members : List (String × Json)) (level : Nat),
    spacedMembers .lines level members = prettyMembers level members
  | [], _ => rfl
  | (key, value) :: members, level => by
    rw [spacedMembers, prettyMembers, spacedText_lines value, spacedMembers_lines members]
    simp [Spacing.lines]

end

end Json
end DocTree
