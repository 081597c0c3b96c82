/-
# Values as drafts

The draft of a value (`Json.draft`) is what a text of the value holds when it is complete.
Such a draft can always be skipped (`Draft.skip_draft`), and it can be kept, giving the
value back, if its numbers are in range and there is room for its nesting
(`Draft.keep_draft`).
-/

import DocTree.Json.Draft

namespace DocTree
namespace Json

/-- Reading goes on only from what is read without a fault. -/
theorem bind_eq_ok_iff {α β : Type} {x : Except Fault α} {next : α → Except Fault β} {result : β} :
    x >>= next = .ok result ↔ ∃ value, x = .ok value ∧ next value = .ok result := by
  cases x <;> simp [bind, Except.bind]

/-- What a page is read as is what its value is read as, if nothing follows that. -/
theorem Page.decode_eq_ok_iff {α : Type} {page : Page} {decoder : Draft → Except Fault α}
    {result : α} :
    page.decode decoder = .ok result ↔ decoder page.value = .ok result ∧ page.surplus = false := by
  rw [Page.decode]
  cases decoder page.value <;> cases page.surplus <;> simp [bind, Except.bind]

/-- A page that ends with its value is read as the value is. -/
theorem Page.decode_value {α : Type} (value : Draft) (decoder : Draft → Except Fault α) :
    Page.decode { value } decoder = decoder value := by
  rw [Page.decode]
  cases decoder value <;> rfl

mutual

/-- A value as a draft in which nothing is missing. -/
def draft : Json → Draft
  | null => .null
  | bool value => .bool value
  | number value => .number value
  | string value => .string (some value)
  | array items => .array (draftItems items) none
  | object members => .object (draftMembers members) none

/-- The items of an array as drafts. -/
def draftItems : List Json → List Draft
  | [] => []
  | item :: items => item.draft :: draftItems items

/-- The members of an object as drafts. -/
def draftMembers : List (String × Json) → List (StringText × Draft)
  | [] => []
  | (key, value) :: members => (some key, value.draft) :: draftMembers members

end

mutual

/-- The numbers in a value, in order. -/
def numbers : Json → List Numeral
  | number value => [value]
  | array items => numbersOfItems items
  | object members => numbersOfMembers members
  | _ => []

/-- The numbers in the items of an array. -/
def numbersOfItems : List Json → List Numeral
  | [] => []
  | item :: items => item.numbers ++ numbersOfItems items

/-- The numbers in the members of an object. -/
def numbersOfMembers : List (String × Json) → List Numeral
  | [] => []
  | (_, value) :: members => value.numbers ++ numbersOfMembers members

end

mutual

/-- The greatest number of arrays and objects inside of which a scalar of a value can be,
the value itself included. -/
def nesting : Json → Nat
  | array items => nestingOfItems items + 1
  | object members => nestingOfMembers members + 1
  | _ => 0

/-- The greatest nesting of an item. -/
def nestingOfItems : List Json → Nat
  | [] => 0
  | item :: items => max item.nesting (nestingOfItems items)

/-- The greatest nesting of the value of a member. -/
def nestingOfMembers : List (String × Json) → Nat
  | [] => 0
  | (_, value) :: members => max value.nesting (nestingOfMembers members)

end

/-- Whether every number of a value has a finite value in double precision. -/
def InRange (value : Json) : Prop :=
  ∀ n ∈ value.numbers, n.inRange = true

instance (value : Json) : Decidable value.InRange :=
  inferInstanceAs (Decidable (∀ n ∈ _, _))

namespace Draft

mutual

/-- **A complete value can be skipped,** however deep it is. -/
theorem skip_draft : ∀ value : Json, value.draft.skip = .ok ()
  | .null | .bool _ | .number _ | .string _ => by simp [Json.draft, skip]
  | .array items => by
    rw [Json.draft, skip, skipItems_draft items]
    rfl
  | .object members => by
    rw [Json.draft, skip, skipMembers_draft members]
    rfl

theorem skipItems_draft : ∀ items : List Json, skipItems (draftItems items) = .ok ()
  | [] => rfl
  | item :: items => by
    rw [draftItems, skipItems, skip_draft item]
    exact skipItems_draft items

theorem skipMembers_draft :
    ∀ members : List (String × Json), skipMembers (draftMembers members) = .ok ()
  | [] => rfl
  | (_, value) :: members => by
    rw [draftMembers, skipMembers, skip_draft value]
    exact skipMembers_draft members

end

mutual

/-- **A complete value is kept as it is,** if its numbers are in range and there is room. -/
theorem keep_draft : ∀ (value : Json) (depth : Nat), (∀ n ∈ value.numbers, n.inRange = true) →
    value.nesting ≤ depth → value.draft.keep depth = .ok value
  | .null, _, _, _ | .bool _, _, _, _ => by simp [Json.draft, keep]
  | .number value, depth, hn, _ => by
    rw [Json.draft, keep, if_pos (hn value (List.mem_singleton_self _))]
  | .string _, _, _, _ => rfl
  | .array items, 0, _, hd => by
    rw [nesting] at hd
    omega
  | .array items, depth + 1, hn, hd => by
    rw [nesting] at hd
    rw [Json.draft, keep, keepItems_draft items depth hn (by omega)]
    rfl
  | .object members, 0, _, hd => by
    rw [nesting] at hd
    omega
  | .object members, depth + 1, hn, hd => by
    rw [nesting] at hd
    rw [Json.draft, keep, keepMembers_draft members depth hn (by omega)]
    rfl

theorem keepItems_draft : ∀ (items : List Json) (depth : Nat),
    (∀ n ∈ numbersOfItems items, n.inRange = true) → nestingOfItems items ≤ depth →
      keepItems depth (draftItems items) = .ok items
  | [], _, _, _ => rfl
  | item :: items, depth, hn, hd => by
    rw [nestingOfItems] at hd
    rw [numbersOfItems] at hn
    have hitem := keep_draft item depth (fun n h => hn n (List.mem_append_left _ h)) (by omega)
    have hitems := keepItems_draft items depth (fun n h => hn n (List.mem_append_right _ h))
      (by omega)
    rw [draftItems, keepItems, hitem, hitems]
    rfl

theorem keepMembers_draft : ∀ (members : List (String × Json)) (depth : Nat),
    (∀ n ∈ numbersOfMembers members, n.inRange = true) → nestingOfMembers members ≤ depth →
      keepMembers depth (draftMembers members) = .ok members
  | [], _, _, _ => rfl
  | (key, value) :: members, depth, hn, hd => by
    rw [nestingOfMembers] at hd
    rw [numbersOfMembers] at hn
    have hvalue := keep_draft value depth (fun n h => hn n (List.mem_append_left _ h)) (by omega)
    have hmembers := keepMembers_draft members depth
      (fun n h => hn n (List.mem_append_right _ h)) (by omega)
    rw [draftMembers, keepMembers, hvalue, hmembers]
    rfl

end

end Draft

/-- Values whose numbers are in range can be told apart by their drafts. -/
theorem eq_of_draft_eq {value other : Json} (h : value.InRange) (h' : other.InRange)
    (hdraft : value.draft = other.draft) : value = other := by
  have hvalue := Draft.keep_draft value (max value.nesting other.nesting) h (Nat.le_max_left ..)
  have hother := Draft.keep_draft other (max value.nesting other.nesting) h' (Nat.le_max_right ..)
  rw [hdraft, hother] at hvalue
  exact (Except.ok.inj hvalue).symm

end Json
end DocTree
