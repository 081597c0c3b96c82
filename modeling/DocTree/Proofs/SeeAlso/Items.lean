/-
# References as items of names and lines

Documentation tools write the references of a docstring as items, each of them a list of names
with their roles and a list of lines (`SeeAlso.Item.toJson`).  A pair of strings is a name and its
role in the one list and two lines in the other; which it is follows from its level alone, and
whatever numbers of items, names and lines there are, the names come to references and the lines
to remarks (`SeeAlso.entries_items`).
-/

import DocTree.SeeAlso

namespace DocTree
namespace SeeAlso

/-- Names that are referred to together, each with its role if it has one, and the lines that
describe them. -/
structure Item where
  /-- The names with their roles. -/
  names : List (String × Option String)
  /-- The lines of the description. -/
  lines : List String

namespace Item

/-- The role of a name, for which null stands if there is none. -/
def roleToJson : Option String → Json
  | none => .null
  | some role => .string role

/-- A name and its role as a pair. -/
def nameToJson (name : String × Option String) : Json :=
  .array [.string name.1, roleToJson name.2]

/-- An item as the list of its names and the list of its lines. -/
def toJson (item : Item) : Json :=
  .array [.array (item.names.map nameToJson), .array (item.lines.map .string)]

/-- The entries that an item stands for: a reference for each name and a remark for each line,
less the empty ones. -/
def entries (item : Item) : List Entry :=
  (item.names.map Prod.fst |>.filter (· ≠ "") |>.map fun name =>
      .reference name (name.toList.contains '.')) ++
    (item.lines.filter (· ≠ "")).map .text

theorem reference_mem_entries {item : Item} {name : String} {qualified : Bool} :
    .reference name qualified ∈ item.entries ↔
      (∃ role?, (name, role?) ∈ item.names) ∧ name ≠ "" ∧
        qualified = name.toList.contains '.' := by
  simp only [entries, List.mem_append, List.mem_map, List.mem_filter]
  constructor
  · rintro (⟨_, ⟨⟨⟨name, role?⟩, hmem, rfl⟩, hname⟩, ⟨⟩⟩ | ⟨_, _, ⟨⟩⟩)
    exact ⟨⟨role?, hmem⟩, of_decide_eq_true hname, rfl⟩
  · rintro ⟨⟨role?, hmem⟩, hname, rfl⟩
    exact .inl ⟨name, ⟨⟨_, hmem, rfl⟩, decide_eq_true hname⟩, rfl⟩

theorem text_mem_entries {item : Item} {line : String} :
    .text line ∈ item.entries ↔ line ∈ item.lines ∧ line ≠ "" := by
  simp [entries]

end Item

/-! ### Lists -/

theorem entriesOfItems_eq_flatMap (level : Nat) (items : List Json) :
    entriesOfItems level items = items.flatMap (entriesAt level) := by
  induction items with
  | nil => rfl
  | cons item items ih => rw [entriesOfItems, ih, List.flatMap_cons]

/-- A list that is no pair gives the entries of its items, one level down. -/
theorem entriesAt_array {level : Nat} {items : List Json} (h : pairName? level items = none) :
    entriesAt level (.array items) = items.flatMap (entriesAt (level + 1)) := by
  rw [entriesAt, h, ← entriesOfItems_eq_flatMap]

/-- A list of lists is no pair. -/
theorem pairName?_map_array {α : Type} (level : Nat) (f : α → List Json) (xs : List α) :
    pairName? level (xs.map fun x => .array (f x)) = none := by
  rcases xs with _ | ⟨x, _ | ⟨y, _ | ⟨z, xs⟩⟩⟩ <;> rfl

/-- Above the level of names a list of strings is no pair, not even one of two. -/
theorem pairName?_map_string {level : Nat} (h : level < nameLevel) (lines : List String) :
    pairName? level (lines.map .string) = none := by
  rcases lines with _ | ⟨first, _ | ⟨second, _ | ⟨third, lines⟩⟩⟩
  · rfl
  · rfl
  · exact if_neg (Nat.not_le.2 h)
  · rfl

/-- What gives an entry for each text, and none for an empty one. -/
theorem flatMap_nonempty (entry : String → Entry) (texts : List String) :
    (texts.flatMap fun text => if text = "" then [] else [entry text]) =
      (texts.filter (· ≠ "")).map entry := by
  induction texts with
  | nil => rfl
  | cons text texts ih =>
    rw [List.flatMap_cons, ih]
    by_cases h : text = "" <;> simp [h]

/-! ### Items -/

/-- From the level of names on, a name is a reference whatever its role. -/
theorem entriesAt_nameToJson {level : Nat} (h : nameLevel ≤ level) (name : String × Option String) :
    entriesAt level (Item.nameToJson name) =
      if name.1 = "" then [] else [Entry.ofName name.1] := by
  obtain ⟨name, role?⟩ := name
  have hpair : pairName? level [.string name, Item.roleToJson role?] = some name := by
    cases role? with
    | none => rfl
    | some role => exact if_pos h
  rw [Item.nameToJson, entriesAt, hpair]

theorem entriesAt_names (names : List (String × Option String)) :
    entriesAt 2 (.array (names.map Item.nameToJson)) =
      ((names.map Prod.fst).filter (· ≠ "")).map Entry.ofName := by
  have hpair : pairName? 2 (names.map Item.nameToJson) = none := pairName?_map_array 2 _ names
  rw [entriesAt_array hpair, ← flatMap_nonempty, List.flatMap_map, List.flatMap_map]
  simp only [entriesAt_nameToJson (show nameLevel ≤ 2 + 1 from Nat.le_refl 3)]

theorem entriesAt_lines (lines : List String) :
    entriesAt 2 (.array (lines.map .string)) = (lines.filter (· ≠ "")).map .text := by
  rw [entriesAt_array (pairName?_map_string (by decide) lines), ← flatMap_nonempty,
    List.flatMap_map]
  simp only [entriesAt]

/-- An item comes to its entries. -/
theorem entriesAt_item (item : Item) : entriesAt 1 item.toJson = item.entries := by
  have hpair : pairName? 1 [.array (item.names.map Item.nameToJson),
      .array (item.lines.map .string)] = none := rfl
  rw [Item.toJson, entriesAt_array hpair, List.flatMap_cons, List.flatMap_singleton,
    entriesAt_names, entriesAt_lines]
  rfl

/-- **Items are read as what they stand for:** item by item, a reference for each name that is not
empty, whatever its role, and then a remark for each line that is not empty.  So what is referred
to are the names and nothing else, and what is remarked are the lines and nothing else; two lines
are no name, and a name with a role is no remark. -/
theorem entries_items (items : List Item) :
    entries (.array (items.map Item.toJson)) = items.flatMap Item.entries ∧
      (∀ name qualified, .reference name qualified ∈ entries (.array (items.map Item.toJson)) ↔
        (∃ item ∈ items, ∃ role?, (name, role?) ∈ item.names) ∧ name ≠ "" ∧
          qualified = name.toList.contains '.') ∧
      ∀ line, .text line ∈ entries (.array (items.map Item.toJson)) ↔
        (∃ item ∈ items, line ∈ item.lines) ∧ line ≠ "" := by
  have hpair : pairName? 0 (items.map Item.toJson) = none := pairName?_map_array 0 _ items
  have hentries : entries (.array (items.map Item.toJson)) = items.flatMap Item.entries := by
    rw [entries, entriesAt_array hpair, List.flatMap_map]
    exact congrArg items.flatMap (funext entriesAt_item)
  refine ⟨hentries, fun name qualified => ?_, fun line => ?_⟩
  · rw [hentries, List.mem_flatMap]
    simp only [Item.reference_mem_entries]
    exact ⟨fun ⟨item, hitem, hname, hrest⟩ => ⟨⟨item, hitem, hname⟩, hrest⟩,
      fun ⟨⟨item, hitem, hname⟩, hrest⟩ => ⟨item, hitem, hname, hrest⟩⟩
  · rw [hentries, List.mem_flatMap]
    simp only [Item.text_mem_entries]
    exact ⟨fun ⟨item, hitem, hline, hne⟩ => ⟨⟨item, hitem, hline⟩, hne⟩,
      fun ⟨⟨item, hitem, hline⟩, hne⟩ => ⟨item, hitem, hline, hne⟩⟩

/-- One name and a description of two lines: the pair in the one list is a name with its role, and
the pair in the other is no name. -/
example :
    let item : Item := { names := [("scipy.ndimage", some "mod")], lines := ["Slower", "Finer"] }
    entries (.array [item.toJson]) =
      [.reference "scipy.ndimage" true, .text "Slower", .text "Finer"] := by
  decide

end SeeAlso
end DocTree
