/-
# The strings that become entries

The strings that arrays lead to, in order (`Json.strings`), are those a value holds at some path
(`Json.mem_strings_iff`, `Json.pairwise_strings`).  Every one that is not empty is an entry, less
the roles in lists of names, and it is the name of a reference exactly where a pair says so
(`SeeAlso.entries_strings`).
-/

import DocTree.Proofs.SeeAlso
import Mathlib.Data.List.Pairwise

namespace DocTree

namespace Json

/-- What a value holds at a path, which tells the position in each array on the way.  No path
leads into an object. -/
def at? : Json → List Nat → Option Json
  | value, [] => some value
  | array items, i :: path => items[i]?.bind fun item => item.at? path
  | _, _ :: _ => none

mutual

/-- The strings that arrays lead to, each with its path, in the order of the text. -/
def strings : Json → List (List Nat × String)
  | string text => [([], text)]
  | array items => stringsOfItems 0 items
  | _ => []

/-- The strings of the items of an array from a position on. -/
def stringsOfItems (i : Nat) : List Json → List (List Nat × String)
  | [] => []
  | item :: items => item.strings.map (fun (path, text) => (i :: path, text)) ++
      stringsOfItems (i + 1) items

end

/-! ### The strings of a value are those at its paths -/

mutual

theorem mem_strings_iff : ∀ (value : Json) {path : List Nat} {text : String},
    (path, text) ∈ value.strings ↔ value.at? path = some (.string text)
  | .string s, path, text => by cases path <;> simp [strings, at?, eq_comm]
  | .array items, path, text => by
    rw [strings, mem_stringsOfItems_iff items]
    cases path with
    | nil => simp [at?]
    | cons i path =>
      simp only [at?, Option.bind_eq_some_iff, Nat.zero_add, List.cons.injEq]
      constructor
      · rintro ⟨_, _, item, ⟨rfl, rfl⟩, hitem, hread⟩
        exact ⟨item, hitem, hread⟩
      · rintro ⟨item, hitem, hread⟩
        exact ⟨i, path, item, ⟨rfl, rfl⟩, hitem, hread⟩
  | .null, path, text | .bool _, path, text | .number _, path, text | .object _, path, text => by
    cases path <;> simp [strings, at?]

theorem mem_stringsOfItems_iff : ∀ (items : List Json) {i : Nat} {path : List Nat} {text : String},
    (path, text) ∈ stringsOfItems i items ↔
      ∃ j rest item, path = (i + j) :: rest ∧ items[j]? = some item ∧
        item.at? rest = some (.string text)
  | [], i, path, text => by simp [stringsOfItems]
  | first :: items, i, path, text => by
    simp only [stringsOfItems, List.mem_append, List.mem_map, Prod.exists, Prod.mk.injEq,
      mem_strings_iff first, mem_stringsOfItems_iff items]
    constructor
    · rintro (⟨rest, _, hread, rfl, rfl⟩ | ⟨j, rest, item, rfl, hitem, hread⟩)
      · exact ⟨0, rest, first, rfl, rfl, hread⟩
      · exact ⟨j + 1, rest, item, by rw [Nat.add_assoc, Nat.add_comm 1 j], hitem, hread⟩
    · rintro ⟨j, rest, item, rfl, hitem, hread⟩
      cases j with
      | zero =>
        obtain rfl := Option.some.inj hitem
        exact .inl ⟨rest, text, hread, rfl, rfl⟩
      | succ j => exact .inr ⟨j, rest, item, by rw [Nat.add_assoc, Nat.add_comm 1 j], hitem, hread⟩

end

/-- The strings of items from a position on are at that position or after it. -/
theorem exists_of_mem_stringsOfItems {items : List Json} {i : Nat} {path : List Nat}
    (h : path ∈ (stringsOfItems i items).map Prod.fst) : ∃ j rest, path = j :: rest ∧ i ≤ j := by
  obtain ⟨⟨path, text⟩, hmem, rfl⟩ := List.mem_map.1 h
  obtain ⟨j, rest, -, rfl, -⟩ := (mem_stringsOfItems_iff items).1 hmem
  exact ⟨i + j, rest, rfl, Nat.le_add_right i j⟩

mutual

/-- **The strings of a value come in the order of their paths.** -/
theorem pairwise_strings : ∀ value : Json, (value.strings.map Prod.fst).Pairwise (· < ·)
  | .string _ => List.pairwise_singleton _ _
  | .array items => pairwise_stringsOfItems items 0
  | .null | .bool _ | .number _ | .object _ => List.Pairwise.nil

theorem pairwise_stringsOfItems : ∀ (items : List Json) (i : Nat),
    ((stringsOfItems i items).map Prod.fst).Pairwise (· < ·)
  | [], _ => List.Pairwise.nil
  | item :: items, i => by
    have hitem := pairwise_strings item
    have hitems := pairwise_stringsOfItems items (i + 1)
    rw [stringsOfItems, List.map_append, List.pairwise_append]
    refine ⟨?_, hitems, ?_⟩
    · rw [List.map_map, List.pairwise_map]
      exact (List.pairwise_map.1 hitem).imp fun h => List.cons_lt_cons_iff.2 (.inr ⟨rfl, h⟩)
    · intro path hpath path' hpath'
      obtain ⟨j, rest, rfl, hj⟩ := exists_of_mem_stringsOfItems hpath'
      simp only [List.map_map, List.mem_map, Function.comp_apply] at hpath
      obtain ⟨_, -, rfl⟩ := hpath
      exact List.cons_lt_cons_iff.2 (.inl hj)

end

end Json

namespace SeeAlso

/-! ### Which strings are entries, and what they are -/

/-- What a string is in the array that holds it. -/
inductive Standing where
  /-- The name of a pair. -/
  | name
  /-- The role of the name before it. -/
  | role
  /-- In no pair. -/
  | remark
  deriving Repr, DecidableEq, Inhabited

/-- The standing of the string at a path of a value at some level.  A string and null are a pair,
and so are two strings from the level of names on. -/
def standing (level : Nat) (value : Json) (path : List Nat) : Standing :=
  match path.getLast?, value.at? path.dropLast with
  | some 0, some (.array [.string _, .null]) => .name
  | some 0, some (.array [.string _, .string _]) =>
    if 3 ≤ level + path.dropLast.length then .name else .remark
  | some 1, some (.array [.string _, .string _]) =>
    if 3 ≤ level + path.dropLast.length then .role else .remark
  | _, _ => .remark

/-- Whether a string of a value comes to an entry: it is not empty, and no role. -/
def isShown (level : Nat) (value : Json) (place : List Nat × String) : Bool :=
  place.2 ≠ "" && standing level value place.1 ≠ .role

/-- The entry that a string of a value comes to. -/
def entryAt (level : Nat) (value : Json) (place : List Nat × String) : Entry :=
  if standing level value place.1 = .name then
    .reference place.2 (place.2.toList.contains '.')
  else .text place.2

theorem not_le_of_pairName?_eq_none {level : Nat} {name role : String}
    (h : pairName? level [.string name, .string role] = none) : ¬3 ≤ level := by
  intro hle
  rw [pairName?, nameLevel, if_pos hle] at h
  cases h

/-- In a list that is no pair, the standing of a string is what it is in the item that holds it. -/
theorem standing_cons {level i : Nat} {items : List Json} {item : Json}
    (hpair : pairName? level items = none) (hitem : items[i]? = some item) (path : List Nat) :
    standing level (.array items) (i :: path) = standing (level + 1) item path := by
  cases path with
  | nil =>
    show standing level (.array items) [i] = .remark
    unfold standing
    split
    · next hitems =>
      obtain rfl := Json.array.inj (Option.some.inj hitems)
      cases hpair
    · next hitems =>
      obtain rfl := Json.array.inj (Option.some.inj hitems)
      exact if_neg (not_le_of_pairName?_eq_none hpair)
    · next hitems =>
      obtain rfl := Json.array.inj (Option.some.inj hitems)
      exact if_neg (not_le_of_pairName?_eq_none hpair)
    · rfl
  | cons j path =>
    have hlevel : level + ((j :: path).dropLast.length + 1) =
        level + 1 + (j :: path).dropLast.length := by omega
    simp only [standing, List.getLast?_cons_cons, List.dropLast_cons_cons, Json.at?, hitem,
      Option.bind_some, List.length_cons, hlevel]

theorem pairName?_eq_some_cases {level : Nat} {items : List Json} {name : String}
    (h : pairName? level items = some name) :
    items = [.string name, .null] ∨
      3 ≤ level ∧ ∃ role, items = [.string name, .string role] := by
  unfold pairName? at h
  split at h
  · obtain rfl := Option.some.inj h
    exact .inl rfl
  · split at h
    · next hle =>
      obtain rfl := Option.some.inj h
      exact .inr ⟨hle, _, rfl⟩
    · cases h
  · cases h

/-- The name of a pair comes to a reference, unless it is empty. -/
theorem shown_of_name {level : Nat} {value : Json} {path : List Nat} {name : String}
    (h : standing level value path = .name) :
    ([(path, name)].filter (isShown level value)).map (entryAt level value) =
      if name = "" then [] else [Entry.ofName name] := by
  have hentry : entryAt level value (path, name) = Entry.ofName name := if_pos h
  by_cases hempty : name = ""
  · rw [if_pos hempty, List.filter_cons_of_neg (by simp [isShown, hempty])]
    rfl
  · rw [if_neg hempty, List.filter_cons_of_pos (by simp [isShown, h, hempty]), ← hentry]
    rfl

/-- The strings of a pair come to the reference alone. -/
theorem shown_of_pair {level : Nat} {items : List Json} {name : String}
    (h : pairName? level items = some name) :
    ((Json.array items).strings.filter (isShown level (.array items))).map
        (entryAt level (.array items)) =
      if name = "" then [] else [Entry.ofName name] := by
  obtain rfl | ⟨hle, role, rfl⟩ := pairName?_eq_some_cases h
  · exact @shown_of_name level _ [0] name rfl
  · have hname : standing level (.array [.string name, .string role]) [0] = .name := if_pos hle
    have hrole : standing level (.array [.string name, .string role]) [1] = .role := if_pos hle
    have hshown : ¬isShown level (.array [.string name, .string role]) ([1], role) = true := by
      simp [isShown, hrole]
    have hstrings : (Json.array [.string name, .string role]).strings =
        [([0], name)] ++ [([1], role)] := by
      simp [Json.strings, Json.stringsOfItems]
    rw [hstrings, List.filter_append, List.filter_cons_of_neg hshown, List.filter_nil,
      List.append_nil, shown_of_name hname]

mutual

/-- **The entries of a value at some level are its strings that are shown.** -/
theorem entriesAt_eq : ∀ (value : Json) (level : Nat),
    entriesAt level value =
      (value.strings.filter (isShown level value)).map (entryAt level value)
  | .string text, level => by
    have hstanding : standing level (.string text) [] = .remark := rfl
    by_cases hempty : text = "" <;>
      simp [entriesAt, Json.strings, isShown, entryAt, hstanding, hempty]
  | .array items, level => by
    rw [entriesAt]
    split
    · next name hpair => exact (shown_of_pair hpair).symm
    · next hpair =>
      refine entriesOfItems_eq (level + 1) items 0 fun j item hitem place => ?_
      simp only [isShown, entryAt, Nat.zero_add, standing_cons hpair hitem, and_self]
  | .null, _ | .bool _, _ | .number _, _ | .object _, _ => by simp [entriesAt, Json.strings]

theorem entriesOfItems_eq {shown : List Nat × String → Bool} {entry : List Nat × String → Entry}
    (level : Nat) : ∀ (items : List Json) (i : Nat),
    (∀ j item, items[j]? = some item → ∀ place : List Nat × String,
      shown ((i + j) :: place.1, place.2) = isShown level item place ∧
        entry ((i + j) :: place.1, place.2) = entryAt level item place) →
      entriesOfItems level items = ((Json.stringsOfItems i items).filter shown).map entry
  | [], _, _ => rfl
  | item :: items, i, h => by
    have hitem := h 0 item rfl
    have hitems := entriesOfItems_eq level items (i + 1) fun j next hnext => by
      rw [Nat.add_assoc, Nat.add_comm 1 j]
      exact h (j + 1) next hnext
    rw [entriesOfItems, entriesAt_eq item level, hitems, Json.stringsOfItems, List.filter_append,
      List.map_append, List.filter_map, List.map_map]
    congr 1
    have hshown : shown ∘ (fun (path, text) => (i :: path, text)) = isShown level item :=
      funext fun place => (hitem place).1
    have hentry : entry ∘ (fun (path, text) => (i :: path, text)) = entryAt level item :=
      funext fun place => (hitem place).2
    rw [hshown, hentry]

end

/-- **The entries of a value are its strings,** in order and each once, less the empty ones and the
roles in lists of names.  A string is a reference if it is the name of a pair, and a remark
otherwise; a reference is qualified if it has a dot. -/
theorem entries_strings (value : Json) :
    (value.strings.map Prod.fst).Pairwise (· < ·) ∧
      (∀ path text, (path, text) ∈ value.strings ↔ value.at? path = some (.string text)) ∧
      entries value = (value.strings.filter (isShown 0 value)).map (entryAt 0 value) :=
  ⟨Json.pairwise_strings value, fun _ _ => Json.mem_strings_iff value, entriesAt_eq value 0⟩

/-- Two strings are remarks above the level of names, and a name and its role there. -/
example : entries (.array [.array [.string "a", .string "b.c"],
      .array [.array [.array [.string "b.c", .string "a"]]]]) =
    [.text "a", .text "b.c", .reference "b.c" true] := by
  decide

end SeeAlso

end DocTree
