/-
# Listings

Named things in an order of their own.  A listing holds each name once; putting
something under a name that is there already replaces what the name stands for and
leaves it where it is.

Source: the maps in order of insertion that `model.Submodule` and `model.Record` are.
-/

namespace DocTree

/-- Replaces what a name stands for, or puts the name at the end. -/
def insertEntry {α : Type} (name : String) (value : α) : List (String × α) → List (String × α)
  | [] => [(name, value)]
  | entry :: entries =>
    if entry.1 = name then (name, value) :: entries else entry :: insertEntry name value entries

theorem mem_keys_insertEntry {α : Type} {name key : String} {value : α} :
    ∀ {entries : List (String × α)},
      key ∈ (insertEntry name value entries).map Prod.fst ↔
        key = name ∨ key ∈ entries.map Prod.fst
  | [] => by simp [insertEntry]
  | entry :: entries => by
    by_cases h : entry.1 = name
    · simp [insertEntry, h]
    · simp only [insertEntry, h, if_false, List.map_cons, List.mem_cons, mem_keys_insertEntry]
      grind

theorem nodup_insertEntry {α : Type} {name : String} {value : α} :
    ∀ {entries : List (String × α)}, (entries.map Prod.fst).Nodup →
      ((insertEntry name value entries).map Prod.fst).Nodup
  | [], _ => by simp [insertEntry]
  | entry :: entries, h => by
    rw [List.map_cons, List.nodup_cons] at h
    by_cases hn : entry.1 = name
    · rw [insertEntry, if_pos hn, List.map_cons, List.nodup_cons]
      exact ⟨hn ▸ h.1, h.2⟩
    · simp only [insertEntry, hn, if_false, List.map_cons, List.nodup_cons,
        mem_keys_insertEntry]
      exact ⟨by grind, nodup_insertEntry h.2⟩

/-- Things in order, each under a name of its own. -/
structure Listing (α : Type) where
  /-- The names with what they stand for. -/
  entries : List (String × α)
  /-- No name is listed twice. -/
  nodup : (entries.map Prod.fst).Nodup

namespace Listing

variable {α : Type}

/-- The listing of nothing. -/
def empty : Listing α :=
  ⟨[], List.nodup_nil⟩

instance : Inhabited (Listing α) := ⟨empty⟩

/-- The names, in order. -/
def names (listing : Listing α) : List String :=
  listing.entries.map Prod.fst

/-- What a name stands for. -/
def get? (listing : Listing α) (name : String) : Option α :=
  listing.entries.lookup name

/-- The listing with `name` standing for `value`. -/
def insert (listing : Listing α) (name : String) (value : α) : Listing α :=
  ⟨insertEntry name value listing.entries, nodup_insertEntry listing.nodup⟩

end Listing
end DocTree
