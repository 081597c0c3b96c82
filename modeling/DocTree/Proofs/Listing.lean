/-
# Looking things up in a listing

A listing is a list of entries whose names are distinct, so looking a name up and finding
its entry in the list are the same thing (`Listing.get?_eq_some_iff`).
-/

import DocTree.Listing

namespace DocTree

/-- A new name is put at the end. -/
theorem insertEntry_of_not_mem {α : Type} {name : String} {value : α}
    {entries : List (String × α)} (h : name ∉ entries.map Prod.fst) :
    insertEntry name value entries = entries ++ [(name, value)] := by
  induction entries with
  | nil => rfl
  | cons entry entries ih =>
    rw [List.map_cons, List.mem_cons, not_or] at h
    rw [insertEntry, if_neg (Ne.symm h.1), ih h.2, List.cons_append]

theorem lookup_cons_eq {α : Type} (entry : String × α) (entries : List (String × α))
    (name : String) :
    (entry :: entries).lookup name =
      if name = entry.1 then some entry.2 else entries.lookup name := by
  by_cases h : name = entry.1
  · rw [List.lookup_cons, beq_iff_eq.2 h, if_pos h]
  · rw [List.lookup_cons, beq_eq_false_iff_ne.2 h, if_neg h]

/-- A name is put at the end unless it is there. -/
theorem map_fst_insertEntry {α : Type} (name : String) (value : α)
    (entries : List (String × α)) :
    (insertEntry name value entries).map Prod.fst =
      if name ∈ entries.map Prod.fst then entries.map Prod.fst
      else entries.map Prod.fst ++ [name] := by
  induction entries with
  | nil => rfl
  | cons entry entries ih =>
    rw [insertEntry]
    by_cases h : entry.1 = name
    · simp [h]
    · rw [if_neg h, List.map_cons, ih, List.map_cons]
      simp only [List.mem_cons, Ne.symm h, false_or]
      split <;> rfl

/-- A name stands for what is put under it, and every other for what it stood for. -/
theorem lookup_insertEntry {α : Type} (name other : String) (value : α)
    (entries : List (String × α)) :
    (insertEntry name value entries).lookup other =
      if other = name then some value else entries.lookup other := by
  induction entries with
  | nil => rw [insertEntry, lookup_cons_eq]
  | cons entry entries ih =>
    rw [insertEntry]
    by_cases h : entry.1 = name
    · by_cases hother : other = name <;> simp [lookup_cons_eq, h, hother]
    · rw [if_neg h, lookup_cons_eq, lookup_cons_eq, ih]
      by_cases hother : other = entry.1
      · simp [hother, h]
      · simp [hother]

namespace Listing

variable {α : Type}

theorem names_insert (listing : Listing α) (name : String) (value : α) :
    (listing.insert name value).names =
      if name ∈ listing.names then listing.names else listing.names ++ [name] :=
  map_fst_insertEntry name value listing.entries

theorem get?_insert (listing : Listing α) (name other : String) (value : α) :
    (listing.insert name value).get? other =
      if other = name then some value else listing.get? other :=
  lookup_insertEntry name other value listing.entries

theorem eq_of_entries {listing other : Listing α} (h : listing.entries = other.entries) :
    listing = other := by
  cases listing
  cases other
  simp_all

/-- **A name stands for what its entry says.**  Distinct names make the first entry of a
name the only one. -/
theorem get?_eq_some_iff {listing : Listing α} {name : String} {value : α} :
    listing.get? name = some value ↔ (name, value) ∈ listing.entries := by
  rw [get?, List.lookup_eq_some_iff]
  constructor
  · rintro ⟨before, after, h, -⟩
    rw [h]
    exact List.mem_append_right _ (List.mem_cons_self ..)
  · intro hmem
    obtain ⟨before, after, h⟩ := List.append_of_mem hmem
    refine ⟨before, after, h, fun entry hentry => ?_⟩
    have hnodup := listing.nodup
    rw [h, List.map_append, List.nodup_append] at hnodup
    have hne := hnodup.2.2 entry.1 (List.mem_map_of_mem hentry) name (by simp)
    simpa using Ne.symm hne

theorem mem_names_iff {listing : Listing α} {name : String} :
    name ∈ listing.names ↔ ∃ value, (name, value) ∈ listing.entries := by
  simp [names]

theorem get?_eq_none_iff {listing : Listing α} {name : String} :
    listing.get? name = none ↔ name ∉ listing.names := by
  simp only [Option.eq_none_iff_forall_ne_some, ne_eq, get?_eq_some_iff, mem_names_iff, not_exists]

/-- A name stands for one thing at most. -/
theorem eq_of_mem_entries {listing : Listing α} {name : String} {value other : α}
    (h : (name, value) ∈ listing.entries) (hother : (name, other) ∈ listing.entries) :
    value = other :=
  Option.some.inj ((get?_eq_some_iff.2 h).symm.trans (get?_eq_some_iff.2 hother))

/-- The entries that stand before a name. -/
def before (listing : Listing α) (name : String) : List (String × α) :=
  listing.entries.takeWhile fun entry => entry.1 ≠ name

/-- What stands before a name, then its entry, then the rest. -/
theorem exists_entries_eq {listing : Listing α} {name : String} {value : α}
    (h : (name, value) ∈ listing.entries) :
    ∃ after, listing.entries = listing.before name ++ (name, value) :: after := by
  obtain ⟨front, after, hentries, hne⟩ := List.lookup_eq_some_iff.1 (get?_eq_some_iff.2 h)
  have hfront : ∀ entry ∈ front, decide (entry.1 ≠ name) = true := by
    intro entry hentry
    have hname : name ≠ entry.1 := bne_iff_ne.1 (hne entry hentry)
    exact decide_eq_true (Ne.symm hname)
  refine ⟨after, ?_⟩
  rw [before, hentries, List.takeWhile_append_of_pos hfront]
  simp

end Listing
end DocTree
