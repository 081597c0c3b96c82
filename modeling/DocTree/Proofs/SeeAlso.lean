/-
# The section of references

Whether a value has a section of references is decided on the texts that are rendered,
and yet says whether it has entries (`SeeAlso.render_of_ne_nil`): every entry has something
to show (`SeeAlso.shown_ne_empty`), so remarks put together are empty only if there are none.
-/

import DocTree.SeeAlso

namespace DocTree
namespace SeeAlso

/-- What is shown of an entry: the remark itself, or the name of the function. -/
def Entry.shown : Entry → String
  | .text remark => remark
  | .reference name _ => name

/-- Whether an entry could be one of a value: what is shown of it is not empty, and a name is
qualified if it has a dot. -/
def Entry.IsProper : Entry → Prop
  | .text remark => remark ≠ ""
  | .reference name qualified => name ≠ "" ∧ qualified = name.toList.contains '.'

mutual

theorem isProper_of_mem_entriesAt {entry : Entry} (level : Nat) :
    ∀ value : Json, entry ∈ entriesAt level value → entry.IsProper
  | .string s, h => by
    rw [entriesAt] at h
    split at h
    · cases h
    · next hs =>
      obtain rfl := List.mem_singleton.1 h
      exact hs
  | .array items, h => by
    rw [entriesAt] at h
    split at h
    · split at h
      · cases h
      · next hname =>
        obtain rfl := List.mem_singleton.1 h
        exact ⟨hname, rfl⟩
    · exact isProper_of_mem_entriesOfItems (level + 1) items h
  | .null, h | .bool _, h | .number _, h | .object _, h => by simp [entriesAt] at h

theorem isProper_of_mem_entriesOfItems {entry : Entry} (level : Nat) :
    ∀ items : List Json, entry ∈ entriesOfItems level items → entry.IsProper
  | [], h => by simp [entriesOfItems] at h
  | item :: items, h => by
    rw [entriesOfItems, List.mem_append] at h
    rcases h with h | h
    · exact isProper_of_mem_entriesAt level item h
    · exact isProper_of_mem_entriesOfItems level items h

end

theorem isProper_of_mem_entries {entry : Entry} {value : Json} (h : entry ∈ entries value) :
    entry.IsProper :=
  isProper_of_mem_entriesAt 0 value h

/-- **Every entry has something to show:** no remark is empty, and no name. -/
theorem shown_ne_empty {entry : Entry} {value : Json} (h : entry ∈ entries value) :
    entry.shown ≠ "" := by
  have hproper := isProper_of_mem_entries h
  cases entry with
  | text remark => exact hproper
  | reference name qualified => exact hproper.1

theorem intercalate_cons_ne_empty {separator first : String} (h : first ≠ "")
    (rest : List String) : separator.intercalate (first :: rest) ≠ "" := by
  cases rest with
  | nil => rwa [String.intercalate_singleton]
  | cons second rest =>
    rw [String.intercalate_cons_cons]
    simp [h]

/-- The remarks of a value put together are empty only if there are none. -/
theorem intercalate_texts_eq_empty_iff (value : Json) :
    " ".intercalate ((entries value).filterMap text?) = "" ↔
      (entries value).filterMap text? = [] := by
  constructor
  · intro h
    cases htexts : (entries value).filterMap text? with
    | nil => rfl
    | cons first rest =>
      have hmem : first ∈ (entries value).filterMap text? := htexts ▸ List.mem_cons_self ..
      obtain ⟨entry, hentry, htext⟩ := List.mem_filterMap.1 hmem
      cases entry with
      | text text =>
        obtain rfl : text = first := Option.some.inj htext
        rw [htexts] at h
        exact absurd h (intercalate_cons_ne_empty (shown_ne_empty hentry) rest)
      | reference name qualified => cases htext
  · intro h
    rw [h, String.intercalate_nil]

/-- Every entry is shown, as a link or as a remark. -/
theorem eq_nil_of_filterMap_eq_nil {ctx : Context} {all : List Entry}
    (hlinks : all.filterMap (link? ctx) = []) (htexts : all.filterMap text? = []) :
    all = [] := by
  cases all with
  | nil => rfl
  | cons entry all =>
    cases entry with
    | text text => simp [text?] at htexts
    | reference name qualified => simp [link?] at hlinks

theorem render_of_nil {value : Json} (h : entries value = []) (ctx : Context) :
    render value ctx = [] := by
  simp [render, h]

/-- **A value with an entry has a section:** a heading, a paragraph of the links unless
there are none, and one of the remarks unless there are none. -/
theorem render_of_ne_nil {value : Json} (h : entries value ≠ []) (ctx : Context) :
    render value ctx =
      .titled ctx.nested.depth "See Also" ::
        ((if (entries value).filterMap (link? ctx) = [] then []
          else [.paragraph (((entries value).filterMap (link? ctx)).intersperse (.text ", "))]) ++
        if (entries value).filterMap text? = [] then []
        else [.paragraph [.text (" ".intercalate ((entries value).filterMap text?))]]) := by
  have hshown : ¬((entries value).filterMap (link? ctx) = [] ∧
      (entries value).filterMap text? = []) :=
    fun hnone => h (eq_nil_of_filterMap_eq_nil hnone.1 hnone.2)
  simp only [render, List.isEmpty_iff, String.isEmpty_iff, Bool.and_eq_true,
    intercalate_texts_eq_empty_iff, hshown, if_false]

theorem mem_intersperse {α : Type} {x : α} (separator : α) :
    ∀ {l : List α}, x ∈ l → x ∈ l.intersperse separator
  | [_], h => h
  | y :: z :: l, h => by
    rw [List.intersperse_cons_cons]
    rcases List.mem_cons.1 h with rfl | h
    · exact List.mem_cons_self ..
    · exact List.mem_cons_of_mem _ (List.mem_cons_of_mem _ (mem_intersperse separator h))

theorem eq_or_mem_of_mem_intersperse {α : Type} {x separator : α} :
    ∀ {l : List α}, x ∈ l.intersperse separator → x = separator ∨ x ∈ l
  | [_], h => .inr h
  | y :: z :: l, h => by
    rw [List.intersperse_cons_cons, List.mem_cons, List.mem_cons] at h
    obtain rfl | rfl | h := h
    · exact .inr (List.mem_cons_self ..)
    · exact .inl rfl
    · exact (eq_or_mem_of_mem_intersperse h).imp_right (List.mem_cons_of_mem _)

end SeeAlso
end DocTree
