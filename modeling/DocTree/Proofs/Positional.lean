/-
# Parts by position

A structure can be written as a list of its parts instead of an object of them, and is read in
the same way from either (`Layout.read_array_eq_read_object`): the value at a position is read as
the value of the member with the name of that part, and the parts that are left over are absent in
both.  There cannot be more items than parts, whatever they are (`Layout.read_array_surplus`).
-/

import DocTree.Proofs.Docstring
import DocTree.Proofs.Json.Draft
import DocTree.Proofs.Json.Lasting
import DocTree.Proofs.Json.Printed
import DocTree.Record

namespace DocTree

open Json (Draft Fault Page State Damage IsPrinted draftItems draftMembers isPrinted_compact
  isPrinted_compactText isPrinted_pretty openArray quote)

namespace Layout

variable {α κ : Type} [DecidableEq κ] {layout : Layout α κ} {name : κ → String}

/-- **A list of parts is read as an object of them,** under names that each name their part. -/
theorem readItems_eq_readMembers (hname : ∀ part, layout.ofKey? (name part) = some part)
    (whole : α) {parts : List κ} (hparts : parts.Nodup) {seen : List κ}
    (hseen : ∀ part ∈ parts, part ∉ seen) {values : List Json}
    (hlength : values.length ≤ parts.length) :
    layout.readItems whole parts (draftItems values) =
      layout.readMembers whole seen (draftMembers ((parts.map name).zip values)) := by
  induction values generalizing whole parts seen with
  | nil =>
    rw [List.zip_nil_right, draftItems, draftMembers, readMembers]
    cases parts <;> rfl
  | cons value values ih =>
    cases parts with
    | nil => exact absurd hlength (by simp)
    | cons part parts =>
      rw [List.nodup_cons] at hparts
      rw [List.forall_mem_cons] at hseen
      have hfresh : ∀ other ∈ parts, other ∉ part :: seen := fun other hother =>
        List.not_mem_cons_of_ne_of_not_mem (fun heq => hparts.1 (heq ▸ hother))
          (hseen.2 other hother)
      have hrest := fun next => ih next hparts.2 hfresh (Nat.le_of_succ_le_succ hlength)
      rw [draftItems, readItems, List.map_cons, List.zip_cons_cons, draftMembers, readMembers]
      simp [Json.keepText, hname, hseen.1, hrest, bind, Except.bind]

theorem read_array_eq_read_object (hname : ∀ part, layout.ofKey? (name part) = some part)
    (hparts : layout.parts.Nodup) (start : α) {values : List Json}
    (hlength : values.length ≤ layout.parts.length) :
    layout.read start (Json.array values).draft =
      layout.read start (Json.object ((layout.parts.map name).zip values)).draft := by
  rw [Json.draft, Json.draft, read, read,
    readItems_eq_readMembers hname start hparts (fun _ _ => List.not_mem_nil) hlength]

omit [DecidableEq κ] in
/-- When all parts are read, an item too many is refused. -/
theorem readItems_surplus {whole result : α} {parts : List κ} {items : List Draft}
    (hread : layout.readItems whole parts items = .ok result)
    (hlength : items.length = parts.length) (extra : Draft) (more : List Draft) :
    layout.readItems whole parts (items ++ extra :: more) = .error .notJson := by
  induction items generalizing whole parts with
  | nil =>
    obtain rfl := List.length_eq_zero_iff.1 hlength.symm
    rfl
  | cons item items ih =>
    cases parts with
    | nil => cases hlength
    | cons part parts =>
      rw [readItems, Json.bind_eq_ok_iff] at hread
      obtain ⟨next, hnext, hrest⟩ := hread
      rw [List.cons_append, readItems, hnext]
      exact ih hrest (Nat.succ.inj hlength)

/-- **A list with more items than there are parts is refused,** whatever comes behind the parts. -/
theorem read_array_surplus {start result : α} {items : List Draft}
    (hread : layout.read start (.array items none) = .ok result)
    (hlength : items.length = layout.parts.length) (extra : Draft) (more : List Draft)
    (damage? : Option Damage) :
    layout.read start (.array (items ++ extra :: more) damage?) = .error .notJson := by
  rw [read, Json.bind_eq_ok_iff] at hread
  obtain ⟨whole, hwhole, -⟩ := hread
  rw [read, readItems_surplus hwhole hlength]
  rfl

end Layout

/-! ### Texts -/

namespace Json

theorem isGrammatical_array {items : List Json} :
    (array items).IsGrammatical ↔ ∀ item ∈ items, item.IsGrammatical := by
  induction items with
  | nil => simp [IsGrammatical, numbers, numbersOfItems]
  | cons item items ih =>
    rw [List.forall_mem_cons, ← ih]
    simp only [IsGrammatical, numbers, numbersOfItems, List.forall_mem_append]

theorem isGrammatical_object {members : List (String × Json)} :
    (object members).IsGrammatical ↔ ∀ member ∈ members, member.2.IsGrammatical := by
  induction members with
  | nil => simp [IsGrammatical, numbers, numbersOfMembers]
  | cons member members ih =>
    rw [List.forall_mem_cons, ← ih]
    simp only [IsGrammatical, numbers, numbersOfMembers, List.forall_mem_append]

theorem length_draftItems (items : List Json) : (draftItems items).length = items.length := by
  induction items with
  | nil => rfl
  | cons item items ih => rw [draftItems, List.length_cons, List.length_cons, ih]

end Json

/-- Whether texts are read by position as they are by name: an array of as many values as there are
names, or fewer, is read as the object that pairs the names with the values, and an array that goes
on behind the last of the names is no JSON, whatever follows. -/
structure ReadsByPosition {α : Type} (read : String → Except Fault α) (names : List String) :
    Prop where
  eq_object {values : List Json} (hlength : values.length ≤ names.length)
    (hnumbers : ∀ value ∈ values, value.IsGrammatical) {array object : String}
    (harray : IsPrinted (.array values) array.toList)
    (hobject : IsPrinted (.object (names.zip values)) object.toList) : read array = read object
  surplus {values : List Json} (hlength : values.length = names.length)
    (hnumbers : ∀ value ∈ values, value.IsGrammatical) {array : String}
    (harray : IsPrinted (.array values) array.toList) {result : α} (hread : read array = .ok result)
    {texts : List (List Char)} (htexts : List.Forall₂ IsPrinted values texts) (rest : List Char) :
    read (.ofList (openArray texts ++ rest)) = .error .notJson

/-- **The texts of a structure are read by position as they are by name.** -/
theorem Layout.readsByPosition {α κ : Type} [DecidableEq κ] (layout : Layout α κ)
    {name : κ → String} (hname : ∀ part, layout.ofKey? (name part) = some part)
    (hparts : layout.parts.Nodup) (hne : layout.parts ≠ []) (start : α) :
    ReadsByPosition (fun text => (Page.ofText text.toList).decode (layout.read start))
      (layout.parts.map name) where
  eq_object {values} hlength hnumbers array object harray hobject := by
    rw [List.length_map] at hlength
    have hmembers : ∀ member ∈ (layout.parts.map name).zip values, member.2.IsGrammatical :=
      fun member hmember => hnumbers _ (List.of_mem_zip hmember).2
    rw [harray.page (Json.isGrammatical_array.2 hnumbers),
      hobject.page (Json.isGrammatical_object.2 hmembers), Page.decode_value, Page.decode_value,
      read_array_eq_read_object hname hparts start hlength]
  surplus {values} hlength hnumbers array harray result hread texts htexts rest := by
    rw [List.length_map] at hlength
    rw [harray.page (Json.isGrammatical_array.2 hnumbers), Page.decode_value, Json.draft] at hread
    have hvalues : values ≠ [] := by
      rintro rfl
      exact hne (List.length_eq_zero_iff.1 hlength.symm)
    have hpage : Page.ofText (openArray texts ++ rest) =
        (State.run (.expectValue [.item (draftItems values).reverse]) rest).page := by
      rw [Page.ofText, State.run_append, State.run_openArray htexts hnumbers hvalues]
    -- The items stay in front of whatever else the text holds.
    obtain ⟨extra, more, damage?, -, hvalue⟩ :=
      State.mayHold_run (.expectValue [.item (draftItems values).reverse]) rest
    rw [List.reverse_reverse] at hvalue
    rw [String.toList_ofList, hpage, Page.decode, hvalue,
      read_array_surplus hread ((Json.length_draftItems values).trans hlength)]
    rfl

/-- **Docstrings and entries of parameter lists are read by position as they are by name.** -/
theorem readsByPosition_ofText :
    ReadsByPosition Docstring.ofText (Section.all.map Section.title) ∧
      ReadsByPosition Parameter.ofText (Parameter.Part.all.map Parameter.Part.key) :=
  ⟨(Docstring.layout _).readsByPosition (fun _ => Section.ofKey?_eq_some_iff.2 (.inl rfl))
      (by decide) (by decide) {},
    Parameter.layout.readsByPosition (fun _ => Parameter.Part.ofKey?_eq_some_iff.2 rfl)
      (by decide) (by decide) {}⟩

/-- A list with something that is no section in the middle and an entry by position is read as the
object of its sections; an entry of three texts and a comma is not read. -/
theorem readsByPosition_ofText_sample :
    Docstring.ofText (Json.array [.string "Reads.", .null, .array [.array [.string "x"]]]).compact =
        Docstring.ofText (Json.object [("Summary", .string "Reads."), ("Extended Summary", .null),
          ("Parameters", .array [.array [.string "x"]])]).pretty ∧
      Parameter.ofText (.ofList (openArray [quote "x", quote "int", quote ""] ++ [']'])) =
        .error .notJson := by
  refine ⟨?_, ?_⟩
  · exact readsByPosition_ofText.1.eq_object (by decide) (by decide) (isPrinted_compact _)
      (isPrinted_pretty _)
  · have hread : Parameter.ofText (Json.array [.string "x", .string "int", .string ""]).compact =
        .ok { name := "x", type := "int" } := by
      rw [Parameter.ofText, Page.ofText_compact (by decide)]
      rfl
    exact readsByPosition_ofText.2.surplus rfl (by decide) (isPrinted_compact _) hread
      (.cons (isPrinted_compactText _) (.cons (isPrinted_compactText _)
        (.cons (isPrinted_compactText _) .nil))) [']']

end DocTree
