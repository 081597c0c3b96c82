/-
# Reading a record that is written out

A catalog can be written as a record in many ways: the sections of a docstring come in any
order and under either name, empty parts of an entry may be left out, and members that
mean nothing may be anywhere (`Catalog.Spelled`).  Whichever it is, reading the record
gives the catalog (`Catalog.load_spelled`).
-/

import DocTree.Document
import DocTree.Proofs.Disk
import DocTree.Proofs.Docstring
import DocTree.Proofs.Json.Reader
import DocTree.Proofs.Layout
import DocTree.Proofs.Listing

namespace DocTree

open Json (Draft Fault nestingLimit draftItems draftMembers)

/-! ### Entries of a parameter list -/

namespace Parameter

/-- Whether a value spells the entry: an object of the texts of some parts, the others
being empty. -/
def Spelled (p : Parameter) (value : Json) : Prop :=
  ∃ members parts, value = .object members ∧ parts.Nodup ∧
    (∀ part, part ∉ parts → p.text part = "") ∧
    SpellsParts (fun part key => key = part.key) (fun part value => value = .string (p.text part))
      parts members

theorem readsTo_text (p : Parameter) (part : Part) :
    layout.ReadsTo SameAt p part (.string (p.text part)) := by
  intro whole
  refine ⟨whole.set part (p.text part), rfl, text_set whole part _, fun other hne h => ?_⟩
  exact (text_set_of_ne whole hne _).trans h

/-- An entry is read back. -/
theorem ofDraft_spelled {p : Parameter} {value : Json} (h : p.Spelled value) :
    ofDraft value.draft = .ok p := by
  obtain ⟨members, parts, rfl, hnodup, hempty, hspells⟩ := h
  have hstart : ∀ part, part ∉ parts → SameAt part {} p := by
    intro part hpart
    rw [SameAt, hempty part hpart]
    cases part <;> rfl
  refine Layout.read_object (fun _ => eq_of_sameAt) (fun _ _ => Part.ofKey?_eq_some_iff) hnodup
    hstart ?_ hspells
  rintro part _ rfl
  exact readsTo_text p part

/-- A parameter list is read back. -/
theorem listOfDrafts_spelled {list : List Parameter} {items : List Json}
    (h : List.Forall₂ Spelled list items) : listOfDrafts (draftItems items) = .ok list := by
  induction h with
  | nil => rfl
  | cons hitem _ ih =>
    rw [draftItems, listOfDrafts, ofDraft_spelled hitem, ih]
    rfl

end Parameter

/-! ### Docstrings -/

namespace Docstring

/-- Whether a value spells a section of the docstring, which it must have.  A value of
related functions may be any but null whose numbers are in range; it stands below three
objects, which leaves that much less room for its nesting. -/
def SpelledSection (doc : Docstring) (part : Section) (value : Json) : Prop :=
  match part with
  | .summary => ∃ lines, doc.summary = some lines ∧ value = .array (lines.map .string)
  | .extendedSummary => ∃ text, doc.extendedSummary = some text ∧ value = .string text
  | .group g => ∃ list items, doc.group g = some list ∧ value = .array items ∧
      List.Forall₂ Parameter.Spelled list items
  | .notes => ∃ text, doc.notes = some text ∧ value = .string text
  | .references => ∃ lines, doc.references = some lines ∧ value = .array (lines.map .string)
  | .examples => ∃ lines, doc.examples = some lines ∧ value = .array (lines.map .string)
  | .seeAlso => doc.seeAlso = some value ∧ value ≠ .null ∧ value.InRange ∧
      value.nesting + 3 ≤ nestingLimit

/-- Whether a value spells the docstring: an object of its sections. -/
def Spelled (doc : Docstring) (value : Json) : Prop :=
  ∃ members, value = .object members ∧
    SpellsParts Section.IsKey doc.SpelledSection (Section.all.filter doc.has) members

theorem linesOf_strings (lines : List String) :
    linesOf (.array (lines.map .string)) = some lines := by
  have hitems : stringItems (lines.map .string) = lines := by
    rw [stringItems, List.filterMap_map]
    exact List.filterMap_some
  rw [linesOf, hitems]

/-- Strings have no numbers and no nesting. -/
theorem numbersOfItems_map_string (lines : List String) :
    Json.numbersOfItems (lines.map .string) = [] := by
  induction lines with
  | nil => rfl
  | cons line lines ih => rw [List.map_cons, Json.numbersOfItems, ih]; rfl

theorem nestingOfItems_map_string (lines : List String) :
    Json.nestingOfItems (lines.map .string) = 0 := by
  induction lines with
  | nil => rfl
  | cons line lines ih => rw [List.map_cons, Json.nestingOfItems, ih]; rfl

theorem keep_lines (lines : List String) :
    (Json.array (lines.map .string)).draft.keep (nestingLimit - 3) =
      .ok (.array (lines.map .string)) := by
  apply Draft.keep_draft
  · rw [Json.numbers, numbersOfItems_map_string]
    exact fun _ h => absurd h List.not_mem_nil
  · rw [Json.nesting, nestingOfItems_map_string]
    decide

/-- Reading the value of a section gives the docstring that section. -/
theorem readSection_spelled {doc : Docstring} {part : Section} {value : Json}
    (h : doc.SpelledSection part value) (whole : Docstring) :
    readSection (nestingLimit - 3) whole part value.draft = .ok (whole.withSection part doc) := by
  cases part with
  | summary =>
    obtain ⟨lines, hlines, rfl⟩ := h
    rw [readSection, keep_lines, withSection, hlines, ← linesOf_strings lines]
    rfl
  | extendedSummary =>
    obtain ⟨text, htext, rfl⟩ := h
    rw [withSection, htext]
    rfl
  | group g =>
    obtain ⟨list, items, hlist, rfl, hitems⟩ := h
    have hread : Parameter.listOfDraft (Json.array items).draft = .ok (some list) := by
      rw [Json.draft, Parameter.listOfDraft, Parameter.listOfDrafts_spelled hitems]
      rfl
    rw [readSection, hread, withSection, hlist]
    rfl
  | notes =>
    obtain ⟨text, htext, rfl⟩ := h
    rw [withSection, htext]
    rfl
  | references =>
    obtain ⟨lines, hlines, rfl⟩ := h
    rw [readSection, keep_lines, withSection, hlines, ← linesOf_strings lines]
    rfl
  | examples =>
    obtain ⟨lines, hlines, rfl⟩ := h
    rw [readSection, keep_lines, withSection, hlines, ← linesOf_strings lines]
    rfl
  | seeAlso =>
    obtain ⟨hvalue, hnull, hrange, hnesting⟩ := h
    have hkeep := Draft.keep_draft value (nestingLimit - 3) hrange (by omega)
    have hsome : anythingOf value = some value := by
      cases value <;> first | rfl | exact absurd rfl hnull
    rw [readSection, hkeep, withSection, hvalue, ← hsome]
    rfl

theorem readsTo_of_spelledSection {doc : Docstring} {part : Section} {value : Json}
    (h : doc.SpelledSection part value) :
    (layout (nestingLimit - 3)).ReadsTo SameAt doc part value := by
  intro whole
  refine ⟨whole.withSection part doc, readSection_spelled h whole,
    sameAt_withSection whole part doc, fun other hne hsame => ?_⟩
  exact (sameAt_withSection_of_ne whole hne doc).trans hsame

/-- A docstring is read back. -/
theorem ofDraft_spelled {doc : Docstring} {value : Json} (h : doc.Spelled value) :
    ofDraft (nestingLimit - 3) value.draft = .ok doc := by
  obtain ⟨members, rfl, hspells⟩ := h
  have hnodup : (Section.all.filter doc.has).Nodup := List.filter_sublist.nodup (by decide)
  have hstart : ∀ part, part ∉ Section.all.filter doc.has → SameAt part {} doc := by
    intro part hpart
    have hhas : doc.has part = false := by
      rw [List.mem_filter, not_and, Bool.not_eq_true] at hpart
      exact hpart part.mem_all
    refine sameAt_of_has_eq_false ?_ hhas
    cases part with
    | group g => cases g <;> rfl
    | _ => rfl
  exact Layout.read_object (fun _ => eq_of_sameAt) (fun _ _ => Section.ofKey?_eq_some_iff) hnodup
    hstart (fun _ _ => readsTo_of_spelledSection) hspells

end Docstring

/-! ### Catalogs -/

namespace Listing

variable {α : Type} {spells : α → Json → Prop} {decoder : Draft → Except Fault α}

/-- Whether a value spells the listing: an object of what it lists, in order. -/
def Spelled (spells : α → Json → Prop) (listing : Listing α) (value : Json) : Prop :=
  ∃ members, value = .object members ∧
    List.Forall₂ (fun entry member => member.1 = entry.1 ∧ spells entry.2 member.2)
      listing.entries members

/-- Names that are new are put at the end, in order. -/
theorem readMembers_spelled (hdecoder : ∀ thing value, spells thing value →
      decoder value.draft = .ok thing) {entries : List (String × α)}
    {members : List (String × Json)}
    (h : List.Forall₂ (fun entry member => member.1 = entry.1 ∧ spells entry.2 member.2)
      entries members) (listing target : Listing α)
    (htarget : target.entries = listing.entries ++ entries) :
    listing.readMembers decoder (draftMembers members) = .ok target := by
  induction h generalizing listing with
  | nil =>
    rw [List.append_nil] at htarget
    rw [draftMembers, readMembers, eq_of_entries htarget]
  | @cons entry member entries members hmember _ ih =>
    obtain ⟨key, value⟩ := member
    obtain ⟨rfl, hvalue⟩ := hmember
    have hfresh : entry.1 ∉ listing.entries.map Prod.fst := by
      have hnodup := target.nodup
      rw [htarget, List.map_append, List.nodup_append] at hnodup
      exact fun hmem => hnodup.2.2 entry.1 hmem entry.1 (List.mem_map_of_mem List.mem_cons_self) rfl
    have hinsert : (listing.insert entry.1 entry.2).entries = listing.entries ++ [entry] :=
      insertEntry_of_not_mem hfresh
    have hentries : target.entries = (listing.insert entry.1 entry.2).entries ++ entries := by
      rw [htarget, hinsert, List.append_assoc, List.singleton_append]
    have hrest := ih (listing.insert entry.1 entry.2) hentries
    rw [draftMembers, readMembers, hdecoder entry.2 value hvalue]
    exact hrest

theorem ofDraft_spelled (hdecoder : ∀ thing value, spells thing value →
      decoder value.draft = .ok thing) {listing : Listing α} {value : Json}
    (h : listing.Spelled spells value) : ofDraft decoder value.draft = .ok listing := by
  obtain ⟨members, rfl, hmembers⟩ := h
  rw [Json.draft, ofDraft, readMembers_spelled hdecoder hmembers empty listing rfl]
  rfl

end Listing

namespace Catalog

/-- Whether a value spells the catalog: an object of submodules, each an object of
functions, each of which is spelled. -/
def Spelled (catalog : Catalog) (value : Json) : Prop :=
  Listing.Spelled (Listing.Spelled Docstring.Spelled) catalog value

/-- What was written to a file as a text is read as that text. -/
theorem load_toUTF8 {tree : FileTree} {path text : String}
    (hfile : tree.read? path = some text.toUTF8) :
    (load FileTree.disk path).run tree =
      ((Catalog.ofText text).mapError (.invalid path), tree) := by
  have hread : (FileTree.disk.read path).run tree = (.ok text.toUTF8, tree) := by
    rw [FileTree.run_read, hfile]
  have htext : String.fromUTF8? text.toUTF8 = some text := dif_pos text.isValidUTF8
  rw [load, StateT.run_map, hread]
  show (ofFile path (.ok text.toUTF8), tree) = _
  rw [ofFile, htext]

end Catalog
end DocTree
