/-
# Sections that are left unpopulated

A section that there is nothing to write for is recorded in one of a few shapes
(`Section.IsUnpopulated`).  Some of them are read as no section at all, others as one without
lines, entries or references, or with an empty line; nothing is rendered of either
(`Section.IsUnpopulated.exists_readSection`).  So a docstring that is given such a section
looks as before (`Docstring.readsAlike_insert`), and records with any number of them more make
the same documents (`render_eq_of_addsUnpopulated`).
-/

import DocTree.Markup.Block
import DocTree.Proofs.Alike
import DocTree.Proofs.Docstring
import DocTree.Proofs.Json.Member
import DocTree.Proofs.Layout
import Mathlib.Logic.Relation

namespace DocTree

open Json (Draft Fault Frame StringText Page State IsCongruence IsMemberText isSpace objectText
  nestingLimit bind_eq_ok_iff quote memberText compactText compactMembers compactText_object
  forall₂_memberText isMemberText_memberText)

/-! ### Sections -/

/-- Whether a value is what a section is recorded as when there is nothing to record. -/
def Section.IsUnpopulated (part : Section) (value : Json) : Prop :=
  match part with
  | .summary => value = .array [] ∨ value = .array [.string ""]
  | .extendedSummary | .notes => value = .array []
  | .group _ => value = .array [] ∨ value = .null
  | .references | .examples => value = .string ""
  | .seeAlso => value = .array [] ∨ value = .string "" ∨ value = .null

/-- **What is left unpopulated is read as a section that renders to nothing.** -/
theorem Section.IsUnpopulated.exists_readSection {part : Section} {value : Json}
    (h : part.IsUnpopulated value) (depth : Nat) :
    ∃ doc, Docstring.readSection (depth + 1) {} part value.draft = .ok doc ∧
      ∀ name ctx, doc.renderSection name Markup.parse ctx part = [] := by
  cases part with
  | summary =>
    obtain rfl | rfl := h
    · exact ⟨_, rfl, fun _ _ => rfl⟩
    · exact ⟨_, rfl, fun _ _ => rfl⟩
  | extendedSummary | notes | references | examples =>
    obtain rfl := h
    exact ⟨_, rfl, fun _ _ => rfl⟩
  | group g =>
    obtain rfl | rfl := h
    · cases g <;> exact ⟨_, rfl, fun _ _ => rfl⟩
    · cases g <;> exact ⟨_, rfl, fun _ _ => rfl⟩
  | seeAlso =>
    obtain rfl | rfl | rfl := h
    · exact ⟨_, rfl, fun _ _ => rfl⟩
    · exact ⟨_, rfl, fun _ _ => rfl⟩
    · exact ⟨_, rfl, fun _ _ => rfl⟩

namespace Docstring

/-- Sections are read apart from each other. -/
theorem isIndependent_layout (depth : Nat) : (layout depth).IsIndependent withSection where
  readPart_eq doc start part value := by
    show readSection depth doc part value =
      (readSection depth start part value).map (doc.withSection part)
    cases part with
    | group g =>
      rw [readSection, readSection]
      cases Parameter.listOfDraft value <;> cases g <;> rfl
    | _ =>
      rw [readSection, readSection]
      cases value.keep depth <;> rfl
  put_self := withSection_self
  put_comm doc first second := withSection_comm doc first second

/-- A section is rendered from itself alone. -/
theorem renderSection_of_sameAt {doc other : Docstring} {part : Section}
    (h : SameAt part doc other) (name : String) (parse : ProseParser) (ctx : Context) :
    doc.renderSection name parse ctx part = other.renderSection name parse ctx part := by
  cases part <;> rw [SameAt] at h <;> simp only [renderSection, h]

/-- Nothing is rendered of a docstring without sections. -/
theorem renderSection_default (name : String) (parse : ProseParser) (ctx : Context)
    (part : Section) : ({} : Docstring).renderSection name parse ctx part = [] := by
  cases part with
  | group g => cases g <;> rfl
  | _ => rfl

/-- **A docstring is given a section** by one member more, if no member was for it. -/
theorem ofDraft_insert {depth : Nat} {part : Section} {key : String} (hkey : part.IsKey key)
    {value : Draft} {given : Docstring} (hgiven : readSection depth {} part value = .ok given)
    {before after : List (StringText × Draft)}
    (habsent : ∀ member ∈ before ++ after, ∀ name, member.1 = some name → ¬part.IsKey name)
    {doc : Docstring} (hread : ofDraft depth (.object (before ++ after) none) = .ok doc) :
    doc.withSection part {} = doc ∧
      ofDraft depth (.object (before ++ (some key, value) :: after) none) =
        .ok (doc.withSection part given) := by
  have hothers : ∀ member ∈ before ++ after, (layout depth).IsOther part member := by
    intro member hmember hpart
    obtain ⟨name, hname, hpart⟩ := Option.bind_eq_some_iff.1 hpart
    exact habsent member hmember name hname (Section.ofKey?_eq_some_iff.1 hpart)
  obtain ⟨hbefore, hafter⟩ := List.forall_mem_append.1 hothers
  rw [ofDraft, Layout.read_object_eq] at hread ⊢
  exact ⟨Layout.put_result (isIndependent_layout depth) hothers hread,
    Layout.readMembers_insert (isIndependent_layout depth) (Section.ofKey?_eq_some_iff.2 hkey)
      hgiven hbefore hafter List.not_mem_nil hread⟩

/-- **A docstring that is given an unpopulated section looks as it did,** wherever the section
comes among its members. -/
theorem readsAlike_insert (depth : Nat) {part : Section} {key : String} (hkey : part.IsKey key)
    {value : Json} (hvalue : part.IsUnpopulated value) {before after : List (StringText × Draft)}
    (habsent : ∀ member ∈ before ++ after, ∀ name, member.1 = some name → ¬part.IsKey name) :
    ReadsAlike (ofDraft (depth + 1)) (LooksLike Markup.parse) (.object (before ++ after) none)
      (.object (before ++ (some key, value.draft) :: after) none) := by
  intro doc hread
  obtain ⟨given, hgiven, hnothing⟩ := hvalue.exists_readSection depth
  obtain ⟨hmissing, hinsert⟩ := ofDraft_insert hkey hgiven habsent hread
  refine ⟨doc.withSection part given, hinsert, looksLike_of_renderSection fun name ctx other => ?_⟩
  by_cases hother : other = part
  · subst hother
    have hdoc := sameAt_withSection doc other {}
    rw [hmissing] at hdoc
    rw [renderSection_of_sameAt hdoc, renderSection_default,
      renderSection_of_sameAt (sameAt_withSection doc other given), hnothing]
  · exact (renderSection_of_sameAt (sameAt_withSection_of_ne doc hother given) _ _ _).symm

end Docstring

/-! ### Records -/

/-- Reads what a text holds as a catalog. -/
abbrev Catalog.ofDraft : Draft → Except Fault Catalog :=
  Listing.ofDraft (Listing.ofDraft (Docstring.ofDraft (nestingLimit - 3)))

/-- Whether a docstring may come after a text: the value of a member of the value of a member
of the record. -/
def IsDocstringPlace (front : List Char) : Prop :=
  ∃ submodules submodule functions function,
    State.run (.expectValue []) front =
      .expectValue [.member functions function, .member submodules submodule]

/-- The object of a docstring in a text: its members, and what is around it. -/
structure DocstringObject (text : List Char) where
  /-- What precedes the object. -/
  front : List Char
  /-- The white space between the braces if there are no members. -/
  gap : List Char
  /-- The texts between the braces and commas. -/
  texts : List (List Char)
  /-- What follows the object. -/
  rest : List Char
  /-- What the texts are read as. -/
  members : List (StringText × Draft)
  isPlace : IsDocstringPlace front
  gap_isSpace : ∀ c ∈ gap, isSpace c = true
  isMemberText : List.Forall₂ IsMemberText members texts
  eq_text : text = front ++ (objectText gap texts ++ rest)

/-- The text with other members in the docstring. -/
def DocstringObject.withTexts {text : List Char} (object : DocstringObject text)
    (texts : List (List Char)) : List Char :=
  object.front ++ (objectText object.gap texts ++ object.rest)

/-- **A docstring that is written as an object is one of members,** in a record that loads. -/
theorem exists_docstringObject {front tail : List Char} (hplace : IsDocstringPlace front)
    {catalog : Catalog}
    (hload : (Page.ofText (front ++ '\x7b' :: tail)).decode Catalog.ofDraft = .ok catalog) :
    ∃ object : DocstringObject (front ++ '\x7b' :: tail), object.front = front := by
  obtain ⟨submodules, submodule, functions, function, hfront⟩ := hplace
  have hread := (Page.decode_eq_ok_iff.1 hload).1
  rw [Page.ofText, State.run_append, hfront] at hread
  obtain ⟨gap, members, texts, rest, hgap, hmembers, htail⟩ :=
    State.exists_objectText tail _ fun hbreaks => by
      obtain ⟨damage, value, hbroken⟩ := hbreaks
      exact Listing.ofDraft_damaged_ne_ok (hbroken ▸ hread)
  exact ⟨⟨front, gap, texts, rest, members, ⟨_, _, _, _, hfront⟩, hgap, hmembers,
    by rw [htail]⟩, rfl⟩

/-- Whether a text is another with a member more in the object of a docstring, for a section
that the docstring does not have and that is left unpopulated. -/
inductive AddsUnpopulated (text : List Char) : List Char → Prop where
  | add (object : DocstringObject text) {before after : List (List Char)}
    (htexts : object.texts = before ++ after) {part : Section} {key : String} {value : Json}
    {new : List Char}
    (habsent : ∀ member ∈ object.members, ∀ name, member.1 = some name → ¬part.IsKey name)
    (hkey : part.IsKey key) (hvalue : part.IsUnpopulated value)
    (hnew : IsMemberText (some key, value.draft) new) :
    AddsUnpopulated text (object.withTexts (before ++ new :: after))

/-- A record with an unpopulated section more is loaded too, as a catalog that looks the same. -/
theorem AddsUnpopulated.exists_decode {text text' : List Char} (h : AddsUnpopulated text text')
    {catalog : Catalog} (hload : (Page.ofText text).decode Catalog.ofDraft = .ok catalog) :
    ∃ catalog', (Page.ofText text').decode Catalog.ofDraft = .ok catalog' ∧
      Listing.Alike (Listing.Alike (Docstring.LooksLike Markup.parse)) catalog catalog' := by
  cases h with
  | @add object before after htexts part key value new habsent hkey hvalue hnew =>
    obtain ⟨submodules, submodule, functions, function, hfront⟩ := object.isPlace
    have hmembers := object.isMemberText
    rw [htexts] at hmembers
    have hbefore := List.forall₂_take_append _ _ _ hmembers
    have hafter := List.forall₂_drop_append _ _ _ hmembers
    rw [← List.take_append_drop before.length object.members] at habsent hmembers
    have hcongruence : IsCongruence (ReadsAlikeAt (Docstring.ofDraft (nestingLimit - 3))
        (Docstring.LooksLike Markup.parse)) := isCongruence_readsAlikeAt fun _ _ _ => rfl
    have hdocstrings := Docstring.readsAlike_insert (nestingLimit - 4) hkey hvalue habsent
    -- The reader is in one state after either object, but for what it has read, and it goes
    -- over the rest of the text without looking at that.
    have hpages := Page.ofText_alike hcongruence hfront
      (State.run_objectText object.gap_isSpace hmembers _)
      (State.run_objectText object.gap_isSpace (List.rel_append hbefore (.cons hnew hafter)) _)
      hdocstrings object.rest
    rw [object.eq_text, htexts] at hload
    exact ReadsAlike.exists_decode hpages.1 hpages.2 hload

/-- **Sections that are left unpopulated leave no trace.**  In a record that loads any number of
them can be added to the object of any docstring, which consists of its members, anywhere among
these; then the record is loaded too, and every part of it is rendered as before. -/
theorem render_eq_of_addsUnpopulated {text : String} {catalog : Catalog}
    (hload : Catalog.ofText text = .ok catalog) :
    (∀ front tail, text.toList = front ++ '\x7b' :: tail → IsDocstringPlace front →
      ∃ object : DocstringObject text.toList, object.front = front) ∧
    ∀ text' : String, Relation.ReflTransGen AddsUnpopulated text.toList text'.toList →
      ∃ catalog', Catalog.ofText text' = .ok catalog' ∧ ∀ target? ctx,
        catalog'.render target? Markup.parse ctx = catalog.render target? Markup.parse ctx := by
  rw [Catalog.ofText] at hload
  constructor
  · intro front tail htext hplace
    rw [htext] at hload ⊢
    exact exists_docstringObject hplace hload
  · intro text' h
    rw [Catalog.ofText]
    generalize text'.toList = chars at h ⊢
    induction h with
    | refl => exact ⟨catalog, hload, fun _ _ => rfl⟩
    | tail _ hadds ih =>
      obtain ⟨catalog', hload', hrender⟩ := ih
      obtain ⟨catalog'', hload'', halike⟩ := hadds.exists_decode hload'
      refine ⟨catalog'', hload'', fun target? ctx => ?_⟩
      rw [← hrender, Catalog.render_eq_of_alike halike]

/-! ### An example -/

/-- A catalog of one function, of which there is a remark. -/
def Catalog.remarked : Catalog where
  entries := [("io", { entries := [("read", { notes := some "Slow." })], nodup := by decide })]
  nodup := by decide

/-- The record of one function with some members in its docstring. -/
def recordOfMembers (members : List (String × Json)) : Json :=
  .object [("io", .object [("read", .object members)])]

/-- The beginning of the record of one function. -/
def recordFront : List Char :=
  '\x7b' :: (quote "io" ++ ':' :: '\x7b' :: (quote "read" ++ [':']))

theorem isDocstringPlace_recordFront : IsDocstringPlace recordFront := by
  refine ⟨[], some "io", [], some "read", ?_⟩
  have hopen (outer : List Frame) : State.step (.expectValue outer) '\x7b' = .firstKey outer := rfl
  rw [recordFront, State.run_cons, hopen, State.run_firstKey, State.run_key, State.run_cons, hopen,
    State.run_firstKey, State.run_key, State.run_nil]

theorem compactText_recordOfMembers (members : List (String × Json)) :
    (recordOfMembers members).compactText =
      recordFront ++ (objectText [] (members.map memberText) ++ ['\x7d', '\x7d']) := by
  rw [← compactText_object, recordOfMembers]
  generalize Json.object members = value
  simp [recordFront, compactText, compactMembers]

/-- The docstring in the record of one function. -/
def DocstringObject.ofMembers (members : List (String × Json))
    (h : ∀ member ∈ members, member.2.IsGrammatical) :
    DocstringObject (recordOfMembers members).compactText where
  front := recordFront
  gap := []
  texts := members.map memberText
  rest := ['\x7d', '\x7d']
  members := members.map fun member => (some member.1, member.2.draft)
  isPlace := isDocstringPlace_recordFront
  gap_isSpace := Json.Spacing.none.colon_isSpace
  isMemberText := forall₂_memberText h
  eq_text := compactText_recordOfMembers members

theorem not_isKey_of_mem_map {part : Section} {members : List (String × Json)}
    (h : ∀ member ∈ members, ¬part.IsKey member.1) :
    ∀ member ∈ members.map fun member => (some member.1, member.2.draft),
      ∀ name, member.1 = some name → ¬part.IsKey name := by
  intro _ hread name hname
  obtain ⟨member, hmember, rfl⟩ := List.mem_map.1 hread
  exact Option.some.inj hname ▸ h member hmember

/-- In a record on one line the docstring can be given a member on one line. -/
theorem addsUnpopulated_recordOfMembers {before after : List (String × Json)}
    (h : ∀ member ∈ before ++ after, member.2.IsGrammatical) {part : Section} {key : String}
    {value : Json} (habsent : ∀ member ∈ before ++ after, ¬part.IsKey member.1)
    (hkey : part.IsKey key) (hvalue : part.IsUnpopulated value) (hnumbers : value.IsGrammatical) :
    AddsUnpopulated (recordOfMembers (before ++ after)).compactText
      (recordOfMembers (before ++ (key, value) :: after)).compactText := by
  rw [compactText_recordOfMembers (before ++ (key, value) :: after), List.map_append,
    List.map_cons]
  exact .add (.ofMembers (before ++ after) h) List.map_append (not_isKey_of_mem_map habsent) hkey
    hvalue (isMemberText_memberText key hnumbers)

/-- The record of one function loads, and so it does with an empty summary before the remark
and no references after it. -/
theorem render_eq_of_addsUnpopulated_sample :
    Catalog.ofText (recordOfMembers [("Notes", .string "Slow.")]).compact =
        .ok Catalog.remarked ∧
      ∃ catalog', Catalog.ofText (recordOfMembers [("Summary", .array [.string ""]),
            ("Notes", .string "Slow."), ("see_also", .null)]).compact = .ok catalog' ∧
        ∀ target? ctx, catalog'.render target? Markup.parse ctx =
          Catalog.remarked.render target? Markup.parse ctx := by
  have hload : Catalog.ofText (recordOfMembers [("Notes", .string "Slow.")]).compact =
      .ok Catalog.remarked := by
    rw [Catalog.ofText, Page.ofText_compact (by decide)]
    rfl
  refine ⟨hload, (render_eq_of_addsUnpopulated hload).2 _ ?_⟩
  rw [Json.compact, Json.compact, String.toList_ofList, String.toList_ofList]
  have hsummary := @addsUnpopulated_recordOfMembers [] [("Notes", .string "Slow.")] (by decide)
    .summary "Summary" (.array [.string ""]) (by decide) (.inl rfl) (.inr rfl) (by decide)
  have hseeAlso := @addsUnpopulated_recordOfMembers
    [("Summary", .array [.string ""]), ("Notes", .string "Slow.")] [] (by decide)
    .seeAlso "see_also" .null (by decide) (.inr rfl) (.inr (.inr rfl)) (by decide)
  exact .tail (.single hsummary) hseeAlso

end DocTree
