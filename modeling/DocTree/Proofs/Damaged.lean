/-
# Damaged records

A record is never read from a text that is only a part of one, nor from a text with something
behind it (`Catalog.ofText_damaged`).  Every decoder of a record meets the end of the text, as
its parts are read in turn (`Catalog.meetsEnd_ofDraft`), and what the reader holds of a text
that was cut off is a part of the whole value.
-/

import DocTree.Proofs.Json.Ending
import DocTree.Proofs.Json.Zone
import DocTree.Record

namespace DocTree

open Json (Draft Fault Page State StringText Truncates EndsEarly MeetsEnd Damage keepText)

/-! ### Readings that meet the end of the text -/

/-- A value that breaks off before it is of use is of no shape, whatever it should have been. -/
theorem endsEarly_broken {α : Type} {damage : Damage} {decoder : Draft → Except Fault α}
    {whole : Draft} (hkept : damage.kept = .endOfText ∨ whole = .string none)
    (hmisfit : decoder (.broken damage) = .error damage.kept)
    (hhalf : ∀ result, decoder (.string none) ≠ .ok result) :
    EndsEarly (decoder (.broken damage)) (decoder whole) := by
  rcases hkept with hkept | rfl
  · rw [hmisfit, hkept]
    exact .endOfText _
  · exact fun result hresult => absurd hresult (hhalf result)

namespace Layout

variable {α κ : Type} [DecidableEq κ] (layout : Layout α κ)

/-- Reads a part by its key into a structure, of which some parts were given before. -/
def readMember (sofar : α × List κ) (member : StringText × Draft) :
    Except Fault (α × List κ) := do
  match layout.ofKey? (← keepText member.1) with
  | none =>
    member.2.skip
    return sofar
  | some part =>
    if part ∈ sofar.2 then .error .wrongShape
    else return (← layout.readPart sofar.1 part member.2, part :: sofar.2)

theorem readMembers_eq_foldlM (whole : α) (seen : List κ) (members : List (StringText × Draft)) :
    layout.readMembers whole seen members =
      Prod.fst <$> members.foldlM layout.readMember (whole, seen) := by
  induction members generalizing whole seen with
  | nil => rfl
  | cons member members ih =>
    obtain ⟨key, value⟩ := member
    rw [readMembers, List.foldlM_cons, readMember, map_bind, bind_assoc]
    congr 1
    funext name
    cases layout.ofKey? name with
    | none => simp [ih]
    | some part =>
      by_cases hseen : part ∈ seen
      · simp [hseen]
        rfl
      · simp [hseen, ih]

/-- Reads the part at the next position into a structure. -/
def readItem (sofar : α × List κ) (item : Draft) : Except Fault (α × List κ) :=
  match sofar.2 with
  | [] => .error .notJson
  | part :: parts => do return (← layout.readPart sofar.1 part item, parts)

omit [DecidableEq κ] in
theorem readItems_eq_foldlM (whole : α) (parts : List κ) (items : List Draft) :
    layout.readItems whole parts items =
      Prod.fst <$> items.foldlM layout.readItem (whole, parts) := by
  induction items generalizing whole parts with
  | nil => cases parts <;> rfl
  | cons item items ih =>
    cases parts with
    | nil => rfl
    | cons part parts =>
      rw [readItems, List.foldlM_cons, readItem]
      simp [ih]

/-- **A structure whose parts meet the end of the text meets it.** -/
theorem meetsEnd_read (h : ∀ whole part, MeetsEnd (layout.readPart whole part)) (start : α) :
    MeetsEnd (layout.read start) := by
  intro cut whole hcut
  cases hcut with
  | broken _ hkept => exact endsEarly_broken hkept rfl nofun
  | array items more =>
    rw [read, read, readItems_eq_foldlM, readItems_eq_foldlM, bind_map_left, bind_map_left]
    exact .foldlM_append fun _ => .endOfText _
  | item items more hcut =>
    rw [read, read, readItems_eq_foldlM, readItems_eq_foldlM, bind_map_left, bind_map_left]
    refine .foldlM_append_cons fun (whole, parts) => ?_
    cases parts with
    | nil => exact .of_error _ .notJson
    | cons part parts => exact (h whole part hcut).bind _ _
  | object members more _ hkept =>
    rw [read, read, readMembers_eq_foldlM, readMembers_eq_foldlM, bind_map_left, bind_map_left]
    refine .foldlM_append fun _ => .intact hkept ?_
    rintro value rest rfl
    exact nofun
  | member members more key hcut =>
    rw [read, read, readMembers_eq_foldlM, readMembers_eq_foldlM, bind_map_left, bind_map_left]
    refine .foldlM_append_cons fun (whole, seen) => .after _ fun name => ?_
    cases layout.ofKey? name with
    | none => exact (Draft.meetsEnd_skip hcut).bind _ _
    | some part =>
      dsimp only
      split
      · exact .of_error _ .wrongShape
      · exact (h whole part hcut).bind _ _

end Layout

namespace Listing

variable {α : Type} {decoder : Draft → Except Fault α}

/-- Reads a named thing into a listing. -/
def readMember (decoder : Draft → Except Fault α) (listing : Listing α)
    (member : StringText × Draft) : Except Fault (Listing α) := do
  let name ← keepText member.1
  return listing.insert name (← decoder member.2)

theorem readMembers_eq_foldlM (listing : Listing α) (members : List (StringText × Draft)) :
    listing.readMembers decoder members = members.foldlM (readMember decoder) listing := by
  induction members generalizing listing with
  | nil => rfl
  | cons member members ih =>
    rw [readMembers, List.foldlM_cons, readMember]
    simp [ih]

theorem meetsEnd_ofDraft (h : MeetsEnd decoder) : MeetsEnd (Listing.ofDraft decoder) := by
  intro cut whole hcut
  cases hcut with
  | broken _ hkept => exact endsEarly_broken hkept rfl nofun
  | array | item => exact .of_error _ _
  | object members more _ hkept =>
    rw [ofDraft, ofDraft, readMembers_eq_foldlM, readMembers_eq_foldlM]
    refine .foldlM_append fun _ => .intact hkept ?_
    rintro value rest rfl
    exact nofun
  | member members more key hcut =>
    rw [ofDraft, ofDraft, readMembers_eq_foldlM, readMembers_eq_foldlM]
    exact .foldlM_append_cons fun _ => .after _ fun _ => (h hcut).bind _ _

end Listing

namespace Parameter

theorem meetsEnd_readPart (p : Parameter) (part : Part) : MeetsEnd (p.readPart part) := by
  intro cut whole hcut
  cases hcut with
  | broken _ hkept => exact endsEarly_broken hkept rfl nofun
  | array | item | object | member => exact .of_error _ _

theorem meetsEnd_ofDraft : MeetsEnd ofDraft :=
  Layout.meetsEnd_read layout meetsEnd_readPart {}

theorem listOfDrafts_eq_mapM (items : List Draft) : listOfDrafts items = items.mapM ofDraft := by
  induction items with
  | nil => rfl
  | cons item items ih => rw [listOfDrafts, ih, List.mapM_cons]

theorem meetsEnd_listOfDraft : MeetsEnd listOfDraft := by
  intro cut whole hcut
  cases hcut with
  | broken _ hkept => exact endsEarly_broken hkept rfl nofun
  | array items more =>
    rw [listOfDraft, listOfDraft, listOfDrafts_eq_mapM, listOfDrafts_eq_mapM]
    exact .mapM_append fun _ => .endOfText _
  | item items more hcut =>
    rw [listOfDraft, listOfDraft, listOfDrafts_eq_mapM, listOfDrafts_eq_mapM]
    exact .mapM_append_cons (meetsEnd_ofDraft hcut)
  | object | member => exact .of_error _ _

end Parameter

namespace Docstring

theorem meetsEnd_readSection (depth : Nat) (doc : Docstring) (part : Section) :
    MeetsEnd (readSection depth doc part) := by
  intro cut whole hcut
  cases part with
  | group g => exact (Parameter.meetsEnd_listOfDraft hcut).bind _ _
  | summary | extendedSummary | notes | references | examples | seeAlso =>
    exact (Draft.meetsEnd_keep depth hcut).bind _ _

theorem meetsEnd_ofDraft (depth : Nat) : MeetsEnd (ofDraft depth) :=
  Layout.meetsEnd_read (layout depth) (meetsEnd_readSection depth) {}

end Docstring

/-- **A catalog meets the end of the text.** -/
theorem Catalog.meetsEnd_ofDraft (depth : Nat) :
    MeetsEnd (Listing.ofDraft (Listing.ofDraft (Docstring.ofDraft depth))) :=
  Listing.meetsEnd_ofDraft (Listing.meetsEnd_ofDraft (Docstring.meetsEnd_ofDraft depth))

/-! ### Texts that are cut off or go on -/

/-- Only an object that is closed is a listing. -/
theorem Listing.exists_of_ofDraft {α : Type} {decoder : Draft → Except Fault α} {value : Draft}
    {listing : Listing α} (h : Listing.ofDraft decoder value = .ok listing) :
    ∃ members, value = .object members none := by
  cases value with
  | object members damage? =>
    obtain ⟨_, -, h⟩ := Json.bind_eq_ok_iff.1 h
    obtain ⟨_, hintact, -⟩ := Json.bind_eq_ok_iff.1 h
    cases damage? with
    | none => exact ⟨members, rfl⟩
    | some damage => cases hintact
  | _ => cases h

namespace Catalog

variable {text : String} {catalog : Catalog}

/-- A text that is a record is read to the end of an object. -/
theorem exists_of_ofText (h : Catalog.ofText text = .ok catalog) :
    ∃ members, State.run (.expectValue []) text.toList = .complete (.object members none) ∧
      Listing.ofDraft (Listing.ofDraft (Docstring.ofDraft (Json.nestingLimit - 3)))
        (.object members none) = .ok catalog := by
  have hvalue := (Page.decode_eq_ok_iff.1 h).1
  obtain ⟨members, hmembers⟩ := Listing.exists_of_ofDraft hvalue
  exact ⟨members, State.run_eq_complete_of_decode h hmembers, hmembers ▸ hvalue⟩

/-- **What stops before a closing brace ends too early,** if no number is cut. -/
theorem ofText_cut (h : Catalog.ofText text = .ok catalog)
    (hnumbers : Json.LacksNumbers text.toList) {front rest : List Char}
    (htext : text.toList = front ++ '\x7d' :: rest) {cut : String} (hcut : cut.toList <+: front) :
    Catalog.ofText cut = .error .endOfText := by
  obtain ⟨members, hrun, hdecode⟩ := exists_of_ofText h
  rw [htext] at hrun hnumbers
  have hcomplete := State.ne_complete_of_closing hrun hcut
  obtain ⟨more, rfl⟩ := hcut
  rw [List.append_assoc] at hnumbers hrun
  rw [State.run_append] at hrun
  have hwhole : (State.complete (.object members none)).Becomes (.object members none) := rfl
  have hbecomes : (State.run (.expectValue []) cut.toList).Becomes (.object members none) :=
    State.Becomes.of_run (hrun.symm ▸ hwhole)
  have hstart : State.InZone .outside (.expectValue []) := rfl
  obtain ⟨zone, hzone⟩ := hstart.run hnumbers.of_append hbecomes
  have htruncates := hbecomes.truncates (fun digits outer heq => by rwa [heq] at hzone) hcomplete
  have hend := meetsEnd_ofDraft (Json.nestingLimit - 3) htruncates catalog hdecode
  rw [Catalog.ofText, Page.ofText, Page.decode, hend]
  rfl

/-- **A record is read to its end or not at all.**  It ends with a closing brace, but for white
space.  If there is no number in it outside of strings, then whatever stops before a closing
brace, that one included, ends too early; a number is excepted, since one that lacks a digit
may be refused for that.  More white space changes nothing, and anything else behind the
record is refused as no JSON. -/
theorem ofText_damaged (h : Catalog.ofText text = .ok catalog) :
    (∃ front gap, text.toList = front ++ '\x7d' :: gap ∧ ∀ c ∈ gap, Json.isSpace c = true) ∧
      (Json.LacksNumbers text.toList → ∀ front gap, text.toList = front ++ '\x7d' :: gap →
        ∀ cut : String, cut.toList <+: front → Catalog.ofText cut = .error .endOfText) ∧
      ∀ rest : String,
        ((∀ c ∈ rest.toList, Json.isSpace c = true) → Catalog.ofText (text ++ rest) = .ok catalog) ∧
          ((∃ c ∈ rest.toList, Json.isSpace c = false) →
            Catalog.ofText (text ++ rest) = .error .notJson) := by
  obtain ⟨members, hrun, hdecode⟩ := exists_of_ofText h
  refine ⟨State.exists_closing hrun,
    fun hnumbers front gap htext cut => ofText_cut h hnumbers htext,
    fun rest => ⟨fun hblank => ?_, fun hsolid => ?_⟩⟩
  · rw [Catalog.ofText, Page.ofText, String.toList_append, State.run_append, hrun,
      State.run_complete_blank hblank, State.page, Page.decode, hdecode]
    rfl
  · rw [Catalog.ofText, Page.ofText, String.toList_append, State.run_append, hrun,
      State.run_complete_surplus hsolid, State.page, Page.decode, hdecode]
    rfl

/-- A record in which a cut can fall into an escape, a keyword or a list by position. -/
def damagedText : String :=
  "\x7b\"s\":\x7b\"f\":\x7b\"Notes\":\"\\ud83d\\ude00\",\"x\":[null,\x7b\x7d]," ++
    "\"Parameters\":[[\"n\"]]\x7d\x7d\x7d\n"

/-- The record is cut off between the halves of a surrogate pair, or goes on with a brace. -/
theorem ofText_damaged_sample :
    ∃ catalog, Catalog.ofText damagedText = .ok catalog ∧
      Json.LacksNumbers damagedText.toList ∧
      Catalog.ofText (String.ofList (damagedText.toList.take 28)) = .error .endOfText ∧
      Catalog.ofText (damagedText ++ " \t") = .ok catalog ∧
      Catalog.ofText (damagedText ++ " \x7d") = .error .notJson := by
  have hok : (Catalog.ofText damagedText).isOk = true := by decide +kernel
  cases h : Catalog.ofText damagedText with
  | error fault =>
    rw [h] at hok
    cases hok
  | ok catalog =>
    have hnumbers : Json.LacksNumbers damagedText.toList := by decide +kernel
    have htext : damagedText.toList = damagedText.toList.take 70 ++ '\x7d' :: ['\n'] := by
      decide +kernel
    have hcut : (String.ofList (damagedText.toList.take 28)).toList <+:
        damagedText.toList.take 70 := by
      rw [String.toList_ofList]
      exact List.take_prefix_take_left (by decide)
    obtain ⟨-, hcuts, hrest⟩ := ofText_damaged h
    exact ⟨catalog, rfl, hnumbers, hcuts hnumbers _ _ htext _ hcut,
      (hrest _).1 (List.all_eq_true.1 (by decide +kernel)),
      (hrest _).2 ⟨'\x7d', by decide +kernel, rfl⟩⟩

end Catalog
end DocTree
