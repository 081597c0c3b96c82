/-
# Names that come again in a record

An object of a record may have members of one name.  The name stands where it comes first and for
what it is given last (`Listing.entries_ofMembers`), and nothing is merged; so it is with the
submodules of a record and with the functions of each (`Catalog.ofText_repeated`).
-/

import DocTree.Proofs.Anchor
import DocTree.Proofs.Json.Object
import DocTree.Proofs.Listing
import DocTree.Proofs.Record
import Mathlib.Data.List.Induction

namespace DocTree

open Json (Draft Fault Page State StringText IsMemberText isSpace keepText objectText nestingLimit
  quote memberText compactText_object isMemberText_memberText)

variable {α β : Type}

/-! ### Listings from members -/

/-- The members of an object with the last thing under each name, in the order in which the names
come first. -/
def settled (members : List (String × α)) : List (String × α) :=
  (members.map Prod.fst).eraseDups.filterMap fun name =>
    (members.reverse.lookup name).map (name, ·)

/-- Whether a thing is the last under its name among some members. -/
def IsLast (name : String) (thing : α) (members : List (String × α)) : Prop :=
  ∃ before after, members = before ++ (name, thing) :: after ∧ name ∉ after.map Prod.fst

theorem lookup_reverse_eq_some_iff {members : List (String × α)} {name : String} {thing : α} :
    members.reverse.lookup name = some thing ↔ IsLast name thing members := by
  rw [List.lookup_eq_some_iff]
  constructor
  · rintro ⟨after, before, h, hafter⟩
    refine ⟨before.reverse, after.reverse, by simpa using congrArg List.reverse h, ?_⟩
    rw [List.map_reverse, List.mem_reverse]
    rintro hmem
    obtain ⟨member, hmember, rfl⟩ := List.mem_map.1 hmem
    simpa using hafter member hmember
  · rintro ⟨before, after, rfl, hafter⟩
    refine ⟨after.reverse, before.reverse, by simp, fun member hmember => ?_⟩
    rw [bne_iff_ne]
    rintro rfl
    exact hafter (List.mem_map_of_mem (List.mem_reverse.1 hmember))

theorem isLast_of_mem_settled {members : List (String × α)} {name : String} {thing : α}
    (h : (name, thing) ∈ settled members) : IsLast name thing members := by
  obtain ⟨_, -, hentry⟩ := List.mem_filterMap.1 h
  obtain ⟨_, hlookup, ⟨⟩⟩ := Option.map_eq_some_iff.1 hentry
  exact lookup_reverse_eq_some_iff.1 hlookup

theorem lookup_map_snd (f : α → β) (members : List (String × α)) (name : String) :
    (members.map fun member => (member.1, f member.2)).lookup name =
      (members.lookup name).map f := by
  induction members with
  | nil => rfl
  | cons member members ih =>
    rw [List.map_cons, List.lookup_cons, List.lookup_cons]
    split
    · rfl
    · exact ih

theorem settled_map (f : α → β) (members : List (String × α)) :
    settled (members.map fun member => (member.1, f member.2)) =
      (settled members).map fun member => (member.1, f member.2) := by
  rw [settled, settled, List.map_filterMap, List.map_map, ← List.map_reverse]
  simp only [lookup_map_snd, Option.map_map]
  rfl

namespace Listing

/-- The listing of some members, put in one after the other. -/
def ofMembers (members : List (String × α)) : Listing α :=
  members.foldl (fun listing member => listing.insert member.1 member.2) empty

theorem ofMembers_concat (members : List (String × α)) (member : String × α) :
    ofMembers (members ++ [member]) = (ofMembers members).insert member.1 member.2 := by
  rw [ofMembers, List.foldl_concat, ofMembers]

/-- **Names are listed in the order in which they come first.** -/
theorem names_ofMembers (members : List (String × α)) :
    (ofMembers members).names = (members.map Prod.fst).eraseDups := by
  induction members using List.reverseRecOn with
  | nil => rfl
  | append_singleton members member ih =>
    have hnew : [member.1].eraseDups = [member.1] := rfl
    rw [ofMembers_concat, names_insert, ih, List.map_append, List.eraseDups_append]
    by_cases h : member.1 ∈ members.map Prod.fst <;> simp [h, List.removeAll, hnew]

/-- **A name stands for the last thing that it is given.** -/
theorem get?_ofMembers (members : List (String × α)) (name : String) :
    (ofMembers members).get? name = members.reverse.lookup name := by
  induction members using List.reverseRecOn with
  | nil => rfl
  | append_singleton members member ih =>
    rw [ofMembers_concat, get?_insert, ih, List.reverse_concat, lookup_cons_eq]

theorem entries_eq_filterMap (listing : Listing α) :
    listing.entries = listing.names.filterMap fun name => (listing.get? name).map (name, ·) := by
  rw [names, List.filterMap_map]
  conv => lhs; rw [← List.filterMap_some (l := listing.entries)]
  refine List.filterMap_congr fun entry hentry => ?_
  have hget : listing.get? entry.1 = some entry.2 := get?_eq_some_iff.2 hentry
  rw [Function.comp_apply, hget]
  rfl

theorem entries_ofMembers (members : List (String × α)) :
    (ofMembers members).entries = settled members := by
  rw [entries_eq_filterMap, names_ofMembers, settled]
  simp only [get?_ofMembers]

end Listing

/-! ### Objects of members -/

namespace Json

/-- Whether a text is that of a member whose value is read as a thing. -/
def IsEntryText (decoder : Draft → Except Fault α) (entry : String × α) (text : List Char) : Prop :=
  ∃ value, IsMemberText (some entry.1, value) text ∧ decoder value = .ok entry.2

theorem exists_members_of_isEntryText {decoder : Draft → Except Fault α}
    {entries : List (String × α)} {texts : List (List Char)}
    (h : List.Forall₂ (IsEntryText decoder) entries texts) :
    ∃ members, List.Forall₂ IsMemberText members texts ∧
      ∀ listing : Listing α, listing.readMembers decoder members =
        .ok (entries.foldl (fun listing entry => listing.insert entry.1 entry.2) listing) := by
  induction h with
  | nil => exact ⟨[], .nil, fun _ => rfl⟩
  | @cons entry text entries texts hentry _ ih =>
    obtain ⟨value, hmember, hvalue⟩ := hentry
    obtain ⟨members, hmembers, hread⟩ := ih
    refine ⟨(some entry.1, value) :: members, .cons hmember hmembers, fun listing => ?_⟩
    rw [Listing.readMembers, hvalue]
    exact hread _

/-- **An object of members is read as their listing.** -/
theorem IsObjectText.exists_value {decoder : Draft → Except Fault α} {entries : List (String × α)}
    {text : List Char} (h : IsObjectText (IsEntryText decoder) entries text) :
    ∃ value, (∀ outer, State.run (.expectValue outer) text = State.deliver value outer) ∧
      Listing.ofDraft decoder value = .ok (.ofMembers entries) := by
  obtain ⟨gap, texts, hgap, hentries, rfl⟩ := h
  obtain ⟨members, hmembers, hread⟩ := exists_members_of_isEntryText hentries
  refine ⟨.object members none, State.run_objectText hgap hmembers, ?_⟩
  rw [Listing.ofDraft, hread]
  rfl

end Json

open Json (IsObjectText IsKeyText IsEntryText)

/-! ### Records -/

/-- Whether a text is that of a member that gives a function its docstring. -/
abbrev IsFunctionText : String × Docstring → List Char → Prop :=
  IsEntryText (Docstring.ofDraft (nestingLimit - 3))

/-- Whether a text is that of a member that gives a submodule an object of functions. -/
def IsSubmoduleText (submodule : String × List (String × Docstring)) (text : List Char) : Prop :=
  ∃ key object after, IsKeyText submodule.1 key ∧ IsObjectText IsFunctionText submodule.2 object ∧
    (∀ c ∈ after, isSpace c = true) ∧ text = key ++ (object ++ after)

/-- Whether a text is a record, an object of submodules. -/
def IsRecordText (submodules : List (String × List (String × Docstring))) (text : List Char) :
    Prop :=
  ∃ before object after, (∀ c ∈ before, isSpace c = true) ∧ (∀ c ∈ after, isSpace c = true) ∧
    IsObjectText IsSubmoduleText submodules object ∧ text = before ++ (object ++ after)

/-- The member of a submodule is read as the listing of its functions. -/
theorem IsSubmoduleText.isEntryText {submodule : String × List (String × Docstring)}
    {text : List Char} (h : IsSubmoduleText submodule text) :
    IsEntryText (Listing.ofDraft (Docstring.ofDraft (nestingLimit - 3)))
      (submodule.1, Listing.ofMembers submodule.2) text := by
  obtain ⟨key, object, after, hkey, hobject, hafter, rfl⟩ := h
  obtain ⟨value, hrun, hread⟩ := hobject.exists_value
  refine ⟨value, fun members outer => ?_, hread⟩
  rw [State.run_append, hkey, State.run_append, hrun]
  exact (State.IsAfter.delivered value).run_gap hafter

/-- The catalog of a record: each submodule with the functions it is given last. -/
def Catalog.ofMembers (submodules : List (String × List (String × Docstring))) : Catalog :=
  Listing.ofMembers (submodules.map fun submodule => (submodule.1, Listing.ofMembers submodule.2))

theorem Catalog.ofText_isRecordText {submodules : List (String × List (String × Docstring))}
    {text : String} (h : IsRecordText submodules text.toList) :
    Catalog.ofText text = .ok (Catalog.ofMembers submodules) := by
  obtain ⟨before, object, after, hbefore, hafter, ⟨gap, texts, hgap, hmembers, rfl⟩, htext⟩ := h
  have hentries : List.Forall₂
      (IsEntryText (Listing.ofDraft (Docstring.ofDraft (nestingLimit - 3))))
      (submodules.map fun submodule => (submodule.1, Listing.ofMembers submodule.2)) texts :=
    List.forall₂_map_left_iff.2 (hmembers.imp fun _ _ => IsSubmoduleText.isEntryText)
  obtain ⟨value, hrun, hread⟩ := IsObjectText.exists_value ⟨gap, texts, hgap, hentries, rfl⟩
  have hpage : Page.ofText text.toList = { value } := by
    rw [Page.ofText, htext, State.run_append, State.run_gap (.expectValue []) rfl hbefore,
      State.run_append, hrun]
    exact ((State.IsAfter.delivered value).run_gap hafter).page
  rw [Catalog.ofText, hpage, Page.decode, hread]
  rfl

/-- Each submodule is rendered once, and each of its functions once, with what comes last. -/
theorem renderCatalog_ofMembers (submodules : List (String × List (String × Docstring)))
    (parse : ProseParser) (ctx : Context) :
    renderCatalog (Catalog.ofMembers submodules) parse ctx =
      (settled submodules).flatMap fun (s, members) =>
        .target (label ctx.module? (some s) none) :: .titled ctx.depth s ::
          (settled members).flatMap fun (f, doc) => doc.render f parse (ctx.amongFunctions s) := by
  rw [renderCatalog, Catalog.ofMembers, Listing.entries_ofMembers, settled_map, List.flatMap_map]
  simp only [renderSubmodule, Listing.entries_ofMembers]
  rfl

/-- **Names that come again leave one submodule or function each,** in the place of the first and
with what is given last.  Whatever names come again in a record, and however often, it loads; its
submodules are those that are named, in the order in which the names come first; each has the
functions of the last member of its name and no others, listed in the same way; and so they are
rendered, each of them once. -/
theorem Catalog.ofText_repeated {submodules : List (String × List (String × Docstring))}
    {text : String} (h : IsRecordText submodules text.toList) :
    ∃ catalog, Catalog.ofText text = .ok catalog ∧
      (∀ (tree : FileTree) (path : String), tree.read? path = some text.toUTF8 →
        (load FileTree.disk path).run tree = (.ok catalog, tree)) ∧
      catalog.names = (submodules.map Prod.fst).eraseDups ∧
      (∀ s functions, (s, functions) ∈ catalog.entries → ∃ members,
        IsLast s members submodules ∧ functions.names = (members.map Prod.fst).eraseDups ∧
          ∀ f doc, (f, doc) ∈ functions.entries → IsLast f doc members) ∧
      ∀ parse ctx, renderCatalog catalog parse ctx =
        (settled submodules).flatMap fun (s, members) =>
          .target (label ctx.module? (some s) none) :: .titled ctx.depth s ::
            (settled members).flatMap fun (f, doc) =>
              doc.render f parse (ctx.amongFunctions s) := by
  have htext := ofText_isRecordText h
  refine ⟨ofMembers submodules, htext, fun tree path hfile => ?_, ?_, fun s functions hmem => ?_,
    renderCatalog_ofMembers submodules⟩
  · rw [load_toUTF8 hfile, htext]
    rfl
  · rw [ofMembers, Listing.names_ofMembers, List.map_map]
    rfl
  · rw [ofMembers, Listing.entries_ofMembers, settled_map] at hmem
    obtain ⟨⟨_, members⟩, hsubmodule, ⟨⟩⟩ := List.mem_map.1 hmem
    refine ⟨members, isLast_of_mem_settled hsubmodule, Listing.names_ofMembers members,
      fun f doc hfunction => ?_⟩
    rw [Listing.entries_ofMembers] at hfunction
    exact isLast_of_mem_settled hfunction

/-! ### Records on one line -/

/-- Whether a member is written for a function with its docstring. -/
def WritesFunction (function : String × Docstring) (member : String × Json) : Prop :=
  member.1 = function.1 ∧ member.2.IsGrammatical ∧
    Docstring.ofDraft (nestingLimit - 3) member.2.draft = .ok function.2

/-- Whether some members are written for a submodule with its functions. -/
def WritesSubmodule (submodule : String × List (String × Docstring))
    (member : String × List (String × Json)) : Prop :=
  member.1 = submodule.1 ∧ List.Forall₂ WritesFunction submodule.2 member.2

theorem isSubmoduleText_memberText {submodule : String × List (String × Docstring)}
    {member : String × List (String × Json)} (h : WritesSubmodule submodule member) :
    IsSubmoduleText submodule (memberText (member.1, .object member.2)) := by
  obtain ⟨hname, hfunctions⟩ := h
  have htexts : List.Forall₂ IsFunctionText submodule.2 (member.2.map memberText) := by
    refine List.forall₂_map_right_iff.2 (hfunctions.imp fun function written hwritten => ?_)
    obtain ⟨hfunction, hnumbers, hread⟩ := hwritten
    exact ⟨_, hfunction ▸ isMemberText_memberText written.1 hnumbers, hread⟩
  refine ⟨quote member.1 ++ [':'], (Json.object member.2).compactText, [],
    hname ▸ Json.isKeyText_quote member.1, ⟨[], _, List.forall_mem_nil _, htexts,
      compactText_object member.2⟩, List.forall_mem_nil _, ?_⟩
  simp [memberText]

/-- A record on one line is an object of its submodules, repeated ones included. -/
theorem isRecordText_compact {submodules : List (String × List (String × Docstring))}
    {members : List (String × List (String × Json))}
    (h : List.Forall₂ WritesSubmodule submodules members) :
    IsRecordText submodules
      (Json.object (members.map fun member => (member.1, .object member.2))).compactText := by
  have htexts : List.Forall₂ IsSubmoduleText submodules
      ((members.map fun member => (member.1, Json.object member.2)).map memberText) := by
    rw [List.map_map]
    exact List.forall₂_map_right_iff.2 (h.imp fun _ _ => isSubmoduleText_memberText)
  exact ⟨[], _, [], List.forall_mem_nil _, List.forall_mem_nil _,
    ⟨[], _, List.forall_mem_nil _, htexts, compactText_object _⟩, (List.append_nil _).symm⟩

/-- A record that names a submodule again, and a function of it again. -/
theorem Catalog.ofText_repeated_sample :
    let record : Json := .object [
      ("io", .object [("read", .object [("Notes", .string "Slow.")])]),
      ("os", .object []),
      ("io", .object [("write", .object []), ("read", .object []),
        ("write", .object [("Notes", .string "Fast.")])])]
    ∃ catalog, Catalog.ofText record.compact = .ok catalog ∧ catalog.names = ["io", "os"] ∧
      renderCatalog catalog (fun source => { children := [.text source] }) {} = [
        .target "io", .titled 1 "io",
        .target "io.write", .titled 2 "write", .titled 3 "Notes", .text "Fast.",
        .target "io.read", .titled 2 "read", .target "os", .titled 1 "os"] := by
  intro record
  let submodules : List (String × List (String × Docstring)) := [
    ("io", [("read", { notes := some "Slow." })]), ("os", []),
    ("io", [("write", {}), ("read", {}), ("write", { notes := some "Fast." })])]
  have hwrites : List.Forall₂ WritesSubmodule submodules [
      ("io", [("read", .object [("Notes", .string "Slow.")])]), ("os", []),
      ("io", [("write", .object []), ("read", .object []),
        ("write", .object [("Notes", .string "Fast.")])])] :=
    .cons ⟨rfl, .cons ⟨rfl, by decide, rfl⟩ .nil⟩ (.cons ⟨rfl, .nil⟩ (.cons ⟨rfl,
      .cons ⟨rfl, by decide, rfl⟩ (.cons ⟨rfl, by decide, rfl⟩
        (.cons ⟨rfl, by decide, rfl⟩ .nil))⟩ .nil))
  have htext : IsRecordText submodules record.compact.toList := by
    rw [Json.compact, String.toList_ofList]
    exact isRecordText_compact hwrites
  obtain ⟨catalog, hload, -, hnames, -, hrender⟩ := ofText_repeated htext
  exact ⟨catalog, hload, hnames, (hrender _ _).trans rfl⟩

end DocTree
