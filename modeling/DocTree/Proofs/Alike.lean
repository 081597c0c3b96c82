/-
# Records that are read alike

Of two values one may be read as something that is not what the other is read as, and yet
looks the same in a document (`Docstring.LooksLike`).  If this is so of docstrings, then it is
so of the records around them, because a listing is read from its members one by one
(`Listing.readsAlike_object`), and the documents of these records are the same
(`Catalog.render_eq_of_alike`).
-/

import DocTree.Proofs.Json.Alike
import DocTree.Proofs.Json.Draft
import DocTree.Record
import DocTree.Selection

namespace DocTree

open Json (Draft Fault Page StringText MembersAlike IsCongruence Damage bind_eq_ok_iff)

variable {α : Type} {alike : α → α → Prop}

/-! ### Listings -/

section Entries

variable {entries entries' : List (String × α)}
  (h : List.Forall₂ (MembersAlike alike) entries entries')

include h

theorem forall₂_insertEntry (name : String) {thing thing' : α} (hthing : alike thing thing') :
    List.Forall₂ (MembersAlike alike) (insertEntry name thing entries)
      (insertEntry name thing' entries') := by
  induction h with
  | nil => exact .cons ⟨rfl, hthing⟩ .nil
  | cons hentry hentries ih =>
    rw [insertEntry, insertEntry, ← hentry.1]
    split
    · exact .cons ⟨rfl, hthing⟩ hentries
    · exact .cons hentry ih

/-- A name stands for things that are alike, or for nothing on either side. -/
theorem rel_lookup (name : String) :
    Option.Rel alike (entries.lookup name) (entries'.lookup name) := by
  induction h with
  | nil => exact .none
  | @cons entry entry' _ _ hentry _ ih =>
    obtain ⟨key, thing⟩ := entry
    obtain ⟨key', thing'⟩ := entry'
    obtain ⟨rfl, hthing⟩ := hentry
    cases hname : name == key with
    | true =>
      rw [List.lookup_cons, List.lookup_cons, hname]
      exact .some hthing
    | false =>
      rw [List.lookup_cons, List.lookup_cons, hname]
      exact ih

/-- What cannot tell things from those they are alike to makes the same of both sides. -/
theorem flatMap_eq_of_alike {f : String × α → List Node}
    (hf : ∀ name thing thing', alike thing thing' → f (name, thing) = f (name, thing')) :
    entries.flatMap f = entries'.flatMap f := by
  induction h with
  | nil => rfl
  | @cons entry entry' _ _ hentry _ ih =>
    obtain ⟨name, thing⟩ := entry
    obtain ⟨name', thing'⟩ := entry'
    obtain ⟨rfl, hthing⟩ := hentry
    rw [List.flatMap_cons, List.flatMap_cons, hf name thing thing' hthing, ih]

end Entries

namespace Listing

/-- Whether two listings have things that are alike under the same names, in the same order. -/
def Alike (alike : α → α → Prop) (listing other : Listing α) : Prop :=
  List.Forall₂ (MembersAlike alike) listing.entries other.entries

theorem Alike.refl (h : ∀ thing, alike thing thing) (listing : Listing α) :
    listing.Alike alike listing :=
  List.forall₂_same.2 fun entry _ => ⟨rfl, h entry.2⟩

theorem alike_empty : Alike alike empty empty :=
  List.Forall₂.nil

theorem Alike.insert {listing other : Listing α} (h : listing.Alike alike other) (name : String)
    {thing thing' : α} (hthing : alike thing thing') :
    (listing.insert name thing).Alike alike (other.insert name thing') :=
  forall₂_insertEntry h name hthing

theorem Alike.get? {listing other : Listing α} (h : listing.Alike alike other) (name : String) :
    Option.Rel alike (listing.get? name) (other.get? name) :=
  rel_lookup h name

end Listing

/-! ### Reading -/

/-- Whether one value, if it can be read, is read as something that another value is read as
something alike to. -/
def ReadsAlike (decoder : Draft → Except Fault α) (alike : α → α → Prop)
    (value value' : Draft) : Prop :=
  ∀ thing, decoder value = .ok thing → ∃ thing', decoder value' = .ok thing' ∧ alike thing thing'

section Reading

variable {decoder : Draft → Except Fault α}

theorem ReadsAlike.refl (h : ∀ thing, alike thing thing) (value : Draft) :
    ReadsAlike decoder alike value value :=
  fun thing hthing => ⟨thing, hthing, h thing⟩

/-- Texts that hold values that are read alike are read alike. -/
theorem ReadsAlike.exists_decode {page page' : Page}
    (h : ReadsAlike decoder alike page.value page'.value) (hsurplus : page.surplus = page'.surplus)
    {thing : α} (hread : page.decode decoder = .ok thing) :
    ∃ thing', page'.decode decoder = .ok thing' ∧ alike thing thing' := by
  obtain ⟨hvalue, hall⟩ := Page.decode_eq_ok_iff.1 hread
  obtain ⟨thing', hthing', halike⟩ := h thing hvalue
  exact ⟨thing', Page.decode_eq_ok_iff.2 ⟨hthing', hsurplus ▸ hall⟩, halike⟩

/-- Members that are read alike make listings that are alike. -/
theorem Listing.readMembers_alike {members members' : List (StringText × Draft)}
    (h : List.Forall₂ (MembersAlike (ReadsAlike decoder alike)) members members')
    {listing other result : Listing α} (hlisting : listing.Alike alike other)
    (hread : listing.readMembers decoder members = .ok result) :
    ∃ result', other.readMembers decoder members' = .ok result' ∧ result.Alike alike result' := by
  induction h generalizing listing other with
  | nil =>
    obtain rfl := Except.ok.inj hread
    exact ⟨other, rfl, hlisting⟩
  | @cons member member' _ _ hmember _ ih =>
    obtain ⟨key, value⟩ := member
    obtain ⟨key', value'⟩ := member'
    obtain ⟨rfl, hvalue⟩ := hmember
    rw [readMembers, bind_eq_ok_iff] at hread
    obtain ⟨name, hname, hread⟩ := hread
    obtain ⟨thing, hthing, hrest⟩ := bind_eq_ok_iff.1 hread
    obtain ⟨thing', hthing', halike⟩ := hvalue thing hthing
    obtain ⟨result', hrest', hresult⟩ := ih (hlisting.insert name halike) hrest
    refine ⟨result', ?_, hresult⟩
    rw [readMembers, bind_eq_ok_iff]
    exact ⟨name, hname, bind_eq_ok_iff.2 ⟨thing', hthing', hrest'⟩⟩

/-- **An object of things that are read alike is read alike,** as a listing of them. -/
theorem Listing.readsAlike_object {members members' : List (StringText × Draft)}
    (h : List.Forall₂ (MembersAlike (ReadsAlike decoder alike)) members members')
    (damage? : Option Damage) :
    ReadsAlike (Listing.ofDraft decoder) (Listing.Alike alike) (.object members damage?)
      (.object members' damage?) := by
  intro listing hread
  rw [ofDraft, bind_eq_ok_iff] at hread
  obtain ⟨result, hmembers, hread⟩ := hread
  obtain ⟨_, hintact, heq⟩ := bind_eq_ok_iff.1 hread
  obtain rfl := Except.ok.inj heq
  obtain ⟨result', hmembers', halike⟩ := readMembers_alike h alike_empty hmembers
  refine ⟨result', ?_, halike⟩
  rw [ofDraft, bind_eq_ok_iff]
  exact ⟨result', hmembers', bind_eq_ok_iff.2 ⟨(), hintact, rfl⟩⟩

/-- An object that breaks off is no listing. -/
theorem Listing.ofDraft_damaged_ne_ok {members : List (StringText × Draft)} {damage : Damage}
    {listing : Listing α} :
    Listing.ofDraft decoder (.object members (some damage)) ≠ .ok listing := by
  intro hread
  rw [ofDraft, bind_eq_ok_iff] at hread
  obtain ⟨_, -, hread⟩ := hread
  obtain ⟨_, hintact, -⟩ := bind_eq_ok_iff.1 hread
  cases hintact

/-- An array is no listing. -/
theorem Listing.readsAlike_array (items : List Draft) (damage? : Option Damage) (value : Draft) :
    ReadsAlike (Listing.ofDraft decoder) (Listing.Alike alike) (.array items damage?) value := by
  intro listing hread
  cases hread

/-- Whether two values are read alike where they stand in a record, as catalogs, submodules or
docstrings.  Below a docstring they must be the same. -/
def ReadsAlikeAt (decoder : Draft → Except Fault α) (alike : α → α → Prop) :
    Nat → Draft → Draft → Prop
  | 0 => ReadsAlike (Listing.ofDraft (Listing.ofDraft decoder))
      (Listing.Alike (Listing.Alike alike))
  | 1 => ReadsAlike (Listing.ofDraft decoder) (Listing.Alike alike)
  | 2 => ReadsAlike decoder alike
  | _ + 3 => Eq

/-- Members that are the same are the same list. -/
theorem eq_of_membersAlike {members members' : List (StringText × Draft)}
    (h : List.Forall₂ (MembersAlike Eq) members members') : members = members' := by
  induction h with
  | nil => rfl
  | cons hmember _ ih => rw [Prod.ext hmember.1 hmember.2, ih]

/-- **Values in records that are read alike make records that are read alike.** -/
theorem isCongruence_readsAlikeAt (hrefl : ∀ thing, alike thing thing) :
    IsCongruence (ReadsAlikeAt decoder alike) where
  refl depth value := by
    match depth with
    | 0 => exact .refl (Listing.Alike.refl (Listing.Alike.refl hrefl)) value
    | 1 => exact .refl (Listing.Alike.refl hrefl) value
    | 2 => exact .refl hrefl value
    | _ + 3 => rfl
  array {depth items items'} damage? h := by
    match depth with
    | 0 | 1 => exact Listing.readsAlike_array items damage? _
    | 2 =>
      obtain rfl : items = items' := List.forall₂_eq_eq_eq ▸ h
      exact .refl hrefl _
    | _ + 3 =>
      obtain rfl : items = items' := List.forall₂_eq_eq_eq ▸ h
      rfl
  object {depth members members'} damage? h := by
    match depth with
    | 0 | 1 => exact Listing.readsAlike_object h damage?
    | 2 =>
      obtain rfl := eq_of_membersAlike h
      exact .refl hrefl _
    | _ + 3 =>
      obtain rfl := eq_of_membersAlike h
      rfl

end Reading

/-! ### Rendering -/

section Rendering

variable {parse : ProseParser}

/-- Whether two docstrings look the same as that of any function, in any context. -/
def Docstring.LooksLike (parse : ProseParser) (doc other : Docstring) : Prop :=
  ∀ name ctx, doc.render name parse ctx = other.render name parse ctx

theorem Docstring.looksLike_of_renderSection {doc other : Docstring}
    (h : ∀ name ctx part, doc.renderSection name parse ctx part =
      other.renderSection name parse ctx part) : doc.LooksLike parse other := by
  intro name ctx
  have hsections : doc.renderSection name parse ctx = other.renderSection name parse ctx :=
    funext (h name ctx)
  rw [render, render, hsections]

theorem renderSubmodule_eq_of_alike {functions other : Submodule}
    (h : functions.Alike (Docstring.LooksLike parse) other) (name : String) (ctx : Context) :
    renderSubmodule name functions parse ctx = renderSubmodule name other parse ctx := by
  rw [renderSubmodule, renderSubmodule,
    flatMap_eq_of_alike h fun name doc doc' hdoc => hdoc name _]

/-- **Catalogs of functions that look alike make the same document,** whatever is selected. -/
theorem Catalog.render_eq_of_alike {catalog other : Catalog}
    (h : catalog.Alike (Listing.Alike (Docstring.LooksLike parse)) other)
    (target? : Option String) (ctx : Context) :
    catalog.render target? parse ctx = other.render target? parse ctx := by
  have hwhole : renderCatalog catalog parse ctx = renderCatalog other parse ctx :=
    flatMap_eq_of_alike h fun name functions functions' hfunctions =>
      renderSubmodule_eq_of_alike hfunctions name ctx
  rw [Catalog.render, Catalog.render, select, select]
  generalize Text.split '.' (target?.getD "").toList = components
  cases Text.part? components 0 with
  | none => exact hwhole
  | some submodule =>
    have hsubmodule := h.get? submodule
    dsimp only
    generalize catalog.get? submodule = functions? at hsubmodule ⊢
    generalize other.get? submodule = functions'? at hsubmodule ⊢
    cases hsubmodule with
    | none => exact hwhole
    | @some functions functions' hfunctions =>
      cases Text.part? components 1 with
      | none => exact renderSubmodule_eq_of_alike hfunctions submodule ctx
      | some name =>
        have hfunction := hfunctions.get? name
        dsimp only [Option.bind_some]
        generalize functions.get? name = doc? at hfunction ⊢
        generalize functions'.get? name = doc'? at hfunction ⊢
        cases hfunction with
        | none => exact renderSubmodule_eq_of_alike hfunctions submodule ctx
        | some hdoc => exact hdoc name _

end Rendering

end DocTree
