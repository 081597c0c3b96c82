/-
# Reading on

The reader never looks at a value that it has read already.  So if two states differ in such
values only (`State.Alike`), they still do after any text (`State.Alike.run`), and the pages
they end in differ there only (`State.Alike.page`).

In what way the values differ does not matter, as long as an array or object of values that
differ in this way does so too (`IsCongruence`).  It may depend on how many arrays and objects
are open around them.
-/

import DocTree.Proofs.Json.Reader
import Mathlib.Data.List.Forall2

namespace DocTree
namespace Json

/-- Whether two members have the same key, and related values. -/
def MembersAlike {κ α : Type} (r : α → α → Prop) (member member' : κ × α) : Prop :=
  member.1 = member'.1 ∧ r member.2 member'.2

/-- Whether a relation of values, for each number of arrays and objects that are open around
them, goes from what is in an array or object to the whole. -/
structure IsCongruence (R : Nat → Draft → Draft → Prop) : Prop where
  refl (depth : Nat) (value : Draft) : R depth value value
  array {depth : Nat} {items items' : List Draft} (damage? : Option Damage)
    (h : List.Forall₂ (R (depth + 1)) items items') :
    R depth (.array items damage?) (.array items' damage?)
  object {depth : Nat} {members members' : List (StringText × Draft)} (damage? : Option Damage)
    (h : List.Forall₂ (MembersAlike (R (depth + 1))) members members') :
    R depth (.object members damage?) (.object members' damage?)

variable {R : Nat → Draft → Draft → Prop}

/-- Whether two stacks of open arrays and objects differ only in the values in them. -/
inductive FramesAlike (R : Nat → Draft → Draft → Prop) : List Frame → List Frame → Prop
  | nil : FramesAlike R [] []
  | item {items items' : List Draft} {outer outer' : List Frame}
    (hitems : List.Forall₂ (R (outer.length + 1)) items items') (h : FramesAlike R outer outer') :
    FramesAlike R (.item items :: outer) (.item items' :: outer')
  | member {members members' : List (StringText × Draft)} {outer outer' : List Frame}
    (key : StringText)
    (hmembers : List.Forall₂ (MembersAlike (R (outer.length + 1))) members members')
    (h : FramesAlike R outer outer') :
    FramesAlike R (.member members key :: outer) (.member members' key :: outer')

namespace IsCongruence

variable (hR : IsCongruence R)

include hR

theorem forall₂_refl (depth : Nat) (items : List Draft) :
    List.Forall₂ (R depth) items items :=
  List.forall₂_same.2 fun value _ => hR.refl depth value

theorem members_refl (depth : Nat) (members : List (StringText × Draft)) :
    List.Forall₂ (MembersAlike (R depth)) members members :=
  List.forall₂_same.2 fun member _ => ⟨rfl, hR.refl depth member.2⟩

theorem frames_refl (outer : List Frame) : FramesAlike R outer outer := by
  induction outer with
  | nil => exact .nil
  | cons frame outer ih =>
    cases frame with
    | item items => exact .item (hR.forall₂_refl _ items) ih
    | member members key => exact .member key (hR.members_refl _ members) ih

/-- What breaks off within related values is related as a whole. -/
theorem breakOff {outer outer' : List Frame} (h : FramesAlike R outer outer') (damage : Damage)
    {value value' : Draft} (hvalue : R outer.length value value') :
    R 0 (Frame.breakOff damage value outer) (Frame.breakOff damage value' outer') := by
  induction h generalizing value value' with
  | nil => exact hvalue
  | item hitems _ ih =>
    exact ih (hR.array _ (List.forall₂_reverse_iff.2 (.cons hvalue hitems)))
  | member key hmembers _ ih =>
    exact ih (hR.object _ (List.forall₂_reverse_iff.2 (.cons ⟨rfl, hvalue⟩ hmembers)))

end IsCongruence

namespace State

/-- Whether two states of the reader differ only in values that have been read. -/
inductive Alike (R : Nat → Draft → Draft → Prop) : State → State → Prop
  | expectValue {outer outer' : List Frame} (h : FramesAlike R outer outer') :
    Alike R (.expectValue outer) (.expectValue outer')
  | firstItem {outer outer' : List Frame} (h : FramesAlike R outer outer') :
    Alike R (.firstItem outer) (.firstItem outer')
  | afterItem {items items' : List Draft} {outer outer' : List Frame}
    (hitems : List.Forall₂ (R (outer.length + 1)) items items') (h : FramesAlike R outer outer') :
    Alike R (.afterItem items outer) (.afterItem items' outer')
  | firstKey {outer outer' : List Frame} (h : FramesAlike R outer outer') :
    Alike R (.firstKey outer) (.firstKey outer')
  | nextKey {members members' : List (StringText × Draft)} {outer outer' : List Frame}
    (hmembers : List.Forall₂ (MembersAlike (R (outer.length + 1))) members members')
    (h : FramesAlike R outer outer') :
    Alike R (.nextKey members outer) (.nextKey members' outer')
  | inKey (text : Quoted) {members members' : List (StringText × Draft)}
    {outer outer' : List Frame}
    (hmembers : List.Forall₂ (MembersAlike (R (outer.length + 1))) members members')
    (h : FramesAlike R outer outer') :
    Alike R (.inKey text members outer) (.inKey text members' outer')
  | afterKey (key : StringText) {members members' : List (StringText × Draft)}
    {outer outer' : List Frame}
    (hmembers : List.Forall₂ (MembersAlike (R (outer.length + 1))) members members')
    (h : FramesAlike R outer outer') :
    Alike R (.afterKey key members outer) (.afterKey key members' outer')
  | afterMember {members members' : List (StringText × Draft)} {outer outer' : List Frame}
    (hmembers : List.Forall₂ (MembersAlike (R (outer.length + 1))) members members')
    (h : FramesAlike R outer outer') :
    Alike R (.afterMember members outer) (.afterMember members' outer')
  | inString (text : Quoted) {outer outer' : List Frame} (h : FramesAlike R outer outer') :
    Alike R (.inString text outer) (.inString text outer')
  | inNumber (digits : Digits) {outer outer' : List Frame} (h : FramesAlike R outer outer') :
    Alike R (.inNumber digits outer) (.inNumber digits outer')
  | inKeyword (rest : List Char) (meaning : Draft) {outer outer' : List Frame}
    (h : FramesAlike R outer outer') :
    Alike R (.inKeyword rest meaning outer) (.inKeyword rest meaning outer')
  | complete {value value' : Draft} (h : R 0 value value') :
    Alike R (.complete value) (.complete value')
  | stopped {value value' : Draft} (surplus : Bool) (h : R 0 value value') :
    Alike R (.stopped { value, surplus }) (.stopped { value := value', surplus })

namespace Alike

variable (hR : IsCongruence R)

include hR

theorem refuse {outer outer' : List Frame} (h : FramesAlike R outer outer') {value value' : Draft}
    (hvalue : R outer.length value value') :
    Alike R (State.refuse value outer) (State.refuse value' outer') :=
  .stopped false (hR.breakOff h _ hvalue)

theorem refuseValue {outer outer' : List Frame} (h : FramesAlike R outer outer') :
    Alike R (State.refuseValue outer) (State.refuseValue outer') :=
  refuse hR h (hR.refl _ _)

theorem refuseArray {outer outer' : List Frame} (h : FramesAlike R outer outer')
    {items items' : List Draft} (hitems : List.Forall₂ (R (outer.length + 1)) items items') :
    Alike R (State.refuseArray items outer) (State.refuseArray items' outer') :=
  refuse hR h (hR.array _ (List.forall₂_reverse_iff.2 hitems))

theorem refuseObject {outer outer' : List Frame} (h : FramesAlike R outer outer')
    {members members' : List (StringText × Draft)}
    (hmembers : List.Forall₂ (MembersAlike (R (outer.length + 1))) members members') :
    Alike R (State.refuseObject members outer) (State.refuseObject members' outer') :=
  refuse hR h (hR.object _ (List.forall₂_reverse_iff.2 hmembers))

omit hR in
theorem deliver {outer outer' : List Frame} (h : FramesAlike R outer outer') {value value' : Draft}
    (hvalue : R outer.length value value') :
    Alike R (State.deliver value outer) (State.deliver value' outer') := by
  cases h with
  | nil => exact .complete hvalue
  | item hitems h => exact .afterItem (.cons hvalue hitems) h
  | member key hmembers h => exact .afterMember (.cons ⟨rfl, hvalue⟩ hmembers) h

theorem begin (c : Char) {outer outer' : List Frame} (h : FramesAlike R outer outer') :
    Alike R (State.begin c outer) (State.begin c outer') := by
  unfold State.begin
  split
  · exact .inString {} h
  · exact .firstItem h
  · exact .firstKey h
  · exact .inKeyword _ _ h
  · exact .inKeyword _ _ h
  · exact .inKeyword _ _ h
  · split
    · exact .inNumber _ h
    · exact refuseValue hR h

variable {state state' : State}

theorem follow (h : Alike R state state') (c : Char) :
    Alike R (state.follow c) (state'.follow c) := by
  unfold State.follow
  split
  · exact h
  · cases h with
    | afterItem hitems h =>
      dsimp only
      split
      · exact .expectValue (.item hitems h)
      · split
        · exact deliver h (hR.array none (List.forall₂_reverse_iff.2 hitems))
        · exact refuseArray hR h hitems
    | afterMember hmembers h =>
      dsimp only
      split
      · exact .nextKey hmembers h
      · split
        · exact deliver h (hR.object none (List.forall₂_reverse_iff.2 hmembers))
        · exact refuseObject hR h hmembers
    | complete h => exact .stopped true h
    | _ => constructor <;> assumption

/-- **A character keeps states alike.** -/
theorem step (h : Alike R state state') (c : Char) : Alike R (state.step c) (state'.step c) := by
  cases h with
  | expectValue h =>
    simp only [State.step]
    split
    · exact .expectValue h
    · exact begin hR c h
  | firstItem h =>
    simp only [State.step]
    split
    · exact .firstItem h
    · split
      · exact deliver h (hR.refl _ _)
      · exact begin hR c (.item .nil h)
  | firstKey h =>
    simp only [State.step]
    split
    · exact .firstKey h
    · split
      · exact .inKey {} .nil h
      · split
        · exact deliver h (hR.refl _ _)
        · exact refuseObject hR h .nil
  | nextKey hmembers h =>
    simp only [State.step]
    split
    · exact .nextKey hmembers h
    · split
      · exact .inKey {} hmembers h
      · exact refuseObject hR h hmembers
  | inKey text hmembers h =>
    simp only [State.step]
    split
    · exact .inKey _ hmembers h
    · exact .afterKey _ hmembers h
    · exact refuseObject hR h hmembers
  | afterKey key hmembers h =>
    simp only [State.step]
    split
    · exact .afterKey key hmembers h
    · split
      · exact .expectValue (.member key hmembers h)
      · exact refuseValue hR (.member key hmembers h)
  | inString text h =>
    simp only [State.step]
    split
    · exact .inString _ h
    · exact deliver h (hR.refl _ _)
    · exact refuseValue hR h
  | inNumber digits h =>
    simp only [State.step]
    split
    · exact .inNumber _ h
    · exact follow hR (deliver h (hR.refl _ _)) c
    · exact refuseValue hR h
  | inKeyword rest meaning h =>
    simp only [State.step]
    split
    · exact refuseValue hR h
    · split
      · exact refuseValue hR h
      · split
        · exact deliver h (hR.refl _ _)
        · exact .inKeyword _ meaning h
  | afterItem hitems h => exact follow hR (.afterItem hitems h) c
  | afterMember hmembers h => exact follow hR (.afterMember hmembers h) c
  | complete h => exact follow hR (.complete h) c
  | stopped surplus h => exact .stopped surplus h

/-- **A text keeps states alike.** -/
theorem run (h : Alike R state state') (text : List Char) :
    Alike R (state.run text) (state'.run text) := by
  induction text generalizing state state' with
  | nil => exact h
  | cons c text ih => exact ih (h.step hR c)

/-- **Texts that end in states that are alike hold values that are related.** -/
theorem page (h : Alike R state state') :
    R 0 state.page.value state'.page.value ∧ state.page.surplus = state'.page.surplus := by
  cases h with
  | expectValue h | firstItem h | firstKey h | inString text h | inKeyword rest meaning h =>
    exact ⟨hR.breakOff h _ (hR.refl _ _), rfl⟩
  | afterItem hitems h =>
    exact ⟨hR.breakOff h _ (hR.array _ (List.forall₂_reverse_iff.2 hitems)), rfl⟩
  | nextKey hmembers h | inKey text hmembers h | afterMember hmembers h =>
    exact ⟨hR.breakOff h _ (hR.object _ (List.forall₂_reverse_iff.2 hmembers)), rfl⟩
  | afterKey key hmembers h => exact ⟨hR.breakOff (.member key hmembers h) _ (hR.refl _ _), rfl⟩
  | inNumber digits h =>
    cases h with
    | nil => exact ⟨hR.refl _ _, rfl⟩
    | item hitems h => exact ⟨hR.breakOff (.item hitems h) _ (hR.refl _ _), rfl⟩
    | member key hmembers h => exact ⟨hR.breakOff (.member key hmembers h) _ (hR.refl _ _), rfl⟩
  | complete h => exact ⟨h, rfl⟩
  | stopped surplus h => exact ⟨h, rfl⟩

end Alike
end State

/-- **A value can be replaced by a related one,** and what the text holds stays related. -/
theorem Page.ofText_alike (hR : IsCongruence R) {front text text' : List Char}
    {outer : List Frame} {value value' : Draft}
    (hfront : State.run (.expectValue []) front = .expectValue outer)
    (htext : State.run (.expectValue outer) text = State.deliver value outer)
    (htext' : State.run (.expectValue outer) text' = State.deliver value' outer)
    (h : R outer.length value value') (rest : List Char) :
    R 0 (Page.ofText (front ++ (text ++ rest))).value
        (Page.ofText (front ++ (text' ++ rest))).value ∧
      (Page.ofText (front ++ (text ++ rest))).surplus =
        (Page.ofText (front ++ (text' ++ rest))).surplus := by
  have hdelivered := State.Alike.deliver (hR.frames_refl outer) h
  have hpages := (hdelivered.run hR rest).page hR
  rw [Page.ofText, Page.ofText, State.run_append, State.run_append _ front, hfront,
    State.run_append, State.run_append _ text', htext, htext']
  exact hpages

end Json
end DocTree
