/-
# What has been read stays

Whatever follows in a text, the items and members that are read stay where they are.  So what a
text holds in the end has them in front (`State.mayHold_run`), whether it breaks off, stops being
JSON or is read to its end.
-/

import DocTree.Proofs.Json.Reader

namespace DocTree
namespace Json

/-- Whether a value has one of some values where the frames have theirs, after the items and
members that the frames hold.  Anything may follow it. -/
def HasInside : List Frame → (Draft → Prop) → Draft → Prop
  | [], inner => inner
  | .item items :: outer, inner => HasInside outer fun whole =>
    ∃ value more damage?, inner value ∧ whole = .array (items.reverse ++ value :: more) damage?
  | .member members key :: outer, inner => HasInside outer fun whole =>
    ∃ value more damage?, inner value ∧
      whole = .object (members.reverse ++ (key, value) :: more) damage?

namespace HasInside

variable {outer : List Frame} {inner inner' : Draft → Prop}

theorem mono {whole : Draft} (h : HasInside outer inner whole)
    (himp : ∀ value, inner value → inner' value) : HasInside outer inner' whole := by
  induction outer generalizing inner inner' with
  | nil => exact himp whole h
  | cons frame outer ih =>
    cases frame with
    | item items =>
      exact ih h fun _ ⟨value, more, damage?, hvalue, heq⟩ =>
        ⟨value, more, damage?, himp value hvalue, heq⟩
    | member members key =>
      exact ih h fun _ ⟨value, more, damage?, hvalue, heq⟩ =>
        ⟨value, more, damage?, himp value hvalue, heq⟩

/-- An item goes before the rest of its array. -/
theorem more_items {items : List Draft} {whole : Draft}
    (h : HasInside (.item items :: outer) inner whole) :
    HasInside outer (fun value => ∃ more damage?, value = .array (items.reverse ++ more) damage?)
      whole := by
  refine mono h ?_
  rintro _ ⟨value, more, damage?, -, rfl⟩
  exact ⟨value :: more, damage?, rfl⟩

/-- A member goes before the rest of its object. -/
theorem more_members {members : List (StringText × Draft)} {key : StringText} {whole : Draft}
    (h : HasInside (.member members key :: outer) inner whole) :
    HasInside outer (fun value => ∃ more damage?, value = .object (members.reverse ++ more) damage?)
      whole := by
  refine mono h ?_
  rintro _ ⟨value, more, damage?, -, rfl⟩
  exact ⟨(key, value) :: more, damage?, rfl⟩

/-- What breaks off within the frames has them around it. -/
theorem breakOff {value : Draft} (h : inner value) (damage : Damage) (outer : List Frame) :
    HasInside outer inner (Frame.breakOff damage value outer) := by
  induction outer generalizing inner value with
  | nil => exact h
  | cons frame outer ih =>
    cases frame with
    | item items => exact ih ⟨value, [], some damage, h, congrArg (Draft.array · _) (by simp)⟩
    | member members key =>
      exact ih ⟨value, [], some damage, h, congrArg (Draft.object · _) (by simp)⟩

end HasInside

/-- There may be no more items or members. -/
theorem exists_more_items {value : Draft} {items : List Draft} {damage? : Option Damage}
    (h : value = .array items damage?) : ∃ more damage?, value = .array (items ++ more) damage? :=
  ⟨[], damage?, by rw [h, List.append_nil]⟩

theorem exists_more_members {value : Draft} {members : List (StringText × Draft)}
    {damage? : Option Damage} (h : value = .object members damage?) :
    ∃ more damage?, value = .object (members ++ more) damage? :=
  ⟨[], damage?, by rw [h, List.append_nil]⟩

namespace State

/-- Whether a text may hold a value in the end, when the reader is in a state. -/
def MayHold (whole : Draft) : State → Prop
  | expectValue outer | inString _ outer | inNumber _ outer | inKeyword _ _ outer =>
    HasInside outer (fun _ => True) whole
  | firstItem outer =>
    HasInside outer (fun value => ∃ items damage?, value = .array items damage?) whole
  | firstKey outer =>
    HasInside outer (fun value => ∃ members damage?, value = .object members damage?) whole
  | afterItem items outer =>
    HasInside outer (fun value => ∃ more damage?, value = .array (items.reverse ++ more) damage?)
      whole
  | nextKey members outer | inKey _ members outer | afterMember members outer =>
    HasInside outer
      (fun value => ∃ more damage?, value = .object (members.reverse ++ more) damage?) whole
  | afterKey key members outer => HasInside (.member members key :: outer) (fun _ => True) whole
  | complete value => value = whole
  | stopped page => page.value = whole

namespace MayHold

variable {whole value : Draft} {outer : List Frame} {c : Char} {state : State}

theorem of_refuse (h : (refuse value outer).MayHold whole) : HasInside outer (· = value) whole := by
  have heq : Frame.breakOff (.both .notJson) value outer = whole := h
  exact heq ▸ @HasInside.breakOff (· = value) value rfl (.both .notJson) outer

theorem of_deliver (h : (deliver value outer).MayHold whole) :
    HasInside outer (· = value) whole := by
  match outer with
  | [] => exact h.symm
  | .item items :: outer =>
    have hmore : HasInside outer (fun array =>
      ∃ more damage?, array = .array ((value :: items).reverse ++ more) damage?) whole := h
    refine hmore.mono ?_
    rintro _ ⟨more, damage?, rfl⟩
    exact ⟨value, more, damage?, rfl, by simp⟩
  | .member members key :: outer =>
    have hmore : HasInside outer (fun object =>
      ∃ more damage?, object = .object (((key, value) :: members).reverse ++ more) damage?)
        whole := h
    refine hmore.mono ?_
    rintro _ ⟨more, damage?, rfl⟩
    exact ⟨value, more, damage?, rfl, by simp⟩

theorem of_begin (h : (begin c outer).MayHold whole) :
    HasInside outer (fun _ => True) whole := by
  unfold begin at h
  split at h
  case h_7 =>
    split at h
    · exact h
    · exact (of_refuse h).mono fun _ _ => trivial
  all_goals exact HasInside.mono h fun _ _ => trivial

/-- After an item or member there may be more of them. -/
theorem of_follow (h : (state.follow c).MayHold whole) : state.MayHold whole := by
  unfold follow at h
  split at h
  · exact h
  · cases state with
    | afterItem items outer =>
      dsimp only at h
      split at h
      · exact HasInside.more_items h
      · split at h
        · exact (of_deliver h).mono fun _ => exists_more_items
        · exact (of_refuse h).mono fun _ => exists_more_items
    | afterMember members outer =>
      dsimp only at h
      split at h
      · exact h
      · split at h
        · exact (of_deliver h).mono fun _ => exists_more_members
        · exact (of_refuse h).mono fun _ => exists_more_members
    | _ => exact h

theorem of_refuseObject {members : List (StringText × Draft)}
    (h : (refuseObject members outer).MayHold whole) : (nextKey members outer).MayHold whole :=
  (of_refuse h).mono fun _ => exists_more_members

/-- **What a text may hold after a character it may hold before it.** -/
theorem of_step (h : (state.step c).MayHold whole) : state.MayHold whole := by
  cases state with
  | expectValue outer =>
    simp only [step] at h
    split at h
    · exact h
    · exact of_begin h
  | firstItem outer =>
    simp only [step] at h
    split at h
    · exact h
    · split at h
      · exact (of_deliver h).mono fun _ heq => ⟨[], none, heq⟩
      · exact (of_begin h).more_items
  | firstKey outer =>
    simp only [step] at h
    split at h
    · exact h
    · split at h
      · exact h
      · split at h
        · exact (of_deliver h).mono fun _ heq => ⟨[], none, heq⟩
        · exact (of_refuse h).mono fun _ heq => ⟨[], _, heq⟩
  | nextKey members outer =>
    simp only [step] at h
    split at h
    · exact h
    · split at h
      · exact h
      · exact of_refuseObject h
  | inKey text members outer =>
    simp only [step] at h
    split at h
    · exact h
    · exact HasInside.more_members h
    · exact of_refuseObject h
  | afterKey key members outer =>
    simp only [step] at h
    split at h
    · exact h
    · split at h
      · exact h
      · exact HasInside.mono (of_refuse h) fun _ _ => trivial
  | inString text outer =>
    simp only [step] at h
    split at h
    · exact h
    · exact (of_deliver h).mono fun _ _ => trivial
    · exact (of_refuse h).mono fun _ _ => trivial
  | inNumber digits outer =>
    simp only [step] at h
    split at h
    · exact h
    · exact (of_deliver (of_follow h)).mono fun _ _ => trivial
    · exact (of_refuse h).mono fun _ _ => trivial
  | inKeyword rest meaning outer =>
    simp only [step] at h
    split at h
    · exact (of_refuse h).mono fun _ _ => trivial
    · split at h
      · exact (of_refuse h).mono fun _ _ => trivial
      · split at h
        · exact (of_deliver h).mono fun _ _ => trivial
        · exact h
  | afterItem items outer | afterMember members outer | complete value => exact of_follow h
  | stopped page => exact h

end MayHold

/-- What a text holds that ends in a state. -/
theorem mayHold_page (state : State) : state.MayHold state.page.value := by
  cases state with
  | expectValue outer | inString text outer | inKeyword rest meaning outer =>
    exact .breakOff trivial _ outer
  | firstItem outer | firstKey outer => exact .breakOff ⟨[], _, rfl⟩ _ outer
  | afterItem items outer => exact .breakOff (exists_more_items rfl) _ outer
  | nextKey members outer | inKey text members outer | afterMember members outer =>
    exact .breakOff (exists_more_members rfl) _ outer
  | afterKey key members outer => exact .breakOff trivial _ (.member members key :: outer)
  | inNumber digits outer =>
    cases outer with
    | nil => trivial
    | cons frame outer => exact .breakOff trivial _ (frame :: outer)
  | complete value => rfl
  | stopped page => rfl

/-- **What a text holds in the end it may hold all along.** -/
theorem mayHold_run (state : State) (text : List Char) :
    state.MayHold (state.run text).page.value := by
  induction text generalizing state with
  | nil => exact mayHold_page state
  | cons c text ih => exact .of_step (ih (state.step c))

end State
end Json
end DocTree
