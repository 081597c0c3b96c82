/-
# Where a value ends

A value that is complete stays so through white space, and whatever else follows it is too much
(`State.run_complete_surplus`).  A page that holds a closed object and nothing else has been
read to such an end (`State.eq_complete_of_page`), and then the text ends with the brace that
closes the object, but for white space (`State.exists_closing`).
-/

import DocTree.Proofs.Json.Object
import DocTree.Proofs.Json.Step
import Mathlib.Data.List.Induction

namespace DocTree
namespace Json

theorem isUnclosed_atEnd (digits : Digits) : IsUnclosed digits.atEnd := by
  unfold Digits.atEnd
  split
  · exact isUnclosed_number _
  · exact isUnclosed_broken _

/-- What breaks off is not closed. -/
theorem isUnclosed_breakOff {value : Draft} (h : IsUnclosed value) (damage : Damage)
    (outer : List Frame) : IsUnclosed (Frame.breakOff damage value outer) := by
  induction outer generalizing value with
  | nil => exact h
  | cons frame outer ih =>
    refine ih ?_
    cases frame with
    | item items => exact isUnclosed_array _ _
    | member members key => exact isUnclosed_object _ _

namespace State

/-! ### After the end -/

section Complete

variable {value : Draft}

theorem step_complete {c : Char} (h : isSpace c = true) :
    step (.complete value) c = .complete value :=
  follow_of_isSpace h _

theorem step_complete_surplus {c : Char} (h : isSpace c = false) :
    step (.complete value) c = .stopped { value, surplus := true } := by
  rw [step, follow, h]
  rfl

theorem run_complete_blank {gap : List Char} (h : ∀ c ∈ gap, isSpace c = true) :
    run (.complete value) gap = .complete value := by
  induction gap with
  | nil => rfl
  | cons c gap ih =>
    rw [List.forall_mem_cons] at h
    rw [run_cons, step_complete h.1, ih h.2]

/-- **Whatever follows a value is too much,** unless it is white space. -/
theorem run_complete_surplus {rest : List Char} (h : ∃ c ∈ rest, isSpace c = false) :
    run (.complete value) rest = .stopped { value, surplus := true } := by
  induction rest with
  | nil =>
    obtain ⟨c, hc, -⟩ := h
    cases hc
  | cons c rest ih =>
    rw [run_cons]
    cases hspace : isSpace c with
    | false => rw [step_complete_surplus hspace, run_stopped]
    | true =>
      obtain ⟨d, hd, hsolid⟩ := h
      rw [step_complete hspace]
      rcases List.mem_cons.1 hd with rfl | hd
      · cases hspace.symm.trans hsolid
      · exact ih ⟨d, hd, hsolid⟩

end Complete

/-! ### The end -/

/-- Whether the reader comes to a closed object only on a condition, and has not stopped right
behind one. -/
def Closes (closing : Prop) : State → Prop
  | complete value => closing ∨ IsUnclosed value
  | stopped page => page.surplus = true ∨ IsUnclosed page.value
  | inKeyword _ meaning _ => IsUnclosed meaning
  | _ => True

namespace Closes

variable {closing : Prop} {state next : State} {c : Char}

theorem deliver {value : Draft} (h : closing ∨ IsUnclosed value) (outer : List Frame) :
    (State.deliver value outer).Closes closing := by
  match outer with
  | [] => exact h
  | .item _ :: _ => trivial
  | .member _ _ :: _ => trivial

/-- **Only a closing brace leads to a closed object.** -/
theorem of_leads (hleads : Leads c state next) (hclosing : c = '\x7d' → closing)
    (h : state.Closes closing) : next.Closes closing := by
  induction hleads with
  | space | stopped | inKeyword => exact h
  | openString | openArray | openObject | openNumber | nextItem | firstKey | nextKey | inKey
  | closeKey | colon | nextMember | inString | inNumber => trivial
  | openKeyword hmem => exact (of_mem_keywords hmem).2
  | firstItem _ _ ih => exact ih trivial
  | emptyArray | closeArray => exact deliver (.inr (isUnclosed_array _ _)) _
  | emptyObject hbrace | closeObject hbrace => exact deliver (.inl (hclosing hbrace)) _
  | closeString => exact deliver (.inr (isUnclosed_string _)) _
  | endNumber _ ih => exact ih (deliver (.inr (isUnclosed_number _)) _)
  | endKeyword => exact deliver (.inr h) _
  | surplus => exact .inl rfl
  | refused _ hvalue => exact .inr (isUnclosed_breakOff hvalue _ _)

theorem run (h : state.Closes True) (text : List Char) : (state.run text).Closes True := by
  induction text generalizing state with
  | nil => exact h
  | cons c text ih => exact ih (of_leads (leads_step c state) (fun _ => trivial) h)

/-- Where no value is complete there is no closed object, on whatever condition. -/
theorem of_ne_complete (h : state.Closes True) (hne : ∀ value, state ≠ .complete value) :
    state.Closes closing := by
  cases state with
  | complete value => exact absurd rfl (hne value)
  | _ => exact h

end Closes

/-- **A page that holds a closed object and nothing else is read to the end.** -/
theorem eq_complete_of_page {state : State} (h : state.Closes True)
    {members : List (StringText × Draft)} (hvalue : state.page.value = .object members none)
    (hsurplus : state.page.surplus = false) : state = .complete (.object members none) := by
  cases state with
  | expectValue outer | inKeyword rest meaning outer | inString text outer | afterKey key _ outer =>
    exact absurd hvalue (isUnclosed_breakOff (isUnclosed_broken _) _ _ members)
  | firstItem outer | afterItem items outer =>
    exact absurd hvalue (isUnclosed_breakOff (isUnclosed_array _ _) _ _ members)
  | firstKey outer | nextKey _ outer | afterMember _ outer | inKey text _ outer =>
    exact absurd hvalue (isUnclosed_breakOff (isUnclosed_object _ _) _ _ members)
  | inNumber digits outer =>
    have hunclosed := isUnclosed_atEnd digits
    cases outer with
    | nil => exact absurd hvalue (hunclosed members)
    | cons frame outer =>
      exact absurd hvalue (isUnclosed_breakOff hunclosed _ (frame :: outer) members)
  | complete value => exact congrArg State.complete hvalue
  | stopped page =>
    rcases h with h | h
    · cases hsurplus.symm.trans h
    · exact absurd hvalue (h members)

/-- So a text that holds a closed object is read to the end, whatever it is read as. -/
theorem run_eq_complete_of_decode {α : Type} {decoder : Draft → Except Fault α} {text : List Char}
    {result : α} (h : (Page.ofText text).decode decoder = .ok result)
    {members : List (StringText × Draft)}
    (hvalue : (Page.ofText text).value = .object members none) :
    run (.expectValue []) text = .complete (.object members none) := by
  have hstart : Closes True (.expectValue []) := trivial
  exact eq_complete_of_page (hstart.run text) hvalue (Page.decode_eq_ok_iff.1 h).2

/-- **The brace that closes an object is the last character of the text,** but for white space. -/
theorem exists_closing {text : List Char} {members : List (StringText × Draft)}
    (h : run (.expectValue []) text = .complete (.object members none)) :
    ∃ front gap, text = front ++ '\x7d' :: gap ∧ ∀ c ∈ gap, isSpace c = true := by
  induction text using List.reverseRecOn with
  | nil => cases h
  | append_singleton text c ih =>
    rw [run_append, run_cons, run_nil] at h
    by_cases hcomplete : ∃ value, run (.expectValue []) text = .complete value
    · obtain ⟨value, hvalue⟩ := hcomplete
      rw [hvalue] at h
      cases hspace : isSpace c with
      | false => cases (step_complete_surplus hspace).symm.trans h
      | true =>
        rw [step_complete hspace] at h
        obtain ⟨front, gap, rfl, hgap⟩ := ih (hvalue.trans h)
        refine ⟨front, gap ++ [c], by simp, ?_⟩
        rw [List.forall_mem_append, List.forall_mem_singleton]
        exact ⟨hgap, hspace⟩
    · have hstart : Closes True (.expectValue []) := trivial
      have hopen : (run (.expectValue []) text).Closes (c = '\x7d') :=
        (hstart.run text).of_ne_complete fun value hvalue => hcomplete ⟨value, hvalue⟩
      have hclosed := Closes.of_leads (leads_step c _) id hopen
      rw [h] at hclosed
      obtain rfl : c = '\x7d' := hclosed.resolve_right fun hunclosed => hunclosed members rfl
      exact ⟨text, [], rfl, List.forall_mem_nil _⟩

/-- Before that brace no value is complete. -/
theorem ne_complete_of_closing {cut front gap : List Char} {value : Draft}
    (h : run (.expectValue []) (front ++ '\x7d' :: gap) = .complete value) (hcut : cut <+: front)
    (early : Draft) : run (.expectValue []) cut ≠ .complete early := by
  intro hearly
  obtain ⟨rest, rfl⟩ := hcut
  have hsolid : ∃ c ∈ rest ++ '\x7d' :: gap, isSpace c = false :=
    ⟨'\x7d', List.mem_append_right _ List.mem_cons_self, rfl⟩
  rw [List.append_assoc, run_append, hearly, run_complete_surplus hsolid] at h
  cases h

end State
end Json
end DocTree
