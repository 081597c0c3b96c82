/-
# Values that are not finished

What the reader holds of a value before it is complete is a part of it.  `State.Becomes` says,
state by state, which complete values there can be in the end; it is told backwards, from what
a character leads to (`State.Becomes.of_leads`), so it holds all along a text that is read to the
end (`State.Becomes.of_run`).  A text that ends earlier then holds a value that breaks off
(`State.Becomes.truncates`).
-/

import DocTree.Proofs.Json.Step
import DocTree.Proofs.Json.Truncation

namespace DocTree
namespace Json

/-! ### Strings -/

namespace Quoted

/-- Whether a string of which some characters are read can have a text in the end: half a
surrogate pair is not forgotten, and the digits of a code unit are hexadecimal. -/
structure Becomes (q : Quoted) (text : StringText) : Prop where
  paired : q.paired = true ∨ text = none
  digits : ∀ digits, q.place = .unit digits → ∀ c ∈ digits, (hexDigit? c).isSome = true

theorem isSome_of_hexValue? {cs : List Char} {value : Nat} (h : hexValue? cs = some value) :
    ∀ c ∈ cs, (hexDigit? c).isSome = true := by
  induction cs generalizing value with
  | nil => exact List.forall_mem_nil _
  | cons c cs ih =>
    simp only [hexValue?, Option.bind_eq_bind, Option.bind_eq_some_iff] at h
    obtain ⟨digit, hdigit, rest, hrest, -⟩ := h
    exact List.forall_mem_cons.2 ⟨by rw [hdigit]; rfl, ih hrest⟩

theorem paired_of_settle {q : Quoted} (h : q.settle.paired = true) : q.paired = true :=
  (Bool.and_eq_true _ _ ▸ h).1

theorem paired_of_pushUnit {q : Quoted} {unit : Nat} (h : (q.pushUnit unit).paired = true) :
    q.paired = true := by
  unfold pushUnit at h
  split at h
  · split at h
    · exact h
    · exact paired_of_settle h
  · split at h
    · exact h
    · split at h
      · cases h
      · exact paired_of_settle h

variable {q next : Quoted} {c : Char} {text : StringText}

theorem Becomes.of_more (hstep : q.step c = .more next) (h : next.Becomes text) :
    q.Becomes text := by
  have hplain (hplace : q.place = .plain ∨ q.place = .escape) (digits : List Char)
      (hdigits : q.place = .unit digits) : ∀ c ∈ digits, (hexDigit? c).isSome = true := by
    rcases hplace with hplace | hplace <;> cases hplace.symm.trans hdigits
  rcases step_eq_more_cases hstep with ⟨hplace, -, rfl⟩ | ⟨hplace, -, -, rfl⟩ |
    ⟨hplace, rfl | ⟨d, rfl⟩⟩ | ⟨digits, hplace, rfl | ⟨unit, hunit, rfl⟩⟩
  · exact ⟨h.paired, hplain (.inl hplace)⟩
  · exact ⟨h.paired.imp_left paired_of_settle, hplain (.inl hplace)⟩
  · exact ⟨h.paired, hplain (.inr hplace)⟩
  · exact ⟨h.paired.imp_left paired_of_settle, hplain (.inr hplace)⟩
  · refine ⟨h.paired, fun _ heq => ?_⟩
    obtain rfl := Place.unit.inj (hplace.symm.trans heq)
    exact (List.forall_mem_cons.1 (h.digits _ rfl)).2
  · refine ⟨h.paired.imp_left paired_of_pushUnit, fun _ heq => ?_⟩
    obtain rfl := Place.unit.inj (hplace.symm.trans heq)
    exact (List.forall_mem_cons.1 (isSome_of_hexValue? hunit)).2

theorem Becomes.of_done (hstep : q.step c = .done text) : q.Becomes text := by
  obtain ⟨hplace, -, rfl⟩ := eq_of_step_eq_done hstep
  refine ⟨?_, fun digits hdigits => by cases hplace.symm.trans hdigits⟩
  rw [Quoted.text]
  split
  · next hpaired => exact .inl (paired_of_settle hpaired)
  · exact .inr rfl

/-- What breaks off within a string breaks off at the end of the text, unless the whole string
has half a surrogate pair. -/
theorem Becomes.damage (h : q.Becomes text) : q.damage.kept = .endOfText ∨ text = none := by
  refine h.paired.imp_left fun hpaired => ?_
  rw [Quoted.damage, hpaired]
  rfl

end Quoted

/-! ### Arrays and objects -/

/-- Whether a complete value has one of some values where the frames have theirs, after the
items and members that the frames hold. -/
def Within : List Frame → (Draft → Prop) → Draft → Prop
  | [], inner => inner
  | .item items :: outer, inner => Within outer fun whole =>
    ∃ value more, inner value ∧ whole = .array (items.reverse ++ value :: more) none
  | .member members key :: outer, inner => Within outer fun whole =>
    ∃ value more, inner value ∧ whole = .object (members.reverse ++ (key, value) :: more) none

theorem Within.mono {outer : List Frame} {inner inner' : Draft → Prop} {whole : Draft}
    (h : Within outer inner whole) (himp : ∀ value, inner value → inner' value) :
    Within outer inner' whole := by
  induction outer generalizing inner inner' with
  | nil => exact himp whole h
  | cons frame outer ih =>
    cases frame with
    | item items =>
      exact ih h fun _ ⟨value, more, hvalue, heq⟩ => ⟨value, more, himp value hvalue, heq⟩
    | member members key =>
      exact ih h fun _ ⟨value, more, hvalue, heq⟩ => ⟨value, more, himp value hvalue, heq⟩

theorem Within.exists_inner {outer : List Frame} {inner : Draft → Prop} {whole : Draft}
    (h : Within outer inner whole) : ∃ value, inner value := by
  induction outer generalizing inner with
  | nil => exact ⟨whole, h⟩
  | cons frame outer ih =>
    cases frame with
    | item items =>
      obtain ⟨_, value, _, hvalue, _⟩ := ih h
      exact ⟨value, hvalue⟩
    | member members key =>
      obtain ⟨_, value, _, hvalue, _⟩ := ih h
      exact ⟨value, hvalue⟩

/-- **What breaks off within the frames breaks off as a whole.** -/
theorem Within.truncates {outer : List Frame} {inner : Draft → Prop} {cut whole : Draft}
    (h : Within outer inner whole) (hcut : ∀ value, inner value → Truncates cut value) :
    Truncates (Frame.breakOff (.both .endOfText) cut outer) whole := by
  induction outer generalizing inner cut with
  | nil => exact hcut whole h
  | cons frame outer ih =>
    cases frame with
    | item items =>
      refine ih h ?_
      rintro _ ⟨value, more, hvalue, rfl⟩
      show Truncates (.array (cut :: items).reverse _) _
      rw [List.reverse_cons]
      exact .item _ more (hcut value hvalue)
    | member members key =>
      refine ih h ?_
      rintro _ ⟨value, more, hvalue, rfl⟩
      show Truncates (.object ((key, cut) :: members).reverse _) _
      rw [List.reverse_cons]
      exact .member _ more key (hcut value hvalue)

namespace State

/-- Whether a complete value can be read from a state on. -/
def Becomes (whole : Draft) : State → Prop
  | expectValue outer | inNumber _ outer | inKeyword _ _ outer => Within outer (fun _ => True) whole
  | firstItem outer => Within outer (fun value => ∃ items, value = .array items none) whole
  | afterItem items outer =>
    Within outer (fun value => ∃ more, value = .array (items.reverse ++ more) none) whole
  | firstKey outer => Within outer (fun value => ∃ members, value = .object members none) whole
  | nextKey members outer | afterMember members outer =>
    Within outer (fun value => ∃ more, value = .object (members.reverse ++ more) none) whole
  | inKey text members outer =>
    Within outer (fun value => ∃ key first more, text.Becomes key ∧
      value = .object (members.reverse ++ (key, first) :: more) none) whole
  | afterKey key members outer => Within (.member members key :: outer) (fun _ => True) whole
  | inString text outer =>
    Within outer (fun value => ∃ result, text.Becomes result ∧ value = .string result) whole
  | complete value => value = whole
  | stopped _ => False

namespace Becomes

variable {whole value : Draft} {outer : List Frame} {c : Char} {state next : State}

theorem of_deliver (h : (deliver value outer).Becomes whole) : Within outer (· = value) whole := by
  match outer with
  | [] => exact h.symm
  | .item items :: outer =>
    have hmore : Within outer
      (fun array => ∃ more, array = .array ((value :: items).reverse ++ more) none) whole := h
    refine hmore.mono ?_
    rintro _ ⟨more, rfl⟩
    exact ⟨value, more, rfl, by rw [List.reverse_cons, List.append_assoc, List.singleton_append]⟩
  | .member members key :: outer =>
    have hmore : Within outer (fun object =>
      ∃ more, object = .object (((key, value) :: members).reverse ++ more) none) whole := h
    refine hmore.mono ?_
    rintro _ ⟨more, rfl⟩
    exact ⟨value, more, rfl, by rw [List.reverse_cons, List.append_assoc, List.singleton_append]⟩

/-- **What can be read after a character could be read before it.** -/
theorem of_leads (hleads : Leads c state next) (h : next.Becomes whole) : state.Becomes whole := by
  induction hleads with
  | space | inNumber | inKeyword | openKeyword | openNumber | colon | stopped => exact h
  | openString | openArray | openObject => exact Within.mono h fun _ _ => trivial
  | @firstItem outer _ _ _ ih =>
    have hitems : Within outer
      (fun array => ∃ value more, True ∧ array = .array (value :: more) none) whole := ih h
    exact hitems.mono fun _ ⟨value, more, _, heq⟩ => ⟨value :: more, heq⟩
  | nextItem =>
    exact Within.mono h fun _ ⟨value, more, _, heq⟩ => ⟨value :: more, heq⟩
  | nextMember => exact h
  | emptyArray | emptyObject => exact (of_deliver h).mono fun _ heq => ⟨[], heq⟩
  | closeArray | closeObject =>
    exact (of_deliver h).mono fun _ heq => ⟨[], by rw [heq, List.append_nil]⟩
  | firstKey | nextKey =>
    exact Within.mono h fun _ ⟨key, first, more, _, heq⟩ => ⟨(key, first) :: more, heq⟩
  | inKey hnext =>
    exact Within.mono h fun _ ⟨key, first, more, hkey, heq⟩ =>
      ⟨key, first, more, hkey.of_more hnext, heq⟩
  | @closeKey _ key hdone =>
    exact Within.mono h fun _ ⟨value, more, _, heq⟩ => ⟨key, value, more, .of_done hdone, heq⟩
  | inString hnext =>
    exact Within.mono h fun _ ⟨result, hresult, heq⟩ => ⟨result, hresult.of_more hnext, heq⟩
  | @closeString _ result hdone =>
    exact (of_deliver h).mono fun _ heq => ⟨result, .of_done hdone, heq⟩
  | endNumber _ ih => exact (of_deliver (ih h)).mono fun _ _ => trivial
  | endKeyword => exact (of_deliver h).mono fun _ _ => trivial
  | surplus | refused => cases h

/-- **A value that is read to the end could be read all along.** -/
theorem of_run {text : List Char} (h : (state.run text).Becomes whole) : state.Becomes whole := by
  induction text generalizing state with
  | nil => exact h
  | cons c text ih => exact of_leads (leads_step c state) (ih h)

/-- **What the reader holds of a value is a part of it,** as long as the value is not complete
and the reader is not within a number. -/
theorem truncates (h : state.Becomes whole)
    (hnumber : ∀ digits outer, state ≠ .inNumber digits outer)
    (hvalue : ∀ value, state ≠ .complete value) : Truncates state.page.value whole := by
  cases state with
  | expectValue outer | inKeyword rest meaning outer | afterKey key members outer =>
    exact Within.truncates h fun _ _ => .broken rfl (.inl rfl)
  | firstItem outer => exact Within.truncates h fun _ ⟨items, heq⟩ => heq ▸ .array [] items
  | afterItem items outer => exact Within.truncates h fun _ ⟨more, heq⟩ => heq ▸ .array _ more
  | firstKey outer =>
    exact Within.truncates h fun _ ⟨members, heq⟩ => heq ▸ .object [] members rfl (.inl rfl)
  | nextKey members outer | afterMember members outer =>
    exact Within.truncates h fun _ ⟨more, heq⟩ => heq ▸ .object _ more rfl (.inl rfl)
  | inKey text members outer =>
    refine Within.truncates h ?_
    rintro _ ⟨key, first, more, hkey, rfl⟩
    exact .object _ _ rfl (hkey.damage.imp_right fun heq => ⟨first, more, by rw [heq]⟩)
  | inString text outer =>
    refine Within.truncates h ?_
    rintro _ ⟨result, hresult, rfl⟩
    exact .broken rfl (hresult.damage.imp_right fun heq => by rw [heq])
  | inNumber digits outer => exact absurd rfl (hnumber digits outer)
  | complete value => exact absurd rfl (hvalue value)
  | stopped page => cases h

end Becomes
end State
end Json
end DocTree
