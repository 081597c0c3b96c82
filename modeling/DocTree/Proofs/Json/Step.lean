/-
# The steps of the reader

A character leads the reader from one state to the next in one of a few ways (`State.Leads`).
They are what the reader does (`State.leads_step`), so what is kept in each of them is kept by
every step.
-/

import DocTree.Proofs.Json.Reader

namespace DocTree
namespace Json

/-- Whether a value is anything but an object that is closed. -/
def IsUnclosed (value : Draft) : Prop :=
  ∀ members, value ≠ .object members none

theorem isUnclosed_number (value : Numeral) : IsUnclosed (.number value) :=
  nofun

theorem isUnclosed_string (text : StringText) : IsUnclosed (.string text) :=
  nofun

theorem isUnclosed_array (items : List Draft) (damage? : Option Damage) :
    IsUnclosed (.array items damage?) :=
  nofun

theorem isUnclosed_object (members : List (StringText × Draft)) (damage : Damage) :
    IsUnclosed (.object members (some damage)) :=
  nofun

theorem isUnclosed_broken (damage : Damage) : IsUnclosed (.broken damage) :=
  nofun

namespace State

/-- The keywords with the values that they stand for. -/
def keywords : List (List Char × Draft) :=
  [("null".toList, .null), ("true".toList, .bool true), ("false".toList, .bool false)]

theorem of_mem_keywords {word : List Char} {meaning : Draft} (h : (word, meaning) ∈ keywords) :
    '"' ∉ word ∧ IsUnclosed meaning := by
  simp only [keywords, List.mem_cons, Prod.mk.injEq, List.not_mem_nil, or_false] at h
  rcases h with ⟨rfl, rfl⟩ | ⟨rfl, rfl⟩ | ⟨rfl, rfl⟩ <;> exact ⟨by decide, fun _ => nofun⟩

/-- Whether a value is complete, and the next token follows it. -/
def IsBehind : State → Prop
  | afterItem .. | afterMember .. | complete _ => True
  | _ => False

theorem isBehind_deliver (value : Draft) (outer : List Frame) : (deliver value outer).IsBehind := by
  match outer with
  | [] => trivial
  | .item _ :: _ => trivial
  | .member _ _ :: _ => trivial

/-- **The ways in which a character leads from one state to the next.** -/
inductive Leads (c : Char) : State → State → Prop
  | space (h : isSpace c = true) {state : State} (hgap : state.waits = true ∨ state.IsBehind) :
    Leads c state state
  | openString (h : c = '"') (outer : List Frame) :
    Leads c (.expectValue outer) (.inString {} outer)
  | openArray (h : c = '[') (outer : List Frame) :
    Leads c (.expectValue outer) (.firstItem outer)
  | openObject (h : c = '\x7b') (outer : List Frame) :
    Leads c (.expectValue outer) (.firstKey outer)
  | openKeyword {rest : List Char} {meaning : Draft} (h : (c :: rest, meaning) ∈ keywords)
    (outer : List Frame) : Leads c (.expectValue outer) (.inKeyword rest meaning outer)
  | openNumber {digits : Digits} (h : Digits.start? c = some digits) (outer : List Frame) :
    Leads c (.expectValue outer) (.inNumber digits outer)
  | firstItem {outer : List Frame} {next : State}
    (h : Leads c (.expectValue (.item [] :: outer)) next) (hsolid : isSpace c = false) :
    Leads c (.firstItem outer) next
  | emptyArray (h : c = ']') (outer : List Frame) :
    Leads c (.firstItem outer) (deliver (.array [] none) outer)
  | nextItem (h : c = ',') (items : List Draft) (outer : List Frame) :
    Leads c (.afterItem items outer) (.expectValue (.item items :: outer))
  | closeArray (h : c = ']') (items : List Draft) (outer : List Frame) :
    Leads c (.afterItem items outer) (deliver (.array items.reverse none) outer)
  | firstKey (h : c = '"') (outer : List Frame) :
    Leads c (.firstKey outer) (.inKey {} [] outer)
  | emptyObject (h : c = '\x7d') (outer : List Frame) :
    Leads c (.firstKey outer) (deliver (.object [] none) outer)
  | nextKey (h : c = '"') (members : List (StringText × Draft)) (outer : List Frame) :
    Leads c (.nextKey members outer) (.inKey {} members outer)
  | inKey {text next : Quoted} (h : text.step c = .more next)
    (members : List (StringText × Draft)) (outer : List Frame) :
    Leads c (.inKey text members outer) (.inKey next members outer)
  | closeKey {text : Quoted} {key : StringText} (h : text.step c = .done key)
    (members : List (StringText × Draft)) (outer : List Frame) :
    Leads c (.inKey text members outer) (.afterKey key members outer)
  | colon (h : c = ':') (key : StringText) (members : List (StringText × Draft))
    (outer : List Frame) :
    Leads c (.afterKey key members outer) (.expectValue (.member members key :: outer))
  | nextMember (h : c = ',') (members : List (StringText × Draft)) (outer : List Frame) :
    Leads c (.afterMember members outer) (.nextKey members outer)
  | closeObject (h : c = '\x7d') (members : List (StringText × Draft)) (outer : List Frame) :
    Leads c (.afterMember members outer) (deliver (.object members.reverse none) outer)
  | inString {text next : Quoted} (h : text.step c = .more next) (outer : List Frame) :
    Leads c (.inString text outer) (.inString next outer)
  | closeString {text : Quoted} {result : StringText} (h : text.step c = .done result)
    (outer : List Frame) : Leads c (.inString text outer) (deliver (.string result) outer)
  | inNumber {digits next : Digits} (h : digits.step c = .more next) (outer : List Frame) :
    Leads c (.inNumber digits outer) (.inNumber next outer)
  | endNumber {digits : Digits} {outer : List Frame} {next : State}
    (h : Leads c (deliver (.number digits.numeral) outer) next) :
    Leads c (.inNumber digits outer) next
  | inKeyword (rest : List Char) (meaning : Draft) (outer : List Frame) :
    Leads c (.inKeyword (c :: rest) meaning outer) (.inKeyword rest meaning outer)
  | endKeyword (meaning : Draft) (outer : List Frame) :
    Leads c (.inKeyword [c] meaning outer) (deliver meaning outer)
  | surplus (value : Draft) : Leads c (.complete value) (.stopped { value, surplus := true })
  | stopped (page : Page) : Leads c (.stopped page) (.stopped page)
  | refused (state : State) {value : Draft} (h : IsUnclosed value) (outer : List Frame) :
    Leads c state (.refuse value outer)

variable (c : Char)

theorem leads_refuseValue (state : State) (outer : List Frame) :
    Leads c state (refuseValue outer) :=
  .refused state (isUnclosed_broken _) outer

theorem leads_refuseObject (state : State) (members : List (StringText × Draft))
    (outer : List Frame) : Leads c state (refuseObject members outer) :=
  .refused state (isUnclosed_object _ _) outer

theorem leads_begin (outer : List Frame) : Leads c (.expectValue outer) (begin c outer) := by
  unfold begin
  split
  · exact .openString rfl outer
  · exact .openArray rfl outer
  · exact .openObject rfl outer
  · exact .openKeyword (.head _) outer
  · exact .openKeyword (.tail _ (.head _)) outer
  · exact .openKeyword (.tail _ (.tail _ (.head _))) outer
  · split
    · next digits hdigits => exact .openNumber hdigits outer
    · exact leads_refuseValue c _ outer

theorem leads_follow {state : State} (h : state.IsBehind) : Leads c state (state.follow c) := by
  unfold follow
  split
  · next hspace => exact .space hspace (.inr h)
  · split
    · split
      · next hcomma => exact .nextItem hcomma _ _
      · split
        · next hclose => exact .closeArray hclose _ _
        · exact .refused _ (isUnclosed_array _ _) _
    · split
      · next hcomma => exact .nextMember hcomma _ _
      · split
        · next hclose => exact .closeObject hclose _ _
        · exact leads_refuseObject c _ _ _
    · exact .surplus _
    · next hitem hmember hcomplete =>
      cases state with
      | afterItem items outer => exact absurd rfl (hitem items outer)
      | afterMember members outer => exact absurd rfl (hmember members outer)
      | complete value => exact absurd rfl (hcomplete value)
      | _ => cases h

/-- **Every step of the reader is one of these.** -/
theorem leads_step (state : State) : Leads c state (state.step c) := by
  cases state with
  | expectValue outer =>
    simp only [step]
    split
    · next hspace => exact .space hspace (.inl rfl)
    · exact leads_begin c outer
  | firstItem outer =>
    simp only [step]
    split
    · next hspace => exact .space hspace (.inl rfl)
    · next hspace =>
      split
      · next hclose => exact .emptyArray hclose outer
      · exact .firstItem (leads_begin c _) (Bool.not_eq_true _ ▸ hspace)
  | firstKey outer =>
    simp only [step]
    split
    · next hspace => exact .space hspace (.inl rfl)
    · split
      · next hquote => exact .firstKey hquote outer
      · split
        · next hclose => exact .emptyObject hclose outer
        · exact leads_refuseObject c _ _ _
  | nextKey members outer =>
    simp only [step]
    split
    · next hspace => exact .space hspace (.inl rfl)
    · split
      · next hquote => exact .nextKey hquote members outer
      · exact leads_refuseObject c _ _ _
  | inKey text members outer =>
    simp only [step]
    split
    · next next hnext => exact .inKey hnext members outer
    · next key hdone => exact .closeKey hdone members outer
    · exact leads_refuseObject c _ _ _
  | afterKey key members outer =>
    simp only [step]
    split
    · next hspace => exact .space hspace (.inl rfl)
    · split
      · next hcolon => exact .colon hcolon key members outer
      · exact leads_refuseValue c _ _
  | inString text outer =>
    simp only [step]
    split
    · next next hnext => exact .inString hnext outer
    · next result hdone => exact .closeString hdone outer
    · exact leads_refuseValue c _ _
  | inNumber digits outer =>
    simp only [step]
    split
    · next next hnext => exact .inNumber hnext outer
    · exact .endNumber (leads_follow c (isBehind_deliver _ _))
    · exact leads_refuseValue c _ _
  | inKeyword rest meaning outer =>
    simp only [step]
    split
    · exact leads_refuseValue c _ _
    · next d rest =>
      split
      · exact leads_refuseValue c _ _
      · next hsame =>
        obtain rfl := Decidable.not_not.1 hsame
        split
        · next hempty =>
          obtain rfl := List.isEmpty_iff.1 hempty
          exact .endKeyword meaning outer
        · exact .inKeyword rest meaning outer
  | afterItem items outer | afterMember members outer | complete value =>
    exact leads_follow c trivial
  | stopped page => exact .stopped page

end State
end Json
end DocTree
