/-
# In and out of strings

Which characters of a text are outside of its strings can be told without reading it: a string
goes from one quotation mark to the next that no backslash stands before (`Zone.step`).  The
reader agrees as long as the text can be mended (`State.InZone.of_leads`), so it is never within a
number if no number begins outside of the strings (`State.InZone.run`).
-/

import DocTree.Proofs.Json.Unfinished

namespace DocTree
namespace Json

/-- Where in a text the next character falls. -/
inductive Zone where
  /-- Outside of strings. -/
  | outside
  /-- In a string. -/
  | inside
  /-- In a string, after a backslash. -/
  | escaped
  deriving Repr, DecidableEq, Inhabited

namespace Zone

/-- Where the next character falls after one more. -/
def step : Zone → Char → Zone
  | outside, c => if c = '"' then inside else outside
  | inside, c => if c = '"' then outside else if c = '\\' then escaped else inside
  | escaped, _ => inside

/-- Whether no character of a text that is outside of strings belongs to a number. -/
def LacksNumbers (zone : Zone) : List Char → Prop
  | [] => True
  | c :: cs =>
    (zone = outside → c ≠ '-' ∧ c.isDigit = false) ∧ (zone.step c).LacksNumbers cs

instance decidableLacksNumbers : ∀ (zone : Zone) (cs : List Char), Decidable (zone.LacksNumbers cs)
  | _, [] => inferInstanceAs (Decidable True)
  | zone, c :: cs =>
    have := decidableLacksNumbers (zone.step c) cs
    inferInstanceAs (Decidable (_ ∧ _))

end Zone

/-- Whether no number begins outside of the strings of a text. -/
def LacksNumbers (text : List Char) : Prop :=
  Zone.outside.LacksNumbers text

instance (text : List Char) : Decidable (LacksNumbers text) :=
  inferInstanceAs (Decidable (Zone.LacksNumbers _ _))

theorem start?_eq_none {c : Char} (hminus : c ≠ '-') (hdigit : c.isDigit = false) :
    Digits.start? c = none := by
  have hzero : c ≠ '0' := by
    rintro rfl
    cases hdigit
  simp [Digits.start?, hminus, hzero, hdigit]

theorem ne_quote_of_isSpace {c : Char} (h : isSpace c = true) : c ≠ '"' := by
  rintro rfl
  cases h

namespace Quoted

/-- Where in a text the next character of a string falls. -/
def zone (q : Quoted) : Zone :=
  if q.place = .escape then .escaped else .inside

variable {q next : Quoted} {c : Char} {text : StringText}

theorem zone_of_plain (h : q.place = .plain) : q.zone = .inside := by
  rw [zone, h]
  rfl

theorem zone_of_unit {digits : List Char} (h : q.place = .unit digits) : q.zone = .inside := by
  rw [zone, h]
  rfl

theorem place_pushUnit (q : Quoted) (unit : Nat) : (q.pushUnit unit).place = .plain := by
  unfold pushUnit
  split
  · split <;> rfl
  · split
    · rfl
    · split <;> rfl

/-- No digit of a code unit is a quotation mark or backslash. -/
theorem zone_step_of_hexDigit? (h : (hexDigit? c).isSome = true) :
    Zone.inside.step c = .inside := by
  have hquote : c ≠ '"' := by
    rintro rfl
    cases h
  have hslash : c ≠ '\\' := by
    rintro rfl
    cases h
  rw [Zone.step, if_neg hquote, if_neg hslash]

theorem zone_of_more (hstep : q.step c = .more next) (h : next.Becomes text) :
    next.zone = q.zone.step c := by
  rcases step_eq_more_cases hstep with ⟨hplace, rfl, rfl⟩ | ⟨hplace, hquote, hslash, rfl⟩ |
    ⟨hplace, hnext⟩ | ⟨digits, hplace, hnext⟩
  · rw [zone_of_plain hplace]
    rfl
  · rw [zone_of_plain hplace, Zone.step, if_neg hquote, if_neg hslash]
    rfl
  · have hinside : q.zone.step c = .inside := by rw [zone, hplace]; rfl
    rw [hinside]
    rcases hnext with rfl | ⟨d, rfl⟩ <;> rfl
  · rw [zone_of_unit hplace]
    rcases hnext with rfl | ⟨unit, hunit, rfl⟩
    · rw [zone_step_of_hexDigit? (h.digits _ rfl c List.mem_cons_self)]
      rfl
    · rw [zone_step_of_hexDigit? (isSome_of_hexValue? hunit c List.mem_cons_self)]
      exact zone_of_plain (place_pushUnit _ _)

theorem zone_of_done (hstep : q.step c = .done text) : q.zone.step c = .outside := by
  obtain ⟨hplace, rfl, -⟩ := eq_of_step_eq_done hstep
  rw [zone_of_plain hplace]
  rfl

end Quoted

namespace State

/-- Whether the reader, which is not within a number, is where in a text a character falls. -/
def InZone (zone : Zone) : State → Prop
  | inKey text _ _ | inString text _ => zone = text.zone
  | inKeyword rest _ _ => zone = .outside ∧ '"' ∉ rest
  | inNumber .. => False
  | _ => zone = .outside

namespace InZone

variable {zone : Zone} {state next : State} {c : Char} {whole : Draft}

theorem deliver (value : Draft) (outer : List Frame) :
    (State.deliver value outer).InZone .outside := by
  match outer with
  | [] => rfl
  | .item _ :: _ => rfl
  | .member _ _ :: _ => rfl

theorem eq_outside (h : state.InZone zone) (hgap : state.waits = true ∨ state.IsBehind) :
    zone = .outside := by
  cases state with
  | inKey | inString | inNumber | inKeyword | stopped => rcases hgap with hgap | hgap <;> cases hgap
  | _ => exact h

/-- **The reader agrees on where a character falls** that belongs to no number. -/
theorem of_leads (hleads : Leads c state next) (hzone : state.InZone zone)
    (hnumber : zone = .outside → c ≠ '-' ∧ c.isDigit = false) (h : next.Becomes whole) :
    next.InZone (zone.step c) := by
  induction hleads with
  | space hspace hgap =>
    obtain rfl := hzone.eq_outside hgap
    rwa [Zone.step, if_neg (ne_quote_of_isSpace hspace)]
  | openString hc | openArray hc | openObject hc | nextItem hc | firstKey hc | nextKey hc
  | colon hc | nextMember hc =>
    obtain rfl : zone = .outside := hzone
    rw [hc]
    rfl
  | openKeyword hmem =>
    obtain rfl : zone = .outside := hzone
    have hword := (of_mem_keywords hmem).1
    rw [List.mem_cons, not_or] at hword
    exact ⟨if_neg (Ne.symm hword.1), hword.2⟩
  | openNumber hstart =>
    obtain ⟨hminus, hdigit⟩ := hnumber hzone
    cases (start?_eq_none hminus hdigit).symm.trans hstart
  | firstItem _ _ ih => exact ih hzone h
  | emptyArray hc | closeArray hc | emptyObject hc | closeObject hc =>
    obtain rfl : zone = .outside := hzone
    rw [hc]
    exact deliver _ _
  | inKey hnext =>
    obtain ⟨_, key, _, _, hkey, _⟩ := Within.exists_inner h
    rw [hzone]
    exact (Quoted.zone_of_more hnext hkey).symm
  | inString hnext =>
    obtain ⟨_, result, hresult, _⟩ := Within.exists_inner h
    rw [hzone]
    exact (Quoted.zone_of_more hnext hresult).symm
  | closeKey hdone =>
    rw [hzone]
    exact Quoted.zone_of_done hdone
  | closeString hdone =>
    rw [hzone, Quoted.zone_of_done hdone]
    exact deliver _ _
  | inNumber | endNumber => cases hzone
  | inKeyword rest =>
    obtain ⟨rfl, hrest⟩ := hzone
    rw [List.mem_cons, not_or] at hrest
    exact ⟨if_neg (Ne.symm hrest.1), hrest.2⟩
  | endKeyword =>
    obtain ⟨rfl, hrest⟩ := hzone
    rw [List.mem_cons, not_or] at hrest
    rw [Zone.step, if_neg (Ne.symm hrest.1)]
    exact deliver _ _
  | surplus | stopped | refused => cases h

/-- **The reader agrees all along a text** in which no number begins outside of strings. -/
theorem run {text : List Char} (hzone : state.InZone zone) (hnumbers : zone.LacksNumbers text)
    (h : (state.run text).Becomes whole) : ∃ later, (state.run text).InZone later := by
  induction text generalizing state zone with
  | nil => exact ⟨zone, hzone⟩
  | cons c text ih =>
    obtain ⟨hnumber, hnumbers⟩ := hnumbers
    exact ih (of_leads (leads_step c state) hzone hnumber (.of_run h)) hnumbers h

end InZone
end State

theorem Zone.LacksNumbers.of_append {zone : Zone} {front rest : List Char}
    (h : zone.LacksNumbers (front ++ rest)) : zone.LacksNumbers front := by
  induction front generalizing zone with
  | nil => trivial
  | cons c front ih => exact ⟨h.1, ih h.2⟩

end Json
end DocTree
