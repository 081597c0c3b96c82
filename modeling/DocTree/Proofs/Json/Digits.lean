/-
# Reading a number

A numeral that is grammatical (`Numeral.IsGrammatical`) is read back from its characters:
the first begins a number, which goes on after every other one, and the number that is
read then is the numeral (`Digits.exists_feed_text`).
-/

import DocTree.Json.Digits

namespace DocTree
namespace Json

/-- Whether the characters of a numeral are a JSON number: digits before the point, without
a leading zero unless it stands alone, and digits after it. -/
structure Numeral.IsGrammatical (n : Numeral) : Prop where
  whole : n.whole ≠ []
  zero : n.whole.head? = some '0' → n.whole = ['0']
  digits : ∀ c ∈ n.whole ++ n.fraction, c.isDigit = true

namespace Numeral

instance (n : Numeral) : Decidable n.IsGrammatical :=
  decidable_of_iff (n.whole ≠ [] ∧ (n.whole.head? = some '0' → n.whole = ['0']) ∧
      (n.whole ++ n.fraction).all Char.isDigit = true)
    ⟨fun ⟨whole, zero, digits⟩ => ⟨whole, zero, List.all_eq_true.1 digits⟩,
      fun h => ⟨h.whole, h.zero, List.all_eq_true.2 h.digits⟩⟩

/-- The digits before the point are a zero, or begin with another digit. -/
theorem IsGrammatical.whole_cases {n : Numeral} (h : n.IsGrammatical) :
    n.whole = ['0'] ∨ ∃ c cs, n.whole = c :: cs ∧ c ≠ '0' ∧ c.isDigit = true := by
  obtain ⟨c, cs, hwhole⟩ := List.exists_cons_of_ne_nil h.whole
  by_cases hc : c = '0'
  · exact .inl (h.zero (by rw [hwhole, hc, List.head?_cons]))
  · have hdigit := h.digits c (List.mem_append_left _ (hwhole ▸ List.mem_cons_self))
    exact .inr ⟨c, cs, hwhole, hc, hdigit⟩

end Numeral

namespace Digits

/-- The number after a character, if it goes on. -/
def more? (d : Digits) (c : Char) : Option Digits :=
  match d.step c with
  | .more next => some next
  | .ended | .refused => none

theorem more?_eq_some_iff {d next : Digits} {c : Char} :
    d.more? c = some next ↔ d.step c = .more next := by
  unfold more?
  cases d.step c <;> simp

/-- The number after some characters of the source, if it goes on after each of them. -/
def feed (d : Digits) (cs : List Char) : Option Digits :=
  cs.foldlM more? d

theorem feed_cons_of_more {d next : Digits} {c : Char} (h : d.step c = .more next)
    (cs : List Char) : d.feed (c :: cs) = next.feed cs := by
  rw [feed, List.foldlM_cons, more?_eq_some_iff.2 h]
  rfl

theorem feed_append {d next : Digits} {cs : List Char} (h : d.feed cs = some next)
    (ds : List Char) : d.feed (cs ++ ds) = next.feed ds := by
  rw [feed] at h
  rw [feed, List.foldlM_append, h]
  rfl

/-! ### The parts of a numeral -/

/-- The number after a run of digits of the part that it is in. -/
def takeDigits (d : Digits) (cs : List Char) : Digits :=
  match d.part with
  | .whole => { d with whole := cs.reverse ++ d.whole }
  | .fraction => { d with fraction := cs.reverse ++ d.fraction }
  | .exponent => { d with exponent := Nat.ofDigitChars 10 cs d.exponent }
  | _ => d

theorem takeDigits_nil (d : Digits) : d.takeDigits [] = d := by
  unfold takeDigits
  split <;> rfl

theorem takeDigits_cons (d : Digits) (c : Char) (cs : List Char) :
    (d.takeDigits [c]).takeDigits cs = d.takeDigits (c :: cs) := by
  cases h : d.part <;> simp [takeDigits, h, Nat.ofDigitChars_cons]

theorem feed_digits {d : Digits}
    (hrun : d.part = .whole ∨ d.part = .fraction ∨ d.part = .exponent) {cs : List Char}
    (hcs : ∀ c ∈ cs, c.isDigit = true) : d.feed cs = some (d.takeDigits cs) := by
  induction cs generalizing d with
  | nil => exact congrArg some (takeDigits_nil d).symm
  | cons c cs ih =>
    rw [List.forall_mem_cons] at hcs
    have hstep : d.step c = .more (d.takeDigits [c]) := by
      rcases hrun with h | h | h <;> simp [step, takeDigits, pushExponent, Numeral.digitValue,
        Nat.ofDigitChars_cons, Nat.mul_comm, h, hcs.1]
    have hpart : (d.takeDigits [c]).part = d.part := by
      rcases hrun with h | h | h <;> simp [takeDigits, h]
    rw [feed_cons_of_more hstep, ih (hpart ▸ hrun) hcs.2, takeDigits_cons]

/-- Whether the number is complete up to its power of ten. -/
def AtPower (d : Digits) : Prop :=
  (d.part = .zero ∨ d.part = .whole ∨ d.part = .fraction) ∧
    d.exponentNegative = false ∧ d.exponent = 0

/-- The sign and the digits before the point. -/
theorem exists_feed_whole {n : Numeral} (h : n.IsGrammatical) :
    ∃ c cs first last, (if n.negative then ['-'] else []) ++ n.whole = c :: cs ∧
      start? c = some first ∧ first.feed cs = some last ∧ last.AtPower ∧ last.part ≠ .fraction ∧
      last.negative = n.negative ∧ last.whole = n.whole.reverse ∧ last.fraction = [] := by
  rcases h.whole_cases with hzero | ⟨c, cs, hwhole, hc, hdigit⟩
  · cases hneg : n.negative with
    | false =>
      refine ⟨'0', [], { part := .zero, whole := ['0'] }, _, by simp [hzero], rfl, rfl, ?_⟩
      simp [AtPower, hzero]
    | true =>
      refine ⟨'-', ['0'], { part := .sign, negative := true }, _, by simp [hzero], rfl, rfl, ?_⟩
      simp [AtPower, hzero]
  · have hcs : ∀ d ∈ cs, d.isDigit = true := fun d hd =>
      h.digits d (List.mem_append_left _ (hwhole ▸ List.mem_cons_of_mem _ hd))
    cases hneg : n.negative with
    | false =>
      have hstart : start? c = some { part := .whole, whole := [c] } := by
        have hminus : c ≠ '-' := by rintro rfl; cases hdigit
        simp [start?, hminus, hc, hdigit]
      refine ⟨c, cs, _, _, by simp [hwhole], hstart, feed_digits (.inl rfl) hcs, ?_⟩
      simp [AtPower, takeDigits, hwhole]
    | true =>
      have hstep : step { part := .sign, negative := true } c =
          .more { part := .whole, negative := true, whole := [c] } := by
        simp [step, hc, hdigit]
      refine ⟨'-', c :: cs, { part := .sign, negative := true }, _, by simp [hwhole], rfl,
        (feed_cons_of_more hstep cs).trans (feed_digits (.inl rfl) hcs), ?_⟩
      simp [AtPower, takeDigits, hwhole]

/-- The point and the digits after it. -/
theorem exists_feed_fraction {d : Digits} (hd : d.AtPower) (hpart : d.part ≠ .fraction)
    (hfraction : d.fraction = []) {cs : List Char} (hcs : ∀ c ∈ cs, c.isDigit = true) :
    ∃ last, d.feed (if cs.isEmpty then [] else '.' :: cs) = some last ∧ last.AtPower ∧
      last.negative = d.negative ∧ last.whole = d.whole ∧ last.fraction = cs.reverse := by
  cases cs with
  | nil => exact ⟨d, rfl, hd, rfl, rfl, hfraction⟩
  | cons c cs =>
    rw [List.forall_mem_cons] at hcs
    have hpoint : d.step '.' = .more { d with part := .point } := by
      rcases hd.1 with h | h | h
      · simp [step, h, afterWhole]
      · simp [step, h, afterWhole]
      · exact absurd h hpart
    have hfirst : step { d with part := .point } c =
        .more { d with part := .fraction, fraction := [c] } := by
      simp [step, hcs.1]
    refine ⟨_, (feed_cons_of_more hpoint _).trans ((feed_cons_of_more hfirst _).trans
      (feed_digits (.inr (.inl rfl)) hcs.2)), ?_⟩
    simp [AtPower, takeDigits, hd.2]

/-- The digits of the power of ten. -/
theorem feed_powerDigits {d : Digits} (hpart : d.part = .mark ∨ d.part = .markSign)
    (hzero : d.exponent = 0) (n : Nat) :
    d.feed (Nat.toDigits 10 n) = some { d with part := .exponent, exponent := n } := by
  obtain ⟨c, cs, hcs⟩ := List.exists_cons_of_ne_nil (Nat.toDigits_ne_nil (n := n) (b := 10))
  have hall : ∀ c ∈ Nat.toDigits 10 n, c.isDigit = true := fun c hc =>
    Nat.isDigit_of_mem_toDigits (by decide) (by decide) hc
  rw [hcs, List.forall_mem_cons] at hall
  have hfirst : d.step c = .more (d.pushExponent c) := by
    rcases hpart with h | h <;> simp [step, h, hall.1]
  have hvalue : Nat.ofDigitChars 10 cs (d.exponent * 10 + Numeral.digitValue c) = n := by
    rw [← Nat.ofDigitChars_ten_toDigits (n := n), hcs, Nat.ofDigitChars_cons, hzero]
    rfl
  rw [hcs, feed_cons_of_more hfirst, feed_digits (.inr (.inr rfl)) hall.2]
  exact congrArg (fun exponent => some { d with part := .exponent, exponent }) hvalue

/-- The letter, the sign and the digits of the power of ten. -/
theorem exists_feed_exponent {d : Digits} (hd : d.AtPower) (exponent : Int) :
    ∃ last, d.feed (Numeral.exponentText exponent) = some last ∧ last.mayEnd = true ∧
      last.negative = d.negative ∧ last.whole = d.whole ∧ last.fraction = d.fraction ∧
      (if last.exponentNegative then -(last.exponent : Int) else last.exponent) = exponent := by
  obtain ⟨hpart, hpositive, hzero⟩ := hd
  have hmark : d.step 'e' = .more { d with part := .mark } := by
    rcases hpart with h | h | h <;> simp [step, h, afterWhole]
  match exponent with
  | .ofNat 0 =>
    refine ⟨d, rfl, ?_, rfl, rfl, rfl, by simp [hpositive, hzero]⟩
    rcases hpart with h | h | h <;> simp [mayEnd, h]
  | .ofNat (n + 1) =>
    have hpower := feed_powerDigits (d := { d with part := .mark }) (.inl rfl) hzero (n + 1)
    refine ⟨_, (feed_cons_of_more hmark _).trans hpower, ?_⟩
    simp [mayEnd, hpositive]
  | .negSucc n =>
    have hminus : step { d with part := .mark } '-' =
        .more { d with part := .markSign, exponentNegative := true } := by
      simp [step]
    have hpower := feed_powerDigits
      (d := { d with part := .markSign, exponentNegative := true }) (.inr rfl) hzero (n + 1)
    refine ⟨_, (feed_cons_of_more hmark _).trans ((feed_cons_of_more hminus _).trans hpower), ?_⟩
    simp [mayEnd, Int.negSucc_eq]

/-- **A grammatical numeral is read back from its characters.** -/
theorem exists_feed_text {n : Numeral} (h : n.IsGrammatical) :
    ∃ c cs first last, n.text = c :: cs ∧ start? c = some first ∧ first.feed cs = some last ∧
      last.mayEnd = true ∧ last.numeral = n := by
  obtain ⟨c, cs, first, d, htext, hstart, hfeed, hd, hpart, hneg, hwhole, hfraction⟩ :=
    exists_feed_whole h
  have hdigits : ∀ c ∈ n.fraction, c.isDigit = true := fun c hc =>
    h.digits c (List.mem_append_right _ hc)
  obtain ⟨d', hfeed', hd', hneg', hwhole', hfraction'⟩ :=
    exists_feed_fraction hd hpart hfraction hdigits
  obtain ⟨last, hlast, hend, hneg'', hwhole'', hfraction'', hexponent⟩ :=
    exists_feed_exponent hd' n.exponent
  refine ⟨c, cs ++ (if n.fraction.isEmpty then [] else '.' :: n.fraction) ++
    Numeral.exponentText n.exponent, first, last, ?_, hstart, ?_, hend, ?_⟩
  · rw [Numeral.text, htext, List.cons_append, List.cons_append]
  · rw [List.append_assoc, feed_append hfeed, feed_append hfeed', hlast]
  · rw [numeral, hneg'', hneg', hneg, hwhole'', hwhole', hwhole, hfraction'', hfraction', hexponent,
      List.reverse_reverse, List.reverse_reverse]

/-- A number that may end does so before whatever does not belong to a number. -/
theorem step_of_mayEnd {d : Digits} (h : d.mayEnd = true) {c : Char} (hdigit : c.isDigit = false)
    (hpoint : c ≠ '.') (hmark : c ≠ 'e') (hcapital : c ≠ 'E') : d.step c = .ended := by
  cases hpart : d.part with
  | zero | whole | fraction | exponent =>
    simp [step, afterWhole, hpart, hdigit, hpoint, hmark, hcapital]
  | sign | point | mark | markSign => simp [mayEnd, hpart] at h

/-- A number ends only where it may. -/
theorem mayEnd_of_step {d : Digits} {c : Char} (h : d.step c = .ended) : d.mayEnd = true := by
  unfold step at h
  unfold mayEnd
  cases hpart : d.part <;> rw [hpart] at h <;> dsimp only at h ⊢
  all_goals repeat' split at h
  all_goals cases h

end Digits
end Json
end DocTree
