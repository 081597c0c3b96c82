/-
# Reading a quoted string

A string between quotation marks, as it is written, is read back character by character:
each character is one step or a few of the reader (`Quoted.feed_escape`), and then the
whole text is (`Quoted.feed_flatMap_escape`).  However a string is written, there are few ways
in which it goes on (`Quoted.step_eq_more_cases`), and one in which it ends.
-/

import DocTree.Json.Quoted
import DocTree.Json.Text

namespace DocTree
namespace Json
namespace Quoted

/-- The string after a character, if it goes on. -/
def more? (q : Quoted) (c : Char) : Option Quoted :=
  match q.step c with
  | .more next => some next
  | .done _ | .refused => none

theorem more?_eq_some_iff {q next : Quoted} {c : Char} :
    q.more? c = some next ↔ q.step c = .more next := by
  unfold more?
  cases q.step c <;> simp

/-- The string after some characters of the source, if it goes on after each of them. -/
def feed (q : Quoted) (cs : List Char) : Option Quoted :=
  cs.foldlM more? q

theorem feed_cons_of_more {q next : Quoted} {c : Char} (h : q.step c = .more next)
    (cs : List Char) : q.feed (c :: cs) = next.feed cs := by
  rw [feed, List.foldlM_cons, more?_eq_some_iff.2 h]
  rfl

theorem feed_append {q next : Quoted} {cs : List Char} (h : q.feed cs = some next)
    (ds : List Char) : q.feed (cs ++ ds) = next.feed ds := by
  rw [feed] at h
  rw [feed, List.foldlM_append, h]
  rfl

/-- The four digits of a control character, the newest first, spell its code. -/
theorem hexValue?_control {n : Nat} (h : n < 0x20) :
    hexValue? [Nat.digitChar (n % 16), Nat.digitChar (n / 16), '0', '0'] = some n := by
  revert n
  decide

theorem byteCount_control {n : Nat} (h : n < 0x20) :
    byteCount [Nat.digitChar (n / 16), '0', '0'] = 3 ∧
      byteCount [Nat.digitChar (n % 16), Nat.digitChar (n / 16), '0', '0'] = 4 := by
  revert n
  decide

theorem pushUnit_control (chars : List Char) {c : Char} (h : c.toNat < 0x20) (place : Place) :
    pushUnit { chars, place } c.toNat = { chars := c :: chars } := by
  have hlead : isLead c.toNat = false := by
    simp only [isLead, Bool.and_eq_false_imp, decide_eq_true_eq, decide_eq_false_iff_not]
    omega
  have htrail : isTrail c.toNat = false := by
    simp only [isTrail, Bool.and_eq_false_imp, decide_eq_true_eq, decide_eq_false_iff_not]
    omega
  simp [pushUnit, hlead, htrail, push, settle, Char.ofNat_toNat]

/-- A control character as it is written in hexadecimal digits. -/
theorem feed_control (chars : List Char) {c : Char} (h : c.toNat < 0x20) :
    feed { chars }
        ['\\', 'u', '0', '0', Nat.digitChar (c.toNat / 16), Nat.digitChar (c.toNat % 16)] =
      some { chars := c :: chars } := by
  obtain ⟨hthree, hfour⟩ := byteCount_control h
  have hthird : step { chars, place := .unit ['0', '0'] } (Nat.digitChar (c.toNat / 16)) =
      .more { chars, place := .unit [Nat.digitChar (c.toNat / 16), '0', '0'] } := by
    simp [step, hthree]
  have hfourth : step { chars, place := .unit [Nat.digitChar (c.toNat / 16), '0', '0'] }
      (Nat.digitChar (c.toNat % 16)) = .more { chars := c :: chars } := by
    simp only [step, hfour, hexValue?_control h, Nat.lt_irrefl, if_false]
    exact congrArg _ (pushUnit_control chars h _)
  calc feed { chars } ['\\', 'u', '0', '0', _, _]
      = feed { chars, place := .unit ['0', '0'] } [_, _] := rfl
    _ = feed { chars, place := .unit [Nat.digitChar (c.toNat / 16), '0', '0'] } [_] :=
      feed_cons_of_more hthird _
    _ = some { chars := c :: chars } := feed_cons_of_more hfourth _

/-- **A character as it is written stands for itself.** -/
theorem feed_escape (chars : List Char) (c : Char) :
    feed { chars } (escape c) = some { chars := c :: chars } := by
  unfold escape
  split
  · next h => rw [h]; rfl
  split
  · next h => rw [h]; rfl
  split
  · next h =>
    obtain rfl : c = '\x08' := Char.toNat_inj.1 h
    rfl
  split
  · next h => rw [h]; rfl
  split
  · next h => rw [h]; rfl
  split
  · next h =>
    obtain rfl : c = '\x0c' := Char.toNat_inj.1 h
    rfl
  split
  · next h => rw [h]; rfl
  split
  · next h => exact feed_control chars h
  · next hquote hslash _ _ _ _ _ hcontrol =>
    have hstep : step { chars } c = .more { chars := c :: chars } := by
      simp [step, hquote, hslash, hcontrol, push, settle]
    rw [feed_cons_of_more hstep]
    rfl

/-- **A text as it is written stands for itself.** -/
theorem feed_flatMap_escape (chars cs : List Char) :
    feed { chars } (cs.flatMap escape) = some { chars := cs.reverse ++ chars } := by
  induction cs generalizing chars with
  | nil => rfl
  | cons c cs ih =>
    rw [List.flatMap_cons, feed_append (feed_escape chars c), ih, List.reverse_cons,
      List.append_assoc, List.singleton_append]

/-- The closing quotation mark ends the string. -/
theorem step_quote (chars : List Char) :
    step { chars } '"' = .done (some (String.ofList chars.reverse)) := by
  simp [step, text, settle]

/-! ### What a character does -/

/-- **The ways in which a string goes on.**  A backslash opens an escape; any other character is
taken as it is, or as the escape it names; the digits of a code unit are taken together. -/
theorem step_eq_more_cases {q next : Quoted} {c : Char} (h : q.step c = .more next) :
    (q.place = .plain ∧ c = '\\' ∧ next = { q with place := .escape }) ∨
      (q.place = .plain ∧ c ≠ '"' ∧ c ≠ '\\' ∧ next = q.push c) ∨
      (q.place = .escape ∧ (next = { q with place := .unit [] } ∨ ∃ d, next = q.push d)) ∨
      ∃ digits, q.place = .unit digits ∧
        (next = { q with place := .unit (c :: digits) } ∨
          ∃ unit, hexValue? (c :: digits) = some unit ∧ next = q.pushUnit unit) := by
  cases hplace : q.place with
  | plain =>
    simp only [step, hplace] at h
    split at h
    · cases h
    · next hquote =>
      split at h
      · next hslash => exact .inl ⟨rfl, hslash, (Next.more.inj h).symm⟩
      · next hslash =>
        split at h
        · cases h
        · exact .inr (.inl ⟨rfl, hquote, hslash, (Next.more.inj h).symm⟩)
  | escape =>
    simp only [step, hplace] at h
    split at h
    · exact .inr (.inr (.inl ⟨rfl, .inl (Next.more.inj h).symm⟩))
    · split at h
      · exact .inr (.inr (.inl ⟨rfl, .inr ⟨_, (Next.more.inj h).symm⟩⟩))
      · cases h
  | unit digits =>
    simp only [step, hplace] at h
    split at h
    · exact .inr (.inr (.inr ⟨digits, rfl, .inl (Next.more.inj h).symm⟩))
    · split at h
      · next unit hunit =>
        exact .inr (.inr (.inr ⟨digits, rfl, .inr ⟨unit, hunit, (Next.more.inj h).symm⟩⟩))
      · cases h

/-- A string ends at a quotation mark that stands between its characters. -/
theorem eq_of_step_eq_done {q : Quoted} {c : Char} {text : StringText} (h : q.step c = .done text) :
    q.place = .plain ∧ c = '"' ∧ text = q.text := by
  cases hplace : q.place with
  | plain =>
    simp only [step, hplace] at h
    split at h
    · next hquote => exact ⟨rfl, hquote, (Next.done.inj h).symm⟩
    · split at h
      · cases h
      · split at h <;> cases h
  | escape =>
    simp only [step, hplace] at h
    split at h
    · cases h
    · split at h <;> cases h
  | unit digits =>
    simp only [step, hplace] at h
    split at h
    · cases h
    · split at h <;> cases h

end Quoted
end Json
end DocTree
