/-
# The reading of a paragraph

A reading of a text (`IsReading`) cuts it into plain text and constructs in such a way that
no construct begins inside of plain text.  Every text has one reading, which is what its
spans are (`inlineNodes_reading`).  In particular spans that are written down one after the
other are read back, if plain text among them has no marks of its own
(`inlineNodes_written`).
-/

import DocTree.Proofs.Markup.Construct
import Mathlib.Data.List.Chain
import Mathlib.Data.List.Infix

namespace DocTree
namespace Markup

/-- Whether a span is plain text. -/
def Span.isPlain : Span → Bool
  | plain _ => true
  | _ => false

/-- Whether a span can be a segment of a text: a construct, or plain text that is not empty. -/
def Span.IsSegment : Span → Prop
  | plain text => text ≠ []
  | span => span.IsConstruct

/-- Whether a construct is written at the beginning of a text. -/
def BeginsConstruct (cs : List Char) : Prop :=
  ∃ span : Span, span.IsConstruct ∧ span.spelling <+: cs

/-- Whether spans are a reading of a text. -/
structure IsReading (cs : List Char) (cut : List Span) : Prop where
  /-- Put together, the spans are the text. -/
  spelling : cut.flatMap Span.spelling = cs
  /-- Each is a construct, or plain text that is not empty. -/
  segment : ∀ span ∈ cut, span.IsSegment
  /-- Plain text does not stand next to plain text. -/
  apart : cut.IsChain fun span next => ¬(span.isPlain = true ∧ next.isPlain = true)
  /-- Nowhere in plain text does a construct begin, not even one that ends after it. -/
  leftmost : ∀ before text after, cut = before ++ .plain text :: after →
    ∀ back, back ≠ [] → back <:+ text → ¬BeginsConstruct (back ++ after.flatMap Span.spelling)

theorem Span.IsConstruct.isPlain_eq_false {span : Span} (h : span.IsConstruct) :
    span.isPlain = false := by
  cases span with
  | plain text => exact h.elim
  | _ => rfl

theorem Span.IsConstruct.isSegment {span : Span} (h : span.IsConstruct) : span.IsSegment := by
  cases span with
  | plain text => exact h.elim
  | _ => exact h

theorem Span.IsSegment.isConstruct {span : Span} (h : span.IsSegment)
    (hplain : span.isPlain = false) : span.IsConstruct := by
  cases span with
  | plain text => cases hplain
  | _ => exact h

theorem Span.exists_plain_of_isPlain {span : Span} (h : span.isPlain = true) :
    ∃ text, span = .plain text := by
  cases span with
  | plain text => exact ⟨text, rfl⟩
  | _ => cases h

theorem construct?_eq_none_iff_not_begins {cs : List Char} :
    construct? cs = none ↔ ¬BeginsConstruct cs := by
  rw [construct?_eq_none_iff, BeginsConstruct]
  grind

/-! ### Spans of a text in two parts -/

theorem flushed_reverse {text : List Char} (h : text ≠ []) :
    flushed text.reverse = [.plain text] := by
  rw [flushed, List.isEmpty_reverse, List.reverse_reverse, if_neg (by simpa using h)]

theorem spans_of_construct? {cs rest : List Char} {span : Span}
    (h : construct? cs = some (span, rest)) : spans cs = span :: spans rest :=
  spansFrom_of_construct? h []

/-- Text in which no construct begins is passed over. -/
theorem spansFrom_append {text rest : List Char}
    (hfree : ∀ back, back ≠ [] → back <:+ text → construct? (back ++ rest) = none)
    (plain : List Char) :
    spansFrom plain (text ++ rest) = spansFrom (text.reverse ++ plain) rest := by
  induction text generalizing plain with
  | nil => rfl
  | cons c text ih =>
    have hhere : construct? (c :: (text ++ rest)) = none :=
      hfree (c :: text) (List.cons_ne_nil c text) List.suffix_rfl
    have hlater := ih
      (fun back hne hsuffix => hfree back hne (hsuffix.trans (List.suffix_cons c _))) (c :: plain)
    rw [List.cons_append, spansFrom_cons hhere, hlater, List.reverse_cons, List.append_assoc]
    rfl

namespace IsReading

variable {cs rest text : List Char} {cut : List Span} {span : Span}

/-! ### Readings segment by segment -/

theorem nil : IsReading [] [] where
  spelling := rfl
  segment _ h := absurd h List.not_mem_nil
  apart := .nil
  leftmost _ _ _ h := by simp at h

/-- A construct in front of a text is a segment of its own. -/
theorem construct (h : span.IsConstruct) (hrest : IsReading rest cut) :
    IsReading (span.spelling ++ rest) (span :: cut) where
  spelling := by rw [List.flatMap_cons, hrest.spelling]
  segment s hs := by
    rcases List.mem_cons.1 hs with rfl | hs
    · exact h.isSegment
    · exact hrest.segment s hs
  apart := by
    refine List.isChain_cons.2 ⟨fun next _ hplain => ?_, hrest.apart⟩
    exact Bool.false_ne_true (h.isPlain_eq_false.symm.trans hplain.1)
  leftmost before text after hcut := by
    cases before with
    | nil =>
      obtain ⟨rfl, -⟩ := List.cons.inj hcut
      exact h.elim
    | cons first before => exact hrest.leftmost before text after (List.cons.inj hcut).2

/-- Plain text in front of a text that does not go on with plain text is a segment of its own,
if no construct begins in it. -/
theorem plain (hne : text ≠ []) (hnext : ∀ next ∈ cut.head?, next.isPlain = false)
    (hfree : ∀ back, back ≠ [] → back <:+ text → construct? (back ++ rest) = none)
    (hrest : IsReading rest cut) : IsReading (text ++ rest) (.plain text :: cut) where
  spelling := by rw [List.flatMap_cons, hrest.spelling]; rfl
  segment s hs := by
    rcases List.mem_cons.1 hs with rfl | hs
    · exact hne
    · exact hrest.segment s hs
  apart := by
    refine List.isChain_cons.2 ⟨fun next hmem hplain => ?_, hrest.apart⟩
    exact Bool.false_ne_true ((hnext next hmem).symm.trans hplain.2)
  leftmost before text' after hcut back hback hsuffix := by
    cases before with
    | nil =>
      obtain ⟨htext, rfl⟩ := List.cons.inj hcut
      obtain rfl := Span.plain.inj htext
      rw [hrest.spelling]
      exact construct?_eq_none_iff_not_begins.1 (hfree back hback hsuffix)
    | cons first before =>
      exact hrest.leftmost before text' after (List.cons.inj hcut).2 back hback hsuffix

/-- What follows the first segment is read without it. -/
theorem tail (h : IsReading cs (span :: cut)) :
    ∃ rest, cs = span.spelling ++ rest ∧ IsReading rest cut :=
  ⟨cut.flatMap Span.spelling, h.spelling.symm, rfl,
    fun s hs => h.segment s (List.mem_cons_of_mem _ hs), h.apart.tail,
    fun before text after hcut => h.leftmost (span :: before) text after (by rw [hcut]; rfl)⟩

/-! ### The spans of a text are a reading of it -/

/-- Plain text that comes before the spans, and in which no construct begins, is read with them. -/
theorem flushed_append {plain : List Char} (hnext : ∀ next ∈ cut.head?, next.isPlain = false)
    (hfree : ∀ back, back ≠ [] → back <:+ plain.reverse → construct? (back ++ rest) = none)
    (hrest : IsReading rest cut) : IsReading (plain.reverse ++ rest) (flushed plain ++ cut) := by
  cases plain with
  | nil => exact hrest
  | cons c plain =>
    exact IsReading.plain (List.reverse_ne_nil_iff.2 (List.cons_ne_nil c plain)) hnext hfree hrest

theorem of_spansFrom (plain cs : List Char)
    (hfree : ∀ back, back ≠ [] → back <:+ plain.reverse → construct? (back ++ cs) = none) :
    IsReading (plain.reverse ++ cs) (spansFrom plain cs) := by
  induction plain, cs using spansFrom.induct with
  | case1 plain cs span rest hread ih =>
    obtain ⟨hspan, hcs⟩ := construct?_eq_some_iff.1 hread
    have hrest : IsReading rest (spans rest) := ih fun back hne hnil =>
      absurd (List.suffix_nil.1 hnil) hne
    have hnext : ∀ next ∈ (span :: spans rest).head?, next.isPlain = false := by
      intro next hmem
      obtain rfl := Option.some.inj hmem
      exact hspan.isPlain_eq_false
    rw [spansFrom_of_construct? hread]
    exact flushed_append hnext hfree (hcs ▸ .construct hspan hrest)
  | case2 plain hread =>
    have hplain := flushed_append (fun _ h => absurd h (by simp)) hfree .nil
    rwa [List.append_nil (flushed plain), ← spansFrom_nil] at hplain
  | case3 plain c cs hread ih =>
    rw [spansFrom_cons hread]
    have hrest := ih fun back hne hsuffix => ?_
    · rwa [List.reverse_cons, List.append_assoc] at hrest
    · -- The last place in the longer text is where the construct was looked for just now.
      rw [List.reverse_cons, List.suffix_concat_iff] at hsuffix
      obtain rfl | ⟨front, rfl, hfront⟩ := hsuffix
      · exact absurd rfl hne
      · rw [List.append_assoc, List.singleton_append]
        by_cases hfirst : front = []
        · rw [hfirst]
          exact hread
        · exact hfree front hfirst hfront

/-! ### There is no other reading -/

/-- Where the next segment is not plain text, the text ends or a construct begins, so plain text
before it ends there. -/
theorem spansFrom_eq (h : IsReading cs cut) (hnext : ∀ next ∈ cut.head?, next.isPlain = false)
    (plain : List Char) : spansFrom plain cs = flushed plain ++ spans cs := by
  cases cut with
  | nil =>
    obtain rfl : [] = cs := h.spelling
    rw [spansFrom_nil, spans, spansFrom_nil]
    exact (List.append_nil _).symm
  | cons next cut =>
    obtain ⟨rest, rfl, -⟩ := h.tail
    have hconstruct := (h.segment next List.mem_cons_self).isConstruct (hnext next rfl)
    have hread := construct?_of_isConstruct hconstruct rest
    rw [spansFrom_of_construct? hread, spans_of_construct? hread]

/-- **A reading of a text is what its spans are.** -/
theorem eq_spans (h : IsReading cs cut) : cut = spans cs := by
  induction cut generalizing cs with
  | nil =>
    obtain rfl : [] = cs := h.spelling
    rw [spans, spansFrom_nil]
    rfl
  | cons span cut ih =>
    obtain ⟨rest, rfl, hrest⟩ := h.tail
    cases hplain : span.isPlain with
    | false =>
      have hconstruct := (h.segment span List.mem_cons_self).isConstruct hplain
      rw [spans_of_construct? (construct?_of_isConstruct hconstruct rest), ih hrest]
    | true =>
      obtain ⟨text, rfl⟩ := Span.exists_plain_of_isPlain hplain
      have hne : text ≠ [] := h.segment _ List.mem_cons_self
      have hfree : ∀ back, back ≠ [] → back <:+ text → construct? (back ++ rest) = none := by
        intro back hback hsuffix
        rw [construct?_eq_none_iff_not_begins, ← hrest.spelling]
        exact h.leftmost [] text cut rfl back hback hsuffix
      have hnext : ∀ next ∈ cut.head?, next.isPlain = false := fun next hmem =>
        Bool.eq_false_iff.2 fun hnext => (List.isChain_cons.1 h.apart).1 next hmem ⟨rfl, hnext⟩
      show _ = spans (text ++ rest)
      rw [spans, spansFrom_append hfree, hrest.spansFrom_eq hnext, ← ih hrest, List.append_nil,
        flushed_reverse hne]
      rfl

end IsReading

/-- **Every text has one reading,** and the nodes of the text are those of the segments in it. -/
theorem inlineNodes_reading (text : List Char) :
    (∃! cut, IsReading text cut) ∧
      ∀ cut, IsReading text cut → inlineNodes text = cut.map Span.toNode := by
  refine ⟨⟨spans text, ?_, fun cut h => h.eq_spans⟩, fun cut h => ?_⟩
  · exact .of_spansFrom [] text fun back hne hnil => absurd (List.suffix_nil.1 hnil) hne
  · rw [inlineNodes, ← h.eq_spans]

/-- A text with stars and a backtick that belong to no construct, and its reading. -/
theorem inlineNodes_reading_sample :
    IsReading "2 * 3 *is* `6".toList
        [.plain "2 * 3 ".toList, .emphasis "is".toList, .plain " `6".toList] ∧
      inlineNodes "2 * 3 *is* `6".toList =
        [.text "2 * 3 ", .emphasis [.text "is"], .text " `6"] := by
  have hfirst : ∀ back ∈ "2 * 3 ".toList.tails, back ≠ [] →
      construct? (back ++ "*is* `6".toList) = none := by decide +kernel
  have hlast : ∀ back ∈ " `6".toList.tails, back ≠ [] → construct? (back ++ []) = none := by
    decide +kernel
  have hend : IsReading (" `6".toList ++ []) [.plain " `6".toList] := by
    refine .plain (by decide +kernel) nofun (fun back hne h => ?_) .nil
    exact hlast back ((List.mem_tails _ _).2 h) hne
  have hemphasis : (Span.emphasis "is".toList).IsConstruct := by decide +kernel
  have hreading : IsReading ("2 * 3 ".toList ++ "*is* `6".toList)
      [.plain "2 * 3 ".toList, .emphasis "is".toList, .plain " `6".toList] := by
    refine .plain (by decide +kernel) (by decide +kernel) (fun back hne h => ?_)
      (.construct hemphasis hend)
    exact hfirst back ((List.mem_tails _ _).2 h) hne
  exact ⟨hreading, (inlineNodes_reading _).2 _ hreading⟩

/-! ### Spans that are written down -/

/-- The name of the role that a reference is written with, in its braces. -/
def roleName : List Char :=
  '\x7b' :: "func".toList ++ ['\x7d']

/-- Whether a span can be written down: a construct, or plain text that is not empty and has no
marks in it. -/
def Span.IsPiece : Span → Prop
  | plain text => text ≠ [] ∧ backtick ∉ text ∧ '*' ∉ text
  | span => span.IsConstruct

/-- Whether a span can be written down before another one: plain text not before plain text, nor,
if it ends with the name of the role of references, before code between single backticks, which
would be taken for the name of a reference. -/
def Span.MayPrecede : Span → Span → Prop
  | plain _, plain _ => False
  | plain text, code false _ => ¬roleName <:+ text
  | _, _ => True

instance : DecidablePred Span.IsPiece
  | .plain _ => inferInstanceAs (Decidable (_ ∧ _))
  | .reference name => inferInstanceAs (Decidable (Span.reference name).IsConstruct)
  | .code doubled text => inferInstanceAs (Decidable (Span.code doubled text).IsConstruct)
  | .emphasis text => inferInstanceAs (Decidable (Span.emphasis text).IsConstruct)

instance : DecidableRel Span.MayPrecede
  | .plain _, .plain _ => inferInstanceAs (Decidable False)
  | .plain text, .code false _ => inferInstanceAs (Decidable (¬roleName <:+ text))
  | .plain _, .code true _ | .plain _, .reference _ | .plain _, .emphasis _
  | .reference _, _ | .code _ _, _ | .emphasis _, _ => inferInstanceAs (Decidable True)

/-- What a construct begins with. -/
theorem Span.IsConstruct.exists_spelling_eq_cons {span : Span} (h : span.IsConstruct) :
    ∃ c cs, span.spelling = c :: cs ∧ (c = '\x7b' ∨ c = backtick ∨ c = '*') := by
  cases span with
  | plain text => exact h.elim
  | reference name => exact ⟨_, _, rfl, .inl rfl⟩
  | code doubled text => cases doubled <;> exact ⟨_, _, rfl, .inr (.inl rfl)⟩
  | emphasis text => exact ⟨_, _, rfl, .inr (.inr rfl)⟩

/-- A text up to a mark, and another one before which there is none. -/
theorem exists_append_of_mark_not_mem {front tail back rest : List Char} {mark : Char}
    (h : front ++ mark :: tail = back ++ rest) (hmark : mark ∉ back) :
    ∃ middle, front = back ++ middle ∧ rest = middle ++ mark :: tail := by
  rcases List.append_eq_append_iff.1 h with ⟨middle, hback, hrest⟩ | ⟨middle, hfront, hrest⟩
  · cases middle with
    | nil => exact ⟨[], by simpa using hback.symm, by simpa using hrest.symm⟩
    | cons c middle =>
      obtain ⟨rfl, -⟩ := List.cons.inj hrest
      exact absurd (hback ▸ List.mem_append_right front List.mem_cons_self) hmark
  · exact ⟨middle, hfront, hrest⟩

/-- Where a reference would begin with the end of some plain text, the text ends with the role,
and its name would have to follow, which is not how a piece begins. -/
theorem not_reference_after {text back : List Char} (hbacktick : backtick ∉ text)
    (hback : back ≠ []) (hsuffix : back <:+ text) {next : Span} (hnext : next.IsConstruct)
    (hprecede : (Span.plain text).MayPrecede next) {name more rest : List Char}
    (hname : name ≠ []) (hmark : backtick ∉ name)
    (hwritten : roleName ++ backtick :: (name ++ more) = back ++ (next.spelling ++ rest)) :
    False := by
  obtain ⟨middle, hrole, hrest⟩ := exists_append_of_mark_not_mem hwritten
    fun hmem => hbacktick (hsuffix.subset hmem)
  obtain ⟨c, cs, hspelling, hc⟩ := hnext.exists_spelling_eq_cons
  rw [hspelling, List.cons_append] at hrest
  cases middle with
  | cons d middle =>
    -- The role would have to go on after the plain text, but nothing begins like the rest of it.
    have hinside : ∀ d ∈ roleName.tail, ¬(d = '\x7b' ∨ d = backtick ∨ d = '*') := by
      simp [roleName, backtick]
    obtain ⟨first, back, rfl⟩ := List.exists_cons_of_ne_nil hback
    obtain ⟨rfl, -⟩ := List.cons.inj hrest
    refine hinside c ?_ hc
    rw [hrole, List.cons_append, List.tail_cons]
    exact List.mem_append_right back List.mem_cons_self
  | nil =>
    obtain rfl : roleName = back := by rwa [List.append_nil] at hrole
    obtain ⟨rfl, hcs⟩ := List.cons.inj hrest
    obtain ⟨first, name, rfl⟩ := List.exists_cons_of_ne_nil hname
    cases next with
    | plain text => exact hnext
    | reference name => exact absurd (List.cons.inj hspelling).1 (by decide)
    | emphasis text => exact absurd (List.cons.inj hspelling).1 (by decide)
    | code doubled text =>
      cases doubled with
      | false => exact hprecede hsuffix
      | true =>
        obtain ⟨-, rfl⟩ := List.cons.inj hspelling
        obtain ⟨rfl, -⟩ := List.cons.inj hcs
        exact hmark List.mem_cons_self

/-- No construct begins in plain text without marks, whatever comes after it. -/
theorem not_beginsConstruct {text back : List Char} (hbacktick : backtick ∉ text)
    (hstar : '*' ∉ text) (hback : back ≠ []) (hsuffix : back <:+ text) {pieces : List Span}
    (hpieces : ∀ span ∈ pieces, span.IsPiece)
    (hnext : ∀ next ∈ pieces.head?, (Span.plain text).MayPrecede next) :
    ¬BeginsConstruct (back ++ pieces.flatMap Span.spelling) := by
  rintro ⟨span, hspan, rest, hwritten⟩
  cases span with
  | plain text => exact hspan
  | reference name =>
    have hrole : roleName ++ backtick :: (name ++ (backtick :: rest)) =
        back ++ pieces.flatMap Span.spelling := by
      rw [← hwritten]
      simp [Span.spelling, referenceMark, roleName]
    cases pieces with
    | nil =>
      obtain ⟨middle, -, hrest⟩ := exists_append_of_mark_not_mem hrole
        fun hmem => hbacktick (hsuffix.subset hmem)
      simp at hrest
    | cons next pieces =>
      have hprecede := hnext next rfl
      have hconstruct : next.IsConstruct := by
        have hpiece := hpieces next List.mem_cons_self
        cases next with
        | plain text => exact hprecede.elim
        | _ => exact hpiece
      exact not_reference_after hbacktick hback hsuffix hconstruct hprecede hspan.1 hspan.2 hrole
  | code doubled text =>
    obtain ⟨c, back, rfl⟩ := List.exists_cons_of_ne_nil hback
    have hhead : c = backtick := by
      cases doubled <;> exact (List.cons.inj hwritten).1.symm
    exact hbacktick (hhead ▸ hsuffix.subset List.mem_cons_self)
  | emphasis text =>
    obtain ⟨c, back, rfl⟩ := List.exists_cons_of_ne_nil hback
    have hhead : c = '*' := (List.cons.inj hwritten).1.symm
    exact hstar (hhead ▸ hsuffix.subset List.mem_cons_self)

/-- Spans that are written down are a reading of what is written. -/
theorem isReading_written {pieces : List Span} (hpieces : ∀ span ∈ pieces, span.IsPiece)
    (hchain : pieces.IsChain Span.MayPrecede) :
    IsReading (pieces.flatMap Span.spelling) pieces := by
  induction pieces with
  | nil => exact .nil
  | cons span pieces ih =>
    rw [List.forall_mem_cons] at hpieces
    rw [List.isChain_cons] at hchain
    have hrest := ih hpieces.2 hchain.2
    cases span with
    | plain text =>
      obtain ⟨hne, hbacktick, hstar⟩ := hpieces.1
      refine .plain hne (fun next hmem => ?_) (fun back hback hsuffix => ?_) hrest
      · have hnext := hchain.1 next hmem
        cases next with
        | plain text => exact hnext.elim
        | _ => rfl
      · exact construct?_eq_none_iff_not_begins.2
          (not_beginsConstruct hbacktick hstar hback hsuffix hpieces.2 hchain.1)
    | _ => exact .construct hpieces.1 hrest

/-- **Spans that are written down one after the other are read back,** one node for each, however
they touch. -/
theorem inlineNodes_written {pieces : List Span} (hpieces : ∀ span ∈ pieces, span.IsPiece)
    (hchain : pieces.IsChain Span.MayPrecede) :
    inlineNodes (pieces.flatMap Span.spelling) = pieces.map Span.toNode := by
  rw [inlineNodes, ← (isReading_written hpieces hchain).eq_spans]

/-- Constructs that touch each other and have each other's marks in them. -/
theorem inlineNodes_written_sample :
    inlineNodes "a\x7bfunc\x7d``x*```y``z`*b`**c*\x7bfunc\x7d`m.f`".toList =
      [.text "a\x7bfunc\x7d", .inlineCode "x*", .inlineCode "y", .inlineCode "z",
        .emphasis [.text "b`"], .emphasis [.text "c"],
        .link "#m.f" [.text "m.f"]] := by
  let pieces : List Span := [.plain "a\x7bfunc\x7d".toList, .code true "x*".toList,
      .code false "y".toList, .code false "z".toList, .emphasis "b`".toList,
      .emphasis "c".toList, .reference "m.f".toList]
  have hpieces : ∀ span ∈ pieces, span.IsPiece := by decide +kernel
  have hchain : pieces.IsChain Span.MayPrecede := by decide +kernel
  exact inlineNodes_written hpieces hchain

end Markup
end DocTree
