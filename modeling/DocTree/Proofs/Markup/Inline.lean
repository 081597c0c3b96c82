/-
# The spans of a paragraph

A construct is written out in full where it is read, around a content that is not empty
(`eq_append_of_construct?`), so the spans of a text, written down one after the other, are
the text (`flatMap_spelling_spans`).
-/

import DocTree.Markup.Inline
import Mathlib.Data.List.TakeWhile

namespace DocTree
namespace Markup

/-- What a span is about, without the marks around it. -/
def Span.content : Span → List Char
  | plain text | reference text | code _ text | emphasis text => text

/-! ### Constructs -/

/-- What is enclosed is not empty, is without the mark that closes it, and is the text
together with what stands around it. -/
theorem eq_append_of_enclosed? {opening closing cs content rest : List Char} {mark : Char}
    (h : enclosed? opening mark closing cs = some (content, rest)) :
    cs = opening ++ content ++ closing ++ rest ∧ content ≠ [] ∧ mark ∉ content := by
  unfold enclosed? at h
  split at h
  · next hopening =>
    simp only at h
    split at h
    · next hcontent =>
      obtain ⟨rfl, rfl⟩ := Prod.mk.inj (Option.some.inj h)
      rw [Bool.and_eq_true, Bool.not_eq_true', List.isEmpty_eq_false_iff] at hcontent
      obtain ⟨after, rfl⟩ := List.isPrefixOf_iff_prefix.1 hopening
      obtain ⟨rest, hclosing⟩ := List.isPrefixOf_iff_prefix.1 hcontent.2
      have hsplit := List.takeWhile_append_dropWhile (p := (· ≠ mark)) (l := after)
      simp only [List.drop_left] at *
      refine ⟨?_, hcontent.1, fun hmark => ?_⟩
      · rw [← hclosing, List.drop_left, List.append_assoc, List.append_assoc, hclosing, hsplit]
      · simpa using List.mem_takeWhile_imp hmark
    · cases h
  · cases h

theorem eq_append_of_map_enclosed? {opening closing cs rest : List Char} {mark : Char}
    {span : Span} {f : List Char → Span}
    (h : (enclosed? opening mark closing cs).map (fun (content, rest) => (f content, rest)) =
      some (span, rest))
    (hspelling : ∀ content, (f content).spelling = opening ++ content ++ closing)
    (hcontent : ∀ content, (f content).content = content) :
    cs = span.spelling ++ rest ∧ span.content ≠ [] := by
  obtain ⟨⟨content, after⟩, henclosed, hspan⟩ := Option.map_eq_some_iff.1 h
  obtain ⟨rfl, rfl⟩ := Prod.mk.inj hspan
  obtain ⟨hcs, hne, -⟩ := eq_append_of_enclosed? henclosed
  rw [hspelling, hcontent]
  exact ⟨hcs, hne⟩

theorem eq_append_of_emphasis? {cs rest : List Char} {span : Span}
    (h : emphasis? cs = some (span, rest)) : cs = span.spelling ++ rest ∧ span.content ≠ [] := by
  unfold emphasis? at h
  split at h
  · next text after henclosed =>
    split at h
    · obtain ⟨rfl, rfl⟩ := Prod.mk.inj (Option.some.inj h)
      obtain ⟨hcs, hne, -⟩ := eq_append_of_enclosed? henclosed
      exact ⟨hcs, hne⟩
    · cases h
  · cases h

/-- **A construct stands at the start of the text it is read from,** and its content is not
empty. -/
theorem eq_append_of_construct? {cs rest : List Char} {span : Span}
    (h : construct? cs = some (span, rest)) :
    cs = span.spelling ++ rest ∧ span.content ≠ [] := by
  simp only [construct?, Option.or_eq_some_iff] at h
  obtain href | ⟨-, hdouble | ⟨-, hsingle | ⟨-, hemphasis⟩⟩⟩ := h
  · exact eq_append_of_map_enclosed? href (fun _ => rfl) fun _ => rfl
  · exact eq_append_of_map_enclosed? hdouble (fun _ => rfl) fun _ => rfl
  · exact eq_append_of_map_enclosed? hsingle (fun _ => rfl) fun _ => rfl
  · exact eq_append_of_emphasis? hemphasis

/-! ### Spans -/

/-- The span of some plain text, given newest character first; none of no text. -/
def flushed (plain : List Char) : List Span :=
  if plain.isEmpty then [] else [.plain plain.reverse]

theorem spansFrom_of_construct? {cs rest : List Char} {span : Span}
    (h : construct? cs = some (span, rest)) (plain : List Char) :
    spansFrom plain cs = flushed plain ++ span :: spans rest := by
  rw [spansFrom]
  split
  · next hread =>
    obtain ⟨rfl, rfl⟩ := Prod.mk.inj (Option.some.inj (h.symm.trans hread))
    rfl
  · next hread => cases h.symm.trans hread

theorem spansFrom_nil (plain : List Char) : spansFrom plain [] = flushed plain := by
  rw [spansFrom]
  rfl

theorem spansFrom_cons {c : Char} {cs : List Char} (h : construct? (c :: cs) = none)
    (plain : List Char) : spansFrom plain (c :: cs) = spansFrom (c :: plain) cs := by
  rw [spansFrom]
  split
  · next hread => cases h.symm.trans hread
  · rfl

theorem flatMap_spelling_flushed (plain : List Char) :
    (flushed plain).flatMap Span.spelling = plain.reverse := by
  cases plain with
  | nil => rfl
  | cons c plain => exact List.append_nil _

theorem flatMap_spelling_spansFrom (plain cs : List Char) :
    (spansFrom plain cs).flatMap Span.spelling = plain.reverse ++ cs := by
  induction plain, cs using spansFrom.induct with
  | case1 plain cs span rest h ih =>
    rw [spansFrom_of_construct? h, List.flatMap_append, List.flatMap_cons,
      flatMap_spelling_flushed, spans, ih, (eq_append_of_construct? h).1]
    rfl
  | case2 plain h => rw [spansFrom_nil, flatMap_spelling_flushed, List.append_nil]
  | case3 plain c cs h ih =>
    rw [spansFrom_cons h, ih, List.reverse_cons, List.append_assoc]
    rfl

/-- **No character is lost:** the spans of a text, written down, are the text. -/
theorem flatMap_spelling_spans (cs : List Char) : (spans cs).flatMap Span.spelling = cs :=
  flatMap_spelling_spansFrom [] cs

theorem content_ne_nil_of_mem_flushed {plain : List Char} {span : Span}
    (h : span ∈ flushed plain) : span.content ≠ [] := by
  cases plain with
  | nil => cases h
  | cons c plain =>
    obtain rfl := List.mem_singleton.1 h
    exact List.reverse_ne_nil_iff.2 (List.cons_ne_nil c plain)

theorem content_ne_nil_of_mem_spansFrom {plain cs : List Char} {span : Span}
    (h : span ∈ spansFrom plain cs) : span.content ≠ [] := by
  induction plain, cs using spansFrom.induct with
  | case1 plain cs first rest hread ih =>
    rw [spansFrom_of_construct? hread, List.mem_append, List.mem_cons] at h
    obtain h | rfl | h := h
    · exact content_ne_nil_of_mem_flushed h
    · exact (eq_append_of_construct? hread).2
    · exact ih h
  | case2 plain hread =>
    rw [spansFrom_nil] at h
    exact content_ne_nil_of_mem_flushed h
  | case3 plain c cs hread ih =>
    rw [spansFrom_cons hread] at h
    exact ih h

/-- **Every span is about something.** -/
theorem content_ne_nil_of_mem_spans {cs : List Char} {span : Span} (h : span ∈ spans cs) :
    span.content ≠ [] :=
  content_ne_nil_of_mem_spansFrom h

/-- A text that is not empty has a span. -/
theorem spans_ne_nil {cs : List Char} (h : cs ≠ []) : spans cs ≠ [] := by
  intro hspans
  rw [← flatMap_spelling_spans cs, hspans] at h
  exact h rfl

end Markup
end DocTree
