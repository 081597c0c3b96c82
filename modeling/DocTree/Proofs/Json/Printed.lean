/-
# Values as they are printed

A value can be printed on one line or on several, and there may be white space around it
(`IsPrinted`).  It is read back wherever a value may come (`IsPrinted.isAfter`): as a whole text,
as the value of a member or as an item of an array.
-/

import DocTree.Proofs.Json.Object

namespace DocTree
namespace Json

/-- Whether a text is a value as it is printed, in either layout, with any white space around it. -/
def IsPrinted (value : Json) (text : List Char) : Prop :=
  ∃ before printed after, (∀ c ∈ before, isSpace c = true) ∧ (∀ c ∈ after, isSpace c = true) ∧
    (printed = value.compactText ∨ ∃ level, printed = value.prettyText level) ∧
    text = before ++ (printed ++ after)

theorem isPrinted_compactText (value : Json) : IsPrinted value value.compactText :=
  ⟨[], _, [], List.forall_mem_nil _, List.forall_mem_nil _, .inl rfl, (List.append_nil _).symm⟩

theorem isPrinted_compact (value : Json) : IsPrinted value value.compact.toList := by
  rw [compact, String.toList_ofList]
  exact isPrinted_compactText value

theorem isPrinted_pretty (value : Json) : IsPrinted value value.pretty.toList :=
  ⟨[], value.prettyText 0, [], List.forall_mem_nil _, List.forall_mem_nil _, .inr ⟨0, rfl⟩,
    by simp [pretty]⟩

/-- Both layouts are texts of the value with some white space in it. -/
theorem exists_spacedText {value : Json} {printed : List Char}
    (h : printed = value.compactText ∨ ∃ level, printed = value.prettyText level) :
    ∃ gaps level, printed = value.spacedText gaps level := by
  rcases h with rfl | ⟨level, rfl⟩
  · exact ⟨.none, 0, (spacedText_none value 0).symm⟩
  · exact ⟨.lines, level, (spacedText_lines value level).symm⟩

namespace IsPrinted

variable {value : Json} {text : List Char}

/-- **A value that is printed is read back,** whatever is around it. -/
theorem isAfter (h : IsPrinted value text) (hnumbers : value.IsGrammatical) (outer : List Frame) :
    State.IsAfter outer value.draft (State.run (.expectValue outer) text) := by
  obtain ⟨before, printed, after, hbefore, hafter, hprinted, rfl⟩ := h
  obtain ⟨gaps, level, rfl⟩ := exists_spacedText hprinted
  rw [State.run_append, State.run_gap (.expectValue outer) rfl hbefore, State.run_append]
  exact (State.isAfter_spacedText gaps value level hnumbers outer).run_gap hafter

/-- The same as the first item of an array. -/
theorem isAfter_firstItem (h : IsPrinted value text) (hnumbers : value.IsGrammatical)
    (outer : List Frame) :
    State.IsAfter (.item [] :: outer) value.draft (State.run (.firstItem outer) text) := by
  have hitem := h.isAfter hnumbers (.item [] :: outer)
  obtain ⟨before, printed, after, hbefore, hafter, hprinted, rfl⟩ := h
  obtain ⟨gaps, level, rfl⟩ := exists_spacedText hprinted
  rw [State.run_append, State.run_gap (.expectValue _) rfl hbefore] at hitem
  rwa [State.run_append, State.run_gap (.firstItem outer) rfl hbefore,
    State.run_firstItem hnumbers]

theorem page (h : IsPrinted value text) (hnumbers : value.IsGrammatical) :
    Page.ofText text = { value := value.draft } :=
  (h.isAfter hnumbers []).page

/-- A key and a value that is printed are a member. -/
theorem isMemberText (h : IsPrinted value text) (hnumbers : value.IsGrammatical) {key : String}
    {front : List Char} (hkey : IsKeyText key front) :
    IsMemberText (some key, value.draft) (front ++ text) := by
  intro members outer
  rw [State.run_append, hkey]
  exact h.isAfter hnumbers _

end IsPrinted

/-! ### Arrays -/

/-- The beginning of an array, with a comma after each of its items so far. -/
def openArray (texts : List (List Char)) : List Char :=
  '[' :: texts.flatMap (· ++ [','])

namespace State

/-- Items that are printed are read one after the other. -/
theorem run_items {values : List Json} {texts : List (List Char)}
    (h : List.Forall₂ IsPrinted values texts) (hnumbers : ∀ value ∈ values, value.IsGrammatical)
    (done : List Draft) (outer : List Frame) :
    run (.expectValue (.item done :: outer)) (texts.flatMap (· ++ [','])) =
      .expectValue (.item ((draftItems values).reverse ++ done) :: outer) := by
  induction h generalizing done with
  | nil => rfl
  | @cons value text values texts hvalue _ ih =>
    rw [List.forall_mem_cons] at hnumbers
    have hitem := hvalue.isAfter hnumbers.1 (.item done :: outer)
    have hcomma : (deliver value.draft (.item done :: outer)).follow ',' =
        .expectValue (.item (value.draft :: done) :: outer) := rfl
    rw [List.flatMap_cons, List.append_assoc, run_append, List.singleton_append, run_cons,
      hitem.step (by decide), hcomma, ih hnumbers.2, draftItems, List.reverse_cons,
      List.append_assoc, List.singleton_append]

/-- **The items of an array that goes on** are read one after the other. -/
theorem run_openArray {values : List Json} {texts : List (List Char)}
    (h : List.Forall₂ IsPrinted values texts) (hnumbers : ∀ value ∈ values, value.IsGrammatical)
    (hne : values ≠ []) (outer : List Frame) :
    run (.expectValue outer) (openArray texts) =
      .expectValue (.item (draftItems values).reverse :: outer) := by
  cases h with
  | nil => exact absurd rfl hne
  | @cons value text values texts hvalue hvalues =>
    rw [List.forall_mem_cons] at hnumbers
    have hitem := hvalue.isAfter_firstItem hnumbers.1 outer
    have hopen : step (.expectValue outer) '[' = .firstItem outer := rfl
    have hcomma : (deliver value.draft (.item [] :: outer)).follow ',' =
        .expectValue (.item [value.draft] :: outer) := rfl
    rw [openArray, run_cons, hopen, List.flatMap_cons, List.append_assoc, run_append,
      List.singleton_append, run_cons, hitem.step (by decide), hcomma,
      run_items hvalues hnumbers.2, draftItems, List.reverse_cons]

end State
end Json
end DocTree
