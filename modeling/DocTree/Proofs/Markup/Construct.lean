/-
# Constructs and how they are written

A construct (`Span.IsConstruct`) is read off a text if and only if the text begins with it as
it is written (`construct?_eq_some_iff`).  So no two constructs are written at the same place,
and a construct stops where it stops whatever comes after it.
-/

import DocTree.Proofs.Markup.Inline

namespace DocTree
namespace Markup

/-- Whether a span is a construct with a content that its marks can stand around: one that is
not empty and has no mark in it that would end the construct early.  What is emphasised
neither begins nor ends with a blank. -/
def Span.IsConstruct : Span → Prop
  | plain _ => False
  | reference name => name ≠ [] ∧ backtick ∉ name
  | code _ text => text ≠ [] ∧ backtick ∉ text
  | emphasis text => text ≠ [] ∧ '*' ∉ text ∧
      (∀ c ∈ text.head?, Text.isBlank c = false) ∧ ∀ c ∈ text.getLast?, Text.isBlank c = false

theorem isTight_eq_true_iff {text : List Char} :
    isTight text = true ↔
      (∀ c ∈ text.head?, Text.isBlank c = false) ∧ ∀ c ∈ text.getLast?, Text.isBlank c = false := by
  simp [isTight, Option.all_eq_true]

instance : DecidablePred Span.IsConstruct
  | .plain _ => inferInstanceAs (Decidable False)
  | .reference _ | .code _ _ => inferInstanceAs (Decidable (_ ∧ _))
  | .emphasis text =>
    decidable_of_iff (text ≠ [] ∧ '*' ∉ text ∧ isTight text = true)
      (and_congr_right fun _ => and_congr_right fun _ => isTight_eq_true_iff)

/-! ### Enclosed text -/

/-- What is written between an opening and a closing is found there: the content goes on to the
first mark, with which the closing begins. -/
theorem enclosed?_of_append {mark : Char} {content : List Char} (hne : content ≠ [])
    (hmark : mark ∉ content) (opening closing rest : List Char) :
    enclosed? opening mark (mark :: closing) (opening ++ content ++ mark :: closing ++ rest) =
      some (content, rest) := by
  have hkept : ∀ c ∈ content, decide (c ≠ mark) = true := fun c hc =>
    decide_eq_true fun heq => hmark (heq ▸ hc)
  have hopening : opening <+: opening ++ content ++ mark :: closing ++ rest :=
    ⟨content ++ mark :: closing ++ rest, by simp⟩
  have hafter : (opening ++ content ++ mark :: closing ++ rest).drop opening.length =
      content ++ mark :: (closing ++ rest) := by
    simp
  have htake : (content ++ mark :: (closing ++ rest)).takeWhile (· ≠ mark) = content := by
    rw [List.takeWhile_append_of_pos hkept, List.takeWhile_cons_of_neg (by simp), List.append_nil]
  have hdrop : (content ++ mark :: (closing ++ rest)).dropWhile (· ≠ mark) =
      mark :: closing ++ rest := by
    rw [List.dropWhile_append_of_pos hkept, List.dropWhile_cons_of_neg (by simp), List.cons_append]
  have hclosing : (mark :: closing).isPrefixOf (mark :: closing ++ rest) = true :=
    List.isPrefixOf_iff_prefix.2 (List.prefix_append _ _)
  rw [enclosed?, if_pos (List.isPrefixOf_iff_prefix.2 hopening)]
  simp only [hafter, htake, hdrop, hclosing, List.drop_left]
  rw [if_pos (by simpa using hne)]

theorem enclosed?_of_not_prefix {opening cs : List Char} (h : ¬opening <+: cs) (mark : Char)
    (closing : List Char) : enclosed? opening mark closing cs = none := by
  rw [enclosed?, if_neg fun hprefix => h (List.isPrefixOf_iff_prefix.1 hprefix)]

/-- **What is enclosed is found, and nothing else is,** where the closing begins with the mark. -/
theorem enclosed?_eq_some_iff {opening closing cs content rest : List Char} {mark : Char} :
    enclosed? opening mark (mark :: closing) cs = some (content, rest) ↔
      (content ≠ [] ∧ mark ∉ content) ∧ cs = opening ++ content ++ mark :: closing ++ rest := by
  constructor
  · intro h
    obtain ⟨hcs, hne, hmark⟩ := eq_append_of_enclosed? h
    exact ⟨⟨hne, hmark⟩, hcs⟩
  · rintro ⟨⟨hne, hmark⟩, rfl⟩
    exact enclosed?_of_append hne hmark opening closing rest

/-! ### Each kind of construct -/

variable {cs rest : List Char} {span : Span}

theorem reference?_eq_some_iff :
    reference? cs = some (span, rest) ↔
      ∃ name, span = .reference name ∧ span.IsConstruct ∧ cs = span.spelling ++ rest := by
  simp only [reference?, Option.map_eq_some_iff, Prod.exists, enclosed?_eq_some_iff,
    Prod.mk.injEq]
  constructor
  · rintro ⟨name, _, ⟨hname, rfl⟩, rfl, rfl⟩
    exact ⟨name, rfl, hname, rfl⟩
  · rintro ⟨name, rfl, hname, rfl⟩
    exact ⟨name, rest, ⟨hname, rfl⟩, rfl, rfl⟩

theorem code?_eq_some_iff {doubled : Bool} :
    code? doubled cs = some (span, rest) ↔
      ∃ text, span = .code doubled text ∧ span.IsConstruct ∧ cs = span.spelling ++ rest := by
  cases doubled <;> simp only [code?, if_true, if_false, Bool.false_eq_true, List.replicate,
    Option.map_eq_some_iff, Prod.exists, enclosed?_eq_some_iff, Prod.mk.injEq]
  all_goals
    constructor
    · rintro ⟨text, _, ⟨htext, rfl⟩, rfl, rfl⟩
      exact ⟨text, rfl, htext, rfl⟩
    · rintro ⟨text, rfl, htext, rfl⟩
      exact ⟨text, rest, ⟨htext, rfl⟩, rfl, rfl⟩

theorem emphasis?_eq_some_iff :
    emphasis? cs = some (span, rest) ↔
      ∃ text, span = .emphasis text ∧ span.IsConstruct ∧ cs = span.spelling ++ rest := by
  constructor
  · intro h
    unfold emphasis? at h
    split at h
    · next text _ henclosed =>
      obtain ⟨⟨hne, hmark⟩, hcs⟩ := enclosed?_eq_some_iff.1 henclosed
      split at h
      · next htight =>
        obtain ⟨rfl, rfl⟩ := Prod.mk.inj (Option.some.inj h)
        exact ⟨text, rfl, ⟨hne, hmark, isTight_eq_true_iff.1 htight⟩, hcs⟩
      · cases h
    · cases h
  · rintro ⟨text, rfl, ⟨hne, hmark, htight⟩, rfl⟩
    have henclosed : enclosed? ['*'] '*' ['*'] ((Span.emphasis text).spelling ++ rest) =
        some (text, rest) :=
      enclosed?_eq_some_iff.2 ⟨⟨hne, hmark⟩, rfl⟩
    rw [emphasis?, henclosed]
    exact if_pos (isTight_eq_true_iff.2 htight)

/-! ### Constructs exclude each other -/

theorem reference?_eq_none_of_head {c : Char} (hc : c ≠ '\x7b') (cs : List Char) :
    reference? (c :: cs) = none := by
  rw [reference?, enclosed?_of_not_prefix]
  · rfl
  · exact fun hprefix => hc (List.cons_prefix_cons.1 hprefix).1.symm

theorem code?_eq_none_of_head {c : Char} (hc : c ≠ backtick) (doubled : Bool) (cs : List Char) :
    code? doubled (c :: cs) = none := by
  rw [code?, enclosed?_of_not_prefix]
  · rfl
  · cases doubled <;> exact fun hprefix => hc (List.cons_prefix_cons.1 hprefix).1.symm

/-- A single backtick before the content does not make it code between double backticks. -/
theorem code?_true_eq_none {text : List Char} (hne : text ≠ []) (hmark : backtick ∉ text)
    (rest : List Char) : code? true (backtick :: (text ++ rest)) = none := by
  rw [code?, enclosed?_of_not_prefix]
  · rfl
  · obtain ⟨c, text, rfl⟩ := List.exists_cons_of_ne_nil hne
    intro hprefix
    have hsecond := (List.cons_prefix_cons.1 (List.cons_prefix_cons.1 hprefix).2).1
    exact hmark (hsecond ▸ List.mem_cons_self)

/-- A construct is read off a text that begins with it. -/
theorem construct?_of_isConstruct (h : span.IsConstruct) (rest : List Char) :
    construct? (span.spelling ++ rest) = some (span, rest) := by
  cases span with
  | plain text => exact h.elim
  | reference name =>
    rw [construct?, reference?_eq_some_iff.2 ⟨name, rfl, h, rfl⟩]
    rfl
  | code doubled text =>
    have hread : code? doubled ((Span.code doubled text).spelling ++ rest) =
        some (.code doubled text, rest) :=
      code?_eq_some_iff.2 ⟨text, rfl, h, rfl⟩
    cases doubled with
    | true =>
      rw [construct?, hread, Span.spelling, List.cons_append, List.cons_append,
        reference?_eq_none_of_head (by decide)]
      rfl
    | false =>
      have hsingle : (Span.code false text).spelling ++ rest =
          backtick :: (text ++ (backtick :: rest)) := by
        simp [Span.spelling]
      rw [construct?, hread, hsingle, reference?_eq_none_of_head (by decide),
        code?_true_eq_none h.1 h.2]
      rfl
  | emphasis text =>
    rw [construct?, emphasis?_eq_some_iff.2 ⟨text, rfl, h, rfl⟩, Span.spelling, List.cons_append,
      List.cons_append, reference?_eq_none_of_head (by decide),
      code?_eq_none_of_head (by decide), code?_eq_none_of_head (by decide)]
    rfl

/-- **A construct is read off a text if and only if the text begins with it.** -/
theorem construct?_eq_some_iff :
    construct? cs = some (span, rest) ↔ span.IsConstruct ∧ cs = span.spelling ++ rest := by
  constructor
  · intro h
    simp only [construct?, Option.or_eq_some_iff, reference?_eq_some_iff, code?_eq_some_iff,
      emphasis?_eq_some_iff] at h
    obtain ⟨_, -, h⟩ | ⟨-, ⟨_, -, h⟩ | ⟨-, ⟨_, -, h⟩ | ⟨-, _, -, h⟩⟩⟩ := h <;> exact h
  · rintro ⟨h, rfl⟩
    exact construct?_of_isConstruct h rest

/-- No construct is read off a text if and only if the text begins with none. -/
theorem construct?_eq_none_iff :
    construct? cs = none ↔ ∀ span : Span, span.IsConstruct → ¬span.spelling <+: cs := by
  rw [Option.eq_none_iff_forall_ne_some]
  constructor
  · rintro h span hspan ⟨rest, rfl⟩
    exact h _ (construct?_of_isConstruct hspan rest)
  · rintro h ⟨span, rest⟩ hread
    obtain ⟨hspan, rfl⟩ := construct?_eq_some_iff.1 hread
    exact h span hspan (List.prefix_append _ _)

end Markup
end DocTree
