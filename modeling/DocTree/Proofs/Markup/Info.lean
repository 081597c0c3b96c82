/-
# What an info string says

An info string is a directive if it is a name in braces and an argument (`IsDirective`), and is
read as such only then (`directive?_eq_some_iff`).  So a fenced block is a version note, code in
the language that the directive is about, or code in the language that is the first word of the
info string, and which of them can be told from the info string alone (`fencedBlock_classified`).
This is said of info strings that are on one line and trimmed (`IsInfo`).  Those of the fenced
groups of prose are (`IsGrouping.isInfo`), so it is true of all code in its tree
(`IsGrouping.exists_fenced_of_code`).
-/

import DocTree.Proofs.Markup.Fence
import DocTree.Proofs.Markup.Grouping
import DocTree.Proofs.Text.Word

namespace DocTree
namespace Markup

variable {info name argument rest : List Char}

/-- Whether a text could be an info string: it is on one line and has no blanks at its ends. -/
structure IsInfo (info : List Char) : Prop where
  /-- No line feed is in it. -/
  line : '\n' ∉ info
  /-- There is nothing to trim. -/
  trimmed : Text.trim info = info

/-- **The info strings of prose are on one line and trimmed.** -/
theorem IsGrouping.isInfo {cs indent : List Char} {body : List Line} {closing : Option Line}
    {groups : List Group} (h : IsGrouping (Text.lines cs) groups)
    (hgroup : Group.fenced indent info body closing ∈ groups) : IsInfo (Text.trim info) where
  line := by
    have hopening : indent ++ fenceMark ++ info ∈ groups.flatMap Group.lines :=
      List.mem_flatMap.2 ⟨_, hgroup, List.mem_cons_self⟩
    rw [h.lines] at hopening
    exact Text.not_mem_trim fun hmem => Text.not_mem_of_mem_lines hopening (by simp [hmem])
  trimmed := Text.trim_trim info

/-- Whether a text is the name of a directive: an ASCII letter, then any number of word characters
and hyphens. -/
def IsDirectiveName (name : List Char) : Prop :=
  ∃ first more, name = first :: more ∧ first.isAlpha = true ∧
    ∀ c ∈ more, Text.isWord c = true ∨ c = '-'

/-- Whether an info string is a directive: a name in braces and whatever is behind them. -/
def IsDirective (name rest info : List Char) : Prop :=
  IsDirectiveName name ∧ info = '\x7b' :: (name ++ '\x7d' :: rest)

/-! ### Names of directives -/

theorem isNameChar_eq_true_iff {c : Char} :
    isNameChar c = true ↔ Text.isWord c = true ∨ c = '-' := by
  rw [isNameChar, Bool.or_eq_true, decide_eq_true_eq]

theorem isDirectiveName_cons_iff {first : Char} {more : List Char} :
    IsDirectiveName (first :: more) ↔ first.isAlpha = true ∧ more.all isNameChar = true := by
  simp only [List.all_eq_true, isNameChar_eq_true_iff]
  constructor
  · rintro ⟨_, _, hname, hfirst, hmore⟩
    obtain ⟨rfl, rfl⟩ := List.cons.inj hname
    exact ⟨hfirst, hmore⟩
  · exact fun h => ⟨first, more, rfl, h.1, h.2⟩

instance : DecidablePred IsDirectiveName
  | [] => isFalse fun ⟨_, _, hname, _⟩ => List.cons_ne_nil _ _ hname.symm
  | _ :: _ => decidable_of_iff _ isDirectiveName_cons_iff.symm

instance (name rest info : List Char) : Decidable (IsDirective name rest info) :=
  inferInstanceAs (Decidable (_ ∧ _))

/-- There is no blank in the name of a directive, and no brace that closes one. -/
theorem IsDirectiveName.of_mem (h : IsDirectiveName name) {c : Char} (hc : c ∈ name) :
    Text.isBlank c = false ∧ c ≠ '\x7d' := by
  obtain ⟨first, more, rfl, hfirst, hmore⟩ := h
  rcases List.mem_cons.1 hc with rfl | hc
  · exact ⟨Text.isBlank_eq_false_of_isAlpha hfirst, by rintro rfl; cases hfirst⟩
  · rcases hmore c hc with hword | rfl
    · exact ⟨Text.isBlank_eq_false_of_isWord hword, by rintro rfl; exact absurd hword (by decide)⟩
    · decide

/-! ### Directives -/

/-- **A directive is read if there is one,** with its argument trimmed. -/
theorem directive?_eq_some_iff :
    directive? info = some (name, argument) ↔
      ∃ rest, IsDirective name rest info ∧ argument = Text.trim rest := by
  constructor
  · intro h
    unfold directive? at h
    split at h
    · next first cs =>
      split at h
      · next hfirst =>
        split at h
        · next rest hrest =>
          obtain ⟨rfl, rfl⟩ := Prod.mk.inj (Option.some.inj h)
          refine ⟨rest, ⟨⟨first, _, rfl, hfirst, fun c hc => ?_⟩, ?_⟩, rfl⟩
          · exact isNameChar_eq_true_iff.1 (List.mem_takeWhile_imp hc)
          · rw [List.cons_append, ← hrest, List.takeWhile_append_dropWhile]
        · cases h
      · cases h
    · cases h
  · rintro ⟨rest, ⟨⟨first, more, rfl, hfirst, hmore⟩, rfl⟩, rfl⟩
    exact directive?_written hfirst (fun c hc => isNameChar_eq_true_iff.2 (hmore c hc)) rest

theorem directive?_eq_none_iff :
    directive? info = none ↔ ∀ name rest, ¬IsDirective name rest info := by
  rw [Option.eq_none_iff_forall_ne_some]
  constructor
  · intro h name rest hinfo
    exact h (name, Text.trim rest) (directive?_eq_some_iff.2 ⟨rest, hinfo, rfl⟩)
  · rintro h ⟨name, argument⟩ hread
    obtain ⟨rest, hinfo, -⟩ := directive?_eq_some_iff.1 hread
    exact h name rest hinfo

/-- Whether an info string falls short of a directive: there is no brace in front of it or none
that closes, or what the braces enclose is empty, has a blank in it or does not begin with a
letter. -/
def FallsShort (info : List Char) : Prop :=
  info.head? ≠ some '\x7b' ∨ '\x7d' ∉ info ∨
    ∃ inside rest, info = '\x7b' :: (inside ++ '\x7d' :: rest) ∧ '\x7d' ∉ inside ∧
      (inside = [] ∨ (∃ c ∈ inside, Text.isBlank c = true) ∨
        ∃ c ∈ inside.head?, c.isAlpha = false)

theorem IsDirective.not_fallsShort (h : IsDirective name rest info) : ¬FallsShort info := by
  obtain ⟨hname, rfl⟩ := h
  rintro (hhead | hclose | ⟨inside, rest', hinfo, hinside, hshort⟩)
  · exact hhead rfl
  · exact hclose (by simp)
  · have hstop {rest : List Char} : ∀ c ∈ ('\x7d' :: rest).head?, ¬c ≠ '\x7d' := by simp
    obtain ⟨rfl, -⟩ := eq_of_append_eq_append (List.cons.inj hinfo).2
      (fun c hc => (hname.of_mem hc).2) (fun c hc hbrace => hinside (hbrace ▸ hc)) hstop hstop
    rcases hshort with hnil | ⟨c, hc, hblank⟩ | ⟨c, hc, halpha⟩
    · obtain ⟨first, more, hcons, -⟩ := hname
      cases hnil.symm.trans hcons
    · rw [(hname.of_mem hc).1] at hblank
      cases hblank
    · obtain ⟨first, more, rfl, hfirst, -⟩ := hname
      obtain rfl := Option.some.inj hc
      rw [halpha] at hfirst
      cases hfirst

/-! ### Version notes -/

/-- The directives of version notes, with the words that the notes begin with. -/
def versionVerbs : List (String × String) :=
  [("versionadded", "Added"), ("versionchanged", "Changed"), ("deprecated", "Deprecated")]

theorem exists_ofDirective? {directive verb : String} (h : (directive, verb) ∈ versionVerbs) :
    ∃ change, VersionChange.ofDirective? directive = some change ∧ change.verb = verb := by
  simp only [versionVerbs, List.mem_cons, List.not_mem_nil, or_false, Prod.mk.injEq] at h
  obtain ⟨rfl, rfl⟩ | ⟨rfl, rfl⟩ | ⟨rfl, rfl⟩ := h
  · exact ⟨.added, by decide, rfl⟩
  · exact ⟨.changed, by decide, rfl⟩
  · exact ⟨.deprecated, by decide, rfl⟩

theorem ofDirective?_eq_none {directive : String} (h : ∀ verb, (directive, verb) ∉ versionVerbs) :
    VersionChange.ofDirective? directive = none := by
  refine List.find?_eq_none.2 fun change _ heq => h change.verb ?_
  obtain rfl : change.directive = directive := of_decide_eq_true heq
  cases change <;> decide

/-! ### Languages -/

theorem directiveLanguage_eq (name argument : List Char) :
    directiveLanguage name argument = (Text.words argument).headD name := by
  rw [directiveLanguage, Text.firstWord_eq]
  cases hwords : Text.words argument with
  | nil => rfl
  | cons word words =>
    have hmem : word ∈ Text.words argument := hwords ▸ List.mem_cons_self
    obtain ⟨c, word, rfl⟩ := List.exists_cons_of_ne_nil (Text.of_mem_words hmem).1
    rfl

/-- What is true of a text without words, and of every word, is true of the first word. -/
theorem headD_words {P : List Char → Prop} {cs fallback : List Char}
    (hfallback : Text.words cs = [] → P fallback) (hword : ∀ word ∈ Text.words cs, P word) :
    P ((Text.words cs).headD fallback) := by
  cases hwords : Text.words cs with
  | nil => exact hfallback hwords
  | cons word words => exact hword word (hwords ▸ List.mem_cons_self)

/-! ### What a fenced block is -/

theorem fencedBlock_note (h : IsDirective name rest info) {verb : String}
    (hverb : (String.ofList name, verb) ∈ versionVerbs) (body : List Char) :
    fencedBlock info body =
      .admonition "note"
        [.paragraph [.text (verb ++ " in Version " ++ String.ofList (Text.trim rest))]] := by
  obtain ⟨change, hchange, rfl⟩ := exists_ofDirective? hverb
  rw [fencedBlock, directive?_eq_some_iff.2 ⟨rest, h, rfl⟩]
  simp only [hchange]
  rfl

theorem fencedBlock_directive (h : IsDirective name rest info)
    (hverb : ∀ verb, (String.ofList name, verb) ∉ versionVerbs) (body : List Char) :
    fencedBlock info body =
      .code (String.ofList ((Text.words rest).headD name)) (String.ofList body) := by
  rw [fencedBlock, directive?_eq_some_iff.2 ⟨rest, h, rfl⟩]
  simp only [ofDirective?_eq_none hverb, directiveLanguage_eq, Text.words_trim]

theorem fencedBlock_plain (h : ∀ name rest, ¬IsDirective name rest info) (body : List Char) :
    fencedBlock info body =
      .code (String.ofList ((Text.words info).headD [])) (String.ofList body) := by
  rw [fencedBlock, directive?_eq_none_iff.2 h]
  simp only [Text.firstWord_eq]

theorem IsInfo.eq_nil (h : IsInfo info) (hblank : Text.isBlankText info = true) : info = [] := by
  rw [← h.trimmed, Text.trim, Text.trimStart_eq_nil_iff.2 hblank]
  rfl

/-- The language of a directive has no blank in it and is not empty. -/
theorem language_of_isDirective (h : IsDirective name rest info) :
    (∀ c ∈ (Text.words rest).headD name, Text.isBlank c = false) ∧
      (Text.words rest).headD name ≠ [] := by
  refine headD_words (P := fun lang => (∀ c ∈ lang, Text.isBlank c = false) ∧ lang ≠ [])
    (fun _ => ⟨fun c hc => (h.1.of_mem hc).1, ?_⟩) fun word hword => (Text.of_mem_words hword).symm
  obtain ⟨first, more, rfl, -⟩ := h.1
  exact List.cons_ne_nil first more

/-- The first word of an info string has no blank in it, and is there unless the string is empty. -/
theorem language_of_isInfo (h : IsInfo info) :
    (∀ c ∈ (Text.words info).headD [], Text.isBlank c = false) ∧
      ((Text.words info).headD [] = [] → info = []) := by
  refine headD_words
    (P := fun lang => (∀ c ∈ lang, Text.isBlank c = false) ∧ (lang = [] → info = []))
    (fun hnone => ⟨fun _ hc => absurd hc List.not_mem_nil, fun _ => ?_⟩)
    fun word hword => ⟨(Text.of_mem_words hword).2, fun hnil => ?_⟩
  · exact h.eq_nil (Text.words_eq_nil_iff.1 hnone)
  · exact absurd hnil (Text.of_mem_words hword).1

/-- **The language of code** has no blank in it and is empty only if the info string is, and the
code is the body of the block. -/
theorem of_fencedBlock_eq_code (h : IsInfo info) {body : List Char} {lang value : String}
    (hcode : fencedBlock info body = .code lang value) :
    (∀ c ∈ lang.toList, Text.isBlank c = false) ∧ (lang = "" ↔ info = []) ∧
      value = String.ofList body := by
  by_cases hplain : ∀ name rest, ¬IsDirective name rest info
  · rw [fencedBlock_plain hplain] at hcode
    obtain ⟨rfl, rfl⟩ := Node.code.inj hcode
    obtain ⟨hblank, hempty⟩ := language_of_isInfo h
    rw [String.toList_ofList, String.ofList_eq_empty_iff]
    exact ⟨hblank, ⟨hempty, by rintro rfl; rfl⟩, rfl⟩
  · simp only [not_forall, not_not] at hplain
    obtain ⟨name, rest, hdirective⟩ := hplain
    by_cases hverb : ∀ verb, (String.ofList name, verb) ∉ versionVerbs
    · rw [fencedBlock_directive hdirective hverb] at hcode
      obtain ⟨rfl, rfl⟩ := Node.code.inj hcode
      obtain ⟨hblank, hne⟩ := language_of_isDirective hdirective
      rw [String.toList_ofList, String.ofList_eq_empty_iff]
      exact ⟨hblank, iff_of_false hne (hdirective.2 ▸ List.cons_ne_nil _ _), rfl⟩
    · -- A version note is no code.
      simp only [not_forall, not_not] at hverb
      obtain ⟨verb, hverb⟩ := hverb
      rw [fencedBlock_note hdirective hverb] at hcode
      cases hcode

/-- **All code in the tree of prose is what a fenced group encloses,** and its language has no blank
in it and is empty only if the group names nothing. -/
theorem IsGrouping.exists_fenced_of_code {source lang value : String} {groups : List Group}
    (h : IsGrouping (Text.lines source.toList) groups)
    (hcode : Node.code lang value ∈ (parse source).children) :
    ∃ indent info body closing, Group.fenced indent info body closing ∈ groups ∧
      (∀ c ∈ lang.toList, Text.isBlank c = false) ∧ (lang = "" ↔ Text.trim info = []) ∧
        value = String.ofList (Text.joinLines body) := by
  rw [h.children_parse] at hcode
  obtain ⟨group, hgroup, hnode⟩ := List.mem_filterMap.1 hcode
  cases group with
  | blank line => cases hnode
  | run lines => cases hnode
  | fenced indent info body closing =>
    have hblock := Option.some.inj hnode
    exact ⟨indent, info, body, closing, hgroup, of_fencedBlock_eq_code (h.isInfo hgroup) hblock⟩

/-- **Info strings are told apart exactly.**  A directive is a version note if its name is that of
one, and otherwise code, whose language is the first word behind the braces, or the name if there
is none.  Every other info string, such as one that falls short of a directive, says the language
by its first word.  So a language has no blank in it and is empty only if the info string is, and
the body of a block of code is left as it is. -/
theorem fencedBlock_classified (h : IsInfo info) (body : List Char) :
    (∀ name rest, IsDirective name rest info →
      (∀ verb, (String.ofList name, verb) ∈ versionVerbs →
        fencedBlock info body =
          .admonition "note"
            [.paragraph [.text (verb ++ " in Version " ++ String.ofList (Text.trim rest))]]) ∧
      ((∀ verb, (String.ofList name, verb) ∉ versionVerbs) →
        fencedBlock info body =
          .code (String.ofList ((Text.words rest).headD name)) (String.ofList body))) ∧
    ((∀ name rest, ¬IsDirective name rest info) →
      fencedBlock info body =
        .code (String.ofList ((Text.words info).headD [])) (String.ofList body)) ∧
    (FallsShort info → ∀ name rest, ¬IsDirective name rest info) ∧
    ∀ lang value, fencedBlock info body = .code lang value →
      (∀ c ∈ lang.toList, Text.isBlank c = false) ∧ (lang = "" ↔ info = []) ∧
        value = String.ofList body :=
  ⟨fun _ _ hdirective => ⟨fun _ hverb => fencedBlock_note hdirective hverb body,
      fun hverb => fencedBlock_directive hdirective hverb body⟩,
    fun hplain => fencedBlock_plain hplain body,
    fun hshort _ _ hdirective => hdirective.not_fallsShort hshort,
    fun _ _ => of_fencedBlock_eq_code h⟩

/-- A version directive with a no-break space behind it, a directive whose name has other letters
and whose argument begins with an ideographic space, and braces that hold a blank. -/
theorem fencedBlock_classified_sample :
    IsInfo "\x7bversionchanged\x7d\u00a00.19 rc".toList ∧
      IsInfo "\x7bCode-é_\x7d\u3000py 3".toList ∧ IsInfo "\x7ba b\x7d c".toList ∧
      fencedBlock "\x7bversionchanged\x7d\u00a00.19 rc".toList ['x'] =
        .admonition "note" [.paragraph [.text "Changed in Version 0.19 rc"]] ∧
      fencedBlock "\x7bCode-é_\x7d\u3000py 3".toList ['x'] = .code "py" "x" ∧
      FallsShort "\x7ba b\x7d c".toList ∧
      fencedBlock "\x7ba b\x7d c".toList ['x'] = .code "\x7ba" "x" := by
  have hversionInfo : IsInfo "\x7bversionchanged\x7d\u00a00.19 rc".toList := ⟨by decide, by decide⟩
  have hcodeInfo : IsInfo "\x7bCode-é_\x7d\u3000py 3".toList := ⟨by decide, by decide⟩
  have hplainInfo : IsInfo "\x7ba b\x7d c".toList := ⟨by decide, by decide⟩
  have hversion : IsDirective "versionchanged".toList "\u00a00.19 rc".toList
      "\x7bversionchanged\x7d\u00a00.19 rc".toList := by decide
  have hcode : IsDirective "Code-é_".toList "\u3000py 3".toList
      "\x7bCode-é_\x7d\u3000py 3".toList := by decide
  have hshort : FallsShort "\x7ba b\x7d c".toList :=
    .inr (.inr ⟨"a b".toList, " c".toList, rfl, by decide, .inr (.inl ⟨' ', by decide, rfl⟩)⟩)
  have hnone : ∀ verb, (String.ofList "Code-é_".toList, verb) ∉ versionVerbs := by
    simp [versionVerbs]
  obtain ⟨hnote, -⟩ := fencedBlock_classified hversionInfo ['x']
  obtain ⟨hlanguage, -⟩ := fencedBlock_classified hcodeInfo ['x']
  obtain ⟨-, hplain, hfalls, -⟩ := fencedBlock_classified hplainInfo ['x']
  exact ⟨hversionInfo, hcodeInfo, hplainInfo, (hnote _ _ hversion).1 "Changed" (by decide),
    (hlanguage _ _ hcode).2 hnone, hshort, hplain (hfalls hshort)⟩

end Markup
end DocTree
