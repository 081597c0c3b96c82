/-
# What a fenced block is

A fenced block whose info is a word is code in that language (`fencedBlock_word`).  One whose
info is written as a directive is read as that directive (`directive?_written`), so the version
directives are notes whatever is in the block (`fencedBlock_version`).
-/

import DocTree.Markup.Fence
import DocTree.Proofs.Text.Blank

namespace DocTree
namespace Text

theorem firstWord_of_no_blank {cs : List Char} (h : ∀ c ∈ cs, isBlank c = false) :
    firstWord cs = cs := by
  have hstart : trimStart cs = cs := by
    cases cs with
    | nil => rfl
    | cons c cs => exact List.dropWhile_cons_of_neg (by simp [h c List.mem_cons_self])
  rw [firstWord, hstart, List.takeWhile_eq_self_iff]
  exact fun c hc => by rw [h c hc]; rfl

end Text

namespace Markup

/-! ### Directives -/

theorem directive?_eq_none_of_head {info : List Char} (h : info.head? ≠ some '\x7b') :
    directive? info = none := by
  unfold directive?
  split
  · exact absurd rfl h
  · rfl

/-- **A directive is read as it is written:** a name in braces, which begins with a letter, then
the argument. -/
theorem directive?_written {first : Char} {more : List Char} (hfirst : first.isAlpha = true)
    (hmore : ∀ c ∈ more, isNameChar c = true) (argument : List Char) :
    directive? ('\x7b' :: first :: (more ++ '\x7d' :: argument)) =
      some (first :: more, Text.trim argument) := by
  have hbrace : ¬isNameChar '\x7d' = true := by decide
  rw [directive?, if_pos hfirst, List.dropWhile_append_of_pos hmore,
    List.dropWhile_cons_of_neg hbrace, List.takeWhile_append_of_pos hmore,
    List.takeWhile_cons_of_neg hbrace, List.append_nil]
  rfl

/-- The directives of version notes, as they are named. -/
theorem directive?_version {name : String}
    (hname : name ∈ ["versionadded", "versionchanged", "deprecated"]) (argument : List Char) :
    directive? ('\x7b' :: (name.toList ++ '\x7d' :: argument)) =
        some (name.toList, Text.trim argument) ∧
      VersionChange.ofDirective? name = some (VersionChange.ofDirective name) := by
  simp only [List.mem_cons, List.not_mem_nil, or_false] at hname
  obtain rfl | rfl | rfl := hname
  · exact ⟨@directive?_written 'v' "ersionadded".toList rfl (List.all_eq_true.1 rfl) argument,
      by decide⟩
  · exact ⟨@directive?_written 'v' "ersionchanged".toList rfl (List.all_eq_true.1 rfl) argument,
      by decide⟩
  · exact ⟨@directive?_written 'd' "eprecated".toList rfl (List.all_eq_true.1 rfl) argument,
      by decide⟩

/-! ### Blocks -/

/-- **A word says the language of the code.** -/
theorem fencedBlock_word {lang : List Char} (hword : ∀ c ∈ lang, Text.isBlank c = false)
    (hhead : lang.head? ≠ some '\x7b') (body : List Char) :
    fencedBlock lang body = .code (String.ofList lang) (String.ofList body) := by
  rw [fencedBlock, directive?_eq_none_of_head hhead]
  simp only [Text.firstWord_of_no_blank hword]

/-- **A version directive is a note,** whatever is in the block. -/
theorem fencedBlock_version {name : String}
    (hname : name ∈ ["versionadded", "versionchanged", "deprecated"]) (argument body : List Char) :
    fencedBlock ('\x7b' :: (name.toList ++ '\x7d' :: argument)) body =
      (VersionChange.ofDirective name).note (String.ofList (Text.trim argument)) := by
  obtain ⟨hread, hchange⟩ := directive?_version hname argument
  rw [fencedBlock, hread]
  simp only [String.ofList_toList, hchange]

end Markup
end DocTree
