/-
# The blocks of prose

A paragraph has at least one line and no empty line (`isShown_of_mem_blocks`): blank lines
stand between paragraphs, and what is left of any other line without the blanks at its end is
not empty.
-/

import DocTree.Markup.Block
import DocTree.Proofs.Text.Line

namespace DocTree
namespace Markup

/-- Whether a block has something to show on each of its lines; a fenced one need not. -/
def Block.IsShown : Block → Prop
  | paragraph lines => lines ≠ [] ∧ [] ∉ lines
  | fenced .. => True

/-- Whether the lines of an open block could be those of a block. -/
def Open.IsShown : Open → Prop
  | paragraph lines => [] ∉ lines
  | fenced .. => True

theorem Open.IsShown.of_mem_close {current : Open} (hopen : current.IsShown) {block : Block}
    (h : block ∈ current.close) : block.IsShown := by
  cases current with
  | paragraph lines =>
    cases lines with
    | nil => cases h
    | cons line lines =>
      obtain rfl := List.mem_singleton.1 h
      exact ⟨List.reverse_ne_nil_iff.2 (List.cons_ne_nil line lines),
        fun hnil => hopen (List.mem_reverse.1 hnil)⟩
  | fenced info body =>
    obtain rfl := List.mem_singleton.1 h
    trivial

theorem isShown_of_mem_blocksFrom {current : Open} {lines : List Line}
    (hopen : current.IsShown) {block : Block} (h : block ∈ blocksFrom current lines) :
    block.IsShown := by
  have hnew : (Open.paragraph []).IsShown := List.not_mem_nil
  induction current, lines using blocksFrom.induct with
  | case1 current => exact hopen.of_mem_close (by simpa only [blocksFrom] using h)
  | case2 info body line lines hfence ih =>
    rw [blocksFrom, if_pos hfence, List.mem_append] at h
    exact h.elim hopen.of_mem_close (ih hnew)
  | case3 info body line lines hfence ih =>
    rw [blocksFrom, if_neg hfence] at h
    exact ih trivial h
  | case4 ls line lines info hinfo ih =>
    simp only [blocksFrom, hinfo, List.mem_append] at h
    exact h.elim hopen.of_mem_close (ih trivial)
  | case5 ls line lines hinfo hblank ih =>
    simp only [blocksFrom, hinfo, hblank, if_true, List.mem_append] at h
    exact h.elim hopen.of_mem_close (ih hnew)
  | case6 ls line lines hinfo hblank ih =>
    simp only [blocksFrom, hinfo, hblank] at h
    have hline : Text.trimEnd line ≠ [] := Text.trimEnd_ne_nil (Bool.eq_false_iff.2 hblank)
    refine ih (fun hnil => ?_) h
    rcases List.mem_cons.1 hnil with hnil | hnil
    · exact hline hnil.symm
    · exact hopen hnil

/-- **No block is empty-handed:** a paragraph has a line, and no line of it is empty. -/
theorem isShown_of_mem_blocks {lines : List Line} {block : Block} (h : block ∈ blocks lines) :
    block.IsShown :=
  have hnew : (Open.paragraph []).IsShown := List.not_mem_nil
  isShown_of_mem_blocksFrom hnew h

end Markup
end DocTree
