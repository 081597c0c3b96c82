/-
# Summaries

The lines of a summary are joined to one line of prose, which is blank only if they all are
(`isBlankText_summaryText`).  So a summary that does not begin a fenced block is one paragraph, or
nothing, and the blanks at the ends of its lines do not matter (`renderSummary_paragraph`).
-/

import DocTree.Proofs.Markup.Grouping
import DocTree.Render
import Mathlib.Data.List.Forall2

namespace DocTree
namespace Text

/-- If something is true of the characters of a separator, it is true of those of the joined text
just if it is true of those of its parts. -/
theorem forall_mem_intercalate_iff {P : Char → Prop} {separator : List Char}
    (h : ∀ c ∈ separator, P c) {parts : List (List Char)} :
    (∀ c ∈ separator.intercalate parts, P c) ↔ ∀ part ∈ parts, ∀ c ∈ part, P c := by
  induction parts with
  | nil => simp
  | cons part parts ih =>
    cases parts with
    | nil => rw [List.intercalate_singleton, List.forall_mem_singleton]
    | cons next parts =>
      rw [List.intercalate_cons_cons, List.forall_mem_append, List.forall_mem_append, ih,
        List.forall_mem_cons (a := part), and_iff_left h]

end Text

/-! ### One line of prose -/

namespace Markup

theorem isFence_eq_false_iff {line : Line} :
    isFence line = false ↔ ¬"```".toList <+: Text.trimStart line := by
  have hmark : "```".toList = fenceMark := rfl
  rw [isFence, fenceInfo?, hmark, ← List.isPrefixOf_iff_prefix]
  by_cases h : fenceMark.isPrefixOf (Text.trimStart line) = true <;> simp [h]

theorem isGrouping_blank {line : Line} (h : Text.isBlankText line = true) :
    IsGrouping [line] [.blank line] := by
  have hgroup : (Group.blank line).IsProper := h
  exact IsGrouping.nil.cons hgroup (by simp)

theorem isGrouping_run {line : Line} (h : IsRunning line) : IsGrouping [line] [.run [line]] := by
  have hgroup : (Group.run [line]).IsProper := ⟨by simp, by simpa using h⟩
  exact IsGrouping.nil.cons hgroup (by simp)

/-- **A line of prose that is no fence** is a paragraph, or nothing if it is blank. -/
theorem children_parse_line {source : String} (hline : '\n' ∉ source.toList)
    (hfence : isFence source.toList = false) :
    (parse source).children =
      if Text.isBlankText source.toList = true then []
      else [.paragraph (inlineNodes (Text.trimEnd source.toList))] := by
  have hlines := Text.lines_of_not_mem hline
  by_cases hblank : Text.isBlankText source.toList = true
  · rw [if_pos hblank]
    by_cases hnil : source.toList = []
    · have hgroups : IsGrouping (Text.lines source.toList) [] := by
        rw [hlines, if_pos hnil]
        exact .nil
      exact hgroups.children_parse
    · have hgroups : IsGrouping (Text.lines source.toList) [.blank source.toList] := by
        rw [hlines, if_neg hnil]
        exact isGrouping_blank hblank
      exact hgroups.children_parse
  · have hnil : source.toList ≠ [] := fun hnil => hblank (by rw [hnil]; rfl)
    have hrunning : IsRunning source.toList := ⟨Bool.eq_false_iff.2 hblank, hfence⟩
    have hgroups : IsGrouping (Text.lines source.toList) [.run [source.toList]] := by
      rw [hlines, if_neg hnil]
      exact isGrouping_run hrunning
    have hjoin : Text.joinLines [Text.trimEnd source.toList] = Text.trimEnd source.toList :=
      List.intercalate_singleton
    rw [if_neg hblank, hgroups.children_parse, ← hjoin]
    rfl

end Markup

/-! ### Summaries -/

/-- Whether a line is another one with blanks in front of it and behind it. -/
def IsPadded (line padded : String) : Prop :=
  ∃ before after, Text.isBlankText before = true ∧ Text.isBlankText after = true ∧
    padded.toList = before ++ line.toList ++ after

/-- Whether a line becomes another one if blanks are taken off its ends and others put there. -/
def DiffersAtEnds (line other : String) : Prop :=
  ∃ core, IsPadded core line ∧ IsPadded core other

theorem IsPadded.trim_eq {line padded : String} (h : IsPadded line padded) :
    Text.trim padded.toList = Text.trim line.toList := by
  obtain ⟨before, after, hbefore, hafter, hpadded⟩ := h
  rw [hpadded, Text.trim_append_right hafter, Text.trim_append_left hbefore]

/-- Blanks at the ends of lines do not get into the prose of a summary. -/
theorem summaryText_eq_of_differsAtEnds {lines others : List String}
    (h : List.Forall₂ DiffersAtEnds lines others) : summaryText others = summaryText lines := by
  have hmap : others.map (fun line => String.ofList (Text.trim line.toList)) =
      lines.map fun line => String.ofList (Text.trim line.toList) := by
    induction h with
    | nil => rfl
    | cons hline _ ih =>
      obtain ⟨core, hcore, hcore'⟩ := hline
      rw [List.map_cons, List.map_cons, ih, hcore.trim_eq, hcore'.trim_eq]
  rw [summaryText, summaryText, hmap]

variable {lines : List String}

theorem toList_summaryText (lines : List String) :
    (summaryText lines).toList =
      [' '].intercalate (lines.map fun line => Text.trim line.toList) := by
  have hspace : " ".toList = [' '] := rfl
  have htrim : (String.toList ∘ fun line : String => String.ofList (Text.trim line.toList)) =
      fun line => Text.trim line.toList := funext fun _ => String.toList_ofList
  rw [summaryText, String.toList_intercalate, List.map_map, htrim, hspace]

/-- The prose of a summary is one line if its lines are lines. -/
theorem not_mem_summaryText (h : ∀ line ∈ lines, '\n' ∉ line.toList) :
    '\n' ∉ (summaryText lines).toList := by
  have hspace : ∀ c ∈ [' '], c ≠ '\n' := List.forall_mem_singleton.2 (by decide)
  rw [toList_summaryText, ← List.forall_mem_ne', Text.forall_mem_intercalate_iff hspace,
    List.forall_mem_map]
  exact fun line hline => List.forall_mem_ne'.2 (Text.not_mem_trim (h line hline))

/-- **The prose of a summary is blank** only if all of its lines are. -/
theorem isBlankText_summaryText :
    Text.isBlankText (summaryText lines).toList = true ↔
      ∀ line ∈ lines, Text.isBlankText line.toList = true := by
  have hspace : ∀ c ∈ [' '], Text.isBlank c = true := List.forall_mem_singleton.2 rfl
  have hline (line : String) : (∀ c ∈ Text.trim line.toList, Text.isBlank c = true) ↔
      Text.isBlankText line.toList = true := by
    rw [← Text.isBlankText_trim, Text.isBlankText, List.all_eq_true]
  rw [toList_summaryText, Text.isBlankText, List.all_eq_true,
    Text.forall_mem_intercalate_iff hspace, List.forall_mem_map]
  simp only [hline]

/-- **A summary is one paragraph,** if its lines are lines and it does not begin with a fence: the
inline markup of its prose, without the blanks at the end, or nothing if all of its lines are blank.
Putting blanks at the ends of its lines, or taking them off, changes nothing. -/
theorem renderSummary_paragraph (h : ∀ line ∈ lines, '\n' ∉ line.toList) :
    (¬"```".toList <+: Text.trimStart (summaryText lines).toList →
      ((∀ line ∈ lines, Text.isBlankText line.toList = true) →
        renderSummary lines Markup.parse = []) ∧
      ((∃ line ∈ lines, Text.isBlankText line.toList = false) →
        renderSummary lines Markup.parse =
          [.paragraph (Markup.inlineNodes (Text.trimEnd (summaryText lines).toList))])) ∧
    ∀ others, List.Forall₂ DiffersAtEnds lines others →
      renderSummary others Markup.parse = renderSummary lines Markup.parse := by
  refine ⟨fun hfence => ?_, fun others hothers => ?_⟩
  · have hparse := Markup.children_parse_line (not_mem_summaryText h)
      (Markup.isFence_eq_false_iff.2 hfence)
    rw [renderSummary, hparse]
    refine ⟨fun hblank => if_pos (isBlankText_summaryText.2 hblank), fun hshown => if_neg ?_⟩
    obtain ⟨line, hline, hshown⟩ := hshown
    intro hblank
    rw [isBlankText_summaryText.1 hblank line hline] at hshown
    cases hshown
  · rw [renderSummary, renderSummary, summaryText_eq_of_differsAtEnds hothers]

/-- A summary with a blank line in the middle, white space of several kinds at the ends of its lines
and a stray carriage return, and the same with other blanks. -/
theorem renderSummary_paragraph_sample :
    let lines := ["\u3000Blur an ``image``\r", " \t", "with a *kernel*."]
    let others := ["Blur an ``image``", "", "\x0b with a *kernel*.\u00a0"]
    (∀ line ∈ lines, '\n' ∉ line.toList) ∧
      ¬"```".toList <+: Text.trimStart (summaryText lines).toList ∧
      (∃ line ∈ lines, Text.isBlankText line.toList = false) ∧
      List.Forall₂ DiffersAtEnds lines others ∧
      renderSummary lines Markup.parse =
        [.paragraph [.text "Blur an ", .inlineCode "image", .text "  with a ",
          .emphasis [.text "kernel"], .text "."]] ∧
      renderSummary others Markup.parse = renderSummary lines Markup.parse := by
  intro lines others
  have hlines : ∀ line ∈ lines, '\n' ∉ line.toList := by decide
  have hfence : ¬"```".toList <+: Text.trimStart (summaryText lines).toList := by decide +kernel
  have hshown : ∃ line ∈ lines, Text.isBlankText line.toList = false :=
    ⟨_, List.mem_cons_self, by decide⟩
  have hothers : List.Forall₂ DiffersAtEnds lines others :=
    .cons ⟨"Blur an ``image``", ⟨['\u3000'], ['\r'], by decide +kernel⟩,
        ⟨[], [], by decide +kernel⟩⟩
      (.cons ⟨"", ⟨[' ', '\t'], [], by decide +kernel⟩, ⟨[], [], by decide +kernel⟩⟩
        (.cons ⟨"with a *kernel*.", ⟨[], [], by decide +kernel⟩,
          ⟨['\x0b', ' '], ['\u00a0'], by decide +kernel⟩⟩ .nil))
  obtain ⟨hparagraph, hsame⟩ := renderSummary_paragraph hlines
  exact ⟨hlines, hfence, hshown, hothers, ((hparagraph hfence).2 hshown).trans (by cbv),
    hsame others hothers⟩

end DocTree
