/-
# Prose put together

Every fenced group but an open one has two fences (`Group.IsProper.countP_isFence`), so prose
with an even number of them leaves nothing open.  A blank line after such prose, or a fenced
block, is read apart from it, and what follows is read as if it stood alone
(`parse_append_blankLine`, `parse_fenced_between`).
-/

import DocTree.Proofs.Markup.Fence
import DocTree.Proofs.Markup.Grouping
import DocTree.Proofs.Text.Line
import Mathlib.Algebra.Group.Nat.Even

namespace DocTree
namespace Markup

/-! ### Fences in pairs -/

namespace Group

variable {group next : Group} {rest : List Line}

/-- Whether a group is a fenced one that is not closed. -/
def isOpen : Group → Bool
  | fenced _ _ _ none => true
  | _ => false

/-- The number of fences that a group has. -/
def fences : Group → Nat
  | fenced _ _ _ none => 1
  | fenced _ _ _ (some _) => 2
  | _ => 0

theorem IsProper.countP_isFence (h : group.IsProper) :
    group.lines.countP isFence = group.fences := by
  cases group with
  | blank line => simp [lines, fences, isFence_of_isBlankText h]
  | run lines => exact List.countP_eq_zero.2 fun line hline => by simp [(h.2 line hline).2]
  | fenced indent info body closing =>
    obtain ⟨hindent, hbody, hclosing⟩ := h
    have hopening := isFence_eq_true_iff.2 ⟨indent, info, hindent, rfl⟩
    have hinside : body.countP isFence = 0 :=
      List.countP_eq_zero.2 fun line hline => by simp [hbody line hline]
    rw [lines, List.countP_cons_of_pos hopening, List.countP_append, hinside]
    cases closing with
    | none => rfl
    | some line => simp [fences, hclosing line rfl]

theorem even_fences (h : group.isOpen = false) : Even group.fences := by
  cases group with
  | fenced indent info body closing =>
    cases closing with
    | none => cases h
    | some line => exact ⟨1, rfl⟩
  | _ => exact Even.zero

theorem mayPrecede_of_isOpen_eq_false (h : group.isOpen = false) (hnext : next.kind ≠ .running) :
    group.MayPrecede next := by
  cases group with
  | blank line => trivial
  | run lines =>
    cases next with
    | run lines' => exact hnext rfl
    | _ => trivial
  | fenced indent info body closing =>
    cases closing with
    | none => cases h
    | some line => trivial

/-- Whether a group can come before another is told by the kind of that other. -/
theorem MayPrecede.of_kind_eq {other : Group} (h : group.MayPrecede next)
    (hkind : other.kind = next.kind) : group.MayPrecede other := by
  cases group with
  | blank line => trivial
  | run lines =>
    cases other with
    | run lines' =>
      cases next with
      | run lines'' => exact h
      | _ => cases hkind
    | _ => trivial
  | fenced indent info body closing =>
    cases closing with
    | none => exact h
    | some line => trivial

end Group

namespace IsGrouping

variable {lines front back : List Line} {groups others : List Group}

/-- **Where there is an even number of fences, none is left open.** -/
theorem isOpen_eq_false (h : IsGrouping lines groups) (heven : Even (lines.countP isFence)) :
    ∀ group ∈ groups, group.isOpen = false := by
  induction groups generalizing lines with
  | nil => simp
  | cons group groups ih =>
    have hproper := h.proper group List.mem_cons_self
    obtain ⟨rest, rfl, hends, hrest⟩ := h.tail
    rw [List.countP_append, hproper.countP_isFence] at heven
    cases hopen : group.isOpen with
    | false =>
      have hfences := Group.even_fences hopen
      exact List.forall_mem_cons.2 ⟨hopen, ih hrest ((Nat.even_add.1 heven).1 hfences)⟩
    | true =>
      -- An open group is the last one, and its fence has no other.
      match group with
      | .fenced _ _ _ none =>
        obtain rfl : rest = [] := hends
        exact absurd heven Nat.not_even_one

/-- Lines one after the other fall into the groups of both, if the first leave nothing open and
no run goes on. -/
theorem append {next : Group} (h : IsGrouping front groups)
    (hclosed : ∀ group ∈ groups, group.isOpen = false) (h' : IsGrouping back (next :: others))
    (hnext : next.kind ≠ .running) : IsGrouping (front ++ back) (groups ++ next :: others) where
  lines := by rw [List.flatMap_append, h.lines, h'.lines]
  proper group hgroup := (List.mem_append.1 hgroup).elim (h.proper group) (h'.proper group)
  maximal := by
    refine List.isChain_append.2 ⟨h.maximal, h'.maximal, fun last hlast first hfirst => ?_⟩
    obtain rfl := Option.some.inj hfirst
    exact Group.mayPrecede_of_isOpen_eq_false (hclosed last (List.mem_of_getLast? hlast)) hnext

/-- An empty line between lines is a group of its own. -/
theorem append_blankLine (h : IsGrouping front groups)
    (hclosed : ∀ group ∈ groups, group.isOpen = false) (h' : IsGrouping back others) :
    IsGrouping (front ++ [] :: back) (groups ++ .blank [] :: others) := by
  have hblank : (Group.blank []).IsProper := rfl
  exact h.append hclosed (h'.cons hblank fun _ _ => trivial) LineKind.noConfusion

end IsGrouping

/-! ### A blank at the end of the last line -/

theorem isFence_concat {c : Char} (hc : Text.isBlank c = true) (line : Line) :
    isFence (line ++ [c]) = isFence line := by
  rw [Bool.eq_iff_iff, isFence_eq_true_iff, isFence_eq_true_iff]
  constructor
  · rintro ⟨indent, info, hindent, hline⟩
    rcases List.eq_nil_or_concat info with rfl | ⟨info, d, rfl⟩
    · -- The line would end with the mark, and not with a blank.
      have hlast : some c = some backtick := by
        simpa [fenceMark] using congrArg List.getLast? hline
      obtain rfl := Option.some.inj hlast
      cases hc
    · rw [List.concat_eq_append, ← List.append_assoc] at hline
      obtain ⟨rfl, -⟩ := List.append_inj' hline rfl
      exact ⟨indent, info, hindent, rfl⟩
  · rintro ⟨indent, info, hindent, rfl⟩
    exact ⟨indent, info ++ [c], hindent, List.append_assoc ..⟩

/-- A blank can be taken off the last line of a group that is not open. -/
theorem Group.exists_of_concat {group : Group} {front : List Line} {line : Line} {c : Char}
    (h : group.IsProper) (hclosed : group.isOpen = false) (hc : Text.isBlank c = true)
    (hlines : group.lines = front ++ [line ++ [c]]) :
    ∃ group' : Group, group'.IsProper ∧ group'.lines = front ++ [line] ∧
      group'.kind = group.kind ∧ group'.isOpen = false ∧ group'.node? = group.node? := by
  cases group with
  | blank last =>
    have hend : [] ++ [last] = front ++ [line ++ [c]] := hlines
    obtain ⟨rfl, hlast⟩ := List.append_inj' hend rfl
    obtain rfl := List.singleton_inj.1 hlast
    have hblank : Text.isBlankText line = true := (Text.isBlankText_concat hc line).symm.trans h
    exact ⟨.blank line, hblank, rfl, rfl, rfl, rfl⟩
  | run read =>
    obtain rfl : read = front ++ [line ++ [c]] := hlines
    have hrun : ∀ line' ∈ front ++ [line], IsRunning line' := by
      have hread := h.2
      simp only [List.forall_mem_append, List.forall_mem_singleton, IsRunning] at hread ⊢
      rwa [Text.isBlankText_concat hc, isFence_concat hc] at hread
    have htrim : Text.trimEnd (line ++ [c]) = Text.trimEnd line :=
      Text.trimEnd_append_right (by simp [Text.isBlankText, hc]) line
    refine ⟨.run (front ++ [line]), ⟨by simp, hrun⟩, rfl, rfl, rfl, ?_⟩
    simp only [node?, List.map_append, List.map_cons, List.map_nil, htrim]
  | fenced indent info body closing =>
    cases closing with
    | none => cases hclosed
    | some last =>
      have hend : ((indent ++ fenceMark ++ info) :: body) ++ [last] = front ++ [line ++ [c]] :=
        hlines
      obtain ⟨hfront, hlast⟩ := List.append_inj' hend rfl
      obtain rfl := List.singleton_inj.1 hlast
      obtain ⟨hindent, hbody, hclosing⟩ := h
      have hfence : isFence line = true := (isFence_concat hc line).symm.trans (hclosing _ rfl)
      have hgroup : (fenced indent info body (some line)).IsProper :=
        ⟨hindent, hbody, fun _ h => Option.some.inj h ▸ hfence⟩
      refine ⟨.fenced indent info body (some line), hgroup, ?_, rfl, rfl, rfl⟩
      rw [lines, ← hfront]
      rfl

/-- A blank can be taken off the last of some lines that leave nothing open. -/
theorem IsGrouping.exists_of_concat {front : List Line} {line : Line} {c : Char}
    {groups : List Group} (h : IsGrouping (front ++ [line ++ [c]]) groups)
    (hclosed : ∀ group ∈ groups, group.isOpen = false) (hc : Text.isBlank c = true) :
    ∃ groups', IsGrouping (front ++ [line]) groups' ∧
      (∀ group ∈ groups', group.isOpen = false) ∧
      groups'.filterMap Group.node? = groups.filterMap Group.node? := by
  have hlines := h.lines
  rcases List.eq_nil_or_concat groups with rfl | ⟨before, last, rfl⟩
  · simp at hlines
  · rw [List.concat_eq_append] at h hclosed hlines ⊢
    obtain ⟨hproper, hlast⟩ := List.forall_mem_append.1 h.proper
    obtain ⟨hclosed, hclosed'⟩ := List.forall_mem_append.1 hclosed
    obtain ⟨hbefore, -, hnext⟩ := List.isChain_append.1 h.maximal
    rw [List.forall_mem_singleton] at hlast hclosed'
    rcases List.eq_nil_or_concat last.lines with hnil | ⟨more, lastLine, hend⟩
    · exact absurd hnil hlast.lines_ne_nil
    · rw [List.concat_eq_append] at hend
      rw [List.flatMap_append, List.flatMap_singleton, hend, ← List.append_assoc] at hlines
      obtain ⟨rfl, hline⟩ := List.append_inj' hlines rfl
      obtain rfl := List.singleton_inj.1 hline
      obtain ⟨last', hlast', hlines', hkind, hopen, hnode⟩ :=
        Group.exists_of_concat hlast hclosed' hc hend
      refine ⟨before ++ [last'], ⟨?_, ?_, ?_⟩, ?_, ?_⟩
      · rw [List.flatMap_append, List.flatMap_singleton, hlines', List.append_assoc]
      · exact List.forall_mem_append.2 ⟨hproper, List.forall_mem_singleton.2 hlast'⟩
      · refine List.isChain_append.2 ⟨hbefore, .singleton _, fun group hgroup next hmem => ?_⟩
        obtain rfl := Option.some.inj hmem
        exact (hnext group hgroup last rfl).of_kind_eq hkind
      · exact List.forall_mem_append.2 ⟨hclosed, List.forall_mem_singleton.2 hopen⟩
      · rw [List.filterMap_append, List.filterMap_append, List.filterMap_cons, hnode]
        rfl

/-- **Lines that have ended are read like those of the text before its last line feed,** if
nothing is left open. -/
theorem exists_isGrouping_endedLines {source : String}
    (heven : Even ((Text.lines source.toList).countP isFence)) :
    ∃ groups, IsGrouping (Text.endedLines source.toList) groups ∧
      (∀ group ∈ groups, group.isOpen = false) ∧
      groups.filterMap Group.node? = (parse source).children := by
  obtain ⟨groups, hgroups, -⟩ := exists_isGrouping .nil (Text.lines source.toList)
  rw [List.nil_append] at hgroups
  have hclosed := hgroups.isOpen_eq_false heven
  have hnodes := hgroups.children_parse
  obtain ⟨ended, last, hsplit⟩ := Text.exists_split_eq_append '\n' source.toList
  have hended : Text.endedLines source.toList =
      ended.map Text.withoutReturn ++ [Text.withoutReturn last] := by
    rw [Text.endedLines, hsplit, List.map_append]
    rfl
  rw [Text.lines_of_split hsplit] at hgroups
  rw [hended, hnodes]
  by_cases hnil : last = []
  · -- The text is empty or ends with a line feed, and another one makes an empty line.
    subst hnil
    rw [if_pos rfl, List.append_nil] at hgroups
    refine ⟨_, hgroups.append_blankLine hclosed .nil, ?_, ?_⟩
    · exact List.forall_mem_append.2 ⟨hclosed, List.forall_mem_singleton.2 rfl⟩
    · rw [List.filterMap_append]
      exact List.append_nil _
  · rw [if_neg hnil] at hgroups
    rcases Text.withoutReturn_cases last with hsame | hreturn
    · exact ⟨groups, hsame.symm ▸ hgroups, hclosed, rfl⟩
    · rw [hreturn] at hgroups
      exact hgroups.exists_of_concat hclosed rfl

/-! ### Prose behind prose -/

/-- **Documents compose at blank lines,** if no fence is left open. -/
theorem parse_append_blankLine (a b : String) (h : Even ((Text.lines a.toList).countP isFence)) :
    (parse (a ++ "\n\n" ++ b)).children = (parse a).children ++ (parse b).children := by
  obtain ⟨front, hfront, hclosed, hnodes⟩ := exists_isGrouping_endedLines h
  obtain ⟨back, hback, -⟩ := exists_isGrouping .nil (Text.lines b.toList)
  have htext : (a ++ "\n\n" ++ b).toList = a.toList ++ '\n' :: ([] ++ '\n' :: b.toList) := by
    simp
  have hall : IsGrouping (Text.lines (a ++ "\n\n" ++ b).toList) (front ++ .blank [] :: back) := by
    rw [htext, Text.lines_append_cons, Text.lines_append_cons]
    exact hfront.append_blankLine hclosed hback
  rw [hall.children_parse, List.filterMap_append, hnodes, hback.children_parse]
  rfl

/-- Prose that ends with a closed fence and a carriage return. -/
theorem parse_append_blankLine_sample :
    Even ((Text.lines "one\n```\n\n```\r".toList).countP isFence) ∧
      (parse ("one\n```\n\n```\r" ++ "\n\n" ++ "```\ntwo")).children =
        (parse "one\n```\n\n```\r").children ++ (parse "```\ntwo").children := by
  have heven : Even ((Text.lines "one\n```\n\n```\r".toList).countP isFence) := by decide +kernel
  exact ⟨heven, parse_append_blankLine _ _ heven⟩

/-- The lines of a fenced block are a group of their own, whatever follows. -/
theorem IsGrouping.cons_fenced {info body : List Char} {rest : List Line} {groups : List Group}
    (hinfo : '\n' ∉ info)
    (hbody : ∀ line ∈ Text.split '\n' body, isFence line = false ∧ line.getLast? ≠ some '\r')
    (h : IsGrouping rest groups) :
    IsGrouping
      (Text.endedLines (fenceMark ++ info) ++
        (Text.endedLines body ++ (Text.endedLines fenceMark ++ rest)))
      (.fenced [] (Text.withoutReturn info) (Text.split '\n' body) (some fenceMark) :: groups) := by
  have hopening : Text.endedLines (fenceMark ++ info) = [fenceMark ++ Text.withoutReturn info] := by
    have hline : '\n' ∉ fenceMark ++ info := fun h =>
      (List.mem_append.1 h).elim (by decide) hinfo
    rw [Text.endedLines, Text.split_of_not_mem hline, List.map_singleton,
      Text.withoutReturn_append (by decide)]
  have hinside : Text.endedLines body = Text.split '\n' body :=
    (List.map_congr_left fun line hline => Text.withoutReturn_of_ne (hbody line hline).2).trans
      (List.map_id _)
  have hgroup : (Group.fenced [] (Text.withoutReturn info) (Text.split '\n' body)
      (some fenceMark)).IsProper :=
    ⟨rfl, fun line hline => (hbody line hline).1, fun _ h => Option.some.inj h ▸ rfl⟩
  have hclosing : Text.endedLines fenceMark = [fenceMark] := rfl
  rw [hopening, hinside, hclosing]
  simpa [Group.lines] using h.cons hgroup fun _ _ => trivial

/-- A fenced block in prose comes to one node between those of the prose around it. -/
theorem children_parse_fenced_between {a b info body : String}
    (ha : Even ((Text.lines a.toList).countP isFence)) (hinfo : '\n' ∉ info.toList)
    (hbody : ∀ line ∈ Text.split '\n' body.toList,
      isFence line = false ∧ line.getLast? ≠ some '\r') :
    (parse (a ++ "\n```" ++ info ++ "\n" ++ body ++ "\n```\n" ++ b)).children =
      (parse a).children ++
        [fencedBlock (Text.trim info.toList) body.toList] ++ (parse b).children := by
  obtain ⟨front, hfront, hclosed, hnodes⟩ := exists_isGrouping_endedLines ha
  obtain ⟨back, hback, -⟩ := exists_isGrouping .nil (Text.lines b.toList)
  have htext : (a ++ "\n```" ++ info ++ "\n" ++ body ++ "\n```\n" ++ b).toList =
      a.toList ++ '\n' :: ((fenceMark ++ info.toList) ++
        '\n' :: (body.toList ++ '\n' :: (fenceMark ++ '\n' :: b.toList))) := by
    simp [fenceMark, backtick]
  have hall := hfront.append hclosed (hback.cons_fenced hinfo hbody) LineKind.noConfusion
  rw [List.nil_append, ← Text.lines_append_cons, ← Text.lines_append_cons,
    ← Text.lines_append_cons, ← Text.lines_append_cons, ← htext] at hall
  rw [hall.children_parse, List.filterMap_append, hnodes, List.filterMap_cons]
  simp only [Group.node?, Text.trim_withoutReturn, Text.joinLines_split,
    hback.children_parse, List.append_assoc, List.singleton_append]

/-- **A fenced block is cut out whole,** whatever stands before and after it, if no fence is left
open before it. -/
theorem parse_fenced_between {a b info body : String}
    (ha : Even ((Text.lines a.toList).countP isFence)) (hinfo : '\n' ∉ info.toList)
    (hbody : ∀ line ∈ Text.split '\n' body.toList,
      isFence line = false ∧ line.getLast? ≠ some '\r') :
    (parse (a ++ "\n```" ++ info ++ "\n" ++ body ++ "\n```\n" ++ b)).children =
        (parse a).children ++
          [fencedBlock (Text.trim info.toList) body.toList] ++ (parse b).children ∧
      (∀ lang : String, Text.trim info.toList = lang.toList →
        (∀ c ∈ lang.toList, Text.isBlank c = false) → lang.toList.head? ≠ some '\x7b' →
          fencedBlock (Text.trim info.toList) body.toList = .code lang body) ∧
      ∀ name version : String, ∀ gap : List Char,
        name ∈ ["versionadded", "versionchanged", "deprecated"] →
        Text.isBlankText gap = true → Text.trim version.toList = version.toList →
        Text.trim info.toList = '\x7b' :: (name.toList ++ '\x7d' :: (gap ++ version.toList)) →
          fencedBlock (Text.trim info.toList) body.toList =
            (VersionChange.ofDirective name).note version := by
  refine ⟨children_parse_fenced_between ha hinfo hbody, fun lang hlang hword hhead => ?_,
    fun name version gap hname hgap hversion hread => ?_⟩
  · rw [hlang, fencedBlock_word hword hhead, String.ofList_toList, String.ofList_toList]
  · rw [hread, fencedBlock_version hname, Text.trim_append_left hgap, hversion,
      String.ofList_toList]

/-- Code with empty lines at both ends, and a version note, behind a closed fence with a carriage
return and before running text. -/
theorem parse_fenced_between_sample :
    Even ((Text.lines "one\n```\n```\r".toList).countP isFence) ∧
      '\n' ∉ " py\r".toList ∧ '\n' ∉ "\x7bdeprecated\x7d  0.19 ".toList ∧
      (∀ line ∈ Text.split '\n' "\n  *x*\n``\n".toList,
        isFence line = false ∧ line.getLast? ≠ some '\r') ∧
      (parse ("one\n```\n```\r" ++ "\n```" ++ " py\r" ++ "\n" ++ "\n  *x*\n``\n" ++ "\n```\n" ++
          "two")).children =
        (parse "one\n```\n```\r").children ++ [.code "py" "\n  *x*\n``\n"] ++
          (parse "two").children ∧
      (parse ("one\n```\n```\r" ++ "\n```" ++ "\x7bdeprecated\x7d  0.19 " ++ "\n" ++
          "\n  *x*\n``\n" ++ "\n```\n" ++ "two")).children =
        (parse "one\n```\n```\r").children ++ [VersionChange.deprecated.note "0.19"] ++
          (parse "two").children := by
  have ha : Even ((Text.lines "one\n```\n```\r".toList).countP isFence) := by decide +kernel
  have hword : '\n' ∉ " py\r".toList := by decide
  have hversion : '\n' ∉ "\x7bdeprecated\x7d  0.19 ".toList := by decide
  have hbody : ∀ line ∈ Text.split '\n' "\n  *x*\n``\n".toList,
      isFence line = false ∧ line.getLast? ≠ some '\r' := by decide +kernel
  obtain ⟨hcode, hlang, -⟩ := parse_fenced_between (b := "two") ha hword hbody
  obtain ⟨hnote, -, hname⟩ := parse_fenced_between (b := "two") ha hversion hbody
  have hblank : ("py".toList.all fun c => !Text.isBlank c) = true := by decide
  rw [hlang "py" (by decide +kernel) (by simpa using hblank) (by decide)] at hcode
  rw [hname "deprecated" "0.19" "  ".toList (by decide) (by decide +kernel) (by decide +kernel)
    (by decide +kernel)] at hnote
  exact ⟨ha, hword, hversion, hbody, hcode, hnote⟩

end Markup
end DocTree
