/-
# The lines of prose in groups

The lines of prose fall into groups (`IsGrouping`): blank lines, runs of running text, which
are as long as they can be, and fenced groups, which begin with a line that has the mark after
its indentation and go on to the next such line, or to the end.  There is one way to group the
lines of a text, and the nodes of its tree are those of the groups, in order: one for every
group but a blank line (`parse_grouping`).
-/

import DocTree.Proofs.Markup.Block
import DocTree.Proofs.Text.Blank
import Mathlib.Data.List.Chain

namespace DocTree
namespace Markup

/-- Whether a line is running text when it is outside of fences. -/
def IsRunning (line : Line) : Prop :=
  Text.isBlankText line = false ∧ isFence line = false

instance : DecidablePred IsRunning := fun _ =>
  inferInstanceAs (Decidable (_ ∧ _))

/-- A group of lines. -/
inductive Group where
  /-- A blank line outside of fences. -/
  | blank (line : Line)
  /-- Lines of running text. -/
  | run (lines : List Line)
  /-- A line with the mark between its indentation and its info, the lines up to the next line
  with the mark, and that line, if there is one. -/
  | fenced (indent info : List Char) (body : List Line) (closing : Option Line)
  deriving Repr, DecidableEq, Inhabited

namespace Group

/-- The lines of a group. -/
def lines : Group → List Line
  | blank line => [line]
  | run lines => lines
  | fenced indent info body closing => (indent ++ fenceMark ++ info) :: (body ++ closing.toList)

/-- Whether a group has such lines as belong in it. -/
def IsProper : Group → Prop
  | blank line => Text.isBlankText line = true
  | run lines => lines ≠ [] ∧ ∀ line ∈ lines, IsRunning line
  | fenced indent _ body closing => Text.isBlankText indent = true ∧
      (∀ line ∈ body, isFence line = false) ∧ ∀ line ∈ closing, isFence line = true

/-- Whether a group can come right before another: two runs would be one, and a fenced group
that is not closed goes on to the end. -/
def MayPrecede : Group → Group → Prop
  | run _, run _ => False
  | fenced _ _ _ none, _ => False
  | _, _ => True

instance : DecidablePred IsProper
  | .blank line => inferInstanceAs (Decidable (Text.isBlankText line = true))
  | .run lines => inferInstanceAs (Decidable (lines ≠ [] ∧ ∀ line ∈ lines, IsRunning line))
  | .fenced _ _ _ _ => inferInstanceAs (Decidable (_ ∧ _ ∧ ∀ line ∈ _, isFence line = true))

instance : DecidableRel MayPrecede
  | .run _, .run _ | .fenced _ _ _ none, _ => inferInstanceAs (Decidable False)
  | .run _, .blank _ | .run _, .fenced _ _ _ _ | .blank _, _
  | .fenced _ _ _ (some _), _ => inferInstanceAs (Decidable True)

/-- The node of a group; a blank line has none. -/
def node? : Group → Option Node
  | blank _ => none
  | run lines => some (.paragraph (inlineNodes (Text.joinLines (lines.map Text.trimEnd))))
  | fenced _ info body _ => some (fencedBlock (Text.trim info) (Text.joinLines body))

end Group

/-- Whether groups are those that some lines fall into. -/
structure IsGrouping (lines : List Line) (groups : List Group) : Prop where
  /-- Every line is in one of the groups, and they are in order. -/
  lines : groups.flatMap Group.lines = lines
  /-- Each group has such lines as belong in it. -/
  proper : ∀ group ∈ groups, group.IsProper
  /-- Each group ends where it has to. -/
  maximal : groups.IsChain Group.MayPrecede

instance (lines : List Line) (groups : List Group) : Decidable (IsGrouping lines groups) :=
  decidable_of_iff (groups.flatMap Group.lines = lines ∧ (∀ group ∈ groups, group.IsProper) ∧
      groups.IsChain Group.MayPrecede)
    ⟨fun h => ⟨h.1, h.2.1, h.2.2⟩, fun h => ⟨h.lines, h.proper, h.maximal⟩⟩

/-! ### Kinds of lines -/

/-- **A line is a fence if its indentation is followed by the mark,** and its info is the rest. -/
theorem fenceInfo?_eq_some_iff {line : Line} {info : List Char} :
    fenceInfo? line = some info ↔
      ∃ indent, Text.isBlankText indent = true ∧ line = indent ++ fenceMark ++ info := by
  constructor
  · intro h
    simp only [fenceInfo?, Option.ite_none_right_eq_some, Option.some.injEq] at h
    obtain ⟨hmark, rfl⟩ := h
    obtain ⟨info, hinfo⟩ := List.isPrefixOf_iff_prefix.1 hmark
    refine ⟨line.takeWhile Text.isBlank, List.all_takeWhile, ?_⟩
    rw [← hinfo, List.drop_left, List.append_assoc, hinfo, Text.trimStart,
      List.takeWhile_append_dropWhile]
  · rintro ⟨indent, hindent, rfl⟩
    have hstart : Text.trimStart (indent ++ fenceMark ++ info) = fenceMark ++ info := by
      rw [List.append_assoc, Text.trimStart_append_left hindent]
      exact List.dropWhile_cons_of_neg (by decide)
    have hmark : fenceMark.isPrefixOf (fenceMark ++ info) = true :=
      List.isPrefixOf_iff_prefix.2 (List.prefix_append _ _)
    simp only [fenceInfo?, hstart, hmark, if_true, List.drop_left]

theorem isFence_eq_true_iff {line : Line} :
    isFence line = true ↔
      ∃ indent info, Text.isBlankText indent = true ∧ line = indent ++ fenceMark ++ info := by
  simp only [isFence, Option.isSome_iff_exists, fenceInfo?_eq_some_iff]
  exact exists_comm

theorem isFence_of_isBlankText {line : Line} (h : Text.isBlankText line = true) :
    isFence line = false := by
  rw [isFence, fenceInfo?, Text.trimStart_eq_nil_iff.2 h]
  rfl

/-- What a line is when it is outside of fences. -/
inductive LineKind where
  | blank
  | running
  | fence
  deriving Repr, DecidableEq, Inhabited

/-- The kind of a line. -/
def lineKind (line : Line) : LineKind :=
  if isFence line then .fence else if Text.isBlankText line then .blank else .running

/-- The kind of the line that a group begins with. -/
def Group.kind : Group → LineKind
  | blank _ => .blank
  | run _ => .running
  | fenced .. => .fence

theorem lineKind_eq_running_iff {line : Line} : lineKind line = .running ↔ IsRunning line := by
  rw [lineKind, IsRunning]
  cases isFence line <;> cases Text.isBlankText line <;> simp

theorem isRunning_of_not_fence {line : Line} (hfence : fenceInfo? line = none)
    (hblank : ¬Text.isBlankText line = true) : IsRunning line :=
  ⟨Bool.eq_false_iff.2 hblank, by rw [isFence, hfence]; rfl⟩

/-- A list is cut in one way where the elements that have a property end. -/
theorem eq_of_append_eq_append {α : Type} {P : α → Prop} {front front' back back' : List α}
    (h : front ++ back = front' ++ back') (hfront : ∀ x ∈ front, P x) (hfront' : ∀ x ∈ front', P x)
    (hback : ∀ x ∈ back.head?, ¬P x) (hback' : ∀ x ∈ back'.head?, ¬P x) :
    front = front' ∧ back = back' := by
  rcases List.append_eq_append_iff.1 h with ⟨middle, rfl, rfl⟩ | ⟨middle, rfl, rfl⟩
  · cases middle with
    | nil => simp
    | cons x middle => exact absurd (hfront' x (by simp)) (hback x rfl)
  · cases middle with
    | nil => simp
    | cons x middle => exact absurd (hfront x (by simp)) (hback' x rfl)

namespace Group

variable {group other : Group} {rest rest' : List Line}

/-- A group begins with a line of its kind. -/
theorem IsProper.exists_first (h : group.IsProper) :
    ∃ first more, group.lines = first :: more ∧ lineKind first = group.kind := by
  cases group with
  | blank line =>
    have hblank : Text.isBlankText line = true := h
    refine ⟨line, [], rfl, ?_⟩
    rw [lineKind, isFence_of_isBlankText hblank, if_neg Bool.false_ne_true, if_pos hblank, kind]
  | run lines =>
    obtain ⟨first, more, rfl⟩ := List.exists_cons_of_ne_nil h.1
    exact ⟨first, more, rfl, lineKind_eq_running_iff.2 (h.2 first List.mem_cons_self)⟩
  | fenced indent info body closing =>
    refine ⟨_, _, rfl, ?_⟩
    rw [lineKind, if_pos (isFence_eq_true_iff.2 ⟨indent, info, h.1, rfl⟩), kind]

theorem IsProper.lines_ne_nil (h : group.IsProper) : group.lines ≠ [] := by
  obtain ⟨first, more, hlines, -⟩ := h.exists_first
  exact hlines ▸ List.cons_ne_nil first more

/-- Whether a group ends where it should if some lines follow it. -/
def EndsBefore : Group → List Line → Prop
  | run _, rest => ∀ line ∈ rest.head?, ¬IsRunning line
  | fenced _ _ _ none, rest => rest = []
  | _, _ => True

/-- The body and the end of a fenced group are told by the lines behind the first one. -/
theorem eq_of_fenced_eq {body body' : List Line} {closing closing' : Option Line}
    (hbody : ∀ line ∈ body, isFence line = false) (hbody' : ∀ line ∈ body', isFence line = false)
    (hclosing : ∀ line ∈ closing, isFence line = true)
    (hclosing' : ∀ line ∈ closing', isFence line = true)
    (hrest : closing = none → rest = []) (hrest' : closing' = none → rest' = [])
    (h : body ++ closing.toList ++ rest = body' ++ closing'.toList ++ rest') :
    body = body' ∧ closing = closing' ∧ rest = rest' := by
  -- Behind the body comes a fence or nothing.
  have hstop {closing : Option Line} {rest : List Line}
      (hclosing : ∀ line ∈ closing, isFence line = true) (hrest : closing = none → rest = []) :
      ∀ line ∈ (closing.toList ++ rest).head?, ¬isFence line = false := by
    cases closing with
    | none => simp [hrest rfl]
    | some line => simpa using hclosing line rfl
  rw [List.append_assoc, List.append_assoc] at h
  obtain ⟨rfl, htail⟩ := eq_of_append_eq_append h hbody hbody' (hstop hclosing hrest)
    (hstop hclosing' hrest')
  refine ⟨rfl, ?_⟩
  cases closing with
  | none =>
    cases closing' with
    | none => exact ⟨rfl, htail⟩
    | some line => simp [hrest rfl] at htail
  | some line =>
    cases closing' with
    | none => simp [hrest' rfl] at htail
    | some line' =>
      obtain ⟨rfl, rfl⟩ := List.cons.inj htail
      exact ⟨rfl, rfl⟩

/-- **The first group is told by the lines.** -/
theorem eq_of_append_eq (hgroup : group.IsProper) (hother : other.IsProper)
    (hends : group.EndsBefore rest) (hends' : other.EndsBefore rest')
    (h : group.lines ++ rest = other.lines ++ rest') : group = other ∧ rest = rest' := by
  have hkind : group.kind = other.kind := by
    obtain ⟨first, more, hlines, hfirst⟩ := hgroup.exists_first
    obtain ⟨first', more', hlines', hfirst'⟩ := hother.exists_first
    rw [hlines, hlines'] at h
    rw [← hfirst, ← hfirst', (List.cons.inj h).1]
  cases group with
  | blank line =>
    cases other with
    | blank line' =>
      obtain ⟨rfl, rfl⟩ := List.cons.inj h
      exact ⟨rfl, rfl⟩
    | _ => cases hkind
  | run lines =>
    cases other with
    | run lines' =>
      obtain ⟨rfl, rfl⟩ := eq_of_append_eq_append h hgroup.2 hother.2 hends hends'
      exact ⟨rfl, rfl⟩
    | _ => cases hkind
  | fenced indent info body closing =>
    cases other with
    | fenced indent' info' body' closing' =>
      obtain ⟨hindent, hbody, hclosing⟩ := hgroup
      obtain ⟨hindent', hbody', hclosing'⟩ := hother
      obtain ⟨hfirst, hmore⟩ := List.cons.inj h
      rw [List.append_assoc, List.append_assoc] at hfirst
      have hmark {info : List Char} : ∀ c ∈ (fenceMark ++ info).head?, ¬Text.isBlank c = true := by
        intro c hc
        obtain rfl := Option.some.inj hc
        decide
      obtain ⟨rfl, hinfo⟩ := eq_of_append_eq_append hfirst (List.all_eq_true.1 hindent)
        (List.all_eq_true.1 hindent') hmark hmark
      obtain rfl := List.append_cancel_left hinfo
      have hrest : closing = none → rest = [] := by rintro rfl; exact hends
      have hrest' : closing' = none → rest' = [] := by rintro rfl; exact hends'
      obtain ⟨rfl, rfl, rfl⟩ := eq_of_fenced_eq hbody hbody' hclosing hclosing' hrest hrest' hmore
      exact ⟨rfl, rfl⟩
    | _ => cases hkind

end Group

namespace IsGrouping

variable {line : Line} {lines rest : List Line} {group : Group} {groups others : List Group}

/-! ### Groupings group by group -/

theorem nil : IsGrouping [] [] where
  lines := rfl
  proper _ h := absurd h List.not_mem_nil
  maximal := .nil

/-- A group in front of lines that go on with one it may precede. -/
theorem cons (hgroup : group.IsProper) (hnext : ∀ next ∈ groups.head?, group.MayPrecede next)
    (h : IsGrouping rest groups) : IsGrouping (group.lines ++ rest) (group :: groups) where
  lines := by rw [List.flatMap_cons, h.lines]
  proper := List.forall_mem_cons.2 ⟨hgroup, h.proper⟩
  maximal := List.isChain_cons.2 ⟨hnext, h.maximal⟩

/-- The first group is of the kind of the first line. -/
theorem exists_first (h : IsGrouping (line :: lines) groups) :
    ∃ first more, groups = first :: more ∧ first.kind = lineKind line := by
  cases groups with
  | nil => cases h.lines
  | cons first more =>
    obtain ⟨line', lines', hlines, hkind⟩ := (h.proper first List.mem_cons_self).exists_first
    have heq := h.lines
    rw [List.flatMap_cons, hlines, List.cons_append] at heq
    exact ⟨first, more, rfl, (List.cons.inj heq).1 ▸ hkind.symm⟩

theorem eq_nil (h : IsGrouping [] groups) : groups = [] := by
  cases groups with
  | nil => rfl
  | cons first more =>
    have hlines : first.lines ++ more.flatMap Group.lines = [] := h.lines
    have hfirst := (h.proper first List.mem_cons_self).lines_ne_nil
    exact absurd (List.append_eq_nil_iff.1 hlines).1 hfirst

/-- What follows the first group is grouped without it. -/
theorem tail (h : IsGrouping lines (group :: groups)) :
    ∃ rest, lines = group.lines ++ rest ∧ group.EndsBefore rest ∧ IsGrouping rest groups := by
  have hrest : IsGrouping (groups.flatMap Group.lines) groups :=
    ⟨rfl, (List.forall_mem_cons.1 h.proper).2, h.maximal.tail⟩
  have hnext := (List.isChain_cons.1 h.maximal).1
  refine ⟨groups.flatMap Group.lines, h.lines.symm, ?_, hrest⟩
  cases group with
  | blank line => trivial
  | run lines =>
    intro line hline hrunning
    obtain ⟨more, hmore⟩ := List.head?_eq_some_iff.1 hline
    rw [hmore] at hrest
    obtain ⟨next, others, rfl, hkind⟩ := hrest.exists_first
    have hprecede := hnext next rfl
    rw [lineKind_eq_running_iff.2 hrunning] at hkind
    cases next with
    | run lines' => exact hprecede
    | _ => cases hkind
  | fenced indent info body closing =>
    cases closing with
    | some line => trivial
    | none =>
      cases groups with
      | nil => rfl
      | cons next groups => exact absurd (hnext next rfl) id

/-! ### There is one grouping -/

/-- **Lines fall into groups in one way.** -/
theorem unique (h : IsGrouping lines groups) (h' : IsGrouping lines others) : groups = others := by
  induction groups generalizing lines others with
  | nil =>
    obtain rfl : [] = lines := h.lines
    exact h'.eq_nil.symm
  | cons group groups ih =>
    obtain ⟨rest, rfl, hends, hrest⟩ := h.tail
    cases others with
    | nil =>
      have hlines : [] = group.lines ++ rest := h'.lines
      rw [← hlines] at h
      cases h.eq_nil
    | cons other others =>
      obtain ⟨rest', hlines, hends', hrest'⟩ := h'.tail
      obtain ⟨rfl, rfl⟩ := Group.eq_of_append_eq (h.proper group List.mem_cons_self)
        (h'.proper other List.mem_cons_self) hends hends' hlines
      rw [ih hrest hrest']

end IsGrouping

/-! ### The blocks of a text come from its groups -/

/-- Whether some lines, as they were read, are those that an open block holds. -/
inductive Open.Holds : Open → List Line → Prop
  | paragraph {read : List Line} (hread : ∀ line ∈ read, IsRunning line) :
    Holds (.paragraph (read.map Text.trimEnd).reverse) read
  | fenced {indent info : List Char} {body : List Line} (hindent : Text.isBlankText indent = true)
    (hbody : ∀ line ∈ body, isFence line = false) :
    Holds (.fenced (Text.trim info) body.reverse) ((indent ++ fenceMark ++ info) :: body)

theorem Open.Holds.nil : Holds (.paragraph []) [] :=
  @paragraph [] fun _ h => absurd h List.not_mem_nil

theorem Open.close_paragraph_reverse {lines : List Line} (h : lines ≠ []) :
    (Open.paragraph lines.reverse).close = [.paragraph lines] := by
  obtain ⟨line, rest, hlines⟩ := List.exists_cons_of_ne_nil (List.reverse_ne_nil_iff.2 h)
  rw [hlines]
  show [Block.paragraph (line :: rest).reverse] = [.paragraph lines]
  rw [← hlines, List.reverse_reverse]

/-- The lines of running text before a group of another kind are a run, unless there are none. -/
theorem IsGrouping.exists_run {read rest : List Line} {groups : List Group}
    (hread : ∀ line ∈ read, IsRunning line) (h : IsGrouping rest groups)
    (hnext : ∀ next ∈ groups.head?, next.kind ≠ .running) :
    ∃ all, IsGrouping (read ++ rest) all ∧
      all.filterMap Group.node? =
        (Open.paragraph (read.map Text.trimEnd).reverse).close.map Block.toNode ++
          groups.filterMap Group.node? := by
  by_cases hnil : read = []
  · subst hnil
    exact ⟨groups, h, rfl⟩
  · have hprecede : ∀ next ∈ groups.head?, (Group.run read).MayPrecede next := by
      intro next hmem
      cases next with
      | run lines => exact hnext _ hmem rfl
      | _ => trivial
    have hgroup : (Group.run read).IsProper := ⟨hnil, hread⟩
    refine ⟨.run read :: groups, h.cons hgroup hprecede, ?_⟩
    rw [Open.close_paragraph_reverse (by simpa using hnil)]
    rfl

/-- **The lines that an open block holds and those that follow are grouped,** and the blocks that
come of them are those of the groups. -/
theorem exists_isGrouping {current : Open} {read : List Line} (h : current.Holds read)
    (lines : List Line) :
    ∃ groups, IsGrouping (read ++ lines) groups ∧
      (blocksFrom current lines).map Block.toNode = groups.filterMap Group.node? := by
  induction current, lines using blocksFrom.induct generalizing read with
  | case1 current =>
    cases h with
    | paragraph hread =>
      obtain ⟨all, hall, hnodes⟩ := IsGrouping.nil.exists_run hread (by simp)
      exact ⟨all, hall, by rw [blocksFrom, hnodes]; simp⟩
    | @fenced indent info body hindent hbody =>
      have hgroup : (Group.fenced indent info body none).IsProper := ⟨hindent, hbody, by simp⟩
      have hgroups := IsGrouping.nil.cons hgroup (by simp)
      refine ⟨_, by simpa [Group.lines] using hgroups, ?_⟩
      rw [blocksFrom, Open.close, List.reverse_reverse]
      rfl
  | case2 info body line lines hfence ih =>
    -- The fence closes the group, and the rest is grouped by itself.
    obtain ⟨groups, hgroups, hnodes⟩ := ih .nil
    cases h with
    | @fenced indent info body hindent hbody =>
      have hgroup : (Group.fenced indent info body (some line)).IsProper :=
        ⟨hindent, hbody, fun _ h => Option.some.inj h ▸ hfence⟩
      have hall := hgroups.cons hgroup fun _ _ => trivial
      refine ⟨_, by simpa [Group.lines] using hall, ?_⟩
      rw [blocksFrom, if_pos hfence, List.map_append, hnodes, Open.close, List.reverse_reverse]
      rfl
  | case3 info body line lines hfence ih =>
    cases h with
    | @fenced indent info body hindent hbody =>
      have hlonger : ∀ line' ∈ body ++ [line], isFence line' = false := by
        simpa [or_imp, forall_and] using ⟨hbody, Bool.eq_false_iff.2 hfence⟩
      have hholds : Open.Holds (.fenced (Text.trim info) (body ++ [line]).reverse) _ :=
        .fenced hindent hlonger
      rw [List.reverse_append] at hholds
      obtain ⟨groups, hgroups, hnodes⟩ := ih hholds
      refine ⟨groups, by simpa using hgroups, ?_⟩
      rw [blocksFrom, if_neg hfence, hnodes]
  | case4 ls line lines info hinfo ih =>
    cases h with
    | @paragraph read hread =>
      -- The group that the fence opens is the first of the rest, so the run ends before it.
      obtain ⟨indent, hindent, rfl⟩ := fenceInfo?_eq_some_iff.1 hinfo
      have hfence := isFence_eq_true_iff.2 ⟨indent, info, hindent, rfl⟩
      obtain ⟨groups, hgroups, hnodes⟩ := ih (@Open.Holds.fenced indent info [] hindent (by simp))
      obtain ⟨first, more, rfl, hkind⟩ := hgroups.exists_first
      obtain ⟨all, hall, hall'⟩ := hgroups.exists_run hread fun next hnext => by
        obtain rfl := Option.some.inj hnext
        rw [hkind, lineKind, if_pos hfence]
        exact LineKind.noConfusion
      refine ⟨all, hall, ?_⟩
      simp only [blocksFrom, hinfo, List.map_append, hnodes, hall']
  | case5 ls line lines hinfo hblank ih =>
    cases h with
    | @paragraph read hread =>
      obtain ⟨groups, hgroups, hnodes⟩ := ih .nil
      have hgroup : (Group.blank line).IsProper := hblank
      have hfirst := hgroups.cons hgroup fun _ _ => trivial
      obtain ⟨all, hall, hall'⟩ := hfirst.exists_run hread fun next hnext => by
        obtain rfl := Option.some.inj hnext
        exact LineKind.noConfusion
      refine ⟨all, hall, ?_⟩
      simp only [blocksFrom, hinfo, hblank, if_true, List.map_append, hnodes, hall']
      rfl
  | case6 ls line lines hinfo hblank ih =>
    cases h with
    | @paragraph read hread =>
      have hlonger : ∀ line' ∈ read ++ [line], IsRunning line' := by
        simpa [or_imp, forall_and] using ⟨hread, isRunning_of_not_fence hinfo hblank⟩
      have hholds := Open.Holds.paragraph hlonger
      rw [List.map_append, List.reverse_append] at hholds
      obtain ⟨groups, hgroups, hnodes⟩ := ih hholds
      refine ⟨groups, by simpa using hgroups, ?_⟩
      simp only [blocksFrom, hinfo, hblank]
      exact hnodes

/-- The nodes of a text are those of the groups that its lines fall into. -/
theorem IsGrouping.children_parse {source : String} {groups : List Group}
    (h : IsGrouping (Text.lines source.toList) groups) :
    (parse source).children = groups.filterMap Group.node? := by
  obtain ⟨others, hothers, hnodes⟩ := exists_isGrouping .nil (Text.lines source.toList)
  rw [h.unique hothers, ← hnodes]
  rfl

/-- **The lines of prose fall into groups in one way,** and the nodes of its tree are those of
the groups. -/
theorem parse_grouping (source : String) :
    (∃! groups, IsGrouping (Text.lines source.toList) groups) ∧
      ∀ groups, IsGrouping (Text.lines source.toList) groups →
        (parse source).children = groups.filterMap Group.node? := by
  obtain ⟨groups, hgroups, -⟩ := exists_isGrouping .nil (Text.lines source.toList)
  exact ⟨⟨groups, hgroups, fun others h => h.unique hgroups⟩, fun others h => h.children_parse⟩

/-- Prose with a run of two lines, a blank line, a directive with a blank line in it that the next
fence closes, running text right behind it, and code that is never closed. -/
theorem parse_grouping_sample :
    IsGrouping
        (Text.lines "one \r\n two\n \n  ```\x7bnote\x7d py\n\n x \n````four\nfive\n```".toList)
        [.run ["one ".toList, " two".toList], .blank [' '],
          .fenced "  ".toList "\x7bnote\x7d py".toList [[], " x ".toList] (some "````four".toList),
          .run ["five".toList], .fenced [] [] [] none] ∧
      (parse "one \r\n two\n \n  ```\x7bnote\x7d py\n\n x \n````four\nfive\n```").children =
        [.paragraph (inlineNodes "one\n two".toList), .code "py" "\n x ",
          .paragraph (inlineNodes "five".toList), .code "" ""] := by
  have hgrouping : IsGrouping
      (Text.lines "one \r\n two\n \n  ```\x7bnote\x7d py\n\n x \n````four\nfive\n```".toList)
      [.run ["one ".toList, " two".toList], .blank [' '],
        .fenced "  ".toList "\x7bnote\x7d py".toList [[], " x ".toList] (some "````four".toList),
        .run ["five".toList], .fenced [] [] [] none] := by decide +kernel
  exact ⟨hgrouping, (parse_grouping _).2 _ hgrouping⟩

end Markup
end DocTree
