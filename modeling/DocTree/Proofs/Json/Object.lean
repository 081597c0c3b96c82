/-
# The text of an object

An object is written with its members between braces and commas, each in whatever way a
member can be written: `IsMemberText` asks no more than that the reader takes the text for the
member.  Such an object is read as its members, one after the other (`State.run_objectText`).
-/

import DocTree.Proofs.Json.Reader
import Mathlib.Data.List.Forall2

namespace DocTree
namespace Json

/-- Whether a text, wherever a member may come, is read as a member. -/
def IsMemberText (member : StringText × Draft) (text : List Char) : Prop :=
  ∀ members outer,
    State.IsAfter (.member members member.1 :: outer) member.2
      (State.run (.nextKey members outer) text)

/-- The text of an object whose members have some texts.  Without members there may be a gap
between the braces. -/
def objectText (gap : List Char) : List (List Char) → List Char
  | [] => '\x7b' :: (gap ++ ['\x7d'])
  | text :: texts => '\x7b' :: (text ++ (texts.flatMap (',' :: ·) ++ ['\x7d']))

/-- Whether a text is an object whose members have some texts. -/
def IsObjectText {α : Type} (isMember : α → List Char → Prop) (members : List α)
    (text : List Char) : Prop :=
  ∃ gap texts, (∀ c ∈ gap, isSpace c = true) ∧ List.Forall₂ isMember members texts ∧
    text = objectText gap texts

/-- Whether a text, wherever a member may come, is read as its key and the colon behind it. -/
def IsKeyText (key : String) (text : List Char) : Prop :=
  ∀ members outer, State.run (.nextKey members outer) text =
    .expectValue (.member members (some key) :: outer)

theorem isKeyText_quote (key : String) : IsKeyText key (quote key ++ [':']) :=
  fun members outer => State.run_key key members outer []

/-- A member is written as its key and its value, with any white space around them. -/
theorem isMemberText_written (key : String) {value : Json} (hvalue : value.IsGrammatical)
    (gaps : Spacing) (level : Nat) {before after : List Char}
    (hbefore : ∀ c ∈ before, isSpace c = true) (hafter : ∀ c ∈ after, isSpace c = true) :
    IsMemberText (some key, value.draft)
      (before ++ (quote key ++ ':' :: (gaps.colon ++ (value.spacedText gaps level ++ after)))) := by
  intro members outer
  rw [State.run_append, State.run_gap (.nextKey members outer) rfl hbefore, State.run_key,
    State.run_append, State.run_gap (.expectValue _) rfl gaps.colon_isSpace, State.run_append]
  exact (State.isAfter_spacedText gaps value level hvalue _).run_gap hafter

/-! ### On one line -/

/-- A member on one line. -/
def memberText (member : String × Json) : List Char :=
  quote member.1 ++ ':' :: member.2.compactText

theorem compactMembers_eq_flatMap (member : String × Json) (members : List (String × Json)) :
    compactMembers (member :: members) =
      memberText member ++ (members.map memberText).flatMap (',' :: ·) := by
  induction members generalizing member with
  | nil => exact (List.append_nil _).symm
  | cons next members ih =>
    have hnext : compactMembers (member :: next :: members) =
        memberText member ++ ',' :: compactMembers (next :: members) := rfl
    rw [hnext, ih, List.map_cons, List.flatMap_cons, List.cons_append]

/-- An object on one line is a text of its members on one line. -/
theorem compactText_object (members : List (String × Json)) :
    (object members).compactText = objectText [] (members.map memberText) := by
  cases members with
  | nil => rfl
  | cons member members =>
    rw [compactText, compactMembers_eq_flatMap, List.map_cons, objectText, List.cons_append,
      List.append_assoc]

theorem isMemberText_memberText (key : String) {value : Json} (h : value.IsGrammatical) :
    IsMemberText (some key, value.draft) (memberText (key, value)) := by
  have hwritten :=
    isMemberText_written key h .none 0 (List.forall_mem_nil _) (List.forall_mem_nil _)
  rwa [spacedText_none, List.append_nil] at hwritten

theorem forall₂_memberText {members : List (String × Json)}
    (h : ∀ member ∈ members, member.2.IsGrammatical) :
    List.Forall₂ IsMemberText (members.map fun member => (some member.1, member.2.draft))
      (members.map memberText) := by
  rw [List.forall₂_map_left_iff, List.forall₂_map_right_iff]
  exact List.forall₂_same.2 fun member hmember =>
    isMemberText_memberText member.1 (h member hmember)

namespace State

/-! ### The first member -/

theorem run_stopped (page : Page) (text : List Char) :
    run (.stopped page) text = .stopped page := by
  induction text with
  | nil => rfl
  | cons c text ih => exact ih

/-- Where a text has stopped being JSON there is no value. -/
theorem not_isAfter_stopped (frame : Frame) (outer : List Frame) (value : Draft) (page : Page) :
    ¬IsAfter (frame :: outer) value (.stopped page) := by
  intro h
  generalize hstate : State.stopped page = state at h
  cases h with
  | delivered value => cases frame <;> cases hstate
  | number h => cases hstate

/-- After an opening brace there may be nothing, or a closing brace; everything else is read as
if it came after a comma. -/
theorem run_firstKey_cases (text : List Char) (outer : List Frame) :
    (∀ c ∈ text, isSpace c = true) ∨
      (∃ gap rest, (∀ c ∈ gap, isSpace c = true) ∧ text = gap ++ '\x7d' :: rest) ∨
        run (.firstKey outer) text = run (.nextKey [] outer) text := by
  induction text with
  | nil => exact .inl (List.forall_mem_nil _)
  | cons c text ih =>
    by_cases hspace : isSpace c = true
    · rw [run_cons, run_cons, step_of_waits rfl hspace, step_of_waits rfl hspace]
      rcases ih with hblank | ⟨gap, rest, hgap, rfl⟩ | hsame
      · exact .inl (List.forall_mem_cons.2 ⟨hspace, hblank⟩)
      · exact .inr (.inl ⟨c :: gap, rest, List.forall_mem_cons.2 ⟨hspace, hgap⟩, rfl⟩)
      · exact .inr (.inr hsame)
    · by_cases hclose : c = '\x7d'
      · exact .inr (.inl ⟨[], text, List.forall_mem_nil _, by rw [hclose, List.nil_append]⟩)
      · refine .inr (.inr ?_)
        rw [run_cons, run_cons, step, step]
        simp only [hspace, hclose, if_false]
        rfl

/-- The first member is read like any other. -/
theorem run_firstKey_of_isAfter {key : StringText} {value : Draft} {outer : List Frame}
    {text : List Char}
    (h : IsAfter (.member [] key :: outer) value (run (.nextKey [] outer) text)) :
    run (.firstKey outer) text = run (.nextKey [] outer) text := by
  rcases run_firstKey_cases text outer with hblank | ⟨gap, rest, hgap, rfl⟩ | hsame
  · rw [run_gap (.nextKey [] outer) rfl hblank] at h
    generalize hstate : State.nextKey [] outer = state at h
    cases h <;> cases hstate
  · have hclose : step (.nextKey [] outer) '\x7d' = refuseObject [] outer := rfl
    rw [run_append, run_gap (.nextKey [] outer) rfl hgap, run_cons, hclose, refuseObject, refuse,
      run_stopped] at h
    exact absurd h (not_isAfter_stopped _ _ _ _)
  · exact hsame

/-! ### Further members -/

/-- The rest of an object is read, after the members that are read already. -/
theorem run_members {members : List (StringText × Draft)} {texts : List (List Char)}
    (h : List.Forall₂ IsMemberText members texts) {last : Draft} {key : StringText}
    {done : List (StringText × Draft)} {outer : List Frame} {state : State}
    (hlast : IsAfter (.member done key :: outer) last state) :
    run state (texts.flatMap (',' :: ·) ++ ['\x7d']) =
      deliver (.object (done.reverse ++ (key, last) :: members) none) outer := by
  induction h generalizing last key done state with
  | nil =>
    rw [List.flatMap_nil, List.nil_append, run_cons, hlast.step (by decide), run_nil]
    simp [deliver, follow, isSpace]
  | @cons member text members texts hmember _ ih =>
    have hcomma : (deliver last (.member done key :: outer)).follow ',' =
        .nextKey ((key, last) :: done) outer := rfl
    have hrest := ih (hmember ((key, last) :: done) outer)
    rw [List.flatMap_cons, List.cons_append, List.cons_append, run_cons, hlast.step (by decide),
      hcomma, List.append_assoc, run_append, hrest]
    simp

/-- **An object is read as its members.** -/
theorem run_objectText {gap : List Char} (hgap : ∀ c ∈ gap, isSpace c = true)
    {members : List (StringText × Draft)} {texts : List (List Char)}
    (h : List.Forall₂ IsMemberText members texts) (outer : List Frame) :
    run (.expectValue outer) (objectText gap texts) = deliver (.object members none) outer := by
  have hopen : step (.expectValue outer) '\x7b' = .firstKey outer := rfl
  cases h with
  | nil =>
    rw [objectText, run_cons, hopen, run_append, run_gap (.firstKey outer) rfl hgap]
    rfl
  | cons hmember hmembers =>
    have hfirst := hmember [] outer
    rw [objectText, run_cons, hopen, run_append, run_firstKey_of_isAfter hfirst,
      run_members hmembers hfirst]
    rfl

end State
end Json
end DocTree
