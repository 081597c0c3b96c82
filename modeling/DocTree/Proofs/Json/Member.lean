/-
# The members of an object

A member is read in the same way wherever it is: the reader does not look at what is around it
before it comes to a comma or closing brace behind it (`State.Placed.step`).  So an object that
is read to its end is a text of members (`State.exists_objectText`), each of which could be a
member anywhere else.
-/

import DocTree.Proofs.Json.Object

namespace DocTree
namespace Json

section Placed

variable (members : List (StringText × Draft)) (outer : List Frame)

/-- Whether frames are others with the members of an object, and what is around it, put behind
them.  The last of the others is that of a member, the first of its object. -/
inductive FramesPlaced : List Frame → List Frame → Prop
  | value (key : StringText) : FramesPlaced [.member [] key] (.member members key :: outer)
  | item (items : List Draft) {inner frames : List Frame} (h : FramesPlaced inner frames) :
    FramesPlaced (.item items :: inner) (.item items :: frames)
  | member (done : List (StringText × Draft)) (key : StringText) {inner frames : List Frame}
    (h : FramesPlaced inner frames) :
    FramesPlaced (.member done key :: inner) (.member done key :: frames)

/-- The same for the members that an object has so far, which may be the object itself. -/
inductive MembersPlaced : List (StringText × Draft) → List Frame →
    List (StringText × Draft) → List Frame → Prop
  | here : MembersPlaced [] [] members outer
  | within (done : List (StringText × Draft)) {inner frames : List Frame}
    (h : FramesPlaced members outer inner frames) : MembersPlaced done inner done frames

/-- Whether a state of the reader is another, in which a member is read on its own, after the
members of an object and with what is around it.  Where the one has stopped the other has. -/
inductive State.Placed : State → State → Prop
  | expectValue {inner frames : List Frame} (h : FramesPlaced members outer inner frames) :
    Placed (.expectValue inner) (.expectValue frames)
  | firstItem {inner frames : List Frame} (h : FramesPlaced members outer inner frames) :
    Placed (.firstItem inner) (.firstItem frames)
  | afterItem (items : List Draft) {inner frames : List Frame}
    (h : FramesPlaced members outer inner frames) :
    Placed (.afterItem items inner) (.afterItem items frames)
  | firstKey {inner frames : List Frame} (h : FramesPlaced members outer inner frames) :
    Placed (.firstKey inner) (.firstKey frames)
  | nextKey {done done' : List (StringText × Draft)} {inner frames : List Frame}
    (h : MembersPlaced members outer done inner done' frames) :
    Placed (.nextKey done inner) (.nextKey done' frames)
  | inKey (text : Quoted) {done done' : List (StringText × Draft)} {inner frames : List Frame}
    (h : MembersPlaced members outer done inner done' frames) :
    Placed (.inKey text done inner) (.inKey text done' frames)
  | afterKey (key : StringText) {done done' : List (StringText × Draft)}
    {inner frames : List Frame} (h : MembersPlaced members outer done inner done' frames) :
    Placed (.afterKey key done inner) (.afterKey key done' frames)
  | afterMember (done : List (StringText × Draft)) {inner frames : List Frame}
    (h : FramesPlaced members outer inner frames) :
    Placed (.afterMember done inner) (.afterMember done frames)
  | after (key : StringText) (value : Draft) :
    Placed (.afterMember [(key, value)] []) (.afterMember ((key, value) :: members) outer)
  | inString (text : Quoted) {inner frames : List Frame}
    (h : FramesPlaced members outer inner frames) :
    Placed (.inString text inner) (.inString text frames)
  | inNumber (digits : Digits) {inner frames : List Frame}
    (h : FramesPlaced members outer inner frames) :
    Placed (.inNumber digits inner) (.inNumber digits frames)
  | inKeyword (rest : List Char) (meaning : Draft) {inner frames : List Frame}
    (h : FramesPlaced members outer inner frames) :
    Placed (.inKeyword rest meaning inner) (.inKeyword rest meaning frames)
  | stopped (page : Page) (damage : Damage) (value : Draft) (surplus : Bool) :
    Placed (.stopped page) (.stopped { value := Frame.breakOff damage value outer, surplus })

end Placed

variable {members : List (StringText × Draft)} {outer : List Frame}

/-- What breaks off inside of an object breaks off around it. -/
theorem FramesPlaced.exists_breakOff {inner frames : List Frame}
    (h : FramesPlaced members outer inner frames) (damage : Damage) (value : Draft) :
    ∃ whole, Frame.breakOff damage value frames = Frame.breakOff damage whole outer := by
  induction h generalizing value with
  | value key => exact ⟨_, rfl⟩
  | item items _ ih => exact ih _
  | member done key _ ih => exact ih _

theorem MembersPlaced.exists_breakOff {done done' : List (StringText × Draft)}
    {inner frames : List Frame} (h : MembersPlaced members outer done inner done' frames)
    (damage : Damage) (value : Draft) :
    ∃ whole, Frame.breakOff damage value frames = Frame.breakOff damage whole outer := by
  cases h with
  | here => exact ⟨_, rfl⟩
  | within done h => exact h.exists_breakOff damage value

/-- The frames of the value of a member. -/
theorem MembersPlaced.frames {done done' : List (StringText × Draft)} {inner frames : List Frame}
    (h : MembersPlaced members outer done inner done' frames) (key : StringText) :
    FramesPlaced members outer (.member done key :: inner) (.member done' key :: frames) := by
  cases h with
  | here => exact .value key
  | within done h => exact .member done key h

namespace State

/-- Whether a text that ends in a state breaks off within frames. -/
def BreaksOff (outer : List Frame) (state : State) : Prop :=
  ∃ damage whole, state.page.value = Frame.breakOff damage whole outer

/-- Whether a character ends a member that is read on its own. -/
def EndsMember (state : State) (c : Char) : Prop :=
  (c = ',' ∨ c = '\x7d') ∧ ∃ key value, IsAfter [.member [] key] value state

/-- What ends a member after a number ends it at the number. -/
theorem endsMember_inNumber {digits : Digits} {inner frames : List Frame}
    (h : FramesPlaced members outer inner frames) {c : Char} (hended : digits.step c = .ended)
    (hends : EndsMember (deliver (.number digits.numeral) inner) c) :
    EndsMember (.inNumber digits inner) c := by
  obtain ⟨hc, key, value, hafter⟩ := hends
  generalize hstate : deliver (.number digits.numeral) inner = state at hafter
  cases h with
  | value own => exact ⟨hc, own, _, .number (Digits.mayEnd_of_step hended)⟩
  | item items _ => cases hafter <;> cases hstate
  | member done own h =>
    cases hafter with
    | delivered value =>
      cases hstate
      cases h
    | number _ => cases hstate

namespace Placed

theorem refuse {inner frames : List Frame} (h : FramesPlaced members outer inner frames)
    (value : Draft) :
    Placed members outer (State.refuse value inner) (State.refuse value frames) := by
  obtain ⟨whole, hwhole⟩ := h.exists_breakOff (.both .notJson) value
  rw [State.refuse, State.refuse, hwhole]
  exact .stopped _ _ whole false

theorem refuseMembers {done done' : List (StringText × Draft)} {inner frames : List Frame}
    (h : MembersPlaced members outer done inner done' frames) :
    Placed members outer (State.refuseObject done inner) (State.refuseObject done' frames) := by
  obtain ⟨whole, hwhole⟩ := h.exists_breakOff (.both .notJson)
    (.object done'.reverse (some (.both .notJson)))
  rw [State.refuseObject, State.refuseObject, State.refuse, State.refuse, hwhole]
  exact .stopped _ _ whole false

theorem deliver {inner frames : List Frame} (h : FramesPlaced members outer inner frames)
    (value : Draft) :
    Placed members outer (State.deliver value inner) (State.deliver value frames) := by
  cases h with
  | value key => exact .after key value
  | item items h => exact .afterItem (value :: items) h
  | member done key h => exact .afterMember ((key, value) :: done) h

theorem begin (c : Char) {inner frames : List Frame} (h : FramesPlaced members outer inner frames) :
    Placed members outer (State.begin c inner) (State.begin c frames) := by
  unfold State.begin
  split
  · exact .inString {} h
  · exact .firstItem h
  · exact .firstKey h
  · exact .inKeyword _ _ h
  · exact .inKeyword _ _ h
  · exact .inKeyword _ _ h
  · split
    · exact .inNumber _ h
    · exact refuse h _

variable {alone state : State}

theorem follow (h : Placed members outer alone state) {c : Char} (hc : ¬EndsMember alone c) :
    Placed members outer (alone.follow c) (state.follow c) := by
  unfold State.follow
  split
  · exact h
  · next hspace =>
    cases h with
    | afterItem items h =>
      dsimp only
      split
      · exact .expectValue (.item items h)
      · split
        · exact deliver h _
        · exact refuse h _
    | afterMember done h =>
      dsimp only
      split
      · exact .nextKey (.within done h)
      · split
        · exact deliver h _
        · exact refuse h _
    | after key value =>
      have hafter : IsAfter [.member [] key] value (.afterMember [(key, value)] []) :=
        .delivered value
      have hcomma : c ≠ ',' := fun heq => hc ⟨.inl heq, key, value, hafter⟩
      have hclose : c ≠ '\x7d' := fun heq => hc ⟨.inr heq, key, value, hafter⟩
      dsimp only
      rw [if_neg hcomma, if_neg hclose, if_neg hcomma, if_neg hclose]
      exact .stopped _ _ _ false
    | _ => constructor <;> assumption

/-- **A member is read in the same way wherever it is,** as long as it goes on. -/
theorem step (h : Placed members outer alone state) {c : Char} (hc : ¬EndsMember alone c) :
    Placed members outer (alone.step c) (state.step c) := by
  cases h with
  | expectValue h =>
    simp only [State.step]
    split
    · exact .expectValue h
    · exact begin c h
  | firstItem h =>
    simp only [State.step]
    split
    · exact .firstItem h
    · split
      · exact deliver h _
      · exact begin c (.item [] h)
  | firstKey h =>
    simp only [State.step]
    split
    · exact .firstKey h
    · split
      · exact .inKey {} (.within [] h)
      · split
        · exact deliver h _
        · exact refuse h _
  | nextKey h =>
    simp only [State.step]
    split
    · exact .nextKey h
    · split
      · exact .inKey {} h
      · exact refuseMembers h
  | inKey text h =>
    simp only [State.step]
    split
    · exact .inKey _ h
    · exact .afterKey _ h
    · exact refuseMembers h
  | afterKey key h =>
    simp only [State.step]
    split
    · exact .afterKey key h
    · split
      · exact .expectValue (h.frames key)
      · exact refuse (h.frames key) _
  | inString text h =>
    simp only [State.step]
    split
    · exact .inString _ h
    · exact deliver h _
    · exact refuse h _
  | inNumber digits h =>
    simp only [State.step]
    split
    · exact .inNumber _ h
    · next hended =>
      -- The character that ends a number is taken once more, after the number.
      exact follow (deliver h _) fun hends => hc (endsMember_inNumber h hended hends)
    · exact refuse h _
  | inKeyword rest meaning h =>
    simp only [State.step]
    split
    · exact refuse h _
    · split
      · exact refuse h _
      · split
        · exact deliver h _
        · exact .inKeyword _ meaning h
  | afterItem items h => exact follow (.afterItem items h) hc
  | afterMember done h => exact follow (.afterMember done h) hc
  | after key value => exact follow (.after key value) hc
  | stopped page damage value surplus => exact .stopped page damage value surplus

/-- After a member on its own the reader is after it wherever it is. -/
theorem isAfter (h : Placed members outer alone state) {key : StringText} {value : Draft}
    (hafter : IsAfter [.member [] key] value alone) :
    IsAfter (.member members key :: outer) value state := by
  cases hafter with
  | delivered value =>
    cases h with
    | after => exact .delivered value
    | afterMember done h => cases h
  | number hend =>
    cases h with
    | inNumber digits h =>
      cases h with
      | value => exact .number hend
      | member done own h => cases h

/-- A text that ends within a member breaks off around its object. -/
theorem breaksOff (h : Placed members outer alone state) : BreaksOff outer state := by
  cases h with
  | expectValue h | firstItem h | afterItem items h | firstKey h | afterMember done h
  | inString text h | inKeyword rest meaning h => exact ⟨_, h.exists_breakOff _ _⟩
  | nextKey h | inKey text h => exact ⟨_, h.exists_breakOff _ _⟩
  | afterKey key h => exact ⟨_, (h.frames key).exists_breakOff _ _⟩
  | after key value => exact ⟨_, _, rfl⟩
  | inNumber digits h =>
    cases h with
    | value key => exact ⟨_, _, rfl⟩
    | item items h => exact ⟨_, (FramesPlaced.item items h).exists_breakOff _ _⟩
    | member done key h => exact ⟨_, (FramesPlaced.member done key h).exists_breakOff _ _⟩
  | stopped page damage value surplus => exact ⟨damage, value, rfl⟩

end Placed

/-- A text in which a member goes on all along breaks off; otherwise it can be cut where the
member ends. -/
theorem exists_end (text : List Char) (alone : State) :
    (∀ members outer state, Placed members outer alone state → BreaksOff outer (run state text)) ∨
      ∃ own c rest, text = own ++ c :: rest ∧ EndsMember (run alone own) c ∧
        ∀ members outer state, Placed members outer alone state →
          Placed members outer (run alone own) (run state own) := by
  induction text generalizing alone with
  | nil => exact .inl fun _ _ _ h => h.breaksOff
  | cons c text ih =>
    -- Only the member on its own is looked at, so the text is cut in one place for all objects.
    by_cases hc : EndsMember alone c
    · exact .inr ⟨[], c, text, rfl, hc, fun _ _ _ h => h⟩
    · rcases ih (alone.step c) with hbreaks | ⟨own, d, rest, rfl, hd, hplaced⟩
      · exact .inl fun members outer state h => hbreaks members outer _ (h.step hc)
      · exact .inr ⟨c :: own, d, rest, rfl, hd, fun members outer state h =>
          hplaced members outer _ (h.step hc)⟩

/-- **Where a member may come, a text breaks off or begins with the text of a member.** -/
theorem exists_memberText (text : List Char) :
    (∀ members outer, BreaksOff outer (run (.nextKey members outer) text)) ∨
      ∃ member own c rest, text = own ++ c :: rest ∧ (c = ',' ∨ c = '\x7d') ∧
        IsMemberText member own := by
  rcases exists_end text (.nextKey [] []) with hbreaks | ⟨own, c, rest, rfl, hends, hplaced⟩
  · exact .inl fun members outer => hbreaks members outer _ (.nextKey .here)
  · obtain ⟨hc, key, value, hafter⟩ := hends
    exact .inr ⟨(key, value), own, c, rest, rfl, hc, fun members outer =>
      (hplaced members outer _ (.nextKey .here)).isAfter hafter⟩

/-- The members that an object still has, if it does not break off. -/
theorem exists_memberTexts (text : List Char) (done : List (StringText × Draft))
    (outer : List Frame) (h : ¬BreaksOff outer (run (.nextKey done outer) text)) :
    ∃ members first texts rest, List.Forall₂ IsMemberText members (first :: texts) ∧
      text = first ++ (texts.flatMap (',' :: ·) ++ '\x7d' :: rest) := by
  rcases exists_memberText text with hbreaks | ⟨member, own, c, rest, rfl, hc, hmember⟩
  · exact absurd (hbreaks done outer) h
  · rcases hc with rfl | rfl
    · have hcomma : (deliver member.2 (.member done member.1 :: outer)).follow ',' =
          .nextKey (member :: done) outer := rfl
      rw [run_append, run_cons, (hmember done outer).step (by decide), hcomma] at h
      obtain ⟨members, first, texts, rest, hmembers, rfl⟩ :=
        exists_memberTexts rest (member :: done) outer h
      exact ⟨member :: members, own, first :: texts, rest, .cons hmember hmembers, by simp⟩
    · exact ⟨[member], own, [], rest, .cons hmember .nil, rfl⟩
termination_by text.length

/-- **An object that does not break off is a text of members.** -/
theorem exists_objectText (text : List Char) (outer : List Frame)
    (h : ¬BreaksOff outer (run (.expectValue outer) ('\x7b' :: text))) :
    ∃ gap members texts rest, (∀ c ∈ gap, isSpace c = true) ∧
      List.Forall₂ IsMemberText members texts ∧ '\x7b' :: text = objectText gap texts ++ rest := by
  have hopen : step (.expectValue outer) '\x7b' = .firstKey outer := rfl
  rw [run_cons, hopen] at h
  rcases run_firstKey_cases text outer with hblank | ⟨gap, rest, hgap, rfl⟩ | hsame
  · rw [run_gap (.firstKey outer) rfl hblank] at h
    exact absurd ⟨_, _, rfl⟩ h
  · exact ⟨gap, [], [], rest, hgap, .nil, by simp [objectText]⟩
  · rw [hsame] at h
    obtain ⟨members, first, texts, rest, hmembers, rfl⟩ := exists_memberTexts text [] outer h
    exact ⟨[], members, first :: texts, rest, List.forall_mem_nil _, hmembers,
      by simp [objectText]⟩

end State
end Json
end DocTree
