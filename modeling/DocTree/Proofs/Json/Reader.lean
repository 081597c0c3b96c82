/-
# Reading a value that was written

A value is read back as its own draft, on one line (`Page.ofText_compact`) and with one item
or member to a line (`Page.ofText_pretty`).  The reader goes through the text with a state
that has taken the items or members so far; what a state has to be like after a value is
`State.IsAfter`, and each value, item or member takes it from one such state to the next,
whatever white space there is in between.
-/

import DocTree.Json.Reader
import DocTree.Proofs.Json.Digits
import DocTree.Proofs.Json.Draft
import DocTree.Proofs.Json.Quoted
import DocTree.Proofs.Json.Spacing

namespace DocTree
namespace Json

/-- Whether the numbers of a value are JSON numbers. -/
def IsGrammatical (value : Json) : Prop :=
  ∀ n ∈ value.numbers, n.IsGrammatical

instance (value : Json) : Decidable value.IsGrammatical :=
  inferInstanceAs (Decidable (∀ n ∈ _, _))

namespace State

theorem run_nil (state : State) : state.run [] = state :=
  rfl

theorem run_cons (state : State) (c : Char) (cs : List Char) :
    state.run (c :: cs) = (state.step c).run cs :=
  rfl

theorem run_append (state : State) (cs ds : List Char) :
    state.run (cs ++ ds) = (state.run cs).run ds :=
  List.foldl_append

/-! ### Tokens -/

/-- The reader stays inside a token as long as the token goes on. -/
theorem run_of_foldlM {σ : Type} {more? : σ → Char → Option σ} (inside : σ → State)
    (hstep : ∀ {s next c}, more? s c = some next → step (inside s) c = inside next) {s last : σ}
    {cs : List Char} (h : cs.foldlM more? s = some last) : run (inside s) cs = inside last := by
  induction cs generalizing s with
  | nil => rw [Option.some.inj h, run_nil]
  | cons c cs ih =>
    rw [List.foldlM_cons] at h
    obtain ⟨next, hnext, hrest⟩ := Option.bind_eq_some_iff.1 h
    rw [run_cons, hstep hnext, ih hrest]

theorem run_inString {q next : Quoted} {cs : List Char} (h : q.feed cs = some next)
    (outer : List Frame) : run (.inString q outer) cs = .inString next outer := by
  refine run_of_foldlM (.inString · outer) (fun hnext => ?_) h
  rw [step, Quoted.more?_eq_some_iff.1 hnext]

theorem run_inKey {q next : Quoted} {cs : List Char} (h : q.feed cs = some next)
    (members : List (StringText × Draft)) (outer : List Frame) :
    run (.inKey q members outer) cs = .inKey next members outer := by
  refine run_of_foldlM (.inKey · members outer) (fun hnext => ?_) h
  rw [step, Quoted.more?_eq_some_iff.1 hnext]

theorem run_inNumber {d last : Digits} {cs : List Char} (h : d.feed cs = some last)
    (outer : List Frame) : run (.inNumber d outer) cs = .inNumber last outer := by
  refine run_of_foldlM (.inNumber · outer) (fun hnext => ?_) h
  rw [step, Digits.more?_eq_some_iff.1 hnext]

/-- **A string is read back.** -/
theorem run_quote (s : String) (outer : List Frame) :
    run (.expectValue outer) (quote s) = deliver (.string (some s)) outer := by
  have hbegin : step (.expectValue outer) '"' = .inString {} outer := rfl
  have hinside := run_inString (Quoted.feed_flatMap_escape [] s.toList) outer
  rw [quote, List.cons_append, run_cons, hbegin, run_append, hinside, run_cons, step,
    Quoted.step_quote, run_nil]
  simp

/-- **A key is read back,** and then comes the value. -/
theorem run_key (key : String) (members : List (StringText × Draft)) (outer : List Frame)
    (rest : List Char) :
    run (.nextKey members outer) (quote key ++ ':' :: rest) =
      run (.expectValue (.member members (some key) :: outer)) rest := by
  have hbegin : step (.nextKey members outer) '"' = .inKey {} members outer := rfl
  have hinside := run_inKey (Quoted.feed_flatMap_escape [] key.toList) members outer
  have hend : step (.inKey { chars := key.toList.reverse ++ [] } members outer) '"' =
      .afterKey (some key) members outer := by
    rw [step, Quoted.step_quote]
    simp
  rw [quote, List.cons_append, List.cons_append, run_cons, hbegin, List.append_assoc, run_append,
    hinside, List.singleton_append, run_cons, hend]
  rfl

/-! ### White space -/

/-- Whether the reader waits for a token, and so passes over white space. -/
def waits : State → Bool
  | expectValue _ | firstItem _ | firstKey _ | nextKey .. | afterKey .. => true
  | _ => false

theorem step_of_waits {state : State} (h : state.waits = true) {c : Char}
    (hc : isSpace c = true) : state.step c = state := by
  cases state with
  | expectValue | firstItem | firstKey | nextKey | afterKey => rw [step, if_pos hc]
  | _ => cases h

/-- White space before a token changes nothing. -/
theorem run_gap (state : State) (h : state.waits = true) {gap : List Char}
    (hgap : ∀ c ∈ gap, isSpace c = true) : state.run gap = state := by
  induction gap with
  | nil => exact state.run_nil
  | cons c gap ih =>
    rw [List.forall_mem_cons] at hgap
    rw [run_cons, step_of_waits h hgap.1, ih hgap.2]

/-! ### After a value -/

/-- What the reader may be like when it has read a value.  It does not know yet that a
number is over. -/
inductive IsAfter (outer : List Frame) : Draft → State → Prop where
  | delivered (value : Draft) : IsAfter outer value (deliver value outer)
  | number {d : Digits} (h : d.mayEnd = true) :
    IsAfter outer (.number d.numeral) (.inNumber d outer)

theorem step_deliver (value : Draft) (outer : List Frame) (c : Char) :
    (deliver value outer).step c = (deliver value outer).follow c := by
  match outer with
  | [] => rfl
  | .item _ :: _ => rfl
  | .member _ _ :: _ => rfl

theorem follow_of_isSpace {c : Char} (h : isSpace c = true) (state : State) :
    state.follow c = state := by
  unfold follow
  exact if_pos h

theorem eq_of_isSpace {c : Char} (h : isSpace c = true) :
    c = ' ' ∨ c = '\t' ∨ c = '\n' ∨ c = '\r' := by
  simpa only [isSpace, Bool.or_eq_true, decide_eq_true_eq, or_assoc] using h

section After

variable {value : Draft} {outer : List Frame} {state : State}

/-- Whatever comes after a value ends it, if it cannot belong to a number. -/
theorem IsAfter.step (h : IsAfter outer value state) {c : Char}
    (hc : isSpace c = true ∨ c = ',' ∨ c = ']' ∨ c = '\x7d') :
    state.step c = (deliver value outer).follow c := by
  cases h with
  | delivered value => exact step_deliver value outer c
  | @number d hend =>
    have hended : d.step c = .ended := by
      rcases hc with hc | rfl | rfl | rfl
      · rcases eq_of_isSpace hc with rfl | rfl | rfl | rfl <;>
          exact Digits.step_of_mayEnd hend (by decide) (by decide) (by decide) (by decide)
      all_goals exact Digits.step_of_mayEnd hend (by decide) (by decide) (by decide) (by decide)
    rw [State.step, hended]

/-- After a value and some white space the reader is still after the value. -/
theorem IsAfter.run_gap (h : IsAfter outer value state) {gap : List Char}
    (hgap : ∀ c ∈ gap, isSpace c = true) : IsAfter outer value (state.run gap) := by
  induction gap generalizing state with
  | nil => exact h
  | cons c gap ih =>
    rw [List.forall_mem_cons] at hgap
    rw [run_cons, h.step (.inl hgap.1), follow_of_isSpace hgap.1]
    exact ih (.delivered value) hgap.2

/-- A text that ends after a value holds it. -/
theorem IsAfter.page (h : IsAfter [] value state) : state.page = { value } := by
  cases h with
  | delivered value => rfl
  | number hend => simp [State.page, Digits.atEnd, hend]

end After

end State

/-! ### Values -/

theorem isSpace_of_start? {c : Char} {d : Digits} (h : Digits.start? c = some d) :
    isSpace c = false := by
  cases hspace : isSpace c with
  | false => rfl
  | true => rcases State.eq_of_isSpace hspace with rfl | rfl | rfl | rfl <;> cases h

/-- The text of a value begins with no white space, and not like the end of an array. -/
theorem exists_spacedText_eq_cons {value : Json} (h : value.IsGrammatical) (gaps : Spacing)
    (level : Nat) :
    ∃ c cs, value.spacedText gaps level = c :: cs ∧ isSpace c = false ∧ c ≠ ']' := by
  cases value with
  | null => exact ⟨_, _, rfl, by decide, by decide⟩
  | bool value => cases value <;> exact ⟨_, _, rfl, by decide, by decide⟩
  | number n =>
    obtain ⟨c, cs, first, _, htext, hstart, _⟩ :=
      Digits.exists_feed_text (h n (List.mem_singleton_self n))
    refine ⟨c, cs, by rw [spacedText, compactText, htext] <;> nofun, isSpace_of_start? hstart, ?_⟩
    rintro rfl
    cases hstart
  | string value => exact ⟨_, _, rfl, by decide, by decide⟩
  | array items => cases items <;> exact ⟨_, _, rfl, by decide, by decide⟩
  | object members => cases members <;> exact ⟨_, _, rfl, by decide, by decide⟩

namespace State

/-- A number is begun by a character that begins nothing else. -/
theorem step_expectValue {c : Char} {d : Digits} (h : Digits.start? c = some d)
    (outer : List Frame) : step (.expectValue outer) c = .inNumber d outer := by
  rw [step, isSpace_of_start? h]
  simp only [Bool.false_eq_true, if_false]
  unfold begin
  split
  all_goals first | cases h | rw [h]

/-- The first item of an array is read like any other. -/
theorem run_firstItem {item : Json} (h : item.IsGrammatical) (gaps : Spacing) (level : Nat)
    (outer : List Frame) (rest : List Char) :
    run (.firstItem outer) (item.spacedText gaps level ++ rest) =
      run (.expectValue (.item [] :: outer)) (item.spacedText gaps level ++ rest) := by
  obtain ⟨c, cs, htext, hspace, hclose⟩ := exists_spacedText_eq_cons h gaps level
  rw [htext, List.cons_append, run_cons, run_cons, step, step]
  simp [hspace, hclose]

/-- The first key of an object is read like any other. -/
theorem run_firstKey (key : String) (outer : List Frame) (rest : List Char) :
    run (.firstKey outer) (quote key ++ rest) = run (.nextKey [] outer) (quote key ++ rest) :=
  rfl

section Spaced

variable (gaps : Spacing)

mutual

/-- **A value is read back,** whatever white space there is in it. -/
theorem isAfter_spacedText : ∀ (value : Json) (level : Nat), value.IsGrammatical → ∀ outer,
    IsAfter outer value.draft (run (.expectValue outer) (value.spacedText gaps level))
  | .null, _, _, _ => .delivered _
  | .bool true, _, _, _ => .delivered _
  | .bool false, _, _, _ => .delivered _
  | .number n, _, h, outer => by
    obtain ⟨c, cs, first, last, htext, hstart, hfeed, hend, hlast⟩ :=
      Digits.exists_feed_text (h n (List.mem_singleton_self n))
    show IsAfter outer _ (run _ n.text)
    rw [htext, run_cons, step_expectValue hstart, run_inNumber hfeed, Json.draft, ← hlast]
    exact .number hend
  | .string s, _, _, outer => by
    show IsAfter outer _ (run _ (quote s))
    rw [run_quote]
    exact .delivered _
  | .array [], _, _, _ => .delivered _
  | .array (item :: items), level, h, outer => by
    have hitem := isAfter_spacedText item (level + 1) (fun n hn => h n (List.mem_append_left _ hn))
      (.item [] :: outer)
    have hitems := run_spacedItems items (level + 1) (fun n hn => h n (List.mem_append_right _ hn))
      hitem (gaps.line_isSpace level)
    have hopen : step (.expectValue outer) '[' = .firstItem outer := rfl
    rw [spacedText, run_cons, hopen, run_append,
      run_gap (.firstItem outer) rfl (gaps.line_isSpace _),
      run_firstItem fun n hn => h n (List.mem_append_left _ hn), run_append, hitems]
    exact .delivered _
  | .object [], _, _, _ => .delivered _
  | .object ((key, value) :: members), level, h, outer => by
    have hvalue := isAfter_spacedText value (level + 1)
      (fun n hn => h n (List.mem_append_left _ hn)) (.member [] (some key) :: outer)
    have hmembers := run_spacedMembers members (level + 1)
      (fun n hn => h n (List.mem_append_right _ hn)) hvalue (gaps.line_isSpace level)
    have hopen : step (.expectValue outer) '\x7b' = .firstKey outer := rfl
    rw [spacedText, run_cons, hopen, run_append,
      run_gap (.firstKey outer) rfl (gaps.line_isSpace _), run_firstKey, run_key, run_append,
      run_gap (.expectValue _) rfl gaps.colon_isSpace, run_append, hmembers]
    exact .delivered _

/-- The rest of an array is read back, after the items that are read already. -/
theorem run_spacedItems : ∀ (items : List Json) (level : Nat),
    (∀ n ∈ numbersOfItems items, n.IsGrammatical) → ∀ {last : Draft} {done : List Draft}
      {outer : List Frame} {state : State}, IsAfter (.item done :: outer) last state →
      ∀ {gap : List Char}, (∀ c ∈ gap, isSpace c = true) →
        run state (spacedItems gaps level items ++ (gap ++ [']'])) =
          deliver (.array (done.reverse ++ last :: draftItems items) none) outer
  | [], level, _, last, done, outer, state, hlast, gap, hgap => by
    rw [spacedItems, List.nil_append, run_append, run_cons,
      (hlast.run_gap hgap).step (by decide), run_nil]
    simp [deliver, follow, isSpace, draftItems]
  | item :: items, level, h, last, done, outer, state, hlast, gap, hgap => by
    have hitem := isAfter_spacedText item level (fun n hn => h n (List.mem_append_left _ hn))
      (.item (last :: done) :: outer)
    have hitems := run_spacedItems items level (fun n hn => h n (List.mem_append_right _ hn))
      hitem hgap
    have hcomma : (deliver last (.item done :: outer)).follow ',' =
        .expectValue (.item (last :: done) :: outer) := rfl
    rw [spacedItems, List.cons_append, run_cons, hlast.step (by decide), hcomma,
      List.append_assoc, run_append, run_gap (.expectValue _) rfl (gaps.line_isSpace level),
      List.append_assoc, run_append, hitems]
    simp [draftItems]

/-- The rest of an object is read back, after the members that are read already. -/
theorem run_spacedMembers : ∀ (members : List (String × Json)) (level : Nat),
    (∀ n ∈ numbersOfMembers members, n.IsGrammatical) → ∀ {last : Draft} {key : StringText}
      {done : List (StringText × Draft)} {outer : List Frame} {state : State},
      IsAfter (.member done key :: outer) last state →
      ∀ {gap : List Char}, (∀ c ∈ gap, isSpace c = true) →
        run state (spacedMembers gaps level members ++ (gap ++ ['\x7d'])) =
          deliver (.object (done.reverse ++ (key, last) :: draftMembers members) none) outer
  | [], level, _, last, key, done, outer, state, hlast, gap, hgap => by
    rw [spacedMembers, List.nil_append, run_append, run_cons,
      (hlast.run_gap hgap).step (by decide), run_nil]
    simp [deliver, follow, isSpace, draftMembers]
  | (next, value) :: members, level, h, last, key, done, outer, state, hlast, gap, hgap => by
    have hvalue := isAfter_spacedText value level (fun n hn => h n (List.mem_append_left _ hn))
      (.member ((key, last) :: done) (some next) :: outer)
    have hmembers := run_spacedMembers members level
      (fun n hn => h n (List.mem_append_right _ hn)) hvalue hgap
    have hcomma : (deliver last (.member done key :: outer)).follow ',' =
        .nextKey ((key, last) :: done) outer := rfl
    rw [spacedMembers, List.cons_append, run_cons, hlast.step (by decide), hcomma,
      List.append_assoc, run_append, run_gap (.nextKey _ outer) rfl (gaps.line_isSpace level),
      List.append_assoc, List.cons_append, run_key, List.append_assoc, run_append,
      run_gap (.expectValue _) rfl gaps.colon_isSpace, List.append_assoc, run_append, hmembers]
    simp [draftMembers]

end

end Spaced

end State

/-- **A text of a value holds the value,** and nothing else. -/
theorem Page.ofText_compact {value : Json} (h : value.IsGrammatical) :
    Page.ofText value.compact.toList = { value := value.draft } := by
  rw [compact, String.toList_ofList, ← spacedText_none value 0]
  exact (State.isAfter_spacedText .none value 0 h []).page

theorem Page.ofText_pretty {value : Json} (h : value.IsGrammatical) :
    Page.ofText value.pretty.toList = { value := value.draft } := by
  rw [pretty, String.toList_ofList, ← spacedText_lines value 0]
  exact (State.isAfter_spacedText .lines value 0 h []).page

end Json
end DocTree
