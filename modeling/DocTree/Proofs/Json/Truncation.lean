/-
# Values that break off

A text that ends too early holds less of a value than the whole text (`Truncates`).  Whoever
can read the whole value finds that the text has ended when there is only a part of it
(`MeetsEnd`): a list is read item by item, so nothing is looked at before its turn, and what
is read over meets the same end (`meetsEnd_keep`, `meetsEnd_skip`).
-/

import DocTree.Proofs.Json.Draft

namespace DocTree
namespace Json

/-- What there is of a value where the text ends too early.  The one fault that may come before
the end is half a surrogate pair in a string or key, which the whole value has too. -/
inductive Truncates : Draft → Draft → Prop
  | broken {damage : Damage} {whole : Draft} (hskipped : damage.skipped = .endOfText)
    (hkept : damage.kept = .endOfText ∨ whole = .string none) : Truncates (.broken damage) whole
  | array (items more : List Draft) :
    Truncates (.array items (some (.both .endOfText))) (.array (items ++ more) none)
  | item (items more : List Draft) {cut whole : Draft} (h : Truncates cut whole) :
    Truncates (.array (items ++ [cut]) (some (.both .endOfText)))
      (.array (items ++ whole :: more) none)
  | object (members more : List (StringText × Draft)) {damage : Damage}
    (hskipped : damage.skipped = .endOfText)
    (hkept : damage.kept = .endOfText ∨ ∃ value rest, more = (none, value) :: rest) :
    Truncates (.object members (some damage)) (.object (members ++ more) none)
  | member (members more : List (StringText × Draft)) (key : StringText) {cut whole : Draft}
    (h : Truncates cut whole) :
    Truncates (.object (members ++ [(key, cut)]) (some (.both .endOfText)))
      (.object (members ++ (key, whole) :: more) none)

/-! ### Readings that end early -/

/-- Whether one reading finds that the text has ended where another one finds no fault. -/
def EndsEarly {α β : Type} (cut : Except Fault α) (whole : Except Fault β) : Prop :=
  ∀ result, whole = .ok result → cut = .error .endOfText

namespace EndsEarly

variable {α β γ δ : Type}

theorem endOfText (whole : Except Fault β) :
    EndsEarly (.error .endOfText : Except Fault α) whole :=
  fun _ _ => rfl

theorem of_error (cut : Except Fault α) (fault : Fault) :
    EndsEarly cut (.error fault : Except Fault β) :=
  nofun

/-- What ends early does so whatever would come next. -/
theorem bind {cut : Except Fault α} {whole : Except Fault β} (h : EndsEarly cut whole)
    (next : α → Except Fault γ) (next' : β → Except Fault δ) :
    EndsEarly (cut >>= next) (whole >>= next') := by
  intro result hresult
  obtain ⟨value, hvalue, -⟩ := bind_eq_ok_iff.1 hresult
  rw [h value hvalue]
  rfl

/-- What is read the same in both does not matter. -/
theorem after (front : Except Fault α) {next : α → Except Fault γ} {next' : α → Except Fault δ}
    (h : ∀ value, EndsEarly (next value) (next' value)) :
    EndsEarly (front >>= next) (front >>= next') := by
  intro result hresult
  obtain ⟨value, rfl, hvalue⟩ := bind_eq_ok_iff.1 hresult
  exact h value result hvalue

/-- An object that breaks off in a key ends early, unless the key has half a surrogate pair: then
the members from there on cannot be read at all. -/
theorem intact {damage : Damage} {more : List (StringText × Draft)} {next : Unit → Except Fault γ}
    {whole : Except Fault δ}
    (hkept : damage.kept = .endOfText ∨ ∃ value rest, more = (none, value) :: rest)
    (hmore : ∀ value rest, more = (none, value) :: rest → ∀ result, whole ≠ .ok result) :
    EndsEarly (intact (some damage) >>= next) whole := by
  rcases hkept with hkept | ⟨value, rest, heq⟩
  · rw [Json.intact, hkept]
    exact endOfText _
  · exact fun result hresult => absurd hresult (hmore value rest heq result)

section Lists

variable {front more : List β} {x y : β} {next : List α → Except Fault γ}
  {next' : List α → Except Fault δ} {f : β → Except Fault α}

/-- A list that is cut off between its items. -/
theorem mapM_append (h : ∀ values, EndsEarly (next values) (more.mapM f)) :
    EndsEarly (front.mapM f >>= next) ((front ++ more).mapM f >>= next') := by
  rw [List.mapM_append, bind_assoc]
  refine .after _ fun values result hresult => ?_
  rw [bind_assoc] at hresult
  obtain ⟨rest, hrest, -⟩ := bind_eq_ok_iff.1 hresult
  exact h values rest hrest

/-- A list that is cut off within an item. -/
theorem mapM_append_cons (h : EndsEarly (f x) (f y)) :
    EndsEarly ((front ++ [x]).mapM f >>= next) ((front ++ y :: more).mapM f >>= next') := by
  rw [List.mapM_append, List.mapM_append, bind_assoc, bind_assoc]
  refine .after _ fun _ => ?_
  rw [List.mapM_cons, List.mapM_cons, bind_assoc, bind_assoc, bind_assoc, bind_assoc]
  exact h.bind _ _

end Lists

section Folds

variable {front more : List β} {x y : β} {g : α → β → Except Fault α} {start : α}
  {next : α → Except Fault γ} {next' : α → Except Fault δ}

/-- What is read into something, cut off between its items. -/
theorem foldlM_append (h : ∀ value, EndsEarly (next value) (more.foldlM g value)) :
    EndsEarly (front.foldlM g start >>= next) ((front ++ more).foldlM g start >>= next') := by
  rw [List.foldlM_append, bind_assoc]
  refine .after _ fun value result hresult => ?_
  obtain ⟨rest, hrest, -⟩ := bind_eq_ok_iff.1 hresult
  exact h value rest hrest

/-- What is read into something, cut off within an item. -/
theorem foldlM_append_cons (h : ∀ value, EndsEarly (g value x) (g value y)) :
    EndsEarly ((front ++ [x]).foldlM g start >>= next)
      ((front ++ y :: more).foldlM g start >>= next') := by
  rw [List.foldlM_append, List.foldlM_append, bind_assoc, bind_assoc]
  refine .after _ fun value => ?_
  rw [List.foldlM_cons, List.foldlM_cons, bind_assoc, bind_assoc]
  exact (h value).bind _ _

end Folds

end EndsEarly

/-- Whether a decoder that can read a value finds that the text has ended when there is only
a part of the value. -/
def MeetsEnd {α : Type} (decoder : Draft → Except Fault α) : Prop :=
  ∀ {cut whole : Draft}, Truncates cut whole → EndsEarly (decoder cut) (decoder whole)

/-! ### Values that are kept or skipped -/

namespace Draft

theorem keepItems_eq_mapM (depth : Nat) (items : List Draft) :
    keepItems depth items = items.mapM (keep depth) := by
  induction items with
  | nil => rfl
  | cons item items ih => rw [keepItems, ih, List.mapM_cons]

/-- Reads a member of an object for its sake. -/
def keepMember (depth : Nat) (member : StringText × Draft) : Except Fault (String × Json) := do
  let name ← keepText member.1
  let value ← member.2.keep depth
  return (name, value)

theorem keepMembers_eq_mapM (depth : Nat) (members : List (StringText × Draft)) :
    keepMembers depth members = members.mapM (keepMember depth) := by
  induction members with
  | nil => rfl
  | cons member members ih =>
    rw [keepMembers, ih, List.mapM_cons, keepMember]
    simp only [bind_assoc, pure_bind]

theorem skipItems_eq_foldlM (items : List Draft) :
    skipItems items = items.foldlM (fun _ item => item.skip) () := by
  induction items with
  | nil => rfl
  | cons item items ih => rw [skipItems, ih, List.foldlM_cons]

theorem skipMembers_eq_foldlM (members : List (StringText × Draft)) :
    skipMembers members = members.foldlM (fun _ member => member.2.skip) () := by
  induction members with
  | nil => rfl
  | cons member members ih => rw [skipMembers, ih, List.foldlM_cons]

/-- **What is kept meets the end of the text.** -/
theorem meetsEnd_keep (depth : Nat) : MeetsEnd (keep depth) := by
  intro cut whole h
  induction h generalizing depth with
  | broken hskipped hkept =>
    rcases hkept with hkept | rfl
    · rw [keep, hkept]
      exact .endOfText _
    · exact .of_error _ _
  | array items more =>
    cases depth with
    | zero => exact .of_error _ _
    | succ depth =>
      rw [keep, keep, keepItems_eq_mapM, keepItems_eq_mapM]
      exact .mapM_append fun _ => .endOfText _
  | item items more _ ih =>
    cases depth with
    | zero => exact .of_error _ _
    | succ depth =>
      rw [keep, keep, keepItems_eq_mapM, keepItems_eq_mapM]
      exact .mapM_append_cons (ih depth)
  | object members more hskipped hkept =>
    cases depth with
    | zero => exact .of_error _ _
    | succ depth =>
      rw [keep, keep, keepMembers_eq_mapM, keepMembers_eq_mapM]
      refine .mapM_append fun _ => .intact hkept ?_
      rintro value rest rfl
      exact nofun
  | member members more key _ ih =>
    cases depth with
    | zero => exact .of_error _ _
    | succ depth =>
      rw [keep, keep, keepMembers_eq_mapM, keepMembers_eq_mapM]
      exact .mapM_append_cons (.after _ fun _ => (ih depth).bind _ _)

/-- **What is skipped meets the end of the text.** -/
theorem meetsEnd_skip : MeetsEnd skip := by
  intro cut whole h
  induction h with
  | broken hskipped _ =>
    rw [skip, hskipped]
    exact .endOfText _
  | array items more =>
    rw [skip, skip, skipItems_eq_foldlM, skipItems_eq_foldlM]
    exact .foldlM_append fun _ => .endOfText _
  | item items more _ ih =>
    rw [skip, skip, skipItems_eq_foldlM, skipItems_eq_foldlM]
    exact .foldlM_append_cons fun _ => ih
  | object members more hskipped _ =>
    rw [skip, skip, skipMembers_eq_foldlM, skipMembers_eq_foldlM]
    refine .foldlM_append fun _ => ?_
    rw [skipEnd, hskipped]
    exact .endOfText _
  | member members more key _ ih =>
    rw [skip, skip, skipMembers_eq_foldlM, skipMembers_eq_foldlM]
    exact .foldlM_append_cons fun _ => ih

end Draft
end Json
end DocTree
