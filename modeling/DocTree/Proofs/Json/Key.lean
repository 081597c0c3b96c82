/-
# The key of a member

A member begins with its key, between quotation marks, and a colon (`IsMemberText.exists_keyText`).
How the key is written does not matter, as long as it is read as the name (`IsKeySpelling`).  An
object that goes on after some members is where the next key may come (`State.run_openObject`).
-/

import DocTree.Proofs.Json.Lasting
import DocTree.Proofs.Json.Object

namespace DocTree
namespace Json

/-- Whether a text, wherever a member may come, is read as its key, without the colon. -/
def IsKeySpelling (key : String) (text : List Char) : Prop :=
  ∀ members outer, State.run (.nextKey members outer) text = .afterKey (some key) members outer

theorem isKeySpelling_quote (key : String) : IsKeySpelling key (quote key) := by
  intro members outer
  have hbegin : State.step (.nextKey members outer) '"' = .inKey {} members outer := rfl
  have hinside := State.run_inKey (Quoted.feed_flatMap_escape [] key.toList) members outer
  rw [quote, List.cons_append, State.run_cons, hbegin, State.run_append, hinside, State.run_cons,
    State.step, Quoted.step_quote, State.run_nil]
  simp

/-- What is left of the key of a member. -/
inductive KeyPart where
  /-- All of it. -/
  | whole
  /-- The rest of the string. -/
  | inside (text : Quoted)
  /-- The colon. -/
  | colon (key : StringText)

namespace KeyPart

/-- The state of the reader within the key of a member. -/
def state (members : List (StringText × Draft)) (outer : List Frame) : KeyPart → State
  | whole => .nextKey members outer
  | inside text => .inKey text members outer
  | colon key => .afterKey key members outer

end KeyPart

/-- The beginning of an object, with a comma after each of its members so far. -/
def openObject (texts : List (List Char)) : List Char :=
  '\x7b' :: texts.flatMap (· ++ [','])

namespace State

variable {members : List (StringText × Draft)} {texts : List (List Char)}

theorem run_memberTexts (h : List.Forall₂ IsMemberText members texts)
    (done : List (StringText × Draft)) (outer : List Frame) :
    run (.nextKey done outer) (texts.flatMap (· ++ [','])) =
      .nextKey (members.reverse ++ done) outer := by
  induction h generalizing done with
  | nil => rfl
  | @cons member text members texts hmember _ ih =>
    have hcomma : (deliver member.2 (.member done member.1 :: outer)).follow ',' =
        .nextKey (member :: done) outer := rfl
    rw [List.flatMap_cons, List.append_assoc, run_append, List.singleton_append, run_cons,
      (hmember done outer).step (by decide), hcomma, ih, List.reverse_cons, List.append_assoc,
      List.singleton_append]

/-- Whether a value may come next, with some frames around it. -/
inductive Awaits : List Frame → State → Prop where
  /-- The value of a member, a further item or the value of a whole text. -/
  | value (outer : List Frame) : Awaits outer (.expectValue outer)
  /-- The first item of an array. -/
  | firstItem (outer : List Frame) : Awaits (.item [] :: outer) (.firstItem outer)

theorem awaits_of_eq {outer : List Frame} {state : State} (h : state = .expectValue outer) :
    state.Awaits outer :=
  h ▸ .value outer

theorem Awaits.run_brace {outer : List Frame} {state : State} (h : state.Awaits outer)
    (text : List Char) : run state ('\x7b' :: text) = run (.firstKey outer) text := by
  cases h <;> rfl

/-- **The members of an object that goes on** are read one after the other. -/
theorem run_openObject (h : List.Forall₂ IsMemberText members texts) (hne : members ≠ [])
    {outer : List Frame} {state : State} (hstate : state.Awaits outer) :
    run state (openObject texts) = .nextKey members.reverse outer := by
  have hnext := run_memberTexts h [] outer
  rw [List.append_nil] at hnext
  cases h with
  | nil => exact absurd rfl hne
  | @cons member text members texts hmember hmembers =>
    rw [List.flatMap_cons, List.append_assoc, run_append] at hnext
    rw [openObject, hstate.run_brace, List.flatMap_cons, List.append_assoc, run_append,
      run_firstKey_of_isAfter (hmember [] outer), hnext]

end State
end Json
end DocTree
