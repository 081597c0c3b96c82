/-
# Contexts step by step

Going into the parts of a document is a run of steps, each of which writes one field of the
context and leaves the others alone (`Context.step_eq`).  So after a run every field is what
the last step that writes it left there, and the depth counts the levels, up to the deepest
there is (`Context.run_eq`): the order in which steps of different kinds are taken does not
matter, and a name beside the current function is resolved by the module and the submodule
alone (`Context.run_lastWritten`).
-/

import DocTree.Proofs.Context
import DocTree.SeeAlso
import Mathlib.Data.List.Induction

namespace DocTree

/-- A step from one context into another. -/
inductive Context.Step where
  /-- Into the named submodule. -/
  | submodule (name : String)
  /-- Into the named function. -/
  | function (name : String)
  /-- One heading level further down. -/
  | level
  deriving Repr, DecidableEq, Inhabited

namespace Context

/-- The submodule that a step goes into. -/
def Step.submodule? : Step → Option String
  | submodule name => some name
  | _ => none

/-- The function that a step goes into. -/
def Step.function? : Step → Option String
  | function name => some name
  | _ => none

/-- The context after a step. -/
def step (ctx : Context) : Step → Context
  | .submodule name => ctx.inSubmodule name
  | .function name => ctx.inFunction name
  | .level => ctx.nested

/-- The context after some steps, taken one after the other. -/
def run (ctx : Context) (steps : List Step) : Context :=
  steps.foldl step ctx

/-- The submodule that the last of the steps into one goes into. -/
def lastSubmodule? (steps : List Step) : Option String :=
  (steps.filterMap Step.submodule?).getLast?

/-- The function that the last of the steps into one goes into. -/
def lastFunction? (steps : List Step) : Option String :=
  (steps.filterMap Step.function?).getLast?

/-- **A step writes the fields that it is about,** and leaves the others alone. -/
theorem step_eq (ctx : Context) (next : Step) :
    ctx.step next =
      { depth := depthBelow ctx.depth ([next].count .level)
        module? := ctx.module?
        submodule? := next.submodule?.or ctx.submodule?
        function? := next.function?.or ctx.function? } := by
  cases next with
  | submodule name =>
    simp [step, inSubmodule, Step.submodule?, Step.function?, depthBelow_zero]
  | function name =>
    simp [step, inFunction, Step.submodule?, Step.function?, depthBelow_zero]
  | level =>
    simp [step, nested, Step.submodule?, Step.function?, deeper_eq_depthBelow]

theorem run_concat (ctx : Context) (steps : List Step) (next : Step) :
    ctx.run (steps ++ [next]) = (ctx.run steps).step next := by
  rw [run, List.foldl_append, List.foldl_cons, List.foldl_nil, run]

/-- What is written last is what the last step writes, or else what was written before it. -/
theorem getLast?_filterMap_concat (write : Step → Option String) (steps : List Step)
    (next : Step) :
    ((steps ++ [next]).filterMap write).getLast? =
      (write next).or (steps.filterMap write).getLast? := by
  rw [List.filterMap_append, List.getLast?_append]
  cases hwrite : write next <;> simp [hwrite]

/-- **After a run every field is what was last written to it,** and what it was before if nothing
was. -/
theorem run_eq (ctx : Context) (steps : List Step) :
    ctx.run steps =
      { depth := depthBelow ctx.depth (steps.count .level)
        module? := ctx.module?
        submodule? := (lastSubmodule? steps).or ctx.submodule?
        function? := (lastFunction? steps).or ctx.function? } := by
  induction steps using List.reverseRecOn with
  | nil =>
    rw [List.count_nil, depthBelow_zero]
    rfl
  | append_singleton steps next ih =>
    rw [run_concat, step_eq, ih, depthBelow_depthBelow, ← List.count_append]
    simp only [lastSubmodule?, lastFunction?, getLast?_filterMap_concat, Option.or_assoc]

/-- **A name beside the current function** is resolved by the module and the submodule alone. -/
theorem resolve_unqualified (name : String) (ctx : Context) :
    SeeAlso.resolve name false ctx = DocTree.label ctx.module? ctx.submodule? (some name) :=
  rfl

/-- **The fields of a context are cells that do not depend on each other.**  After a run of steps
the module is what it was, the submodule and the function are those of the last step into one, or
what they were, and the depth has grown by the number of levels, up to the deepest.  So runs with
as many levels and the same last names end in one context, in whatever order their steps are.  At
every point of a run, a name beside the current function leads to the label that it has in the
current submodule, whatever the current function and the depth are. -/
theorem run_lastWritten (ctx : Context) (steps : List Step) :
    ((ctx.run steps).module? = ctx.module? ∧
      (ctx.run steps).submodule? = (lastSubmodule? steps).or ctx.submodule? ∧
      (ctx.run steps).function? = (lastFunction? steps).or ctx.function? ∧
      (ctx.run steps).depth.toNat =
        min (UInt64.size - 1) (ctx.depth.toNat + steps.count .level)) ∧
    (∀ others : List Step, others.count .level = steps.count .level →
      lastSubmodule? others = lastSubmodule? steps →
      lastFunction? others = lastFunction? steps →
        ctx.run others = ctx.run steps ∧ (ctx.run others).label = (ctx.run steps).label) ∧
    ∀ before, before <+: steps → ∀ name depth function?,
      SeeAlso.resolve name false (ctx.run before) =
          DocTree.label ctx.module? ((lastSubmodule? before).or ctx.submodule?) (some name) ∧
        SeeAlso.resolve name false { ctx.run before with depth, function? } =
          SeeAlso.resolve name false (ctx.run before) := by
  refine ⟨?_, fun others hlevels hsubmodule hfunction => ?_,
    fun before _ name depth function? => ?_⟩
  · rw [run_eq]
    exact ⟨rfl, rfl, rfl, (toNat_depthBelow _ _).trans (Nat.min_comm _ _)⟩
  · have hsame : ctx.run others = ctx.run steps := by
      rw [run_eq, run_eq, hlevels, hsubmodule, hfunction]
    exact ⟨hsame, congrArg label hsame⟩
  · rw [resolve_unqualified, resolve_unqualified, run_eq]
    exact ⟨rfl, rfl⟩

/-- Two runs that go into the same parts in different orders, from one level above the deepest and
with a submodule and a function that are left over. -/
theorem run_lastWritten_sample :
    let ctx : Context := ⟨18446744073709551614, some "pkg", some "old", some "left"⟩
    let steps : List Step := [.submodule "io", .level, .level]
    let others : List Step := [.level, .submodule "sys", .level, .submodule "io"]
    others.count .level = steps.count .level ∧
      lastSubmodule? others = lastSubmodule? steps ∧
      lastFunction? others = lastFunction? steps ∧
      ctx.run others = ⟨18446744073709551615, some "pkg", some "io", some "left"⟩ ∧
      [.submodule "io", .level] <+: steps ∧
      SeeAlso.resolve "open" false (ctx.run [.submodule "io", .level]) = "pkg.io.open" := by
  intro ctx steps others
  have hlevels : others.count .level = steps.count .level := rfl
  have hsubmodule : lastSubmodule? others = lastSubmodule? steps := rfl
  have hfunction : lastFunction? others = lastFunction? steps := rfl
  have hbefore : [.submodule "io", .level] <+: steps := ⟨_, rfl⟩
  obtain ⟨-, hrun, hresolve⟩ := run_lastWritten ctx steps
  have hsame : ctx.run others = ctx.run steps := (hrun others hlevels hsubmodule hfunction).1
  have hlabel := (hresolve [.submodule "io", .level] hbefore "open" 1 none).1
  exact ⟨hlevels, hsubmodule, hfunction, hsame.trans (by decide), hbefore,
    hlabel.trans (by decide)⟩

end Context
end DocTree
