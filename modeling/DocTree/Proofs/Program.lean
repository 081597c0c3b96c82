/-
# Runs of the program

On a disk that can be relied on, a run that gets as far as having options either fails and leaves
everything as it was, or ends well with the text of a document where it was to go
(`runOptions_cases`).
-/

import DocTree.Program
import DocTree.Proofs.Disk

namespace DocTree

variable {σ : Type} {disk : Disk (StateM σ)}

/-! ### Documents -/

/-- Loading a record changes nothing. -/
theorem exists_run_load (laws : disk.Lawful) (path : String) (state : σ) :
    ∃ loaded, (Catalog.load disk path).run state = (loaded, state) := by
  obtain ⟨result, hread⟩ := laws.run_read path state
  rw [Catalog.load, StateT.run_map, hread]
  exact ⟨_, rfl⟩

/-- The document of an address is what the address asks for in the record at its path. -/
theorem run_document {address : String} {before after : σ} {loaded : Except LoadError Catalog}
    (h : (Catalog.load disk (Address.ofString address).path).run before = (loaded, after))
    (parse : ProseParser) (ctx : Context) :
    (document disk address parse ctx).run before =
      (loaded.map fun catalog =>
        { children := catalog.render (Address.ofString address).target? parse ctx }, after) := by
  simp only [document, StateT.run_bind, h]
  rfl

/-- Whether a document, or why there is none, is what the options ask for on a disk. -/
def Options.Finds (options : Options) (disk : Disk (StateM σ)) (state : σ)
    (result : Except LoadError Root) : Prop :=
  (document disk options.input Markup.parse
    { depth := .ofNat options.depth, module? := options.module? }).run state = (result, state)

/-- On a disk that can be relied on, what is found is the document of a catalog or nothing. -/
theorem Options.exists_finds (laws : disk.Lawful) (options : Options) (state : σ) :
    ∃ loaded : Except LoadError Catalog, options.Finds disk state (loaded.map fun catalog =>
      { children := catalog.render (Address.ofString options.input).target? Markup.parse
          { depth := .ofNat options.depth, module? := options.module? } }) := by
  obtain ⟨loaded, hload⟩ := exists_run_load laws (Address.ofString options.input).path state
  exact ⟨loaded, run_document hload _ _⟩

/-! ### Runs -/

/-- Whether a run leaves a text where it was to go, and nothing anywhere else: on the standard
output, or in the file at a path, which is read as the text from then on. -/
def Leaves (disk : Disk (StateM σ)) (output? : Option String) (before : σ) (outcome : Outcome)
    (after : σ) (text : String) : Prop :=
  match output? with
  | none => outcome.stdout = text ∧ after = before
  | some path => outcome.stdout = "" ∧ (disk.write path text).run before = (.ok (), after) ∧
      (disk.read path).run after = (.ok text.toUTF8, after)

/-- **What a run with options comes to** is settled by the document and by the writing of it. -/
theorem run_runOptions {options : Options} {state : σ} {result : Except LoadError Root}
    (h : options.Finds disk state result) :
    (runOptions disk options).run state =
      match result, options.output? with
      | .error error, _ =>
        (.failure ("failed to render " ++ options.input) [error.message, error.cause], state)
      | .ok root, none => ({ stdout := documentText options.compact root }, state)
      | .ok root, some path =>
        match (disk.write path (documentText options.compact root)).run state with
        | (.ok (), after) => ({}, after)
        | (.error reason, after) => (.failure ("failed to write " ++ path) [reason], after) := by
  rw [runOptions, StateT.run_bind, h]
  cases result with
  | error error => rfl
  | ok root =>
    cases options.output? with
    | none => rfl
    | some path =>
      dsimp only
      show StateT.run (disk.write path _ >>= _) state = _
      rw [StateT.run_bind]
      cases (disk.write path (documentText options.compact root)).run state with
      | mk written after => cases written <;> rfl

/-- **What the options ask for is done, or nothing is.**  It is done if there is a document and its
text can be written where it is to go. -/
theorem runOptions_cases (laws : disk.Lawful) (options : Options) (state : σ) :
    ∃ outcome after, (runOptions disk options).run state = (outcome, after) ∧
      ((outcome.code = 1 ∧ outcome.stdout = "" ∧ after = state ∧
          ∀ root, options.Finds disk state (.ok root) → ∃ path ∈ options.output?, ∃ reason,
            (disk.write path (documentText options.compact root)).run state =
              (.error reason, state)) ∨
        ∃ root, options.Finds disk state (.ok root) ∧ outcome.code = 0 ∧
          Leaves disk options.output? state outcome after
            (documentText options.compact root)) := by
  obtain ⟨loaded, hfinds⟩ := options.exists_finds laws state
  rw [run_runOptions hfinds]
  cases loaded with
  | error error =>
    refine ⟨_, _, rfl, .inl ⟨rfl, rfl, rfl, fun root hroot => ?_⟩⟩
    cases hfinds.symm.trans hroot
  | ok catalog =>
    cases houtput : options.output? with
    | none => exact ⟨_, _, rfl, .inr ⟨_, hfinds, rfl, rfl, rfl⟩⟩
    | some path =>
      dsimp only [Except.map]
      cases hwrite : (disk.write path (documentText options.compact _)).run state with
      | mk written after =>
        cases written with
        | ok =>
          have hread := laws.run_read_written path _ state after hwrite
          exact ⟨_, _, rfl, .inr ⟨_, hfinds, rfl, rfl, hwrite, hread⟩⟩
        | error reason =>
          have hafter := laws.run_write_error path _ state after reason hwrite
          refine ⟨_, _, rfl, .inl ⟨rfl, rfl, hafter, fun root hroot => ?_⟩⟩
          obtain rfl := Except.ok.inj (Prod.mk.inj (hfinds.symm.trans hroot)).1
          exact ⟨path, rfl, reason, hafter ▸ hwrite⟩

/-- A run with options is what the options ask for, but for its notes. -/
theorem run_of_parse {arguments : List String} {options : Options}
    (h : CommandLine.parse arguments = .ok options) {before after : σ} {outcome : Outcome}
    (hrun : (runOptions disk options).run before = (outcome, after)) :
    ∃ notes, (run disk arguments).run before = ({ outcome with notes }, after) := by
  rw [run, h]
  simp only [StateT.run_bind, hrun]
  exact ⟨_, rfl⟩

/-- **A run that ends well leaves the text of a document** where it was to go. -/
theorem exists_leaves_of_run (laws : disk.Lawful) {arguments : List String} {options : Options}
    (h : CommandLine.parse arguments = .ok options) {before after : σ} {outcome : Outcome}
    (hrun : (run disk arguments).run before = (outcome, after)) (hcode : outcome.code = 0) :
    ∃ root, Leaves disk options.output? before outcome after
      (documentText options.compact root) := by
  obtain ⟨outcome', after', hoptions, hcases⟩ := runOptions_cases laws options before
  obtain ⟨notes, hnotes⟩ := run_of_parse h hoptions
  obtain ⟨rfl, rfl⟩ := Prod.mk.inj (hrun.symm.trans hnotes)
  rcases hcases with ⟨hfailed, -⟩ | ⟨root, -, -, hleaves⟩
  · exact absurd (hfailed.symm.trans hcode) (by decide)
  · exact ⟨root, hleaves⟩

end DocTree
