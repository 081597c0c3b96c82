/-
# All or nothing

A run of the program that ends well has put the text of the document where it was to go, and
one that does not has printed nothing and changed nothing (`run_all_or_nothing`).  Which of the
two it is depends on the arguments, the document and the place for it alone.
-/

import DocTree.Proofs.CommandLine
import DocTree.Proofs.Depth
import DocTree.Proofs.Program

namespace DocTree

/-- The headings of a document that options ask for are within two levels of their depth. -/
theorem depth_bounds_of_finds {σ : Type} {disk : Disk (StateM σ)} (laws : disk.Lawful)
    {options : Options} {state : σ} {root : Root} (h : options.Finds disk state (.ok root))
    (hdepth : options.depth ≤ CommandLine.maxDepth) {below : UInt64} {children : List Node}
    (hmem : Node.heading below children ∈ Node.flatList root.children) :
    options.depth ≤ below.toNat ∧ below.toNat ≤ options.depth + 2 := by
  have hsize : options.depth < UInt64.size := Nat.lt_of_le_of_lt hdepth (by decide)
  obtain ⟨loaded, hloaded⟩ := options.exists_finds laws state
  obtain ⟨hroot, -⟩ := Prod.mk.inj (h.symm.trans hloaded)
  cases loaded with
  | error _ => cases hroot
  | ok catalog =>
    obtain rfl := Except.ok.inj hroot
    have hbounds := (hasHeadingsWithin_render outline_markup catalog _ _).bounds hmem
    rwa [UInt64.toNat_ofNat_of_lt' hsize] at hbounds

/-- Whether there is a place for what the options ask for: on the standard output, or where a
path leads that leads to no directory. -/
def Options.HasPlace (options : Options) (tree : FileTree) : Prop :=
  ∀ path ∈ options.output?, ∃ location,
    tree.locate path = some location ∧ tree.at? location ≠ some .directory

/-- **The program does all that it is asked for, or nothing.**  Unless the arguments ask for
help:

* a run with an exit code other than 0 prints nothing and leaves every file as it was;
* a run with the exit code 0 has understood its arguments, with a depth from 1 to 64, and found
  the document they ask for.  All headings of that are at most two levels below the depth.  Its
  text is its value as JSON, on one line if that is asked for, and a line feed.  That is the
  standard output, and nothing is written; or nothing is printed, and the text is what is read
  from then on at every path that leads where the output was to go, and nothing else is changed;
* the exit code is 0 if the arguments make sense, there is a document and there is a place;
* arguments that make no sense are reported on any disk without using it. -/
theorem run_all_or_nothing (arguments : List String) (tree : FileTree)
    (hhelp : CommandLine.parse arguments ≠ .error .help) :
    ∃ outcome after, (run FileTree.disk arguments).run tree = (outcome, after) ∧
      (outcome.code ≠ 0 → outcome.stdout = "" ∧ after = tree) ∧
      (outcome.code = 0 → ∃ options root text,
        CommandLine.parse arguments = .ok options ∧
          options.Finds FileTree.disk tree (.ok root) ∧
          text = (if options.compact then root.toJson.compact else root.toJson.pretty) ++ "\n" ∧
          (1 ≤ options.depth ∧ options.depth ≤ 64) ∧
          (∀ depth children, .heading depth children ∈ Node.flatList root.children →
            options.depth ≤ depth.toNat ∧ depth.toNat ≤ options.depth + 2) ∧
          (options.output? = none → outcome.stdout = text ∧ after = tree) ∧
          ∀ path, options.output? = some path →
            outcome.stdout = "" ∧ after.read? path = some text.toUTF8 ∧
              (∀ other, after.read? other =
                if tree.locate other = tree.locate path then some text.toUTF8
                else tree.read? other) ∧
              ∀ location, tree.locate path ≠ some location →
                after.at? location = tree.at? location) ∧
      (∀ options root, CommandLine.parse arguments = .ok options →
        options.Finds FileTree.disk tree (.ok root) → options.HasPlace tree → outcome.code = 0) ∧
      ∀ misuse, CommandLine.parse arguments = .error (.misuse misuse) →
        outcome.code = 2 ∧ ∀ {m : Type → Type} [Monad m] (disk : Disk m),
          run disk arguments = pure outcome := by
  cases hparse : CommandLine.parse arguments with
  | error stop =>
    cases stop with
    | help => exact absurd hparse hhelp
    | misuse misuse =>
      have hrun {m : Type → Type} [Monad m] (disk : Disk m) :
          run disk arguments = pure (.ofStop (.misuse misuse)) := by rw [run, hparse]
      refine ⟨.ofStop (.misuse misuse), tree, by rw [hrun]; rfl, fun _ => ⟨rfl, rfl⟩, ?_, ?_, ?_⟩
      · intro hcode
        cases hcode
      · intro _ _ hok
        cases hok
      · rintro _ ⟨⟩
        exact ⟨rfl, hrun⟩
  | ok options =>
    have hdepth := CommandLine.depth_bounds_of_parse hparse
    obtain ⟨outcome, after, hoptions, hcases⟩ := runOptions_cases FileTree.lawful_disk options tree
    obtain ⟨notes, hrun⟩ := run_of_parse hparse hoptions
    refine ⟨{ outcome with notes }, after, hrun, ?_⟩
    rcases hcases with ⟨hcode, hstdout, hafter, hnone⟩ | ⟨root, hfinds, hcode, hleaves⟩
    · refine ⟨fun _ => ⟨hstdout, hafter⟩, ?_, ?_, by rintro _ ⟨⟩⟩
      · intro hzero
        exact absurd (hcode.symm.trans hzero) (by decide)
      · rintro _ root ⟨⟩ hfinds hplace
        obtain ⟨path, hpath, reason, hwrite⟩ := hnone root hfinds
        obtain ⟨location, hlocate, hentry⟩ := hplace path hpath
        exact absurd hwrite (FileTree.run_write_ne_error hlocate hentry)
    · refine ⟨fun hne => absurd hcode hne, fun _ => ?_, fun _ _ _ _ _ => hcode, by rintro _ ⟨⟩⟩
      refine ⟨options, root, documentText options.compact root, rfl, hfinds, rfl, hdepth,
        fun _ _ hmem => depth_bounds_of_finds FileTree.lawful_disk hfinds hdepth.2 hmem, ?_, ?_⟩
      · intro houtput
        rwa [houtput] at hleaves
      · intro path houtput
        rw [houtput] at hleaves
        obtain ⟨hstdout, hwrite, -⟩ := hleaves
        have hnext := FileTree.run_write_ok_iff.1 hwrite
        have hread := FileTree.read?_write? hnext
        exact ⟨hstdout, by rw [hread, if_pos rfl], hread, fun _ => FileTree.at?_write? hnext⟩

/-- A record of two submodules, the file `r` in the working directory. -/
def FileTree.sample : FileTree :=
  { entries := [
      (["home", "docs", "r"], .file "\x7b\"s\":\x7b\"f\":\x7b\x7d\x7d,\"t\":\x7b\x7d\x7d".toUTF8),
      (["home", "docs"], .directory), (["home"], .directory)]
    workingDirectory := ["home", "docs"] }

/-- One of its submodules, in the place of the record. -/
def Options.sample : Options :=
  { input := "../docs/r#s", depth := 2, output? := some "/../home/./docs/r", compact := true,
    verbose := true }

/-- The text of the document that the options ask for. -/
def Options.sampleText : String :=
  "\x7b\"type\":\"root\",\"children\":[" ++
    "\x7b\"type\":\"mystTarget\",\"label\":\"s\"\x7d," ++
    "\x7b\"type\":\"heading\",\"depth\":2," ++
      "\"children\":[\x7b\"type\":\"text\",\"value\":\"s\"\x7d]\x7d," ++
    "\x7b\"type\":\"mystTarget\",\"label\":\"s.f\"\x7d," ++
    "\x7b\"type\":\"heading\",\"depth\":3," ++
      "\"children\":[\x7b\"type\":\"text\",\"value\":\"f\"\x7d]\x7d]\x7d\n"

/-- A run that puts a document in the place of the record it is made from. -/
theorem run_all_or_nothing_sample :
    let arguments := ["../docs/r#s", "-vd2", "--compact", "-o", "/../home/./docs/r"]
    CommandLine.parse arguments = .ok .sample ∧
      ∃ outcome after, (run FileTree.disk arguments).run .sample = (outcome, after) ∧
        outcome.code = 0 ∧ outcome.stdout = "" ∧
        after.read? "r" = some Options.sampleText.toUTF8 := by
  intro arguments
  have hparse : CommandLine.parse arguments = .ok .sample := rfl
  have hhelp : CommandLine.parse arguments ≠ .error .help := by
    rw [hparse]
    exact nofun
  have hfinds : Options.sample.Finds FileTree.disk .sample
      (.ok { children := [.target "s", .titled 2 "s", .target "s.f", .titled 3 "f"] }) := rfl
  have hplace : Options.sample.HasPlace .sample := by
    rintro _ ⟨⟩
    exact ⟨["home", "docs", "r"], by decide, by decide⟩
  obtain ⟨outcome, after, hrun, -, hdone, hzero, -⟩ := run_all_or_nothing arguments .sample hhelp
  have hcode := hzero _ _ hparse hfinds hplace
  obtain ⟨_, root, text, hoptions, hroot, htext, -, -, -, hwritten⟩ := hdone hcode
  obtain rfl := Except.ok.inj (hparse.symm.trans hoptions)
  obtain ⟨hsame, -⟩ := Prod.mk.inj (hfinds.symm.trans hroot)
  obtain rfl := Except.ok.inj hsame
  obtain ⟨hstdout, -, hread, -⟩ := hwritten "/../home/./docs/r" rfl
  have hliteral : text = Options.sampleText := by
    rw [htext]
    decide +kernel
  refine ⟨hparse, outcome, after, hrun, hcode, hstdout, ?_⟩
  rw [hread "r", if_pos (by decide), hliteral]

end DocTree
