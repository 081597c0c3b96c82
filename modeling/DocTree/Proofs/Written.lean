/-
# What is written of a document

The text of a document, on one line or on many, is a faithful picture of its tree: no other
document has it, and a reader of JSON finds the tree in it (`written_faithfully`).  On one
line it has no control characters, so what the program writes then is one line.
-/

import DocTree.Proofs.Json.Reader
import DocTree.Proofs.Json.Visible
import DocTree.Proofs.Node.Json
import DocTree.Proofs.Program

namespace DocTree

/-! ### The two layouts -/

namespace Root

/-- Whether a text is read as a document, whatever its layout is. -/
def IsText (root : Root) (text : String) : Prop :=
  Json.Page.ofText text.toList = { value := root.toJson.draft }

theorem isText_compact (root : Root) : root.IsText root.toJson.compact :=
  Json.Page.ofText_compact root.isGrammatical_toJson

theorem isText_pretty (root : Root) : root.IsText root.toJson.pretty :=
  Json.Page.ofText_pretty root.isGrammatical_toJson

namespace IsText

variable {root other : Root} {text : String}

/-- **A text is that of one document only.** -/
theorem unique (h : root.IsText text) (hother : other.IsText text) : root = other := by
  have hdraft : root.toJson.draft = other.toJson.draft :=
    congrArg Json.Page.value (h.symm.trans hother)
  exact eq_of_toJson_eq (Json.eq_of_draft_eq root.inRange_toJson other.inRange_toJson hdraft)

/-- **A reader that has room for the nesting** finds the document in its text. -/
theorem read (h : root.IsText text) (hnesting : root.toJson.nesting ≤ Json.nestingLimit) :
    Json.ofText text = .ok root.toJson := by
  have hkeep := Json.Draft.keep_draft root.toJson Json.nestingLimit root.inRange_toJson hnesting
  rw [Json.ofText, h, Json.Page.keep, Json.Page.decode, hkeep]
  rfl

end IsText

theorem isVisible_compact (root : Root) : Json.IsVisible root.toJson.compact.toList := by
  rw [Json.compact, String.toList_ofList]
  exact Json.isVisible_compactText root.toJson root.isGrammatical_toJson

end Root

/-! ### The program -/

/-- Whether a text is one line: its only line feed is its last character. -/
def IsLine (text : String) : Prop :=
  text.toList.count '\n' = 1 ∧ text.toList.getLast? = some '\n'

theorem Root.isLine_compact (root : Root) : IsLine (root.toJson.compact ++ "\n") := by
  have hnone : root.toJson.compact.toList.count '\n' = 0 := by
    refine List.count_eq_zero.2 fun hmem => ?_
    exact absurd (root.isVisible_compact _ hmem) (by decide)
  have htext : (root.toJson.compact ++ "\n").toList = root.toJson.compact.toList ++ ['\n'] :=
    String.toList_append
  rw [IsLine, htext, List.count_append, hnone, List.getLast?_append]
  exact ⟨rfl, rfl⟩

/-- **What is written of a document is a faithful picture of it.**  Two documents have the
same text, on one line or on many, only if they are the same.  A reader of JSON that has room
for the nesting finds the same value in both texts, and the document in the value.  The text
on one line has no control characters.  So what the program leaves on a disk that can be relied
on, when it is to write on one line, is the text of a document and a line feed, and is one line. -/
theorem written_faithfully :
    (∀ root other : Root, root.toJson.compact = other.toJson.compact → root = other) ∧
      (∀ root other : Root, root.toJson.pretty = other.toJson.pretty → root = other) ∧
      (∀ root : Root, root.toJson.nesting ≤ Json.nestingLimit →
        Json.ofText root.toJson.compact = .ok root.toJson ∧
          Json.ofText root.toJson.pretty = .ok root.toJson ∧
          Root.ofJson? root.toJson = some root) ∧
      (∀ root : Root, ∀ c ∈ root.toJson.compact.toList, 0x20 ≤ c.toNat) ∧
      ∀ {σ : Type} (disk : Disk (StateM σ)), disk.Lawful →
        ∀ arguments options before outcome after,
          CommandLine.parse arguments = .ok options → options.compact = true →
            (run disk arguments).run before = (outcome, after) → outcome.code = 0 →
              ∃ root : Root, IsLine (root.toJson.compact ++ "\n") ∧
                Leaves disk options.output? before outcome after (root.toJson.compact ++ "\n") := by
  refine ⟨fun root other h => root.isText_compact.unique (h ▸ other.isText_compact),
    fun root other h => root.isText_pretty.unique (h ▸ other.isText_pretty),
    fun root h => ⟨root.isText_compact.read h, root.isText_pretty.read h, root.ofJson?_toJson⟩,
    Root.isVisible_compact, ?_⟩
  intro σ disk laws arguments options before outcome after hoptions hcompact hrun hcode
  obtain ⟨root, hleaves⟩ := exists_leaves_of_run laws hoptions hrun hcode
  rw [hcompact] at hleaves
  exact ⟨root, root.isLine_compact, hleaves⟩

/-- A document of one heading, and a run on a record of nothing. -/
theorem written_faithfully_sample :
    (Json.ofText (Root.toJson { children := [.titled 1 "A"] }).compact =
        .ok (Root.toJson { children := [.titled 1 "A"] }) ∧
      Json.ofText (Root.toJson { children := [.titled 1 "A"] }).pretty =
        .ok (Root.toJson { children := [.titled 1 "A"] }) ∧
      Root.ofJson? (Root.toJson { children := [.titled 1 "A"] }) =
        some { children := [.titled 1 "A"] }) ∧
    let tree : FileTree := { entries := [(["r"], .file "\x7b\x7d".toUTF8)] }
    ∃ root : Root, IsLine (root.toJson.compact ++ "\n") ∧
      Leaves FileTree.disk none tree
        { stdout := "\x7b\"type\":\"root\",\"children\":[]\x7d\n" } tree
        (root.toJson.compact ++ "\n") := by
  have hnesting : (Root.toJson { children := [.titled 1 "A"] }).nesting ≤ Json.nestingLimit := by
    decide
  have hoptions : CommandLine.parse ["r", "--compact"] =
      .ok { input := "r", compact := true } := rfl
  obtain ⟨-, -, hread, -, hrun⟩ := written_faithfully
  refine ⟨hread _ hnesting, ?_⟩
  intro tree
  exact hrun FileTree.disk FileTree.lawful_disk _ _ tree _ tree hoptions rfl rfl rfl

end DocTree
