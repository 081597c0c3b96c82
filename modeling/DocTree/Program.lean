/-
# The program

Renders what its arguments ask for and prints the document, or writes it to a file.
Nothing is printed or written before everything that can fail has succeeded, but for
the writing itself.

Source: `main.main`.
-/

import DocTree.CommandLine
import DocTree.Document
import DocTree.Markup.Block
import DocTree.Node.Json

namespace DocTree

/-- What a run of the program ends with. -/
structure Outcome where
  /-- The exit code: 0 for success, 1 for a failure, 2 for a misuse of the command line. -/
  code : UInt8 := 0
  /-- The standard output. -/
  stdout : String := ""
  /-- Remarks on what was done. -/
  notes : List String := []
  /-- The report of a failure or misuse, empty for a success. -/
  report : String := ""
  deriving Repr, DecidableEq, Inhabited

namespace Outcome

/-- A text whose first line begins with `first`, and the others with `rest`. -/
def indented (first rest text : String) : String :=
  first ++ ("\n" ++ rest).intercalate ((Text.split '\n' text.toList).map String.ofList)

/-- The lines of the causes of a failure.  They are numbered if there is more than one. -/
def causeLines (causes : List String) : List String :=
  match causes with
  | [cause] => [indented "    " "    " cause]
  | causes => causes.zipIdx.map fun (cause, i) =>
    indented ("    " ++ toString i ++ ": ") "       " cause

/-- The report of a failure with its causes, the nearest first. -/
def failureReport (message : String) (causes : List String) : String :=
  "Error: " ++ message ++ "\n\nCaused by:\n" ++ "\n".intercalate (causeLines causes) ++ "\n"

/-- A run that failed. -/
def failure (message : String) (causes : List String) : Outcome :=
  { code := 1, report := failureReport message causes }

/-- A run that never began. -/
def ofStop : CommandLine.Stop → Outcome
  | .help => { stdout := CommandLine.helpText }
  | .misuse misuse => { code := 2, report := "error: " ++ misuse.message ++ "\n" }

end Outcome

/-- The text of a document as the program writes it. -/
def documentText (compact : Bool) (root : Root) : String :=
  (if compact then root.toJson.compact else root.toJson.pretty) ++ "\n"

/-- Renders what the options ask for. -/
def runOptions {m : Type → Type} [Monad m] (disk : Disk m) (options : Options) : m Outcome := do
  let ctx : Context := { depth := .ofNat options.depth, module? := options.module? }
  match ← document disk options.input Markup.parse ctx with
  | .error error =>
    return .failure ("failed to render " ++ options.input) [error.message, error.cause]
  | .ok root =>
    let text := documentText options.compact root
    match options.output? with
    | none => return { stdout := text }
    | some path => match ← disk.write path text with
      | .ok () => return {}
      | .error reason => return .failure ("failed to write " ++ path) [reason]

/-- Runs the program on a disk with some arguments. -/
def run {m : Type → Type} [Monad m] (disk : Disk m) (arguments : List String) : m Outcome :=
  match CommandLine.parse arguments with
  | .error stop => return .ofStop stop
  | .ok options => do
    let outcome ← runOptions disk options
    let notes := if options.verbose then ["rendering " ++ options.input] else []
    return { outcome with notes }

end DocTree
