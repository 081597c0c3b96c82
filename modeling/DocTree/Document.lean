/-
# Documents

An address is turned into a document by reading its record from a disk and rendering
what it asks for.  Reading the record is all that can fail.

Source: `directive.load` and `directive.run`; `error.Error`.
-/

import DocTree.Disk
import DocTree.Record
import DocTree.Selection

namespace DocTree

/-- Why a record cannot be loaded. -/
inductive LoadError where
  /-- There is no text at the path. -/
  | unreadable (path reason : String)
  /-- The text at the path is no record. -/
  | invalid (path : String) (fault : Json.Fault)
  deriving Repr, DecidableEq, Inhabited

/-- What is wrong with a text that is read. -/
def Json.Fault.message : Json.Fault → String
  | .endOfText => "the text ends too early"
  | .notJson => "the text is not JSON"
  | .wrongShape => "the value has the wrong shape"

namespace LoadError

/-- The error as a message. -/
def message : LoadError → String
  | unreadable path _ => "failed to read " ++ path
  | invalid path _ => "invalid npdoc JSON in " ++ path

/-- What the error was caused by. -/
def cause : LoadError → String
  | unreadable _ reason => reason
  | invalid _ fault => fault.message

end LoadError

namespace Catalog

/-- The catalog in a file whose content was read, or could not be.  Only what is UTF-8 is
a text. -/
def ofFile (path : String) : Except String ByteArray → Except LoadError Catalog
  | .error reason => .error (.unreadable path reason)
  | .ok content => match String.fromUTF8? content with
    | none => .error (.unreadable path "the file is not UTF-8 text")
    | some text => (Catalog.ofText text).mapError (.invalid path)

/-- Loads the catalog at a path. -/
def load {m : Type → Type} [Monad m] (disk : Disk m) (path : String) :
    m (Except LoadError Catalog) :=
  ofFile path <$> disk.read path

end Catalog

/-- The document that an address asks for. -/
def document {m : Type → Type} [Monad m] (disk : Disk m) (address : String)
    (parse : ProseParser) (ctx : Context) : m (Except LoadError Root) := do
  let address := Address.ofString address
  let catalog ← Catalog.load disk address.path
  return catalog.map fun catalog => { children := catalog.render address.target? parse ctx }

end DocTree
