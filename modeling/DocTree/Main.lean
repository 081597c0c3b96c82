/-
# Running the program

The program on the disk of the machine.

Source: `main.main`, as far as it prints and ends.
-/

import DocTree.Program

namespace DocTree

/-- Does something with files, and says why if it fails. -/
def attempt {α : Type} (action : IO α) : IO (Except String α) := do
  try
    return .ok (← action)
  catch error =>
    return .error (toString error)

/-- The disk of the machine. -/
def machineDisk : Disk IO where
  read path := attempt (IO.FS.readBinFile path)
  write path text := attempt (IO.FS.writeFile path text)

end DocTree

/-- Runs the program, prints what it ends with and gives its exit code. -/
def main (arguments : List String) : IO UInt32 := do
  let outcome ← DocTree.run DocTree.machineDisk arguments
  outcome.notes.forM IO.eprintln
  IO.eprint outcome.report
  IO.print outcome.stdout
  return outcome.code.toUInt32
