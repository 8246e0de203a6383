import Linewise.Console.Session
import Linewise.Main
import Linewise.Proofs.Braces
import Linewise.Proofs.LineByLine
import Linewise.Proofs.Spelling
import Linewise.Proofs.Grammar
import Linewise.Proofs.Literals
import Linewise.Proofs.Files
import Linewise.Proofs.Utf8
import Linewise.Proofs.Conversion
import Linewise.Proofs.Paths
import Linewise.Proofs.Batch
import Linewise.Proofs.Strings
import Linewise.Proofs.Writes
import Linewise.Proofs.Independence
import Linewise.Proofs.Markup
import Linewise.Proofs.Loading
import Linewise.Proofs.Ending
import Linewise.Proofs.Display
import Linewise.Proofs.Layout
import Linewise.Proofs.Outcome
import Linewise.Proofs.Stops
import Linewise.Proofs.FirstFault
import Linewise.Proofs.Matching
import Linewise.Proofs.Sessions
import Linewise.Proofs.Recovery
import Linewise.Proofs.Precedence
import Linewise.Proofs.Overrides
import Linewise.Proofs.Nearest
import Linewise.Proofs.Params
import Linewise.Proofs.Extensions
import Linewise.Proofs.Description
import Linewise.Proofs.TypeNames
