import Linewise.Console.Report
import Linewise.Translator

/-! # Sessions on a console

A session has an active console, which may be exchanged, and a log that writes to
the consoles of its handlers. Exchanging the console replaces the handler, and sets
the level of the log to that of plain information if it is unset or above that. A
record is shown if its level is at least that of the log. A text that is not well
formed is a fault, which ends the run that it occurs in.
-/

namespace Linewise.Console

inductive Sink where
  /-- The memory of the console that was set as the given one, counted from zero. -/
  | memory (index : Nat)
  | standard
deriving DecidableEq, Repr

structure Session where
  /-- The level of the log. -/
  level : Int := Level.info.number
  /-- How many consoles in memory there are. -/
  memories : Nat := 1
  active : Sink := .memory 0
  /-- The sinks of the handlers that the log writes through. -/
  handlers : List Sink := [.memory 0]
deriving DecidableEq, Repr

inductive Action where
  | log (level : Level) (message : String)
  | print (text : String)
  | setLevel (level : Int)
  /-- Make a fresh console in memory the active one. -/
  | attach
  /-- Make a console in memory that there is already the active one. -/
  | reattach (index : Nat)
  /-- Make the standard output the active console. -/
  | detach
  | translate (text : String) (settings : Settings := {})
deriving Repr

abbrev Written := List (Sink × List String)

namespace Session

def shows (session : Session) (level : Level) : Bool :=
  session.level ≤ level.number

/-- Exchange the active console. Every handler that the log has is removed before the new one is
added. -/
def activate (sink : Sink) (session : Session) : Session :=
  { session with
    active := sink
    handlers := session.handlers.foldl List.erase session.handlers ++ [sink]
    level :=
      if session.level = 0 ∨ session.level > Level.info.number then Level.info.number
      else session.level }

/-- The session that begins on the standard output; the log may have handlers from before. -/
def opened (level : Int) (handlers : List Sink) : Session :=
  { level, memories := 0, active := .standard, handlers : Session }.activate .standard

def log (session : Session) (level : Level) (message : String) : Except MarkupFault Written :=
  if session.shows level then
    (Report.record level message).lines.map fun lines =>
      session.handlers.map fun sink => (sink, lines)
  else .ok []

def perform (session : Session) : Action → Except MarkupFault (Session × Written)
  | .log level message => (session.log level message).map (session, ·)
  | .print text =>
    (Report.markup text).lines.map fun lines => (session, [(session.active, lines)])
  | .setLevel level => .ok ({ session with level := level }, [])
  | .attach =>
    .ok ({ session with memories := session.memories + 1 }.activate (.memory session.memories), [])
  | .reattach index =>
    .ok (if index < session.memories then session.activate (.memory index) else session, [])
  | .detach => .ok (session.activate .standard, [])
  | .translate text settings =>
    ((Translator.trace settings text).mapM (session.log .debug)).map fun written =>
      (session, written.flatten)

structure Course where
  /-- The state after the last action that was carried out. -/
  session : Session
  written : Written := []
  /-- The fault of the action that ended the run before its end. -/
  fault : Option MarkupFault := none
deriving DecidableEq, Repr

/-- Carry out actions one after the other, up to the first that ends in a fault. -/
def run (session : Session) : List Action → Course
  | [] => { session }
  | action :: rest =>
    match session.perform action with
    | .ok (next, written) =>
      let course := next.run rest
      { course with written := written ++ course.written }
    | .error fault => { session, fault }

end Session
end Linewise.Console
