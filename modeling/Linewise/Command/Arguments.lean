import Linewise.FilePath
import Linewise.Text.Digit

/-! # Arguments of the command line

The first word chooses a command, and what follows belongs to that command. Options
may stand between the words. A long option may be shortened as long as it can be
told from the others, and its value may follow an equals sign. Everything after a
double dash is a word. Help is a single line, and a fault is reported without it.
-/

namespace Linewise.Command

def programName : String := "linescript"

def version : String := "0.1.0"

inductive OptionKind where
  | help
  | version
  | flag
  | value
deriving DecidableEq, Repr

/-- One spelling of an option, and the name that faults call it by. -/
structure OptionSpec where
  spelling : String
  name : String
  kind : OptionKind
deriving DecidableEq, Repr

inductive Operands where
  | one
  | many
  /-- A command with all its arguments, options included. -/
  | command
deriving DecidableEq, Repr

structure Grammar where
  program : String
  options : List OptionSpec
  operand : String
  operands : Operands
deriving DecidableEq, Repr

def helpOptions : List OptionSpec :=
  [⟨"-h", "-h/--help", .help⟩, ⟨"--help", "-h/--help", .help⟩]

def programGrammar : Grammar :=
  ⟨programName, helpOptions ++ [⟨"--version", "--version", .version⟩], "command", .command⟩

def convertGrammar : Grammar :=
  ⟨programName ++ " convert",
    helpOptions ++ [⟨"--ext", "--ext", .value⟩, ⟨"--check-blocks", "--check-blocks", .flag⟩,
      ⟨"--stdout", "--stdout", .flag⟩],
    "paths", .many⟩

def inspectGrammar : Grammar :=
  ⟨programName ++ " inspect", helpOptions, "path", .one⟩

def commandNames : List String := ["convert", "inspect"]

inductive UsageFault where
  | ambiguous (given : String) (candidates : List String)
  | valueExpected (name : String)
  | valueIgnored (name value : String)
  | unknownCommand (given : String)
  | operandRequired (name : String)
  | unrecognized (arguments : List String)
deriving DecidableEq, Repr

def UsageFault.message : UsageFault → String
  | .ambiguous given candidates =>
    "ambiguous option: " ++ given ++ " could match " ++ ", ".intercalate candidates
  | .valueExpected name => "argument " ++ name ++ ": expected one argument"
  | .valueIgnored name value =>
    "argument " ++ name ++ ": ignored explicit argument " ++ Text.quote value
  | .unknownCommand given =>
    "argument command: invalid choice: " ++ Text.quote given ++ " (choose from " ++
      ", ".intercalate (commandNames.map Text.quote) ++ ")"
  | .operandRequired name => "the following arguments are required: " ++ name
  | .unrecognized arguments => "unrecognized arguments: " ++ " ".intercalate arguments

inductive Halt where
  | help (grammar : Grammar)
  | version
  | usage (program : String) (fault : UsageFault)
deriving DecidableEq, Repr

def usageLine (program : String) (fault : UsageFault) : String :=
  program ++ ": error: " ++ fault.message

/-- The line that shows what may be given: the options, then the operands. -/
def helpLine (grammar : Grammar) : String :=
  let options := grammar.options.map fun spec =>
    "[" ++ spec.spelling ++ (if spec.kind = .value then " VALUE" else "") ++ "]"
  "usage: " ++ " ".intercalate (grammar.program :: options ++ [grammar.operand] ++
    if grammar.operands = .one then [] else ["..."])

inductive Mark where
  | word
  | separator
  /-- An option of the grammar, or one that is not known, and the value attached to it. -/
  | option (spec : Option OptionSpec) (attached : Option String)
deriving DecidableEq, Repr

def divideAtSign (argument : String) : String × Option String :=
  let cs := argument.toList
  match cs.dropWhile (· != '=') with
  | [] => (argument, none)
  | _ :: value => (String.ofList (cs.takeWhile (· != '=')), some (String.ofList value))

/-- The options that an argument may be short for. -/
def candidates (options : List OptionSpec) (argument : String) :
    List (OptionSpec × Option String) :=
  if argument.startsWith "--" then
    let (front, attached) := divideAtSign argument
    (options.filter (·.spelling.startsWith front)).map (·, attached)
  else
    options.filterMap fun spec =>
      if spec.spelling.toList = argument.toList.take 2 then
        some (spec, some (String.ofList (argument.toList.drop 2)))
      else if spec.spelling.startsWith argument then some (spec, none)
      else none

def dropLineEnd (cs : List Char) : List Char :=
  if cs.getLast? = some '\n' then cs.dropLast else cs

/-- Negative numbers are words; a line feed after the last digit makes no difference. -/
def isNegativeNumber (argument : String) : Bool :=
  match dropLineEnd argument.toList with
  | '-' :: cs =>
    match cs.dropWhile Text.isDecimalDigit with
    | [] => cs ≠ []
    | '.' :: fraction => fraction ≠ [] && fraction.all Text.isDecimalDigit
    | _ => false
  | _ => false

/-- What an argument is that is not the double dash. -/
def markOf (options : List OptionSpec) (argument : String) : Except UsageFault Mark :=
  match argument.toList with
  | '-' :: _ :: _ =>
    match options.find? (·.spelling = argument) with
    | some spec => .ok (.option (some spec) none)
    | none =>
      let (front, attached) := divideAtSign argument
      match attached, options.find? (·.spelling = front) with
      | some value, some spec => .ok (.option (some spec) (some value))
      | _, _ =>
        match candidates options argument with
        | [(spec, attached)] => .ok (.option (some spec) attached)
        | [] =>
          if isNegativeNumber argument || argument.toList.contains ' ' then .ok .word
          else .ok (.option none none)
        | several => .error (.ambiguous argument (several.map (·.1.spelling)))
  | _ => .ok .word

def markAll (options : List OptionSpec) : List String → Except UsageFault (List (String × Mark))
  | [] => .ok []
  | argument :: rest =>
    if argument = "--" then .ok ((argument, .separator) :: rest.map (·, .word))
    else do
      let mark ← markOf options argument
      let marks ← markAll options rest
      return (argument, mark) :: marks

def Mark.isOption : Mark → Bool
  | .option .. => true
  | _ => false

/-- How many arguments the operands take from the front, if they can begin there. -/
def Operands.span (operands : Operands) (marks : List Mark) : Option Nat :=
  let lead := (marks.takeWhile (· = .separator)).length
  match marks.drop lead with
  | .word :: rest =>
    match operands with
    | .one => some (lead + 1 + (rest.takeWhile (· = .separator)).length)
    | .many => some (lead + 1 + (rest.takeWhile (!·.isOption)).length)
    | .command => some marks.length
  | _ => none

structure Findings where
  operands : Option (List String) := none
  value : Option String := none
  flags : List String := []
  unrecognized : List String := []
deriving Repr

/-- The short option for help may be repeated in one argument; nothing else is attached to it. -/
def checkHelpLetters (name : String) (letters : List Char) : Except UsageFault Unit :=
  match letters.dropWhile (· = 'h') with
  | [] => if letters = [] then .error (.valueIgnored name "") else .ok ()
  | rest => .error (.valueIgnored name (String.ofList rest))

/-- Take an option of the grammar with its value; `rest` are the arguments after it. An attached
double dash takes the value away that was given before. -/
def takeOption (grammar : Grammar) (spec : OptionSpec) (attached : Option String)
    (found : Findings) (rest : List (String × Mark)) :
    Except Halt (Findings × List (String × Mark)) :=
  match spec.kind, attached with
  | .value, some value =>
    .ok ({ found with value := if value = "--" then none else some value }, rest)
  | .value, none =>
    match rest with
    | (value, .word) :: rest => .ok ({ found with value := some value }, rest)
    | _ => .error (.usage grammar.program (.valueExpected spec.name))
  | .help, some value =>
    if spec.spelling.startsWith "--" then
      .error (.usage grammar.program (.valueIgnored spec.name value))
    else
      match checkHelpLetters spec.name value.toList with
      | .ok () => .error (.help grammar)
      | .error fault => .error (.usage grammar.program fault)
  | _, some value => .error (.usage grammar.program (.valueIgnored spec.name value))
  | .help, none => .error (.help grammar)
  | .version, none => .error .version
  | .flag, none => .ok ({ found with flags := spec.spelling :: found.flags }, rest)

def takeArguments (grammar : Grammar) : Nat → Findings → List (String × Mark) →
    Except Halt Findings
  | 0, found, _ => .ok found
  | _ + 1, found, [] => .ok found
  | fuel + 1, found, (argument, .option spec attached) :: rest =>
    match spec with
    | none =>
      takeArguments grammar fuel
        { found with unrecognized := found.unrecognized ++ [argument] } rest
    | some spec =>
      match takeOption grammar spec attached found rest with
      | .error halt => .error halt
      | .ok (found, rest) => takeArguments grammar fuel found rest
  | fuel + 1, found, arguments =>
    match found.operands, grammar.operands.span (arguments.map Prod.snd) with
    | none, some n =>
      takeArguments grammar fuel { found with operands := some ((arguments.take n).map Prod.fst) }
        (arguments.drop n)
    | _, _ =>
      takeArguments grammar fuel
        { found with
          unrecognized :=
            found.unrecognized ++ (arguments.takeWhile (!·.2.isOption)).map Prod.fst }
        (arguments.dropWhile (!·.2.isOption))

def findings (grammar : Grammar) (arguments : List String) :
    Except Halt (List String × Findings) :=
  match markAll grammar.options arguments with
  | .error fault => .error (.usage grammar.program fault)
  | .ok marks =>
    match takeArguments grammar (marks.length + 1) {} marks with
    | .error halt => .error halt
    | .ok found =>
      match found.operands with
      | none => .error (.usage grammar.program (.operandRequired grammar.operand))
      | some operands => .ok (operands, found)

inductive Invocation where
  | convert (paths : List FilePath) (extension : Option String) (checkBlocks toStdout : Bool)
  | inspect (path : FilePath)
deriving DecidableEq, Repr

/-- The paths that operands name; the first double dash among them is none. -/
def pathsOf (operands : List String) : List FilePath :=
  (operands.erase "--").map FilePath.ofString

def invocationOf (command : String) (arguments : List String) :
    Except Halt (Invocation × List String) :=
  if command = "convert" then do
    let (operands, found) ← findings convertGrammar arguments
    return (.convert (pathsOf operands) found.value (found.flags.contains "--check-blocks")
      (found.flags.contains "--stdout"), found.unrecognized)
  else if command = "inspect" then do
    let (operands, found) ← findings inspectGrammar arguments
    return (.inspect ((pathsOf operands).headD {}), found.unrecognized)
  else .error (.usage programName (.unknownCommand command))

def parse (arguments : List String) : Except Halt Invocation := do
  let (operands, found) ← findings programGrammar arguments
  let (invocation, unknown) ← invocationOf (operands.headD "") operands.tail
  match found.unrecognized ++ unknown with
  | [] => return invocation
  | unrecognized => .error (.usage programName (.unrecognized unrecognized))

end Linewise.Command
