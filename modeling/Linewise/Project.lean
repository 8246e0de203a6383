import Linewise.FileTree
import Linewise.Settings
import Linewise.Toml.Document

/-! # Settings of a project

The settings of a project stand in the nearest project file: the first one that is
found from a place upwards. Only that file counts, whether or not it has settings
for this program. Settings that a caller gives go before those of the file, and
aliases of both are put together.
-/

namespace Linewise.Project

def fileName : String := "pyproject.toml"

inductive Fault where
  /-- Some values cannot be used. -/
  | refused (complaints : List Complaint)
  /-- The project file with this full name is no TOML. -/
  | malformed (name : String) (flaw : Toml.Flaw) (position : Toml.Position)
  /-- The project file has a decimal number with this many digits, which are too many. -/
  | longNumber (digits : Nat)
  | undecodable (fault : Text.Utf8.Fault)
  /-- Settings are looked up in a value that is no table. -/
  | noTable (given : Value)
  /-- The aliases are given as a value that is no table. -/
  | noAliases (given : Value)
  /-- The file or directory with this name cannot be looked for. -/
  | unreachable (name : String) (fault : FileFault)
deriving Repr

def Fault.message : Fault → String
  | .refused complaints => Complaint.renderAll complaints
  | .malformed name flaw position =>
    "Invalid TOML in " ++ name ++ ": " ++ flaw.message ++ " (at " ++ position.render ++ ")"
  | .longNumber digits => Text.tooManyDigits digits
  | .undecodable fault => fault.message
  | .noTable given => "'" ++ given.fullTypeName ++ "' object has no attribute 'get'"
  | .noAliases given => "'" ++ given.fullTypeName ++ "' object is not a mapping"
  | .unreachable name fault => fault.message name

/-- Whether a fault lies in the values or the text of a project file, or in the characters of the
path that it is looked for from, and not in the shape of the file. -/
def Fault.isInvalid : Fault → Bool
  | .refused _ => true
  | .malformed .. => true
  | .longNumber _ => true
  | .undecodable _ => true
  | .unreachable _ fault => fault = .nullCharacter
  | _ => false

def fileIn? (tree : FileTree) (directory : List String) : Except FileFault (Option (List UInt8)) :=
  let names := directory ++ [fileName]
  if (tree.fullName names).utf8ByteSize ≥ FileTree.maxPathSize then .error .nameTooLong
  else
    match (tree.follow (.inside []) names).bind tree.readAt with
    | .ok octets => .ok (some octets)
    | .error .nameTooLong => .error .nameTooLong
    | .error _ => .ok none

def firstFile? (tree : FileTree) :
    List (List String) → Except Fault (Option (List String × List UInt8))
  | [] => .ok none
  | directory :: rest =>
    match fileIn? tree directory with
    | .error fault => .error (.unreachable (tree.fullName (directory ++ [fileName])) fault)
    | .ok (some octets) => .ok (some (directory, octets))
    | .ok none => firstFile? tree rest

def nearest? (tree : FileTree) : Place → Except Fault (Option (List String × List UInt8))
  | .inside names => firstFile? tree (FileTree.ancestors names)
  | .outside _ => .ok none

/-- The value of an entry of a table; a missing entry counts as an empty table. -/
def lookup (key : String) : Value → Except Fault Value
  | .table entries => .ok ((Entries.get? key entries).getD (.table []))
  | given => .error (.noTable given)

def section? (name : String) (octets : List UInt8) : Except Fault Value :=
  match Text.Utf8.decode octets with
  | .error fault => .error (.undecodable fault)
  | .ok source =>
    match Toml.parse source with
    | .error (.malformed flaw left) =>
      .error (.malformed name flaw (Toml.positionIn source left))
    | .error (.longNumber digits) => .error (.longNumber digits)
    | .ok document => do lookup "linescript" (← lookup "tool" (.table document))

structure Found where
  value : Value := .table []
  directory : Option (List String) := none
deriving Repr

def find (tree : FileTree) (path : FilePath) : Except Fault Found :=
  if path.hasNull then .error (.unreachable path.toString .nullCharacter)
  else
    match nearest? tree (tree.resolve path) with
    | .error fault => .error fault
    | .ok none => .ok {}
    | .ok (some (directory, octets)) =>
      match section? (tree.fullName (directory ++ [fileName])) octets with
      | .error fault => .error fault
      | .ok value => .ok ⟨value, some directory⟩

structure Overrides where
  extension : Value := .null
  aliases : Value := .null
  checkBlocks : Value := .null
deriving Repr

def entriesOf : Value → Except Fault (Entries Value)
  | .table entries => .ok entries
  | given => .error (.noAliases given)

/-- The settings that the entries of a project file and a caller's values give together. -/
def combine (entries : Entries Value) (overrides : Overrides) : Except Fault Settings := do
  let extension :=
    if overrides.extension.isTruthy then overrides.extension
    else (entries.get? "output_extension").getD (.text ".ts")
  let base ← entriesOf ((entries.get? "type_aliases").getD (.table []))
  let more ← entriesOf (if overrides.aliases.isTruthy then overrides.aliases else .table [])
  let checkBlocks :=
    match overrides.checkBlocks with
    | .null => (entries.get? "check_blocks").getD (.boolean false)
    | given => given
  let aliases := Value.table (base.putAll more)
  match Settings.ofValues (some extension) (some aliases) (some checkBlocks) with
  | .ok settings => .ok settings
  | .error complaints => .error (.refused complaints)

def load (tree : FileTree) (path : FilePath) (overrides : Overrides) : Except Fault Settings := do
  let found ← find tree path
  match found.value with
  | .table entries => combine entries overrides
  | given => .error (.noTable given)

end Linewise.Project
