import Linewise.Text.Blank
import Linewise.Value

/-! # Settings of a translation

The settings are the suffix of written files, further aliases of type names and
whether blocks are checked. They are read from untyped values. All values that
cannot be used are reported together, each as a complaint about one place and
without a link to an explanation.
-/

namespace Linewise

structure Settings where
  extension : String := ".ts"
  aliases : Entries String := []
  checkBlocks : Bool := false
deriving DecidableEq, Repr

inductive Complaint.Cause where
  /-- The suffix has no character besides dots and blanks. -/
  | emptyExtension
  /-- The suffix, here without blanks at its ends, would leave the directory of its file. -/
  | separatorInExtension (stripped : String)
  | notText
  | notTable
  /-- A whole number of 64 bits or a text that stands for neither truth value. -/
  | unreadableFlag
  | notFlag
deriving DecidableEq, Repr

structure Complaint where
  place : List String
  cause : Complaint.Cause
  given : Value
deriving Repr

namespace Complaint

def Cause.code : Cause → String
  | .emptyExtension => "value_error"
  | .separatorInExtension _ => "value_error"
  | .notText => "string_type"
  | .notTable => "dict_type"
  | .unreadableFlag => "bool_parsing"
  | .notFlag => "bool_type"

def Cause.message : Cause → String
  | .emptyExtension => "Value error, output_extension must not be empty"
  | .separatorInExtension stripped =>
    "Value error, Invalid output_extension: '" ++ stripped ++ "'"
  | .notText => "Input should be a valid string"
  | .notTable => "Input should be a valid dictionary"
  | .unreadableFlag => "Input should be a valid boolean, unable to interpret input"
  | .notFlag => "Input should be a valid boolean"

/-- A step of a place; one with a dot is set apart. -/
def placeStep (step : String) : String :=
  if step.toList.contains '.' then "\x60" ++ step ++ "\x60" else step

/-- A complaint in two lines: the place, and the cause with the value. -/
def render (complaint : Complaint) : String :=
  ".".intercalate (complaint.place.map placeStep) ++ "\n  " ++ complaint.cause.message ++
    " [type=" ++ complaint.cause.code ++ ", input_value=" ++
    complaint.given.shown ++ ", input_type=" ++ complaint.given.typeName ++ "]"

def renderAll (complaints : List Complaint) : String :=
  toString complaints.length ++
    (if complaints.length = 1 then " validation error" else " validation errors") ++
    " for RuntimeConfig\n" ++ "\n".intercalate (complaints.map render)

end Complaint

namespace Settings

/-- The suffix that a text names: without blanks at its ends, and with a leading dot. -/
def normalizeExtension (given : String) : Except Complaint.Cause String :=
  let stripped := Text.strip given.toList
  if stripped.all (· == '.') then .error .emptyExtension
  else if stripped.contains '/' || stripped.contains '\\' then
    .error (.separatorInExtension (String.ofList stripped))
  else if stripped.head? = some '.' then .ok (String.ofList stripped)
  else .ok (String.ofList ('.' :: stripped))

def readExtension : Value → Except Complaint.Cause String
  | .text s => normalizeExtension s
  | _ => .error .notText

def trueWords : List String := ["1", "on", "t", "true", "y", "yes"]

def falseWords : List String := ["0", "off", "f", "false", "n", "no"]

def limit64 : Int := 0x8000000000000000

/-- A whole number of 64 bits stands for a truth value if it is zero or one. -/
def readNumericFlag (i : Int) : Except Complaint.Cause Bool :=
  if i = 1 then .ok true else if i = 0 then .ok false else .error .unreadableFlag

/-- The truth value that a value stands for; letters count in either case. A number of more than 64
bits or with a fraction is not taken for a truth value at all, and a real number at the lower end of
the 64 bits is neither. -/
def readFlag : Value → Except Complaint.Cause Bool
  | .boolean b => .ok b
  | .integer i => if -limit64 ≤ i ∧ i < limit64 then readNumericFlag i else .error .notFlag
  | .real d =>
    match Double.whole? d with
    | some i => if -limit64 < i ∧ i < limit64 then readNumericFlag i else .error .notFlag
    | none => .error .notFlag
  | .text s =>
    let word := String.ofList (s.toList.map Char.toLower)
    if word ∈ trueWords then .ok true
    else if word ∈ falseWords then .ok false
    else .error .unreadableFlag
  | _ => .error .notFlag

/-- The aliases of a table, or a complaint for each alias that is no text. -/
def readAliasEntries : List (String × Value) → Entries String × List Complaint
  | [] => ([], [])
  | (key, .text name) :: rest =>
    let (aliases, complaints) := readAliasEntries rest
    ((key, name) :: aliases, complaints)
  | (key, given) :: rest =>
    let (aliases, complaints) := readAliasEntries rest
    (aliases, ⟨["type_aliases", key], .notText, given⟩ :: complaints)

def readAliases : Value → Entries String × List Complaint
  | .table entries => readAliasEntries entries
  | given => ([], [⟨["type_aliases"], .notTable, given⟩])

def complaintsOf {α : Type} (place : String) (given : Value) :
    Except Complaint.Cause α → List Complaint
  | .ok _ => []
  | .error cause => [⟨[place], cause, given⟩]

/-- Read the settings from values; a value that is not given leaves its default. -/
def ofValues (extension aliases checkBlocks : Option Value) : Except (List Complaint) Settings :=
  let givenExtension := extension.getD (.text ".ts")
  let givenFlag := checkBlocks.getD (.boolean false)
  let readExt := readExtension givenExtension
  let (aliasEntries, aliasComplaints) := readAliases (aliases.getD (.table []))
  let readCheck := readFlag givenFlag
  match readExt, aliasComplaints, readCheck with
  | .ok ext, [], .ok check => .ok ⟨ext, aliasEntries, check⟩
  | _, _, _ =>
    .error (complaintsOf "output_extension" givenExtension readExt ++ aliasComplaints ++
      complaintsOf "check_blocks" givenFlag readCheck)

/-- Settings that are given as named values; other names are ignored. -/
def ofEntries (given : Entries Value) : Except (List Complaint) Settings :=
  ofValues (given.get? "output_extension") (given.get? "type_aliases") (given.get? "check_blocks")

end Settings
end Linewise
