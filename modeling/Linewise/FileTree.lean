import Linewise.FilePath
import Linewise.Text.Utf8

/-! # Trees of files

A tree of files is the part of a file system below its top directory, and has a
working directory. A relative path leads step by step from the working directory,
and every step starts from a directory. Outside the tree nothing is known to exist
except the directories that paths come through.
-/

namespace Linewise

inductive FileEntry where
  | file (octets : List UInt8)
  | directory
deriving DecidableEq, Repr

/-- The entries below a top directory, each with the steps that lead to it. The directories on the
way to an entry exist with it. -/
structure FileTree where
  /-- The full name of the top directory, empty for the root of the file system. -/
  home : String := ""
  /-- The steps from the top to the working directory. -/
  workingDirectory : List String := []
  entries : List (List String × FileEntry) := []
deriving DecidableEq, Repr

inductive FileFault where
  | missing
  | notDirectory
  | isDirectory
  | nameTooLong
  /-- The path has a null character and is not even looked for. -/
  | nullCharacter
deriving DecidableEq, Repr

namespace FileFault

def number? : FileFault → Option Nat
  | missing => some 2
  | notDirectory => some 20
  | isDirectory => some 21
  | nameTooLong => some 36
  | nullCharacter => none

def reason : FileFault → String
  | missing => "No such file or directory"
  | notDirectory => "Not a directory"
  | isDirectory => "Is a directory"
  | nameTooLong => "File name too long"
  | nullCharacter => "embedded null byte"

def message (fault : FileFault) (path : String) : String :=
  match fault.number? with
  | some number =>
    "[Errno " ++ toString number ++ "] " ++ fault.reason ++ ": " ++ Text.quote path
  | none => fault.reason

end FileFault

/-- A place in the file system, given by steps that all lead downwards. -/
inductive Place where
  /-- Below the top directory of the tree. -/
  | inside (names : List String)
  /-- Below a directory that is not in the tree. -/
  | outside (names : List String)
deriving DecidableEq, Repr

namespace FileTree

/-- Whether the top directory of the tree has no directory above it. -/
def isWhole (tree : FileTree) : Bool :=
  tree.home = ""

/-- The place one step further. The root of the file system is the parent of itself. -/
def enter (tree : FileTree) (place : Place) (step : String) : Place :=
  if step = ".." then
    match place with
    | .inside [] => if tree.isWhole then .inside [] else .outside []
    | .inside names => .inside names.dropLast
    | .outside names => .outside names.dropLast
  else
    match place with
    | .inside names => .inside (names ++ [step])
    | .outside names => .outside (names ++ [step])

def find? (tree : FileTree) (names : List String) : Option FileEntry :=
  (tree.entries.find? fun e => e.1 = names).map Prod.snd

/-- Whether a directory stands at a place: by itself, or because something lies below it. -/
def isDirectory (tree : FileTree) (names : List String) : Bool :=
  names = [] || tree.find? names = some .directory ||
    tree.entries.any fun e => names.isPrefixOf e.1 && e.1.length != names.length

def entry? (tree : FileTree) : Place → Option FileEntry
  | .inside names => if tree.isDirectory names then some .directory else tree.find? names
  | .outside [] => some .directory
  | .outside _ => none

/-- The most octets of a step, and the octets that a whole path stays below. -/
def maxNameSize : Nat := 255

def maxPathSize : Nat := 4096

def start (tree : FileTree) (path : FilePath) : Place :=
  if path.root = .relative then .inside tree.workingDirectory
  else if tree.isWhole then .inside []
  else .outside []

/-- The place that a path names when every step is taken to exist. -/
def resolve (tree : FileTree) (path : FilePath) : Place :=
  path.parts.foldl tree.enter (tree.start path)

/-- Follow the steps from a place. The last step need not exist. -/
def follow (tree : FileTree) (place : Place) : List String → Except FileFault Place
  | [] => .ok place
  | step :: rest =>
    match tree.entry? place with
    | none => .error .missing
    | some (.file _) => .error .notDirectory
    | some .directory =>
      if step.utf8ByteSize > maxNameSize then .error .nameTooLong
      else tree.follow (tree.enter place step) rest

def locate (tree : FileTree) (path : FilePath) : Except FileFault Place :=
  if path.hasNull then .error .nullCharacter
  else if path.toString.utf8ByteSize ≥ maxPathSize then .error .nameTooLong
  else tree.follow (tree.start path) path.parts

def readAt (tree : FileTree) (place : Place) : Except FileFault (List UInt8) :=
  match tree.entry? place with
  | none => .error .missing
  | some .directory => .error .isDirectory
  | some (.file octets) => .ok octets

def read (tree : FileTree) (path : FilePath) : Except FileFault (List UInt8) :=
  (tree.locate path).bind tree.readAt

def put (tree : FileTree) (names : List String) (octets : List UInt8) : FileTree :=
  if tree.entries.any fun e => e.1 = names then
    { tree with
      entries := tree.entries.map fun e => if e.1 = names then (names, .file octets) else e }
  else { tree with entries := tree.entries ++ [(names, .file octets)] }

/-- Write a file; its directory must exist. -/
def write (tree : FileTree) (path : FilePath) (octets : List UInt8) : Except FileFault FileTree :=
  match tree.locate path with
  | .error fault => .error fault
  | .ok place =>
    match tree.entry? place, place with
    | some .directory, _ => .error .isDirectory
    | _, .inside names => .ok (tree.put names octets)
    | _, .outside _ => .error .missing

/-- The files that are new in a later tree, or hold other octets in it. -/
def changes (before after : FileTree) : List (List String × List UInt8) :=
  after.entries.filterMap fun e =>
    match e.2 with
    | .file octets =>
      if before.find? e.1 = some (.file octets) then none else some (e.1, octets)
    | .directory => none

def ancestors (names : List String) : List (List String) :=
  ((List.range (names.length + 1)).map names.take).reverse

def fullName (tree : FileTree) (names : List String) : String :=
  "/".intercalate (tree.home :: names)

end FileTree
end Linewise
