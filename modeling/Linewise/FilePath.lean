import Linewise.Text.Lines
import Linewise.Text.Quoted

/-! # Paths of files

A path is read without its empty steps and without the steps that stay in place,
so each path has one normal form; steps to the parent directory are kept. The
suffix of a path begins at the last dot of its name, unless that dot is the first
or the last character of the name.
-/

namespace Linewise

/-- Where a path begins; exactly two leading slashes are kept apart from one. -/
inductive PathRoot where
  | relative
  | absolute
  | network
deriving DecidableEq, Repr

def PathRoot.toString : PathRoot → String
  | .relative => ""
  | .absolute => "/"
  | .network => "//"

structure FilePath where
  root : PathRoot := .relative
  parts : List String := []
deriving DecidableEq, Repr

namespace FilePath

def rootOf : List Char → PathRoot
  | ['/', '/'] => .network
  | '/' :: '/' :: c :: _ => if c = '/' then .absolute else .network
  | '/' :: _ => .absolute
  | _ => .relative

def ofString (s : String) : FilePath :=
  { root := rootOf s.toList
    parts := ((Text.divide (· == '/') s.toList).map String.ofList).filter fun part =>
      part ≠ "" ∧ part ≠ "." }

def toString (path : FilePath) : String :=
  if path = {} then "." else path.root.toString ++ "/".intercalate path.parts

/-- Whether a path has a null character, so that no file can have it. -/
def hasNull (path : FilePath) : Bool :=
  path.parts.any fun part => part.contains '\x00'

def name? (path : FilePath) : Option String :=
  path.parts.getLast?

def parent (path : FilePath) : FilePath :=
  { path with parts := path.parts.dropLast }

def stem (name : String) : String :=
  let suffix := (name.toList.reverse.takeWhile (· ≠ '.')).reverse
  let before := (name.toList.reverse.dropWhile (· ≠ '.')).reverse
  if suffix = [] ∨ before.length ≤ 1 then name else String.ofList before.dropLast

inductive SuffixFault where
  | invalidSuffix (suffix : String)
  | noName (path : FilePath)
deriving DecidableEq, Repr

def SuffixFault.message : SuffixFault → String
  | .invalidSuffix suffix => "Invalid suffix " ++ Text.quote suffix
  | .noName path => "PosixPath(" ++ Text.quote path.toString ++ ") has an empty name"

/-- Suffixes begin with a dot, have more than that, and hold no slash; the empty suffix is one. -/
def isSuffix (suffix : String) : Bool :=
  !suffix.toList.contains '/' && (suffix = "" || (suffix.toList.head? = some '.' && suffix ≠ "."))

/-- The path with its suffix replaced, or with the suffix added when it has none. -/
def withSuffix (path : FilePath) (suffix : String) : Except SuffixFault FilePath :=
  if isSuffix suffix then
    match path.name? with
    | none => .error (.noName path)
    | some name => .ok { path with parts := path.parts.dropLast ++ [stem name ++ suffix] }
  else .error (.invalidSuffix suffix)

end FilePath
end Linewise
