import Linewise.Console.Report
import Linewise.Project
import Linewise.Translator

/-! # Converting files

Each source file is read as a whole, translated, and written beside itself under
the suffix of the settings. A file that fails is reported, and the others are still
converted. Every listed path has one result, the one of its last conversion. Only
two things break the command off: a path that no file can have, since there is a
null character in it, and a path that cannot be given the suffix.
-/

namespace Linewise.Command

open Console

inductive Breach where
  | nullCharacter (path : FilePath)
  | suffix (fault : FilePath.SuffixFault)
deriving DecidableEq, Repr

def Breach.message : Breach → String
  | .nullCharacter path => FileFault.nullCharacter.message path.toString
  | .suffix fault => fault.message

structure Effect where
  tree : FileTree
  /-- Zero if all went well. -/
  status : Nat
  reports : List Report
  broken : Option Breach := none
deriving Repr

def outputPath (path : FilePath) (extension : String) : Except FilePath.SuffixFault FilePath :=
  path.withSuffix extension

def shownPath (path : FilePath) : String :=
  "[path]" ++ escape path.toString ++ "[/path]"

def failureMessage (deed : String) (path : FilePath) (issue : String) : String :=
  "Failed to " ++ deed ++ " " ++ shownPath path ++ ": " ++ escape issue

def readSource (tree : FileTree) (path : FilePath) : Except String String :=
  match tree.read path with
  | .error fault => .error (fault.message path.toString)
  | .ok octets =>
    match Text.Utf8.readSource octets with
    | .error fault => .error fault.message
    | .ok text => .ok text

/-- One conversion: the tree after it, what it reports, and the issue that made it fail. -/
structure Conversion where
  tree : FileTree
  report : Report
  issue : Option String := none
deriving Repr

def writeCode (tree : FileTree) (path : FilePath) (extension code : String) :
    Except Breach Conversion :=
  match outputPath path extension with
  | .error fault => .error (.suffix fault)
  | .ok output =>
    if output.hasNull then .error (.nullCharacter output)
    else
      match tree.write output (Text.Utf8.encode code) with
      | .error fault =>
        let issue := fault.message output.toString
        .ok ⟨tree, .record .error (failureMessage "write" output issue), some issue⟩
      | .ok tree =>
        .ok ⟨tree,
          .record .success ("Transpiled: " ++ shownPath path ++ " -> " ++ shownPath output), none⟩

def convertFile (settings : Settings) (toStdout : Bool) (tree : FileTree) (path : FilePath) :
    Except Breach Conversion :=
  if path.hasNull then .error (.nullCharacter path)
  else
    match readSource tree path with
    | .error issue =>
      .ok ⟨tree, .record .error (failureMessage "read" path issue), some issue⟩
    | .ok text =>
      match Translator.translate settings text with
      | .error fault =>
        .ok ⟨tree, .record .error (failureMessage "convert" path fault.message),
          some fault.message⟩
      | .ok code =>
        if toStdout then .ok ⟨tree, .code code, none⟩
        else writeCode tree path settings.extension code

/-- What has become of a list of files: the tree, the reports so far, and the last issue of each
path, if it has one. -/
structure Batch where
  tree : FileTree
  reports : List Report := []
  results : Entries (Option String) := []
  broken : Option Breach := none
deriving Repr

def Batch.step (settings : Settings) (toStdout : Bool) (batch : Batch) (path : FilePath) : Batch :=
  match batch.broken with
  | some _ => batch
  | none =>
    match convertFile settings toStdout batch.tree path with
    | .error breach => { batch with broken := some breach }
    | .ok conversion =>
      { tree := conversion.tree
        reports := batch.reports ++ [conversion.report]
        results := batch.results.put path.toString conversion.issue }

def Batch.failures (batch : Batch) : List (String × String) :=
  batch.results.filterMap fun r => r.2.map (r.1, ·)

def Batch.success (batch : Batch) : Bool :=
  batch.broken = none && batch.failures = []

def Batch.summary (batch : Batch) : List Report :=
  let total := toString batch.results.length
  match batch.failures with
  | [] => [.record .success ("Batch Complete: " ++ total ++ "/" ++ total ++ " files converted.")]
  | failures =>
    [.table ⟨"Transpilation Report",
      [⟨"File", .left, failures.map fun f => escape f.1⟩,
        ⟨"Issues", .left, failures.map fun f => escape f.2⟩]⟩,
      .markup ("\n[bold]Summary:[/bold] " ++
        toString (batch.results.length - failures.length) ++ " Passed, " ++
        toString failures.length ++ " Failed.")]

def convertAll (settings : Settings) (toStdout : Bool) (tree : FileTree) (paths : List FilePath) :
    Effect :=
  let opening :=
    if paths.length > 1 ∧ !toStdout then
      [Report.record .info ("Processing " ++ toString paths.length ++ " files...")]
    else []
  let batch := paths.foldl (Batch.step settings toStdout) { tree := tree }
  let closing :=
    if batch.broken.isSome || toStdout && batch.success then [] else batch.summary
  { tree := batch.tree
    status := if batch.success then 0 else 1
    reports := opening ++ batch.reports ++ closing
    broken := batch.broken }

/-- The settings for a list of files: those of the first one's project, with the given values before
them. -/
def settingsFor (tree : FileTree) (paths : List FilePath) (extension : Option String)
    (checkBlocks : Bool) : Except Project.Fault Settings :=
  Project.load tree (paths.headD {}).parent
    { extension := (extension.map Value.text).getD .null
      checkBlocks := if checkBlocks then .boolean true else .null }

/-- Convert files under the settings for them. Settings that cannot be used are reported; a project
file of the wrong shape stops the command. -/
def convert (tree : FileTree) (paths : List FilePath) (extension : Option String)
    (checkBlocks toStdout : Bool) : Except Project.Fault Effect :=
  match settingsFor tree paths extension checkBlocks with
  | .ok settings => .ok (convertAll settings toStdout tree paths)
  | .error fault =>
    if fault.isInvalid then
      .ok { tree, status := 1
            reports := [.record .error ("Invalid configuration: " ++ escape fault.message)] }
    else .error fault

end Linewise.Command
