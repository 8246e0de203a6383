import Linewise.Command.Convert
import Linewise.Describe

/-! # Inspecting a file

The statements of a source file are listed in a table, each with its line and its
fields. Blocks are not checked and nothing is written.
-/

namespace Linewise.Command

open Console

def statementTable (title : String) (program : Program) : Table :=
  let entries := program.numbered
  ⟨title,
    [⟨"Line", .right, entries.map fun e => toString e.1⟩,
      ⟨"Kind", .left, entries.map fun e => e.2.kind.name⟩,
      ⟨"Fields", .left, entries.map fun e => escape e.2.describe⟩]⟩

def inspect (tree : FileTree) (path : FilePath) : Effect :=
  if path.hasNull then { tree, status := 1, reports := [], broken := some (.nullCharacter path) }
  else
    let failed deed issue : Effect :=
      { tree, status := 1, reports := [.record .error (failureMessage deed path issue)] }
    match readSource tree path with
    | .error issue => failed "read" issue
    | .ok text =>
      match Program.ofText text with
      | .error fault => failed "parse" fault.message
      | .ok program =>
        let warning :=
          if program.statements = [] then
            [Report.record .warning ("No statements found in " ++ shownPath path)]
          else []
        { tree, status := 0
          reports := warning ++ [.table (statementTable (escape path.toString) program)] }

end Linewise.Command
