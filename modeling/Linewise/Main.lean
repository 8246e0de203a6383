import Linewise.Command.Footprint

/-! # The program

The outer layer: it takes a snapshot of the files that a run looks at, runs on it,
and carries the outcome over to the file system, the console and the exit status.
-/

namespace Linewise.Command

def absoluteName (names : List String) : String :=
  "/" ++ "/".intercalate names

/-- What the file system holds at a place; what cannot be read counts as missing. -/
def probe (names : List String) : IO (Option FileEntry) := do
  try
    let octets ← IO.FS.readBinFile (absoluteName names)
    return some (.file octets.toList)
  catch fault =>
    match fault with
    | .inappropriateType none _ _ => return some .directory
    | _ => return none

def discover (tree : FileTree) (places : List (List String)) : IO FileTree := do
  let mut entries := tree.entries
  for names in places do
    unless entries.any fun e => e.1 = names do
      if let some entry ← probe names then entries := entries ++ [(names, entry)]
  return { tree with entries := entries }

def snapshot (tree : FileTree) (invocation : Invocation) : IO FileTree := do
  let tree ← discover tree
    (invocation.projectPlaces tree ++ invocation.sources.flatMap (route tree))
  discover tree ((invocation.targets tree).flatMap (route tree))

def realize (tree : FileTree) (effect : Effect) : IO UInt32 := do
  for (names, octets) in tree.changes effect.tree do
    IO.FS.writeBinFile (absoluteName names) (ByteArray.mk octets.toArray)
  match Console.Report.allLines effect.reports with
  | .ok lines => lines.forM IO.println
  | .error fault => IO.eprintln fault.message
  if let some breach := effect.broken then
    IO.eprintln breach.message
  return effect.status.toUInt32

end Linewise.Command

open Linewise.Command in
def main (arguments : List String) : IO UInt32 := do
  let here := (Linewise.FilePath.ofString (← IO.FS.realPath ".").toString).parts
  let bare : Linewise.FileTree := { workingDirectory := here, entries := [(here, .directory)] }
  let tree ← match parse arguments with
    | .ok invocation => snapshot bare invocation
    | .error _ => pure bare
  match run tree arguments with
  | .done effect => realize tree effect
  | .broken fault =>
    IO.eprintln fault.message
    return 1
  | .halted halt =>
    match halt with
    | .version => IO.println versionLine
    | .help grammar => IO.println (helpLine grammar)
    | .usage program fault => IO.eprintln (usageLine program fault)
    return halt.status.toUInt32
