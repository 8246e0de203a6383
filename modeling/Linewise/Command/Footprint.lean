import Linewise.Command.Run

/-! # The footprint of a run

A run looks at few places of a tree: the project files above its first source, the
places on the way to each source, and the places that it may write. A tree that
holds what stands there is enough to run on.
-/

namespace Linewise.Command

/-- The places below the top on the way along a path, its end included. -/
def route (tree : FileTree) (path : FilePath) : List (List String) :=
  (List.range (path.parts.length + 1)).filterMap fun n =>
    match tree.resolve { path with parts := path.parts.take n } with
    | .inside names => some names
    | .outside _ => none

namespace Invocation

def sources : Invocation → List FilePath
  | convert paths _ _ _ => paths
  | inspect path => [path]

/-- The places where a command looks for project files, and the way to them. -/
def projectPlaces (tree : FileTree) : Invocation → List (List String)
  | convert paths _ _ _ =>
    match tree.resolve (paths.headD {}).parent with
    | .inside names => (FileTree.ancestors names).map (· ++ [Project.fileName])
    | .outside _ => []
  | inspect _ => []

def targets (tree : FileTree) : Invocation → List FilePath
  | convert paths extension checkBlocks false =>
    match settingsFor tree paths extension checkBlocks with
    | .ok settings => paths.filterMap fun path => (outputPath path settings.extension).toOption
    | .error _ => []
  | _ => []

end Invocation
end Linewise.Command
