import Linewise.Proofs.Descent
import Linewise.Proofs.Ending
import Linewise.Proofs.Overrides

/-! # Writing beside the source

An extension that is accepted gives every path with a name an output path in the same directory, so
that no conversion fails for its suffix or writes anywhere else. What the file system refuses in a
name, such as a null character, is left to the writing.
-/

namespace Linewise.Command

open Settings

variable {settings : Settings} {tree : FileTree} {path : FilePath} {extension name : String}

/-- What makes an extension safe: its form, which is left as it is when it is read again, and the
path that it gives in place of each path with a name. -/
structure IsSafe (extension : String) : Prop where
  isExtension : IsExtension extension
  trimmed : Text.strip extension.toList = extension.toList
  stable : normalizeExtension extension = .ok extension
  beside : ∀ path name, FilePath.name? path = some name →
    ∃ output stem, outputPath path extension = .ok output ∧ output.parent = path.parent ∧
      FilePath.IsStem name stem ∧ output.name? = some (stem ++ extension)

theorem outputPath_of_isExtension (h : IsExtension extension) (hname : path.name? = some name) :
    outputPath path extension =
      .ok { path with parts := path.parts.dropLast ++ [FilePath.stem name ++ extension] } :=
  FilePath.withSuffix_eq_ok_iff.mpr ⟨h.isSuffix, name, hname, rfl⟩

theorem append_extension_ne_up (h : IsExtension extension) (stem : String) :
    stem ++ extension ≠ ".." := by
  obtain ⟨c, hc, hdot⟩ := h.named
  intro hup
  have hmem : c ∈ "..".toList := by
    rw [← hup, String.toList_append]
    exact List.mem_append_right _ hc
  exact hdot (by simpa using hmem)

theorem isSafe_of_isExtension (h : IsExtension extension) : IsSafe extension where
  isExtension := h
  trimmed := h.strip_eq
  stable := h.normalizeExtension_eq
  beside path name hname := by
    refine ⟨_, _, outputPath_of_isExtension h hname, ?_, FilePath.isStem_stem name, ?_⟩
    · simp [FilePath.parent]
    · simp [FilePath.name?]

/-- The place where the output of a path is written lies right in the directory of the path. -/
theorem exists_directory_of_isWritable {output : FilePath} {names : List String}
    (h : IsExtension extension) (houtput : outputPath path extension = .ok output)
    (hwritable : tree.IsWritable output names) :
    ∃ directory last, tree.resolve path.parent = .inside directory ∧
      output.name? = some last ∧ names = directory ++ [last] := by
  obtain ⟨-, name, hname, rfl⟩ := FilePath.withSuffix_eq_ok_iff.mp houtput
  have hlast : FilePath.name? { path with
      parts := path.parts.dropLast ++ [FilePath.stem name ++ extension] } =
        some (FilePath.stem name ++ extension) := by simp [FilePath.name?]
  have hplace := FileTree.resolve_of_locate hwritable.locate_eq
  rw [FileTree.resolve_eq_enter hlast] at hplace
  obtain ⟨directory, hdirectory, hnames⟩ :=
    FileTree.exists_of_enter_eq_inside (append_extension_ne_up h _) hplace
  refine ⟨directory, _, ?_, hlast, hnames⟩
  simpa [FilePath.parent] using hdirectory

/-- A text is refused as an extension or gives a safe one. Settings that are loaded have a safe
extension: every source that is read has an output path under them, and all that its conversion
writes is the entry of that path's name in the directory of the source. -/
theorem extensions_stay_beside :
    (∀ given, (∃ cause, normalizeExtension given = .error cause) ∨
      ∃ extension, normalizeExtension given = .ok extension ∧ IsSafe extension) ∧
    ∀ tree path overrides settings, Project.load tree path overrides = .ok settings →
      IsSafe settings.extension ∧
      ∀ (files : FileTree) source,
        (∀ text, files.isDirectory files.workingDirectory = true →
          readSource files source = .ok text →
            ∃ output, outputPath source settings.extension = .ok output) ∧
        ∀ toStdout conversion, convertFile settings toStdout files source = .ok conversion →
          conversion.tree = files ∨ ∃ output directory last octets,
            outputPath source settings.extension = .ok output ∧
              files.resolve source.parent = .inside directory ∧ output.name? = some last ∧
                conversion.tree = files.put (directory ++ [last]) octets := by
  constructor
  · intro given
    cases hgiven : normalizeExtension given with
    | error cause => exact .inl ⟨cause, rfl⟩
    | ok extension =>
      exact .inr ⟨extension, rfl, isSafe_of_isExtension (isExtension_of_normalizeExtension hgiven)⟩
  · intro tree path overrides settings hload
    have h := Project.isExtension_of_load hload
    refine ⟨isSafe_of_isExtension h, fun files source => ⟨fun text hplace hsource => ?_,
      fun toStdout conversion hconversion => ?_⟩⟩
    · exact exists_outputPath h.isSuffix hplace hsource
    · rcases tree_of_convertFile hconversion with
        hkept | ⟨-, output, names, octets, houtput, hwritable, hput⟩
      · exact .inl hkept
      · obtain ⟨directory, last, hdirectory, hlast, rfl⟩ :=
          exists_directory_of_isWritable h houtput hwritable
        exact .inr ⟨output, directory, last, octets, houtput, hdirectory, hlast, hput⟩

/-- Blanks around an extension are dropped, the dots in it are kept, and so is the one in front of a
name. -/
theorem extensions_stay_beside_dotted :
    let tree := Project.topProject "[tool.linescript]\noutput_extension = \" d.ts \"\n"
    let settings : Settings := { extension := ".d.ts" }
    Project.load tree {} {} = .ok settings ∧ IsSafe settings.extension ∧
      outputPath (.ofString "src//.profile") settings.extension =
        .ok (.ofString "src/.profile.d.ts") := by
  intro tree settings
  have hdocument : Toml.parse "[tool.linescript]\noutput_extension = \" d.ts \"\n" =
      .ok [("tool", .table [("linescript", .table [("output_extension", .text " d.ts ")])])] := by
    cbv
  have hload : Project.load tree {} {} = .ok settings := by
    rw [Project.load_of_find (Project.find_topProject hdocument rfl)]
    rfl
  exact ⟨hload, (extensions_stay_beside.2 tree {} {} settings hload).1, by decide⟩

end Linewise.Command
