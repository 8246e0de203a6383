import Linewise.Project
import Linewise.Proofs.Attempt
import Linewise.Proofs.Suffix

/-! # Loading settings

Loading breaks off, without a complaint that can be reported, in two ways: the project file cannot
be looked for because its name is too long, or it holds something else than a table where the
program looks for one. Settings that are loaded have an extension.
-/

namespace Linewise

def Value.IsTable (value : Value) : Prop :=
  ∃ entries, value = .table entries

namespace Project

variable {tree : FileTree} {path : FilePath} {overrides : Overrides} {fault : Fault}
  {octets : List UInt8} {source : String} {document entries : Entries Value} {given : Value}
  {settings : Settings}

/-- The entry of a table that a lookup gives; a missing entry counts as an empty table. -/
def entryOf (key : String) (entries : Entries Value) : Value :=
  (entries.get? key).getD (.table [])

/-- What is wrong with the shape of a project file: its tools, the entries for this program among
them, or the aliases among these are no table. -/
inductive Misshapen (document : Entries Value) : Fault → Prop
  | tools (h : ¬ (entryOf "tool" document).IsTable) :
    Misshapen document (.noTable (entryOf "tool" document))
  | entries {tools : Entries Value} (htools : entryOf "tool" document = .table tools)
    (h : ¬ (entryOf "linescript" tools).IsTable) :
    Misshapen document (.noTable (entryOf "linescript" tools))
  | aliases {tools entries : Entries Value} (htools : entryOf "tool" document = .table tools)
    (hentries : entryOf "linescript" tools = .table entries)
    (h : ¬ (entryOf "type_aliases" entries).IsTable) :
    Misshapen document (.noAliases (entryOf "type_aliases" entries))

theorem exists_misshapen_or (document : Entries Value) :
    (∃ fault, Misshapen document fault) ∨
      ∃ tools entries, entryOf "tool" document = .table tools ∧
        entryOf "linescript" tools = .table entries ∧ (entryOf "type_aliases" entries).IsTable := by
  by_cases htools : (entryOf "tool" document).IsTable
  · obtain ⟨tools, htools⟩ := htools
    by_cases hentries : (entryOf "linescript" tools).IsTable
    · obtain ⟨entries, hentries⟩ := hentries
      by_cases haliases : (entryOf "type_aliases" entries).IsTable
      · exact .inr ⟨tools, entries, htools, hentries, haliases⟩
      · exact .inl ⟨_, .aliases htools hentries haliases⟩
    · exact .inl ⟨_, .entries htools hentries⟩
  · exact .inl ⟨_, .tools htools⟩

inductive BreaksOff (tree : FileTree) (path : FilePath) : Fault → Prop
  | unreachable {name : String}
    (h : nearest? tree (tree.resolve path) = .error (.unreachable name .nameTooLong)) :
    BreaksOff tree path (.unreachable name .nameTooLong)
  | misshapen {directory : List String} {octets : List UInt8} {source : String}
    {document : Entries Value} {fault : Fault}
    (hfile : nearest? tree (tree.resolve path) = .ok (some (directory, octets)))
    (hsource : Text.Utf8.decode octets = .ok source)
    (hdocument : Toml.parse source = .ok document) (h : Misshapen document fault) :
    BreaksOff tree path fault

theorem eq_nameTooLong_of_fileIn? {directory : List String} {fault : FileFault}
    (h : fileIn? tree directory = .error fault) : fault = .nameTooLong := by
  rw [fileIn?] at h
  split at h
  · cases h
    rfl
  · split at h <;> cases h
    rfl

theorem fault_of_firstFile? {directories : List (List String)}
    (h : firstFile? tree directories = .error fault) :
    ∃ name, fault = .unreachable name .nameTooLong := by
  induction directories with
  | nil => cases h
  | cons directory rest ih =>
    rw [firstFile?] at h
    split at h
    · next hfile =>
      cases h
      exact ⟨_, by rw [eq_nameTooLong_of_fileIn? hfile]⟩
    · cases h
    · exact ih h

theorem fault_of_nearest? {place : Place} (h : nearest? tree place = .error fault) :
    ∃ name, fault = .unreachable name .nameTooLong := by
  cases place with
  | inside names => exact fault_of_firstFile? h
  | outside names => cases h

theorem lookup_table (key : String) (entries : Entries Value) :
    lookup key (.table entries) = .ok (entryOf key entries) := rfl

theorem lookup_of_not_isTable (key : String) (h : ¬ given.IsTable) :
    lookup key given = .error (.noTable given) := by
  cases given with
  | table entries => exact absurd ⟨entries, rfl⟩ h
  | _ => rfl

theorem entriesOf_of_not_isTable (h : ¬ given.IsTable) :
    entriesOf given = .error (.noAliases given) := by
  cases given with
  | table entries => exact absurd ⟨entries, rfl⟩ h
  | _ => rfl

theorem section?_of_document (hsource : Text.Utf8.decode octets = .ok source)
    (hdocument : Toml.parse source = .ok document) (name : String) :
    Project.section? name octets = lookup "linescript" (entryOf "tool" document) := by
  simp only [section?, hsource, hdocument]
  rfl

theorem refused_or_document (name : String) (octets : List UInt8) :
    (∃ fault, Project.section? name octets = .error fault ∧ fault.isInvalid = true) ∨
      ∃ source document, Text.Utf8.decode octets = .ok source ∧
        Toml.parse source = .ok document := by
  rw [Project.section?]
  split
  · exact .inl ⟨_, rfl, rfl⟩
  next source hsource =>
  split
  · exact .inl ⟨_, rfl, rfl⟩
  · exact .inl ⟨_, rfl, rfl⟩
  next document hdocument => exact .inr ⟨source, document, hsource, hdocument⟩

theorem combine_of_not_isTable (h : ¬ (entryOf "type_aliases" entries).IsTable) :
    combine entries overrides = .error (.noAliases (entryOf "type_aliases" entries)) := by
  have haliases := entriesOf_of_not_isTable h
  unfold entryOf at haliases
  rw [combine]
  simp only [haliases]
  rfl

/-- The value that is taken for the extension: a caller's that counts as given, that of the project
file, or the default. -/
def chosenExtension (entries : Entries Value) (overrides : Overrides) : Value :=
  if overrides.extension.isTruthy then overrides.extension
  else (entries.get? "output_extension").getD (.text ".ts")

def chosenCheckBlocks (entries : Entries Value) (overrides : Overrides) : Value :=
  match overrides.checkBlocks with
  | .null => (entries.get? "check_blocks").getD (.boolean false)
  | given => given

theorem combine_eq {base more : Entries Value}
    (hbase : entryOf "type_aliases" entries = .table base)
    (hmore : entriesOf (if overrides.aliases.isTruthy then overrides.aliases else .table []) =
      .ok more) :
    combine entries overrides =
      (Settings.ofValues (some (chosenExtension entries overrides))
        (some (.table (base.putAll more))) (some (chosenCheckBlocks entries overrides))).mapError
        .refused := by
  have hentries : entriesOf ((entries.get? "type_aliases").getD (.table [])) = .ok base := by
    change entriesOf (entryOf "type_aliases" entries) = _
    rw [hbase]
    rfl
  rw [combine, hentries, hmore, chosenExtension, chosenCheckBlocks]
  dsimp only [bind, Except.bind]
  cases Settings.ofValues _ _ _ <;> rfl

theorem isExtension_of_ofValues {extension aliases checkBlocks : Option Value}
    (h : Settings.ofValues extension aliases checkBlocks = .ok settings) :
    Settings.IsExtension settings.extension := by
  rw [Settings.ofValues] at h
  dsimp only at h
  split at h
  · next hextension _ _ =>
    cases h
    unfold Settings.readExtension at hextension
    split at hextension
    · exact Settings.isExtension_of_normalizeExtension hextension
    · cases hextension
  · cases h

theorem combine_of_isTable (hnone : overrides.aliases = .null)
    (h : (entryOf "type_aliases" entries).IsTable)
    (hfault : combine entries overrides = .error fault) : fault.isInvalid = true := by
  obtain ⟨base, hbase⟩ := h
  have hmore : entriesOf (if overrides.aliases.isTruthy then overrides.aliases else .table []) =
      .ok [] := by
    rw [hnone]
    rfl
  rw [combine_eq hbase hmore] at hfault
  cases hread : Settings.ofValues _ _ _ with
  | ok settings =>
    rw [hread] at hfault
    cases hfault
  | error complaints =>
    rw [hread] at hfault
    cases hfault
    rfl

theorem load_of_find {found : Found} (h : find tree path = .ok found) (overrides : Overrides) :
    load tree path overrides =
      match found.value with
      | .table entries => combine entries overrides
      | given => .error (.noTable given) := by
  rw [load, h]
  rfl

theorem load_of_find_error (h : find tree path = .error fault) (overrides : Overrides) :
    load tree path overrides = .error fault := by
  rw [load, h]
  rfl

theorem find_of_document {directory : List String} {tools : Entries Value}
    (hnull : path.hasNull = false)
    (hfile : nearest? tree (tree.resolve path) = .ok (some (directory, octets)))
    (hsource : Text.Utf8.decode octets = .ok source)
    (hdocument : Toml.parse source = .ok document)
    (htools : entryOf "tool" document = .table tools) :
    find tree path = .ok ⟨entryOf "linescript" tools, some directory⟩ := by
  rw [find, hnull, hfile]
  simp only [Bool.false_eq_true, if_false, section?_of_document hsource hdocument, htools,
    lookup_table]

theorem load_of_breaksOff (hnull : path.hasNull = false) (h : BreaksOff tree path fault)
    (overrides : Overrides) : load tree path overrides = .error fault := by
  cases h with
  | unreachable h =>
    refine load_of_find_error ?_ overrides
    rw [find, hnull, h]
    rfl
  | misshapen hfile hsource hdocument h =>
    cases h with
    | tools h =>
      refine load_of_find_error ?_ overrides
      rw [find, hnull, hfile]
      simp only [Bool.false_eq_true, if_false, section?_of_document hsource hdocument,
        lookup_of_not_isTable _ h]
    | entries htools h =>
      rw [load_of_find (find_of_document hnull hfile hsource hdocument htools)]
      split
      · next hentries => exact absurd ⟨_, hentries⟩ h
      · rfl
    | aliases htools hentries h =>
      rw [load_of_find (find_of_document hnull hfile hsource hdocument htools), hentries]
      exact combine_of_not_isTable h

/-- When a project file is found, loading gives a complaint or breaks off. -/
theorem isInvalid_or_breaksOff_of_file (hnone : overrides.aliases = .null)
    (hnull : path.hasNull = false) {directory : List String}
    (hfile : nearest? tree (tree.resolve path) = .ok (some (directory, octets)))
    (hload : load tree path overrides = .error fault) :
    fault.isInvalid = true ∨ BreaksOff tree path fault := by
  obtain ⟨refused, hrefused, hinvalid⟩ | ⟨source, document, hsource, hdocument⟩ :=
    refused_or_document (tree.fullName (directory ++ [fileName])) octets
  · have hfind : find tree path = .error refused := by
      rw [find, hnull, hfile]
      simp only [Bool.false_eq_true, if_false, hrefused]
    cases (load_of_find_error hfind overrides).symm.trans hload
    exact .inl hinvalid
  · obtain ⟨missed, hmissed⟩ | ⟨tools, entries, htools, hentries, haliases⟩ :=
      exists_misshapen_or document
    · have hbroken := BreaksOff.misshapen hfile hsource hdocument hmissed
      cases (load_of_breaksOff hnull hbroken overrides).symm.trans hload
      exact .inr hbroken
    · rw [load_of_find (find_of_document hnull hfile hsource hdocument htools), hentries] at hload
      exact .inl (combine_of_isTable hnone haliases hload)

theorem isInvalid_or_breaksOff (hnone : overrides.aliases = .null)
    (hload : load tree path overrides = .error fault) :
    fault.isInvalid = true ∨ path.hasNull = false ∧ BreaksOff tree path fault := by
  cases hnull : path.hasNull with
  | true =>
    have hfind : find tree path = .error (.unreachable path.toString .nullCharacter) := by
      rw [find, if_pos hnull]
    cases (load_of_find_error hfind overrides).symm.trans hload
    exact .inl rfl
  | false =>
    cases hfile : nearest? tree (tree.resolve path) with
    | error missed =>
      obtain ⟨name, rfl⟩ := fault_of_nearest? hfile
      cases (load_of_breaksOff hnull (.unreachable hfile) overrides).symm.trans hload
      exact .inr ⟨rfl, .unreachable hfile⟩
    | ok file? =>
      cases file? with
      | none =>
        have hfind : find tree path = .ok {} := by
          rw [find, hnull, hfile]
          rfl
        rw [load_of_find hfind] at hload
        exact .inl (combine_of_isTable hnone ⟨[], rfl⟩ hload)
      | some file =>
        have hfault := isInvalid_or_breaksOff_of_file hnone hnull hfile hload
        exact hfault.imp_right fun hbroken => ⟨rfl, hbroken⟩

/-- Loading breaks off exactly in these ways. Every other fault is a complaint: of a null character
in a path, of a project file that is no document, or of values that cannot be used. -/
theorem load_eq_error_iff (hnone : overrides.aliases = .null) :
    load tree path overrides = .error fault ∧ fault.isInvalid = false ↔
      path.hasNull = false ∧ BreaksOff tree path fault := by
  constructor
  · rintro ⟨hload, hvalid⟩
    exact (isInvalid_or_breaksOff hnone hload).resolve_left (by simp [hvalid])
  · rintro ⟨hnull, h⟩
    refine ⟨load_of_breaksOff hnull h overrides, ?_⟩
    cases h with
    | unreachable h => rfl
    | misshapen _ _ _ h => cases h <;> rfl

theorem isExtension_of_load (h : load tree path overrides = .ok settings) :
    Settings.IsExtension settings.extension := by
  rw [load] at h
  obtain ⟨found, -, h⟩ := Attempt.bind_eq_ok_iff.mp h
  split at h
  · rw [combine] at h
    obtain ⟨base, -, h⟩ := Attempt.bind_eq_ok_iff.mp h
    obtain ⟨more, -, h⟩ := Attempt.bind_eq_ok_iff.mp h
    dsimp only at h
    split at h
    · next hread =>
      cases h
      exact isExtension_of_ofValues hread
    · cases h
  · cases h

end Project
end Linewise
