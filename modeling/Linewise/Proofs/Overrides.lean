import Linewise.Proofs.Entries
import Linewise.Proofs.Loading
import Linewise.Proofs.Utf8
import Mathlib

/-! # Settings that a caller gives

Each setting that a caller gives goes before the one of the project file, which counts only where
the caller gives none, and the aliases of both are laid over each other. There is one exception: an
empty extension counts as not given.
-/

namespace Linewise

namespace Settings

variable {extension aliases checkBlocks : Value} {cause : Complaint.Cause}

theorem ofValues_of_extension_error (h : readExtension extension = .error cause)
    (aliases checkBlocks : Value) :
    ofValues (some extension) (some aliases) (some checkBlocks) =
      .error (⟨["output_extension"], cause, extension⟩ :: ((readAliases aliases).2 ++
        complaintsOf "check_blocks" checkBlocks (readFlag checkBlocks))) := by
  simp only [ofValues, Option.getD_some, h, complaintsOf, List.cons_append, List.nil_append]

theorem complaints_of_extension_ok {suffix : String} {complaints : List Complaint}
    (h : readExtension extension = .ok suffix)
    (hread : ofValues (some extension) (some aliases) (some checkBlocks) = .error complaints) :
    complaints = (readAliases aliases).2 ++
      complaintsOf "check_blocks" checkBlocks (readFlag checkBlocks) := by
  simp only [ofValues, Option.getD_some, h, complaintsOf, List.nil_append] at hread
  split at hread
  · cases hread
  · exact (Except.error.inj hread).symm

theorem readExtension_empty : readExtension (.text "") = .error .emptyExtension := by decide

theorem eq_empty_of_ofValues_eq
    (h : ofValues (some extension) (some aliases) (some checkBlocks) =
      ofValues (some (.text "")) (some aliases) (some checkBlocks)) : extension = .text "" := by
  rw [ofValues_of_extension_error readExtension_empty] at h
  cases hextension : readExtension extension with
  | ok suffix =>
    have hlength := congrArg List.length (complaints_of_extension_ok hextension h)
    simp at hlength
  | error cause =>
    rw [ofValues_of_extension_error hextension] at h
    exact (Complaint.mk.inj (List.cons.inj (Except.error.inj h)).1).2.2

end Settings

namespace Project

variable {tree : FileTree} {path : FilePath} {found : Found} {source : String}
  {document tools entries base : Entries Value}

/-- Settings that a caller gives, each of which may be left out; no key has two aliases. -/
structure Given where
  extension : Option String := none
  aliases : Option (Entries String) := none
  checkBlocks : Option Bool := none
  nodup : ∀ entries ∈ aliases, (Entries.keys entries).Nodup := by decide

namespace Given

def aliasEntries (given : Given) : Entries Value :=
  (given.aliases.getD []).map fun e => (e.1, .text e.2)

def overrides (given : Given) : Overrides where
  extension := (given.extension.map Value.text).getD .null
  aliases := if given.aliases = none then .null else .table given.aliasEntries
  checkBlocks := (given.checkBlocks.map Value.boolean).getD .null

def extensionOver (given : Given) (entries : Entries Value) : Value :=
  match given.extension with
  | some extension => .text extension
  | none => (entries.get? "output_extension").getD (.text ".ts")

def checkBlocksOver (given : Given) (entries : Entries Value) : Value :=
  match given.checkBlocks with
  | some checkBlocks => .boolean checkBlocks
  | none => (entries.get? "check_blocks").getD (.boolean false)

/-- The settings that come of a caller's values before those of the project file, or the complaints
about these values. -/
def settingsOver (given : Given) (entries base : Entries Value) : Except Fault Settings :=
  (Settings.ofValues (some (given.extensionOver entries))
    (some (.table (base.overlay given.aliasEntries)))
    (some (given.checkBlocksOver entries))).mapError .refused

theorem nodup_aliasEntries (given : Given) : (Entries.keys given.aliasEntries).Nodup := by
  have hkeys : Entries.keys given.aliasEntries = Entries.keys (given.aliases.getD []) :=
    Entries.keys_mapValues Value.text _
  rw [hkeys]
  cases haliases : given.aliases with
  | none => exact List.nodup_nil
  | some entries => exact given.nodup entries haliases

theorem entriesOf_overrides (given : Given) :
    entriesOf (if given.overrides.aliases.isTruthy then given.overrides.aliases else .table []) =
      .ok given.aliasEntries := by
  obtain ⟨extension, aliases, checkBlocks, nodup⟩ := given
  rcases aliases with _ | _ | ⟨e, entries⟩ <;> rfl

theorem chosenCheckBlocks_overrides (given : Given) (entries : Entries Value) :
    chosenCheckBlocks entries given.overrides = given.checkBlocksOver entries := by
  obtain ⟨extension, aliases, checkBlocks, nodup⟩ := given
  cases checkBlocks <;> rfl

theorem chosenExtension_overrides (given : Given) (entries : Entries Value)
    (h : given.extension ≠ some "") :
    chosenExtension entries given.overrides = given.extensionOver entries := by
  obtain ⟨extension, aliases, checkBlocks, nodup⟩ := given
  cases extension with
  | none => rfl
  | some extension =>
    have hne : extension ≠ "" := fun heq => h (congrArg some heq)
    have htruthy : (Value.text extension).isTruthy = true := decide_eq_true hne
    exact if_pos htruthy

theorem chosenExtension_of_empty (given : Given) (entries : Entries Value)
    (h : given.extension = some "") :
    chosenExtension entries given.overrides =
      (entries.get? "output_extension").getD (.text ".ts") := by
  rw [chosenExtension, overrides, h]
  rfl

/-- Loading reads the settings from the chosen extension and the other values as they are given. -/
theorem load_overrides (given : Given) (hfind : find tree path = .ok found)
    (hentries : found.value = .table entries)
    (hbase : entryOf "type_aliases" entries = .table base) :
    load tree path given.overrides =
      (Settings.ofValues (some (chosenExtension entries given.overrides))
        (some (.table (base.overlay given.aliasEntries)))
        (some (given.checkBlocksOver entries))).mapError .refused := by
  have hload : load tree path given.overrides = combine entries given.overrides := by
    rw [load_of_find hfind, hentries]
  rw [hload, combine_eq hbase given.entriesOf_overrides, chosenCheckBlocks_overrides,
    Entries.putAll_eq_overlay given.nodup_aliasEntries]

end Given

/-- Loading gives the settings that come of a caller's values before those of the project file, and
fails in the same way, unless the caller gives an empty extension and the project file another one
or none. Then it goes by the project file. -/
theorem load_eq_settingsOver_iff (given : Given) (hfind : find tree path = .ok found)
    (hentries : found.value = .table entries)
    (hbase : entryOf "type_aliases" entries = .table base) :
    (load tree path given.overrides = given.settingsOver entries base ↔
      (given.extension = some "" → entries.get? "output_extension" = some (.text ""))) ∧
      (given.extension = some "" → load tree path given.overrides =
        ({ given with extension := none } : Given).settingsOver entries base) := by
  rw [given.load_overrides hfind hentries hbase]
  refine ⟨⟨fun heq hempty => ?_, fun hsame => ?_⟩, fun hempty => ?_⟩
  · have hover : given.extensionOver entries = .text "" := by
      rw [Given.extensionOver, hempty]
    rw [Given.settingsOver, Attempt.mapError_inj fun _ _ => Fault.refused.inj, hover] at heq
    have hchosen := Settings.eq_empty_of_ofValues_eq heq
    rw [given.chosenExtension_of_empty entries hempty] at hchosen
    cases hextension : entries.get? "output_extension" with
    | none =>
      rw [hextension] at hchosen
      exact absurd (Value.text.inj hchosen) (by decide)
    | some extension =>
      rw [hextension] at hchosen
      exact congrArg some hchosen
  · have hchosen : chosenExtension entries given.overrides = given.extensionOver entries := by
      by_cases hempty : given.extension = some ""
      · rw [given.chosenExtension_of_empty entries hempty, hsame hempty, Given.extensionOver,
          hempty]
        rfl
      · exact given.chosenExtension_overrides entries hempty
    rw [hchosen, Given.settingsOver]
  · rw [given.chosenExtension_of_empty entries hempty]
    rfl

def topProject (source : String) : FileTree :=
  { entries := [([fileName], .file (Text.Utf8.encode source))] }

theorem find_topProject (hdocument : Toml.parse source = .ok document)
    (htools : entryOf "tool" document = .table tools) :
    find (topProject source) {} = .ok ⟨entryOf "linescript" tools, some []⟩ := by
  have hfile : nearest? (topProject source) ((topProject source).resolve {}) =
      .ok (some ([], Text.Utf8.encode source)) := rfl
  exact find_of_document rfl hfile (Text.Utf8.decode_encode source) hdocument htools

theorem load_eq_settingsOver_aliases :
    let tree := topProject
      "[tool.linescript]\noutput_extension = \"tsx\"\ntype_aliases.int = \"number\"\n"
    let base : Entries Value := [("int", .text "number")]
    let entries : Entries Value :=
      [("output_extension", .text "tsx"), ("type_aliases", .table base)]
    let given : Given :=
      { extension := some "mts", aliases := some [("str", "string"), ("int", "bigint")] }
    find tree {} = .ok ⟨.table entries, some []⟩ ∧ entryOf "type_aliases" entries = .table base ∧
      load tree {} given.overrides = given.settingsOver entries base ∧
      given.settingsOver entries base =
        .ok ⟨".mts", [("int", "bigint"), ("str", "string")], false⟩ := by
  intro tree base entries given
  have hdocument : Toml.parse
      "[tool.linescript]\noutput_extension = \"tsx\"\ntype_aliases.int = \"number\"\n" =
        .ok [("tool", .table [("linescript", .table entries)])] := by cbv
  have hfind : find tree {} = .ok ⟨.table entries, some []⟩ := find_topProject hdocument rfl
  have hgiven : given.extension ≠ some "" := by decide
  exact ⟨hfind, rfl, (load_eq_settingsOver_iff given hfind rfl rfl).1.mpr (absurd · hgiven), rfl⟩

example :
    (load (topProject "limit = 99.5\n[tool.linescript]\ncheck_blocks = 1.0\n") {} {}).toOption =
      some { checkBlocks := true } := by
  decide +kernel

/-- An empty extension is passed over, although it could not be used. -/
theorem load_empty_extension :
    let tree := topProject "[tool.linescript]\noutput_extension = \"tsx\"\n"
    let entries : Entries Value := [("output_extension", .text "tsx")]
    let given : Given := { extension := some "" }
    find tree {} = .ok ⟨.table entries, some []⟩ ∧
      load tree {} given.overrides = .ok { extension := ".tsx" } ∧
      given.settingsOver entries [] =
        .error (.refused [⟨["output_extension"], .emptyExtension, .text ""⟩]) := by
  intro tree entries given
  have hdocument : Toml.parse "[tool.linescript]\noutput_extension = \"tsx\"\n" =
      .ok [("tool", .table [("linescript", .table entries)])] := by cbv
  have hfind : find tree {} = .ok ⟨.table entries, some []⟩ := find_topProject hdocument rfl
  refine ⟨hfind, ?_, rfl⟩
  rw [given.load_overrides hfind rfl rfl]
  rfl

end Project
end Linewise
