import Linewise.Proofs.Descent
import Linewise.Proofs.Loading
import Linewise.Proofs.Utf8
import Mathlib

/-! # The nearest project file

Only the nearest project file counts. It is the one in the longest directory from the place of a
path upwards that has a file of this name; a directory of this name is passed over, and so is a
place that does not exist. The search breaks off when the file system refuses to look for a project
file at the place itself, and then it never comes to a file that is found further up.
-/

namespace Linewise

namespace Project

variable {tree other : FileTree} {place : Place} {path : FilePath} {fault : Fault}
  {names directory : List String} {octets : List UInt8} {step : String}

def IsAbove (directory : List String) (place : Place) : Prop :=
  ∃ names, place = .inside names ∧ directory <+: names

def HasFile (tree : FileTree) (directory : List String) (octets : List UInt8) : Prop :=
  tree.entry? (.inside (directory ++ [fileName])) = some (.file octets)

/-- The longest directory from a place upwards that has a project file. -/
structure IsNearest (tree : FileTree) (place : Place) (directory : List String)
    (octets : List UInt8) : Prop where
  above : IsAbove directory place
  file : HasFile tree directory octets
  longest : ∀ other octets, IsAbove other place → HasFile tree other octets →
    other.length ≤ directory.length

theorem isAbove_inside_iff : IsAbove directory (.inside names) ↔ directory <+: names := by
  refine ⟨?_, fun h => ⟨names, rfl, h⟩⟩
  rintro ⟨_, ⟨⟩, h⟩
  exact h

theorem isNearest_self_iff {here : List UInt8} (hfile : HasFile tree names here) :
    IsNearest tree (.inside names) directory octets ↔ directory = names ∧ octets = here := by
  constructor
  · intro h
    have hlength := h.longest names here (isAbove_inside_iff.mpr List.prefix_rfl) hfile
    obtain rfl := (isAbove_inside_iff.mp h.above).eq_of_length_le hlength
    cases h.file.symm.trans hfile
    exact ⟨rfl, rfl⟩
  · rintro ⟨rfl, rfl⟩
    refine ⟨isAbove_inside_iff.mpr List.prefix_rfl, hfile, fun other _ hother _ => ?_⟩
    exact (isAbove_inside_iff.mp hother).length_le

theorem isNearest_concat_iff (hnone : ∀ octets, ¬ HasFile tree (names ++ [step]) octets) :
    IsNearest tree (.inside (names ++ [step])) directory octets ↔
      IsNearest tree (.inside names) directory octets := by
  have habove {other : List String} {octets : List UInt8} (hfile : HasFile tree other octets) :
      IsAbove other (.inside (names ++ [step])) ↔ IsAbove other (.inside names) := by
    rw [isAbove_inside_iff, isAbove_inside_iff, List.prefix_concat_iff, or_iff_right]
    rintro rfl
    exact hnone octets hfile
  constructor
  · intro h
    exact ⟨(habove h.file).mp h.above, h.file, fun other octets hother hfile =>
      h.longest other octets ((habove hfile).mpr hother) hfile⟩
  · intro h
    exact ⟨(habove h.file).mpr h.above, h.file, fun other octets hother hfile =>
      h.longest other octets ((habove hfile).mp hother) hfile⟩

theorem up_not_mem_concat_fileName (hdown : ".." ∉ directory) : ".." ∉ directory ++ [fileName] := by
  simp [hdown, fileName]

theorem fileIn?_of_not_admits (hdown : ".." ∉ directory)
    (h : ¬ tree.Admits (directory ++ [fileName])) :
    fileIn? tree directory = .error .nameTooLong := by
  rw [fileIn?]
  split
  · rfl
  · next hsize =>
    have hfollow : tree.follow (.inside []) (directory ++ [fileName]) = .error .nameTooLong := by
      by_contra hfollow
      exact h ⟨Nat.lt_of_not_ge hsize,
        (FileTree.follow_inside_ne_nameTooLong_iff (up_not_mem_concat_fileName hdown)).mp hfollow⟩
    rw [hfollow]
    rfl

theorem fileIn?_eq (hdown : ".." ∉ directory) (h : tree.Admits (directory ++ [fileName])) :
    fileIn? tree directory = .ok (tree.readAt (.inside (directory ++ [fileName]))).toOption := by
  have hsteps := up_not_mem_concat_fileName hdown
  have hsize : tree.follow (.inside []) (directory ++ [fileName]) ≠ .error .nameTooLong :=
    (FileTree.follow_inside_ne_nameTooLong_iff hsteps).mpr h.steps_short
  rw [fileIn?, if_neg (Nat.not_le.mpr h.name_short)]
  cases hread : tree.readAt (.inside (directory ++ [fileName])) with
  | ok octets =>
    rw [FileTree.follow_of_file hsteps (FileTree.readAt_eq_ok_iff.mp hread) hsize]
    simp only [Except.bind, hread, Except.toOption]
  | error missed =>
    obtain ⟨fault, hfault, hne⟩ : ∃ fault,
        (tree.follow (.inside []) (directory ++ [fileName])).bind tree.readAt = .error fault ∧
          fault ≠ .nameTooLong := by
      cases hfollow : tree.follow (.inside []) (directory ++ [fileName]) with
      | ok target =>
        obtain ⟨rfl, -⟩ := (FileTree.follow_inside_eq_ok_iff hsteps).mp hfollow
        exact ⟨missed, hread, fun heq => FileTree.readAt_ne_nameTooLong (heq ▸ hread)⟩
      | error fault => exact ⟨fault, rfl, fun heq => hsize (heq ▸ hfollow)⟩
    rw [hfault]
    cases fault with
    | nameTooLong => exact absurd rfl hne
    | _ => rfl

theorem hasFile_iff :
    (tree.readAt (.inside (directory ++ [fileName]))).toOption = some octets ↔
      HasFile tree directory octets := by
  rw [HasFile, ← FileTree.readAt_eq_ok_iff]
  cases tree.readAt (.inside (directory ++ [fileName])) <;> simp [Except.toOption]

theorem firstFile?_cons_of_hasFile (hdown : ".." ∉ directory)
    (h : tree.Admits (directory ++ [fileName])) (hfile : HasFile tree directory octets)
    (rest : List (List String)) :
    firstFile? tree (directory :: rest) = .ok (some (directory, octets)) := by
  rw [firstFile?, fileIn?_eq hdown h, hasFile_iff.mpr hfile]

theorem firstFile?_cons_of_none (hdown : ".." ∉ directory)
    (h : tree.Admits (directory ++ [fileName]))
    (hnone : ∀ octets, ¬ HasFile tree directory octets) (rest : List (List String)) :
    firstFile? tree (directory :: rest) = firstFile? tree rest := by
  have hread : (tree.readAt (.inside (directory ++ [fileName]))).toOption = none :=
    Option.eq_none_iff_forall_ne_some.mpr fun octets heq => hnone octets (hasFile_iff.mp heq)
  rw [firstFile?, fileIn?_eq hdown h, hread]

/-- Whether the search upwards from a directory finds exactly the nearest file. -/
def FindsNearest (tree : FileTree) (names : List String) : Prop :=
  ∃ file?, firstFile? tree (FileTree.ancestors names) = .ok file? ∧ ∀ directory octets,
    file? = some (directory, octets) ↔ IsNearest tree (.inside names) directory octets

theorem findsNearest_of_hasFile (hdown : ".." ∉ names) (h : tree.Admits (names ++ [fileName]))
    (hfile : HasFile tree names octets) : FindsNearest tree names := by
  obtain ⟨rest, hrest⟩ := FileTree.exists_ancestors_eq_cons names
  refine ⟨some (names, octets), ?_, fun directory found => ?_⟩
  · rw [hrest, firstFile?_cons_of_hasFile hdown h hfile]
  · rw [isNearest_self_iff hfile, Option.some.injEq, Prod.mk.injEq, eq_comm, @eq_comm _ octets]

theorem findsNearest (hdown : ".." ∉ names) (h : tree.Admits (names ++ [fileName])) :
    FindsNearest tree names := by
  -- the search goes up from the last step, so the induction takes the steps from the end
  induction names using List.reverseRecOn with
  | nil =>
    by_cases hhere : ∃ octets, HasFile tree [] octets
    · exact findsNearest_of_hasFile hdown h hhere.choose_spec
    rw [not_exists] at hhere
    refine ⟨none, firstFile?_cons_of_none hdown h hhere [], fun directory octets => ?_⟩
    refine iff_of_false (by simp) fun hnearest => ?_
    obtain rfl := List.prefix_nil.mp (isAbove_inside_iff.mp hnearest.above)
    exact hhere octets hnearest.file
  | append_singleton names step ih =>
    by_cases hhere : ∃ octets, HasFile tree (names ++ [step]) octets
    · exact findsNearest_of_hasFile hdown h hhere.choose_spec
    rw [not_exists] at hhere
    obtain ⟨file?, hsearch, hfile⟩ := ih (fun hmem => hdown (List.mem_append_left _ hmem))
      (h.of_concat (by decide))
    refine ⟨file?, ?_, fun directory octets => ?_⟩
    · rw [FileTree.ancestors_concat, firstFile?_cons_of_none hdown h hhere, hsearch]
    · rw [isNearest_concat_iff hhere, hfile]

/-- How looking for a project file is refused for a path: it has a null character, or the name of
the file at its place is too long. -/
inductive Unsearchable (tree : FileTree) (path : FilePath) : Fault → Prop
  | nullCharacter (h : path.hasNull = true) :
    Unsearchable tree path (.unreachable path.toString .nullCharacter)
  | nameTooLong {names : List String} (hnull : path.hasNull = false)
    (hplace : tree.resolve path = .inside names) (h : ¬ tree.Admits (names ++ [fileName])) :
    Unsearchable tree path (.unreachable (tree.fullName (names ++ [fileName])) .nameTooLong)

/-- What a project file says for this program, when it is a document whose tools are a table. -/
def Tells (octets : List UInt8) (value : Value) : Prop :=
  ∃ source document tools, Text.Utf8.decode octets = .ok source ∧
    Toml.parse source = .ok document ∧ entryOf "tool" document = .table tools ∧
      value = entryOf "linescript" tools

theorem find_of_unsearchable (hdown : ".." ∉ tree.workingDirectory)
    (h : Unsearchable tree path fault) : find tree path = .error fault := by
  cases h with
  | nullCharacter h => exact if_pos h
  | nameTooLong hnull hplace h =>
    next names =>
    have hnames : ".." ∉ names := by
      have hplaceDown := FileTree.isDown_resolve hdown path
      rwa [hplace] at hplaceDown
    obtain ⟨rest, hrest⟩ := FileTree.exists_ancestors_eq_cons names
    rw [find, hnull, hplace, nearest?, hrest, firstFile?, fileIn?_of_not_admits hnames h]
    rfl

theorem exists_nearest?_eq (hdown : ".." ∉ tree.workingDirectory)
    (h : ∀ fault, ¬ Unsearchable tree path fault) :
    path.hasNull = false ∧ ∃ file?, nearest? tree (tree.resolve path) = .ok file? ∧
      ∀ directory octets, file? = some (directory, octets) ↔
        IsNearest tree (tree.resolve path) directory octets := by
  have hnull : path.hasNull = false :=
    Bool.eq_false_iff.mpr fun hnull => h _ (.nullCharacter hnull)
  have hplaceDown := FileTree.isDown_resolve hdown path
  refine ⟨hnull, ?_⟩
  cases hplace : tree.resolve path with
  | inside names =>
    rw [hplace] at hplaceDown
    exact findsNearest hplaceDown
      (not_not.mp fun hrefused => h _ (.nameTooLong hnull hplace hrefused))
  | outside names =>
    refine ⟨none, rfl, fun directory octets => iff_of_false (by simp) ?_⟩
    rintro ⟨⟨_, ⟨⟩, -⟩, -, -⟩

theorem find_of_isNearest {value : Value} (hdown : ".." ∉ tree.workingDirectory)
    (h : ∀ fault, ¬ Unsearchable tree path fault)
    (hnearest : IsNearest tree (tree.resolve path) directory octets) (htells : Tells octets value) :
    find tree path = .ok ⟨value, some directory⟩ := by
  obtain ⟨hnull, file?, hsearch, hfile⟩ := exists_nearest?_eq hdown h
  obtain ⟨source, document, tools, hsource, hdocument, htools, rfl⟩ := htells
  rw [(hfile directory octets).mpr hnearest] at hsearch
  exact find_of_document hnull hsearch hsource hdocument htools

theorem find_of_none (hdown : ".." ∉ tree.workingDirectory)
    (h : ∀ fault, ¬ Unsearchable tree path fault)
    (hnone : ∀ directory octets, ¬ IsNearest tree (tree.resolve path) directory octets) :
    find tree path = .ok ⟨.table [], none⟩ := by
  obtain ⟨hnull, file?, hsearch, hfile⟩ := exists_nearest?_eq hdown h
  have hempty : file? = none :=
    Option.eq_none_iff_forall_ne_some.mpr fun file heq => hnone _ _ ((hfile _ _).mp heq)
  rw [find, hnull, hsearch, hempty]
  rfl

structure SameNearest (tree other : FileTree) (path : FilePath) : Prop where
  home_eq : other.home = tree.home
  workingDirectory_eq : other.workingDirectory = tree.workingDirectory
  unsearchable_iff : ∀ fault, Unsearchable other path fault ↔ Unsearchable tree path fault
  isNearest_iff : ∀ directory octets, IsNearest other (other.resolve path) directory octets ↔
    IsNearest tree (tree.resolve path) directory octets

theorem SameNearest.find_eq (h : SameNearest tree other path)
    (hdown : ".." ∉ tree.workingDirectory) : find other path = find tree path := by
  have hother : ".." ∉ other.workingDirectory := h.workingDirectory_eq ▸ hdown
  by_cases hrefused : ∃ fault, Unsearchable tree path fault
  · obtain ⟨fault, hrefused⟩ := hrefused
    rw [find_of_unsearchable hdown hrefused,
      find_of_unsearchable hother ((h.unsearchable_iff fault).mpr hrefused)]
  rw [not_exists] at hrefused
  obtain ⟨hnull, file?, hsearch, hfile⟩ := exists_nearest?_eq hdown hrefused
  obtain ⟨-, otherFile?, hotherSearch, hotherFile⟩ := exists_nearest?_eq hother
    fun fault hfault => hrefused fault ((h.unsearchable_iff fault).mp hfault)
  have hsame : otherFile? = file? := by
    refine Option.ext fun ⟨directory, octets⟩ => ?_
    rw [hotherFile, h.isNearest_iff, hfile]
  have hname (names : List String) : other.fullName names = tree.fullName names := by
    rw [FileTree.fullName, FileTree.fullName, h.home_eq]
  simp only [find, hsearch, hotherSearch, hsame, hname]

/-- The nearest project file decides alone. What it says is found with its directory, nothing is
found without one, and loading gives the same for all trees with the same nearest file. Where
looking for it is refused, loading fails with the refusal. -/
theorem load_nearest (hdown : ".." ∉ tree.workingDirectory) (path : FilePath) :
    ((∀ fault, ¬ Unsearchable tree path fault) →
      (∀ directory octets value, IsNearest tree (tree.resolve path) directory octets →
        Tells octets value → find tree path = .ok ⟨value, some directory⟩) ∧
      ((∀ directory octets, ¬ IsNearest tree (tree.resolve path) directory octets) →
        find tree path = .ok ⟨.table [], none⟩)) ∧
    (∀ fault, Unsearchable tree path fault →
      ∀ overrides, load tree path overrides = .error fault) ∧
    ∀ other, SameNearest tree other path →
      ∀ overrides, load other path overrides = load tree path overrides := by
  refine ⟨fun h => ⟨fun directory octets value => ?_, ?_⟩, fun fault hfault overrides => ?_,
    fun other hsame overrides => ?_⟩
  · exact find_of_isNearest hdown h
  · exact find_of_none hdown h
  · exact load_of_find_error (find_of_unsearchable hdown hfault) overrides
  · rw [load, load, hsame.find_eq hdown]

def checkedProject : List UInt8 :=
  Text.Utf8.encode "since = 2024-02-29\n[tool.linescript]\ncheck_blocks = true\n"

theorem tells_checkedProject : Tells checkedProject (.table [("check_blocks", .boolean true)]) := by
  have hdocument :
      Toml.parse "since = 2024-02-29\n[tool.linescript]\ncheck_blocks = true\n" =
        .ok [("since", .date ⟨2024, 2, 29, by decide, by decide, by decide, by decide⟩),
          ("tool", .table [("linescript", .table [("check_blocks", .boolean true)])])] := by cbv
  exact ⟨_, _, _, Text.Utf8.decode_encode _, hdocument, rfl, rfl⟩

/-- A project in a directory, with another project file above it and a directory of that name below
it. -/
def nestedProject (above : List UInt8) : FileTree where
  entries :=
    [([fileName], .file above), (["app", fileName], .file checkedProject),
      (["app", "src", fileName, "notes"], .file [])]

def nestedPath (step : String) : FilePath where
  parts := ["app", "src", step]

theorem resolve_nestedPath (above : List UInt8) (hstep : step ≠ "..") :
    (nestedProject above).resolve (nestedPath step) = .inside ["app", "src", step] := by
  change FileTree.enter (nestedProject above) (.inside ["app", "src"]) step = _
  exact FileTree.enter_inside_of_ne hstep

theorem hasNull_nestedPath (hnull : '\x00' ∉ step.toList) : (nestedPath step).hasNull = false := by
  simp [FilePath.hasNull_eq_false_iff, nestedPath, hnull]

theorem isNearest_nestedPath_iff (above : List UInt8) (hstep : step ≠ "..") :
    IsNearest (nestedProject above) ((nestedProject above).resolve (nestedPath step))
      directory octets ↔ directory = ["app"] ∧ octets = checkedProject := by
  have hplace (octets : List UInt8) :
      ¬ HasFile (nestedProject above) (["app", "src"] ++ [step]) octets := by
    simp [HasFile, nestedProject, FileTree.entry?, FileTree.isDirectory, FileTree.find?, fileName]
  have hdirectory (octets : List UInt8) :
      ¬ HasFile (nestedProject above) (["app"] ++ ["src"]) octets := by
    have hentry : FileTree.entry? (nestedProject above) (.inside ["app", "src", fileName]) =
        some .directory := rfl
    intro hfile
    cases hentry.symm.trans hfile
  have hfile : HasFile (nestedProject above) ["app"] checkedProject := rfl
  rw [resolve_nestedPath above hstep]
  exact (isNearest_concat_iff hplace).trans
    ((isNearest_concat_iff hdirectory).trans (isNearest_self_iff hfile))

theorem not_unsearchable_nestedPath (above : List UInt8) (fault : Fault) :
    ¬ Unsearchable (nestedProject above) (nestedPath "missing") fault := by
  rintro (hnull | ⟨-, hplace, hrefused⟩)
  · rw [hasNull_nestedPath (by decide)] at hnull
    cases hnull
  · rw [resolve_nestedPath above (by decide), Place.inside.injEq] at hplace
    subst hplace
    refine hrefused (FileTree.admits_of_short ?_ (by decide))
    change ("/".intercalate ["", "app", "src", "missing", fileName]).utf8ByteSize < 4096
    decide

theorem load_nearest_nested :
    let tree := nestedProject (Text.Utf8.encode "[")
    let path := nestedPath "missing"
    find tree path = .ok ⟨.table [("check_blocks", .boolean true)], some ["app"]⟩ ∧
      ∀ overrides, load (nestedProject []) path overrides = load tree path overrides := by
  intro tree path
  have hstep : "missing" ≠ ".." := by decide
  have hdown : ".." ∉ tree.workingDirectory := List.not_mem_nil
  obtain ⟨hfound, -, hload⟩ := load_nearest hdown path
  have hsearchable := not_unsearchable_nestedPath (Text.Utf8.encode "[")
  constructor
  · exact (hfound hsearchable).1 ["app"] checkedProject _
      ((isNearest_nestedPath_iff _ hstep).mpr ⟨rfl, rfl⟩) tells_checkedProject
  · refine hload (nestedProject []) ⟨rfl, rfl, fun fault => ?_, fun directory octets => ?_⟩
    · exact iff_of_false (not_unsearchable_nestedPath [] fault) (hsearchable fault)
    · exact (isNearest_nestedPath_iff _ hstep).trans (isNearest_nestedPath_iff _ hstep).symm

def longName (size : Nat) : String :=
  String.ofList (List.replicate size 'a')

theorem utf8ByteSize_longName (size : Nat) : (longName size).utf8ByteSize = size := by
  induction size with
  | zero => rfl
  | succ size ih =>
    rw [longName] at ih ⊢
    rw [List.replicate_succ, String.ofList_cons, String.utf8ByteSize_append, ih]
    exact Nat.add_comm 1 size

theorem null_not_mem_longName (size : Nat) : '\x00' ∉ (longName size).toList := by
  rw [longName, String.toList_ofList]
  exact fun hmem => absurd (List.eq_of_mem_replicate hmem) (by decide)

theorem longName_ne_up {size : Nat} (hsize : 2 < size) : longName size ≠ ".." := by
  intro heq
  have htwo := congrArg String.utf8ByteSize heq
  rw [utf8ByteSize_longName] at htwo
  exact absurd htwo (Nat.ne_of_gt hsize)

/-- A place with a name that is too long breaks the search off, although there is a project file
above it. -/
theorem find_longName :
    let tree := nestedProject []
    let path := nestedPath (longName 256)
    IsNearest tree (tree.resolve path) ["app"] checkedProject ∧
      Tells checkedProject (.table [("check_blocks", .boolean true)]) ∧
      find tree path = .error
        (.unreachable (tree.fullName ["app", "src", longName 256, fileName]) .nameTooLong) := by
  intro tree path
  have hstep : longName 256 ≠ ".." := longName_ne_up (by decide)
  refine ⟨(isNearest_nestedPath_iff _ hstep).mpr ⟨rfl, rfl⟩, tells_checkedProject, ?_⟩
  have hnull := hasNull_nestedPath (null_not_mem_longName 256)
  refine find_of_unsearchable List.not_mem_nil
    (.nameTooLong hnull (resolve_nestedPath [] hstep) fun h => ?_)
  have hsize := h.steps_short ["app", "src"] (longName 256) (List.prefix_append _ [fileName]) rfl
  rw [utf8ByteSize_longName] at hsize
  exact absurd hsize (by decide)

end Project
end Linewise
