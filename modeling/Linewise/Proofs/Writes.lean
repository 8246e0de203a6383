import Linewise.Command.Run
import Linewise.Proofs.Batch

/-! # What a run writes

Only a conversion that goes well changes the tree, and it changes one place: the one to which its
output path leads. So every place of the tree holds what stood there before the run, or the code of
the last conversion that has written there.
-/

namespace Linewise.Command

variable {settings : Settings} {toStdout : Bool} {tree : FileTree} {path output : FilePath}
  {paths : List FilePath} {turn : Turn} {turns before later : List Turn} {names : List String}
  {code : String}

def Turn.treeAfter (turn : Turn) (tree : FileTree) : FileTree :=
  match turn.outcome with
  | .ok conversion => conversion.tree
  | .error _ => tree

def treeAfter (tree : FileTree) (turns : List Turn) : FileTree :=
  turns.foldl (fun tree turn => turn.treeAfter tree) tree

theorem treeAfter_concat (tree : FileTree) (turns : List Turn) (turn : Turn) :
    treeAfter tree (turns ++ [turn]) = turn.treeAfter (treeAfter tree turns) := by
  rw [treeAfter, List.foldl_append]
  rfl

/-- A turn is the conversion of its path in the tree that the turns before it have left. -/
theorem outcome_eq (h : conversions settings toStdout tree paths = before ++ turn :: later) :
    turn.outcome = convertFile settings toStdout (treeAfter tree before) turn.path := by
  induction paths generalizing tree before with
  | nil => simp [conversions] at h
  | cons path paths ih =>
    rw [conversions] at h
    cases before with
    | nil =>
      split at h
      · next broken hfile =>
        obtain ⟨rfl, -⟩ := List.cons.inj h
        exact hfile.symm
      · next conversion hfile =>
        obtain ⟨rfl, -⟩ := List.cons.inj h
        exact hfile.symm
    | cons first before =>
      split at h
      · simp at h
      · next conversion hfile =>
        obtain ⟨rfl, hrest⟩ := List.cons.inj h
        have houtcome := ih hrest
        exact houtcome

theorem tree_foldl_step (settings : Settings) (toStdout : Bool) (tree : FileTree)
    (reports : List Console.Report) (results : Entries (Option String)) (paths : List FilePath) :
    (paths.foldl (Batch.step settings toStdout) { tree, reports, results }).tree =
      treeAfter tree (conversions settings toStdout tree paths) := by
  induction paths generalizing tree reports results with
  | nil => rfl
  | cons path paths ih =>
    simp only [List.foldl_cons, conversions, Batch.step]
    cases hfile : convertFile settings toStdout tree path with
    | error broken =>
      rw [foldl_step_of_broken rfl]
      rfl
    | ok conversion => exact ih conversion.tree _ _

theorem tree_convertAll (settings : Settings) (toStdout : Bool) (tree : FileTree)
    (paths : List FilePath) :
    (convertAll settings toStdout tree paths).tree =
      treeAfter tree (conversions settings toStdout tree paths) :=
  tree_foldl_step settings toStdout tree [] [] paths

/-- A turn that goes well and is not only to show its code puts the code. Any other turn leaves the
tree as it is. -/
theorem Turn.treeAfter_cases
    (houtcome : turn.outcome = convertFile settings toStdout tree turn.path) :
    turn.treeAfter tree = tree ∧ (toStdout = true ∨ ¬ Succeeded turn.outcome) ∨
      toStdout = false ∧ Succeeded turn.outcome ∧ ∃ output names code,
        Writes settings tree turn.path output names code ∧
          turn.treeAfter tree = tree.put names (Text.Utf8.encode code) := by
  unfold Turn.treeAfter
  cases hturn : turn.outcome with
  | error broken => exact .inl ⟨rfl, .inr (by simp [Succeeded])⟩
  | ok conversion =>
    rw [hturn] at houtcome
    cases converts_of_convertFile houtcome.symm with
    | failed known issue of => exact .inl ⟨rfl, .inr (by simp [Succeeded])⟩
    | displayed code toConsole => exact .inl ⟨rfl, .inl toConsole⟩
    | written toFile writes =>
      exact .inr ⟨toFile, ⟨_, rfl, rfl⟩, _, _, _, writes, rfl⟩

theorem Turn.treeAfter_of_not_succeeded
    (houtcome : turn.outcome = convertFile settings toStdout tree turn.path)
    (h : ¬ Succeeded turn.outcome) : turn.treeAfter tree = tree := by
  rcases Turn.treeAfter_cases houtcome with ⟨htree, -⟩ | ⟨-, hsucceeded, -⟩
  · exact htree
  · exact absurd hsucceeded h

theorem Turn.treeAfter_of_toStdout
    (houtcome : turn.outcome = convertFile settings true tree turn.path) :
    turn.treeAfter tree = tree := by
  rcases Turn.treeAfter_cases houtcome with ⟨htree, -⟩ | ⟨hwritten, -⟩
  · exact htree
  · cases hwritten

theorem Turn.exists_writes (houtcome : turn.outcome = convertFile settings false tree turn.path)
    (h : Succeeded turn.outcome) :
    ∃ output names code, Writes settings tree turn.path output names code ∧
      turn.treeAfter tree = tree.put names (Text.Utf8.encode code) := by
  rcases Turn.treeAfter_cases houtcome with ⟨-, hshown | hfailed⟩ | ⟨-, -, hwrites⟩
  · cases hshown
  · exact absurd h hfailed
  · exact hwrites

theorem Writes.parts_ne_nil (h : Writes settings tree path output names code) :
    output.parts ≠ [] :=
  parts_ne_nil_of_outputPath h.outputPath_eq

theorem Turn.sameDirectories_treeAfter
    (houtcome : turn.outcome = convertFile settings toStdout tree turn.path) :
    tree.SameDirectories (turn.treeAfter tree) := by
  rcases Turn.treeAfter_cases houtcome with
    ⟨htree, -⟩ | ⟨-, -, output, names, code, hwrites, htree⟩
  · rw [htree]
    exact .refl tree
  · rw [htree]
    exact hwrites.isWritable.sameDirectories_put hwrites.parts_ne_nil _

/-- What holds of the tree before a batch and is preserved by each of its turns holds of every tree
in its course. -/
theorem treeAfter_invariant {property : FileTree → Prop}
    (hstep : ∀ turn ∈ conversions settings toStdout tree paths, ∀ current, property current →
      turn.outcome = convertFile settings toStdout current turn.path →
        property (turn.treeAfter current))
    (htree : property tree) (h : conversions settings toStdout tree paths = before ++ later) :
    property (treeAfter tree before) := by
  induction before using List.reverseRecOn generalizing later with
  | nil => exact htree
  | append_singleton before turn ih =>
    rw [List.append_assoc, List.singleton_append] at h
    have hturn : turn ∈ conversions settings toStdout tree paths := by simp [h]
    rw [treeAfter_concat]
    exact hstep turn hturn _ (ih h) (outcome_eq h)

theorem sameDirectories_treeAfter
    (h : conversions settings toStdout tree paths = before ++ later) :
    tree.SameDirectories (treeAfter tree before) :=
  treeAfter_invariant
    (fun _ _ _ hsame houtcome => hsame.trans (Turn.sameDirectories_treeAfter houtcome))
    (.refl tree) h

theorem treeAfter_of_toStdout (h : conversions settings true tree paths = before ++ later) :
    treeAfter tree before = tree :=
  treeAfter_invariant
    (fun _ _ _ heq houtcome => (Turn.treeAfter_of_toStdout houtcome).trans heq) rfl h

def Leads (settings : Settings) (tree : FileTree) (path : FilePath) (names : List String) : Prop :=
  ∃ output, outputPath path settings.extension = .ok output ∧
    tree.locate output = .ok (.inside names)

theorem Leads.unique {other : List String} (h : Leads settings tree path names)
    (hother : Leads settings tree path other) : names = other := by
  obtain ⟨output, houtput, hlocate⟩ := h
  obtain ⟨output', houtput', hlocate'⟩ := hother
  cases houtput.symm.trans houtput'
  cases hlocate.symm.trans hlocate'
  rfl

/-- The code of the last turn to go well among those that write at a place. -/
def IsLastCode (settings : Settings) (tree : FileTree) (turns : List Turn) (names : List String)
    (code : String) : Prop :=
  ∃ before turn later source, turns = before ++ turn :: later ∧ Succeeded turn.outcome ∧
    Leads settings tree turn.path names ∧
    readSource (treeAfter tree before) turn.path = .ok source ∧
    Translator.translate settings source = .ok code ∧
    ∀ other ∈ later, Succeeded other.outcome → ¬ Leads settings tree other.path names

theorem IsLastCode.concat (h : IsLastCode settings tree turns names code)
    (hturn : Succeeded turn.outcome → ¬ Leads settings tree turn.path names) :
    IsLastCode settings tree (turns ++ [turn]) names code := by
  obtain ⟨before, last, later, source, rfl, hsucceeded, hleads, hsource, hcode, hlater⟩ := h
  refine ⟨before, last, later ++ [turn], source, by simp, hsucceeded, hleads, hsource, hcode, ?_⟩
  intro other hother
  rcases List.mem_append.mp hother with hother | hother
  · exact hlater other hother
  · rwa [List.mem_singleton.mp hother]

/-- What stands at a place after turns: what stood there before them, if none of them writes there,
or else the code that was written last. -/
inductive PlaceAfter (settings : Settings) (tree : FileTree) (turns : List Turn)
    (names : List String) : Prop
  | kept (find?_eq : (treeAfter tree turns).find? names = tree.find? names)
    (unwritten : ∀ turn ∈ turns, Succeeded turn.outcome → ¬ Leads settings tree turn.path names)
  | written {code : String} (last : IsLastCode settings tree turns names code)
    (find?_eq : (treeAfter tree turns).find? names = some (.file (Text.Utf8.encode code)))

theorem PlaceAfter.concat (h : PlaceAfter settings tree turns names)
    (hfind : (turn.treeAfter (treeAfter tree turns)).find? names =
      (treeAfter tree turns).find? names)
    (hturn : Succeeded turn.outcome → ¬ Leads settings tree turn.path names) :
    PlaceAfter settings tree (turns ++ [turn]) names := by
  rw [← treeAfter_concat] at hfind
  cases h with
  | kept find?_eq unwritten =>
    refine .kept (hfind.trans find?_eq) fun other hother => ?_
    rcases List.mem_append.mp hother with hother | hother
    · exact unwritten other hother
    · rwa [List.mem_singleton.mp hother]
  | written last find?_eq => exact .written (last.concat hturn) (hfind.trans find?_eq)

theorem placeAfter (names : List String)
    (h : conversions settings false tree paths = before ++ later) :
    PlaceAfter settings tree before names := by
  -- the last turn decides about its own place, so the induction takes turns from the end
  induction before using List.reverseRecOn generalizing later with
  | nil => exact .kept rfl (by simp)
  | append_singleton before turn ih =>
    rw [List.append_assoc, List.singleton_append] at h
    have houtcome := outcome_eq h
    by_cases hsucceeded : Succeeded turn.outcome
    · obtain ⟨output, target, code, hwrites, htree⟩ := Turn.exists_writes houtcome hsucceeded
      have hleads : Leads settings tree turn.path target :=
        ⟨output, hwrites.outputPath_eq,
          (sameDirectories_treeAfter h).locate_eq_ok_iff.mp hwrites.isWritable.locate_eq⟩
      by_cases htarget : names = target
      · obtain ⟨source, hsource, hcode⟩ := hwrites.translates
        have hlast : IsLastCode settings tree (before ++ [turn]) names code :=
          ⟨before, turn, [], source, rfl, hsucceeded, htarget ▸ hleads, hsource, hcode, by simp⟩
        refine .written hlast ?_
        rw [treeAfter_concat, htree, FileTree.find?_put, if_pos htarget]
      · refine (ih h).concat ?_ fun _ hnames => htarget (hnames.unique hleads)
        rw [htree, FileTree.find?_put, if_neg htarget]
    · refine (ih h).concat ?_ fun hturn => absurd hturn hsucceeded
      rw [Turn.treeAfter_of_not_succeeded houtcome hsucceeded]

theorem tree_inspect (tree : FileTree) (path : FilePath) : (inspect tree path).tree = tree := by
  unfold inspect
  split
  · rfl
  split
  · rfl
  split <;> rfl

theorem convert_of_fault {extension : Option String} {checkBlocks : Bool} {fault : Project.Fault}
    (h : settingsFor tree paths extension checkBlocks = .error fault) :
    convert tree paths extension checkBlocks toStdout =
      if fault.isInvalid then
        .ok { tree, status := 1
              reports := [.record .error
                ("Invalid configuration: " ++ Console.escape fault.message)] }
      else .error fault := by
  rw [convert, h]

theorem tree_convertAll_toStdout (settings : Settings) (tree : FileTree) (paths : List FilePath) :
    (convertAll settings true tree paths).tree = tree := by
  rw [tree_convertAll]
  exact treeAfter_of_toStdout (List.append_nil _).symm

theorem convert_cases {extension : Option String} {checkBlocks : Bool} {effect : Effect}
    (h : convert tree paths extension checkBlocks toStdout = .ok effect) :
    effect.tree = tree ∨ toStdout = false ∧
      ∃ settings, settingsFor tree paths extension checkBlocks = .ok settings ∧
        effect = convertAll settings false tree paths := by
  rw [convert] at h
  split at h
  · next settings hsettings =>
    cases h
    cases toStdout with
    | true => exact .inl (tree_convertAll_toStdout settings tree paths)
    | false => exact .inr ⟨rfl, settings, hsettings, rfl⟩
  · split at h
    · cases h
      exact .inl rfl
    · cases h

theorem exists_isLastCode_of_ne (settings : Settings) (tree : FileTree) (paths : List FilePath)
    (names : List String)
    (hchanged : (convertAll settings false tree paths).tree.find? names ≠ tree.find? names) :
    ∃ code, IsLastCode settings tree (conversions settings false tree paths) names code ∧
      (convertAll settings false tree paths).tree.find? names =
        some (.file (Text.Utf8.encode code)) := by
  rw [tree_convertAll] at hchanged ⊢
  cases placeAfter names (List.append_nil (conversions settings false tree paths)).symm with
  | kept find?_eq unwritten => exact absurd find?_eq hchanged
  | written last find?_eq => exact ⟨_, last, find?_eq⟩

theorem exists_convertAll_of_ne {arguments : List String}
    (hchanged : ((run tree arguments).treeAfter tree).find? names ≠ tree.find? names) :
    ∃ paths extension checkBlocks settings,
      parse arguments = .ok (.convert paths extension checkBlocks false) ∧
      settingsFor tree paths extension checkBlocks = .ok settings ∧
      (run tree arguments).treeAfter tree = (convertAll settings false tree paths).tree := by
  rw [run] at hchanged ⊢
  split at hchanged
  · exact absurd rfl hchanged
  next invocation hparse =>
  simp only [hparse]
  cases hperform : perform tree invocation with
  | error fault =>
    rw [hperform] at hchanged
    exact absurd rfl hchanged
  | ok effect =>
    rw [hperform] at hchanged
    have hne : effect.tree ≠ tree := fun heq => hchanged (congrArg (FileTree.find? · names) heq)
    cases invocation with
    | inspect path =>
      cases hperform
      exact absurd (tree_inspect tree path) hne
    | convert paths extension checkBlocks toStdout =>
      rcases convert_cases hperform with heq | ⟨rfl, settings, hsettings, rfl⟩
      · exact absurd heq hne
      · exact ⟨paths, extension, checkBlocks, settings, rfl, hsettings, rfl⟩

/-- After a batch under any settings, a place holds something else than before only if it holds the
code of the last conversion to go well among those that write there. A conversion that fails leaves
the tree as it was before it. A run of the program, however it ends, changes a place only as such a
batch under the settings for its files: one that shows its code, one whose settings cannot be used
and an inspection leave the tree as it was. -/
theorem perform_writes (tree : FileTree) :
    (∀ settings paths,
      let turns := conversions settings false tree paths
      let after := (convertAll settings false tree paths).tree
      after = treeAfter tree turns ∧ tree.SameDirectories after ∧
        ∀ names, after.find? names ≠ tree.find? names →
          ∃ code, IsLastCode settings tree turns names code ∧
            after.find? names = some (.file (Text.Utf8.encode code))) ∧
    (∀ settings toStdout paths before turn later,
      conversions settings toStdout tree paths = before ++ turn :: later →
        turn.path ∈ paths ∧
          turn.outcome = convertFile settings toStdout (treeAfter tree before) turn.path ∧
          (¬ Succeeded turn.outcome → treeAfter tree (before ++ [turn]) = treeAfter tree before)) ∧
    (∀ settings paths, (convertAll settings true tree paths).tree = tree) ∧
    (∀ paths extension checkBlocks toStdout settings,
      settingsFor tree paths extension checkBlocks = .ok settings →
        perform tree (.convert paths extension checkBlocks toStdout) =
          .ok (convertAll settings toStdout tree paths)) ∧
    (∀ paths extension checkBlocks effect,
      perform tree (.convert paths extension checkBlocks true) = .ok effect → effect.tree = tree) ∧
    (∀ paths extension checkBlocks toStdout fault,
      settingsFor tree paths extension checkBlocks = .error fault → fault.isInvalid = true →
        ∃ effect, perform tree (.convert paths extension checkBlocks toStdout) = .ok effect ∧
          effect.tree = tree) ∧
    (∀ path, ∃ effect, perform tree (.inspect path) = .ok effect ∧ effect.tree = tree) ∧
    ∀ arguments names,
      let after := (run tree arguments).treeAfter tree
      after.find? names ≠ tree.find? names →
        ∃ paths extension checkBlocks settings code,
          parse arguments = .ok (.convert paths extension checkBlocks false) ∧
          settingsFor tree paths extension checkBlocks = .ok settings ∧
          IsLastCode settings tree (conversions settings false tree paths) names code ∧
          after.find? names = some (.file (Text.Utf8.encode code)) := by
  refine ⟨fun settings paths =>
      ⟨tree_convertAll .., ?_, exists_isLastCode_of_ne settings tree paths⟩,
    fun settings toStdout paths before turn later h => ?_,
    fun settings paths => tree_convertAll_toStdout settings tree paths,
    fun paths extension checkBlocks toStdout settings hsettings => by
      rw [perform, convert, hsettings],
    fun paths extension checkBlocks effect heffect => ?_,
    fun paths extension checkBlocks toStdout fault hfault hinvalid => ?_,
    fun path => ⟨_, rfl, tree_inspect tree path⟩, fun arguments names => ?_⟩
  · rw [tree_convertAll]
    exact sameDirectories_treeAfter (List.append_nil _).symm
  · have hturn : turn ∈ conversions settings toStdout tree paths := by simp [h]
    refine ⟨path_mem_of_mem_conversions hturn, outcome_eq h, fun hfailed => ?_⟩
    rw [treeAfter_concat, Turn.treeAfter_of_not_succeeded (outcome_eq h) hfailed]
  · rcases convert_cases heffect with htree | ⟨hshown, -⟩
    · exact htree
    · cases hshown
  · have hconvert : convert tree paths extension checkBlocks toStdout = _ := convert_of_fault hfault
    rw [if_pos hinvalid] at hconvert
    exact ⟨_, hconvert, rfl⟩
  · intro after hchanged
    obtain ⟨paths, extension, checkBlocks, settings, hparse, hsettings, hafter⟩ :=
      exists_convertAll_of_ne hchanged
    simp only [after, hafter] at hchanged ⊢
    obtain ⟨code, hlast, hfind⟩ := exists_isLastCode_of_ne settings tree paths names hchanged
    exact ⟨paths, extension, checkBlocks, settings, code, hparse, hsettings, hlast, hfind⟩

theorem perform_writes_one_file :
    let tree : FileTree := { entries := [(["x.ls"], .file (Text.Utf8.encode "x = 1"))] }
    let after := (run tree ["convert", "x.ls"]).treeAfter tree
    tree.find? ["x.ts"] = none ∧ after.find? ["x.ts"] ≠ none ∧
      ∃ paths extension checkBlocks settings code,
        parse ["convert", "x.ls"] = .ok (.convert paths extension checkBlocks false) ∧
        settingsFor tree paths extension checkBlocks = .ok settings ∧
        IsLastCode settings tree (conversions settings false tree paths) ["x.ts"] code ∧
        after.find? ["x.ts"] = some (.file (Text.Utf8.encode code)) := by
  intro tree after
  have hsource : readSource tree { parts := ["x.ls"] } = .ok "x = 1" := by cbv
  have hprogram : Program.ofText "x = 1" = .ok ⟨[.assign "x" ["1"]], [1]⟩ := by cbv
  have hcode : Translator.translate {} "x = 1" = .ok "x = 1;" :=
    Translator.translate_of_ofText rfl hprogram
  have hwritable : tree.IsWritable { parts := ["x.ts"] } ["x.ts"] := ⟨by cbv, by decide⟩
  have hbatch := foldl_step_singleton (convertFile_of_code hsource hcode rfl hwritable)
  have hrun : run tree ["convert", "x.ls"] =
      .done (convertAll {} false tree [{ parts := ["x.ls"] }]) := rfl
  have hafter : after = tree.put ["x.ts"] (Text.Utf8.encode "x = 1;") := by
    simp only [after, hrun, Ending.treeAfter, convertAll, hbatch]
  have hbefore : tree.find? ["x.ts"] = none := by decide
  have hwritten : after.find? ["x.ts"] ≠ none := by
    rw [hafter, FileTree.find?_put, if_pos rfl]
    exact Option.some_ne_none _
  obtain ⟨-, -, -, -, -, -, -, hframe⟩ := perform_writes tree
  exact ⟨hbefore, hwritten, hframe ["convert", "x.ls"] ["x.ts"] (hbefore.symm ▸ hwritten)⟩

end Linewise.Command
