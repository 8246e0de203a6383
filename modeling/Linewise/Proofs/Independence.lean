import Linewise.Proofs.Writes

/-! # Independence of the files of a batch

When no conversion of a batch writes where another one reads or writes, each of them goes as it
would go alone. So the order of the files makes no difference, and a file that fails makes none
either.
-/

namespace Linewise.FileTree

structure SameFiles (tree after : FileTree) : Prop extends SameDirectories tree after where
  find?_eq : ∀ names, after.find? names = tree.find? names

end Linewise.FileTree

namespace Linewise.Command

variable {settings : Settings} {toStdout : Bool} {tree : FileTree} {path : FilePath}
  {paths : List FilePath} {turn : Turn} {before later : List Turn} {names : List String}
  {code : String}

theorem conversions_map_path (settings : Settings) (toStdout : Bool) (tree : FileTree)
    (paths : List FilePath) :
    conversions settings toStdout tree ((conversions settings toStdout tree paths).map Turn.path) =
      conversions settings toStdout tree paths := by
  induction paths generalizing tree with
  | nil => rfl
  | cons path paths ih =>
    cases hfile : convertFile settings toStdout tree path with
    | error broken => simp only [conversions, hfile, List.map_cons, List.map_nil]
    | ok conversion => simp only [conversions, hfile, List.map_cons, ih]

/-- Without a file that fails the other files have the same outcomes. -/
theorem conversions_without_failed
    (h : conversions settings toStdout tree paths = before ++ turn :: later)
    (hfailed : ¬ Succeeded turn.outcome) :
    conversions settings toStdout tree ((before ++ later).map Turn.path) = before ++ later := by
  induction paths generalizing tree before with
  | nil => simp [conversions] at h
  | cons path paths ih =>
    have houtcome := outcome_eq h
    rw [conversions] at h
    cases before with
    | nil =>
      have htree := Turn.treeAfter_of_not_succeeded houtcome hfailed
      split at h
      · obtain ⟨-, rfl⟩ := List.cons.inj h
        rfl
      · next conversion hfile =>
        obtain ⟨rfl, rfl⟩ := List.cons.inj h
        have hsame : conversion.tree = tree := htree
        rw [List.nil_append, hsame]
        exact conversions_map_path settings toStdout tree paths
    | cons first before =>
      split at h
      · simp at h
      · next conversion hfile =>
        obtain ⟨rfl, hrest⟩ := List.cons.inj h
        rw [List.cons_append, List.map_cons, conversions]
        simp only [hfile, ih hrest]

/-- Paths whose code is not written at one place. -/
def NeverMeet (settings : Settings) (tree : FileTree) (path other : FilePath) : Prop :=
  ∀ names, Leads settings tree path names → ¬ Leads settings tree other names

instance : Std.Symm (NeverMeet settings tree) :=
  ⟨fun _ _ hapart names hother hpath => hapart names hpath hother⟩

/-- Files whose conversions stay out of each other's way: none of the paths has a null character,
each that can be read has a path to write to, no two of them are written at one place, and none is
written where one of them is read. -/
structure Apart (settings : Settings) (tree : FileTree) (paths : List FilePath) : Prop where
  sources : ∀ path ∈ paths, path.hasNull = false
  named : ∀ path ∈ paths, ∀ source, readSource tree path = .ok source →
    ∃ output, outputPath path settings.extension = .ok output
  outputs : ∀ path ∈ paths, ∀ output, outputPath path settings.extension = .ok output →
    output.hasNull = false
  targets : paths.Pairwise (NeverMeet settings tree)
  elsewhere : ∀ path ∈ paths, ∀ names, Leads settings tree path names →
    ∀ source ∈ paths, tree.locate source ≠ .ok (.inside names)

namespace Apart

variable {others : List FilePath}

theorem perm (h : Apart settings tree paths) (hperm : others.Perm paths) :
    Apart settings tree others where
  sources path hpath := h.sources path (hperm.subset hpath)
  named path hpath := h.named path (hperm.subset hpath)
  outputs path hpath := h.outputs path (hperm.subset hpath)
  targets := (hperm.pairwise_iff (Std.Symm.symm _ _)).mpr h.targets
  elsewhere path hpath names hleads source hsource :=
    h.elsewhere path (hperm.subset hpath) names hleads source (hperm.subset hsource)

theorem eq_of_leads {other : FilePath} (h : Apart settings tree paths) (hpath : path ∈ paths)
    (hother : other ∈ paths) (hleads : Leads settings tree path names)
    (hleads' : Leads settings tree other names) : path = other := by
  by_contra hne
  exact h.targets.forall hpath hother hne names hleads hleads'

theorem writesElsewhere (h : Apart settings tree paths) :
    WritesElsewhere settings false tree paths :=
  .inr fun path hpath output names houtput hwritable =>
    h.elsewhere path hpath names ⟨output, houtput, hwritable.locate_eq⟩

end Apart

theorem exists_convertFile (hnull : path.hasNull = false)
    (hnamed : toStdout = false → ∀ source, readSource tree path = .ok source →
      ∃ output, outputPath path settings.extension = .ok output)
    (houtput : toStdout = false → ∀ output, outputPath path settings.extension = .ok output →
      output.hasNull = false) :
    ∃ conversion, convertFile settings toStdout tree path = .ok conversion := by
  rw [convertFile, hnull]
  simp only [Bool.false_eq_true, if_false]
  split
  · exact ⟨_, rfl⟩
  next source hsource =>
  split
  · exact ⟨_, rfl⟩
  split
  · exact ⟨_, rfl⟩
  next hwritten =>
  have htoFile := Bool.eq_false_iff.mpr hwritten
  obtain ⟨output, hpath⟩ := hnamed htoFile source hsource
  simp only [writeCode, hpath, houtput htoFile output hpath, Bool.false_eq_true, if_false]
  split <;> exact ⟨_, rfl⟩

theorem unbroken_of_hasNull (hnull : ∀ path ∈ paths, path.hasNull = false)
    (hnamed : toStdout = false → ∀ before turn later,
      conversions settings toStdout tree paths = before ++ turn :: later →
        ∀ source, readSource (treeAfter tree before) turn.path = .ok source →
          ∃ output, outputPath turn.path settings.extension = .ok output)
    (houtput : toStdout = false → ∀ path ∈ paths, ∀ output,
      outputPath path settings.extension = .ok output → output.hasNull = false) :
    ∀ turn ∈ conversions settings toStdout tree paths, turn.broken? = none := by
  intro turn hturn
  have hpath := path_mem_of_mem_conversions hturn
  obtain ⟨before, later, h⟩ := List.append_of_mem hturn
  obtain ⟨conversion, hconversion⟩ := exists_convertFile (hnull turn.path hpath)
    (fun htoFile => hnamed htoFile before turn later h) (fun htoFile => houtput htoFile _ hpath)
  exact Turn.broken?_eq_none_iff.mpr ⟨conversion, (outcome_eq h).trans hconversion⟩

/-- Every turn still finds the sources as they were before the run. -/
theorem agree_treeAfter (hwrites : WritesElsewhere settings toStdout tree paths)
    (h : conversions settings toStdout tree paths = before ++ later) :
    Agree paths tree (treeAfter tree before) := by
  refine treeAfter_invariant (fun turn hturn current hagree houtcome => ?_) (.refl paths tree) h
  rw [Turn.treeAfter]
  cases hconversion : turn.outcome with
  | error broken => exact hagree
  | ok conversion =>
    exact hagree.step hwrites (path_mem_of_mem_conversions hturn)
      (houtcome.symm.trans hconversion)

theorem Agree.readSource_eq_ok_iff {after : FileTree} {source : String}
    (h : Agree paths tree after) (hpath : path ∈ paths) :
    readSource after path = .ok source ↔ readSource tree path = .ok source := by
  rw [Command.readSource_eq_ok_iff, Command.readSource_eq_ok_iff]
  simp only [h.read_iff path hpath]

theorem IsLastCode.translates (h : Apart settings tree paths)
    (hlast : IsLastCode settings tree (conversions settings false tree paths) names code)
    (hpath : path ∈ paths) (hleads : Leads settings tree path names) :
    ∃ source, readSource tree path = .ok source ∧
      Translator.translate settings source = .ok code := by
  obtain ⟨before, turn, later, source, hturns, -, hleads', hsource, hcode, -⟩ := hlast
  have hturn : turn ∈ conversions settings false tree paths := by simp [hturns]
  have hmem := path_mem_of_mem_conversions hturn
  have hsame : path = turn.path := h.eq_of_leads hpath hmem hleads hleads'
  refine ⟨source, ?_, hcode⟩
  rw [hsame, ← (agree_treeAfter h.writesElsewhere hturns).readSource_eq_ok_iff hmem]
  exact hsource

/-- Whether a conversion goes well depends on its own source and output path alone. -/
theorem succeeded_iff_isConvertible (h : Apart settings tree paths)
    (hturn : turn ∈ conversions settings false tree paths) :
    Succeeded turn.outcome ↔ IsConvertible settings false tree turn.path :=
  succeeded_iff_of_writesElsewhere h.writesElsewhere (.refl paths tree) (List.Subset.refl paths)
    hturn

theorem Apart.map_path_conversions (h : Apart settings tree paths) :
    (conversions settings false tree paths).map Turn.path = paths := by
  refine Command.map_path_conversions
    (unbroken_of_hasNull h.sources (fun _ before turn later hturns source hsource => ?_)
      fun _ => h.outputs)
  have hturn : turn ∈ conversions settings false tree paths := by simp [hturns]
  have hmem := path_mem_of_mem_conversions hturn
  have hagree := agree_treeAfter h.writesElsewhere hturns
  exact h.named turn.path hmem source ((hagree.readSource_eq_ok_iff hmem).mp hsource)

theorem exists_turn_iff (h : Apart settings tree paths) :
    (∃ turn ∈ conversions settings false tree paths,
        turn.path = path ∧ Succeeded turn.outcome) ↔
      path ∈ paths ∧ IsConvertible settings false tree path := by
  have hmap := h.map_path_conversions
  constructor
  · rintro ⟨turn, hturn, rfl, hsucceeded⟩
    exact ⟨path_mem_of_mem_conversions hturn, (succeeded_iff_isConvertible h hturn).mp hsucceeded⟩
  · rintro ⟨hpath, hconvertible⟩
    rw [← hmap] at hpath
    obtain ⟨turn, hturn, rfl⟩ := List.mem_map.mp hpath
    exact ⟨turn, hturn, rfl, (succeeded_iff_isConvertible h hturn).mpr hconvertible⟩

theorem IsLastCode.exists_turn {turns : List Turn} (h : IsLastCode settings tree turns names code) :
    ∃ turn ∈ turns, Succeeded turn.outcome ∧ Leads settings tree turn.path names := by
  obtain ⟨before, turn, later, -, rfl, hsucceeded, hleads, -⟩ := h
  exact ⟨turn, by simp, hsucceeded, hleads⟩

section Order

variable {others : List FilePath}

theorem exists_turn_iff_of_perm (h : Apart settings tree paths) (hperm : others.Perm paths)
    (path : FilePath) :
    (∃ turn ∈ conversions settings false tree others,
        turn.path = path ∧ Succeeded turn.outcome) ↔
      ∃ turn ∈ conversions settings false tree paths,
        turn.path = path ∧ Succeeded turn.outcome := by
  rw [exists_turn_iff h, exists_turn_iff (h.perm hperm), hperm.mem_iff]

theorem IsLastCode.exists_turn_of_perm (h : Apart settings tree paths)
    (hperm : others.Perm paths)
    (hlast : IsLastCode settings tree (conversions settings false tree paths) names code) :
    ∃ turn ∈ conversions settings false tree others,
      Succeeded turn.outcome ∧ Leads settings tree turn.path names := by
  obtain ⟨turn, hturn, hsucceeded, hleads⟩ := hlast.exists_turn
  obtain ⟨other, hother, hpath, hsucceeded⟩ :=
    (exists_turn_iff_of_perm h hperm turn.path).mpr ⟨turn, hturn, rfl, hsucceeded⟩
  exact ⟨other, hother, hsucceeded, hpath ▸ hleads⟩

theorem IsLastCode.unique_of_perm {code' : String} (h : Apart settings tree paths)
    (hperm : others.Perm paths)
    (hlast : IsLastCode settings tree (conversions settings false tree paths) names code)
    (hlast' : IsLastCode settings tree (conversions settings false tree others) names code') :
    code' = code := by
  -- Both codes come from the one path that leads to the place, and from its source before the run.
  obtain ⟨turn, hturn, -, hleads⟩ := hlast.exists_turn
  have hpath : turn.path ∈ paths := path_mem_of_mem_conversions hturn
  obtain ⟨source, hsource, hcode⟩ := hlast.translates h hpath hleads
  obtain ⟨source', hsource', hcode'⟩ :=
    hlast'.translates (h.perm hperm) (hperm.symm.subset hpath) hleads
  cases hsource.symm.trans hsource'
  cases hcode.symm.trans hcode'
  rfl

theorem sameFiles_treeAfter (h : Apart settings tree paths) (hperm : others.Perm paths) :
    (treeAfter tree (conversions settings false tree paths)).SameFiles
      (treeAfter tree (conversions settings false tree others)) where
  toSameDirectories :=
    (sameDirectories_treeAfter (List.append_nil _).symm).symm.trans
      (sameDirectories_treeAfter (List.append_nil _).symm)
  find?_eq names := by
    have hplace := placeAfter names (List.append_nil (conversions settings false tree paths)).symm
    have hplace' :=
      placeAfter names (List.append_nil (conversions settings false tree others)).symm
    cases hplace with
    | kept hfind hunwritten =>
      cases hplace' with
      | kept hfind' hunwritten' => exact hfind'.trans hfind.symm
      | written hlast' hfind' =>
        obtain ⟨turn, hturn, hsucceeded, hleads⟩ :=
          hlast'.exists_turn_of_perm (h.perm hperm) hperm.symm
        exact absurd hleads (hunwritten turn hturn hsucceeded)
    | written hlast hfind =>
      cases hplace' with
      | kept hfind' hunwritten' =>
        obtain ⟨turn, hturn, hsucceeded, hleads⟩ := hlast.exists_turn_of_perm h hperm
        exact absurd hleads (hunwritten' turn hturn hsucceeded)
      | written hlast' hfind' => rw [hfind, hfind', hlast.unique_of_perm h hperm hlast']

theorem read_treeAfter (h : Apart settings tree paths)
    (hturn : turn ∈ conversions settings false tree paths) (hsucceeded : Succeeded turn.outcome) :
    ∃ output source code, outputPath turn.path settings.extension = .ok output ∧
      readSource tree turn.path = .ok source ∧ Translator.translate settings source = .ok code ∧
      (treeAfter tree (conversions settings false tree paths)).read output =
        .ok (Text.Utf8.encode code) := by
  have hall : conversions settings false tree paths =
      conversions settings false tree paths ++ [] := (List.append_nil _).symm
  obtain ⟨-, -, -, -, hshown | ⟨output, names, houtput, hwritable⟩⟩ :=
    (succeeded_iff_isConvertible h hturn).mp hsucceeded
  · cases hshown
  have hleads : Leads settings tree turn.path names := ⟨output, houtput, hwritable.locate_eq⟩
  cases placeAfter names hall with
  | kept find?_eq unwritten => exact absurd hleads (unwritten turn hturn hsucceeded)
  | written last find?_eq =>
    obtain ⟨source, hsource, hcode⟩ :=
      last.translates h (path_mem_of_mem_conversions hturn) hleads
    refine ⟨output, source, _, houtput, hsource, hcode, ?_⟩
    exact ((sameDirectories_treeAfter hall).isWritable_iff.mpr hwritable).read_eq find?_eq

/-- The files of a batch that stay apart are independent. Each one goes well exactly if it would
alone, its code is that of the source as it stood before the run, every order of the files leaves
the same files behind and lets the same ones go well, and what comes of the others is the same
without one that fails. -/
theorem convertAll_independent (h : Apart settings tree paths) :
    let turns := conversions settings false tree paths
    let after := (convertAll settings false tree paths).tree
    turns.map Turn.path = paths ∧
    (∀ turn ∈ turns, Succeeded turn.outcome ↔ IsConvertible settings false tree turn.path) ∧
    (∀ turn ∈ turns, Succeeded turn.outcome →
      ∃ output source code, outputPath turn.path settings.extension = .ok output ∧
        readSource tree turn.path = .ok source ∧ Translator.translate settings source = .ok code ∧
        after.read output = .ok (Text.Utf8.encode code)) ∧
    (∀ others, others.Perm paths →
      let turns' := conversions settings false tree others
      turns'.map Turn.path = others ∧
        after.SameFiles (convertAll settings false tree others).tree ∧
        ∀ path, (∃ turn ∈ turns', turn.path = path ∧ Succeeded turn.outcome) ↔
          ∃ turn ∈ turns, turn.path = path ∧ Succeeded turn.outcome) ∧
    ∀ before turn later, turns = before ++ turn :: later → ¬ Succeeded turn.outcome →
      conversions settings false tree ((before ++ later).map Turn.path) = before ++ later := by
  intro turns after
  have hafter : after = treeAfter tree turns := tree_convertAll settings false tree paths
  refine ⟨h.map_path_conversions, fun turn => succeeded_iff_isConvertible h,
    fun turn hturn hsucceeded => ?_,
    fun others hperm => ⟨(h.perm hperm).map_path_conversions, ?_, exists_turn_iff_of_perm h hperm⟩,
    fun before turn later hturns hfailed => conversions_without_failed hturns hfailed⟩
  · rw [hafter]
    exact read_treeAfter h hturn hsucceeded
  · rw [hafter, tree_convertAll]
    exact sameFiles_treeAfter h hperm

theorem convertAll_independent_two_files :
    let tree : FileTree :=
      { entries := [(["a.ls"], .file (Text.Utf8.encode "\"")),
          (["b.ls"], .file (Text.Utf8.encode "x = 1"))] }
    let failing : FilePath := { parts := ["a.ls"] }
    let source : FilePath := { parts := ["b.ls"] }
    let effect := convertAll {} false tree [failing, source]
    Apart {} tree [failing, source] ∧
      effect.tree.SameFiles (convertAll {} false tree [source, failing]).tree ∧
      effect.tree.read { parts := ["b.ts"] } = .ok (Text.Utf8.encode "x = 1;") := by
  intro tree failing source effect
  have hplaces : tree.locate failing = .ok (.inside ["a.ls"]) ∧
      tree.locate source = .ok (.inside ["b.ls"]) := by
    constructor <;> cbv
  have htargets : tree.locate { parts := ["a.ts"] } = .ok (.inside ["a.ts"]) ∧
      tree.locate { parts := ["b.ts"] } = .ok (.inside ["b.ts"]) := by
    constructor <;> cbv
  have hfailing : Leads {} tree failing ["a.ts"] := ⟨_, rfl, htargets.1⟩
  have hsource : Leads {} tree source ["b.ts"] := ⟨_, rfl, htargets.2⟩
  have hapart : Apart {} tree [failing, source] :=
    { sources := by
        simp [FileTree.not_hasNull_of_locate hplaces.1, FileTree.not_hasNull_of_locate hplaces.2]
      named := by
        simp only [List.forall_mem_cons]
        exact ⟨fun _ _ => ⟨_, rfl⟩, fun _ _ => ⟨_, rfl⟩, by simp⟩
      outputs := by
        simp only [List.forall_mem_cons]
        refine ⟨?_, ?_, by simp⟩
        · rintro output ⟨⟩
          exact FileTree.not_hasNull_of_locate htargets.1
        · rintro output ⟨⟩
          exact FileTree.not_hasNull_of_locate htargets.2
      targets := by
        rw [List.pairwise_pair]
        intro names hnames hother
        exact absurd ((hnames.unique hfailing).symm.trans (hother.unique hsource)) (by decide)
      elsewhere := by
        simp only [List.forall_mem_cons]
        refine ⟨fun names hnames => ?_, fun names hnames => ?_, by simp⟩
        · rw [hnames.unique hfailing, hplaces.1, hplaces.2]
          simp
        · rw [hnames.unique hsource, hplaces.1, hplaces.2]
          simp }
  obtain ⟨hpaths, hsucceeded, hwritten, horder, -⟩ := convertAll_independent hapart
  refine ⟨hapart, (horder [source, failing] (List.Perm.swap ..)).2.1, ?_⟩
  have hmem : source ∈ (conversions {} false tree [failing, source]).map Turn.path := by
    rw [hpaths]
    simp
  obtain ⟨turn, hturn, hpath⟩ := List.mem_map.mp hmem
  have hread : readSource tree source = .ok "x = 1" := by cbv
  have hprogram : Program.ofText "x = 1" = .ok ⟨[.assign "x" ["1"]], [1]⟩ := by cbv
  have hcode : Translator.translate {} "x = 1" = .ok "x = 1;" :=
    Translator.translate_of_ofText rfl hprogram
  have hconvertible : IsConvertible {} false tree turn.path := by
    rw [hpath]
    exact ⟨_, _, hread, hcode, .inr ⟨{ parts := ["b.ts"] }, ["b.ts"], rfl, by cbv, by decide⟩⟩
  obtain ⟨output, text, code, houtput, htext, htranslate, hafter⟩ :=
    hwritten turn hturn ((hsucceeded turn hturn).mpr hconvertible)
  rw [hpath] at houtput htext
  cases houtput
  cases hread.symm.trans htext
  cases hcode.symm.trans htranslate
  exact hafter

end Order

end Linewise.Command
