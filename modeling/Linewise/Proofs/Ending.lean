import Linewise.Proofs.Independence
import Linewise.Proofs.Loading
import Linewise.Proofs.Markup

/-! # How a run of conversions ends

A run breaks off when its settings cannot be looked for, when the project file has a wrong shape, or
when a path has a null character. Otherwise settings that cannot be used are reported, or every
listed file has its conversion and every failure its report. Whatever is reported can be shown.
-/

namespace Linewise.Command

open Console

variable {settings : Settings} {toStdout : Bool} {tree : FileTree} {path : FilePath}
  {paths : List FilePath} {turn : Turn} {before later : List Turn} {source : String}
  {conversion : Conversion}
  {effect : Effect} {cs : List Char} {opened : List (List Char)}

def isTagless (text : String) : Bool :=
  text.toList.all fun c => c != '\\' && c != '['

theorem isTagless_toString (n : Nat) : isTagless (toString n) = true := by
  refine List.all_eq_true.mpr fun c hc => ?_
  have hdigits : (toString n).toList = Nat.toDigits 10 n := by simp
  have hdigit := Nat.isDigit_of_mem_toDigits (by decide) (by decide) (hdigits ▸ hc)
  have hslash : c ≠ '\\' := by
    rintro rfl
    exact absurd hdigit (by decide)
  have hbracket : c ≠ '[' := by
    rintro rfl
    exact absurd hdigit (by decide)
  simp [hslash, hbracket]

theorem isTagless_of_mem_deeds : ∀ deed ∈ deeds, isTagless deed = true := by
  decide

theorem isShown_tagless_append {text : String} (htext : isTagless text = true)
    (h : IsShown opened cs) : IsShown opened (text.toList ++ cs) := by
  refine h.plain_append fun c hc => ?_
  simpa using List.all_eq_true.mp htext c hc

theorem isShown_tagless {text : String} (htext : isTagless text = true) :
    IsShown opened text.toList := by
  have h := isShown_tagless_append htext (isShown_nil opened)
  rwa [List.append_nil] at h

theorem toList_shownPath_append (path : FilePath) (cs : List Char) :
    (shownPath path).toList ++ cs =
      slashedTag 0 "path".toList ((escape path.toString).toList ++
        slashedTag 0 ('/' :: "path".toList) cs) := by
  rw [shownPath, String.toList_append, String.toList_append, List.append_assoc, List.append_assoc]
  rfl

/-- A shown path opens and closes a style, or leaves it open, so what follows has to be shown in
either case. -/
theorem isShown_shownPath_append (h : ∀ opened, IsShown opened cs) (path : FilePath) :
    IsShown opened ((shownPath path).toList ++ cs) := by
  obtain ⟨style, hstyle⟩ := exists_isStyleName_path
  rw [toList_shownPath_append]
  exact hstyle.isShown_escape h path.toString

theorem isShown_failureMessage {deed : String} (hdeed : deed ∈ deeds) (path : FilePath)
    (issue : String) : IsShown opened (failureMessage deed path issue).toList := by
  have htail (opened : List (List Char)) : IsShown opened (": ".toList ++ (escape issue).toList) :=
    isShown_tagless_append (by decide) (isShown_escape issue)
  simp only [failureMessage, String.toList_append, List.append_assoc]
  refine isShown_tagless_append (by decide) ?_
  refine isShown_tagless_append (isTagless_of_mem_deeds deed hdeed) ?_
  exact isShown_tagless_append (by decide) (isShown_shownPath_append htail path)

theorem isShown_successMessage (path output : FilePath) :
    IsShown opened ("Transpiled: " ++ shownPath path ++ " -> " ++ shownPath output).toList := by
  have htail (opened : List (List Char)) :
      IsShown opened (" -> ".toList ++ (shownPath output).toList) := by
    have houtput : IsShown opened ((shownPath output).toList ++ []) :=
      isShown_shownPath_append isShown_nil output
    rw [List.append_nil] at houtput
    exact isShown_tagless_append (by decide) houtput
  simp only [String.toList_append, List.append_assoc]
  exact isShown_tagless_append (by decide) (isShown_shownPath_append htail path)

theorem Converts.isShown_report (h : Converts settings toStdout tree path conversion) :
    conversion.report.IsShown := by
  cases h with
  | failed known issue of => exact Report.isShown_record _ (isShown_failureMessage known _ issue)
  | displayed code toConsole => exact ⟨_, rfl⟩
  | written toFile writes => exact Report.isShown_record _ (isShown_successMessage _ _)

theorem isShown_counts (passed failed : Nat) :
    IsShown [] ("\n[bold]Summary:[/bold] " ++ toString passed ++ " Passed, " ++ toString failed ++
      " Failed.").toList := by
  obtain ⟨style, hstyle⟩ := exists_isStyleName_bold
  have hcounts : IsShown [] (" ".toList ++ ((toString passed).toList ++ (" Passed, ".toList ++
      ((toString failed).toList ++ " Failed.".toList)))) := by
    refine isShown_tagless_append (by decide) ?_
    refine isShown_tagless_append (isTagless_toString passed) ?_
    refine isShown_tagless_append (by decide) ?_
    exact isShown_tagless_append (isTagless_toString failed) (isShown_tagless (by decide))
  have hword : IsShown [style]
      ("Summary:".toList ++ slashedTag 0 ('/' :: "bold".toList) (" ".toList ++
        ((toString passed).toList ++ (" Passed, ".toList ++
          ((toString failed).toList ++ " Failed.".toList))))) :=
    isShown_tagless_append (by decide)
      (hcounts.styleTag hstyle.isTagBody_closing rfl hstyle.applyTag_closing)
  simp only [String.toList_append, List.append_assoc]
  exact (hstyle.isShown_opening hword).cons (by decide) (by decide)

theorem isShown_summary (batch : Batch) : ∀ report ∈ batch.summary, report.IsShown := by
  rw [Batch.summary]
  split
  · simp only [List.forall_mem_singleton]
    refine Report.isShown_record _ ?_
    simp only [String.toList_append, List.append_assoc]
    refine isShown_tagless_append (by decide) ?_
    refine isShown_tagless_append (isTagless_toString _) ?_
    refine isShown_tagless_append (by decide) ?_
    exact isShown_tagless_append (isTagless_toString _) (isShown_tagless (by decide))
  · have htexts : isTagless "Transpilation Report" = true ∧ isTagless "File" = true ∧
        isTagless "Issues" = true := by decide
    simp only [List.forall_mem_cons]
    refine ⟨Report.isShown_table (isShown_tagless htexts.1) ?_,
      Report.isShown_markup (isShown_counts _ _), by simp⟩
    simp only [List.forall_mem_cons, List.forall_mem_map]
    exact ⟨⟨isShown_tagless htexts.2.1, fun _ _ => isShown_escape _⟩,
      ⟨isShown_tagless htexts.2.2, fun _ _ => isShown_escape _⟩, by simp⟩

theorem status_convertAll_le (settings : Settings) (toStdout : Bool) (tree : FileTree)
    (paths : List FilePath) : (convertAll settings toStdout tree paths).status ≤ 1 := by
  rw [convertAll]
  dsimp only
  split <;> decide

theorem broken_convertAll (settings : Settings) (toStdout : Bool) (tree : FileTree)
    (paths : List FilePath) :
    (convertAll settings toStdout tree paths).broken =
      (conversions settings toStdout tree paths).findSome? Turn.broken? :=
  (foldl_step settings toStdout tree [] [] paths).2.2

theorem exists_reports_convertAll (settings : Settings) (toStdout : Bool) (tree : FileTree)
    (paths : List FilePath) :
    ∃ opening closing, (convertAll settings toStdout tree paths).reports =
        opening ++ (conversions settings toStdout tree paths).filterMap Turn.report? ++ closing ∧
      (∀ report ∈ opening, report.IsShown) ∧ ∀ report ∈ closing, report.IsShown := by
  have hreports := (foldl_step settings toStdout tree [] [] paths).1
  rw [List.nil_append] at hreports
  rw [convertAll, hreports]
  refine ⟨_, _, rfl, ?_, ?_⟩
  · split
    · rw [List.forall_mem_singleton]
      refine Report.isShown_record _ ?_
      simp only [String.toList_append, List.append_assoc]
      refine isShown_tagless_append (by decide) ?_
      exact isShown_tagless_append (isTagless_toString _) (isShown_tagless (by decide))
    · simp
  · split
    · simp
    · exact isShown_summary _

theorem report?_eq_some_iff {report : Report} :
    turn.report? = some report ↔ ∃ conversion, turn.outcome = .ok conversion ∧
      conversion.report = report := by
  obtain ⟨path, _ | conversion⟩ := turn <;> simp [Turn.report?, Except.toOption]

theorem exists_converts (hturn : turn ∈ conversions settings toStdout tree paths)
    (hconversion : turn.outcome = .ok conversion) :
    ∃ before later, conversions settings toStdout tree paths = before ++ turn :: later ∧
      Converts settings toStdout (treeAfter tree before) turn.path conversion := by
  obtain ⟨before, later, h⟩ := List.append_of_mem hturn
  exact ⟨before, later, h, converts_of_convertFile ((outcome_eq h).symm.trans hconversion)⟩

theorem isShown_convertAll (settings : Settings) (toStdout : Bool) (tree : FileTree)
    (paths : List FilePath) :
    ∀ report ∈ (convertAll settings toStdout tree paths).reports, report.IsShown := by
  obtain ⟨opening, closing, hreports, hopening, hclosing⟩ :=
    exists_reports_convertAll settings toStdout tree paths
  rw [hreports]
  intro report hreport
  rcases List.mem_append.mp hreport with hreport | hreport
  · rcases List.mem_append.mp hreport with hreport | hreport
    · exact hopening report hreport
    · obtain ⟨turn, hturn, hsome⟩ := List.mem_filterMap.mp hreport
      obtain ⟨conversion, hconversion, rfl⟩ := report?_eq_some_iff.mp hsome
      obtain ⟨before, later, -, hconverts⟩ := exists_converts hturn hconversion
      exact hconverts.isShown_report
  · exact hclosing report hreport

/-- A turn that fails is reported, of its path or of the path to write to. -/
theorem exists_failure_report (hturn : turn ∈ conversions settings toStdout tree paths)
    (hunbroken : turn.broken? = none) (hfailed : ¬ Succeeded turn.outcome) :
    ∃ deed ∈ deeds, ∃ shown issue,
      (shown = turn.path ∨ outputPath turn.path settings.extension = .ok shown) ∧
      .record .error (failureMessage deed shown issue) ∈
        (convertAll settings toStdout tree paths).reports := by
  obtain ⟨conversion, hconversion⟩ := Turn.broken?_eq_none_iff.mp hunbroken
  have hreport : conversion.report ∈ (convertAll settings toStdout tree paths).reports := by
    obtain ⟨opening, closing, hreports, -, -⟩ :=
      exists_reports_convertAll settings toStdout tree paths
    have hmem := List.mem_filterMap.mpr
      ⟨turn, hturn, report?_eq_some_iff.mpr ⟨conversion, hconversion, rfl⟩⟩
    simp [hreports, hmem]
  obtain ⟨before, later, -, hconverts⟩ := exists_converts hturn hconversion
  cases hconverts with
  | failed known issue of => exact ⟨_, known, _, issue, of, hreport⟩
  | displayed code toConsole => exact absurd ⟨_, hconversion, rfl⟩ hfailed
  | written toFile writes => exact absurd ⟨_, hconversion, rfl⟩ hfailed

theorem exists_outputPath (hsuffix : FilePath.isSuffix settings.extension = true)
    (hplace : tree.isDirectory tree.workingDirectory = true)
    (hsource : readSource tree path = .ok source) :
    ∃ output, outputPath path settings.extension = .ok output := by
  obtain ⟨octets, hread, -⟩ := readSource_eq_ok_iff.mp hsource
  have hparts := FileTree.ne_nil_of_read hplace hread
  exact ⟨_, FilePath.withSuffix_eq_ok_iff.mpr
    ⟨hsuffix, _, List.getLast?_eq_some_getLast hparts, rfl⟩⟩

theorem exists_outputPath_treeAfter (hsuffix : FilePath.isSuffix settings.extension = true)
    (hplace : tree.isDirectory tree.workingDirectory = true)
    (hturns : conversions settings toStdout tree paths = before ++ turn :: later)
    (hsource : readSource (treeAfter tree before) turn.path = .ok source) :
    ∃ output, outputPath turn.path settings.extension = .ok output := by
  have hsame := sameDirectories_treeAfter hturns
  refine exists_outputPath hsuffix ?_ hsource
  rw [hsame.workingDirectory_eq, hsame.isDirectory_eq, hplace]

theorem unbroken_of_null_not_mem (hsuffix : FilePath.isSuffix settings.extension = true)
    (hplace : tree.isDirectory tree.workingDirectory = true)
    (hnull : ∀ path ∈ paths, path.hasNull = false)
    (hextension : toStdout = false → '\x00' ∉ settings.extension.toList) :
    ∀ turn ∈ conversions settings toStdout tree paths, turn.broken? = none :=
  unbroken_of_hasNull hnull
    (fun _ _ _ _ hturns _ => exists_outputPath_treeAfter hsuffix hplace hturns)
    fun hwritten path hpath _ houtput =>
      FilePath.hasNull_withSuffix (hnull path hpath) (hextension hwritten) houtput

theorem exists_broken_of_hasNull (hpath : path ∈ paths) (hnull : path.hasNull = true) :
    ∃ turn ∈ conversions settings toStdout tree paths, turn.broken? ≠ none := by
  by_contra hnone
  have hunbroken : ∀ turn ∈ conversions settings toStdout tree paths, turn.broken? = none :=
    fun turn hturn => by_contra fun hbroken => hnone ⟨turn, hturn, hbroken⟩
  rw [← map_path_conversions hunbroken] at hpath
  obtain ⟨turn, hturn, rfl⟩ := List.mem_map.mp hpath
  obtain ⟨before, later, h⟩ := List.append_of_mem hturn
  obtain ⟨conversion, hconversion⟩ := Turn.broken?_eq_none_iff.mp (hunbroken turn hturn)
  rw [outcome_eq h, convertFile, if_pos hnull] at hconversion
  cases hconversion

section Run

variable {arguments : List String} {extension : Option String} {checkBlocks : Bool}
  {fault : Project.Fault}

theorem run_eq (h : parse arguments = .ok (.convert paths extension checkBlocks toStdout)) :
    run tree arguments =
      match convert tree paths extension checkBlocks toStdout with
      | .ok effect => .done effect
      | .error fault => .broken fault := by
  rw [run, h]
  rfl

theorem run_of_settings (h : parse arguments = .ok (.convert paths extension checkBlocks toStdout))
    (hsettings : settingsFor tree paths extension checkBlocks = .ok settings) :
    run tree arguments = .done (convertAll settings toStdout tree paths) := by
  rw [run_eq h, convert, hsettings]

theorem run_of_fault (h : parse arguments = .ok (.convert paths extension checkBlocks toStdout))
    (hfault : settingsFor tree paths extension checkBlocks = .error fault) :
    run tree arguments =
      if fault.isInvalid then
        .done { tree, status := 1
                reports := [.record .error ("Invalid configuration: " ++ escape fault.message)] }
      else .broken fault := by
  rw [run_eq h, convert_of_fault hfault]
  cases hinvalid : fault.isInvalid <;> rfl

theorem run_eq_broken_iff
    (h : parse arguments = .ok (.convert paths extension checkBlocks toStdout)) :
    run tree arguments = .broken fault ↔
      settingsFor tree paths extension checkBlocks = .error fault ∧ fault.isInvalid = false := by
  cases hsettings : settingsFor tree paths extension checkBlocks with
  | ok settings => simp [run_of_settings h hsettings]
  | error missed =>
    rw [run_of_fault h hsettings]
    cases hinvalid : missed.isInvalid with
    | true =>
      simp only [if_true, reduceCtorEq, Except.error.injEq, false_iff]
      rintro ⟨rfl, hvalid⟩
      cases hinvalid.symm.trans hvalid
    | false =>
      simp only [Bool.false_eq_true, if_false, Ending.broken.injEq, Except.error.injEq]
      exact ⟨fun heq => ⟨heq, heq ▸ hinvalid⟩, And.left⟩

theorem isShown_run (h : parse arguments = .ok (.convert paths extension checkBlocks toStdout))
    (hrun : run tree arguments = .done effect) : ∀ report ∈ effect.reports, report.IsShown := by
  cases hsettings : settingsFor tree paths extension checkBlocks with
  | ok settings =>
    cases (run_of_settings h hsettings).symm.trans hrun
    exact isShown_convertAll settings toStdout tree paths
  | error fault =>
    rw [run_of_fault h hsettings] at hrun
    split at hrun
    · cases hrun
      rw [List.forall_mem_singleton]
      refine Report.isShown_record _ ?_
      rw [String.toList_append]
      exact isShown_tagless_append (by decide) (isShown_escape _)
    · cases hrun

end Run

/-- How a run of the program ends that is asked to convert files. It breaks off only in the ways in
which the loading of settings does. Settings that cannot be used are reported, and nothing is
converted. Under settings that are loaded the run breaks off at a null character in a path;
otherwise every listed file has its conversion, and every failure is reported of its own file.
Whatever is reported can be shown. -/
theorem run_convert (tree : FileTree) (arguments : List String) (paths : List FilePath)
    (extension : Option String) (checkBlocks toStdout : Bool)
    (h : parse arguments = .ok (.convert paths extension checkBlocks toStdout)) :
    let directory := (paths.headD {}).parent
    (∀ fault, run tree arguments = .broken fault ↔
      directory.hasNull = false ∧ Project.BreaksOff tree directory fault) ∧
    (∀ fault, settingsFor tree paths extension checkBlocks = .error fault →
      fault.isInvalid = true → run tree arguments = .done
        { tree, status := 1
          reports := [.record .error ("Invalid configuration: " ++ escape fault.message)] }) ∧
    (∀ settings, settingsFor tree paths extension checkBlocks = .ok settings →
      let turns := conversions settings toStdout tree paths
      ∃ effect, run tree arguments = .done effect ∧ effect.status ≤ 1 ∧
        ((∃ path ∈ paths, path.hasNull = true) → effect.broken ≠ none) ∧
        (tree.isDirectory tree.workingDirectory = true → ∀ before turn later source,
          turns = before ++ turn :: later →
          readSource (treeAfter tree before) turn.path = .ok source →
            ∃ output, outputPath turn.path settings.extension = .ok output) ∧
        (tree.isDirectory tree.workingDirectory = true → (∀ path ∈ paths, path.hasNull = false) →
          (toStdout = false → '\x00' ∉ settings.extension.toList) →
            effect.broken = none ∧ turns.map Turn.path = paths ∧
            ∀ turn ∈ turns, ¬ Succeeded turn.outcome →
              ∃ deed ∈ deeds, ∃ shown issue,
                (shown = turn.path ∨ outputPath turn.path settings.extension = .ok shown) ∧
                .record .error (failureMessage deed shown issue) ∈ effect.reports)) ∧
    ∀ effect, run tree arguments = .done effect →
      ∃ lines, Report.allLines effect.reports = .ok lines := by
  intro directory
  refine ⟨fun fault => ?_, fun fault hfault hinvalid => ?_, fun settings hsettings => ?_,
    fun effect hrun => Report.exists_allLines (isShown_run h hrun)⟩
  · rw [run_eq_broken_iff h]
    exact Project.load_eq_error_iff rfl
  · rw [run_of_fault h hfault, if_pos hinvalid]
  · intro turns
    -- The suffix of loaded settings is valid, so only null characters can break the batch off.
    have hsuffix := (Project.isExtension_of_load hsettings).isSuffix
    refine ⟨_, run_of_settings h hsettings, status_convertAll_le .., ?_, ?_, ?_⟩
    · rintro ⟨path, hpath, hnull⟩ hunbroken
      obtain ⟨turn, hturn, hbroken⟩ := exists_broken_of_hasNull hpath hnull
      rw [broken_convertAll, List.findSome?_eq_none_iff] at hunbroken
      exact hbroken (hunbroken turn hturn)
    · exact fun hplace before turn later source => exists_outputPath_treeAfter hsuffix hplace
    · intro hplace hnull hextension
      have hunbroken := unbroken_of_null_not_mem hsuffix hplace hnull hextension
      refine ⟨?_, map_path_conversions hunbroken, fun turn hturn hfailed =>
        exists_failure_report hturn (hunbroken turn hturn) hfailed⟩
      rw [broken_convertAll, List.findSome?_eq_none_iff]
      exact hunbroken

theorem run_convert_missing_file :
    let tree : FileTree := { entries := [(["x.ls"], .file (Text.Utf8.encode "x = 1"))] }
    let paths : List FilePath := [{ parts := ["y.ls"] }, { parts := ["x.ls"] }]
    parse ["convert", "y.ls", "x.ls"] = .ok (.convert paths none false false) ∧
      ∃ effect, run tree ["convert", "y.ls", "x.ls"] = .done effect ∧ effect.broken = none ∧
        (conversions {} false tree paths).map Turn.path = paths ∧
        ∃ lines, Report.allLines effect.reports = .ok lines := by
  intro tree paths
  have hparse : parse ["convert", "y.ls", "x.ls"] = .ok (.convert paths none false false) := rfl
  have hsettings : settingsFor tree paths none false = .ok {} := rfl
  have hnull : ∀ path ∈ paths, path.hasNull = false := by
    simp only [paths, List.forall_mem_cons]
    exact ⟨by cbv, by cbv, by simp⟩
  obtain ⟨-, -, hconverts, hshown⟩ := run_convert tree _ paths none false false hparse
  obtain ⟨effect, hrun, -, -, -, hends⟩ := hconverts {} hsettings
  obtain ⟨hbroken, hpaths, -⟩ := hends (by decide) hnull (by decide)
  exact ⟨hparse, effect, hrun, hbroken, hpaths, hshown effect hrun⟩

/-- A project file whose tools are a number breaks the run off. -/
theorem run_convert_misshapen_project :
    let tree : FileTree :=
      { entries := [(["pyproject.toml"], .file (Text.Utf8.encode "tool = 1")),
          (["x.ls"], .file (Text.Utf8.encode "x = 1"))] }
    parse ["convert", "x.ls"] = .ok (.convert [{ parts := ["x.ls"] }] none false false) ∧
      run tree ["convert", "x.ls"] = .broken (.noTable (.integer 1)) := by
  intro tree
  have hparse : parse ["convert", "x.ls"] =
      .ok (.convert [{ parts := ["x.ls"] }] none false false) := rfl
  have hfile : Project.nearest? tree (tree.resolve {}) =
      .ok (some ([], Text.Utf8.encode "tool = 1")) := rfl
  have hdocument : Toml.parse "tool = 1" = .ok [("tool", .integer 1)] := by cbv
  have hbroken : Project.BreaksOff tree {} (.noTable (.integer 1)) :=
    .misshapen hfile (Text.Utf8.decode_encode _) hdocument (.tools (by rintro ⟨_, ⟨⟩⟩))
  have hload := Project.load_of_breaksOff (by decide) hbroken
  exact ⟨hparse, (run_eq_broken_iff hparse).mpr ⟨hload _, rfl⟩⟩

end Linewise.Command
