import Linewise.Proofs.Conversion
import Linewise.Proofs.Entries
import Linewise.Proofs.Paths

/-! # The status of a batch

A batch keeps one result for each text of a path, the one of its last conversion. So a failure goes
into the status only if no later conversion of the same path takes its result away. That can happen
to no path that is listed once, and to no path to which the batch does not write.
-/

namespace Linewise.Command

structure Turn where
  path : FilePath
  outcome : Except Breach Conversion

/-- The conversions of a batch in their order, each in the tree that the ones before it have left.
One that breaks off is the last. -/
def conversions (settings : Settings) (toStdout : Bool) : FileTree → List FilePath → List Turn
  | _, [] => []
  | tree, path :: paths =>
    match convertFile settings toStdout tree path with
    | .error broken => [⟨path, .error broken⟩]
    | .ok conversion =>
      ⟨path, .ok conversion⟩ :: conversions settings toStdout conversion.tree paths

namespace Turn

def report? (turn : Turn) : Option Console.Report :=
  turn.outcome.toOption.map Conversion.report

def result? (turn : Turn) : Option (String × Option String) :=
  turn.outcome.toOption.map fun conversion => (turn.path.toString, conversion.issue)

def broken? (turn : Turn) : Option Breach :=
  match turn.outcome with
  | .error broken => some broken
  | .ok _ => none

theorem result?_eq_some_iff {turn : Turn} {result : String × Option String} :
    turn.result? = some result ↔
      ∃ conversion, turn.outcome = .ok conversion ∧
        (turn.path.toString, conversion.issue) = result := by
  obtain ⟨path, _ | conversion⟩ := turn <;> simp [result?, Except.toOption]

theorem broken?_eq_none_iff {turn : Turn} :
    turn.broken? = none ↔ ∃ conversion, turn.outcome = .ok conversion := by
  obtain ⟨path, _ | conversion⟩ := turn <;> simp [broken?]

end Turn

variable {settings : Settings} {toStdout : Bool} {tree after : FileTree} {path : FilePath}
  {paths rest : List FilePath} {turn : Turn} {turns : List Turn} {batch : Batch}
  {conversion : Conversion}

theorem foldl_step_of_broken (h : batch.broken.isSome) :
    paths.foldl (Batch.step settings toStdout) batch = batch := by
  induction paths with
  | nil => rfl
  | cons path paths ih =>
    have hstep : Batch.step settings toStdout batch path = batch := by
      unfold Batch.step
      split
      · rfl
      · next hbroken => simp [hbroken] at h
    rw [List.foldl_cons, hstep, ih]

theorem foldl_step (settings : Settings) (toStdout : Bool) (tree : FileTree)
    (reports : List Console.Report) (results : Entries (Option String)) (paths : List FilePath) :
    let turns := conversions settings toStdout tree paths
    let batch := paths.foldl (Batch.step settings toStdout) { tree, reports, results }
    batch.reports = reports ++ turns.filterMap Turn.report? ∧
      batch.results = results.putAll (turns.filterMap Turn.result?) ∧
      batch.broken = turns.findSome? Turn.broken? := by
  induction paths generalizing tree reports results with
  | nil => simp [conversions, Entries.putAll]
  | cons path paths ih =>
    simp only [List.foldl_cons, conversions, Batch.step]
    cases hfile : convertFile settings toStdout tree path with
    | error broken =>
      rw [foldl_step_of_broken rfl]
      exact ⟨(List.append_nil reports).symm, rfl, rfl⟩
    | ok conversion =>
      obtain ⟨hreports, hresults, hbroken⟩ :=
        ih conversion.tree (reports ++ [conversion.report])
          (results.put path.toString conversion.issue)
      refine ⟨?_, hresults, hbroken⟩
      rw [hreports, List.append_assoc]
      rfl

theorem success_iff :
    batch.success = true ↔ batch.broken = none ∧ ∀ r ∈ batch.results, r.2 = none := by
  rw [Batch.success, Batch.failures, Bool.and_eq_true, decide_eq_true_eq, decide_eq_true_eq,
    List.filterMap_eq_nil_iff]
  simp

theorem eq_nil_of_broken {before later : List Turn}
    (h : conversions settings toStdout tree paths = before ++ turn :: later)
    (hbroken : turn.broken? ≠ none) : later = [] := by
  induction paths generalizing tree before with
  | nil => simp [conversions] at h
  | cons path paths ih =>
    rw [conversions] at h
    split at h
    · obtain ⟨-, hlater⟩ | ⟨-, hlater⟩ := List.append_eq_singleton_iff.mp h.symm
      · exact (List.cons.inj hlater).2
      · cases hlater
    · cases before with
      | nil =>
        obtain ⟨rfl, -⟩ := List.cons.inj h
        exact absurd rfl hbroken
      | cons first before => exact ih (List.cons.inj h).2

theorem isPrefix_map_path_conversions (settings : Settings) (toStdout : Bool) (tree : FileTree)
    (paths : List FilePath) :
    (conversions settings toStdout tree paths).map Turn.path <+: paths := by
  induction paths generalizing tree with
  | nil => exact List.prefix_rfl
  | cons path paths ih =>
    rw [conversions]
    split
    · exact List.prefix_append [path] paths
    · exact (List.prefix_cons_inj path).mpr (ih _)

theorem path_mem_of_mem_conversions (h : turn ∈ conversions settings toStdout tree paths) :
    turn.path ∈ paths :=
  (isPrefix_map_path_conversions settings toStdout tree paths).subset (List.mem_map_of_mem h)

theorem map_path_conversions
    (h : ∀ turn ∈ conversions settings toStdout tree paths, turn.broken? = none) :
    (conversions settings toStdout tree paths).map Turn.path = paths := by
  induction paths generalizing tree with
  | nil => rfl
  | cons path paths ih =>
    rw [conversions] at h ⊢
    split
    · next broken hfile =>
      rw [hfile] at h
      cases h _ (List.mem_singleton_self _)
    · next conversion hfile =>
      rw [hfile] at h
      rw [List.map_cons, ih fun turn hmem => h turn (List.mem_cons_of_mem _ hmem)]

/-- Whether no later turn has a path of the same text. -/
def IsLast (turns : List Turn) (turn : Turn) : Prop :=
  ∃ before later, turns = before ++ turn :: later ∧
    ∀ other ∈ later, other.path.toString ≠ turn.path.toString

theorem IsLast.mem (h : IsLast turns turn) : turn ∈ turns := by
  obtain ⟨before, later, rfl, -⟩ := h
  simp

theorem exists_isLast (h : turn ∈ turns) :
    ∃ last, IsLast turns last ∧ last.path.toString = turn.path.toString := by
  induction turns generalizing turn with
  | nil => cases h
  | cons first turns ih =>
    by_cases hrest : ∃ other ∈ turns, other.path.toString = turn.path.toString
    · obtain ⟨other, hother, htext⟩ := hrest
      obtain ⟨last, ⟨before, later, rfl, hlater⟩, hlast⟩ := ih hother
      exact ⟨last, ⟨first :: before, later, rfl, hlater⟩, hlast.trans htext⟩
    · have hfirst : turn = first :=
        (List.mem_cons.mp h).resolve_right fun hmem => hrest ⟨turn, hmem, rfl⟩
      refine ⟨turn, ⟨[], turns, by rw [hfirst]; rfl, fun other hother htext => ?_⟩, rfl⟩
      exact hrest ⟨other, hother, htext⟩

/-- The results of conversions are those of the last ones. -/
theorem forall_mem_ofList_iff (hunbroken : ∀ turn ∈ turns, turn.broken? = none) :
    (∀ r ∈ Entries.ofList (turns.filterMap Turn.result?), r.2 = none) ↔
      ∀ turn, IsLast turns turn → Succeeded turn.outcome := by
  have hok (turn : Turn) (h : turn ∈ turns) :
      ∃ conversion, turn.outcome = .ok conversion ∧
        turn.result? = some (turn.path.toString, conversion.issue) := by
    obtain ⟨conversion, hconversion⟩ := Turn.broken?_eq_none_iff.mp (hunbroken turn h)
    exact ⟨conversion, hconversion, Turn.result?_eq_some_iff.mpr ⟨conversion, hconversion, rfl⟩⟩
  constructor
  · rintro h turn ⟨before, later, heq, hlater⟩
    obtain ⟨conversion, hconversion, hresult⟩ := hok turn (by simp [heq])
    refine ⟨conversion, hconversion, h (turn.path.toString, conversion.issue) ?_⟩
    refine Entries.mem_ofList_iff.mpr ⟨before.filterMap Turn.result?,
      later.filterMap Turn.result?, ?_, fun hkey => ?_⟩
    · rw [heq, List.filterMap_append, List.filterMap_cons_some hresult]
    · obtain ⟨r, hr, htext⟩ := List.mem_map.mp hkey
      obtain ⟨other, hother, hr⟩ := List.mem_filterMap.mp hr
      obtain ⟨conversion, -, rfl⟩ := Turn.result?_eq_some_iff.mp hr
      exact hlater other hother htext
  · intro h r hr
    obtain ⟨before, after, heq, hkey⟩ := Entries.mem_ofList_iff.mp hr
    obtain ⟨front, back, rfl, -, hback⟩ := List.filterMap_eq_append_iff.mp heq
    obtain ⟨skipped, turn, later, rfl, -, hresult, rfl⟩ := List.filterMap_eq_cons_iff.mp hback
    obtain ⟨conversion, hconversion, rfl⟩ := Turn.result?_eq_some_iff.mp hresult
    have hlast : IsLast (front ++ (skipped ++ turn :: later)) turn := by
      refine ⟨front ++ skipped, later, by simp, fun other hother htext => hkey ?_⟩
      obtain ⟨_, -, hresult⟩ := hok other (by simp [hother])
      exact List.mem_map.mpr ⟨_, List.mem_filterMap.mpr ⟨other, hother, hresult⟩, htext⟩
    obtain ⟨conversion', hconversion', hissue⟩ := h turn hlast
    cases hconversion.symm.trans hconversion'
    exact hissue

/-- The status is zero exactly if the last conversion of each path went well. -/
theorem status_eq_zero_iff :
    (convertAll settings toStdout tree paths).status = 0 ↔
      ∀ turn, IsLast (conversions settings toStdout tree paths) turn →
        Succeeded turn.outcome := by
  obtain ⟨-, hresults, hbroken⟩ := foldl_step settings toStdout tree [] [] paths
  have hstatus : (convertAll settings toStdout tree paths).status = 0 ↔
      (paths.foldl (Batch.step settings toStdout) { tree }).success = true := by
    simp [convertAll]
  rw [hstatus, success_iff, hresults, hbroken, List.findSome?_eq_none_iff]
  constructor
  · rintro ⟨hunbroken, h⟩
    exact (forall_mem_ofList_iff hunbroken).mp h
  · intro h
    have hunbroken : ∀ turn ∈ conversions settings toStdout tree paths,
        turn.broken? = none := by
      intro turn hmem
      by_contra hbroken
      obtain ⟨before, later, heq⟩ := List.append_of_mem hmem
      have hlater := eq_nil_of_broken heq hbroken
      obtain ⟨conversion, hconversion, -⟩ := h turn ⟨before, later, heq, by simp [hlater]⟩
      exact hbroken (Turn.broken?_eq_none_iff.mpr ⟨conversion, hconversion⟩)
    exact ⟨hunbroken, (forall_mem_ofList_iff hunbroken).mpr h⟩

theorem status_eq_zero_iff_forall
    (h : ∀ first ∈ conversions settings toStdout tree paths,
      ∀ last ∈ conversions settings toStdout tree paths, last.path.toString = first.path.toString →
        Succeeded last.outcome → Succeeded first.outcome) :
    (convertAll settings toStdout tree paths).status = 0 ↔
      ∀ turn ∈ conversions settings toStdout tree paths, Succeeded turn.outcome := by
  rw [status_eq_zero_iff]
  constructor
  · intro hlasts turn hmem
    obtain ⟨last, hlast, htext⟩ := exists_isLast hmem
    exact h turn hmem last hlast.mem htext (hlasts last hlast)
  · exact fun hall turn hlast => hall turn hlast.mem

theorem status_eq_zero_iff_of_nodup (h : (paths.map FilePath.toString).Nodup) :
    (convertAll settings toStdout tree paths).status = 0 ↔
      ∀ turn ∈ conversions settings toStdout tree paths, Succeeded turn.outcome := by
  have htexts : ((conversions settings toStdout tree paths).map fun turn =>
      turn.path.toString).Nodup := by
    have hbegins := isPrefix_map_path_conversions settings toStdout tree paths
    have hsublist := hbegins.sublist.map FilePath.toString
    rw [List.map_map] at hsublist
    exact h.sublist hsublist
  refine status_eq_zero_iff_forall fun first hfirst last hlast htext hsucceeded => ?_
  rwa [← List.inj_on_of_nodup_map htexts hlast hfirst htext]

/-- No file may be written where a listed path leads. -/
def WritesElsewhere (settings : Settings) (toStdout : Bool) (tree : FileTree)
    (paths : List FilePath) : Prop :=
  toStdout = true ∨ ∀ source ∈ paths, ∀ output names,
    outputPath source settings.extension = .ok output → tree.IsWritable output names →
      ∀ path ∈ paths, tree.locate path ≠ .ok (.inside names)

structure Agree (paths : List FilePath) (tree after : FileTree) : Prop where
  directories : tree.SameDirectories after
  read_iff : ∀ path ∈ paths, ∀ octets, after.read path = .ok octets ↔ tree.read path = .ok octets

theorem Agree.refl (paths : List FilePath) (tree : FileTree) : Agree paths tree tree :=
  ⟨.refl tree, fun _ _ _ => Iff.rfl⟩

theorem Agree.isConvertible_iff (h : Agree paths tree after) (hpath : path ∈ paths) :
    IsConvertible settings toStdout after path ↔ IsConvertible settings toStdout tree path := by
  simp only [IsConvertible, readSource_eq_ok_iff, h.read_iff path hpath,
    h.directories.isWritable_iff]

theorem parts_ne_nil_of_outputPath {output : FilePath} {extension : String}
    (h : outputPath path extension = .ok output) : output.parts ≠ [] := by
  unfold outputPath FilePath.withSuffix at h
  split at h
  · split at h
    · cases h
    · cases h
      simp
  · cases h

theorem Agree.step (h : Agree paths tree after)
    (hwrites : WritesElsewhere settings toStdout tree paths) (hpath : path ∈ paths)
    (hfile : convertFile settings toStdout after path = .ok conversion) :
    Agree paths tree conversion.tree := by
  rcases tree_of_convertFile hfile with htree | ⟨hshown, output, names, octets, houtput, hwritable,
    htree⟩
  · rwa [htree]
  · have hparts := parts_ne_nil_of_outputPath houtput
    have helsewhere := hwrites.resolve_left (by simp [hshown]) path hpath output names houtput
      (h.directories.isWritable_iff.mp hwritable)
    rw [htree]
    refine ⟨h.directories.trans (hwritable.sameDirectories_put hparts octets),
      fun source hsource read => ?_⟩
    rw [hwritable.read_put_eq_ok_iff hparts, h.read_iff source hsource]
    exact fun hlocate => helsewhere source hsource (h.directories.locate_eq_ok_iff.mp hlocate)

theorem succeeded_iff_of_writesElsewhere (hwrites : WritesElsewhere settings toStdout tree paths)
    (h : Agree paths tree after) (hrest : rest ⊆ paths)
    (hmem : turn ∈ conversions settings toStdout after rest) :
    Succeeded turn.outcome ↔ IsConvertible settings toStdout tree turn.path := by
  induction rest generalizing after with
  | nil => cases hmem
  | cons path rest ih =>
    obtain ⟨hpath, hrest⟩ := List.cons_subset.mp hrest
    have hhead : Succeeded (convertFile settings toStdout after path) ↔
        IsConvertible settings toStdout tree path :=
      succeeded_convertFile_iff.trans (h.isConvertible_iff hpath)
    rw [conversions] at hmem
    split at hmem
    · next broken hfile =>
      rw [hfile] at hhead
      rwa [List.mem_singleton.mp hmem]
    · next conversion hfile =>
      rcases List.mem_cons.mp hmem with rfl | hmem
      · rwa [hfile] at hhead
      · exact ih (h.step hwrites hpath hfile) hrest hmem

theorem status_eq_zero_iff_of_writesElsewhere (hnormal : ∀ path ∈ paths, path.IsNormal)
    (hwrites : WritesElsewhere settings toStdout tree paths) :
    (convertAll settings toStdout tree paths).status = 0 ↔
      ∀ turn ∈ conversions settings toStdout tree paths, Succeeded turn.outcome := by
  refine status_eq_zero_iff_forall fun first hfirst last hlast htext hsucceeded => ?_
  have hpath : last.path = first.path :=
    FilePath.toString_injective (hnormal _ (path_mem_of_mem_conversions hlast))
      (hnormal _ (path_mem_of_mem_conversions hfirst)) htext
  have halone {turn : Turn} (h : turn ∈ conversions settings toStdout tree paths) :=
    succeeded_iff_of_writesElsewhere hwrites (.refl paths tree) (List.Subset.refl paths) h
  rw [halone hlast, hpath] at hsucceeded
  exact (halone hfirst).mpr hsucceeded

/-- The status of a batch is zero exactly if the last conversion of each path went well. So a
failure always counts when no path is listed twice, and when nothing is written over a source. -/
theorem convertAll_status (settings : Settings) (toStdout : Bool) (tree : FileTree)
    (paths : List FilePath) :
    let effect := convertAll settings toStdout tree paths
    let turns := conversions settings toStdout tree paths
    (∀ extension checkBlocks, settingsFor tree paths extension checkBlocks = .ok settings →
      convert tree paths extension checkBlocks toStdout = .ok effect) ∧
    (effect.status = 0 ∨ effect.status = 1) ∧
    (effect.broken = none → turns.map Turn.path = paths) ∧
    (effect.status = 0 ↔ ∀ turn, IsLast turns turn → Succeeded turn.outcome) ∧
    ((∀ turn ∈ turns, Succeeded turn.outcome) → effect.status = 0) ∧
    ((paths.map FilePath.toString).Nodup ∨
      (∀ path ∈ paths, path.IsNormal) ∧ WritesElsewhere settings toStdout tree paths →
        (effect.status = 0 ↔ ∀ turn ∈ turns, Succeeded turn.outcome)) := by
  intro effect turns
  refine ⟨fun _ _ hsettings => by rw [convert, hsettings], ?_, fun hbroken => ?_,
    status_eq_zero_iff, fun h => status_eq_zero_iff.mpr fun turn hlast => h turn hlast.mem, ?_⟩
  · by_cases hsuccess : (paths.foldl (Batch.step settings toStdout) { tree }).success = true
    · exact .inl (if_pos hsuccess)
    · exact .inr (if_neg hsuccess)
  · obtain ⟨-, -, hrun⟩ := foldl_step settings toStdout tree [] [] paths
    exact map_path_conversions (List.findSome?_eq_none_iff.mp (hrun.symm.trans hbroken))
  · rintro (hnodup | ⟨hnormal, hwrites⟩)
    · exact status_eq_zero_iff_of_nodup hnodup
    · exact status_eq_zero_iff_of_writesElsewhere hnormal hwrites

/-- A path fails while its file is missing, and later goes well since the batch has written the
file: the failure does not count. -/
theorem convertAll_status_masked :
    let tree : FileTree := { entries := [(["x.ls"], .file (Text.Utf8.encode "x = 1"))] }
    let source : FilePath := { parts := ["x.ls"] }
    let written : FilePath := { parts := ["x.ts"] }
    let paths := [written, source, written]
    let effect := convertAll {} false tree paths
    convert tree paths none false false = .ok effect ∧ effect.broken = none ∧ effect.status = 0 ∧
      ∃ turn ∈ conversions {} false tree paths, ¬ Succeeded turn.outcome := by
  intro tree source written paths effect
  have hsettings : settingsFor tree paths none false = .ok {} := rfl
  have hmissing : tree.read written = .error .missing := by cbv
  have hunread : readSource tree written = .error (FileFault.missing.message written.toString) := by
    rw [readSource, hmissing]
  have hnull : written.hasNull = false := by cbv
  obtain ⟨missing, issue, hfirst⟩ : ∃ report issue,
      convertFile {} false tree written = .ok ⟨tree, report, some issue⟩ :=
    ⟨_, _, convertFile_of_unread hnull hunread false⟩
  have hprogram : Program.ofText "x = 1" = .ok ⟨[.assign "x" ["1"]], [1]⟩ := by cbv
  have hcode : Translator.translate {} "x = 1" = .ok "x = 1;" :=
    Translator.translate_of_ofText rfl hprogram
  have hsource : readSource tree source = .ok "x = 1" := by cbv
  have hwritable : tree.IsWritable written ["x.ts"] := ⟨by cbv, by decide⟩
  obtain ⟨first, hsecond⟩ : ∃ report, convertFile {} false tree source =
      .ok ⟨tree.put ["x.ts"] (Text.Utf8.encode "x = 1;"), report, none⟩ :=
    ⟨_, convertFile_of_code hsource hcode rfl hwritable⟩
  have hprogram' : Program.ofText "x = 1;" = .ok ⟨[.assign "x" ["1;"]], [1]⟩ := by cbv
  have hcode' : Translator.translate {} "x = 1;" = .ok "x = 1;;" :=
    Translator.translate_of_ofText rfl hprogram'
  have hsame := hwritable.sameDirectories_put (List.cons_ne_nil _ _) (Text.Utf8.encode "x = 1;")
  have hwritten : readSource (tree.put ["x.ts"] (Text.Utf8.encode "x = 1;")) written =
      .ok "x = 1;" := by cbv
  obtain ⟨last, after, hthird⟩ : ∃ report after,
      convertFile {} false (tree.put ["x.ts"] (Text.Utf8.encode "x = 1;")) written =
        .ok ⟨after, report, none⟩ :=
    ⟨_, _, convertFile_of_code hwritten hcode' rfl (hsame.isWritable_iff.mpr hwritable)⟩
  have hbatch : paths.foldl (Batch.step {} false) { tree } =
      { tree := after, reports := [missing, first, last],
        results := [("x.ts", none), ("x.ls", none)] } := by
    simp only [paths, List.foldl_cons, List.foldl_nil, Batch.step, hfirst, hsecond, hthird]
    rfl
  refine ⟨by rw [convert, hsettings], ?_, ?_, ?_⟩
  · simp only [effect, convertAll, hbatch]
  · simp only [effect, convertAll, hbatch]
    rfl
  · refine ⟨⟨written, .ok ⟨tree, missing, some issue⟩⟩, ?_, ?_⟩
    · simp only [paths, conversions, hfirst]
      exact List.mem_cons_self
    · rintro ⟨conversion, hconversion, hissue⟩
      cases hconversion
      cases hissue

end Linewise.Command
