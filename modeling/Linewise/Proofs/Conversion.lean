import Linewise.Command.Convert
import Linewise.Proofs.Files
import Linewise.Proofs.Lines
import Linewise.Proofs.LineByLine
import Linewise.Proofs.Utf8

/-! # Converting one file

A source file is read with its line ends unified, but translated as if they stood as they were
written. What is written beside it are the octets of its translation; a fault of the translation is
recorded as it is, and then nothing is written.
-/

namespace Linewise

namespace Command

variable {settings : Settings} {tree : FileTree} {path output : FilePath} {names : List String}
  {octets : List UInt8} {text source code : String} {fault : Fault}

theorem readSource_eq_ok_iff :
    readSource tree path = .ok source ↔
      ∃ octets, tree.read path = .ok octets ∧ Text.Utf8.readSource octets = .ok source := by
  unfold readSource
  split
  · next hread => simp [hread]
  · next octets hread =>
    simp only [hread, Except.ok.injEq, exists_eq_left']
    split
    · next hutf8 => simp [hutf8]
    · next text hutf8 => simp [hutf8]

theorem not_hasNull_of_readSource (h : readSource tree path = .ok source) :
    path.hasNull = false := by
  obtain ⟨octets, hread, -⟩ := readSource_eq_ok_iff.mp h
  obtain ⟨place, hlocate, -⟩ := FileTree.read_eq_ok_iff.mp hread
  exact FileTree.not_hasNull_of_locate hlocate

/-- The octets of a file that holds a text, with or without a byte order mark in front. -/
inductive Holds (text : String) : List UInt8 → Prop
  | marked : Holds text (Text.Utf8.mark ++ Text.Utf8.encode text)
  | plain (h : text.toList.head? ≠ some '\uFEFF') : Holds text (Text.Utf8.encode text)

theorem Holds.dropMark_eq (h : Holds text octets) :
    Text.Utf8.dropMark octets = Text.Utf8.encode text := by
  cases h with
  | marked => exact Text.Utf8.dropMark_append _
  | plain h => exact Text.Utf8.dropMark_encode h

theorem readSource_of_holds (hread : tree.read path = .ok octets) (h : Holds text octets) :
    readSource tree path = .ok (String.ofList (Text.unifyLineEnds text.toList)) :=
  readSource_eq_ok_iff.mpr ⟨octets, hread, Text.Utf8.readSource_of_dropMark h.dropMark_eq⟩

theorem translate_unifyLineEnds (h : Text.HasPairedReturns text.toList) (settings : Settings) :
    Translator.translate settings (String.ofList (Text.unifyLineEnds text.toList)) =
      Translator.translate settings text := by
  refine Translator.translate_congr (Program.ofText_congr ?_) settings
  rw [String.toList_ofList, Text.splitLines_unifyLineEnds h]

def Succeeded (outcome : Except Breach Conversion) : Prop :=
  ∃ conversion, outcome = .ok conversion ∧ conversion.issue = none

/-- What a conversion needs: a source that has a translation and, unless the code is only shown, a
path to write it to. -/
def IsConvertible (settings : Settings) (toStdout : Bool) (tree : FileTree) (path : FilePath) :
    Prop :=
  ∃ source code, readSource tree path = .ok source ∧
    Translator.translate settings source = .ok code ∧
    (toStdout = true ∨ ∃ output names, outputPath path settings.extension = .ok output ∧
      tree.IsWritable output names)

theorem succeeded_writeCode_iff {extension : String} :
    Succeeded (writeCode tree path extension code) ↔
      ∃ output names, outputPath path extension = .ok output ∧ tree.IsWritable output names := by
  unfold writeCode
  split
  · next houtput => simp [Succeeded, houtput]
  · next output houtput =>
    simp only [houtput, Except.ok.injEq, exists_eq_left', exists_and_left]
    split
    · next hnull =>
      refine iff_of_false (by simp [Succeeded]) ?_
      rintro ⟨names, hwritable⟩
      exact absurd (FileTree.not_hasNull_of_locate hwritable.locate_eq) (by simp [hnull])
    · split
      · next fault hwrite =>
        refine iff_of_false (by simp [Succeeded]) ?_
        rintro ⟨names, hwritable⟩
        rw [FileTree.write_eq_ok_iff.mpr ⟨names, hwritable, rfl⟩] at hwrite
        cases hwrite
      · next after hwrite =>
        obtain ⟨names, hwritable, -⟩ := FileTree.write_eq_ok_iff.mp hwrite
        exact iff_of_true ⟨_, rfl, rfl⟩ ⟨names, hwritable⟩

theorem succeeded_convertFile_iff {toStdout : Bool} :
    Succeeded (convertFile settings toStdout tree path) ↔
      IsConvertible settings toStdout tree path := by
  unfold convertFile IsConvertible
  split
  · next hnull =>
    refine iff_of_false (by simp [Succeeded]) ?_
    rintro ⟨source, code, hsource, -⟩
    exact absurd (not_hasNull_of_readSource hsource) (by simp [hnull])
  split
  · next hsource => simp [Succeeded, hsource]
  next source hsource =>
  simp only [hsource, Except.ok.injEq, exists_and_left, exists_eq_left']
  split
  · next htranslate => simp [Succeeded, htranslate]
  next code htranslate =>
  simp only [htranslate, Except.ok.injEq, exists_eq_left']
  split
  · next hshown => exact iff_of_true ⟨_, rfl, rfl⟩ (.inl hshown)
  · next hwritten =>
    rw [succeeded_writeCode_iff]
    simp [hwritten]

/-- What a conversion writes: the code of its source, at the place to which its output path
leads. -/
structure Writes (settings : Settings) (tree : FileTree) (path output : FilePath)
    (names : List String) (code : String) : Prop where
  translates : ∃ source, readSource tree path = .ok source ∧
    Translator.translate settings source = .ok code
  outputPath_eq : outputPath path settings.extension = .ok output
  isWritable : tree.IsWritable output names

def deeds : List String := ["read", "convert", "write"]

/-- What comes of a conversion: a failure, reported of the source or of the output path, or code
that is shown or written. -/
inductive Converts (settings : Settings) (toStdout : Bool) (tree : FileTree) (path : FilePath) :
    Conversion → Prop
  | failed {shown : FilePath} {deed : String} (known : deed ∈ deeds) (issue : String)
    (of : shown = path ∨ outputPath path settings.extension = .ok shown) :
    Converts settings toStdout tree path
      ⟨tree, .record .error (failureMessage deed shown issue), some issue⟩
  | displayed (code : String) (toConsole : toStdout = true) :
    Converts settings toStdout tree path ⟨tree, .code code, none⟩
  | written {output : FilePath} {names : List String} {code : String} (toFile : toStdout = false)
    (writes : Writes settings tree path output names code) :
    Converts settings toStdout tree path
      ⟨tree.put names (Text.Utf8.encode code),
        .record .success ("Transpiled: " ++ shownPath path ++ " -> " ++ shownPath output), none⟩

theorem converts_of_convertFile {toStdout : Bool} {conversion : Conversion}
    (h : convertFile settings toStdout tree path = .ok conversion) :
    Converts settings toStdout tree path conversion := by
  unfold convertFile at h
  split at h
  · cases h
  split at h
  · cases h
    exact .failed (by decide) _ (.inl rfl)
  next source hsource =>
  split at h
  · cases h
    exact .failed (by decide) _ (.inl rfl)
  next code htranslate =>
  split at h
  · next hshown =>
    cases h
    exact .displayed code hshown
  next hwritten =>
  unfold writeCode at h
  split at h
  · cases h
  next output houtput =>
  split at h
  · cases h
  split at h
  · cases h
    exact .failed (by decide) _ (.inr houtput)
  next after hwrite =>
  obtain ⟨names, hwritable, rfl⟩ := FileTree.write_eq_ok_iff.mp hwrite
  cases h
  have hwrites : Writes settings tree path output names code :=
    ⟨⟨source, hsource, htranslate⟩, houtput, hwritable⟩
  exact .written (Bool.eq_false_iff.mpr hwritten) hwrites

/-- A conversion leaves the tree as it is or puts one file where it may be written. -/
theorem tree_of_convertFile {toStdout : Bool} {conversion : Conversion}
    (h : convertFile settings toStdout tree path = .ok conversion) :
    conversion.tree = tree ∨ toStdout = false ∧ ∃ output names octets,
      outputPath path settings.extension = .ok output ∧ tree.IsWritable output names ∧
        conversion.tree = tree.put names octets := by
  cases converts_of_convertFile h with
  | failed known issue of => exact .inl rfl
  | displayed code toConsole => exact .inl rfl
  | written toFile writes =>
    exact .inr ⟨toFile, _, _, _, writes.outputPath_eq, writes.isWritable, rfl⟩

theorem convertFile_of_unread {issue : String} (hnull : path.hasNull = false)
    (hsource : readSource tree path = .error issue) (toStdout : Bool) :
    convertFile settings toStdout tree path =
      .ok ⟨tree, .record .error (failureMessage "read" path issue), some issue⟩ := by
  rw [convertFile, hnull, hsource]
  rfl

theorem convertFile_of_fault (hsource : readSource tree path = .ok source)
    (h : Translator.translate settings source = .error fault) (toStdout : Bool) :
    convertFile settings toStdout tree path =
      .ok ⟨tree, .record .error (failureMessage "convert" path fault.message),
        some fault.message⟩ := by
  rw [convertFile, not_hasNull_of_readSource hsource, hsource]
  simp only [h]
  rfl

theorem convertFile_of_code (hsource : readSource tree path = .ok source)
    (h : Translator.translate settings source = .ok code)
    (houtput : outputPath path settings.extension = .ok output)
    (hwritable : tree.IsWritable output names) :
    convertFile settings false tree path =
      .ok ⟨tree.put names (Text.Utf8.encode code),
        .record .success ("Transpiled: " ++ shownPath path ++ " -> " ++ shownPath output),
        none⟩ := by
  have hwrite : tree.write output (Text.Utf8.encode code) =
      .ok (tree.put names (Text.Utf8.encode code)) :=
    FileTree.write_eq_ok_iff.mpr ⟨names, hwritable, rfl⟩
  rw [convertFile, not_hasNull_of_readSource hsource, hsource]
  simp only [h, writeCode, houtput, FileTree.not_hasNull_of_locate hwritable.locate_eq, hwrite]
  rfl

theorem foldl_step_singleton {conversion : Conversion} {toStdout : Bool}
    (h : convertFile settings toStdout tree path = .ok conversion) :
    [path].foldl (Batch.step settings toStdout) { tree } =
      { tree := conversion.tree, reports := [conversion.report],
        results := [(path.toString, conversion.issue)] } := by
  rw [List.foldl_cons, List.foldl_nil, Batch.step]
  dsimp only
  rw [h]
  rfl

/-- Converting a file that holds a text comes to the translation of the text. Its octets are what
is written, and nothing else is; a fault is recorded with its message, and nothing is written. -/
theorem convertAll_singleton (settings : Settings) (tree : FileTree) (path output : FilePath)
    (names : List String) (text : String) (octets : List UInt8)
    (hread : tree.read path = .ok octets) (hholds : Holds text octets)
    (hreturns : Text.HasPairedReturns text.toList)
    (houtput : outputPath path settings.extension = .ok output)
    (hwritable : tree.IsWritable output names) :
    let effect := convertAll settings false tree [path]
    (∀ extension checkBlocks, settingsFor tree [path] extension checkBlocks = .ok settings →
      convert tree [path] extension checkBlocks false = .ok effect) ∧
    (∃ source, readSource tree path = .ok source ∧
      Translator.translate settings source = Translator.translate settings text) ∧
    (∀ code, Translator.translate settings text = .ok code →
      effect.broken = none ∧ effect.status = 0 ∧
        effect.tree.read output = .ok (Text.Utf8.encode code) ∧
        ∀ other, other ≠ names → effect.tree.find? other = tree.find? other) ∧
    ∀ fault, Translator.translate settings text = .error fault →
      effect.broken = none ∧ effect.status = 1 ∧ effect.tree = tree ∧
        .record .error (failureMessage "convert" path fault.message) ∈ effect.reports ∧
        ([path].foldl (Batch.step settings false) { tree }).failures =
          [(path.toString, fault.message)] := by
  intro effect
  have hsource := readSource_of_holds hread hholds
  have htranslate := translate_unifyLineEnds hreturns settings
  refine ⟨fun _ _ hsettings => by rw [convert, hsettings], ⟨_, hsource, htranslate⟩,
    fun code hcode => ?_, fun fault hfault => ?_⟩
  · have hfile := convertFile_of_code hsource (htranslate.trans hcode) houtput hwritable
    have hbatch := foldl_step_singleton hfile
    simp only [effect, convertAll, hbatch]
    refine ⟨trivial, rfl, hwritable.read_put _, fun other hother => ?_⟩
    rw [FileTree.find?_put, if_neg hother]
  · have hfile := convertFile_of_fault hsource (htranslate.trans hfault) false
    have hbatch := foldl_step_singleton hfile
    simp only [effect, convertAll, hbatch]
    exact ⟨trivial, rfl, trivial, by simp, rfl⟩

theorem convertAll_marked_file :
    let text := "x = 1\r\n\nsay x\r\n"
    let code := "x = 1;\nconsole.log(x);"
    let octets := Text.Utf8.mark ++ Text.Utf8.encode text
    let tree : FileTree := { entries := [(["m.ls"], .file octets)] }
    let path : FilePath := { parts := ["m.ls"] }
    let output : FilePath := { parts := ["m.ts"] }
    let effect := convertAll {} false tree [path]
    tree.read path = .ok octets ∧ Holds text octets ∧ Text.HasPairedReturns text.toList ∧
      outputPath path ".ts" = .ok output ∧ tree.IsWritable output ["m.ts"] ∧
      Translator.translate {} text = .ok code ∧ effect.broken = none ∧ effect.status = 0 ∧
      effect.tree.read output = .ok (Text.Utf8.encode code) ∧
      ∀ other, other ≠ ["m.ts"] → effect.tree.find? other = tree.find? other := by
  intro text code octets tree path output effect
  have hread : tree.read path = .ok octets := by cbv
  have hholds : Holds text octets := .marked
  have hreturns : Text.HasPairedReturns text.toList :=
    Text.hasPairedReturns_of_getElem? (by decide)
  have houtput : outputPath path ".ts" = .ok output := rfl
  have hwritable : tree.IsWritable output ["m.ts"] := ⟨by cbv, by decide⟩
  have hprogram : Program.ofText text =
      .ok ⟨[.assign "x" ["1"], .output ["x"]], [1, 3]⟩ := by cbv
  have hcode : Translator.translate {} text = .ok code :=
    Translator.translate_of_ofText rfl hprogram
  have h := convertAll_singleton {} tree path output ["m.ts"] text octets hread hholds hreturns
    houtput hwritable
  exact ⟨hread, hholds, hreturns, houtput, hwritable, hcode, h.2.2.1 code hcode⟩

end Command
end Linewise
