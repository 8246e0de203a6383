import Linewise.Proofs.Ending
import Linewise.Proofs.Literals
import Linewise.Proofs.Outcome

/-! # Code that is shown

A line of code is shown without its control characters that would move the cursor, and with spaces
for its tabs. So it is shown as it would be written exactly if it has none of these characters, and
only a string of the source or the name that an alias stands for can have them.
-/

namespace Linewise

namespace Console

/-- Whether a character is not shown as it is written. -/
def isAltered (c : Char) : Bool :=
  c == '\t' || isCursorControl c

def IsUnaltered (cs : List Char) : Prop :=
  ∀ c ∈ cs, isAltered c = false

instance : DecidablePred IsUnaltered := fun cs =>
  List.decidableBAll (isAltered · = false) cs

def shownLine (cs : List Char) : List Char :=
  expandTabs (dropCursorControls cs)

variable {cs : List Char} {c : Char}

theorem shownLine_concat_return (cs : List Char) : shownLine (cs ++ ['\r']) = shownLine cs := by
  have hreturn : isCursorControl '\r' = true := by decide
  simp [shownLine, dropCursorControls, hreturn]

theorem unwrapped_eq (cs : List Char) : unwrapped cs = (Text.splitLines cs).map shownLine := by
  have hfeed : ∀ c : Char, (c == '\n') = true → (!isCursorControl c) = true := by
    simp only [beq_iff_eq]
    rintro _ rfl
    decide
  calc unwrapped cs
      = (Text.divide (· == '\n') cs).map shownLine := by
        rw [unwrapped, dropCursorControls, Text.divide_filter hfeed, List.map_map]
        rfl
    _ = (Text.splitLines cs).map shownLine :=
        Text.ReturnBehind.map_eq shownLine_concat_return (Text.splitLines_divide cs)

theorem mem_tabbedParts {column : Nat} {parts : List (List Char)}
    (h : c ∈ tabbedParts column parts) : c = ' ' ∨ ∃ part ∈ parts, c ∈ part := by
  fun_induction tabbedParts column parts with
  | case1 => cases h
  | case2 column part => exact .inr ⟨part, List.mem_singleton_self part, h⟩
  | case3 column part rest hne reached gap ih =>
    rcases List.mem_append.mp h with h | h
    · rcases List.mem_append.mp h with h | h
      · exact .inr ⟨part, List.mem_cons_self, h⟩
      · exact .inl (List.eq_of_mem_replicate h)
    · exact (ih h).imp_right fun ⟨other, hother, hc⟩ => ⟨other, List.mem_cons_of_mem _ hother, hc⟩

theorem not_isAltered_of_mem_shownLine (h : c ∈ shownLine cs) : isAltered c = false := by
  rcases mem_tabbedParts h with rfl | ⟨part, hpart, hc⟩
  · decide
  · have htab : (c == '\t') = false := Text.mark_not_mem_of_mem_divide hpart c hc
    have hkept := (List.mem_filter.mp (Text.mem_of_mem_divide hpart c hc)).2
    rw [isAltered, htab]
    simpa using hkept

theorem shownLine_eq_self (h : IsUnaltered cs) : shownLine cs = cs := by
  simp only [IsUnaltered, isAltered, Bool.or_eq_false_iff] at h
  have hkept : dropCursorControls cs = cs := List.filter_eq_self.mpr fun c hc => by simp [h c hc]
  rw [shownLine, hkept, expandTabs, Text.divide_of_not_mem fun c hc => (h c hc).1]
  rfl

theorem mem_of_mem_trimLine (h : c ∈ (trimLine cs).toList) : c ∈ cs := by
  rw [trimLine, String.toList_ofList, List.mem_reverse] at h
  exact List.mem_reverse.mp ((List.dropWhile_sublist _).mem h)

theorem mem_trimLine (h : c ∈ cs) (hspace : c ≠ ' ') : c ∈ (trimLine cs).toList := by
  have hsplit : c ∈ cs.reverse.takeWhile (· == ' ') ++ cs.reverse.dropWhile (· == ' ') := by
    rw [List.takeWhile_append_dropWhile]
    exact List.mem_reverse.mpr h
  rw [trimLine, String.toList_ofList, List.mem_reverse]
  refine (List.mem_append.mp hsplit).resolve_left fun hblank => hspace ?_
  simpa using List.mem_takeWhile_imp hblank

/-- Up to the spaces at its end a line is shown as it is exactly if none of its characters is
altered. -/
theorem trimLine_shownLine_iff :
    trimLine (shownLine cs) = trimLine cs ↔ IsUnaltered cs := by
  constructor
  · intro h c hc
    by_cases hspace : c = ' '
    · exact hspace ▸ by decide
    · have hshown : c ∈ (trimLine (shownLine cs)).toList := h ▸ mem_trimLine hc hspace
      exact not_isAltered_of_mem_shownLine (mem_of_mem_trimLine hshown)
  · intro h
    rw [shownLine_eq_self h]

theorem Report.lines_code (text : String) :
    (Report.code text).lines =
      .ok ((Text.splitLines text.toList).map fun line => trimLine (shownLine line)) := by
  rw [Report.lines, unwrapped_eq, List.map_map]
  rfl

theorem Report.allLines_singleton {report : Report} {lines : List String}
    (h : report.lines = .ok lines) : Report.allLines [report] = .ok lines := by
  refine Attempt.map_eq_ok_iff.mpr ⟨[lines], ?_, List.flatten_singleton⟩
  exact Attempt.mapM_eq_ok_iff.mpr (.cons h .nil)

theorem Report.allLines_append {reports others : List Report} {lines more : List String}
    (h : Report.allLines reports = .ok lines) (hothers : Report.allLines others = .ok more) :
    Report.allLines (reports ++ others) = .ok (lines ++ more) := by
  obtain ⟨groups, hgroups, rfl⟩ := Attempt.map_eq_ok_iff.mp h
  obtain ⟨rest, hrest, rfl⟩ := Attempt.map_eq_ok_iff.mp hothers
  rw [Attempt.mapM_eq_ok_iff] at hgroups hrest
  refine Attempt.map_eq_ok_iff.mpr ⟨groups ++ rest, ?_, List.flatten_append⟩
  exact Attempt.mapM_eq_ok_iff.mpr (List.rel_append hgroups hrest)

end Console

namespace TypeScript

open Console

variable {aliases : Entries String} {text t : String} {program : Program} {statement : Statement}
  {p : Piece}

theorem forall_mem_intercalate {α : Type} {property : α → Prop} {sep : List α}
    (hsep : ∀ a ∈ sep, property a) (groups : List (List α)) :
    (∀ a ∈ sep.intercalate groups, property a) ↔
      ∀ group ∈ groups, ∀ a ∈ group, property a := by
  induction groups with
  | nil => simp
  | cons group groups ih =>
    cases groups with
    | nil => simp
    | cons next rest =>
      rw [List.intercalate_cons_cons, List.forall_mem_append, List.forall_mem_append, ih,
        and_iff_left hsep]
      exact (List.forall_mem_cons (p := fun group => ∀ a ∈ group, property a)).symm

theorem forall_mem_code_iff {property : Char → Prop} (hfeed : property '\n') :
    (∀ c ∈ (code aliases program).toList, property c) ↔
      ∀ statement ∈ program.statements, ∀ c ∈ (line aliases statement).toList, property c := by
  have hsep : ∀ c ∈ "\n".toList, property c := by simpa using hfeed
  rw [code, String.toList_intercalate, forall_mem_intercalate hsep]
  simp [lines]

theorem return_not_mem_code (haliases : ∀ e ∈ aliases, '\r' ∉ e.2.toList)
    (h : Program.ofText text = .ok program) (htext : '\r' ∉ text.toList) :
    '\r' ∉ (code aliases program).toList := by
  have hline : ∀ statement ∈ program.statements, '\r' ∉ (line aliases statement).toList := by
    intro statement hmem
    refine not_mem_line (by decide) (List.forall_mem_append.mpr ⟨by decide, haliases⟩) ?_
    intro t ht hc
    rcases Program.hasToken_of_mem_sources h hmem ht with htoken | rfl
    · obtain ⟨l, hl, hmem⟩ := htoken.exists_line
      have hflat := List.mem_flatten_of_mem hl (hmem '\r' hc)
      exact htext ((Text.flatten_splitLines_sublist _).mem hflat)
    · cases hc
  have hcode : ∀ c ∈ (code aliases program).toList, c ≠ '\r' := by
    rw [forall_mem_code_iff (by decide)]
    exact fun statement hmem c hc heq => hline statement hmem (heq ▸ hc)
  exact fun hmem => hcode '\r' hmem rfl

theorem isUnaltered_token (h : Token.IsToken t ∨ t = "") (hstring : ¬ Token.IsString t) :
    IsUnaltered t.toList := by
  rcases h with (hword | hquoted) | rfl
  · intro c hc
    have hbounds := Token.isWordChar_bounds (hword.2 c hc)
    have htab : c ≠ '\t' := by
      rintro rfl
      exact absurd hbounds (by decide)
    simp only [isAltered, isCursorControl, Bool.or_eq_false_iff, beq_eq_false_iff_ne]
    refine ⟨htab, ?_⟩
    omega
  · exact absurd hquoted hstring
  · exact fun c hc => by cases hc

theorem isUnaltered_piece (haliases : ∀ e ∈ aliases, IsUnaltered e.2.toList)
    (hp : p ∈ pieces statement) (htoken : ∀ t ∈ p.source?, Token.IsToken t ∨ t = "")
    (hstring : ¬ Token.IsString (p.text aliases)) : IsUnaltered (p.text aliases).toList := by
  cases p with
  | fixed text =>
    let holds := fun text : String => decide (IsUnaltered text.toList)
    have htexts : ∀ text ∈ fixedTexts, holds text = true := by decide
    exact of_decide_eq_true (fixed_of_mem_pieces htexts hp)
  | token t => exact isUnaltered_token (htoken t rfl) hstring
  | type name =>
    rw [Piece.text] at hstring ⊢
    rcases typeName_eq_or_mem aliases name with h | ⟨e, he, h⟩
    · rw [h] at hstring ⊢
      exact isUnaltered_token (htoken name rfl) hstring
    · have hbuiltin : ∀ e ∈ builtinAliases, IsUnaltered e.2.toList := by decide
      rw [h]
      exact List.forall_mem_append.mpr ⟨hbuiltin, haliases⟩ e he

/-- Under aliases without such characters it is only strings that have characters that are
altered. -/
theorem isUnaltered_lines_code_iff (haliases : ∀ e ∈ aliases, IsUnaltered e.2.toList)
    (h : Program.ofText text = .ok program) (htext : '\r' ∉ text.toList) :
    (∀ l ∈ Text.splitLines (code aliases program).toList, IsUnaltered l) ↔
      ∀ statement ∈ program.statements, ∀ p ∈ pieces statement,
        Token.IsString (p.text aliases) → IsUnaltered (p.text aliases).toList := by
  have hreturns : ∀ e ∈ aliases, '\r' ∉ e.2.toList := fun e he hmem =>
    absurd (haliases e he '\r' hmem) (by decide)
  have hfeed : isAltered '\n' = false := by decide
  simp only [IsUnaltered]
  rw [Text.forall_mem_splitLines_iff hfeed (return_not_mem_code hreturns h htext),
    forall_mem_code_iff hfeed]
  refine forall₂_congr fun statement hmem => ?_
  rw [toList_line, chars, List.forall_mem_flatMap]
  refine forall₂_congr fun p hp => ⟨fun hall _ => hall, fun hall => ?_⟩
  by_cases hstring : Token.IsString (p.text aliases)
  · exact hall hstring
  · refine isUnaltered_piece haliases hp (fun t ht => ?_) hstring
    have hsource : t ∈ sources (pieces statement) :=
      List.mem_flatMap.mpr ⟨p, hp, Option.mem_toList.mpr ht⟩
    exact (Program.hasToken_of_mem_sources h hmem hsource).imp_left Program.HasToken.isToken

end TypeScript
namespace Command

open Console

variable {settings : Settings} {tree : FileTree} {path output : FilePath} {paths : List FilePath}
  {names : List String} {source code : String}

theorem return_not_mem_of_readSource (h : readSource tree path = .ok source) :
    '\r' ∉ source.toList := by
  obtain ⟨octets, -, hdecoded⟩ := readSource_eq_ok_iff.mp h
  obtain ⟨text, -, rfl⟩ := Attempt.map_eq_ok_iff.mp hdecoded
  rw [String.toList_ofList]
  exact Text.return_not_mem_unifyLineEnds text.toList

theorem convertFile_displayed (hsource : readSource tree path = .ok source)
    (hcode : Translator.translate settings source = .ok code) :
    convertFile settings true tree path = .ok ⟨tree, .code code, none⟩ := by
  rw [convertFile, not_hasNull_of_readSource hsource, hsource]
  simp only [hcode]
  rfl

theorem convertAll_displayed (hsource : readSource tree path = .ok source)
    (hcode : Translator.translate settings source = .ok code) :
    convertAll settings true tree [path] = { tree, status := 0, reports := [.code code] } := by
  rw [convertAll, foldl_step_singleton (convertFile_displayed hsource hcode)]
  rfl

theorem convertAll_written (hsource : readSource tree path = .ok source)
    (hcode : Translator.translate settings source = .ok code)
    (houtput : outputPath path settings.extension = .ok output)
    (hwritable : tree.IsWritable output names) :
    let effect := convertAll settings false tree [path]
    effect.status = 0 ∧ effect.broken = none ∧
      effect.tree.read output = .ok (Text.Utf8.encode code) := by
  intro effect
  have hbatch := foldl_step_singleton (convertFile_of_code hsource hcode houtput hwritable)
  simp only [effect, convertAll, hbatch]
  exact ⟨rfl, trivial, hwritable.read_put _⟩

/-- A run that shows its code shows that of each listed file as if it stood alone. -/
theorem exists_allLines_of_mem {lines : List String} (hsource : readSource tree path = .ok source)
    (hcode : Translator.translate settings source = .ok code) (hpath : path ∈ paths)
    (hunbroken : (convertAll settings true tree paths).broken = none)
    (hlines : (Report.code code).lines = .ok lines) :
    ∃ before after, Report.allLines (convertAll settings true tree paths).reports =
      .ok (before ++ lines ++ after) := by
  have hturns := List.findSome?_eq_none_iff.mp
    ((broken_convertAll settings true tree paths).symm.trans hunbroken)
  rw [← map_path_conversions hturns] at hpath
  obtain ⟨turn, hturn, hpath⟩ := List.mem_map.mp hpath
  obtain ⟨earlier, later, hsplit⟩ := List.append_of_mem hturn
  have houtcome := outcome_eq hsplit
  rw [treeAfter_of_toStdout hsplit, hpath, convertFile_displayed hsource hcode] at houtcome
  have hreport : turn.report? = some (.code code) :=
    report?_eq_some_iff.mpr ⟨_, houtcome, rfl⟩
  obtain ⟨opening, closing, hreports, -, -⟩ := exists_reports_convertAll settings true tree paths
  rw [hsplit, List.filterMap_append, List.filterMap_cons_some hreport] at hreports
  have hshown := isShown_convertAll settings true tree paths
  let front := opening ++ earlier.filterMap Turn.report?
  let back := later.filterMap Turn.report? ++ closing
  have hparts : (convertAll settings true tree paths).reports = front ++ [.code code] ++ back := by
    simp [hreports, front, back]
  rw [hparts] at hshown ⊢
  simp only [List.forall_mem_append] at hshown
  obtain ⟨before, hbefore⟩ := Report.exists_allLines hshown.1.1
  obtain ⟨after, hafter⟩ := Report.exists_allLines hshown.2
  have hfront := Report.allLines_append hbefore (Report.allLines_singleton hlines)
  exact ⟨before, after, Report.allLines_append hfront hafter⟩

/-- What is shown of a file that could be written are the lines of the code that would be written,
each without its cursor controls and with spaces for its tabs. So the two agree up to the spaces at
the ends of the lines exactly if no line has such a character, and under aliases without such
characters exactly if no string that is written has one. -/
theorem convertAll_displays (settings : Settings) (tree : FileTree) (path output : FilePath)
    (names : List String) (source code : String) (hsource : readSource tree path = .ok source)
    (hcode : Translator.translate settings source = .ok code)
    (houtput : outputPath path settings.extension = .ok output)
    (hwritable : tree.IsWritable output names) :
    let displaying := convertAll settings true tree [path]
    let writing := convertAll settings false tree [path]
    let written := Text.splitLines code.toList
    (∀ extension checkBlocks, settingsFor tree [path] extension checkBlocks = .ok settings →
      convert tree [path] extension checkBlocks true = .ok displaying ∧
        convert tree [path] extension checkBlocks false = .ok writing) ∧
    (displaying.status = 0 ∧ displaying.broken = none ∧ displaying.tree = tree) ∧
    (writing.status = 0 ∧ writing.broken = none ∧ ∃ octets,
      writing.tree.read output = .ok octets ∧ Text.Utf8.decode octets = .ok code) ∧
    ∃ lines, Report.allLines displaying.reports = .ok lines ∧
      List.Forall₂ (fun line shown => shown = trimLine (shownLine line) ∧
        (shown = trimLine line ↔ IsUnaltered line)) written lines ∧
      (lines = written.map trimLine ↔ ∀ line ∈ written, IsUnaltered line) ∧
      ((∀ e ∈ settings.aliases, IsUnaltered e.2.toList) →
        ∃ program, Program.ofText source = .ok program ∧
          (lines = written.map trimLine ↔
            ∀ statement ∈ program.statements, ∀ p ∈ TypeScript.pieces statement,
              Token.IsString (p.text settings.aliases) →
                IsUnaltered (p.text settings.aliases).toList)) ∧
      ∀ paths, path ∈ paths → (convertAll settings true tree paths).broken = none →
        ∃ before after, Report.allLines (convertAll settings true tree paths).reports =
          .ok (before ++ lines ++ after) := by
  intro displaying writing written
  have hdisplaying : displaying = { tree, status := 0, reports := [.code code] } :=
    convertAll_displayed hsource hcode
  obtain ⟨hstatus, hbroken, hread⟩ := convertAll_written hsource hcode houtput hwritable
  have hagree : written.map (fun line => trimLine (shownLine line)) = written.map trimLine ↔
      ∀ line ∈ written, IsUnaltered line := by
    simp only [List.map_inj_left, trimLine_shownLine_iff]
  refine ⟨fun _ _ hsettings => by simp only [convert, hsettings, and_self, displaying, writing],
    by rw [hdisplaying]; exact ⟨rfl, rfl, rfl⟩,
    ⟨hstatus, hbroken, _, hread, Text.Utf8.decode_encode code⟩,
    written.map fun line => trimLine (shownLine line), ?_, ?_, hagree, fun haliases => ?_,
    fun paths hpath hunbroken =>
      exists_allLines_of_mem hsource hcode hpath hunbroken (Report.lines_code code)⟩
  · rw [hdisplaying]
    exact Report.allLines_singleton (Report.lines_code code)
  · rw [List.forall₂_map_right_iff, List.forall₂_same]
    exact fun line _ => ⟨rfl, trimLine_shownLine_iff⟩
  · obtain ⟨program, hprogram, rfl⟩ := Attempt.map_eq_ok_iff.mp hcode
    have hread : Program.ofText source = .ok program := (Translator.parse_eq_ok_iff.mp hprogram).1
    have hreturn := return_not_mem_of_readSource hsource
    exact ⟨program, hread,
      hagree.trans (TypeScript.isUnaltered_lines_code_iff haliases hread hreturn)⟩

theorem isToken_say {t : String} (ht : Token.IsString t) : ∀ u ∈ ["say", t], Token.IsToken u := by
  simp only [List.forall_mem_cons]
  exact ⟨.inl ⟨by decide, List.all_eq_true.mp (by decide)⟩, .inr ht, by simp⟩

theorem convertAll_displays_markup :
    let source := "say \"[b]  :smile: é\""
    let code := "console.log(\"[b]  :smile: é\");"
    let tree : FileTree := { entries := [(["m.ls"], .file (Text.Utf8.encode source))] }
    let path : FilePath := { parts := ["m.ls"] }
    let output : FilePath := { parts := ["m.ts"] }
    readSource tree path = .ok source ∧ Translator.translate {} source = .ok code ∧
      outputPath path ".ts" = .ok output ∧ tree.IsWritable output ["m.ts"] ∧
      (∃ octets, (convertAll {} false tree [path]).tree.read output = .ok octets ∧
        Text.Utf8.decode octets = .ok code) ∧
      Report.allLines (convertAll {} true tree [path]).reports = .ok [code] := by
  intro source code tree path output
  have hsource : readSource tree path = .ok source := by cbv
  have hstring : Token.IsString "\"[b]  :smile: é\"" :=
    ⟨"[b]  :smile: é".toList, by decide, by decide⟩
  have hcode : Translator.translate {} source = .ok code :=
    Translator.translate_spaced (isToken_say hstring) rfl (by decide)
  have houtput : outputPath path ".ts" = .ok output := rfl
  have hwritable : tree.IsWritable output ["m.ts"] := ⟨by cbv, by decide⟩
  obtain ⟨-, -, ⟨-, -, hwritten⟩, lines, hlines, -, hagree, -⟩ :=
    convertAll_displays {} tree path output ["m.ts"] source code hsource hcode houtput hwritable
  have hunaltered : ∀ line ∈ Text.splitLines code.toList, IsUnaltered line := by decide
  have hlast : (Text.splitLines code.toList).map trimLine = [code] := by decide
  rw [hagree.mpr hunaltered, hlast] at hlines
  exact ⟨hsource, hcode, houtput, hwritable, hwritten, hlines⟩

/-- A tab in a string is shown as spaces, and a bell in a string is not shown at all. -/
theorem convertAll_display_differs :
    let source := "say \"a\tb\x07\""
    let code := "console.log(\"a\tb\x07\");"
    let tree : FileTree := { entries := [(["x.ls"], .file (Text.Utf8.encode source))] }
    let path : FilePath := { parts := ["x.ls"] }
    let output : FilePath := { parts := ["x.ts"] }
    let displaying := convertAll {} true tree [path]
    let writing := convertAll {} false tree [path]
    convert tree [path] none false true = .ok displaying ∧
      convert tree [path] none false false = .ok writing ∧
      displaying.status = 0 ∧ writing.status = 0 ∧
      writing.tree.read output = .ok (Text.Utf8.encode code) ∧
      Report.allLines displaying.reports = .ok ["console.log(\"a  b\");"] ∧
      (Text.splitLines code.toList).map trimLine = [code] ∧
      code ≠ "console.log(\"a  b\");" := by
  intro source code tree path output displaying writing
  have hsettings : settingsFor tree [path] none false = .ok {} := rfl
  have hsource : readSource tree path = .ok source := by cbv
  have hstring : Token.IsString "\"a\tb\x07\"" := ⟨"a\tb\x07".toList, by decide, by decide⟩
  have hcode : Translator.translate {} source = .ok code :=
    Translator.translate_spaced (isToken_say hstring) rfl (by decide)
  have hwritable : tree.IsWritable output ["x.ts"] := ⟨by cbv, by decide⟩
  have hdisplaying : displaying = { tree, status := 0, reports := [.code code] } :=
    convertAll_displayed hsource hcode
  obtain ⟨hstatus, -, hread⟩ := convertAll_written hsource hcode rfl hwritable
  refine ⟨by rw [convert, hsettings], by rw [convert, hsettings], by rw [hdisplaying], hstatus,
    hread, ?_, by decide, by decide⟩
  have hsplit : Text.splitLines code.toList = [code.toList] := by decide
  have hshown : shownLine code.toList = "console.log(\"a  b\");".toList := by cbv
  have htrim : trimLine "console.log(\"a  b\");".toList = "console.log(\"a  b\");" := by decide
  rw [hdisplaying]
  refine Report.allLines_singleton ((Report.lines_code code).trans ?_)
  rw [hsplit, List.map_singleton, hshown, htrim]

end Command
end Linewise
