import Linewise.Proofs.LineByLine

/-! # How a translation ends

A text is translated or refused, and it is refused for the first line that cannot be divided into
tokens or, where they are checked, for blocks that do not match. A run ends as the translation does,
and the check of blocks can only refuse more texts.
-/

namespace Linewise.Translator

/-- Why a text is not translated. The blocks are looked at only if every line has a statement. -/
inductive Refused (settings : Settings) (text : String) : Fault → Prop where
  | token {cause : TokenCause} {line column : Int}
      (h : Program.ofText text = .error (.token ⟨cause, some line, some column⟩)) :
      Refused settings text (.token ⟨cause, some line, some column⟩)
  | block {program : Program} {fault : BlockFault} (hon : settings.checkBlocks = true)
      (h : Program.ofText text = .ok program) (hblocks : Block.check program = .error fault) :
      Refused settings text (.block fault)

variable {settings other : Settings} {text code : String} {program : Program} {fault : Fault}

theorem parse_eq_ok_iff :
    parse settings text = .ok program ↔
      Program.ofText text = .ok program ∧
        (settings.checkBlocks = true → Block.check program = .ok ()) := by
  unfold parse
  cases Program.ofText text with
  | error stop => simp
  | ok read =>
    by_cases hon : settings.checkBlocks = true
    · cases hblocks : Block.check read with
      | error stop =>
        simp only [hon, hblocks, if_true, reduceCtorEq, false_iff, Except.ok.injEq, not_and]
        rintro rfl h
        rw [h trivial] at hblocks
        cases hblocks
      | ok done =>
        simp only [hon, hblocks, if_true, Except.ok.injEq, forall_const]
        exact ⟨fun h => ⟨h, h ▸ hblocks⟩, And.left⟩
    · simp [hon]

theorem parse_eq_error_iff : parse settings text = .error fault ↔ Refused settings text fault := by
  unfold parse
  constructor
  · intro h
    cases hread : Program.ofText text with
    | error stop =>
      obtain ⟨cause, line, column, rfl⟩ := Program.exists_token_of_ofText_error hread
      simp only [hread, Except.error.injEq] at h
      exact h ▸ .token hread
    | ok read =>
      by_cases hon : settings.checkBlocks = true
      · cases hblocks : Block.check read with
        | error stop =>
          simp only [hread, hon, hblocks, if_true, Except.error.injEq] at h
          exact h ▸ .block hon hread hblocks
        | ok done => simp [hread, hon, hblocks] at h
      · simp [hread, hon] at h
  · rintro (hread | ⟨hon, hread, hblocks⟩)
    · simp [hread]
    · simp [hread, hon, hblocks]

theorem translate_of_parse (h : parse settings text = .ok program) :
    translate settings text = .ok (TypeScript.code settings.aliases program) :=
  Attempt.map_eq_ok_iff.mpr ⟨program, h, rfl⟩

theorem run_of_parse (h : parse settings text = .ok program) :
    run settings text =
      { code := TypeScript.code settings.aliases program, errors := [], success := true
        statementCount := program.statements.length } := by
  rw [run, h]

theorem run_of_parse_error (h : parse settings text = .error fault) :
    run settings text =
      { code := "", errors := [fault.message], success := false, statementCount := 0 } := by
  rw [run, h]

theorem success_run_iff :
    (run settings text).success = true ↔ ∃ code, translate settings text = .ok code := by
  cases h : parse settings text with
  | error stop => simp [run_of_parse_error h, translate, h, Except.map]
  | ok read => simp [run_of_parse h, translate_of_parse h]

theorem hasErrors_run : (run settings text).hasErrors = !(run settings text).success := by
  cases h : parse settings text with
  | error stop => simp [run_of_parse_error h, Outcome.hasErrors]
  | ok read => simp [run_of_parse h, Outcome.hasErrors]

structure SameEnd (settings other : Settings) (text : String) : Prop where
  parse_eq : parse settings text = parse other text
  translate_eq : translate settings text = translate other text
  run_eq : run settings text = run other text

theorem SameEnd.of_parse (haliases : settings.aliases = other.aliases)
    (h : parse settings text = parse other text) : SameEnd settings other text where
  parse_eq := h
  translate_eq := by rw [translate, translate, h, haliases]
  run_eq := by rw [run, run, h, haliases]

variable (hoff : other.checkBlocks = false)
include hoff

theorem parse_unchecked_of_checked (h : parse settings text = .ok program) :
    parse other text = .ok program := by
  rw [parse_of_unchecked hoff]
  exact (parse_eq_ok_iff.mp h).1

/-- A line that is refused is refused before the blocks are looked at. -/
theorem parse_checked_of_unchecked_error (h : parse other text = .error fault) :
    (∃ cause line column, fault = .token ⟨cause, some line, some column⟩) ∧
      parse settings text = .error fault := by
  rw [parse_of_unchecked hoff] at h
  obtain ⟨cause, line, column, rfl⟩ := Program.exists_token_of_ofText_error h
  exact ⟨⟨cause, line, column, rfl⟩, parse_eq_error_iff.mpr (.token h)⟩

theorem parse_checked_error_is_block (h : parse other text = .ok program)
    (hfault : parse settings text = .error fault) :
    ∃ blocks, fault = .block blocks ∧ Block.check program = .error blocks := by
  rw [parse_of_unchecked hoff] at h
  cases parse_eq_error_iff.mp hfault with
  | token hread =>
    rw [h] at hread
    cases hread
  | block _ hread hblocks =>
    rw [h] at hread
    cases hread
    exact ⟨_, rfl, hblocks⟩

omit hoff

/-- A run succeeds with the translation of a text or ends in the message of its fault, and there is
no fault but of a line at a place in it or of the blocks where they are checked. The check of blocks
changes no end but that of a text in which every line has a statement and the blocks do not
match. -/
theorem run_agrees (settings : Settings) (text : String) :
    ((run settings text).success = true ↔ ∃ code, translate settings text = .ok code) ∧
    (∀ code, translate settings text = .ok code →
      ∃ program, parse settings text = .ok program ∧
        run settings text =
          { code, errors := [], success := true, statementCount := program.statements.length }) ∧
    (∀ fault, translate settings text = .error fault →
      Refused settings text fault ∧ parse settings text = .error fault ∧
        run settings text =
          { code := "", errors := [fault.message], success := false, statementCount := 0 }) ∧
    (run settings text).hasErrors = !(run settings text).success ∧
    let checked := { settings with checkBlocks := true }
    let unchecked := { settings with checkBlocks := false }
    (∀ code, translate checked text = .ok code → SameEnd checked unchecked text) ∧
    (∀ fault, translate unchecked text = .error fault →
      (∃ cause line column, fault = .token ⟨cause, some line, some column⟩) ∧
        SameEnd checked unchecked text) ∧
    ∀ code fault, translate unchecked text = .ok code → translate checked text = .error fault →
      ∃ program blocks, Program.ofText text = .ok program ∧ fault = .block blocks ∧
        Block.check program = .error blocks := by
  refine ⟨success_run_iff, fun code h => ?_, fun fault h => ?_, hasErrors_run, ?_⟩
  · obtain ⟨program, hprogram, rfl⟩ := Attempt.map_eq_ok_iff.mp h
    exact ⟨program, hprogram, run_of_parse hprogram⟩
  · have hparse := Attempt.map_eq_error_iff.mp h
    exact ⟨parse_eq_error_iff.mp hparse, hparse, run_of_parse_error hparse⟩
  intro checked unchecked
  have hoff : unchecked.checkBlocks = false := rfl
  refine ⟨fun code h => ?_, fun fault h => ?_, fun code fault h hfault => ?_⟩
  · obtain ⟨program, hprogram, -⟩ := Attempt.map_eq_ok_iff.mp h
    have hunchecked := parse_unchecked_of_checked hoff hprogram
    exact .of_parse rfl (hprogram.trans hunchecked.symm)
  · have hparse := Attempt.map_eq_error_iff.mp h
    obtain ⟨htoken, hchecked⟩ := parse_checked_of_unchecked_error hoff hparse
    exact ⟨htoken, .of_parse rfl (hchecked.trans hparse.symm)⟩
  · obtain ⟨program, hprogram, -⟩ := Attempt.map_eq_ok_iff.mp h
    obtain ⟨blocks, hblocks⟩ :=
      parse_checked_error_is_block hoff hprogram (Attempt.map_eq_error_iff.mp hfault)
    rw [parse_of_unchecked hoff] at hprogram
    exact ⟨program, blocks, hprogram, hblocks⟩

/-- A line that closes no block is refused only where blocks are checked, and only if no line below
it is refused for its characters. -/
theorem run_agrees_stray_end :
    let settings : Settings := { checkBlocks := true }
    run {} "end" = { code := "\x7d", errors := [], success := true, statementCount := 1 } ∧
      run settings "end" =
        { code := "", errors := ["'end' without an open block (line 1)"], success := false
          statementCount := 0 } ∧
      run settings "end\nsay \"" =
        { code := "", errors := ["Invalid String (line 2, col 5)"], success := false
          statementCount := 0 } ∧
      SameEnd settings {} "end\nsay \"" := by
  intro settings
  have hend : Program.ofText "end" = .ok ⟨[.blockEnd], [1]⟩ := by cbv
  have hcode : translate {} "end" = .ok "\x7d" := by
    rw [translate_of_ofText rfl hend]
    rfl
  have hblocks : translate settings "end" = .error (.block (.outside .close 1)) := by
    rw [translate, parse_eq_error_iff.mpr (.block rfl hend rfl)]
    rfl
  have hread : Program.ofText "end\nsay \"" = .error (.token ⟨.openString, some 2, some 5⟩) := by
    decide +kernel
  have hopen (s : Settings) : translate s "end\nsay \"" =
      .error (.token ⟨.openString, some 2, some 5⟩) := by
    rw [translate, parse_eq_error_iff.mpr (.token hread)]
    rfl
  obtain ⟨-, hprogram, -⟩ := run_agrees {} "end"
  obtain ⟨program, hparse, hrun⟩ := hprogram _ hcode
  rw [parse_of_unchecked rfl, hend] at hparse
  cases hparse
  obtain ⟨-, -, hfault, -⟩ := run_agrees settings "end"
  obtain ⟨-, -, hrefused⟩ := hfault _ hblocks
  obtain ⟨-, -, hfault, -, -, hsame, -⟩ := run_agrees settings "end\nsay \""
  obtain ⟨-, -, hstopped⟩ := hfault _ (hopen settings)
  exact ⟨hrun, hrefused, hstopped, (hsame _ (hopen _)).2⟩

end Linewise.Translator
