import Linewise.Proofs.Pieces
import Linewise.Proofs.Reading
import Linewise.Translator
import Mathlib

/-! # Translation line by line

Without the check of blocks a text is translated one line at a time: every line that is not blank
gives one line of output, and the text is refused exactly if one of its lines is.
-/

namespace Linewise.Translator

def nonBlankLines (text : String) : List String :=
  ((Text.splitLines text.toList).filter fun l => Text.strip l ≠ []).map String.ofList

variable {settings : Settings} {text code : String}

theorem strippedLines_eq (text : String) :
    Program.strippedLines text = (nonBlankLines text).map fun l => Text.strip l.toList := by
  rw [Program.strippedLines, nonBlankLines, List.filter_map, List.map_map]
  exact List.map_congr_left fun l _ => by simp

theorem newline_not_mem_of_mem_nonBlankLines {l : String} (h : l ∈ nonBlankLines text) :
    '\n' ∉ l.toList := by
  obtain ⟨cs, hcs, rfl⟩ := List.mem_map.mp h
  rw [String.toList_ofList]
  exact Text.newline_not_mem_of_mem_splitLines (List.mem_of_mem_filter hcs)

theorem strippedLines_of_mem {l : String} (h : l ∈ nonBlankLines text) :
    Program.strippedLines l = [Text.strip l.toList] := by
  have hblank : Text.strip l.toList ≠ [] := by
    obtain ⟨cs, hcs, rfl⟩ := List.mem_map.mp h
    simpa using List.of_mem_filter hcs
  rw [Program.strippedLines,
    Text.splitLines_of_not_mem (newline_not_mem_of_mem_nonBlankLines h)]
  simp [hblank]

theorem parse_of_unchecked (hoff : settings.checkBlocks = false) (text : String) :
    parse settings text = Program.ofText text := by
  unfold parse
  cases Program.ofText text <;> simp [hoff]

theorem translate_congr {other : String} (h : Program.ofText text = Program.ofText other)
    (settings : Settings) : translate settings text = translate settings other := by
  simp only [translate, parse, h]

theorem translate_of_ofText (hoff : settings.checkBlocks = false) {program : Program}
    (h : Program.ofText text = .ok program) :
    translate settings text = .ok (TypeScript.code settings.aliases program) := by
  rw [translate, parse_of_unchecked hoff, h]
  rfl

theorem translate_eq_ok_iff (hoff : settings.checkBlocks = false) :
    translate settings text = .ok code ↔
      ∃ statements, List.Forall₂ Statement.OfLine (Program.strippedLines text) statements ∧
        "\n".intercalate (statements.map (TypeScript.line settings.aliases)) = code := by
  rw [translate, parse_of_unchecked hoff, Attempt.map_eq_ok_iff]
  simp only [Program.ofText_eq_ok_iff]
  constructor
  · rintro ⟨program, ⟨hstatements, -⟩, rfl⟩
    exact ⟨program.statements, hstatements, rfl⟩
  · rintro ⟨statements, hstatements, rfl⟩
    exact ⟨⟨statements, Program.lineNumbers text⟩, ⟨hstatements, rfl⟩, rfl⟩

theorem translate_line_eq_ok_iff (hoff : settings.checkBlocks = false) {l : String}
    (h : l ∈ nonBlankLines text) :
    translate settings l = .ok code ↔
      ∃ statement, Statement.OfLine (Text.strip l.toList) statement ∧
        TypeScript.line settings.aliases statement = code := by
  rw [translate_eq_ok_iff hoff, strippedLines_of_mem h]
  constructor
  · rintro ⟨statements, hstatements, rfl⟩
    obtain ⟨statement, rest, hstatement, hrest, rfl⟩ := List.forall₂_cons_left_iff.mp hstatements
    cases hrest
    exact ⟨statement, hstatement, by simp⟩
  · rintro ⟨statement, hstatement, rfl⟩
    exact ⟨[statement], .cons hstatement .nil, by simp⟩

theorem translate_eq_ok_iff_lines (hoff : settings.checkBlocks = false) :
    translate settings text = .ok code ↔
      ∃ pieces, List.Forall₂ (fun l piece => translate settings l = .ok piece)
          (nonBlankLines text) pieces ∧ "\n".intercalate pieces = code := by
  have hlines {pieces : List String} :
      List.Forall₂ (fun l piece => translate settings l = .ok piece) (nonBlankLines text) pieces ↔
        ∃ statements, List.Forall₂ Statement.OfLine (Program.strippedLines text) statements ∧
          statements.map (TypeScript.line settings.aliases) = pieces := by
    rw [Attempt.forall₂_congr_of_mem fun l hl piece => translate_line_eq_ok_iff hoff hl,
      strippedLines_eq, Attempt.forall₂_exists_iff]
    simp only [List.forall₂_map_left_iff]
  rw [translate_eq_ok_iff hoff]
  simp only [hlines]
  constructor
  · rintro ⟨statements, hstatements, rfl⟩
    exact ⟨_, ⟨statements, hstatements, rfl⟩, rfl⟩
  · rintro ⟨_, ⟨statements, hstatements, rfl⟩, rfl⟩
    exact ⟨statements, hstatements, rfl⟩

theorem line_ne_empty (aliases : Entries String) (statement : Statement) :
    TypeScript.line aliases statement ≠ "" := by
  rw [Ne, ← String.toList_eq_nil_iff, TypeScript.toList_line]
  cases statement with
  | returnValue value => cases value <;> simp [TypeScript.pieces, TypeScript.Piece.text]
  | _ => simp [TypeScript.pieces, TypeScript.Piece.text]

theorem translate_line_is_line (hoff : settings.checkBlocks = false)
    (haliases : ∀ e ∈ settings.aliases, '\n' ∉ e.2.toList) {l : String} (h : l ∈ nonBlankLines text)
    (hcode : translate settings l = .ok code) : code ≠ "" ∧ '\n' ∉ code.toList := by
  obtain ⟨statement, hread, rfl⟩ := (translate_line_eq_ok_iff hoff h).mp hcode
  obtain ⟨command, args, htokens, hshape⟩ := hread.exists_shape
  refine ⟨line_ne_empty _ _, TypeScript.newline_not_mem_line haliases fun t ht hc => ?_⟩
  rcases Statement.mem_of_mem_sources hshape ht with hmem | rfl
  · have hline := Token.mem_of_tokenize htokens hmem hc
    rw [String.toList_ofList] at hline
    exact newline_not_mem_of_mem_nonBlankLines h (Text.mem_of_mem_strip hline)
  · cases hc

theorem statementCount_run (hoff : settings.checkBlocks = false)
    (h : translate settings text = .ok code) :
    (run settings text).statementCount = (nonBlankLines text).length := by
  obtain ⟨program, hprogram, -⟩ := Attempt.map_eq_ok_iff.mp h
  rw [run, hprogram]
  change program.statements.length = _
  rw [parse_of_unchecked hoff, Program.ofText_eq_ok_iff, strippedLines_eq] at hprogram
  rw [← hprogram.1.length_eq, List.length_map]

/-- Without the check of blocks a text is translated exactly if each of its lines that are not
blank is, and the translations of the lines are then the lines of its translation. -/
theorem translate_line_by_line (settings : Settings) (text : String)
    (hoff : settings.checkBlocks = false) (haliases : ∀ e ∈ settings.aliases, '\n' ∉ e.2.toList) :
    ((∃ code, translate settings text = .ok code) ↔
      ∀ l ∈ nonBlankLines text, ∃ piece, translate settings l = .ok piece) ∧
    ∀ code, translate settings text = .ok code →
      ∃ pieces, List.Forall₂ (fun l piece => translate settings l = .ok piece)
          (nonBlankLines text) pieces ∧
        code = "\n".intercalate pieces ∧
        (∀ piece ∈ pieces, piece ≠ "" ∧ '\n' ∉ piece.toList) ∧
        (nonBlankLines text ≠ [] → code.toList.splitOn '\n' = pieces.map String.toList) ∧
        (run settings text).statementCount = (nonBlankLines text).length := by
  have htext {code : String} := @translate_eq_ok_iff_lines settings text code hoff
  constructor
  · simp only [htext, ← Attempt.exists_forall₂_iff]
    exact ⟨fun ⟨_, pieces, hpieces, _⟩ => ⟨pieces, hpieces⟩,
      fun ⟨pieces, hpieces⟩ => ⟨_, pieces, hpieces, rfl⟩⟩
  · intro code hcode
    obtain ⟨pieces, hpieces, rfl⟩ := htext.mp hcode
    have hpiece : ∀ piece ∈ pieces, piece ≠ "" ∧ '\n' ∉ piece.toList := by
      intro piece hmem
      obtain ⟨l, hl, htranslate⟩ := Attempt.exists_mem_of_forall₂ hpieces hmem
      exact translate_line_is_line hoff haliases hl htranslate
    refine ⟨pieces, hpieces, rfl, hpiece, fun hne => ?_, statementCount_run hoff hcode⟩
    rw [String.toList_intercalate]
    refine List.splitOn_intercalate '\n' ?_ ?_
    · simpa using fun piece hmem => (hpiece piece hmem).2
    · intro hnil
      rw [List.map_eq_nil_iff.mp hnil] at hpieces
      exact hne (List.forall₂_nil_right_iff.mp hpieces)

theorem translate_two_lines_by_line :
    let settings : Settings := { aliases := [("int", "number")] }
    let text := "func f -> int\r\n \nend"
    let code := "function f(): number \x7b\n\x7d"
    settings.checkBlocks = false ∧ (∀ e ∈ settings.aliases, '\n' ∉ e.2.toList) ∧
      translate settings text = .ok code ∧
      ∃ pieces, List.Forall₂ (fun l piece => translate settings l = .ok piece)
          (nonBlankLines text) pieces ∧
        code = "\n".intercalate pieces ∧
        (∀ piece ∈ pieces, piece ≠ "" ∧ '\n' ∉ piece.toList) ∧
        (nonBlankLines text ≠ [] → code.toList.splitOn '\n' = pieces.map String.toList) ∧
        (run settings text).statementCount = (nonBlankLines text).length := by
  intro settings text code
  have hprogram : Program.ofText text = .ok ⟨[.functionDecl "f" [] "int", .blockEnd], [1, 3]⟩ := by
    cbv
  have hcode : translate settings text = .ok code := by
    rw [translate, parse_of_unchecked rfl, hprogram]
    rfl
  have haliases : ∀ e ∈ settings.aliases, '\n' ∉ e.2.toList := by decide
  exact ⟨rfl, haliases, hcode, (translate_line_by_line settings text rfl haliases).2 code hcode⟩

end Linewise.Translator
