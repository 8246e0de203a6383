import Linewise.Program
import Linewise.Proofs.Division
import Linewise.Proofs.Lines
import Linewise.Proofs.Shape

/-! # Reading a program line by line

A text has a program when each of its lines that is not blank has a statement. The statements and
their numbers then stand in the order of the lines. Otherwise the text is refused for the first line
without a statement, and always because its characters cannot be divided into tokens.
-/

namespace Linewise

def Statement.OfLine (cs : List Char) (statement : Statement) : Prop :=
  ∃ tokens, Token.tokenize (String.ofList cs) = .ok tokens ∧
    Statement.ofTokens tokens = .ok statement

theorem Statement.OfLine.exists_shape {cs : List Char} {statement : Statement}
    (h : Statement.OfLine cs statement) :
    ∃ command args, Token.tokenize (String.ofList cs) = .ok (command :: args) ∧
      Statement.Shape command args statement := by
  obtain ⟨tokens, htokens, hstatement⟩ := h
  obtain ⟨command, args, rfl, hshape⟩ := Statement.ofTokens_eq_ok_iff.mp hstatement
  exact ⟨command, args, htokens, hshape⟩

namespace Program

def strippedLines (text : String) : List (List Char) :=
  ((Text.splitLines text.toList).map Text.strip).filter (· ≠ [])

def lineNumbers (text : String) : List Int :=
  ((numberedLines text).filter (·.2 ≠ [])).map Prod.fst

theorem readLine_eq_ok_iff {line : Int × List Char} {entry : Int × Statement} :
    readLine line = .ok entry ↔ entry.1 = line.1 ∧ Statement.OfLine line.2 entry.2 := by
  constructor
  · intro h
    unfold readLine at h
    split at h
    · cases h
    · next tokens htokens =>
      obtain ⟨statement, hstatement, rfl⟩ := Attempt.map_eq_ok_iff.mp h
      exact ⟨rfl, tokens, Token.tokenize_eq_ok_of_line htokens, hstatement⟩
  · rintro ⟨hnumber, tokens, htokens, hstatement⟩
    rw [readLine, Token.tokenize_eq_ok_of_line htokens]
    exact Attempt.map_eq_ok_iff.mpr ⟨entry.2, hstatement, Prod.ext hnumber.symm rfl⟩

def number (lines : List (List Char)) : List (Int × List Char) :=
  lines.mapIdx fun i line => ((i : Int) + 1, line)

theorem map_snd_number (lines : List (List Char)) : (number lines).map Prod.snd = lines :=
  List.ext_getElem (by simp [number]) fun i _ _ => by simp [number]

theorem map_fst_number (lines : List (List Char)) :
    (number lines).map Prod.fst = (List.range lines.length).map fun i : ℕ => (i : Int) + 1 :=
  List.ext_getElem (by simp [number]) fun i _ _ => by
    simp only [number, List.getElem_map, List.getElem_mapIdx, List.getElem_range]

theorem numberedLines_eq (text : String) :
    numberedLines text = number ((Text.splitLines text.toList).map Text.strip) :=
  List.ext_getElem (by simp [numberedLines, number]) fun i _ _ => by simp [numberedLines, number]

theorem map_snd_numberedLines (text : String) :
    ((numberedLines text).filter (·.2 ≠ [])).map Prod.snd = strippedLines text := by
  rw [strippedLines, ← map_snd_number ((Text.splitLines text.toList).map Text.strip),
    ← numberedLines_eq, List.filter_map]
  rfl

theorem forall₂_numbered_iff {lines : List (Int × List Char)} {entries : List (Int × Statement)} :
    List.Forall₂ (fun line entry => readLine line = .ok entry) lines entries ↔
      entries.map Prod.fst = lines.map Prod.fst ∧
        List.Forall₂ Statement.OfLine (lines.map Prod.snd) (entries.map Prod.snd) := by
  induction lines generalizing entries with
  | nil => cases entries <;> simp
  | cons line lines ih =>
    cases entries with
    | nil => simp
    | cons entry entries =>
      rw [List.forall₂_cons, ih, readLine_eq_ok_iff]
      simp only [List.map_cons, List.forall₂_cons, List.cons.injEq]
      exact and_and_and_comm

/-- A text has the program whose statements are those of its lines that are not blank. -/
theorem ofText_eq_ok_iff {text : String} {program : Program} :
    ofText text = .ok program ↔
      List.Forall₂ Statement.OfLine (strippedLines text) program.statements ∧
        program.lines = lineNumbers text := by
  rw [ofText, Attempt.map_eq_ok_iff, ← map_snd_numberedLines, lineNumbers]
  simp only [Attempt.mapM_eq_ok_iff, forall₂_numbered_iff]
  constructor
  · rintro ⟨entries, ⟨hnumbers, hstatements⟩, rfl⟩
    exact ⟨hstatements, hnumbers⟩
  · rintro ⟨hstatements, hnumbers⟩
    have hlength : program.lines.length = program.statements.length := by
      rw [hnumbers, ← hstatements.length_eq, List.length_map, List.length_map]
    refine ⟨program.lines.zip program.statements, ?_, ?_⟩
    · rw [List.map_fst_zip hlength.le, List.map_snd_zip hlength.ge]
      exact ⟨hnumbers, hstatements⟩
    · rw [List.map_fst_zip hlength.le, List.map_snd_zip hlength.ge]

def filledLines (text : String) : List (Int × List Char) :=
  (numberedLines text).filter (·.2 ≠ [])

theorem exists_ofLine_of_mem_filledLines {text : String} {program : Program}
    (h : ofText text = .ok program) : ∀ line ∈ filledLines text,
      ∃ statement, Statement.OfLine line.2 statement := by
  obtain ⟨hstatements, -⟩ := ofText_eq_ok_iff.mp h
  intro line hline
  have hmem : line.2 ∈ strippedLines text := by
    rw [← map_snd_numberedLines]
    exact List.mem_map_of_mem hline
  exact Attempt.exists_forall₂_iff.mp ⟨_, hstatements⟩ line.2 hmem

/-- Why a line has no statement: where its scan stops, and with which cause. -/
def IsRefusal (line : Int × List Char) (fault : Fault) : Prop :=
  ∃ cause column, Token.scan 1 line.2 = .error (cause, column) ∧
    fault = .token ⟨cause, some line.1, some column⟩

theorem exists_not_isBlank_of_mem {text : String} {line : Int × List Char}
    (h : line ∈ filledLines text) : ∃ c ∈ line.2, Text.isBlank c = false := by
  obtain ⟨hmem, hfilled⟩ := List.mem_filter.mp h
  obtain ⟨i, hi, rfl⟩ := List.mem_mapIdx.mp hmem
  exact Text.exists_not_isBlank (by simpa using hfilled)

/-- A line with a character that is no blank has tokens, so it is never refused for having none. -/
theorem readLine_eq_error_iff {line : Int × List Char} {fault : Fault}
    (h : ∃ c ∈ line.2, Text.isBlank c = false) :
    readLine line = .error fault ↔ IsRefusal line fault := by
  have htokens : Token.tokenize (String.ofList line.2) (some line.1) ≠ .ok [] := by
    intro hnil
    obtain ⟨c, hc, hblank⟩ := h
    have hrun := Token.isBlankRun_of_tokenize hnil c (by simpa using hc)
    rw [hblank] at hrun
    cases hrun
  rw [readLine, IsRefusal]
  cases htokenize : Token.tokenize (String.ofList line.2) (some line.1) with
  | error stop =>
    obtain ⟨cause, column, hscan, rfl⟩ := Token.tokenize_eq_error_iff.mp htokenize
    rw [String.toList_ofList] at hscan
    simp [hscan, eq_comm]
  | ok tokens =>
    obtain ⟨lexemes, hscan, -⟩ := Token.tokenize_eq_ok_iff.mp htokenize
    rw [String.toList_ofList] at hscan
    simp only [Attempt.map_eq_error_iff, Statement.ofTokens_eq_error_iff, hscan, reduceCtorEq,
      false_and, exists_false, iff_false, not_and]
    rintro rfl
    exact absurd htokenize htokens

theorem exists_readLine_iff {line : Int × List Char} :
    (∃ entry, readLine line = .ok entry) ↔ ∃ statement, Statement.OfLine line.2 statement := by
  simp only [readLine_eq_ok_iff]
  exact ⟨fun ⟨entry, _, h⟩ => ⟨entry.2, h⟩, fun ⟨statement, h⟩ => ⟨(line.1, statement), rfl, h⟩⟩

/-- A text is refused for the first of its lines that has no statement. -/
theorem ofText_eq_error_iff {text : String} {fault : Fault} :
    ofText text = .error fault ↔
      ∃ before line after, filledLines text = before ++ line :: after ∧
        (∀ l ∈ before, ∃ statement, Statement.OfLine l.2 statement) ∧ IsRefusal line fault := by
  have hrefused {before after line} (h : filledLines text = before ++ line :: after) :
      readLine line = .error fault ↔ IsRefusal line fault := by
    have hmem : line ∈ filledLines text := by simp [h]
    exact readLine_eq_error_iff (exists_not_isBlank_of_mem hmem)
  rw [ofText, Attempt.map_eq_error_iff, Attempt.mapM_eq_error_iff]
  simp only [exists_readLine_iff]
  constructor
  · rintro ⟨before, line, after, heq, hbefore, hline⟩
    exact ⟨before, line, after, heq, hbefore, (hrefused heq).mp hline⟩
  · rintro ⟨before, line, after, heq, hbefore, hline⟩
    exact ⟨before, line, after, heq, hbefore, (hrefused heq).mpr hline⟩

theorem exists_token_of_ofText_error {text : String} {fault : Fault}
    (h : ofText text = .error fault) :
    ∃ cause line column, fault = .token ⟨cause, some line, some column⟩ := by
  obtain ⟨before, line, after, -, -, cause, column, -, rfl⟩ := ofText_eq_error_iff.mp h
  exact ⟨cause, line.1, column, rfl⟩

theorem ofText_congr {text other : String}
    (h : (Text.splitLines text.toList).map Text.strip =
      (Text.splitLines other.toList).map Text.strip) : ofText text = ofText other := by
  simp only [ofText, numberedLines_eq, h]

theorem exists_ofLine_of_mem {text : String} {program : Program} (h : ofText text = .ok program)
    {statement : Statement} (hmem : statement ∈ program.statements) :
    ∃ cs ∈ strippedLines text, Statement.OfLine cs statement :=
  Attempt.exists_mem_of_forall₂ (ofText_eq_ok_iff.mp h).1 hmem

end Program
end Linewise
