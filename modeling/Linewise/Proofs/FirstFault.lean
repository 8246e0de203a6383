import Linewise.Proofs.Reading
import Linewise.Proofs.Stops

/-! # The first line at fault

The lines of a text that are not blank have strictly increasing numbers. Each of them has tokens or
is refused at a place in it, so the text has a program with one statement for each of them, or it is
refused for the first one that is refused. What stands below this line does not matter.
-/

namespace Linewise

namespace Program

variable {text other : String} {fault : Fault} {number : Nat} {line : String}

/-- The line of a text with the number, counted from one, is this one without the blanks at its
ends, and it is not blank. -/
structure IsLine (text : String) (number : Nat) (line : String) : Prop where
  pos : 1 ≤ number
  strip_eq : (Text.splitLines text.toList)[number - 1]?.map Text.strip = some line.toList
  ne_empty : line ≠ ""

theorem mem_filledLines_iff {entry : Int × List Char} :
    entry ∈ filledLines text ↔
      ∃ number line, IsLine text number line ∧ entry = ((number : Int), line.toList) := by
  rw [filledLines, List.mem_filter, numberedLines, List.mem_mapIdx]
  constructor
  · rintro ⟨⟨i, hi, rfl⟩, hfilled⟩
    refine ⟨i + 1, String.ofList (Text.strip (Text.splitLines text.toList)[i]), ?_, by simp⟩
    refine ⟨Nat.le_add_left .., by simp [hi], ?_⟩
    simpa using hfilled
  · rintro ⟨number, line, h, rfl⟩
    obtain ⟨n, rfl⟩ := Nat.exists_eq_add_of_le' h.pos
    obtain ⟨raw, hraw, hstrip⟩ := Option.map_eq_some_iff.mp h.strip_eq
    obtain ⟨hn, rfl⟩ := List.getElem?_eq_some_iff.mp hraw
    refine ⟨⟨n, hn, Prod.ext (by simp) hstrip⟩, ?_⟩
    simpa using h.ne_empty

theorem IsLine.mem_filledLines (h : IsLine text number line) :
    ((number : Int), line.toList) ∈ filledLines text :=
  mem_filledLines_iff.mpr ⟨number, line, h, rfl⟩

theorem pairwise_filledLines (text : String) :
    (filledLines text).Pairwise fun line next => line.1 < next.1 := by
  refine List.Pairwise.filter _ (List.pairwise_iff_getElem.mpr fun i j hi hj hij => ?_)
  simp only [numberedLines, List.getElem_mapIdx]
  omega

theorem IsLine.tokenize_ne_nil (h : IsLine text number line) (n : Option Int) :
    Token.tokenize line n ≠ .ok [] := by
  intro htokens
  obtain ⟨c, hc, hblank⟩ := exists_not_isBlank_of_mem h.mem_filledLines
  rw [Token.isBlankRun_of_tokenize htokens c hc] at hblank
  cases hblank

theorem IsLine.exists_ofLine_iff (h : IsLine text number line) :
    (∃ statement, Statement.OfLine line.toList statement) ↔
      ∃ tokens, Token.tokenize line (some number) = .ok tokens := by
  simp only [Statement.OfLine, String.ofList_toList]
  constructor
  · rintro ⟨statement, tokens, htokens, -⟩
    exact ⟨tokens, Token.tokenize_eq_ok_of_line htokens⟩
  · rintro ⟨tokens, htokens⟩
    cases tokens with
    | nil => exact absurd htokens (h.tokenize_ne_nil _)
    | cons command args => exact ⟨_, _, Token.tokenize_eq_ok_of_line htokens, rfl⟩

theorem isRefusal_iff :
    IsRefusal ((number : Int), line.toList) fault ↔
      ∃ stop, Token.tokenize line (some number) = .error stop ∧ fault = .token stop := by
  simp only [IsRefusal, Token.tokenize_eq_error_iff]
  constructor
  · rintro ⟨cause, column, hscan, rfl⟩
    exact ⟨_, ⟨cause, column, hscan, rfl⟩, rfl⟩
  · rintro ⟨_, ⟨cause, column, hscan, rfl⟩, rfl⟩
    exact ⟨cause, column, hscan, rfl⟩

/-- The line is refused, and the lines above it that are not blank have tokens. -/
structure IsFirstRefused (text : String) (number : Nat) (line : String) (stop : TokenFault) :
    Prop where
  isLine : IsLine text number line
  tokenize_eq : Token.tokenize line (some number) = .error stop
  above : ∀ m l, m < number → IsLine text m l →
    ∃ tokens, Token.tokenize l (some m) = .ok tokens

theorem ofText_eq_error_iff_first :
    ofText text = .error fault ↔
      ∃ number line stop, IsFirstRefused text number line stop ∧ fault = .token stop := by
  rw [ofText_eq_error_iff, Attempt.exists_first_iff (pairwise_filledLines text)]
  constructor
  · rintro ⟨entry, hentry, habove, hrefusal⟩
    obtain ⟨number, line, hline, rfl⟩ := mem_filledLines_iff.mp hentry
    obtain ⟨stop, hstop, rfl⟩ := isRefusal_iff.mp hrefusal
    refine ⟨number, line, stop, ⟨hline, hstop, fun m l hm hl => ?_⟩, rfl⟩
    have hlt : (m : Int) < number := by omega
    exact hl.exists_ofLine_iff.mp (habove (m, l.toList) hl.mem_filledLines hlt)
  · rintro ⟨number, line, stop, ⟨hline, hstop, habove⟩, rfl⟩
    refine ⟨(number, line.toList), hline.mem_filledLines, fun entry hentry hlt => ?_,
      isRefusal_iff.mpr ⟨stop, hstop, rfl⟩⟩
    obtain ⟨m, l, hl, rfl⟩ := mem_filledLines_iff.mp hentry
    have hm : (m : Int) < number := hlt
    exact hl.exists_ofLine_iff.mpr (habove m l (by omega) hl)

theorem isLine_congr {n : Nat}
    (h : (Text.splitLines other.toList).take n = (Text.splitLines text.toList).take n)
    (hn : number ≤ n) : IsLine other number line ↔ IsLine text number line := by
  have hget (hpos : 1 ≤ number) : (Text.splitLines other.toList)[number - 1]? =
      (Text.splitLines text.toList)[number - 1]? := by
    rw [← List.getElem?_take_of_lt (show number - 1 < n by omega), h,
      List.getElem?_take_of_lt (by omega)]
  constructor
  · rintro ⟨hpos, hstrip, hne⟩
    exact ⟨hpos, hget hpos ▸ hstrip, hne⟩
  · rintro ⟨hpos, hstrip, hne⟩
    exact ⟨hpos, (hget hpos).symm ▸ hstrip, hne⟩

/-- Whether a line is the first that is refused can be told without the lines below it. -/
theorem IsFirstRefused.congr {stop : TokenFault} (h : IsFirstRefused text number line stop)
    (hlines : (Text.splitLines other.toList).take number =
      (Text.splitLines text.toList).take number) : IsFirstRefused other number line stop where
  isLine := (isLine_congr hlines le_rfl).mpr h.isLine
  tokenize_eq := h.tokenize_eq
  above m l hm hl := h.above m l hm ((isLine_congr hlines hm.le).mp hl)

/-- The statement of the line with the number is that of its tokens, of which there is one. -/
def IsStatementOf (text : String) (n : Int) (statement : Statement) : Prop :=
  ∃ (number : Nat) (line : String) (tokens : List String), n = number ∧
    IsLine text number line ∧ Token.tokenize line (some n) = .ok tokens ∧ tokens ≠ [] ∧
    Statement.ofTokens tokens = .ok statement

variable {program : Program}

theorem exists_program_iff :
    (∃ program, ofText text = .ok program) ↔
      ∀ number line, IsLine text number line →
        ∃ tokens, Token.tokenize line (some number) = .ok tokens := by
  constructor
  · rintro ⟨program, h⟩ number line hline
    have hstatement :=
      exists_ofLine_of_mem_filledLines h (number, line.toList) hline.mem_filledLines
    exact hline.exists_ofLine_iff.mp hstatement
  · intro h
    cases hread : ofText text with
    | ok program => exact ⟨program, rfl⟩
    | error fault =>
      obtain ⟨number, line, stop, hfirst, -⟩ := ofText_eq_error_iff_first.mp hread
      obtain ⟨tokens, htokens⟩ := h number line hfirst.isLine
      cases hfirst.tokenize_eq.symm.trans htokens

theorem pairwise_lines (h : ofText text = .ok program) : program.lines.Pairwise (· < ·) := by
  rw [(ofText_eq_ok_iff.mp h).2, lineNumbers, List.pairwise_map]
  exact pairwise_filledLines text

theorem mem_lines_iff (h : ofText text = .ok program) {n : Int} :
    n ∈ program.lines ↔ ∃ number line, IsLine text number line ∧ n = number := by
  rw [(ofText_eq_ok_iff.mp h).2, lineNumbers, List.mem_map]
  constructor
  · rintro ⟨entry, hentry, rfl⟩
    obtain ⟨number, line, hline, rfl⟩ := mem_filledLines_iff.mp hentry
    exact ⟨number, line, hline, rfl⟩
  · rintro ⟨number, line, hline, rfl⟩
    exact ⟨_, hline.mem_filledLines, rfl⟩

theorem forall₂_isStatementOf (h : ofText text = .ok program) :
    List.Forall₂ (IsStatementOf text) program.lines program.statements := by
  obtain ⟨entries, hentries, rfl⟩ := Attempt.map_eq_ok_iff.mp h
  rw [List.forall₂_map_left_iff, List.forall₂_map_right_iff, List.forall₂_same]
  intro entry hentry
  obtain ⟨line, hline, hread⟩ :=
    Attempt.exists_mem_of_forall₂ (Attempt.mapM_eq_ok_iff.mp hentries) hentry
  obtain ⟨number, text', hisLine, rfl⟩ := mem_filledLines_iff.mp hline
  obtain ⟨hnumber, tokens, htokens, hstatement⟩ := readLine_eq_ok_iff.mp hread
  rw [String.ofList_toList] at htokens
  refine ⟨number, text', tokens, hnumber, hisLine, Token.tokenize_eq_ok_of_line htokens, ?_,
    hstatement⟩
  rintro rfl
  exact hisLine.tokenize_ne_nil _ htokens

/-- If every line that is not blank has tokens, a text has the program of their statements under
their numbers, which increase. Otherwise it is refused for the first line that has none, at the
character at fault and whatever stands below the line. No line that is read is without tokens. -/
theorem ofText_outcome (text : String) :
    let readable := ∀ number line, IsLine text number line →
      ∃ tokens, Token.tokenize line (some number) = .ok tokens
    (∀ number line n, IsLine text number line → Token.tokenize line n ≠ .ok []) ∧
    (readable →
      ∃ program, ofText text = .ok program ∧ program.lines.Pairwise (· < ·) ∧
        (∀ n, n ∈ program.lines ↔ ∃ number line, IsLine text number line ∧ n = number) ∧
        List.Forall₂ (IsStatementOf text) program.lines program.statements) ∧
    (¬ readable →
      ∃ (number : Nat) (line : String) (stop : TokenFault) (column : Nat) (c : Char),
        IsFirstRefused text number line stop ∧ ofText text = .error (.token stop) ∧
        stop.line = some (number : Int) ∧ stop.column = some (column : Int) ∧
        1 ≤ column ∧ column ≤ line.length ∧ line.toList[column - 1]? = some c ∧
        (stop.cause = .openString ∧ c = '"' ∨
          stop.cause = .strayCharacter (String.singleton c)) ∧
        ∀ other, (Text.splitLines other.toList).take number =
          (Text.splitLines text.toList).take number → ofText other = .error (.token stop)) := by
  intro readable
  refine ⟨fun number line n h => h.tokenize_ne_nil n, fun hreadable => ?_, fun hrefused => ?_⟩
  · obtain ⟨program, hprogram⟩ := exists_program_iff.mpr hreadable
    exact ⟨program, hprogram, pairwise_lines hprogram, fun n => mem_lines_iff hprogram,
      forall₂_isStatementOf hprogram⟩
  · obtain ⟨fault, hfault⟩ : ∃ fault, ofText text = .error fault := by
      cases hread : ofText text with
      | error fault => exact ⟨fault, rfl⟩
      | ok program => exact absurd (exists_program_iff.mp ⟨program, hread⟩) hrefused
    obtain ⟨number, line, stop, hfirst, rfl⟩ := ofText_eq_error_iff_first.mp hfault
    obtain ⟨hline, column, c, hcolumn, hpos, hle, hc, hcause⟩ :=
      Token.exists_column_of_tokenize_error hfirst.tokenize_eq
    refine ⟨number, line, stop, column, c, hfirst, hfault, hline, hcolumn, hpos, hle, hc, hcause,
      fun other hlines => ?_⟩
    exact ofText_eq_error_iff_first.mpr ⟨number, line, stop, hfirst.congr hlines, rfl⟩

theorem ofText_outcome_unclosed :
    let text := "x = 1\n \n\tsay \"a ~\n~"
    let above := "x = 1\n \n\tsay \"a ~"
    IsLine text 3 "say \"a ~" ∧
      ofText text = .error (.token ⟨.openString, some 3, some 5⟩) ∧
      ofText above = .error (.token ⟨.openString, some 3, some 5⟩) := by
  intro text above
  have hline : IsLine text 3 "say \"a ~" := ⟨by decide, by decide, by decide⟩
  have htext : ofText text = .error (.token ⟨.openString, some 3, some 5⟩) := by decide +kernel
  have hrefused : ¬ ∀ number line, IsLine text number line →
      ∃ tokens, Token.tokenize line (some number) = .ok tokens := by
    intro hreadable
    obtain ⟨program, hprogram⟩ := exists_program_iff.mpr hreadable
    cases htext.symm.trans hprogram
  obtain ⟨-, -, hfirst⟩ := ofText_outcome text
  obtain ⟨number, line, stop, column, c, -, hstop, hnumber, -, -, -, -, -, hother⟩ :=
    hfirst hrefused
  obtain rfl : stop = ⟨.openString, some 3, some 5⟩ := by simpa [htext, eq_comm] using hstop
  obtain rfl : number = 3 := (Int.ofNat_inj.mp (Option.some.inj hnumber)).symm
  exact ⟨hline, htext, hother above (by decide)⟩

end Program
end Linewise
