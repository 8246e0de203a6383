import Linewise.Proofs.LineByLine

/-! # The layout of a source text

A program depends on the stripped lines of its source alone. So neither the blanks around a line nor
the kind of its line end matter, and a text with another one below it has the statements of the
two, one after the other, unless one of the two is refused.
-/

namespace Linewise

namespace Program

/-- The number of lines of a text, one more than there are line feeds. -/
def height (text : String) : Int :=
  text.toList.count '\n' + 1

def lower (n : Int) (line : Int × List Char) : Int × List Char :=
  (line.1 + n, line.2)

theorem number_append (lines others : List (List Char)) :
    number (lines ++ others) = number lines ++ (number others).map (lower lines.length) := by
  rw [number, List.mapIdx_append]
  congr 1
  apply List.ext_getElem
  · simp [number]
  · intro i _ _
    simp only [number, lower, List.getElem_map, List.getElem_mapIdx]
    congr 1
    push_cast
    omega

variable {text below : String} {fault : Fault} {program under : Program}

theorem filledLines_joined (text below : String) :
    filledLines (text ++ "\n" ++ below) =
      filledLines text ++ (filledLines below).map (lower (height text)) := by
  have hchars : (text ++ "\n" ++ below).toList = text.toList ++ '\n' :: below.toList := by
    simp
  obtain ⟨lines, hlines, hreturns⟩ := Text.splitLines_append_feed text.toList below.toList
  have hstrip : lines.map Text.strip = (Text.splitLines text.toList).map Text.strip :=
    (Text.ReturnBehind.map_eq (Text.strip_concat (by decide)) hreturns).symm
  simp only [filledLines, numberedLines_eq]
  rw [hchars, hlines, List.map_append, hstrip, number_append, List.filter_append, List.filter_map,
    List.length_map, Text.length_splitLines]
  push_cast
  rfl

theorem strippedLines_joined (text below : String) :
    strippedLines (text ++ "\n" ++ below) = strippedLines text ++ strippedLines below := by
  simp only [← map_snd_numberedLines]
  change (filledLines _).map Prod.snd = (filledLines _).map _ ++ (filledLines _).map _
  rw [filledLines_joined, List.map_append, List.map_map]
  rfl

theorem lineNumbers_joined (text below : String) :
    lineNumbers (text ++ "\n" ++ below) =
      lineNumbers text ++ (lineNumbers below).map (· + height text) := by
  change (filledLines _).map Prod.fst = (filledLines _).map _ ++ ((filledLines _).map _).map _
  rw [filledLines_joined, List.map_append, List.map_map, List.map_map]
  rfl

theorem ofText_joined_of_error (h : ofText text = .error fault) (below : String) :
    ofText (text ++ "\n" ++ below) = .error fault := by
  obtain ⟨before, line, after, hlines, hbefore, hline⟩ := ofText_eq_error_iff.mp h
  rw [ofText_eq_error_iff]
  refine ⟨before, line, after ++ (filledLines below).map (lower (height text)), ?_, hbefore, hline⟩
  rw [filledLines_joined, hlines, List.append_assoc, List.cons_append]

theorem ofText_joined_of_error_below (h : ofText text = .ok program)
    (hbelow : ofText below = .error fault) :
    ∃ cause line column, fault = .token ⟨cause, some line, some column⟩ ∧
      ofText (text ++ "\n" ++ below) =
        .error (.token ⟨cause, some (line + height text), some column⟩) := by
  obtain ⟨before, line, after, hlines, hbefore, cause, column, hscan, rfl⟩ :=
    ofText_eq_error_iff.mp hbelow
  refine ⟨cause, line.1, column, rfl, ?_⟩
  rw [ofText_eq_error_iff]
  let under := lower (height text)
  refine ⟨filledLines text ++ before.map under, under line, after.map under, ?_, ?_,
    cause, column, hscan, rfl⟩
  · rw [filledLines_joined, hlines, List.map_append, List.map_cons, List.append_assoc]
  · intro l hl
    rcases List.mem_append.mp hl with hl | hl
    · exact exists_ofLine_of_mem_filledLines h l hl
    · obtain ⟨l, hmem, rfl⟩ := List.mem_map.mp hl
      exact hbefore l hmem

theorem ofText_joined_of_ok (h : ofText text = .ok program) (hbelow : ofText below = .ok under) :
    ofText (text ++ "\n" ++ below) =
      .ok ⟨program.statements ++ under.statements,
        program.lines ++ under.lines.map (· + height text)⟩ := by
  rw [ofText_eq_ok_iff] at *
  rw [strippedLines_joined, lineNumbers_joined, h.2, hbelow.2]
  exact ⟨List.rel_append h.1 hbelow.1, rfl⟩

end Program

namespace TypeScript

/-- The code of statements that follow others begins a new line, unless there is nothing before
it or nothing in it. -/
theorem code_append (aliases : Entries String) (program under : Program) (lines : List Int) :
    code aliases ⟨program.statements ++ under.statements, lines⟩ =
      if program.statements ≠ [] ∧ under.statements ≠ [] then
        code aliases program ++ "\n" ++ code aliases under
      else if program.statements ≠ [] then code aliases program
      else if under.statements ≠ [] then code aliases under
      else "" := by
  simp only [code, TypeScript.lines, List.map_append]
  by_cases hprogram : program.statements = []
  · by_cases hunder : under.statements = [] <;> simp [hprogram, hunder]
  · by_cases hunder : under.statements = []
    · simp [hprogram, hunder]
    · rw [if_pos ⟨hprogram, hunder⟩]
      apply String.intercalate_append_of_ne_nil
      · simpa using hprogram
      · simpa using hunder

end TypeScript

namespace Translator

/-- A text with another one below it is refused as the first of the two is that has no program, and
the lines of the other one then have higher numbers. If both have programs, it has their
statements, and without the check of blocks it is translated into their two translations, one below
the other. -/
theorem ofText_joined (text below : String) :
    let joined := text ++ "\n" ++ below
    (∀ fault, Program.ofText text = .error fault → Program.ofText joined = .error fault) ∧
    (∀ program fault, Program.ofText text = .ok program → Program.ofText below = .error fault →
      ∃ cause line column, fault = .token ⟨cause, some line, some column⟩ ∧
        Program.ofText joined =
          .error (.token ⟨cause, some (line + Program.height text), some column⟩)) ∧
    ∀ program under, Program.ofText text = .ok program → Program.ofText below = .ok under →
      Program.ofText joined =
        .ok ⟨program.statements ++ under.statements,
          program.lines ++ under.lines.map (· + Program.height text)⟩ ∧
      ∀ settings : Settings, settings.checkBlocks = false →
        ∃ code other, translate settings text = .ok code ∧ translate settings below = .ok other ∧
          translate settings joined =
            .ok (if program.statements ≠ [] ∧ under.statements ≠ [] then code ++ "\n" ++ other
              else if program.statements ≠ [] then code
              else if under.statements ≠ [] then other
              else "") := by
  intro joined
  refine ⟨fun fault h => Program.ofText_joined_of_error h below,
    fun program fault h hbelow => Program.ofText_joined_of_error_below h hbelow,
    fun program under h hbelow => ?_⟩
  have hjoined := Program.ofText_joined_of_ok h hbelow
  refine ⟨hjoined, fun settings hoff => ?_⟩
  refine ⟨_, _, translate_of_ofText hoff h, translate_of_ofText hoff hbelow, ?_⟩
  rw [translate_of_ofText hoff hjoined, TypeScript.code_append]

theorem ofText_joined_return :
    Program.ofText "x = 1\r" = .ok ⟨[.assign "x" ["1"]], [1]⟩ ∧
      Program.ofText "\nsay x" = .ok ⟨[.output ["x"]], [2]⟩ ∧
      Program.ofText "x = 1\r\n\nsay x" = .ok ⟨[.assign "x" ["1"], .output ["x"]], [1, 3]⟩ ∧
      translate {} "x = 1\r\n\nsay x" = .ok "x = 1;\nconsole.log(x);" ∧
      Program.ofText "\nsay \"" = .error (.token ⟨.openString, some 2, some 5⟩) ∧
      Program.ofText "x = 1\r\n\nsay \"" = .error (.token ⟨.openString, some 3, some 5⟩) := by
  have htext : Program.ofText "x = 1\r" = .ok ⟨[.assign "x" ["1"]], [1]⟩ := by cbv
  have hbelow : Program.ofText "\nsay x" = .ok ⟨[.output ["x"]], [2]⟩ := by cbv
  have hrefused : Program.ofText "\nsay \"" = .error (.token ⟨.openString, some 2, some 5⟩) := by
    decide +kernel
  have hheight : Program.height "x = 1\r" = 1 := by decide
  obtain ⟨-, hfault, hprogram⟩ := ofText_joined "x = 1\r" "\nsay x"
  obtain ⟨hjoined, htranslate⟩ := hprogram _ _ htext hbelow
  rw [hheight] at hjoined
  obtain ⟨code, other, hcode, hother, htranslate⟩ := htranslate {} rfl
  rw [translate_of_ofText rfl htext] at hcode
  rw [translate_of_ofText rfl hbelow] at hother
  cases hcode
  cases hother
  obtain ⟨-, hfault, -⟩ := ofText_joined "x = 1\r" "\nsay \""
  obtain ⟨cause, line, column, hcause, hjoinedFault⟩ := hfault _ _ htext hrefused
  cases hcause
  exact ⟨htext, hbelow, hjoined, htranslate, hrefused, hjoinedFault⟩

/-- Texts whose lines agree after stripping have one program or are refused for the same fault, and
so they have one translation. A carriage return before each line feed changes none of them. -/
theorem translate_layout :
    (∀ text other : String,
      List.Forall₂ (fun line twin => Text.strip line = Text.strip twin)
        (Text.splitLines text.toList) (Text.splitLines other.toList) →
      Program.ofText text = Program.ofText other ∧
        ∀ settings, translate settings text = translate settings other) ∧
    ∀ text : String,
      let returned := String.ofList (Text.returnFeeds text.toList)
      Program.ofText returned = Program.ofText text ∧
        ∀ settings, translate settings returned = translate settings text := by
  constructor
  · intro text other h
    have hstrip : (Text.splitLines text.toList).map Text.strip =
        (Text.splitLines other.toList).map Text.strip := by
      rw [← List.forall₂_eq_eq_eq, List.forall₂_map_left_iff, List.forall₂_map_right_iff]
      exact h
    have hprogram := Program.ofText_congr hstrip
    exact ⟨hprogram, translate_congr hprogram⟩
  · intro text returned
    have hprogram : Program.ofText returned = Program.ofText text := by
      apply Program.ofText_congr
      rw [String.toList_ofList]
      exact Text.ReturnBehind.map_eq (Text.strip_concat (by decide))
        (Text.splitLines_returnFeeds text.toList)
    exact ⟨hprogram, translate_congr hprogram⟩

theorem translate_layout_open_string :
    let text := "x = 1\r\n\nsay \""
    let other := "\tx = 1 \n\r\r\n say \"\u2028"
    List.Forall₂ (fun line twin => Text.strip line = Text.strip twin)
        (Text.splitLines text.toList) (Text.splitLines other.toList) ∧
      Program.ofText text = .error (.token ⟨.openString, some 3, some 5⟩) ∧
      Program.ofText other = .error (.token ⟨.openString, some 3, some 5⟩) := by
  intro text other
  have h : List.Forall₂ (fun line twin => Text.strip line = Text.strip twin)
      (Text.splitLines text.toList) (Text.splitLines other.toList) := by decide
  have htext : Program.ofText text = .error (.token ⟨.openString, some 3, some 5⟩) := by
    decide +kernel
  exact ⟨h, htext, (translate_layout.1 text other h).1.symm.trans htext⟩

end Translator
end Linewise
