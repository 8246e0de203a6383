/-! # Lines of a text

A text is divided at each line feed, and a carriage return directly before the
line feed belongs to the line end. A carriage return anywhere else stays in its
line. The empty text has one empty line. Texts are divided at other marks, such as
the slash of a path or the tabs of a line, in the same way.
-/

namespace Linewise.Text

/-- Divide at LF and CRLF. -/
def splitLines : List Char → List (List Char)
  | [] => [[]]
  | '\n' :: cs => [] :: splitLines cs
  | '\r' :: '\n' :: cs => [] :: splitLines cs
  | c :: cs =>
    match splitLines cs with
    | [] => [[c]]
    | line :: lines => (c :: line) :: lines

def divide (isMark : Char → Bool) : List Char → List (List Char)
  | [] => [[]]
  | c :: cs =>
    if isMark c then [] :: divide isMark cs
    else
      match divide isMark cs with
      | [] => [[c]]
      | part :: parts => (c :: part) :: parts

/-- Turn every line end (CRLF, CR or LF) into a line feed. -/
def unifyLineEnds : List Char → List Char
  | [] => []
  | '\r' :: '\n' :: cs => '\n' :: unifyLineEnds cs
  | '\r' :: cs => '\n' :: unifyLineEnds cs
  | c :: cs => c :: unifyLineEnds cs

theorem divide_ne_nil (isMark : Char → Bool) (cs : List Char) : divide isMark cs ≠ [] := by
  fun_cases divide isMark cs <;> simp_all

theorem splitLines_ne_nil (cs : List Char) : splitLines cs ≠ [] := by
  fun_cases splitLines cs <;> simp_all

end Linewise.Text
