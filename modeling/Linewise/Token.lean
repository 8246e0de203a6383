import Linewise.Fault
import Linewise.Text.Blank

/-! # Tokens of a line

A token is a word, which is a maximal run of word characters, or a string, which
runs from one double quote to the next and is kept as it is written, quotes
included. Blanks separate words and belong to no token. A double quote without a
partner and a character of no class stop the scan at their column.
-/

namespace Linewise.Token

/-- ASCII letters, digits and the punctuation of operators. -/
def isWordChar (c : Char) : Bool :=
  c.isAlphanum || "!@#$%^&*()-=_+[]\x7b\x7d;:,.<>/?".toList.contains c

def IsWord (t : String) : Prop :=
  t.toList ≠ [] ∧ ∀ c ∈ t.toList, isWordChar c = true

/-- The lexeme of a string: its two quotes and the characters between them. -/
def IsString (t : String) : Prop :=
  ∃ inside : List Char, '"' ∉ inside ∧ t.toList = '"' :: inside ++ ['"']

/-- Divide the characters from the given column on, or tell why and in which column this stops. -/
def scan (column : Nat) : List Char → Except (TokenCause × Nat) (List (List Char))
  | [] => .ok []
  | c :: cs =>
    if Text.isBlank c then scan (column + 1) cs
    else if isWordChar c then
      let tail := cs.takeWhile isWordChar
      (scan (column + 1 + tail.length) (cs.dropWhile isWordChar)).map ((c :: tail) :: ·)
    else if c = '"' then
      let inside := cs.takeWhile (· != '"')
      match _h : cs.dropWhile (· != '"') with
      | [] => .error (.openString, column)
      | close :: rest =>
        (scan (column + 2 + inside.length) rest).map (('"' :: inside ++ [close]) :: ·)
    else .error (.strayCharacter (String.singleton c), column)
termination_by cs => cs.length
decreasing_by
  · simp
  · exact Nat.lt_succ_of_le (List.dropWhile_sublist _).length_le
  · have := (List.dropWhile_sublist (p := (· != '"')) (l := cs)).length_le
    simp only [_h, List.length_cons] at this ⊢
    omega

def tokenize (text : String) (line : Option Int := none) : Except TokenFault (List String) :=
  match scan 1 text.toList with
  | .ok lexemes => .ok (lexemes.map String.ofList)
  | .error (cause, column) => .error ⟨cause, line, some column⟩

end Linewise.Token
