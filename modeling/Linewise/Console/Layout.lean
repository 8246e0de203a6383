import Linewise.Text.Blank
import Linewise.Text.Grapheme
import Linewise.Text.Lines

/-! # Layout of texts in a given number of columns

A text is laid out line by line. Its control characters that would move the cursor
are dropped, and its tabs lead to the next multiple of eight columns. Words are
moved to a new line when they do not fit; a word that fits on no line is folded or
cut.
-/

namespace Linewise.Console

inductive Overflow where
  | fold
  | ellipsis
deriving DecidableEq, Repr

inductive Alignment where
  | left
  | center
  | right
deriving DecidableEq, Repr

/-- Bell, backspace, vertical tab, form feed and carriage return. -/
def isCursorControl (c : Char) : Bool :=
  c.toNat == 7 || c.toNat == 8 || c.toNat == 11 || c.toNat == 12 || c.toNat == 13

def dropCursorControls (cs : List Char) : List Char :=
  cs.filter (!isCursorControl ·)

/-- The parts of a line between its tabs, the first of them from a column on. A tab is a space and
those after it that lead to a multiple of eight columns. -/
def tabbedParts (column : Nat) : List (List Char) → List Char
  | [] => []
  | [part] => part
  | part :: rest =>
    let reached := column + Text.width (part ++ [' '])
    let gap := (8 - reached % 8) % 8
    part ++ List.replicate (gap + 1) ' ' ++ tabbedParts (reached + gap) rest

def expandTabs (cs : List Char) : List Char :=
  tabbedParts 0 (Text.divide (· == '\t') cs)

structure Word where
  start : Nat
  chars : List Char
deriving Repr

/-- The words of a line. Blanks belong to the word before them, and blanks at the front of the line
to the first word; a blank line has no word. -/
def wordsFrom (start : Nat) (cs : List Char) : List Word :=
  let lead := cs.takeWhile Text.isBlank
  match _h : cs.dropWhile Text.isBlank with
  | [] => []
  | c :: rest =>
    let body := rest.takeWhile (!Text.isBlank ·)
    let after := rest.dropWhile (!Text.isBlank ·)
    let chars := lead ++ c :: body ++ after.takeWhile Text.isBlank
    ⟨start, chars⟩ :: wordsFrom (start + chars.length) (after.dropWhile Text.isBlank)
termination_by cs.length
decreasing_by
  have h1 := (List.dropWhile_sublist (p := Text.isBlank) (l := cs)).length_le
  have h2 := (List.dropWhile_sublist (p := (!Text.isBlank ·)) (l := rest)).length_le
  have h3 := (List.dropWhile_sublist (p := Text.isBlank)
    (l := rest.dropWhile (!Text.isBlank ·))).length_le
  simp only [_h, List.length_cons] at h1
  exact Nat.lt_of_le_of_lt (Nat.le_trans h3 h2) h1

/-- Cut a text into the fewest pieces that each have at most the given columns, from the front; no
grapheme is cut. The first piece begins with `piece`, which takes `used` columns. -/
def chopFrom (limit : Nat) (piece : List Char) (used : Nat) :
    List Text.Grapheme → List (List Char)
  | [] => [piece]
  | g :: gs =>
    if used + g.columns > limit then piece :: chopFrom limit g.chars g.columns gs
    else chopFrom limit (piece ++ g.chars) (used + g.columns) gs

/-- The starts of pieces that follow each other from a place on; the start of the line is none. -/
def pieceStarts (start : Nat) : List (List Char) → List Nat
  | [] => []
  | piece :: rest =>
    (if start = 0 then [] else [start]) ++ pieceStarts (start + piece.length) rest

/-- The places at which a line is broken, when the given number of columns is used already. -/
def breaks (limit : Nat) (overflow : Overflow) (used : Nat) : List Word → List Nat
  | [] => []
  | word :: rest =>
    let needed := Text.width (Text.stripRight word.chars)
    if used + needed ≤ limit then breaks limit overflow (used + Text.width word.chars) rest
    else if needed > limit then
      match overflow with
      | .fold =>
        let parts := chopFrom limit [] 0 (Text.graphemes word.chars)
        pieceStarts word.start parts ++
          breaks limit overflow (Text.width (parts.getLastD [])) rest
      | .ellipsis =>
        (if word.start = 0 then [] else [word.start]) ++
          breaks limit overflow (Text.width word.chars) rest
    else if used ≠ 0 ∧ word.start ≠ 0 then
      word.start :: breaks limit overflow (Text.width word.chars) rest
    else breaks limit overflow used rest

/-- Cut a line at rising places, the first of them counted from `start`. -/
def cutAt (start : Nat) (cs : List Char) : List Nat → List (List Char)
  | [] => [cs]
  | place :: rest =>
    cs.take (place - start) :: cutAt place (cs.drop (place - start)) rest

/-- Drop blanks at the end as far as the line has more characters than columns. -/
def dropExcessBlanks (limit : Nat) (cs : List Char) : List Char :=
  let blanks := (cs.reverse.takeWhile Text.isBlank).length
  cs.take (cs.length - min blanks (cs.length - limit))

/-- The front of a line in exactly the given columns; half a wide grapheme is a space. -/
def cropTo (limit : Nat) : List Text.Grapheme → List Char
  | [] => []
  | g :: gs =>
    if g.columns ≤ limit then g.chars ++ cropTo (limit - g.columns) gs
    else List.replicate limit ' '

def truncate (limit : Nat) (overflow : Overflow) (cs : List Char) : List Char :=
  if Text.width cs ≤ limit then cs
  else
    match overflow with
    | .fold => cropTo limit (Text.graphemes cs)
    | .ellipsis => cropTo (limit - 1) (Text.graphemes cs) ++ ['…']

def align (limit : Nat) (overflow : Overflow) (alignment : Alignment) (cs : List Char) :
    List Char :=
  match alignment with
  | .left => truncate limit overflow cs
  | .right =>
    let line := truncate limit overflow (Text.stripRight cs)
    List.replicate (limit - Text.width line) ' ' ++ line
  | .center =>
    let line := truncate limit overflow (Text.stripRight cs)
    List.replicate ((limit - Text.width line) / 2) ' ' ++ line

def layoutLine (limit : Nat) (overflow : Overflow) (alignment : Alignment) (cs : List Char) :
    List (List Char) :=
  let line := expandTabs cs
  (cutAt 0 line (breaks limit overflow 0 (wordsFrom 0 line))).map fun part =>
    align limit overflow alignment (dropExcessBlanks limit part)

def layout (limit : Nat) (overflow : Overflow) (alignment : Alignment) (cs : List Char) :
    List (List Char) :=
  (Text.divide (· == '\n') (dropCursorControls cs)).flatMap (layoutLine limit overflow alignment)

/-- Show a text as it is, whatever its width. -/
def unwrapped (cs : List Char) : List (List Char) :=
  (Text.divide (· == '\n') (dropCursorControls cs)).map expandTabs

def trimLine (cs : List Char) : String :=
  String.ofList (cs.reverse.dropWhile (· == ' ')).reverse

end Linewise.Console
