import Linewise.Console.Color
import Linewise.Entries
import Linewise.Text.Blank
import Linewise.Text.Lowercase

/-! # Styles

A style is defined by a run of words: attributes, which may be denied, a colour of
the text, a colour of the background and the target of a link. Definitions with the
same parts name the same style, whatever the order of the words, and a text that
defines no style is a name of its own.
-/

namespace Linewise.Console

def splitWords (cs : List Char) : List (List Char) :=
  match _h : cs.dropWhile Text.isBlank with
  | [] => []
  | c :: rest =>
    (c :: rest.takeWhile (!Text.isBlank ·)) :: splitWords (rest.dropWhile (!Text.isBlank ·))
termination_by cs.length
decreasing_by
  have h1 := (List.dropWhile_sublist (p := Text.isBlank) (l := cs)).length_le
  have h2 := (List.dropWhile_sublist (p := (!Text.isBlank ·)) (l := rest)).length_le
  rw [_h] at h1
  simp only [List.length_cons] at h1
  omega

/-- The attributes of a style in the order in which they are named, each with its short form. -/
def attributeNames : List (String × Option String) :=
  [("bold", some "b"), ("dim", some "d"), ("italic", some "i"), ("underline", some "u"),
    ("blink", none), ("blink2", none), ("reverse", some "r"), ("conceal", some "c"),
    ("strike", some "s"), ("underline2", some "uu"), ("frame", none), ("encircle", none),
    ("overline", some "o")]

def attribute? (word : List Char) : Option String :=
  let word := String.ofList word
  (attributeNames.find? fun e => e.1 = word || e.2 = some word).map Prod.fst

structure Style where
  /-- Attributes that are given or denied. -/
  attributes : Entries Bool := []
  color : Option (List Char) := none
  background : Option (List Char) := none
  link : Option (List Char) := none
deriving DecidableEq, Repr

namespace Style

/-- Add the parts that words define; a later word goes before an earlier one of its kind. Words that
define nothing give no style. -/
def extend (style : Style) : List (List Char) → Except PartFault (Option Style)
  | [] => .ok (some style)
  | word :: rest => do
    if Text.lower word = "on".toList then
      match rest with
      | color :: rest =>
        let color := Text.lower color
        if ← isColor color then extend { style with background := some color } rest
        else return none
      | [] => return none
    else if Text.lower word = "not".toList then
      match rest with
      | denied :: rest =>
        match attribute? denied with
        | some name => extend { style with attributes := style.attributes.put name false } rest
        | none => return none
      | [] => return none
    else if Text.lower word = "link".toList then
      match rest with
      | target :: rest => extend { style with link := some target } rest
      | [] => return none
    else
      match attribute? (Text.lower word) with
      | some name => extend { style with attributes := style.attributes.put name true } rest
      | none =>
        let color := Text.lower word
        if ← isColor color then extend { style with color := some color } rest
        else return none

def words (style : Style) : List (List Char) :=
  (attributeNames.flatMap fun e =>
    match style.attributes.get? e.1 with
    | some true => [e.1.toList]
    | some false => ["not".toList, e.1.toList]
    | none => []) ++
  style.color.toList ++
  (style.background.toList.flatMap fun color => ["on".toList, color]) ++
  (style.link.toList.flatMap fun target => ["link".toList, target])

def nameOf (definition : List Char) : Except PartFault (List Char) := do
  match ← ({} : Style).extend (splitWords definition) with
  | some style => return [' '].intercalate style.words
  | none => return Text.lower (Text.strip definition)

end Style
end Linewise.Console
