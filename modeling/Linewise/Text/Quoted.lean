import Linewise.Text.Printable

/-! # Quoted text

A text is shown between quotes so that it can be told apart from everything
around it. The quote is the apostrophe, or the double quote when the text has an
apostrophe and no double quote. The quote in use and the backslash are escaped
by a backslash, line feed, carriage return and tab have letters, and every other
character that is not printable is written in hexadecimal.
-/

namespace Linewise.Text

def quoteMark (cs : List Char) : Char :=
  if cs.contains '\x27' && !cs.contains '"' then '"' else '\x27'

/-- A number in lower-case hexadecimal, filled with zeros to the given width. -/
def hexDigits (width n : Nat) : List Char :=
  let digits := Nat.toDigits 16 n
  List.replicate (width - digits.length) '0' ++ digits

/-- The code point of an unprintable character, in the shortest of the three escape forms. -/
def escapeCodePoint (c : Char) : List Char :=
  if c.toNat < 0x100 then '\\' :: 'x' :: hexDigits 2 c.toNat
  else if c.toNat < 0x10000 then '\\' :: 'u' :: hexDigits 4 c.toNat
  else '\\' :: 'U' :: hexDigits 8 c.toNat

def escapeChar (mark c : Char) : List Char :=
  if c = mark || c = '\\' then ['\\', c]
  else if c = '\n' then ['\\', 'n']
  else if c = '\r' then ['\\', 'r']
  else if c = '\t' then ['\\', 't']
  else if isPrintable c then [c]
  else escapeCodePoint c

def quoteChars (cs : List Char) : List Char :=
  let mark := quoteMark cs
  mark :: cs.flatMap (escapeChar mark) ++ [mark]

def quote (s : String) : String :=
  String.ofList (quoteChars s.toList)

end Linewise.Text
