/-! # Excerpts of long texts

A text of more than fifty octets is shown by its first twenty-five and its last
twenty-four octets with an ellipsis between them. A character that would be cut
is left out.
-/

namespace Linewise.Text

/-- The longest leading part of at most the given number of octets. -/
def takeOctets (limit : Nat) : List Char → List Char
  | [] => []
  | c :: cs => if c.utf8Size ≤ limit then c :: takeOctets (limit - c.utf8Size) cs else []

/-- A text in at most fifty octets, up to the ellipsis. -/
def excerpt (s : String) : String :=
  if s.utf8ByteSize ≤ 50 then s
  else
    String.ofList (takeOctets 25 s.toList) ++ "..." ++
      String.ofList (takeOctets 24 s.toList.reverse).reverse

end Linewise.Text
