import Linewise.Console.Style

/-! # Markup of console texts

A tag is a bracketed text that begins with a lower-case letter or one of a few
signs. Tags style the text between them and are not shown. A backslash before a tag
makes the tag plain text, and each pair of backslashes before a tag stands for one.
Escaping a text makes all its tags plain. The name of an emoji between colons is
shown as it stands.
-/

namespace Linewise.Console

inductive Piece where
  | char (c : Char)
  /-- A tag with the number of backslashes directly before it. -/
  | tag (slashes : Nat) (body : List Char)
deriving DecidableEq, Repr

def isTagStart (c : Char) : Bool :=
  ('a' ≤ c && c ≤ 'z') || c == '#' || c == '/' || c == '@'

/-- A tag at the front of a text, after its backslashes, and what follows it. -/
def tagAt? (cs : List Char) : Option (Nat × List Char × List Char) :=
  match cs.dropWhile (· == '\\') with
  | '[' :: c :: rest =>
    if isTagStart c then
      match rest.dropWhile fun d => d != ']' && d != '[' with
      | ']' :: after =>
        some ((cs.takeWhile (· == '\\')).length,
          c :: rest.takeWhile (fun d => d != ']' && d != '['), after)
      | _ => none
    else none
  | _ => none

theorem length_of_tagAt? {cs body after : List Char} {n : Nat}
    (h : tagAt? cs = some (n, body, after)) : after.length < cs.length := by
  unfold tagAt? at h
  split at h
  · rename_i c rest heq
    split at h
    · split at h
      · rename_i after' heq'
        simp only [Option.some.injEq, Prod.mk.injEq] at h
        have h1 := (List.dropWhile_sublist (p := (· == '\\')) (l := cs)).length_le
        have h2 :=
          (List.dropWhile_sublist (p := fun d => d != ']' && d != '[') (l := rest)).length_le
        rw [heq] at h1
        rw [heq'] at h2
        simp only [List.length_cons] at h1 h2
        rw [← h.2.2]
        omega
      · simp at h
    · simp at h
  · simp at h

def pieces (cs : List Char) : List Piece :=
  match _h : tagAt? cs with
  | some (n, body, after) => .tag n body :: pieces after
  | none =>
    match cs with
    | [] => []
    | c :: rest => .char c :: pieces rest
termination_by cs.length
decreasing_by
  · exact length_of_tagAt? _h
  · simp

def escapePiece : Piece → List Char
  | .char c => [c]
  | .tag n body => List.replicate (2 * n + 1) '\\' ++ '[' :: body ++ [']']

/-- A single backslash at the end is doubled, since a tag may follow the text. -/
def guardEnd (cs : List Char) : List Char :=
  match cs.reverse with
  | '\\' :: '\\' :: _ => cs
  | '\\' :: _ => cs ++ ['\\']
  | _ => cs

def escape (s : String) : String :=
  String.ofList (guardEnd ((pieces s.toList).flatMap escapePiece))

inductive MarkupFault where
  /-- A closing tag closes no tag that is open. -/
  | unopened (tag : String) (position : Nat)
  /-- A closing tag without a name stands where nothing is open. -/
  | nothingOpen (position : Nat)
  /-- A tag has a colour with a part that is no number. -/
  | colorPart (fault : PartFault)
deriving DecidableEq, Repr

def MarkupFault.message : MarkupFault → String
  | .unopened tag position =>
    "closing tag '[" ++ tag ++ "]' at position " ++ toString position ++
      " doesn't match any open tag"
  | .nothingOpen position =>
    "closing tag '[/]' at position " ++ toString position ++ " has nothing to close"
  | .colorPart fault => fault.message

def closeStyle (style : List Char) : List (List Char) → Option (List (List Char))
  | [] => none
  | s :: rest => if s = style then some rest else (closeStyle style rest).map (s :: ·)

/-- The tags that are open after a tag at a position. -/
def applyTag (position : Nat) (body : List Char) (opened : List (List Char)) :
    Except MarkupFault (List (List Char)) :=
  match body.takeWhile (· != '=') with
  | '/' :: name =>
    if Text.strip name = [] then
      match opened with
      | [] => .error (.nothingOpen position)
      | _ :: outer => .ok outer
    else
      match Style.nameOf name with
      | .error fault => .error (.colorPart fault)
      | .ok style =>
        match closeStyle style opened with
        | none => .error (.unopened (String.ofList body) position)
        | some outer => .ok outer
  | name =>
    match Style.nameOf name with
    | .error fault => .error (.colorPart fault)
    | .ok style => .ok (style :: opened)

/-- In plain text a backslash before an opening bracket is not shown. -/
def dropBracketSlash : List Char → List Char
  | [] => []
  | '\\' :: '[' :: cs => '[' :: dropBracketSlash cs
  | c :: cs => c :: dropBracketSlash cs

/-- The shown text of pieces. `plain` holds, in reverse, the plain text just before them. -/
def showPieces (position : Nat) (opened : List (List Char)) (plain : List Char) :
    List Piece → Except MarkupFault (List Char)
  | [] => .ok (dropBracketSlash plain.reverse)
  | .char c :: rest => showPieces (position + 1) opened (c :: plain) rest
  | .tag n body :: rest => do
    let next := position + n + body.length + 2
    let before := dropBracketSlash plain.reverse ++ List.replicate (n / 2) '\\'
    if n % 2 = 1 then
      let after ← showPieces next opened [] rest
      return before ++ '[' :: body ++ ']' :: after
    else
      let opened ← applyTag (position + n) body opened
      let after ← showPieces next opened [] rest
      return before ++ after

def shown (markup : String) : Except MarkupFault String :=
  (showPieces 0 [] [] (pieces markup.toList)).map String.ofList

end Linewise.Console
