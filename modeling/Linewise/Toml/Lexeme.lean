import Linewise.Toml.Flaw

/-! # Keys and texts of TOML

A text in double quotes has escapes, a text in apostrophes has none; in three
quotes either may run over several lines, and up to two more quotes may stand
before the last three. Control characters other than the tab are refused in texts
and comments. A key is a word or a text of one line.
-/

namespace Linewise.Toml

def isSpace (c : Char) : Bool :=
  c == ' ' || c == '\t'

def isSpaceOrFeed (c : Char) : Bool :=
  isSpace c || c == '\n'

def isControl (c : Char) : Bool :=
  (c.toNat < 0x20 && c != '\t') || c.toNat == 0x7F

def isControlInBlock (c : Char) : Bool :=
  isControl c && c != '\n'

def skipSpaces (cs : List Char) : List Char :=
  cs.dropWhile isSpace

def skipComment : List Char → Except Refusal (List Char)
  | '#' :: cs =>
    match (cs.takeWhile (· != '\n')).find? isControl with
    | some c => refuse (.controlInLiteral c) (cs.dropWhile (!isControl ·))
    | none => .ok (cs.dropWhile (· != '\n'))
  | cs => .ok cs

def hexDigit? (c : Char) : Option Nat :=
  if '0' ≤ c ∧ c ≤ '9' then some (c.toNat - 48)
  else if 'a' ≤ c ∧ c ≤ 'f' then some (c.toNat - 87)
  else if 'A' ≤ c ∧ c ≤ 'F' then some (c.toNat - 55)
  else none

def digit? (base : Nat) (c : Char) : Option Nat :=
  (hexDigit? c).filter (· < base)

def fixedNumber (base count : Nat) (cs : List Char) : Option (Nat × List Char) := do
  let digits ← (cs.take count).mapM (digit? base)
  if digits.length = count then
    some (digits.foldl (fun n d => n * base + d) 0, cs.drop count)
  else none

def codePoint (count : Nat) (cs : List Char) : Except Refusal (Char × List Char) :=
  match fixedNumber 16 count cs with
  | none => refuse .noHexNumber cs
  | some (n, rest) => if n.isValidChar then .ok (Char.ofNat n, rest) else refuse .noCharacter rest

def escaped : List Char → Except Refusal (Char × List Char)
  | 'b' :: cs => .ok ('\x08', cs)
  | 't' :: cs => .ok ('\t', cs)
  | 'n' :: cs => .ok ('\n', cs)
  | 'f' :: cs => .ok ('\x0c', cs)
  | 'r' :: cs => .ok ('\r', cs)
  | '"' :: cs => .ok ('"', cs)
  | '\\' :: cs => .ok ('\\', cs)
  | 'u' :: cs => codePoint 4 cs
  | 'U' :: cs => codePoint 8 cs
  | cs => refuse .unknownEscape (cs.drop 1)

def basicTail : Nat → List Char → Except Refusal (List Char × List Char)
  | 0, _ => refuse .unclosedText []
  | _ + 1, [] => refuse .unclosedText []
  | fuel + 1, c :: cs =>
    if c = '"' then .ok ([], cs)
    else if c = '\\' then do
      let (e, rest) ← escaped cs
      let (tail, rest) ← basicTail fuel rest
      return (e :: tail, rest)
    else if isControl c then refuse (.controlInText c) (c :: cs)
    else do
      let (tail, rest) ← basicTail fuel cs
      return (c :: tail, rest)

/-- A backslash at the end of a line joins it to the next character that is no space. -/
def joinedLine (cs : List Char) : Except Refusal (List Char) :=
  match skipSpaces cs with
  | [] => .ok []
  | '\n' :: rest => .ok (rest.dropWhile isSpaceOrFeed)
  | rest => refuse .unknownEscape rest

def basicBlockTail : Nat → List Char → Except Refusal (List Char × List Char)
  | 0, _ => refuse .unclosedText []
  | _ + 1, [] => refuse .unclosedText []
  | _ + 1, '"' :: '"' :: '"' :: '"' :: '"' :: cs => .ok (['"', '"'], cs)
  | _ + 1, '"' :: '"' :: '"' :: '"' :: cs => .ok (['"'], cs)
  | _ + 1, '"' :: '"' :: '"' :: cs => .ok ([], cs)
  | fuel + 1, c :: cs =>
    if c = '\\' then
      if cs.head?.any isSpaceOrFeed then do
        basicBlockTail fuel (← joinedLine cs)
      else do
        let (e, rest) ← escaped cs
        let (tail, rest) ← basicBlockTail fuel rest
        return (e :: tail, rest)
    else if isControlInBlock c then refuse (.controlInText c) (c :: cs)
    else do
      let (tail, rest) ← basicBlockTail fuel cs
      return (c :: tail, rest)

def splitAtWord (word : List Char) : List Char → Option (List Char × List Char)
  | [] => none
  | c :: cs =>
    if word.isPrefixOf (c :: cs) then some ([], (c :: cs).drop word.length)
    else (splitAtWord word cs).map fun r => (c :: r.1, r.2)

def literalTail (quotes : List Char) (isIllegal : Char → Bool) (cs : List Char) :
    Except Refusal (List Char × List Char) :=
  match splitAtWord quotes cs with
  | none => refuse (.unclosedLiteral (String.ofList quotes)) []
  | some (body, rest) =>
    match body.find? isIllegal with
    | some c => refuse (.controlInLiteral c) (cs.dropWhile (!isIllegal ·))
    | none => .ok (body, rest)

def literalBlockTail (cs : List Char) : Except Refusal (List Char × List Char) := do
  match ← literalTail ['\x27', '\x27', '\x27'] isControlInBlock cs with
  | (body, '\x27' :: '\x27' :: rest) => return (body ++ ['\x27', '\x27'], rest)
  | (body, '\x27' :: rest) => return (body ++ ['\x27'], rest)
  | (body, rest) => return (body, rest)

/-- A block of lines begins after a line feed that directly follows the opening quotes. -/
def dropFirstFeed : List Char → List Char
  | '\n' :: cs => cs
  | cs => cs

def asText (reading : Except Refusal (List Char × List Char)) :
    Except Refusal (String × List Char) :=
  reading.map fun r => (String.ofList r.1, r.2)

def basicText (cs : List Char) : Except Refusal (String × List Char) :=
  asText (basicTail (cs.length + 1) cs)

def literalText (cs : List Char) : Except Refusal (String × List Char) :=
  asText (literalTail ['\x27'] isControl cs)

def text? : List Char → Option (Except Refusal (String × List Char))
  | '"' :: '"' :: '"' :: cs =>
    let body := dropFirstFeed cs
    some (asText (basicBlockTail (body.length + 1) body))
  | '\x27' :: '\x27' :: '\x27' :: cs => some (asText (literalBlockTail (dropFirstFeed cs)))
  | '"' :: cs => some (basicText cs)
  | '\x27' :: cs => some (literalText cs)
  | _ => none

def isBareKeyChar (c : Char) : Bool :=
  c.isAlphanum || c == '-' || c == '_'

def keyPart : List Char → Except Refusal (String × List Char)
  | '"' :: cs => basicText cs
  | '\x27' :: cs => literalText cs
  | cs =>
    match cs.takeWhile isBareKeyChar with
    | [] => refuse .noKey cs
    | part => .ok (String.ofList part, cs.dropWhile isBareKeyChar)

def keyParts : Nat → List Char → Except Refusal (List String × List Char)
  | 0, _ => refuse .noKey []
  | fuel + 1, cs => do
    let (part, rest) ← keyPart cs
    match skipSpaces rest with
    | '.' :: rest =>
      let (parts, rest) ← keyParts fuel (skipSpaces rest)
      return (part :: parts, rest)
    | rest => return ([part], rest)

def key (cs : List Char) : Except Refusal (List String × List Char) :=
  keyParts (cs.length + 1) cs

end Linewise.Toml
