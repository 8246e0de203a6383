import Linewise.Toml.Lexeme
import Linewise.Value

/-! # Numbers, dates and times of TOML

A decimal number with a fraction or an exponent is a number of double precision;
one with neither is a whole number, which may have too many digits to be read. A
time may have a fraction of a second, of which six digits count. Where the input
does not begin with what is looked for, nothing is read.
-/

namespace Linewise.Toml

structure Numeral where
  value : Nat
  /-- How many digits it has. -/
  digits : Nat
deriving DecidableEq, Repr

def Numeral.push (base : Nat) (numeral : Numeral) (digit : Nat) : Numeral :=
  ⟨numeral.value * base + digit, numeral.digits + 1⟩

/-- Further digits, each with at most one underscore before it. -/
def digitsTail (base : Nat) (numeral : Numeral) : List Char → Numeral × List Char
  | '_' :: c :: cs =>
    match digit? base c with
    | some d => digitsTail base (numeral.push base d) cs
    | none => (numeral, '_' :: c :: cs)
  | c :: cs =>
    match digit? base c with
    | some d => digitsTail base (numeral.push base d) cs
    | none => (numeral, c :: cs)
  | [] => (numeral, [])

def numeralFrom (base : Nat) (numeral : Numeral) : List Char → Option (Numeral × List Char)
  | c :: cs => (digit? base c).map fun d => digitsTail base (numeral.push base d) cs
  | [] => none

def numeralIn (base : Nat) (cs : List Char) : Option (Numeral × List Char) :=
  numeralFrom base ⟨0, 0⟩ cs

/-- A number in a base that is a power of two, which may have any number of digits. -/
def binaryNumber? : List Char → Option (Numeral × List Char)
  | '0' :: 'x' :: cs => numeralIn 16 cs
  | '0' :: 'b' :: cs => numeralIn 2 cs
  | '0' :: 'o' :: cs => numeralIn 8 cs
  | _ => none

/-- The part before the point; zero is followed by no further digit. -/
def wholePart? : List Char → Option (Numeral × List Char)
  | '0' :: cs => some (⟨0, 1⟩, cs)
  | cs => numeralIn 10 cs

/-- Whether a minus sign stands first, and the rest after a sign. -/
def sign : List Char → Bool × List Char
  | '+' :: cs => (false, cs)
  | '-' :: cs => (true, cs)
  | cs => (false, cs)

/-- Add the digits after the point to those before it. -/
def fractionPart? (whole : Numeral) : List Char → Option (Numeral × List Char)
  | '.' :: cs => numeralFrom 10 whole cs
  | _ => none

def exponentPart? : List Char → Option (Int × List Char)
  | c :: cs =>
    if c = 'e' ∨ c = 'E' then
      let (isNegative, digits) := sign cs
      (numeralIn 10 digits).map fun r =>
        (if isNegative then -(r.1.value : Int) else r.1.value, r.2)
    else none
  | [] => none

def decimalNumber? (cs : List Char) : Option (Except Refusal (Value × List Char)) := do
  let (isNegative, unsigned) := sign cs
  let (whole, afterWhole) ← wholePart? unsigned
  let fraction := fractionPart? whole afterWhole
  let (digits, afterDigits) := fraction.getD (whole, afterWhole)
  let exponent := exponentPart? afterDigits
  let (power, rest) := exponent.getD (0, afterDigits)
  if fraction.isSome ∨ exponent.isSome then
    let d := Double.ofDecimal digits.value (power - (digits.digits - whole.digits : Nat))
    return .ok (.real (if isNegative then -d else d), rest)
  else if whole.digits ≤ Text.maxDigits then
    return .ok (.integer (if isNegative then -(whole.value : Int) else whole.value), rest)
  else return .error (.longNumber whole.digits)

def specialNumber? (cs : List Char) : Option (Float × List Char) :=
  let (isNegative, word) := sign cs
  match word with
  | 'i' :: 'n' :: 'f' :: rest =>
    some (if isNegative then -Double.infinity else Double.infinity, rest)
  | 'n' :: 'a' :: 'n' :: rest => some (Double.notANumber, rest)
  | _ => none

def after? (c : Char) : List Char → Option (List Char)
  | d :: cs => if d = c then some cs else none
  | [] => none

def boundedNumber? (bound count : Nat) (cs : List Char) : Option (Fin bound × List Char) := do
  let (n, rest) ← fixedNumber 10 count cs
  if h : n < bound then some (⟨n, h⟩, rest) else none

/-- The numbers of a date, of which a month may have too few days. -/
def dateNumbers? (cs : List Char) : Option ((Nat × Nat × Nat) × List Char) := do
  let (year, rest) ← fixedNumber 10 4 cs
  let (month, rest) ← fixedNumber 10 2 (← after? '-' rest)
  let (day, rest) ← fixedNumber 10 2 (← after? '-' rest)
  if (1 ≤ month ∧ month ≤ 12) ∧ 1 ≤ day ∧ day ≤ 31 then some ((year, month, day), rest) else none

def microseconds? : List Char → Option (Fin 1000000 × List Char)
  | '.' :: cs =>
    let (digits, rest) := cs.span Char.isDigit
    (boundedNumber? 1000000 6 (digits ++ List.replicate 5 '0')).map fun r => (r.1, rest)
  | _ => none

def clockTime? (cs : List Char) : Option (ClockTime × List Char) := do
  let (hour, rest) ← boundedNumber? 24 2 cs
  let (minute, rest) ← boundedNumber? 60 2 (← after? ':' rest)
  let (second, rest) ← boundedNumber? 60 2 (← after? ':' rest)
  let (microsecond, rest) := (microseconds? rest).getD (0, rest)
  return (⟨hour, minute, second, microsecond⟩, rest)

def offset? (cs : List Char) : Option (Offset × List Char) :=
  match cs with
  | 'Z' :: rest | 'z' :: rest => some (⟨false, 0⟩, rest)
  | '+' :: _ | '-' :: _ => do
    let (isWest, rest) := sign cs
    let (hour, rest) ← boundedNumber? 24 2 rest
    let (minute, rest) ← boundedNumber? 60 2 (← after? ':' rest)
    return (⟨isWest, ⟨60 * hour.val + minute.val, by omega⟩⟩, rest)
  | _ => none

def timeOfDay? : List Char → Option ((ClockTime × Option Offset) × List Char)
  | c :: cs =>
    if c = 'T' ∨ c = 't' ∨ c = ' ' then
      (clockTime? cs).map fun (time, rest) =>
        match offset? rest with
        | some (offset, rest) => ((time, some offset), rest)
        | none => ((time, none), rest)
    else none
  | [] => none

def dateTime? (cs : List Char) : Option (Except Refusal (Value × List Char)) := do
  let ((year, month, day), rest) ← dateNumbers? cs
  match Date.ofNumbers? year month day, timeOfDay? rest with
  | none, _ => return refuse .noDay cs
  | some date, none => return .ok (.date date, rest)
  | some date, some ((time, offset), rest) => return .ok (.dateTime date time offset, rest)

def atom? (cs : List Char) : Option (Except Refusal (Value × List Char)) :=
  dateTime? cs <|> (clockTime? cs).map (fun r => .ok (.time r.1, r.2)) <|>
    (binaryNumber? cs).map (fun r => .ok (.integer r.1.value, r.2)) <|>
    decimalNumber? cs <|> (specialNumber? cs).map fun r => .ok (.real r.1, r.2)

end Linewise.Toml
