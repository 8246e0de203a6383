/-! # Numbers of double precision

A decimal number is read as the nearest number of double precision, of two equally
near ones as the one with the even significand. A number is written with the
fewest digits that are read as the same number, and among as many digits with
those nearest to it.
-/

namespace Linewise.Double

open Float.Model

def ofDecimal (digits : Nat) (exponent : Int) : Float :=
  Float.ofScientific digits (exponent < 0) exponent.natAbs

def infinity : Float :=
  .ofModel (.pack (.infinity .positive))

def notANumber : Float :=
  .ofModel (.pack .notANumber)

def isZero (d : Float) : Bool :=
  match d.toModel.unpack with
  | .zero _ => true
  | _ => false

def whole? (d : Float) : Option Int :=
  match d.toModel.unpack with
  | .zero _ => some 0
  | .finite sign significand exponent _ =>
    let magnitude := significand <<< exponent.toNat
    let divisor := 1 <<< (-exponent).toNat
    if magnitude % divisor = 0 then some (sign.apply (magnitude / divisor : Nat)) else none
  | _ => none

/-- The whole numbers next to a fraction, the nearer one first, or the even one if both are equally
near. -/
def neighbors (numerator denominator : Nat) : List Nat :=
  let below := numerator / denominator
  let remainder := 2 * (numerator % denominator)
  if remainder < denominator ∨ remainder = denominator ∧ below % 2 = 0 then [below, below + 1]
  else [below + 1, below]

/-- The smallest positive number is this power of two, below one. -/
def leastExponent : Nat := 1074

/-- By this power of ten every positive number is raised to a number of more than 17 digits. -/
def raisedBy : Nat := 345

structure Decimal where
  digits : Nat
  exponent : Int
deriving DecidableEq, Repr

/-- The shortest decimal number that is read as a positive number of double precision. -/
def shortest (significand : Nat) (exponent : Int) (pos : 0 < significand) : Decimal :=
  let numerator := significand <<< (exponent + leastExponent).toNat * Nat.pow 10 raisedBy
  let denominator := 1 <<< leastExponent
  let length := (Nat.toDigits 10 (numerator / denominator)).length
  let given := Float.ofModel (.pack (.finite .positive significand exponent pos))
  let candidates (count : Nat) : List Decimal :=
    (neighbors numerator (denominator * Nat.pow 10 (length - count))).map fun digits =>
      ⟨digits, (length - count : Nat) - (raisedBy : Int)⟩
  let readsBack (decimal : Decimal) : Bool := ofDecimal decimal.digits decimal.exponent = given
  -- Seventeen digits are always enough.
  ((List.range' 1 17).findSome? fun count => (candidates count).find? readsBack).getD ⟨0, 0⟩

namespace Decimal

def positional (digits : List Char) (point : Int) : List Char :=
  if point ≤ 0 then ['0', '.'] ++ List.replicate (-point).toNat '0' ++ digits
  else
    let whole := digits.take point.toNat
    let fraction := digits.drop point.toNat
    whole ++ List.replicate (point.toNat - whole.length) '0' ++
      '.' :: (if fraction.isEmpty then ['0'] else fraction)

/-- One digit before the point, and an exponent of at least two digits. -/
def scientific (digits : List Char) (point : Int) : List Char :=
  let exponent := (point - 1).natAbs
  let fraction := digits.drop 1
  digits.take 1 ++ (if fraction.isEmpty then [] else '.' :: fraction) ++
    ['e', if point < 1 then '-' else '+'] ++
    (if exponent < 10 then ['0'] else []) ++ Nat.toDigits 10 exponent

/-- Numbers from 10⁻⁴ up to 10¹⁶ are written without an exponent. -/
def render (decimal : Decimal) : String :=
  let written := Nat.toDigits 10 decimal.digits
  let digits := (written.reverse.dropWhile (· == '0')).reverse
  let point := written.length + decimal.exponent
  String.ofList (if -4 < point ∧ point ≤ 16 then positional digits point
    else scientific digits point)

end Decimal

def render (d : Float) : String :=
  match d.toModel.unpack with
  | .notANumber => "nan"
  | .infinity sign => signed sign "inf"
  | .zero sign => signed sign "0.0"
  | .finite sign significand exponent pos =>
    signed sign (shortest significand exponent pos).render
where
  signed (sign : UnpackedFloat.Sign) (text : String) : String :=
    match sign with
    | .negative => "-" ++ text
    | .positive => text

end Linewise.Double
