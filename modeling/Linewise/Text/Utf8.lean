import Linewise.Text.Lines
import Linewise.Text.Quoted

/-! # UTF-8

Decoding is strict: it stops at the first octet that cannot continue a
well-formed sequence and tells which octets are at fault. Overlong forms,
surrogates and code points above U+10FFFF are not well-formed. A source file may
begin with a byte order mark, and each of its line ends reads as a line feed.
-/

namespace Linewise.Text.Utf8

inductive Flaw where
  /-- No sequence begins with this octet. -/
  | start
  /-- The next octet does not continue the sequence. -/
  | continuation
  /-- The octets end within the sequence. -/
  | incomplete
deriving DecidableEq, Repr

def Flaw.message : Flaw → String
  | .start => "invalid start byte"
  | .continuation => "invalid continuation byte"
  | .incomplete => "unexpected end of data"

/-- Octets that are not well-formed: from the leading octet to before the position `stop`. -/
structure Fault where
  flaw : Flaw
  lead : UInt8
  start : Nat
  stop : Nat
deriving DecidableEq, Repr

def Fault.message (fault : Fault) : String :=
  let octets :=
    if fault.stop = fault.start + 1 then
      "byte 0x" ++ String.ofList (hexDigits 2 fault.lead.toNat) ++ " in position " ++
        toString fault.start
    else "bytes in position " ++ toString fault.start ++ "-" ++ toString (fault.stop - 1)
  "'utf-8' codec can't decode " ++ octets ++ ": " ++ fault.flaw.message

def encode (s : String) : List UInt8 :=
  s.toList.flatMap String.utf8EncodeChar

/-- A sequence that has begun: where, how many octets are missing, the range of the next one, and
the bits so far. -/
structure Pending where
  lead : UInt8
  start : Nat
  missing : Nat
  low : Nat
  high : Nat
  bits : Nat
deriving Repr

def Pending.ofLead? (start : Nat) (lead : UInt8) : Option Pending :=
  let n := lead.toNat
  if 0xC2 ≤ n ∧ n ≤ 0xDF then some ⟨lead, start, 1, 0x80, 0xBF, n % 32⟩
  else if 0xE0 ≤ n ∧ n ≤ 0xEF then
    some ⟨lead, start, 2, if n = 0xE0 then 0xA0 else 0x80, if n = 0xED then 0x9F else 0xBF, n % 16⟩
  else if 0xF0 ≤ n ∧ n ≤ 0xF4 then
    some ⟨lead, start, 3, if n = 0xF0 then 0x90 else 0x80, if n = 0xF4 then 0x8F else 0xBF, n % 8⟩
  else none

/-- Decode the octets from the given position on, within a sequence or between two. -/
def decodeFrom (position : Nat) : Option Pending → List UInt8 → Except Fault (List Char)
  | none, [] => .ok []
  | some pending, [] => .error ⟨.incomplete, pending.lead, pending.start, position⟩
  | none, octet :: rest =>
    if octet.toNat < 0x80 then
      (decodeFrom (position + 1) none rest).map (Char.ofNat octet.toNat :: ·)
    else
      match Pending.ofLead? position octet with
      | none => .error ⟨.start, octet, position, position + 1⟩
      | some pending => decodeFrom (position + 1) (some pending) rest
  | some pending, octet :: rest =>
    if pending.low ≤ octet.toNat ∧ octet.toNat ≤ pending.high then
      let bits := pending.bits * 64 + octet.toNat % 64
      if pending.missing ≤ 1 then
        (decodeFrom (position + 1) none rest).map (Char.ofNat bits :: ·)
      else
        decodeFrom (position + 1)
          (some { pending with
            missing := pending.missing - 1, low := 0x80, high := 0xBF, bits := bits }) rest
    else .error ⟨.continuation, pending.lead, pending.start, position⟩

def decode (octets : List UInt8) : Except Fault String :=
  (decodeFrom 0 none octets).map String.ofList

/-- The octets after a byte order mark; octets that only begin a mark count as one. -/
def dropMark : List UInt8 → List UInt8
  | [] => []
  | [0xEF] => []
  | [0xEF, 0xBB] => []
  | 0xEF :: 0xBB :: 0xBF :: rest => rest
  | octets => octets

def readSource (octets : List UInt8) : Except Fault String :=
  (decode (dropMark octets)).map fun s => String.ofList (unifyLineEnds s.toList)

end Linewise.Text.Utf8
