import Linewise.Proofs.Attempt
import Linewise.Text.Utf8
import Mathlib.Data.List.Basic

/-! # Decoding what was encoded

The octets of a text decode to the text. A source file therefore reads as the text that was put
into it, with or without a byte order mark in front, except that its line ends are unified.
-/

namespace Linewise.Text.Utf8

theorem val_bounds (c : Char) :
    c.val.toNat < 0xD800 ∨ 0xDFFF < c.val.toNat ∧ c.val.toNat < 0x110000 :=
  c.valid

theorem toNat_ofNat {n : Nat} (h : n < 256) : (UInt8.ofNat n).toNat = n :=
  Nat.mod_eq_of_lt h

variable {pending : Pending} {lead octet : UInt8} {rest : List UInt8}
  {position start missing low high bits : Nat}

theorem decodeFrom_single (h : octet.toNat < 0x80) :
    decodeFrom position none (octet :: rest) =
      (decodeFrom (position + 1) none rest).map (Char.ofNat octet.toNat :: ·) := by
  rw [decodeFrom, if_pos h]

theorem decodeFrom_lead (hlead : 0x80 ≤ octet.toNat)
    (hpending : Pending.ofLead? position octet = some pending) :
    decodeFrom position none (octet :: rest) = decodeFrom (position + 1) (some pending) rest := by
  rw [decodeFrom, if_neg (by omega), hpending]

theorem decodeFrom_within (hlow : low ≤ octet.toNat) (hhigh : octet.toNat ≤ high) :
    decodeFrom position (some ⟨lead, start, missing + 2, low, high, bits⟩) (octet :: rest) =
      decodeFrom (position + 1)
        (some ⟨lead, start, missing + 1, 0x80, 0xBF, bits * 64 + octet.toNat % 64⟩) rest := by
  rw [decodeFrom, if_pos ⟨hlow, hhigh⟩]
  exact if_neg (show ¬ missing + 2 ≤ 1 by omega)

theorem decodeFrom_last (hlow : low ≤ octet.toNat) (hhigh : octet.toNat ≤ high) :
    decodeFrom position (some ⟨lead, start, 1, low, high, bits⟩) (octet :: rest) =
      (decodeFrom (position + 1) none rest).map
        (Char.ofNat (bits * 64 + octet.toNat % 64) :: ·) := by
  rw [decodeFrom, if_pos ⟨hlow, hhigh⟩]
  rfl

theorem ofLead?_two (h : 0xC2 ≤ octet.toNat ∧ octet.toNat ≤ 0xDF) :
    Pending.ofLead? position octet =
      some ⟨octet, position, 1, 0x80, 0xBF, octet.toNat % 32⟩ :=
  if_pos h

theorem ofLead?_three (h : 0xE0 ≤ octet.toNat ∧ octet.toNat ≤ 0xEF) :
    Pending.ofLead? position octet =
      some ⟨octet, position, 2, if octet.toNat = 0xE0 then 0xA0 else 0x80,
        if octet.toNat = 0xED then 0x9F else 0xBF, octet.toNat % 16⟩ := by
  unfold Pending.ofLead?
  exact (if_neg (by omega)).trans (if_pos h)

theorem ofLead?_four (h : 0xF0 ≤ octet.toNat ∧ octet.toNat ≤ 0xF4) :
    Pending.ofLead? position octet =
      some ⟨octet, position, 3, if octet.toNat = 0xF0 then 0x90 else 0x80,
        if octet.toNat = 0xF4 then 0x8F else 0xBF, octet.toNat % 8⟩ := by
  unfold Pending.ofLead?
  exact (if_neg (by omega)).trans ((if_neg (by omega)).trans (if_pos h))

theorem decodeFrom_utf8EncodeChar (c : Char) (position : Nat) (rest : List UInt8) :
    ∃ next, decodeFrom position none (String.utf8EncodeChar c ++ rest) =
      (decodeFrom next none rest).map (c :: ·) := by
  have hbounds := val_bounds c
  have hc : Char.ofNat c.val.toNat = c := Char.ofNat_toNat c
  have htail (n : Nat) : (UInt8.ofNat (n % 0x40 + 0x80)).toNat = n % 64 + 128 :=
    toNat_ofNat (by omega)
  unfold String.utf8EncodeChar
  dsimp only
  generalize c.val.toNat = v at hbounds hc ⊢
  split_ifs with h₁ h₂ h₃
  · have hsingle : (UInt8.ofNat v).toNat = v := toNat_ofNat (by omega)
    refine ⟨position + 1, ?_⟩
    rw [List.singleton_append, decodeFrom_single (by omega), hsingle, hc]
  · have hlead : (UInt8.ofNat (v / 64 % 0x20 + 0xC0)).toNat = v / 64 + 0xC0 := by
      rw [toNat_ofNat (by omega)]
      omega
    refine ⟨position + 1 + 1, ?_⟩
    rw [List.cons_append, List.singleton_append,
      decodeFrom_lead (by omega) (ofLead?_two (by omega)),
      decodeFrom_last (by rw [htail]; omega) (by rw [htail]; omega), htail, hlead,
      show (v / 64 + 0xC0) % 32 * 64 + (v % 64 + 128) % 64 = v by omega, hc]
  · have hlead : (UInt8.ofNat (v / 4096 % 0x10 + 0xE0)).toNat = v / 4096 + 0xE0 := by
      rw [toNat_ofNat (by omega)]
      omega
    refine ⟨position + 1 + 1 + 1, ?_⟩
    rw [List.cons_append, List.cons_append, List.singleton_append,
      decodeFrom_lead (by omega) (ofLead?_three (by omega)),
      decodeFrom_within (by rw [htail, hlead]; split_ifs <;> omega)
        (by rw [htail, hlead]; split_ifs <;> omega),
      decodeFrom_last (by rw [htail]; omega) (by rw [htail]; omega), htail, htail, hlead,
      show ((v / 4096 + 0xE0) % 16 * 64 + (v / 64 % 64 + 128) % 64) * 64 + (v % 64 + 128) % 64 = v
        by omega, hc]
  · have hlead : (UInt8.ofNat (v / 262144 % 0x08 + 0xF0)).toNat = v / 262144 + 0xF0 := by
      rw [toNat_ofNat (by omega)]
      omega
    refine ⟨position + 1 + 1 + 1 + 1, ?_⟩
    rw [List.cons_append, List.cons_append, List.cons_append, List.singleton_append,
      decodeFrom_lead (by omega) (ofLead?_four (by omega)),
      decodeFrom_within (by rw [htail, hlead]; split_ifs <;> omega)
        (by rw [htail, hlead]; split_ifs <;> omega),
      decodeFrom_within (by rw [htail]; omega) (by rw [htail]; omega),
      decodeFrom_last (by rw [htail]; omega) (by rw [htail]; omega), htail, htail, htail, hlead,
      show (((v / 262144 + 0xF0) % 8 * 64 + (v / 4096 % 64 + 128) % 64) * 64 +
        (v / 64 % 64 + 128) % 64) * 64 + (v % 64 + 128) % 64 = v by omega, hc]

theorem decodeFrom_flatMap (cs : List Char) (position : Nat) :
    decodeFrom position none (cs.flatMap String.utf8EncodeChar) = .ok cs := by
  induction cs generalizing position with
  | nil => rfl
  | cons c cs ih =>
    obtain ⟨next, hnext⟩ := decodeFrom_utf8EncodeChar c position (cs.flatMap String.utf8EncodeChar)
    rw [List.flatMap_cons, hnext, ih]
    rfl

theorem decode_encode (s : String) : decode (encode s) = .ok s := by
  rw [decode, encode, decodeFrom_flatMap]
  exact congrArg Except.ok String.ofList_toList

def mark : List UInt8 := [0xEF, 0xBB, 0xBF]

theorem dropMark_append (octets : List UInt8) : dropMark (mark ++ octets) = octets := rfl

theorem head?_of_encode_eq {s : String} {rest : List UInt8} (h : encode s = mark ++ rest) :
    s.toList.head? = some '\uFEFF' := by
  obtain ⟨next, hnext⟩ := decodeFrom_utf8EncodeChar '\uFEFF' 0 rest
  have hmark : String.utf8EncodeChar '\uFEFF' = mark := by decide
  rw [hmark, ← h, encode, decodeFrom_flatMap] at hnext
  obtain ⟨cs, -, hcs⟩ := Attempt.map_eq_ok_iff.mp hnext.symm
  rw [← hcs, List.head?_cons]

/-- Only a text that begins with the mark itself would lose something. -/
theorem dropMark_encode {s : String} (h : s.toList.head? ≠ some '\uFEFF') :
    dropMark (encode s) = encode s := by
  have hdecode := decode_encode s
  unfold dropMark
  split
  · next heq => exact heq.symm
  · next heq =>
    rw [heq] at hdecode
    cases hdecode
  · next heq =>
    rw [heq] at hdecode
    cases hdecode
  · next rest heq => exact absurd (head?_of_encode_eq heq) h
  · rfl

/-- A file with the octets of a text reads as the text with its line ends unified, and so does one
with a byte order mark in front of them. -/
theorem readSource_of_dropMark {s : String} {octets : List UInt8}
    (h : dropMark octets = encode s) :
    readSource octets = .ok (String.ofList (unifyLineEnds s.toList)) := by
  rw [readSource, h, decode_encode]
  rfl

end Linewise.Text.Utf8
