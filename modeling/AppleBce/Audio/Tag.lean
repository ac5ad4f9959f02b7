import AppleBce.Audio.Message

namespace AppleBce

/-- The tag `"S%03d"` that `aaudio_send_create_tag` writes. -/
def tagText (n : Nat) : List Byte :=
  [0x53, BitVec.ofNat 8 (0x30 + n / 100 % 10), BitVec.ofNat 8 (0x30 + n / 10 % 10),
    BitVec.ofNat 8 (0x30 + n % 10)]

def decimalDigit (b : Byte) : Option Nat :=
  if 0x30 ≤ b.toNat ∧ b.toNat ≤ 0x39 then some (b.toNat - 0x30) else none

/-- The digits of a number and what may follow them, which is one newline. -/
def parseDigits (digits : Option Nat) : List Byte → Option Nat
  | [] => digits
  | b :: rest =>
    match decimalDigit b with
    | some d => parseDigits (some (digits.getD 0 * 10 + d)) rest
    | none => if b = 0x0A ∧ rest = [] then digits else none

/-- `kstrtoint` in base 10, on a string that is too short to overflow. -/
def kstrtoint (s : List Byte) : Option Int :=
  match s.takeWhile (· ≠ 0) with
  | [] => none
  | b :: rest =>
    if b = 0x2D then (parseDigits none rest).map fun n => -(n : Int)
    else if b = 0x2B then (parseDigits none rest).map fun n => (n : Int)
    else (parseDigits none (b :: rest)).map fun n => (n : Int)

/-- The tag number that `aaudio_handle_reply` finds in the four bytes of a tag, if they pass its
checks. -/
def parseTag : List Byte → Option Nat
  | [] => none
  | b :: digits =>
    if b ≠ 0x53 then none
    else
      match kstrtoint digits with
      | none => none
      | some tagn => if tagn < 0 ∨ aaudioBceQueueTagCount ≤ tagn then none else some tagn.toNat

/-- Every tag the driver makes is found again in a reply. -/
theorem parseTag_tagText : ∀ n < aaudioBceQueueTagCount, parseTag (tagText n) = some n := by
  decide

/-- A sign and a newline may stand in place of digits, which the driver never writes. -/
example : parseTag [0x53, 0x2B, 0x37, 0x0A] = some 7 := by decide

end AppleBce
