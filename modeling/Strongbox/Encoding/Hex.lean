import Strongbox.Bytes

/-!
# Hexadecimal text

Bytes written as two lowercase hexadecimal digits each, and read back from digits of either
case. Reading has two grammars: the strict one of `ofHex?`, two digits per byte and nothing
else, and the lenient one of `ofHexSpaced?`, which also skips ASCII blanks between bytes.
-/

namespace Strongbox.Hex

/-- The lowercase digit of a number below sixteen. -/
def digit (n : Nat) : Char := "0123456789abcdef".toList.getD n '0'

/-- The uppercase digit of a number below sixteen. -/
def digitUpper (n : Nat) : Char := "0123456789ABCDEF".toList.getD n '0'

/-- Two lowercase digits per byte. -/
def toHex (b : ByteArray) : String :=
  String.ofList (b.data.toList.flatMap fun x => [digit (x.toNat / 16), digit (x.toNat % 16)])

/-- Two uppercase digits per byte. -/
def toHexUpper (b : ByteArray) : String :=
  String.ofList (b.data.toList.flatMap fun x =>
    [digitUpper (x.toNat / 16), digitUpper (x.toNat % 16)])

/-- The value of a hexadecimal digit of either case. -/
def digitValue? (c : Char) : Option Nat :=
  if '0' ≤ c ∧ c ≤ '9' then some (c.toNat - '0'.toNat)
  else if 'a' ≤ c ∧ c ≤ 'f' then some (c.toNat - 'a'.toNat + 10)
  else if 'A' ≤ c ∧ c ≤ 'F' then some (c.toNat - 'A'.toNat + 10)
  else none

/-- Pairs of digits, and nothing else. -/
def bytesOfDigits? : List Char → Option (List UInt8)
  | [] => some []
  | a :: b :: rest => do
    let hi ← digitValue? a
    let lo ← digitValue? b
    let tail ← bytesOfDigits? rest
    pure ((hi * 16 + lo).toUInt8 :: tail)
  | [_] => none

/-- Strict reading: an even number of hexadecimal digits. -/
def ofHex? (s : String) : Option ByteArray :=
  (bytesOfDigits? s.toList).map fun l => ⟨l.toArray⟩

/-- The ASCII blanks that lenient reading skips: space, tab, line feed, vertical tab, form
feed and carriage return. -/
def isAsciiBlank (c : Char) : Bool :=
  c == ' ' || c == '\t' || c == '\n' || c == '\x0b' || c == '\x0c' || c == '\r'

/-- Lenient reading: blanks may stand before and between bytes, never inside one. -/
def spacedBytes? : List Char → Option (List UInt8)
  | [] => some []
  | c :: rest =>
    if isAsciiBlank c then spacedBytes? rest
    else match rest with
      | d :: rest' => do
        let hi ← digitValue? c
        let lo ← digitValue? d
        let tail ← spacedBytes? rest'
        pure ((hi * 16 + lo).toUInt8 :: tail)
      | [] => none

/-- Lenient reading of hexadecimal digits with ASCII blanks between bytes. -/
def ofHexSpaced? (s : String) : Option ByteArray :=
  (spacedBytes? s.toList).map fun l => ⟨l.toArray⟩

end Strongbox.Hex
