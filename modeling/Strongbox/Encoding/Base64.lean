import Strongbox.Bytes

/-!
# Base64

The standard alphabet of RFC 4648 with `=` padding. Encoding always pads. Decoding reads
four characters into three bytes and comes in two modes. The strict mode accepts only
alphabet characters followed by padding: padding may not lead, data may not follow the
padding that completes a group, and padding after a complete group is ignored. The lenient
mode skips characters outside the alphabet and stops at the padding that completes a group. In both modes the text must
be ASCII and may not leave a group unfinished.
-/

namespace Strongbox.Base64

open Strongbox.Bytes

/-- The 64 characters, in the order of their values. -/
def alphabet : List Char :=
  "ABCDEFGHIJKLMNOPQRSTUVWXYZabcdefghijklmnopqrstuvwxyz0123456789+/".toList

/-- The character of a six-bit value. -/
def charOf (n : Nat) : Char := alphabet.getD n 'A'

/-- Groups of three bytes as four characters; the last group is padded with `=`. -/
def encodeList : List UInt8 → List Char
  | [] => []
  | [a] =>
    let n := a.toNat * 65536
    [charOf (n / 262144), charOf (n / 4096 % 64), '=', '=']
  | [a, b] =>
    let n := a.toNat * 65536 + b.toNat * 256
    [charOf (n / 262144), charOf (n / 4096 % 64), charOf (n / 64 % 64), '=']
  | a :: b :: c :: rest =>
    let n := a.toNat * 65536 + b.toNat * 256 + c.toNat
    charOf (n / 262144) :: charOf (n / 4096 % 64) :: charOf (n / 64 % 64) :: charOf (n % 64) ::
      encodeList rest

/-- The padded text of a byte string. -/
def encode (b : ByteArray) : String := String.ofList (encodeList b.data.toList)

/-- Why a text is not base64. -/
inductive DecodeError where
  | nonAscii
  | nonAlphabet
  | leadingPadding
  | excessData
  | discontinuousPadding
  | danglingCharacter
  | incorrectPadding
  deriving DecidableEq, Repr

/-- The value of an alphabet character. -/
def valueOf (c : Nat) : Option Nat :=
  if 0x41 ≤ c ∧ c ≤ 0x5A then some (c - 0x41)
  else if 0x61 ≤ c ∧ c ≤ 0x7A then some (c - 0x61 + 26)
  else if 0x30 ≤ c ∧ c ≤ 0x39 then some (c - 0x30 + 52)
  else if c = 0x2B then some 62
  else if c = 0x2F then some 63
  else none

/-- The decoder's state: bytes so far (last first), the position in the current group of
four, the bits carried to the next byte, the pads seen, and whether padding has begun. -/
structure State where
  out : List UInt8 := []
  quad : Nat := 0
  carry : Nat := 0
  pads : Nat := 0
  padding : Bool := false

/-- One alphabet value into the group. -/
def State.push (s : State) (v : Nat) : State :=
  match s.quad with
  | 0 => { s with quad := 1, carry := v, pads := 0 }
  | 1 => { s with quad := 2, out := (s.carry * 4 + v / 16).toUInt8 :: s.out, carry := v % 16, pads := 0 }
  | 2 => { s with quad := 3, out := (s.carry * 16 + v / 4).toUInt8 :: s.out, carry := v % 4, pads := 0 }
  | _ => { s with quad := 0, out := (s.carry * 64 + v).toUInt8 :: s.out, carry := 0, pads := 0 }

/-- The end of the input: a group must be complete. -/
def State.finish (s : State) : Except DecodeError ByteArray :=
  if s.quad = 0 then .ok ⟨s.out.reverse.toArray⟩
  else if s.quad = 1 then .error .danglingCharacter
  else .error .incorrectPadding

/-- The characters from the current one on. -/
def run (strict : Bool) (s : State) : List Nat → Except DecodeError ByteArray
  | [] => s.finish
  | c :: rest =>
    if c = 0x3D then
      let s := { s with padding := true }
      if s.quad ≥ 2 ∧ s.quad + (s.pads + 1) ≥ 4 then
        if strict ∧ !rest.isEmpty then .error .excessData else .ok ⟨s.out.reverse.toArray⟩
      else run strict { s with pads := if s.quad ≥ 2 then s.pads + 1 else s.pads } rest
    else match valueOf c with
      | none => if strict then .error .nonAlphabet else run strict s rest
      | some v =>
        if strict ∧ s.padding then .error .discontinuousPadding
        else run strict (s.push v) rest

/-- Decoding of text given as code points. -/
def decodePoints (strict : Bool) (cs : List Nat) : Except DecodeError ByteArray :=
  if cs.any (· ≥ 128) then .error .nonAscii
  else if strict ∧ cs.head? = some 0x3D then .error .leadingPadding
  else run strict {} cs

/-- Strict decoding of a string. -/
def decodeStrict (s : String) : Except DecodeError ByteArray :=
  decodePoints true (s.toList.map Char.toNat)

/-- Lenient decoding of a string. -/
def decodeLenient (s : String) : Except DecodeError ByteArray :=
  decodePoints false (s.toList.map Char.toNat)

end Strongbox.Base64
