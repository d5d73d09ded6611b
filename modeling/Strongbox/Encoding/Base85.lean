import Strongbox.Bytes

/-!
# Base85

The base85 alphabet of git and Mercurial binary patches, with its decoding. Five characters
carry the 32 bits of four bytes, most significant first. A text whose length is not a
multiple of five is padded with the last character of the alphabet, and as many bytes as
characters were added are dropped from the end. Decoding fails on a character outside the
alphabet and on a group of five whose value does not fit in 32 bits.
-/

namespace Strongbox.Base85

/-- The 85 characters, in the order of their values. -/
def alphabet : List Nat :=
  ("0123456789ABCDEFGHIJKLMNOPQRSTUVWXYZabcdefghijklmnopqrstuvwxyz!#$%&()*+-;<=>?@^_`" ++
    "\x7b|\x7d~").toList.map Char.toNat

/-- The value of an alphabet character. -/
def valueOf (c : Nat) : Option Nat := alphabet.idxOf? c

/-- Why a text is not base85. -/
inductive DecodeError where
  | badCharacter
  | overflow
  deriving DecidableEq, Repr

/-- The value of a group of characters, most significant first. -/
def groupValue (group : List Nat) : Except DecodeError Nat :=
  group.foldlM (fun acc c => match valueOf c with
    | some v => .ok (acc * 85 + v)
    | none => .error .badCharacter) 0

/-- The four bytes of a 32-bit value, most significant first. -/
def word (n : Nat) : List UInt8 :=
  [(n / 16777216).toUInt8, (n / 65536 % 256).toUInt8, (n / 256 % 256).toUInt8, (n % 256).toUInt8]

/-- The bytes of padded groups of five, in order; `fuel` counts the groups left. -/
def groups : Nat → List Nat → Except DecodeError (List UInt8)
  | 0, _ => .ok []
  | fuel + 1, cs =>
    if cs.isEmpty then .ok []
    else do
      let n ← groupValue (cs.take 5)
      if n ≥ Nat.pow 2 32 then throw .overflow
      let rest ← groups fuel (cs.drop 5)
      pure (word n ++ rest)

/-- The bytes that base85 text, given as byte values, stands for. -/
def decode (cs : List Nat) : Except DecodeError ByteArray := do
  let padding := (5 - cs.length % 5) % 5
  let padded := cs ++ List.replicate padding 0x7E
  let out ← groups (padded.length / 5) padded
  pure ⟨(out.take (out.length - padding)).toArray⟩

end Strongbox.Base85
