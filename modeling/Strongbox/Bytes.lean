/-!
# Byte strings

Byte strings are `ByteArray`s. This module holds what the rest of the library shares on them:
numbers written in a fixed number of bytes in either byte order, bytewise exclusive or, and
comparison that takes the same time whatever the bytes.
-/

namespace Strongbox.Bytes

/-- The byte at `i`, or zero past the end. -/
def byteAt (b : ByteArray) (i : Nat) : UInt8 := b.data.getD i 0

/-- A byte string of `n` copies of `x`. -/
def replicate (n : Nat) (x : UInt8) : ByteArray := ⟨Array.replicate n x⟩

/-- `n` written in `width` bytes, most significant first; bits above the width are dropped. -/
def ofNatBE (width n : Nat) : ByteArray :=
  ⟨((List.range width).reverse.map fun i => (n >>> (8 * i)).toUInt8).toArray⟩

/-- `n` written in `width` bytes, least significant first; bits above the width are dropped. -/
def ofNatLE (width n : Nat) : ByteArray :=
  ⟨((List.range width).map fun i => (n >>> (8 * i)).toUInt8).toArray⟩

/-- The number whose bytes, most significant first, are `b`. -/
def toNatBE (b : ByteArray) : Nat := b.data.foldl (fun acc x => acc * 256 + x.toNat) 0

/-- The number whose bytes, least significant first, are `b`. -/
def toNatLE (b : ByteArray) : Nat := b.data.foldr (fun x acc => acc * 256 + x.toNat) 0

/-- Bytewise exclusive or; the result is as long as the shorter operand. -/
def xor (a b : ByteArray) : ByteArray := ⟨Array.zipWith (· ^^^ ·) a.data b.data⟩

/-- The bytes from `start` on, `len` of them (fewer at the end). -/
def slice (b : ByteArray) (start len : Nat) : ByteArray := b.extract start (start + len)

/-- All bytes from `start` on. -/
def dropBytes (b : ByteArray) (start : Nat) : ByteArray := b.extract start b.size

/-- Equal lengths and equal bytes, decided by folding over every byte. -/
def equalInTime (a b : ByteArray) : Bool :=
  a.size == b.size && (Array.zipWith (· ^^^ ·) a.data b.data).foldl (· ||| ·) 0 == 0

/-- True when every byte is zero. -/
def allZero (b : ByteArray) : Bool := b.data.all (· == 0)

theorem size_replicate (n : Nat) (x : UInt8) : (replicate n x).size = n := by
  simp [replicate, ByteArray.size]

theorem size_ofNatBE (width n : Nat) : (ofNatBE width n).size = width := by
  simp [ofNatBE, ByteArray.size]

end Strongbox.Bytes
