import Strongbox.Bytes

/-!
# X25519

Diffie-Hellman on Curve25519 as RFC 7748 gives it: a scalar is clamped, a u-coordinate loses
its top bit and is reduced modulo `2²⁵⁵ - 19`, and the Montgomery ladder multiplies. A shared
secret of all zeros means the peer sent a point of small order, and is refused.
-/

namespace Strongbox.X25519

open Strongbox.Bytes

/-- The field prime `2²⁵⁵ - 19`. -/
def prime : Nat := Nat.pow 2 255 - 19

/-- `(A - 2) / 4` for the curve constant `A = 486662`. -/
def a24 : Nat := 121665

/-- The scalar of 32 bytes with the low three bits and the top bit cleared and bit 254 set. -/
def clamp (k : ByteArray) : ByteArray :=
  let b := k.data
  ⟨(b.set! 0 (b.getD 0 0 &&& 248)).set! 31 ((b.getD 31 0 &&& 127) ||| 64)⟩

/-- `b ^ e mod m` by squaring over the bits of `e`, most significant first. -/
def powMod (b e m : Nat) : Nat :=
  (List.range e.log2.succ).reverse.foldl (fun acc i =>
    let sq := acc * acc % m
    if e.testBit i then sq * b % m else sq) 1

/-- A point in projective coordinates `(x : z)` on the u-line. -/
structure Proj where
  x : Nat
  z : Nat

/-- The double of a point. -/
def double (p : Proj) : Proj :=
  let a := (p.x + p.z) % prime
  let b := (p.x + prime - p.z) % prime
  let aa := a * a % prime
  let bb := b * b % prime
  let e := (aa + prime - bb) % prime
  ⟨aa * bb % prime, e * ((aa + a24 * e) % prime) % prime⟩

/-- The sum of two points whose difference has u-coordinate `u`. -/
def add (u : Nat) (p q : Proj) : Proj :=
  let da := (q.x + prime - q.z) * (p.x + p.z) % prime
  let cb := (q.x + q.z) * (p.x + prime - p.z) % prime
  let s := (da + cb) % prime
  let d := (da + prime - cb) % prime
  ⟨s * s % prime, u * (d * d % prime) % prime⟩

/-- The u-coordinate of `k · P` for the point `P` of u-coordinate `u`; the ladder keeps
`(k' · P, (k' + 1) · P)` for the prefix `k'` of the scalar's bits. -/
def ladder (k u : Nat) : Nat :=
  let r := (List.range 255).reverse.foldl (fun (acc : Proj × Proj) t =>
    if k.testBit t then (add u acc.1 acc.2, double acc.2)
    else (double acc.1, add u acc.1 acc.2)) (⟨1, 0⟩, ⟨u, 1⟩)
  r.1.x * powMod r.1.z (prime - 2) prime % prime

/-- The function X25519 on 32-byte strings: clamped scalar times the masked u-coordinate. -/
def scalarMult (scalar point : ByteArray) : ByteArray :=
  let k := toNatLE (clamp scalar)
  let u := toNatLE point % Nat.pow 2 255 % prime
  ofNatLE 32 (ladder k u)

/-- The u-coordinate of the base point. -/
def basePoint : ByteArray := ofNatLE 32 9

/-- The public key of a private key. -/
def publicKey (priv : ByteArray) : ByteArray := scalarMult priv basePoint

/-- Why a key exchange fails. -/
inductive ExchangeError where
  | privateKeySize
  | publicKeySize
  | smallOrder
  deriving DecidableEq, Repr

/-- What the key exchange says of each failure. -/
def ExchangeError.message : ExchangeError → String
  | .privateKeySize => "An X25519 private key is 32 bytes long"
  | .publicKeySize => "An X25519 public key is 32 bytes long"
  | .smallOrder => "Error computing shared key."

/-- The public key of a 32-byte private key. -/
def publicKey? (priv : ByteArray) : Except ExchangeError ByteArray :=
  if priv.size = 32 then .ok (publicKey priv) else .error .privateKeySize

/-- The shared secret of a private key and a peer's public key; all zeros is refused. -/
def exchange (priv pub : ByteArray) : Except ExchangeError ByteArray :=
  if priv.size ≠ 32 then .error .privateKeySize
  else if pub.size ≠ 32 then .error .publicKeySize
  else
    let s := scalarMult priv pub
    if allZero s then .error .smallOrder else .ok s

end Strongbox.X25519
