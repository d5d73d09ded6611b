import Strongbox.Bytes

/-!
# Poly1305

The one-time authenticator of RFC 8439: the message, read as 16-byte little-endian numbers
each with a one appended, is evaluated as a polynomial at the clamped point `r` modulo
`2¹³⁰ - 5`, and the secret `s` is added modulo `2¹²⁸`.
-/

namespace Strongbox.Poly1305

open Strongbox.Bytes

/-- The prime `2¹³⁰ - 5`. -/
def prime : Nat := Nat.pow 2 130 - 5

/-- The point `r` with the bits the standard requires to be clear cleared. -/
def clampPoint (r : Nat) : Nat := r &&& 0x0ffffffc0ffffffc0ffffffc0fffffff

/-- The 16-byte tag of `msg` under a 32-byte one-time key. -/
def mac (key msg : ByteArray) : ByteArray :=
  let r := clampPoint (toNatLE (slice key 0 16))
  let s := toNatLE (slice key 16 16)
  let acc := (List.range ((msg.size + 15) / 16)).foldl (fun acc i =>
    let chunk := slice msg (16 * i) 16
    let n := toNatLE chunk + Nat.pow 2 (8 * chunk.size)
    (acc + n) * r % prime) 0
  ofNatLE 16 ((acc + s) % Nat.pow 2 128)

end Strongbox.Poly1305
