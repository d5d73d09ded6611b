import Strongbox.Hash.Sha256

/-!
# Entropy

The vault's source of random bytes, made explicit so that every run can be replayed: a seed
names the stream `SHA-256(seed ‖ 0) ‖ SHA-256(seed ‖ 1) ‖ …`, each counter an 8-byte
big-endian number, and a draw takes the next bytes of it. Nothing is drawn twice.
-/

namespace Strongbox

open Strongbox.Bytes

/-- A position in the random stream of a seed. -/
structure Entropy where
  seed : ByteArray
  used : Nat := 0

namespace Entropy

/-- Block `i` of the stream: 32 bytes. -/
def block (seed : ByteArray) (i : Nat) : ByteArray := Sha256.hash (seed ++ ofNatBE 8 i)

/-- Bytes `[start, start + n)` of the stream. -/
def window (seed : ByteArray) (start n : Nat) : ByteArray :=
  let first := start / 32
  let blocks := (List.range' first ((start + n + 31) / 32 - first)).foldl
    (fun acc i => acc ++ block seed i) ByteArray.empty
  slice blocks (start - 32 * first) n

/-- The next `n` bytes, and the source after them. -/
def draw (e : Entropy) (n : Nat) : ByteArray × Entropy :=
  (window e.seed e.used n, { e with used := e.used + n })

theorem draw_used (e : Entropy) (n : Nat) : (e.draw n).2.used = e.used + n := rfl

end Entropy

end Strongbox
