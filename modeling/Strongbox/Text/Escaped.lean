import Strongbox.Text.Basic

/-!
# Bytes held as text

Names and values in the process environment are bytes, given and taken as text in which the
lone surrogates U+DC80 to U+DCFF stand for the bytes 0x80 to 0xFF that are not part of
well-formed UTF-8. Text becomes bytes by UTF-8, those surrogates going back to their bytes;
other surrogates have no bytes. Bytes become text by UTF-8 where it is well formed, every other
byte becoming its surrogate, so that the bytes of text read from bytes are those bytes.
-/

namespace Strongbox

namespace Text

/-- The surrogate that stands for a byte outside well-formed UTF-8. -/
def surrogateOfByte (b : UInt8) : Nat := 0xDC00 + b.toNat

/-- The bytes a code point stands for: a surrogate for a byte its byte, another surrogate
none, anything else its UTF-8. -/
def escapedPoint? (c : Nat) : Option (List UInt8) :=
  if 0xDC80 ≤ c ∧ c ≤ 0xDCFF then some [(c - 0xDC00).toUInt8]
  else if isSurrogate c then none
  else some (utf8Point c)

/-- The bytes of text, surrogates for bytes taken back to their bytes; none if the text holds
another surrogate. -/
def escapedBytes? (t : Text) : Option ByteArray :=
  (t.points.mapM escapedPoint?).map fun parts => ⟨parts.flatten.toArray⟩

/-- The length of the UTF-8 sequence a byte leads: one for ASCII, two to four for the lead
bytes of longer sequences, none for a byte that leads nothing. -/
def sequenceWidth (b : UInt8) : Nat :=
  if b < 0x80 then 1
  else if 0xC2 ≤ b ∧ b < 0xE0 then 2
  else if 0xE0 ≤ b ∧ b < 0xF0 then 3
  else if 0xF0 ≤ b ∧ b < 0xF5 then 4
  else 0

/-- UTF-8 decoding that keeps every byte outside a well-formed sequence as its surrogate. A byte
that leads a sequence left unfinished is kept alone; the bytes after it continue nothing, so
they are kept alone in turn. -/
def decodeEscapedList : List UInt8 → List Nat
  | [] => []
  | b :: rest =>
    match decodeList (b :: rest.take (sequenceWidth b - 1)) with
    | some [c] => c :: decodeEscapedList (rest.drop (sequenceWidth b - 1))
    | _ => surrogateOfByte b :: decodeEscapedList rest
termination_by bs => bs.length
decreasing_by all_goals (simp; try omega)

/-- The text that bytes stand for, bytes outside well-formed UTF-8 kept as surrogates. -/
def decodeEscaped (b : ByteArray) : Text := ⟨decodeEscapedList b.data.toList⟩

end Text

end Strongbox
