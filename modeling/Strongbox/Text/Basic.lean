import Strongbox.Text.Blank
import Strongbox.Text.Cased
import Strongbox.Text.Lower
import Strongbox.Text.Printable
import Strongbox.Encoding.Hex

/-!
# Text

Text as a sequence of Unicode code points. Unlike `String`, a `Text` may hold lone
surrogates (U+D800 to U+DFFF), which a JSON escape such as `\ud800` can name; such text can
be stored and quoted but has no UTF-8 form. This module holds the encodings to and from
UTF-8, trimming and lower-casing, and the quoted literal form of text and of bytes.
-/

namespace Strongbox

/-- A sequence of code points, lone surrogates allowed. -/
structure Text where
  points : List Nat
  deriving DecidableEq, Inhabited, Hashable, Repr

namespace Text

/-- The code points of a string. -/
def ofString (s : String) : Text := ⟨s.toList.map Char.toNat⟩

instance : Coe String Text := ⟨ofString⟩

instance : Append Text := ⟨fun a b => ⟨a.points ++ b.points⟩⟩

/-- A code point reserved for UTF-16 surrogates. -/
def isSurrogate (c : Nat) : Bool := 0xD800 ≤ c && c ≤ 0xDFFF

/-- The text as a `String`, if it holds no surrogate. -/
def toString? (t : Text) : Option String :=
  if t.points.all fun c => !isSurrogate c && c < 0x110000 then
    some (String.ofList (t.points.map Char.ofNat))
  else none

/-- The text as a `String`, each surrogate replaced by U+FFFD. -/
def toStringLossy (t : Text) : String :=
  String.ofList (t.points.map fun c => if isSurrogate c then '�' else Char.ofNat c)

/-- The number of code points. -/
def length (t : Text) : Nat := t.points.length

/-! ## Pieces -/

/-- The text has no code point. -/
def isEmpty (t : Text) : Bool := t.points.isEmpty

/-- The text begins with `p`. -/
def startsWith (t p : Text) : Bool := p.points.isPrefixOf t.points

/-- The text ends with `p`. -/
def endsWith (t p : Text) : Bool := p.points.isSuffixOf t.points

/-- The text without its first `n` code points. -/
def drop (t : Text) (n : Nat) : Text := ⟨t.points.drop n⟩

/-- The text after `p`, if it begins with `p`. -/
def dropPrefix? (t p : Text) : Option Text :=
  if t.startsWith p then some (t.drop p.length) else none

/-- The code point `c` occurs in the text. -/
def hasPoint (t : Text) (c : Char) : Bool := t.points.contains c.toNat

/-- The text holds `p` somewhere, as a run of code points. -/
def contains (t p : Text) : Bool := go t.points
where
  /-- `p` begins somewhere in `cs`. -/
  go : List Nat → Bool
    | [] => p.points.isEmpty
    | c :: cs => p.points.isPrefixOf (c :: cs) || go cs

/-- The pieces between occurrences of `sep`, in order; text without it is one piece. -/
def splitOn (t : Text) (sep : Char) : List Text := (t.points.splitOn sep.toNat).map Text.mk

/-- The pieces joined with `sep` between each two. -/
def join (sep : Text) : List Text → Text
  | [] => ⟨[]⟩
  | [x] => x
  | x :: rest => x ++ sep ++ join sep rest

/-- Order by code points, as text sorts. -/
def lt (a b : Text) : Bool := compareOfLessAndEq a.points b.points == .lt

/-! ## UTF-8 -/

/-- The UTF-8 bytes of one code point; a surrogate gets the three bytes its number would. -/
def utf8Point (c : Nat) : List UInt8 :=
  if c < 0x80 then [c.toUInt8]
  else if c < 0x800 then [(0xC0 + c / 64).toUInt8, (0x80 + c % 64).toUInt8]
  else if c < 0x10000 then
    [(0xE0 + c / 4096).toUInt8, (0x80 + c / 64 % 64).toUInt8, (0x80 + c % 64).toUInt8]
  else
    [(0xF0 + c / 262144).toUInt8, (0x80 + c / 4096 % 64).toUInt8, (0x80 + c / 64 % 64).toUInt8,
      (0x80 + c % 64).toUInt8]

/-- UTF-8 that lets surrogates through as three-byte sequences. -/
def encodePassing (t : Text) : ByteArray := ⟨(t.points.flatMap utf8Point).toArray⟩

/-- Strict UTF-8: `none` when the text holds a surrogate. -/
def encode? (t : Text) : Option ByteArray :=
  if t.points.any isSurrogate then none else some (encodePassing t)

/-- A continuation byte's six bits. -/
def continuation? (b : UInt8) : Option Nat :=
  if b &&& 0xC0 == 0x80 then some (b.toNat % 64) else none

/-- Strict UTF-8 decoding of a byte list: shortest forms only, no surrogates, nothing above
U+10FFFF. -/
def decodeList : List UInt8 → Option (List Nat)
  | [] => some []
  | b :: rest =>
    if b < 0x80 then (decodeList rest).map (b.toNat :: ·)
    else if 0xC2 ≤ b ∧ b < 0xE0 then
      match rest with
      | b1 :: rest' => do
        let x ← continuation? b1
        let tail ← decodeList rest'
        pure (((b.toNat % 32) * 64 + x) :: tail)
      | [] => none
    else if 0xE0 ≤ b ∧ b < 0xF0 then
      match rest with
      | b1 :: b2 :: rest' => do
        let x ← continuation? b1
        let y ← continuation? b2
        let c := (b.toNat % 16) * 4096 + x * 64 + y
        if c < 0x800 || isSurrogate c then none
        else
          let tail ← decodeList rest'
          pure (c :: tail)
      | _ => none
    else if 0xF0 ≤ b ∧ b < 0xF5 then
      match rest with
      | b1 :: b2 :: b3 :: rest' => do
        let x ← continuation? b1
        let y ← continuation? b2
        let z ← continuation? b3
        let c := (b.toNat % 8) * 262144 + x * 4096 + y * 64 + z
        if c < 0x10000 || c ≥ 0x110000 then none
        else
          let tail ← decodeList rest'
          pure (c :: tail)
      | _ => none
    else none

/-- Strict UTF-8 decoding. -/
def decode? (b : ByteArray) : Option Text := (decodeList b.data.toList).map Text.mk

/-! ## Blanks and case -/

/-- The text without blanks at either end. -/
def trim (t : Text) : Text :=
  ⟨((t.points.dropWhile isBlank).reverse.dropWhile isBlank).reverse⟩

/-- The text holds a blank somewhere. -/
def hasBlank (t : Text) : Bool := t.points.any isBlank

/-- A capital sigma takes the final form when, passing over case-ignorable characters, a cased
character is the nearest before it (`before` runs nearest first) and none is the nearest after. -/
def finalSigma (before after : List Nat) : Bool :=
  (match before.dropWhile isCaseIgnorable with
    | c :: _ => isCased c
    | [] => false) &&
  (match after.dropWhile isCaseIgnorable with
    | c :: _ => !isCased c
    | [] => true)

/-- The lower case of the code points `points`, with `before` the ones that precede them,
nearest first. -/
def lowerAfter (before : List Nat) : List Nat → List Nat
  | [] => []
  | c :: rest =>
    (if c = 0x3A3 then [if finalSigma before rest then 0x3C2 else 0x3C3] else lowerPoint c) ++
      lowerAfter (c :: before) rest

/-- The full lower case of the text, capital sigma taking its final form at the end of a
word. -/
def lower (t : Text) : Text := ⟨lowerAfter [] t.points⟩

/-- A string without blanks at either end. -/
def trimString (s : String) : String := ((ofString s).trim).toStringLossy

/-- The full lower case of a string. -/
def lowerString (s : String) : String := ((ofString s).lower).toStringLossy

/-! ## Quoted literals -/

/-- The escape `\x` followed by `width` lowercase hexadecimal digits of `c`. -/
def hexEscape (mark : Char) (width c : Nat) : List Char :=
  '\\' :: mark :: (List.range width).reverse.map fun i => Hex.digit (c / Nat.pow 16 i % 16)

/-- The quote that a literal uses: a single quote, unless the content holds a single quote
and no double quote. -/
def quoteFor (points : List Nat) : Char :=
  if points.contains 0x27 && !points.contains 0x22 then '"' else '\''

/-- One code point inside a quoted text literal. -/
def escapePoint (quote : Char) (c : Nat) : List Char :=
  if c = quote.toNat || c = 0x5C then ['\\', Char.ofNat c]
  else if c = 0x09 then ['\\', 't']
  else if c = 0x0A then ['\\', 'n']
  else if c = 0x0D then ['\\', 'r']
  else if c < 0x20 || c = 0x7F then hexEscape 'x' 2 c
  else if c < 0x7F then [Char.ofNat c]
  else if isPrintable c then [Char.ofNat c]
  else if c ≤ 0xFF then hexEscape 'x' 2 c
  else if c ≤ 0xFFFF then hexEscape 'u' 4 c
  else hexEscape 'U' 8 c

/-- The quoted literal of a text: quotes around it, and escapes for the quote, the
backslash and every code point that is not printable. -/
def quoted (t : Text) : String :=
  let q := quoteFor t.points
  String.ofList (q :: t.points.flatMap (escapePoint q) ++ [q])

/-- The quoted literal of a string. -/
def quotedString (s : String) : String := quoted (ofString s)

/-- One byte inside a quoted bytes literal. -/
def escapeByte (quote : Char) (b : UInt8) : List Char :=
  let c := b.toNat
  if c = quote.toNat || c = 0x5C then ['\\', Char.ofNat c]
  else if c = 0x09 then ['\\', 't']
  else if c = 0x0A then ['\\', 'n']
  else if c = 0x0D then ['\\', 'r']
  else if c < 0x20 || c ≥ 0x7F then hexEscape 'x' 2 c
  else [Char.ofNat c]

/-- The literal of a byte string: `b` and quotes around its bytes, printable ASCII as itself
and every other byte escaped. -/
def quotedBytes (b : ByteArray) : String :=
  let points := b.data.toList.map UInt8.toNat
  let q := quoteFor points
  String.ofList ('b' :: q :: b.data.toList.flatMap (escapeByte q) ++ [q])

end Text

end Strongbox
