import Strongbox.Json.Basic
import Strongbox.Number.Notation

/-!
# Writing JSON

A JSON writer whose choices are gathered in a `Style`: the separators between items and
between a name and its value, whether everything beyond ASCII is escaped, and how doubles
are written. Quotes, backslashes and control characters are always escaped, with the short
forms `\b \f \n \r \t` where they exist. Without ASCII escaping, text holding a lone
surrogate has no written form, and writing it fails.
-/

namespace Strongbox

namespace Json

/-- The choices of one way of writing JSON. -/
structure Style where
  itemSeparator : String
  nameSeparator : String
  asciiOnly : Bool
  numbers : Notation

/-- Why a document cannot be written. -/
inductive WriteError where
  | surrogate
  deriving DecidableEq, Repr

namespace Writer

/-- The escape `\u` with four lowercase hexadecimal digits. -/
def unicodeEscape (c : Nat) : List Char :=
  '\\' :: 'u' :: (List.range 4).reverse.map fun i => Hex.digit (c / Nat.pow 16 i % 16)

/-- One code point inside a string. -/
def escapePoint (asciiOnly : Bool) (c : Nat) : List Char :=
  if c = 0x22 then ['\\', '"']
  else if c = 0x5C then ['\\', '\\']
  else if c = 0x08 then ['\\', 'b']
  else if c = 0x0C then ['\\', 'f']
  else if c = 0x0A then ['\\', 'n']
  else if c = 0x0D then ['\\', 'r']
  else if c = 0x09 then ['\\', 't']
  else if c < 0x20 then unicodeEscape c
  else if asciiOnly ∧ c ≥ 0x7F then
    if c ≥ 0x10000 then
      unicodeEscape (0xD800 + (c - 0x10000) / 1024) ++ unicodeEscape (0xDC00 + (c - 0x10000) % 1024)
    else unicodeEscape c
  else [Char.ofNat c]

/-- A quoted string. Without ASCII escaping the text is written as it is, so it must be a
string: a lone surrogate, or a code point beyond Unicode, has no written form. -/
def quote (st : Style) (t : Text) : Except WriteError String :=
  if !st.asciiOnly && t.points.any (fun c => Text.isSurrogate c || 0x110000 ≤ c) then
    .error .surrogate
  else .ok (String.ofList ('"' :: t.points.flatMap (escapePoint st.asciiOnly) ++ ['"']))

/-- The decimal text of an integer. -/
def intText (n : Int) : String := if n < 0 then "-" ++ Nat.repr n.natAbs else Nat.repr n.natAbs

mutual
/-- A document. -/
def write (st : Style) : Json → Except WriteError String
  | null => .ok "null"
  | bool b => .ok (if b then "true" else "false")
  | int n => .ok (intText n)
  | float x => .ok (st.numbers.render x)
  | str t => quote st t
  | arr items => do
    let body ← writeItems st items
    pure ("[" ++ body ++ "]")
  | obj fields => do
    let body ← writeFields st fields
    pure ("\x7b" ++ body ++ "\x7d")

/-- Items between separators. -/
def writeItems (st : Style) : List Json → Except WriteError String
  | [] => .ok ""
  | [j] => write st j
  | j :: rest => do
    let a ← write st j
    let b ← writeItems st rest
    pure (a ++ st.itemSeparator ++ b)

/-- Fields between separators. -/
def writeFields (st : Style) : List (Text × Json) → Except WriteError String
  | [] => .ok ""
  | [(k, j)] => do
    let a ← quote st k
    let b ← write st j
    pure (a ++ st.nameSeparator ++ b)
  | (k, j) :: rest => do
    let a ← quote st k
    let b ← write st j
    let c ← writeFields st rest
    pure (a ++ st.nameSeparator ++ b ++ st.itemSeparator ++ c)
end

end Writer

/-- The text of a document in a style. -/
def writeWith (st : Style) (j : Json) : Except WriteError String := Writer.write st j

end Json

end Strongbox
