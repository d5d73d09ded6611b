import Strongbox.Value.Basic
import Strongbox.Number.Notation

/-!
# Value literals

The literal text of a value, which reads back as an equal value: `None`, `True`, integers in
decimal, doubles in their shortest form, quoted text and bytes, `(…)` tuples with a trailing
comma for one element, `[…]` lists, `{k: v}` dictionaries and `frozenset({…})`. An object
with no value form has no literal that reads back; it is written `<name object>`. The display
text of a value is the text itself for text, and the literal for everything else.
-/

namespace Strongbox

namespace Value

/-- Doubles in literals: positional for decimal exponents from -4 to 15, with `.0` on whole
numbers, and otherwise one digit, a point, the rest, and an exponent of at least two digits
with its sign. -/
def floatNotation : Notation :=
  { minPoint := -4, maxPoint := 16, pointZero := true, exponentPlus := true, exponentWidth := 2,
    nanText := "nan", infText := "inf", negInfText := "-inf" }

/-- The decimal text of an integer. -/
def intText (n : Int) : String := if n < 0 then "-" ++ Nat.repr n.natAbs else Nat.repr n.natAbs

mutual
/-- The literal of a value. -/
def literal : Value → String
  | null => "None"
  | bool b => if b then "True" else "False"
  | int n => intText n
  | float x => floatNotation.render x
  | str t => t.quoted
  | bytes b => Text.quotedBytes b
  | tuple items => "(" ++ literalTuple items ++ ")"
  | list items => "[" ++ literalItems items ++ "]"
  | dict entries => "\x7b" ++ literalEntries entries ++ "\x7d"
  | frozenset items =>
    if items.isEmpty then "frozenset()" else "frozenset(\x7b" ++ literalItems items ++ "\x7d)"
  | object name => "<" ++ name ++ " object>"

/-- The inside of a tuple: one element carries a trailing comma. -/
def literalTuple : List Value → String
  | [] => ""
  | [x] => literal x ++ ","
  | x :: rest => literal x ++ ", " ++ literalItems rest

/-- Literals separated by a comma and a space. -/
def literalItems : List Value → String
  | [] => ""
  | [x] => literal x
  | x :: rest => literal x ++ ", " ++ literalItems rest

/-- Key and value literals joined by a colon, entries separated by a comma and a space. -/
def literalEntries : List (Value × Value) → String
  | [] => ""
  | [(k, v)] => literal k ++ ": " ++ literal v
  | (k, v) :: rest => literal k ++ ": " ++ literal v ++ ", " ++ literalEntries rest
end

/-- The display text: text as itself, everything else as its literal. -/
def display : Value → Text
  | str t => t
  | v => Text.ofString v.literal

end Value

end Strongbox
