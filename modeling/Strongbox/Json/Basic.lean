import Strongbox.Text.Basic

/-!
# JSON documents

A JSON document as read or about to be written: null, truth values, integers of any size,
doubles, text, arrays, and objects whose fields keep their order. Text may hold lone
surrogates, which only escapes can express.
-/

namespace Strongbox

/-- A JSON document. -/
inductive Json where
  | null
  | bool (b : Bool)
  | int (n : Int)
  | float (x : Float)
  | str (t : Text)
  | arr (items : List Json)
  | obj (fields : List (Text × Json))
  deriving Inhabited

namespace Json

/-- Text from a string. -/
def ofString (s : String) : Json := .str (Text.ofString s)

/-- An object from string-named fields. -/
def record (fields : List (String × Json)) : Json :=
  .obj (fields.map fun f => (Text.ofString f.1, f.2))

/-- Code-point order on texts. -/
def textLt (a b : Text) : Bool := compareOfLessAndEq a.points b.points == .lt

mutual
/-- The document with every object's fields ordered by name. -/
def sortKeys : Json → Json
  | arr items => arr (sortKeysList items)
  | obj fields => obj ((sortKeysFields fields).mergeSort fun a b => !textLt b.1 a.1)
  | j => j

/-- `sortKeys` on each item. -/
def sortKeysList : List Json → List Json
  | [] => []
  | j :: rest => sortKeys j :: sortKeysList rest

/-- `sortKeys` on each field's value. -/
def sortKeysFields : List (Text × Json) → List (Text × Json)
  | [] => []
  | (k, j) :: rest => (k, sortKeys j) :: sortKeysFields rest
end

mutual
/-- How deeply arrays and objects nest in a document: none for a scalar. -/
def nesting : Json → Nat
  | arr items => nestingList items + 1
  | obj fields => nestingFields fields + 1
  | _ => 0

/-- The deepest nesting among documents. -/
def nestingList : List Json → Nat
  | [] => 0
  | j :: rest => max (nesting j) (nestingList rest)

/-- The deepest nesting among the values of fields. -/
def nestingFields : List (Text × Json) → Nat
  | [] => 0
  | (_, j) :: rest => max (nesting j) (nestingFields rest)
end

/-- The field named `k`. -/
def field? (fields : List (Text × Json)) (k : String) : Option Json :=
  (fields.find? fun f => f.1 == Text.ofString k).map Prod.snd

end Json

end Strongbox
