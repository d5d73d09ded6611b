import Strongbox.Codec.Typed

/-!
# The call stack of writing typed JSON

Writing a value as typed JSON walks it with nested calls, within a budget of calls that the
walk shares with its callers: the units left when the walk of a value begins. A call into a
function holds a unit until it returns, and resuming a generator holds one more while it runs.
A comparison of two different classes, a test of a value against a tuple of classes, a call of
an object without a fast calling convention, the taking of a representation and the entering
of a level of a JSON document each need a unit for a moment. A step that finds no unit left
raises a recursion error whose message names the step, and the first step that runs short, in
the order of the walk, gives the error.

Every value is reached by two calls, and all but text are then compared with the primitive
classes. Lists and tuples hand their items five units fewer, and so does a dictionary, which
first checks each entry for whether it may be written, text keys in a first pass and the
others in a second. A key other than text, or text that starts with the key prefix, is written
as typed JSON of its own, eight units below its dictionary. A frozen set is written through its
reduction: after the checks of an object, its class, a tuple holding the list of its elements,
and three empty parts are each reached by a call from outside, six units below the set.
-/

namespace Strongbox

namespace TypedJson

/-- The step that ran short of units, by what the recursion error says of it. -/
inductive Shortfall where
  | call
  | comparison
  | instanceCheck
  | subclassCheck
  | callingObject
  | gettingRepr
  | encodingJson
  deriving DecidableEq, Repr

namespace Shortfall

/-- The text a shortfall adds to the recursion error's message. -/
def suffix : Shortfall → String
  | call => ""
  | comparison => " in comparison"
  | instanceCheck => " in __instancecheck__"
  | subclassCheck => " in __subclasscheck__"
  | callingObject => " while calling a Python object"
  | gettingRepr => " while getting the repr of an object"
  | encodingJson => " while encoding a JSON object"

/-- The recursion error's message. -/
def message (s : Shortfall) : String := "maximum recursion depth exceeded" ++ s.suffix

end Shortfall

/-- Steps in order, each needing at least its count of units, counted from the start of a
value's walk. -/
abbrev Steps := List (Nat × Shortfall)

/-- The first of the steps that finds fewer units than it needs, if any. -/
def needs (r : Nat) : Steps → Except Shortfall Unit
  | [] => .ok ()
  | (n, s) :: rest => if n ≤ r then needs r rest else .error s

/-- Reaching a value: the call of the flattener and of its body. -/
def reachSteps : Steps := [(1, .call), (2, .call)]

/-- A value other than text or bytes: compared with the primitive classes. -/
def primitiveSteps : Steps := reachSteps ++ [(3, .comparison)]

/-- Bytes: the three calls that encode them in base 64. -/
def bytesSteps : Steps := reachSteps ++ [(3, .call), (4, .call), (5, .call)]

/-- A value with parts: the depth count (a call, and a call holding a comparison), the cycle
test, and the choice of how to write it. -/
def containerSteps : Steps :=
  primitiveSteps ++ [(3, .call), (3, .call), (4, .call), (5, .comparison), (4, .call), (4, .call)]

/-- A list: the reference it takes, the call that writes it and the comprehension over its
items. -/
def listSteps : Steps := containerSteps ++ [(5, .call), (4, .call), (5, .call)]

/-- A tuple: compared with the list and dictionary classes, then the call that writes it and
the comprehension over its items. -/
def tupleSteps : Steps := containerSteps ++ [(5, .comparison), (4, .call), (5, .call)]

/-- A dictionary: compared with the list class, the reference it takes, the call that writes
it, and the generator of the first pass made and resumed. -/
def dictSteps : Steps :=
  containerSteps ++ [(5, .comparison), (5, .call), (4, .call), (5, .call), (5, .call), (6, .call)]

/-- The generator of the second pass of a dictionary, made and resumed. -/
def secondPassSteps : Steps := [(5, .call), (5, .call), (6, .call)]

/-- An object written through its reduction: the tests for a function and for an object, the
reference it takes, the call that writes it, the three tests for constructor arguments, and
the tests of whether it may be reduced. The test of whether its class is a collection may run
short without harm, as its failure is taken for a no; the steps after these need no more. -/
def reductionSteps : Steps :=
  containerSteps ++ [(5, .comparison), (5, .call), (6, .instanceCheck), (6, .call), (5, .call),
    (6, .instanceCheck), (4, .call), (5, .call), (5, .call), (6, .call), (6, .call), (6, .call),
    (6, .call), (7, .call), (8, .call), (8, .call), (8, .call), (8, .call), (9, .subclassCheck),
    (8, .instanceCheck), (8, .call)]

/-- A class reached as a value: the tests for a function, which take its representation since
a class can be called, the tests for an object and for a class, and the calls that name it. -/
def classSteps : Steps :=
  containerSteps ++ [(5, .comparison), (5, .call), (6, .instanceCheck), (6, .call),
    (7, .gettingRepr), (5, .call), (6, .instanceCheck), (5, .call), (4, .call), (5, .call),
    (6, .call)]

/-- A part of a reduction, reached by a call from outside: a unit for entering and one for the
frame. -/
def outsideCallSteps : Steps := [(6, .call)]

/-- Whether a key is a tag name, which the first pass drops before testing its value. -/
def isTagName : Value → Bool
  | .str k => reservedNames.contains k.toStringLossy
  | _ => false

/-- The checks of one entry in a pass: the call for the entry and the test of whether it may be
written, which for any key but a tag name tests the value for a function. -/
def entrySteps (k : Value) : Steps :=
  [(5, .call), (6, .call)] ++
    (if isTagName k then [] else [(7, .call), (8, .instanceCheck), (8, .call), (7, .call)])

/-- The calls down to a new flattening of a key written on its own, which flattens the key eight
units below its dictionary. -/
def keyFlattenSteps : Steps := [(6, .call), (7, .call), (8, .call)]

/-- The writer's calls for a key written on its own, after the key is flattened: for text
only the calls down to its escaping; for anything else also the encoder made and called, and
one unit for each level of the key's document. -/
def keyWriterSteps (k : Value) : Steps :=
  [(8, .call), (9, .call), (10, .call), (11, .call), (12, .call), (13, .call)] ++
    match k with
    | .str _ => []
    | _ => [(14, .call), (15, .callingObject), (15, .callingObject),
      (15 + (toJson k).nesting, .encodingJson)]

mutual
/-- Whether a value can be written with `r` units left when its walk begins. -/
def walk (r : Nat) : Value → Except Shortfall Unit
  | .str _ => needs r reachSteps
  | .bytes _ => needs r bytesSteps
  | .null | .bool _ | .int _ | .float _ => needs r primitiveSteps
  | .list items => do
    needs r listSteps
    walkItems (r - 5) items
  | .tuple items => do
    needs r tupleSteps
    walkItems (r - 5) items
  | .dict entries => do
    needs r dictSteps
    walkTextEntries r entries
    needs r secondPassSteps
    walkOtherEntries r entries
  | .frozenset items => do
    needs r reductionSteps
    needs r outsideCallSteps
    needs (r - 6) classSteps
    needs r outsideCallSteps
    needs (r - 6) tupleSteps
    needs (r - 11) listSteps
    walkItems (r - 16) items
    -- the three empty parts after the arguments need the same
    needs r outsideCallSteps
    needs (r - 6) primitiveSteps
  | .object _ => needs r reductionSteps

/-- The items of a sequence, each with `r` units. -/
def walkItems (r : Nat) : List Value → Except Shortfall Unit
  | [] => .ok ()
  | v :: rest => do
    walk r v
    walkItems r rest

/-- The first pass over a dictionary with `r` units: every entry is tested, and those with
text keys that are not tag names are written, a prefixed key first written on its own. -/
def walkTextEntries (r : Nat) : List (Value × Value) → Except Shortfall Unit
  | [] => .ok ()
  | (k, v) :: rest => do
    needs r (entrySteps k)
    match k with
    | .str t =>
      if !isTagName k then
        if hasKeyPrefix t then
          needs r keyFlattenSteps
          walk (r - 8) k
          needs r (keyWriterSteps k)
        walk (r - 5) v
    | _ => pure ()
    walkTextEntries r rest

/-- The second pass over a dictionary with `r` units: every entry is tested again, and those
with other keys are written, the key first on its own. -/
def walkOtherEntries (r : Nat) : List (Value × Value) → Except Shortfall Unit
  | [] => .ok ()
  | (k, v) :: rest => do
    needs r (entrySteps k)
    match k with
    | .str _ => pure ()
    | _ => do
      needs r keyFlattenSteps
      walk (r - 8) k
      needs r (keyWriterSteps k)
      walk (r - 5) v
    walkOtherEntries r rest
end

/-- The typed text of a value written with `calls` units left, or the message of the recursion
error that stops it. -/
def encodeWithin (calls : Nat) (v : Value) : Except String String :=
  match walk calls v with
  | .ok () => .ok (encode v)
  | .error s => .error s.message

end TypedJson

end Strongbox
