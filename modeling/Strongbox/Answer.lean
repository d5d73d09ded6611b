import Strongbox.Failure

/-!
# Answers

What an operation gives back: a value, named parts, or the outcomes of a sequence of steps. A
part may itself be a failure, reported in place of the value it stands for, as when a record
reads but its blob does not decode.
-/

namespace Strongbox

/-- The answer of an operation. -/
inductive Answer where
  | value (v : Value)
  | failed (f : Failure)
  | fields (entries : List (String × Answer))
  | steps (outcomes : List (Except Failure Answer))

namespace Answer

/-- Bytes as an answer. -/
def bytes (b : ByteArray) : Answer := .value (.bytes b)

/-- Text as an answer. -/
def text (t : Text) : Answer := .value (.str t)

/-- Optional text as an answer: null when absent. -/
def text? : Option Text → Answer
  | some t => text t
  | none => .value .null

/-- An outcome as an answer, a failure in place of the value. -/
def ofExcept : Except Failure Answer → Answer
  | .ok a => a
  | .error f => .failed f

end Answer

/-- The reply to a request: its outcome, and the messages a signer was asked to sign when the
request used one. -/
structure Reply where
  outcome : Except Failure Answer
  messages : Option (List Text) := none

end Strongbox
