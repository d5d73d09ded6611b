import Strongbox.Store
import Strongbox.Answer

/-!
# Store sessions

A sequence of calls on one in-memory store through a session, each call optionally through
another session of the same store. Every call has its own outcome; a failing call changes
nothing and does not stop the ones after it. The store's own failures are reported as they are:
a value that is neither text nor bytes, and stored bytes read as text that are not UTF-8.
-/

namespace Strongbox

/-- A call on an in-memory store. -/
inductive StoreCall where
  | put (path : Text) (value : Value) (metadata : List (Value × Value)) (space : Option Text)
  | get (path : Text) (space : Option Text)
  | getText (path : Text) (space : Option Text)
  | delete (path : Text) (space : Option Text)
  | list (pathPrefix : Text) (space : Option Text) (removePrefix : Bool)
  | getPublic (space : Option Text) (path : Text)
  | dump

/-- A call, through the session of another default space when one is named. -/
structure StoreStep where
  call : StoreCall
  session : Option Text := none

namespace StoreCall

/-- The stored value as an answer: null when absent. -/
def storedAnswer : Option Stored → Answer
  | some s => .value s.toValue
  | none => .value .null

/-- The outcome of a call and the store after it. -/
def run (v : Session) (st : Store) : StoreCall → Except Failure Answer × Store
  | put path value metadata space =>
    match Data.ofValue value with
    | .ok d => (.ok (.value .null), v.put st path d metadata space)
    | .error f => (.error f, st)
  | get path space =>
    let (found, st') := v.get st path space
    (.ok (storedAnswer found), st')
  | getText path space =>
    let (found, st') := v.get st path space
    match found with
    | none => (.ok (.value .null), st')
    | some s => ((s.data.asText).map (.value ∘ .str), st')
  | delete path space => (.ok (.value .null), v.delete st path space)
  | list pathPrefix space removePrefix =>
    let (paths, st') := v.list st pathPrefix space removePrefix
    (.ok (.value (.list (paths.map .str))), st')
  | getPublic space path =>
    (.ok (storedAnswer (space.bind fun s => Session.getPublic st s path)), st)
  | dump => (.ok (.value st.dump), st)

end StoreCall

/-- Run calls in order on a store whose default space is `home`, from an empty store; the
answer lists each call's outcome. -/
def runStoreSteps (home : Text) (steps : List StoreStep) : Answer :=
  let (outcomes, _) := steps.foldl (fun (acc : List (Except Failure Answer) × Store) step =>
    let session : Session := ⟨step.session.getD home⟩
    let (outcome, st) := step.call.run session acc.2
    (acc.1 ++ [outcome], st)) ([], {})
  .steps outcomes

end Strongbox
