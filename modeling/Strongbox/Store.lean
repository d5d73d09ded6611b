import Strongbox.Failure

/-!
# Stores

A store holds spaces, and each space holds values at paths: text or bytes, with headers. Looking
into a space through a session creates it when it is missing, so a space once read, written or
listed stays, empty or not; the public read path creates nothing. Listings are sorted by code
point.
-/

namespace Strongbox

/-- What a store holds at a path. -/
inductive Data where
  | text (t : Text)
  | bytes (b : ByteArray)

namespace Data

/-- The data as a value. -/
def toValue : Data → Value
  | text t => .str t
  | bytes b => .bytes b

/-- The data a value gives: only text and bytes can be stored. -/
def ofValue : Value → Except Failure Data
  | .str t => .ok (text t)
  | .bytes b => .ok (bytes b)
  | v => .error (.storedValueType v.typeName)

/-- The data as text: bytes must be UTF-8. -/
def asText : Data → Except Failure Text
  | text t => .ok t
  | bytes b => match Text.decode? b with
    | some t => .ok t
    | none => .error .notUtf8

/-- Text data from a string. -/
def ofString (s : String) : Data := text (Text.ofString s)

end Data

/-- A stored value and its headers. -/
structure Stored where
  data : Data
  metadata : List (Value × Value) := []

/-- The stored value as named fields. -/
def Stored.toValue (s : Stored) : Value :=
  .dict [(Value.ofString "data", s.data.toValue), (Value.ofString "metadata", .dict s.metadata)]

/-- Spaces of bindings from paths to stored values. -/
structure Store where
  spaces : List (Text × List (Text × Stored)) := []

namespace Store

/-- Texts in code-point order. -/
def sortTexts (xs : List Text) : List Text := xs.mergeSort fun a b => !(Text.lt b a)

/-- The bindings of a space, if it exists. -/
def space? (s : Store) (name : Text) : Option (List (Text × Stored)) := s.spaces.lookup name

/-- The store with the space present. -/
def touch (s : Store) (name : Text) : Store :=
  if (s.space? name).isSome then s else ⟨s.spaces ++ [(name, [])]⟩

/-- The value at a path of a space. -/
def find? (s : Store) (space path : Text) : Option Stored :=
  (s.space? space).bind (·.lookup path)

/-- The store with the bindings of a space changed; the space is created first. -/
def modifySpace (s : Store) (name : Text) (f : List (Text × Stored) → List (Text × Stored)) :
    Store :=
  ⟨(s.touch name).spaces.map fun e => if e.1 == name then (e.1, f e.2) else e⟩

/-- The store with `v` at a path: a present path keeps its place. -/
def write (s : Store) (space path : Text) (v : Stored) : Store :=
  s.modifySpace space fun b =>
    if b.any (·.1 == path) then b.map (fun e => if e.1 == path then (path, v) else e)
    else b ++ [(path, v)]

/-- The store without a path; the space is created if missing. -/
def erase (s : Store) (space path : Text) : Store :=
  s.modifySpace space fun b => b.filter (·.1 != path)

/-- The sorted paths of a space. -/
def paths (s : Store) (space : Text) : List Text :=
  sortTexts (((s.space? space).getD []).map Prod.fst)

/-- The sorted paths of a space that start with a prefix, with or without it. -/
def listing (s : Store) (space pathPrefix : Text) (removePrefix : Bool) : List Text :=
  (s.paths space).filter (·.startsWith pathPrefix) |>.map fun p =>
    if removePrefix then p.drop pathPrefix.length else p

/-- The sorted names of the spaces. -/
def names (s : Store) : List Text := sortTexts (s.spaces.map Prod.fst)

/-- Every space and value, sorted. -/
def dump (s : Store) : Value :=
  .dict ((s.names).map fun n => (.str n, .dict ((s.paths n).filterMap fun p =>
    (s.find? n p).map fun v => (.str p, v.toValue))))

/-- Every space with its sorted paths. -/
def layout (s : Store) : Value :=
  .dict ((s.names).map fun n => (.str n, .list ((s.paths n).map .str)))

end Store

/-- A view of a store with a default space: an empty or missing space means the default. -/
structure Session where
  space : Text

namespace Session

/-- The space a call addresses. -/
def resolve (v : Session) (space : Option Text) : Text :=
  match space with
  | some s => if s.isEmpty then v.space else s
  | none => v.space

/-- Read a path; the space is created if missing. -/
def get (v : Session) (st : Store) (path : Text) (space : Option Text := none) :
    Option Stored × Store :=
  let n := v.resolve space
  (st.find? n path, st.touch n)

/-- Write a value. -/
def put (v : Session) (st : Store) (path : Text) (data : Data)
    (metadata : List (Value × Value) := []) (space : Option Text := none) : Store :=
  st.write (v.resolve space) path ⟨data, metadata⟩

/-- Remove a path. -/
def delete (v : Session) (st : Store) (path : Text) (space : Option Text := none) : Store :=
  st.erase (v.resolve space) path

/-- The sorted paths under a prefix; the space is created if missing. -/
def list (v : Session) (st : Store) (pathPrefix : Text) (space : Option Text := none)
    (removePrefix : Bool := false) : List Text × Store :=
  let n := v.resolve space
  (st.listing n pathPrefix removePrefix, st.touch n)

/-- Read a path of a named space without creating it. -/
def getPublic (st : Store) (space path : Text) : Option Stored := st.find? space path

end Session

end Strongbox
