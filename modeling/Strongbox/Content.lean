import Strongbox.Failure
import Strongbox.Encoding.Base64
import Strongbox.Codec.Typed.Read
import Strongbox.Codec.Typed.Stack
import Strongbox.Value.Literal

/-!
# Content

An entry records the content type of its plaintext, so any reader can turn the bytes back into
a value. Four formats are built in: compact JSON (also for every `+json` media type), typed JSON
that keeps tuples, sets, bytes and non-text keys, UTF-8 text (for every `text/` type), and raw
bytes. A content type is matched on its media type: the part before the first `;`, without
blanks, in lower case. Compact JSON writes bytes as a one-field object holding their base64
text, and reads such an object back as bytes.

Typed JSON is written and read by recursive walks that share a budget of nested calls with
their callers, so how deep a value may nest depends on who asks: a direct call leaves the
codec more of the budget than a vault, whose own calls stand between.
-/

namespace Strongbox

/-- A built-in content format. -/
inductive Format where
  | json
  | typed
  | text
  | binary
  deriving DecidableEq, Repr

namespace Format

/-- The media type that names a format. -/
def mediaType : Format → String
  | json => "application/json"
  | typed => "application/x-jsonpickle"
  | text => "text/plain"
  | binary => "application/octet-stream"

/-- The format a media type names exactly. -/
def ofMediaType? (m : Text) : Option Format :=
  [json, typed, text, binary].find? (Text.ofString ·.mediaType == m)

end Format

/-- Who writes or reads a value: a direct call, or a vault on the way to or from storage. -/
inductive Caller where
  | direct
  | vault
  deriving DecidableEq, Repr

namespace Caller

/-- The nested calls left to the typed writer when it starts on a value. -/
def writeCalls : Caller → Nat
  | direct => 991
  | vault => 982

/-- The nested calls left to the typed reader when it starts on a document. -/
def readCalls : Caller → Nat
  | direct => 990
  | vault => 981

end Caller

namespace Content

/-- The content type of values written without one. -/
def defaultType : String := Format.json.mediaType

/-- The media type of a content type: before the first `;`, without blanks, in lower case. -/
def mediaType (contentType : Text) : Text :=
  ((contentType.splitOn ';').headD contentType).trim.lower

/-- The built-in format that handles a content type, if any. -/
def formatFor? (contentType : Text) : Option Format :=
  let m := mediaType contentType
  match Format.ofMediaType? m with
  | some f => some f
  | none =>
    if m.endsWith (Text.ofString "+json") then some .json
    else if m.startsWith (Text.ofString "text/") then some .text
    else none

/-- The content type a value is written in when none is given: bytes are raw bytes, all else
JSON. -/
def guess : Value → Text
  | .bytes _ => Text.ofString Format.binary.mediaType
  | _ => Text.ofString defaultType

/-- The field under which compact JSON holds bytes. -/
def bytesField : String := "__vault_bytes_b64__"

/-- UTF-8 of text; text with a lone surrogate has none. -/
def utf8 (t : Text) : Except Failure ByteArray :=
  match t.encode? with
  | some b => .ok b
  | none => .error .surrogateText

/-- Compact JSON of a value; bytes go in their one-field object. -/
def writeJson (v : Value) : Except Failure ByteArray :=
  let v := match v with
    | .bytes b => .dict [(Value.ofString bytesField, Value.ofString (Base64.encode b))]
    | v => v
  match CompactJson.encode v with
  | .ok s => .ok s.toUTF8
  | .error e => .error (.unencodable e)

/-- The bytes that the payload of a bytes object gives, read leniently. -/
def bytesOfPayload : Value → Except Failure ByteArray
  | .str t => match Base64.decodePoints false t.points with
    | .ok b => .ok b
    | .error .nonAscii => .error .nonAsciiBase64
    | .error _ => .error .badBase64
  | v => .error (.base64Argument v.typeName)

/-- A value from compact JSON; a one-field bytes object gives its bytes. -/
def readJson (data : ByteArray) : Except Failure Value :=
  match CompactJson.decodeBytes data with
  | .error _ => .error .jsonSyntax
  | .ok (.dict [(.str k, payload)]) =>
    if k == Text.ofString bytesField then (bytesOfPayload payload).map .bytes
    else .ok (.dict [(.str k, payload)])
  | .ok v => .ok v

/-- Text of a value: bytes as they are, anything else as its display text in UTF-8. -/
def writeText : Value → Except Failure ByteArray
  | .bytes b => .ok b
  | v => utf8 v.display

/-- Raw bytes of a value: bytes as they are, text as UTF-8, nothing else. -/
def writeBinary : Value → Except Failure ByteArray
  | .bytes b => .ok b
  | .str t => utf8 t
  | v => .error (.binaryValueType v.typeName)

/-- The bytes of a value in a format, written for `caller`. -/
def write (v : Value) (caller : Caller) : Format → Except Failure ByteArray
  | .json => writeJson v
  | .typed => match TypedJson.encodeWithin caller.writeCalls v with
    | .ok s => .ok s.toUTF8
    | .error message => .error (.typedJson (some message))
  | .text => writeText v
  | .binary => writeBinary v

/-- The value that bytes in a format give. Typed JSON is read only when `allowTyped`, since
reading it can build any object the data names. -/
def read (data : ByteArray) (allowTyped : Bool) (caller : Caller) : Format → Except Failure Value
  | .json => readJson data
  | .typed =>
    if allowTyped then
      (TypedJson.decode data caller.readCalls).mapError fun e => match e with
        | .unreadable => .typedJson none
        | .raised message => .typedJson (some message)
        | .cyclic => .cyclicValue
    else .error .unsafeContent
  | .text => match Text.decode? data with
    | some t => .ok (.str t)
    | none => .error .notUtf8
  | .binary => .ok (.bytes data)

/-- The bytes of a value under a content type; a type no format handles is refused. -/
def serialize (v : Value) (contentType : Text) (caller : Caller) : Except Failure ByteArray :=
  match formatFor? contentType with
  | some f => write v caller f
  | none => .error (.noSerializer contentType.quoted)

/-- The value of bytes under a content type; under a type no format handles, the bytes
themselves. -/
def deserialize (data : ByteArray) (contentType : Text) (allowTyped : Bool) (caller : Caller) :
    Except Failure Value :=
  match formatFor? contentType with
  | some f => read data allowTyped caller f
  | none => .ok (.bytes data)

end Content

end Strongbox
