import Strongbox.Entry.Record

/-!
# Remote addresses

A vault's store can live behind HTTP. Each space has a key-value root at
`{base}/{space}/kv`, and the public root of a space at `{base}/public/{space}/kv`; a path is
appended after one more `/`. Spaces and paths are percent-encoded from their UTF-8, leaving
letters, digits and `_.-~/:@` as they are; a `.` or `..` segment is refused, since it would
move out of the space. The vault's headers come back as response headers whose lower-cased
name starts with `x-vault-`.
-/

namespace Strongbox

/-- A remote store: its base address and default space. -/
structure Endpoint where
  baseUrl : Text
  spaceId : Text

namespace Endpoint

/-- An endpoint, its base address without trailing slashes. -/
def make (baseUrl spaceId : Text) : Endpoint :=
  ⟨⟨(baseUrl.points.reverse.dropWhile (· = 0x2F)).reverse⟩, spaceId⟩

/-- Characters a path keeps as they are. -/
def unreserved (c : Nat) : Bool :=
  (0x61 ≤ c && c ≤ 0x7A) || (0x41 ≤ c && c ≤ 0x5A) || (0x30 ≤ c && c ≤ 0x39) ||
    "_.-~/:@".toList.contains (Char.ofNat c)

/-- `%XX` for a byte, in uppercase hexadecimal. -/
def percent (b : UInt8) : String := "%" ++ Hex.toHexUpper (ByteArray.mk #[b])

/-- A space or path in a URL. Dot segments are refused first; then the text must have a UTF-8
form, so a surrogate is refused. -/
def quote (segment : Text) : Except Failure Text :=
  if (segment.splitOn '/').any (fun p => p == Text.ofString "." || p == Text.ofString "..") then
    .error (.dotSegment segment.quoted)
  else if segment.points.any Text.isSurrogate then .error .surrogateText
  else
    .ok (Text.ofString (String.join (segment.points.map fun c =>
      if unreserved c then (Char.ofNat c).toString
      else String.join ((Text.utf8Point c).map percent))))

/-- The URL of a path in a space (the default space when none or empty), or of the space's
root when the path is empty. -/
def url (e : Endpoint) (space : Option Text) (path : Text := Text.ofString "")
    (publicRoot : Bool := false) : Except Failure Text := do
  let s ← quote (match space with
    | some s => if s.isEmpty then e.spaceId else s
    | none => e.spaceId)
  let root :=
    if publicRoot then e.baseUrl ++ Text.ofString "/public/" ++ s ++ Text.ofString "/kv"
    else e.baseUrl ++ Text.ofString "/" ++ s ++ Text.ofString "/kv"
  if path.isEmpty then pure root else pure (root ++ Text.ofString "/" ++ (← quote path))

/-- The vault headers among response headers, names lower-cased. The response headers are
a mapping first, so a repeated name keeps its first place and takes its last value; names
that differ only in case then meet when lower-cased, and the later one wins. -/
def metadata (headers : List (Text × Text)) : Headers :=
  (headers.foldl (fun (h : Headers) e => h.insert e.1 e.2) []).foldl (fun (h : Headers) e =>
    let k := e.1.lower
    if k.startsWith (Text.ofString Header.reservedPrefix) then h.insert k e.2 else h) []

end Endpoint

end Strongbox
