import Strongbox.Value.Basic

/-!
# Entry names

An entry is stored under a name that reads as a relative path: non-empty, at most 255
characters, no empty segment, no `.` or `..` segment, and none of the characters that end a
path in a URL (`?`, `#`) or separate one on other systems (`\`). The checks run in that order
and the first that fails names the failure.
-/

namespace Strongbox

/-- Why a value names no entry. -/
inductive NameError where
  | empty
  | tooLong
  | emptySegment
  | dotSegment
  | forbiddenCharacter
  deriving DecidableEq, Repr

namespace NameError

/-- What each failure says. -/
def message : NameError → String
  | empty => "Vault key cannot be empty"
  | tooLong => "Vault key cannot exceed 255 characters"
  | emptySegment => "Vault key must be a relative path without empty segments"
  | dotSegment => "Vault key cannot contain '.' or '..' segments"
  | forbiddenCharacter => "Vault key cannot contain any of '?#\\\\'"

end NameError

namespace EntryName

/-- The longest entry name, in characters. -/
def maxLength : Nat := 255

/-- The characters no entry name holds. -/
def forbidden : List Char := ['?', '#', '\\']

/-- The first rule that a text breaks, if any. -/
def check (name : Text) : Except NameError Text :=
  if name.isEmpty then .error .empty
  else if name.length > maxLength then .error .tooLong
  else if name.startsWith (Text.ofString "/") || name.endsWith (Text.ofString "/") ||
      name.contains (Text.ofString "//") then
    .error .emptySegment
  else if (name.splitOn '/').any (fun s => s == Text.ofString "." || s == Text.ofString "..") then
    .error .dotSegment
  else if forbidden.any name.hasPoint then .error .forbiddenCharacter
  else .ok name

/-- The entry name a value gives: only text can be one. -/
def ofValue : Value → Except NameError Text
  | .str t => check t
  | _ => .error .empty

end EntryName

end Strongbox
