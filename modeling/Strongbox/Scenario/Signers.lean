import Strongbox.Keys

/-!
# Signers of scenarios

The signers a scenario lends its vaults. Each answers a message with the message's digest,
HMAC-SHA512 under the signer's secret, written one of four ways, or with one fixed value, or
refuses; any of them can be set to refuse the messages that start with a given text.
-/

namespace Strongbox

/-- How a scenario's signer answers. -/
inductive SignerKind where
  /-- `0x`, the lowercase hex of the digest, and a recovery byte `1b`. -/
  | wallet
  /-- `0X` and the uppercase hex of the digest. -/
  | walletUpper
  /-- The digest bytes. -/
  | raw
  /-- The lowercase hex of the digest, with no prefix. -/
  | hex
  /-- Always the same value. -/
  | fixed (answer : Value)
  /-- Never signs. -/
  | refusing

/-- A signer as a scenario describes it. -/
structure SignerDescription where
  kind : SignerKind := .wallet
  secret : String := ""
  /-- Messages starting with this text are refused. -/
  refuseOn : Option Text := none
  /-- The reason a refusal gives. -/
  refusal : String := "signer refused"

namespace SignerDescription

/-- The digest of a message; a message that is not Unicode text has no UTF-8 to digest, and
the reason says only that. -/
def digest (s : SignerDescription) (message : Text) : Except String ByteArray :=
  match message.encode? with
  | some m => .ok (Hmac.mac Hmac.sha512 s.secret.toUTF8 m)
  | none => .error "<detail>"

/-- The signer described. -/
def toSigner (s : SignerDescription) : Signer where
  sign message :=
    let refused := match s.refuseOn with
      | some p => message.startsWith p
      | none => false
    if refused then .error s.refusal
    else match s.kind with
      | .wallet => (s.digest message).map fun d => Value.ofString ("0x" ++ Hex.toHex d ++ "1b")
      | .walletUpper => (s.digest message).map fun d => Value.ofString ("0X" ++ Hex.toHexUpper d)
      | .raw => (s.digest message).map .bytes
      | .hex => (s.digest message).map fun d => Value.ofString (Hex.toHex d)
      | .fixed v => .ok v
      | .refusing => .error s.refusal

end SignerDescription

end Strongbox
