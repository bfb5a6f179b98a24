import SoloDock.Lib.Sha256
import SoloDock.Lib.Time

/-!
# Signed webhook requests

`webhook/protocol.rs`: the three headers of a request, their only accepted spelling,
and the check of timestamp and signature. SHA-256, HMAC and the JSON reader belong to
other crates and are the parameters of `Crypto`.
-/

namespace SoloDock.Webhook

open Lib

/-- The functions of other crates that the webhook protocol uses. -/
structure Crypto where
  sha256 : Bytes → Bytes
  hmacSha256 : Bytes → Bytes → Bytes
  /-- `serde_json::from_slice::<WebhookPayload>` succeeds. -/
  isPayload : Bytes → Bool

/-- The hash and the MAC of the program, with a reading of its payloads. -/
def Crypto.sha2 (isPayload : Bytes → Bool) : Crypto :=
  ⟨Sha256.sha256, Sha256.hmacSha256, isPayload⟩

def maxBodyBytes : Nat := 1024

def timestampWindowSeconds : Int := 300

inductive ProtocolError where
  | header | timestamp | signature | secret
deriving DecidableEq, Repr

structure VerifiedHeaders where
  timestamp : Int
  nonce : String
  nonceSha256 : Bytes
  signature : Bytes
deriving DecidableEq, Repr

/-- The bytes of a text. -/
def textBytes (text : String) : Bytes := text.toList.flatMap String.utf8EncodeChar

/-- The timestamp header: decimal digits without a leading zero, as an `i64`. -/
def parseTimestamp (timestamp : String) : Except ProtocolError Int :=
  let digits := timestamp.toList
  if digits = [] ∨ (1 < digits.length ∧ digits.head? = some '0') ∨ ¬digits.all Char.isDigit then
    .error .header
  else if decimalValue digits < 2 ^ 63 then .ok (decimalValue digits)
  else .error .header

/-- The nonce header: 16 bytes in canonical base64url. -/
def checkNonce (nonce : String) : Except ProtocolError Unit :=
  match decode64 nonce.toList with
  | none => .error .header
  | some decoded =>
    if decoded.length ≠ 16 ∨ encode64 decoded ≠ nonce.toList then .error .header else .ok ()

/-- What a signature header starts with. -/
def signatureVersion : List Char := "v1=".toList

/-- The signature header: `v1=` and 64 lowercase hexadecimal digits. -/
def parseSignature (signature : String) : Except ProtocolError Bytes :=
  if signatureVersion.isPrefixOf signature.toList then
    let digits := signature.toList.drop 3
    if digits.length ≠ 64 ∨ ¬digits.all isHexDigit then .error .header
    else .ok (unhex digits)
  else .error .header

variable (crypto : Crypto)

def parseHeaders (timestamp nonce signature : String) : Except ProtocolError VerifiedHeaders := do
  let timestamp ← parseTimestamp timestamp
  checkNonce nonce
  let signature ← parseSignature signature
  return { timestamp, nonce, nonceSha256 := crypto.sha256 (textBytes nonce), signature }

/-- `decode_secret`: 32 bytes in canonical base64url. -/
def decodeSecret (secret : String) : Except ProtocolError Bytes :=
  match decode64 secret.toList with
  | none => .error .secret
  | some decoded =>
    if decoded.length ≠ 32 ∨ encode64 decoded ≠ secret.toList then .error .secret
    else .ok decoded

def signingInput (appId : Uuid) (body : Bytes) (timestamp : Int) (nonce : String) : String :=
  "solodock-webhook-v1\n" ++ toString timestamp ++ "\n" ++ nonce ++ "\nPOST\n/hooks/v1/apps/"
    ++ uuidText appId ++ "/registry\n" ++ String.ofList (hex (crypto.sha256 body))

/-- `verify`: the timestamp is within the window of the whole second `now` lies in, and the
signature is the secret's. -/
def verify (appId : Uuid) (rawBody : Bytes) (headers : VerifiedHeaders) (secret : String)
    (now : Instant) : Except ProtocolError Unit := do
  if (now.unixTimestamp - headers.timestamp).natAbs > timestampWindowSeconds then
    .error .timestamp
  let decoded ← decodeSecret secret
  let input := signingInput crypto appId rawBody headers.timestamp headers.nonce
  if crypto.hmacSha256 decoded (textBytes input) ≠ headers.signature then
    .error .signature

end SoloDock.Webhook
