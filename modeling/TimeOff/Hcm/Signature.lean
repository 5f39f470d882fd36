import TimeOff.Lib.NumberString

/-! # Signed webhooks

`signature.util.js` signs the canonical string `timestamp.body`, and `signature.guard.js`
lets a request pass when its signature is that of its own timestamp and body.
`hmacSha256` is the HMAC of the host, from a secret and a text to a digest in hex.
-/

set_option autoImplicit false

namespace TimeOff

open TimeOff.Lib

/-- Five minutes. -/
def clockSkewMs : ℚ := 300000

def canonical (timestampMs : Number) (rawBody : String) : String :=
  timestampMs.toString ++ "." ++ rawBody

/-- `crypto.timingSafeEqual`, which throws on buffers of different lengths. -/
def timingSafeEqual (left right : ByteArray) : Option Bool :=
  if left.size = right.size then some (left.data = right.data) else none

structure InvalidSignatureError where
  httpStatus : Nat := 401
  code : String := "INVALID_SIGNATURE"
  message : String := "Invalid signature"
deriving DecidableEq

/-- What the guard reads of a request: `x-hcm-timestamp`, `x-hcm-signature`, the body as it was
received and, for a request without one that was kept, `JSON.stringify(req.body ?? {})`. -/
structure WebhookRequest where
  timestamp : Option String
  signature : Option String
  rawBody : Option String
  restringified : String

section Signing

variable (hmacSha256 : String → String → String)

def sign (secret : String) (timestampMs : Number) (rawBody : String) : String :=
  "sha256=" ++ hmacSha256 secret (canonical timestampMs rawBody)

def verify (secret : String) (timestampMs : Option String) (rawBody : String)
    (signature : Option String) (now : Double) : Bool :=
  let signature := signature.getD ""
  let timestampMs := timestampMs.getD ""
  if signature = "" ∨ timestampMs = "" then false
  else
    match stringToNumber timestampMs with
    | .finite tsNum =>
      if (now.minus tsNum).abs.exceeds clockSkewMs then false
      else
        let expected := sign hmacSha256 secret (.finite tsNum) rawBody
        (timingSafeEqual signature.toUTF8 expected.toUTF8).getD false
    | _ => false

def HcmSignatureGuard.canActivate (secret : String) (now : Double) (req : WebhookRequest) :
    Except InvalidSignatureError Bool :=
  let rawBody := req.rawBody.getD req.restringified
  if verify hmacSha256 secret req.timestamp rawBody req.signature now then .ok true
  else .error {}

end Signing

end TimeOff
