import TimeOff.Requests.Controller

/-! # Bearer tokens

`jwt.service.js` and the guard of `auth.guard.js`: who calls is what the claims of a verified
token say, and the roles of the route decide whether the call goes on to its handler.
`jwtVerify` is the `verify` of the package: the time, the secret and a token, to the claims
of the token or the message of an error.
-/

set_option autoImplicit false

namespace TimeOff

/-- What the guard reads of a token; `roles` are there when the claim is an array. -/
structure Claims where
  sub : Option String
  roles : Option (List String)
  managerId : Option String

/-- What the guard throws. -/
inductive Refusal where
  | unauthorized (message : String)
  | domain (failure : Failure)
deriving DecidableEq, Repr

def Refusal.response : Refusal → Nat × ErrorBody
  | .unauthorized message => (401, ⟨"UNAUTHORIZED", message, []⟩)
  | .domain failure => failure.response

/-- `req.user`. -/
def Claims.user (claims : Claims) : Actor := ⟨claims.sub, claims.roles.getD [], claims.managerId⟩

section Verifying

variable (jwtVerify : Int → String → String → Except String Claims) (jwtSecret : String)

def JwtService.verify (now : Int) (token : String) : Except Refusal Claims :=
  (jwtVerify now jwtSecret token).mapError fun message => .unauthorized ("Invalid token: " ++ message)

namespace JwtAuthGuard

/-- What follows `Bearer ` in the header. -/
def bearer? (header : Option String) : Option String :=
  let scheme := "Bearer ".toList
  header.bind fun header =>
    if scheme.isPrefixOf header.toList then some (String.ofList (header.toList.drop scheme.length)) else none

def canActivate (now : Int) (requiredRoles : List String) (authorization : Option String) :
    Except Refusal Actor :=
  match bearer? authorization with
  | none => .error (.unauthorized "Missing bearer token")
  | some token => do
    let claims ← JwtService.verify jwtVerify jwtSecret now token
    (requireRoles requiredRoles claims.user).mapError Refusal.domain
    return claims.user

end JwtAuthGuard

end Verifying

end TimeOff
