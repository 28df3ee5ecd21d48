import RuseonCore.Api.Http

/-!
# Local authentication

Token checks of `pkg/auth/local.go`.  The JWT library is a parameter with the
contract that the checks rely on: a token that parses without an error has a
signature by the key which the key function returned, and is within its
validity.  It decodes claims into a map, so the branch for other claims does not
occur.
-/

namespace RuseonCore
namespace Auth

open Api

/-- Value of a JSON claim. -/
inductive ClaimValue
  | text (value : String)
  | number (value : Rat)
  | other
  deriving DecidableEq

/-- Signing algorithm of a token. -/
inductive SigningMethod
  | hmac (alg : String)
  | other (alg : String)
  deriving DecidableEq

/-- A token decoded without verification. -/
structure Token where
  method : SigningMethod
  claims : String → Option ClaimValue

/-- A time claim in seconds; zero counts as absent. -/
def numericDate : Option ClaimValue → Option Int
  | some (.number value) => if value = 0 then none else some value.floor
  | _ => none

/-- The time lies between the start and the expiry of the token, as far as it
has them. -/
structure Token.ValidAt (token : Token) (now : Rat) : Prop where
  unexpired : ∀ exp, numericDate (token.claims "exp") = some exp → now < exp
  started : ∀ nbf, numericDate (token.claims "nbf") = some nbf → nbf ≤ now

/-- The JWT library.  `parse` returns a token that is valid at the given time
and whose signature verifies under the key of the key function, or `none` with
an error. -/
structure Jwt where
  decode : String → Option Token
  verify : (tokenString key : String) → Bool
  parse : (keyFunc : Token → Except String String) → (now : Rat) →
    (tokenString : String) → Option Token
  parse_sound : ∀ keyFunc now tokenString token,
    parse keyFunc now tokenString = some token →
    decode tokenString = some token ∧
      (∃ key, keyFunc token = .ok key ∧ verify tokenString key = true) ∧
      token.ValidAt now

/-- An authenticator with the configured secret. -/
structure LocalAuthenticator where
  jwt : Jwt
  secret : String

namespace LocalAuthenticator

/-- Key for the verification; only HMAC signatures are accepted. -/
def keyFunc (a : LocalAuthenticator) (token : Token) : Except String String :=
  match token.method with
  | .hmac _ => .ok a.secret
  | .other alg => .error s!"unexpected signing method: {alg}"

/-- `StreamMiddleware` for a request with the given token and camera; `none`
passes the request on. -/
def streamMiddleware
    (a : LocalAuthenticator)
    (now : Rat)
    (tokenString requestedID : String) : Option Response :=
  if tokenString = "" then
    some (.error 401 "Missing stream token in query")
  else
    match a.jwt.parse a.keyFunc now tokenString with
    | none => some (.error 401 "Invalid or expired stream token")
    | some token =>
        match token.claims "stream_id" with
        | some (.text streamID) =>
            if streamID ≠ requestedID then
              some (.error 401
                "Stream token does not match the requested camera")
            else none
        | _ =>
            some (.error 401 ("Main API tokens are not allowed here. " ++
              "Please use a short-lived stream token."))

/-- The string is a stream token of the camera: HMAC-signed with the secret,
within its validity, and issued for this camera. -/
def IsStreamToken
    (a : LocalAuthenticator)
    (now : Rat)
    (tokenString id : String) : Prop :=
  tokenString ≠ "" ∧
    ∃ token, a.jwt.decode tokenString = some token ∧
      (∃ alg, token.method = .hmac alg) ∧
      a.jwt.verify tokenString a.secret = true ∧
      token.ValidAt now ∧
      token.claims "stream_id" = some (.text id)

/-- A key is only returned for HMAC signatures, and it is the secret. -/
theorem keyFunc_eq_ok
    {a : LocalAuthenticator}
    {token : Token}
    {key : String}
    (returned : a.keyFunc token = .ok key) :
    (∃ alg, token.method = .hmac alg) ∧ key = a.secret := by
  unfold keyFunc at returned
  cases method : token.method with
  | hmac alg =>
      rw [method, Except.ok.injEq] at returned
      exact ⟨⟨alg, rfl⟩, returned.symm⟩
  | other alg => simp [method] at returned

/-- The middleware passes only requests with a stream token of the requested
camera. -/
theorem isStreamToken_of_streamMiddleware
    {a : LocalAuthenticator}
    {now : Rat}
    {tokenString id : String}
    (passed : a.streamMiddleware now tokenString id = none) :
    a.IsStreamToken now tokenString id := by
  unfold streamMiddleware at passed
  split at passed
  · cases passed
  · rename_i present
    split at passed
    · cases passed
    · rename_i token parsed
      obtain ⟨decoded, ⟨key, returned, verified⟩, valid⟩ :=
        a.jwt.parse_sound _ _ _ _ parsed
      obtain ⟨signed, rfl⟩ := keyFunc_eq_ok returned
      split at passed
      · rename_i streamID issued
        have same : streamID = id := by simpa using passed
        exact ⟨present, token, decoded, signed, verified, valid, same ▸ issued⟩
      · cases passed

end LocalAuthenticator
end Auth
end RuseonCore
