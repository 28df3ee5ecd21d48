import RuseonCore.Auth.Local
import RuseonCore.Storage.Users

/-!
# Tokens of users and of streams

Issue and use of tokens in `pkg/auth/local.go`.  `Login` and
`GenerateStreamToken` sign with one key, and the middlewares tell their tokens
apart by the `stream_id` claim alone.  Signing is a parameter, with the contract
that a signed token decodes to its claims and parses for the holder of the key
while it is valid.
-/

namespace RuseonCore
namespace Auth

open Api Storage

/-- Claims of a token to be signed, without repeated names. -/
abbrev Claims := List (String × ClaimValue)

/-- The token that `NewWithClaims` makes for HMAC-SHA256. -/
def newWithClaims (claims : Claims) : Token where
  method := .hmac "HS256"
  claims := fun name => claims.lookup name

/-- Signing by the JWT library. -/
structure Signer (jwt : Jwt) where
  signedString : (claims : Claims) → (key : String) → Option String
  nonempty : ∀ claims key tokenString,
    signedString claims key = some tokenString → tokenString ≠ ""
  decode_signed : ∀ claims key tokenString,
    signedString claims key = some tokenString →
    jwt.decode tokenString = some (newWithClaims claims)
  parse_signed : ∀ claims key tokenString,
    signedString claims key = some tokenString →
    ∀ keyFunc now, keyFunc (newWithClaims claims) = .ok key →
      (newWithClaims claims).ValidAt now →
      jwt.parse keyFunc now tokenString = some (newWithClaims claims)

instance (token : Token) (now : Rat) : Decidable (token.ValidAt now) :=
  decidable_of_iff
    ((∀ exp ∈ numericDate (token.claims "exp"), now < exp) ∧
      ∀ nbf ∈ numericDate (token.claims "nbf"), nbf ≤ now)
    ⟨fun both => ⟨both.1, both.2⟩, fun valid => ⟨valid.unexpired, valid.started⟩⟩

/-- Claims of a stream token: it starts in the second in which it is issued and
lives for a minute. -/
def streamClaims (cameraID : String) (now : Rat) : Claims :=
  [("stream_id", .text cameraID), ("iat", .number now.floor),
    ("nbf", .number now.floor), ("exp", .number (now + 60).floor)]

/-- Claims of a user's token, which lives for an hour. -/
def loginClaims (user : User) (now : Rat) : Claims :=
  [("username", .text user.username), ("role", .text user.role),
    ("exp", .number (now + 3600).floor)]

/-- Text of a claim; the failed type assertion leaves it empty. -/
def claimText : Option ClaimValue → String
  | some (.text value) => value
  | _ => ""

/-- Header of a request that carries a token. -/
def bearer (tokenString : String) : String := "Bearer " ++ tokenString

namespace LocalAuthenticator

/-- Issue a token for the playback of one camera. -/
def generateStreamToken
    (a : LocalAuthenticator)
    (signer : Signer a.jwt)
    (now : Rat)
    (cameraID : String) : Option String :=
  signer.signedString (streamClaims cameraID now) a.secret

/-- Check credentials and issue a token; a body that does not bind is `none`.
The comparison of a password with its hash is a parameter. -/
def login
    (a : LocalAuthenticator)
    (signer : Signer a.jwt)
    (matchesHash : (passwordHash password : String) → Bool)
    (store : UserStore)
    (now : Rat)
    (req : Option (String × String)) : Except Response String :=
  match req with
  | none => .error (.error 400 "Invalid input")
  | some (username, password) =>
      if username = "" then .error (.error 401 "Invalid credentials")
      else
        match store.getUser username with
        | .error _ => .error (.error 401 "Invalid credentials")
        | .ok user =>
            if !matchesHash user.passwordHash password then
              .error (.error 401 "Invalid credentials")
            else
              match signer.signedString (loginClaims user now) a.secret with
              | none => .error (.error 500 "Failed to generate token")
              | some tokenString => .ok tokenString

/-- The checks of `Middleware` on a token that parsed.  The store may be
missing. -/
def checkClaims (store : Option UserStore) (token : Token) :
    Except Response (String × String) :=
  if (token.claims "stream_id").isSome then
    .error (.error 401 "Stream tokens are not valid for API access")
  else
    let username := claimText (token.claims "username")
    let tokenRole := claimText (token.claims "role")
    match store with
    | none => .ok (username, tokenRole)
    | some store =>
        match store.getUser username with
        | .error _ => .error (.error 401 "User no longer exists")
        | .ok user =>
            if user.role ≠ tokenRole then
              .error (.error 401 "User role has changed, please login again")
            else .ok (username, tokenRole)

/-- `Middleware` for a request with the given header: the username and role it
hands on, or the answer with which it ends the request. -/
def middleware
    (a : LocalAuthenticator)
    (store : Option UserStore)
    (now : Rat)
    (authHeader : String) : Except Response (String × String) :=
  if authHeader = "" ∨ ¬ "Bearer ".toList <+: authHeader.toList then
    .error (.error 401 "Unauthorized")
  else
    let tokenString := String.ofList (authHeader.toList.drop "Bearer ".length)
    if tokenString = "" then .error (.error 401 "Unauthorized")
    else
      match a.jwt.parse a.keyFunc now tokenString with
      | none => .error (.error 401 "Invalid or expired token")
      | some token => checkClaims store token

end LocalAuthenticator

/-- `RequireRole` for the role found in the request's context; `none` passes the
request on. -/
def requireRole (allowedRoles : List Role) (userRole : Option String) :
    Option Response :=
  match userRole with
  | none => some (.error 403 "Role not found")
  | some roleStr =>
      if roleStr ∈ allowedRoles then none
      else some (.error 403 "Insufficient permissions")

/-- `Middleware` followed by `RequireRole`. -/
def LocalAuthenticator.authorize
    (a : LocalAuthenticator)
    (store : Option UserStore)
    (now : Rat)
    (authHeader : String)
    (allowedRoles : List Role) : Option Response :=
  match a.middleware store now authHeader with
  | .error response => some response
  | .ok (_, role) => requireRole allowedRoles (some role)

/-- A request passes if its role is an allowed one. -/
theorem LocalAuthenticator.authorize_eq_none
    (a : LocalAuthenticator)
    (store : Option UserStore)
    (now : Rat)
    (authHeader : String)
    (allowedRoles : List Role) :
    a.authorize store now authHeader allowedRoles = none ↔
      ∃ identity, a.middleware store now authHeader = .ok identity ∧
        identity.2 ∈ allowedRoles := by
  unfold authorize
  cases a.middleware store now authHeader with
  | error response => simp
  | ok identity => simp [requireRole]

/-! ## Validity of issued tokens -/

/-- A time in whole seconds is read back as it was written, except for zero. -/
theorem numericDate_number (seconds : Int) :
    numericDate (some (.number seconds)) =
      if seconds = 0 then none else some seconds := by
  simp [numericDate]

/-- A stream token is valid from the second of its issue on, for sixty seconds;
a claim of zero seconds would count as absent. -/
theorem validAt_streamClaims
    (cameraID : String)
    {issued now : Rat}
    (late : 0 < issued.floor) :
    (newWithClaims (streamClaims cameraID issued)).ValidAt now ↔
      issued.floor ≤ now ∧ now < issued.floor + 60 := by
  have expiry : (issued + 60).floor = issued.floor + 60 := by
    exact_mod_cast Rat.floor_add_intCast (x := issued) (y := 60)
  have dated : numericDate ((newWithClaims (streamClaims cameraID issued)).claims
      "exp") = some (issued.floor + 60) := by
    change numericDate (some (.number (issued + 60).floor)) = _
    rw [numericDate_number, expiry, if_neg (by omega)]
  have begun : numericDate ((newWithClaims (streamClaims cameraID issued)).claims
      "nbf") = some issued.floor := by
    change numericDate (some (.number issued.floor)) = _
    rw [numericDate_number, if_neg (by omega)]
  constructor
  · intro valid
    refine ⟨valid.started _ begun, ?_⟩
    exact_mod_cast valid.unexpired _ dated
  · rintro ⟨started, unexpired⟩
    refine ⟨fun exp found => ?_, fun nbf found => ?_⟩
    · rw [← Option.some.inj (dated.symm.trans found)]
      exact_mod_cast unexpired
    · rw [← Option.some.inj (begun.symm.trans found)]
      exact started

/-- A user's token is valid until an hour after the second of its issue. -/
theorem validAt_loginClaims
    (user : User)
    {issued now : Rat}
    (late : 0 < issued.floor) :
    (newWithClaims (loginClaims user issued)).ValidAt now ↔
      now < issued.floor + 3600 := by
  have expiry : (issued + 3600).floor = issued.floor + 3600 := by
    exact_mod_cast Rat.floor_add_intCast (x := issued) (y := 3600)
  have dated : numericDate ((newWithClaims (loginClaims user issued)).claims
      "exp") = some (issued.floor + 3600) := by
    change numericDate (some (.number (issued + 3600).floor)) = _
    rw [numericDate_number, expiry, if_neg (by omega)]
  constructor
  · intro valid
    exact_mod_cast valid.unexpired _ dated
  · intro unexpired
    refine ⟨fun exp found => ?_, fun nbf found => ?_⟩
    · rw [← Option.some.inj (dated.symm.trans found)]
      exact_mod_cast unexpired
    · cases found

namespace LocalAuthenticator

section Signed

variable {a : LocalAuthenticator}
variable (signer : Signer a.jwt)
variable {claims : Claims}
variable {tokenString : String}

include signer

/-- What was signed with the secret parses while it is valid, and as what was
signed. -/
theorem parse_signed_iff
    (signed : signer.signedString claims a.secret = some tokenString)
    (now : Rat)
    (token : Token) :
    a.jwt.parse a.keyFunc now tokenString = some token ↔
      token = newWithClaims claims ∧ (newWithClaims claims).ValidAt now := by
  constructor
  · intro parsed
    obtain ⟨decoded, _, valid⟩ := a.jwt.parse_sound _ _ _ _ parsed
    rw [signer.decode_signed _ _ _ signed, Option.some.injEq] at decoded
    subst token
    exact ⟨rfl, valid⟩
  · rintro ⟨rfl, valid⟩
    exact signer.parse_signed _ _ _ signed a.keyFunc now rfl valid

/-- `StreamMiddleware` admits what was signed for the requested camera. -/
theorem streamMiddleware_signed
    (signed : signer.signedString claims a.secret = some tokenString)
    (now : Rat)
    (requestedID : String) :
    a.streamMiddleware now tokenString requestedID = none ↔
      claims.lookup "stream_id" = some (.text requestedID) ∧
        (newWithClaims claims).ValidAt now := by
  have nonempty := signer.nonempty _ _ _ signed
  rw [streamMiddleware, if_neg nonempty]
  cases parsed : a.jwt.parse a.keyFunc now tokenString with
  | none =>
      refine iff_of_false (by simp) ?_
      rintro ⟨_, valid⟩
      rw [(parse_signed_iff signer signed now _).mpr ⟨rfl, valid⟩] at parsed
      cases parsed
  | some token =>
      obtain ⟨rfl, valid⟩ := (parse_signed_iff signer signed now token).mp parsed
      rw [and_iff_left valid]
      have found : (newWithClaims claims).claims "stream_id" =
          claims.lookup "stream_id" := rfl
      simp only [found]
      cases claims.lookup "stream_id" with
      | none => simp
      | some value =>
          cases value with
          | text streamID => simp
          | number _ => simp
          | other => simp

/-- `Middleware` checks the claims of what was signed, while it is valid. -/
theorem middleware_signed
    (signed : signer.signedString claims a.secret = some tokenString)
    (store : Option UserStore)
    (now : Rat)
    (identity : String × String) :
    a.middleware store now (bearer tokenString) = .ok identity ↔
      (newWithClaims claims).ValidAt now ∧
        checkClaims store (newWithClaims claims) = .ok identity := by
  have nonempty := signer.nonempty _ _ _ signed
  have header : (bearer tokenString).toList =
      "Bearer ".toList ++ tokenString.toList := String.toList_append
  have carried : String.ofList ((bearer tokenString).toList.drop "Bearer ".length) =
      tokenString := by
    rw [header, ← String.length_toList, List.drop_left, String.ofList_toList]
  have present : ¬ (bearer tokenString = "" ∨
      ¬ "Bearer ".toList <+: (bearer tokenString).toList) := by
    rw [header]
    simp [bearer]
  rw [middleware, if_neg present]
  simp only [carried, if_neg nonempty]
  cases parsed : a.jwt.parse a.keyFunc now tokenString with
  | none =>
      refine iff_of_false (by simp) ?_
      rintro ⟨valid, _⟩
      rw [(parse_signed_iff signer signed now _).mpr ⟨rfl, valid⟩] at parsed
      cases parsed
  | some token =>
      obtain ⟨rfl, valid⟩ := (parse_signed_iff signer signed now token).mp parsed
      rw [and_iff_right valid]

end Signed

/-- The claims of a stream token are refused. -/
theorem checkClaims_streamClaims
    (store : Option UserStore)
    (cameraID : String)
    (issued : Rat) :
    checkClaims store (newWithClaims (streamClaims cameraID issued)) =
      .error (.error 401 "Stream tokens are not valid for API access") := rfl

/-- The claims of a user's token are accepted while the store holds the user
with the role of the token. -/
theorem checkClaims_loginClaims
    (store : UserStore)
    (user : User)
    (issued : Rat)
    (identity : String × String) :
    checkClaims (some store) (newWithClaims (loginClaims user issued)) =
        .ok identity ↔
      identity = (user.username, user.role) ∧
        ∃ current, store.getUser user.username = .ok current ∧
          current.role = user.role := by
  have username : claimText ((newWithClaims (loginClaims user issued)).claims
      "username") = user.username := rfl
  have role : claimText ((newWithClaims (loginClaims user issued)).claims
      "role") = user.role := rfl
  have unstreamed : ((newWithClaims (loginClaims user issued)).claims
      "stream_id").isSome = false := rfl
  simp only [checkClaims, unstreamed, username, role]
  cases store.getUser user.username with
  | error error => simp
  | ok current =>
      by_cases same : current.role = user.role
      · simp [same, eq_comm]
      · simp [same]

/-- A token from `Login` was signed for a user that the store held then. -/
theorem signed_of_login
    {a : LocalAuthenticator}
    {signer : Signer a.jwt}
    {matchesHash : String → String → Bool}
    {store : UserStore}
    {now : Rat}
    {req : Option (String × String)}
    {tokenString : String}
    (issued : a.login signer matchesHash store now req = .ok tokenString) :
    ∃ user, store.getUser user.username = .ok user ∧
      req.map Prod.fst = some user.username ∧
      signer.signedString (loginClaims user now) a.secret = some tokenString := by
  unfold login at issued
  split at issued
  · cases issued
  · rename_i username password
    split at issued
    · cases issued
    · split at issued
      · cases issued
      · rename_i user found
        split at issued
        · cases issued
        · split at issued
          · cases issued
          · rename_i signedString signed
            have own := store.keyed username user found
            rw [← Except.ok.inj issued]
            exact ⟨user, by rw [own]; exact found, by rw [own]; rfl, signed⟩

end LocalAuthenticator

open LocalAuthenticator

/-- The two kinds of tokens do not stand in for each other, whenever they are
issued and used and whatever the store then holds.  A token from
`GenerateStreamToken` is never admitted by `Middleware`, and by
`StreamMiddleware` exactly for its own camera while it is valid.  A token from
`Login` is never admitted by `StreamMiddleware`, and by `Middleware` and
`RequireRole` exactly if it is valid and the store holds its user with its role,
which is among the allowed ones.  Unless the clock stood at the epoch when they
were issued, the validity lasts a minute and an hour. -/
theorem tokens_separated
    (a : LocalAuthenticator)
    (signer : Signer a.jwt)
    (issued now : Rat)
    (store : UserStore) :
    (∀ x tokenString, a.generateStreamToken signer issued x = some tokenString →
      (∀ identity,
        a.middleware (some store) now (bearer tokenString) ≠ .ok identity) ∧
      (∀ y, a.streamMiddleware now tokenString y = none ↔
        x = y ∧ (newWithClaims (streamClaims x issued)).ValidAt now) ∧
      (0 < issued.floor →
        ((newWithClaims (streamClaims x issued)).ValidAt now ↔
          issued.floor ≤ now ∧ now < issued.floor + 60))) ∧
    (∀ matchesHash before req tokenString,
      a.login signer matchesHash before issued req = .ok tokenString →
      (∀ y, a.streamMiddleware now tokenString y ≠ none) ∧
      ∃ user, before.getUser user.username = .ok user ∧
        req.map Prod.fst = some user.username ∧
        (∀ allowedRoles,
          a.authorize (some store) now (bearer tokenString) allowedRoles = none ↔
            (newWithClaims (loginClaims user issued)).ValidAt now ∧
            (∃ current, store.getUser user.username = .ok current ∧
              current.role = user.role) ∧
            user.role ∈ allowedRoles) ∧
        (0 < issued.floor →
          ((newWithClaims (loginClaims user issued)).ValidAt now ↔
            now < issued.floor + 3600))) := by
  constructor
  · intro x tokenString signed
    refine ⟨fun identity passed => ?_, fun y => ?_, validAt_streamClaims x⟩
    · have checked := ((middleware_signed signer signed _ _ _).mp passed).2
      rw [checkClaims_streamClaims] at checked
      cases checked
    · rw [streamMiddleware_signed signer signed]
      simp [streamClaims]
  · intro matchesHash before req tokenString loggedIn
    obtain ⟨user, held, named, signed⟩ := signed_of_login loggedIn
    refine ⟨fun y admitted => ?_, user, held, named, fun allowedRoles => ?_,
      validAt_loginClaims user⟩
    · have claimed := ((streamMiddleware_signed signer signed _ _).mp admitted).1
      cases claimed
    · rw [authorize_eq_none]
      simp only [middleware_signed signer signed, checkClaims_loginClaims]
      constructor
      · rintro ⟨identity, ⟨valid, rfl, held⟩, allowed⟩
        exact ⟨valid, held, allowed⟩
      · rintro ⟨valid, held, allowed⟩
        exact ⟨(user.username, user.role), ⟨valid, rfl, held⟩, allowed⟩

/-- Claims of two sample tokens, one of a camera and one of a user. -/
def sampleClaims : String → Option Claims
  | "stream" => some (streamClaims "cam" 100)
  | "user" =>
      some (loginClaims
        { username := "ann", passwordHash := "", role := roleViewer } 100)
  | _ => none

/-- A library that knows the sample tokens and their key only. -/
def samplesJwt : Jwt where
  decode tokenString := (sampleClaims tokenString).map newWithClaims
  verify tokenString key := (sampleClaims tokenString).isSome && key == "secret"
  parse keyFunc now tokenString :=
    ((sampleClaims tokenString).map newWithClaims).filter fun token =>
      (keyFunc token).toOption == some "secret" && decide (token.ValidAt now)
  parse_sound := by
    intro keyFunc now tokenString token parsed
    obtain ⟨decoded, checked⟩ := Option.filter_eq_some_iff.mp parsed
    rw [Bool.and_eq_true, beq_iff_eq, decide_eq_true_iff] at checked
    refine ⟨decoded, ⟨"secret", ?_, ?_⟩, checked.2⟩
    · cases returned : keyFunc token with
      | error text => simp [returned, Except.toOption] at checked
      | ok key => simpa [returned, Except.toOption] using checked.1
    · obtain ⟨claims, found, _⟩ := Option.map_eq_some_iff.mp decoded
      simp [found]

/-- Signing of the sample tokens. -/
def samplesSigner : Signer samplesJwt where
  signedString claims key :=
    ["stream", "user"].find? fun tokenString =>
      sampleClaims tokenString == some claims && key == "secret"
  nonempty := by
    intro claims key tokenString signed
    have listed := List.mem_of_find?_eq_some signed
    rintro rfl
    simp at listed
  decode_signed := by
    intro claims key tokenString signed
    have found := List.find?_some signed
    rw [Bool.and_eq_true, beq_iff_eq] at found
    simp [samplesJwt, found.1]
  parse_signed := by
    intro claims key tokenString signed keyFunc now keyed valid
    have found := List.find?_some signed
    rw [Bool.and_eq_true, beq_iff_eq, beq_iff_eq] at found
    simp [samplesJwt, found.1, keyed, found.2, valid, Except.toOption,
      Option.filter_some]

/-- Thirty seconds after its issue a stream token opens its own camera only, and
a viewer who was made an operator has to log in again. -/
theorem tokens_separated_samples :
    let a : LocalAuthenticator := { jwt := samplesJwt, secret := "secret" }
    let ann : User := { username := "ann", passwordHash := "", role := roleViewer }
    let before := UserStore.empty.saveUser ann
    let store := before.saveUser { ann with role := roleOperator }
    a.generateStreamToken samplesSigner 100 "cam" = some "stream" ∧
    a.login samplesSigner (fun _ _ => true) before 100 (some ("ann", "")) =
      .ok "user" ∧
    a.streamMiddleware 130 "stream" "cam" = none ∧
    a.streamMiddleware 130 "stream" "yard" ≠ none ∧
    a.authorize (some before) 130 (bearer "user") [roleViewer] = none ∧
    a.authorize (some store) 130 (bearer "user") [roleViewer, roleOperator] ≠
      none := by
  intro a ann before store
  have streamed : a.generateStreamToken samplesSigner 100 "cam" = some "stream" := by
    decide +kernel
  have loggedIn : a.login samplesSigner (fun _ _ => true) before 100
      (some ("ann", "")) = .ok "user" := by
    decide +kernel
  have late : 0 < (100 : Rat).floor := by decide +kernel
  have annHeld : before.getUser "ann" = .ok ann := by
    simp [before, UserStore.getUser, UserStore.saveUser, ann]
  have isAnn : ∀ user : User, before.getUser user.username = .ok user →
      some "ann" = some user.username → user = ann := by
    intro user held named
    rw [← Option.some.inj named, annHeld] at held
    exact (Except.ok.inj held).symm
  obtain ⟨_, admitted, window⟩ :=
    (tokens_separated a samplesSigner 100 130 before).1 "cam" "stream" streamed
  have valid := (window late).mpr (by decide +kernel)
  refine ⟨streamed, loggedIn, (admitted "cam").mpr ⟨rfl, valid⟩, ?_, ?_, ?_⟩
  · exact fun passed => absurd ((admitted "yard").mp passed).1 (by decide)
  · obtain ⟨_, user, held, named, passes, hour⟩ :=
      (tokens_separated a samplesSigner 100 130 before).2 _ before _ "user" loggedIn
    have own := isAnn user held named
    subst own
    exact (passes _).mpr ⟨(hour late).mpr (by decide +kernel), ⟨ann, held, rfl⟩,
      by decide⟩
  · obtain ⟨_, user, held, named, passes, _⟩ :=
      (tokens_separated a samplesSigner 100 130 store).2 _ before _ "user" loggedIn
    have own := isAnn user held named
    subst own
    intro passed
    obtain ⟨_, ⟨current, found, same⟩, _⟩ := (passes _).mp passed
    have operator : store.getUser "ann" = .ok { ann with role := roleOperator } := by
      simp [store, UserStore.getUser, UserStore.saveUser, ann]
    rw [operator, Except.ok.injEq] at found
    rw [← found] at same
    exact absurd same (by decide)

end Auth
end RuseonCore
