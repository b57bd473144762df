import ServerWall.Webui.Routes

/-!
# Authentication of the management interface

The tokens that `captcha` and `login` (`serverwall-webui/src/routes/auth.rs`) sign with one key, told apart
by their fields (`validateJwt_captcha`, `verifyCaptcha_login`), and the middleware `auth`. A token that
verifies was in an answer of the interface (`Unforged`); under this hypothesis protected handlers run only
for logins and stored bearer tokens (`handled_only_authenticated`), up to the leeway on `exp`
(`expired_session_handled`). Captcha images and the other layers are left out.
-/

namespace ServerWall.Webui

open List Option

/-! ## Tokens -/

inductive JsonValue where
  | string (text : Text)
  | number (n : Nat)
  deriving DecidableEq

abbrev JsonObject := List (Text × JsonValue)

def stringField (object : JsonObject) (name : Text) : Option Text :=
  match object.lookup name with
  | some (.string text) => some text
  | _ => none

def numberField (object : JsonObject) (name : Text) : Option Nat :=
  match object.lookup name with
  | some (.number n) => some n
  | _ => none

structure Claims where
  sub : Text
  exp : Nat
  deriving DecidableEq

def Claims.toJson (claims : Claims) : JsonObject := [("sub", .string claims.sub), ("exp", .number claims.exp)]

def Claims.ofJson (object : JsonObject) : Option Claims := do
  let sub ← stringField object "sub"
  let exp ← numberField object "exp"
  return { sub, exp }

structure CaptchaClaims where
  answerHash : Text
  exp : Nat
  deriving DecidableEq

def CaptchaClaims.toJson (claims : CaptchaClaims) : JsonObject :=
  [("answer_hash", .string claims.answerHash), ("exp", .number claims.exp)]

def CaptchaClaims.ofJson (object : JsonObject) : Option CaptchaClaims := do
  let answerHash ← stringField object "answer_hash"
  let exp ← numberField object "exp"
  return { answerHash, exp }

/-- The libraries: `jsonwebtoken` with HS256, SHA-256 and Argon2. -/
structure Crypto where
  encode : Text → JsonObject → Option Text
  /-- The object of a text whose signature verifies. -/
  verify : Text → Text → Option JsonObject
  sha256Hex : Text → Text
  /-- The hash parses, and is that of the password. -/
  verifyPassword : Text → Text → Bool
  verify_encode : ∀ {secret object token}, encode secret object = some token → verify secret token = some object
  verify_empty : ∀ secret, verify secret [] = none

/-- `Validation::default()`: the seconds that a token is still taken after its `exp`. -/
def leeway : Nat := 60

section

variable (crypto : Crypto) (secret : Text)

def sign (object : JsonObject) : Text := (crypto.encode secret object).getD []

def decode {C : Type} (ofJson : JsonObject → Option C) (now : Nat) (token : Text) : Option C := do
  let object ← crypto.verify secret token
  let claims ← ofJson object
  let exp ← numberField object "exp"
  if now - leeway ≤ exp then some claims else none

def validateJwt (now : Nat) (token : Text) : Option Claims := decode crypto secret Claims.ofJson now token

def verifyCaptcha (now : Nat) (token answer : Text) : Bool := if token.isEmpty || answer.isEmpty then false
  else match decode crypto secret CaptchaClaims.ofJson now token with
    | some claims => crypto.sha256Hex (Text.trim answer) == claims.answerHash
    | none => false

end

/-! ## The public endpoints -/

structure UserEntry where
  (username passwordHash : Text)

structure TokenEntry where
  hash : Text

structure LoginRequest where
  (username password captchaToken captchaAnswer : Text)

structure LoginResponse where
  (token username : Text)
  deriving DecidableEq

/-- The result of the sum or difference asked for, of three random bytes. -/
def captchaAnswer (x y z : UInt8) : Nat :=
  let a := x.toNat % 15 + 1
  let b := y.toNat % 15 + 1
  if z.toNat % 2 = 0 then
    if b ≤ a then a - b else b - a
  else a + b

section

variable (crypto : Crypto) (secret : Text)

def captchaClaims (now : Nat) (x y z : UInt8) : CaptchaClaims where
  answerHash := crypto.sha256Hex (Text.dec (captchaAnswer x y z))
  exp := now + 5 * 60

def captcha (now : Nat) (x y z : UInt8) : Text := sign crypto secret (captchaClaims crypto now x y z).toJson

/-- The first user of the name decides; `none` where the file is not read. -/
def verifyWebUser (users : Option (List UserEntry)) (username password : Text) : Option Bool := users.map fun entries =>
    match entries.find? (·.username == username) with
    | some user => crypto.verifyPassword user.passwordHash password
    | none => false

def sessionClaims (now : Nat) (username : Text) : Claims where
  sub := username
  exp := now + 24 * 60 * 60

def login (now : Nat) (users : Option (List UserEntry)) (request : LoginRequest) :
    Except Text LoginResponse :=
  if !verifyCaptcha crypto secret now request.captchaToken request.captchaAnswer then
    .error "invalid captcha"
  else if verifyWebUser crypto users request.username request.password = some true then
    .ok { token := sign crypto secret (sessionClaims now request.username).toJson, username := request.username }
  else .error "invalid username or password"

end

/-! ## The middleware -/

/-- A request, as far as the router reads it. A header is `none` if there is none or it is no
text. -/
structure Request where
  method : Method
  path : Text
  (authorization cookie : Option Text := none)

def Request.bearer (request : Request) : Option Text := request.authorization.bind (Text.stripPrefix "Bearer ")

def Request.sessions (request : Request) : List Text :=
  match request.cookie with
  | none => []
  | some cookies => (cookies.splitOn ';').filterMap fun cookie => Text.stripPrefix "lg_session=" (Text.trim cookie)

def Request.presented (request : Request) : List Text := request.bearer.toList ++ request.sessions

inductive AuthOutcome where
  | next
  | redirect
  | unauthorized
  deriving DecidableEq

inductive Answer where
  | handled (route : Route)
  | notFound
  | forbidden
  | redirect
  | unauthorized
  | methodNotAllowed
  deriving DecidableEq

section

variable (crypto : Crypto) (secret : Text) (now : Nat) (tokens : Option (List TokenEntry))

/-- The token has a stored hash. No token has one where the file is not read. -/
def validateApiToken (token : Text) : Bool :=
  match tokens with
  | none => false
  | some entries => entries.any fun entry => crypto.verifyPassword entry.hash token

def auth (request : Request) : AuthOutcome := if exempt request.path then .next
  else if request.bearer.any fun token =>
      (validateJwt crypto secret now token).isSome || validateApiToken crypto tokens token then .next
  else if request.sessions.any fun token => (validateJwt crypto secret now token).isSome then .next
  else if List.isPrefixOf "/ui/" request.path && request.path != "/ui/login.html" then .redirect
  else .unauthorized

/-- The protected router. `waf_check` is the outer of its two layers, and both of them come before
the handler of the method is looked up. -/
def api (waf : Request → Bool) (request : Request) : Answer :=
  match apiRoutes.find? (·.matches request.path) with
  | none => .notFound
  | some route =>
    if waf request then .forbidden
    else match auth crypto secret now tokens request with
      | .next => if route.handles request.method then .handled route else .methodNotAllowed
      | .redirect => .redirect
      | .unauthorized => .unauthorized

end

/-! ## What was handed out -/

inductive Event where
  | captcha (now : Nat) (x y z : UInt8)
  | login (now : Nat) (users : Option (List UserEntry)) (request : LoginRequest)

def Event.token (crypto : Crypto) (secret : Text) : Event → Option Text
  | .captcha now x y z => some (Webui.captcha crypto secret now x y z)
  | .login now users request => (Webui.login crypto secret now users request).toOption.map LoginResponse.token

/-- If the signature verifies, the token was in an answer. -/
def Unforged (crypto : Crypto) (secret : Text) (history : List Event) (token : Text) : Prop :=
  (crypto.verify secret token).isSome → ∃ event ∈ history, event.token crypto secret = some token

/-- The token is the session of a login that verified the password of its user, and not past its
time, the leeway included. -/
def SessionOf (crypto : Crypto) (secret : Text) (history : List Event) (now : Nat) (token : Text) : Prop :=
  ∃ time users request, .login time users request ∈ history ∧
    login crypto secret time users request = .ok { token, username := request.username } ∧
    verifyWebUser crypto users request.username request.password = some true ∧
    now ≤ (sessionClaims time request.username).exp + leeway

def HashStored (crypto : Crypto) (tokens : Option (List TokenEntry)) (token : Text) : Prop :=
  ∃ entries, tokens = some entries ∧ ∃ entry ∈ entries, crypto.verifyPassword entry.hash token = true

section

variable {crypto : Crypto} {secret : Text} {C : Type} {ofJson : JsonObject → Option C}

theorem eq_of_verify_sign (h : crypto.verify secret (sign crypto secret object) = some object') : object' = object := by
  unfold sign at h
  cases he : crypto.encode secret object with
  | none =>
    rw [he, getD_none, crypto.verify_empty] at h
    cases h
  | some token =>
    rw [he, getD_some, crypto.verify_encode he] at h
    exact (some.inj h).symm

theorem decode_eq_some (h : decode crypto secret ofJson now token = some claims) :
    ∃ object exp, crypto.verify secret token = some object ∧ ofJson object = some claims ∧
      numberField object "exp" = some exp ∧ now ≤ exp + leeway := by
  simp only [decode, bind_eq_bind, bind_eq_some_iff] at h
  obtain ⟨object, hv, claims', hc, exp, hexp, hif⟩ := h
  split at hif
  · next hle =>
    cases hif
    exact ⟨object, exp, hv, hc, hexp, Nat.sub_le_iff_le_add.mp hle⟩
  · cases hif

theorem decode_sign_eq_none (h : ofJson object = none) (now : Nat) :
    decode crypto secret ofJson now (sign crypto secret object) = none := by
  rw [eq_none_iff_forall_ne_some]
  intro claims hd
  obtain ⟨object', _, hv, hc, _⟩ := decode_eq_some hd
  rw [eq_of_verify_sign hv, h] at hc
  cases hc

theorem validateJwt_captcha (now time : Nat) (x y z : UInt8) :
    validateJwt crypto secret now (captcha crypto secret time x y z) = none :=
  decode_sign_eq_none rfl now

theorem login_eq_ok (h : login crypto secret time users request = .ok response) :
    verifyWebUser crypto users request.username request.password = some true ∧
      response.token = sign crypto secret (sessionClaims time request.username).toJson ∧
      response.username = request.username := by
  unfold login at h
  split at h
  · cases h
  · split at h
    · next hu =>
      cases h
      exact ⟨hu, rfl, rfl⟩
    · cases h

theorem login_of_token (h : (Event.login time users request).token crypto secret = some token) :
    ∃ response, login crypto secret time users request = .ok response ∧ response.token = token := by
  unfold Event.token at h
  dsimp only at h
  cases hl : login crypto secret time users request with
  | ok response =>
    rw [hl] at h
    exact ⟨response, rfl, some.inj h⟩
  | error message =>
    rw [hl] at h
    cases h

theorem verifyCaptcha_login (h : login crypto secret time users request = .ok response) (now : Nat) (answer : Text) :
    verifyCaptcha crypto secret now response.token answer = false := by
  obtain ⟨_, ht, _⟩ := login_eq_ok h
  have hd : decode crypto secret CaptchaClaims.ofJson now response.token = none :=
    ht ▸ decode_sign_eq_none rfl now
  unfold verifyCaptcha
  rw [hd]
  exact ite_self false

end

section

variable {crypto : Crypto} {secret : Text} {history : List Event} {now : Nat}
  {tokens : Option (List TokenEntry)} {request : Request}

theorem sessionOf_of_validateJwt (hu : Unforged crypto secret history token)
    (h : (validateJwt crypto secret now token).isSome) : SessionOf crypto secret history now token := by
  obtain ⟨claims, hc⟩ := isSome_iff_exists.mp h
  obtain ⟨object, exp, hv, _, hexp, hnow⟩ := decode_eq_some hc
  obtain ⟨event, he, ht⟩ := hu (isSome_iff_exists.mpr ⟨object, hv⟩)
  cases event with
  | captcha time x y z =>
    cases ht
    rw [validateJwt_captcha] at hc
    cases hc
  | login time users login =>
    obtain ⟨response, hl, rfl⟩ := login_of_token ht
    obtain ⟨huse, hs, hus⟩ := login_eq_ok hl
    rw [hs] at hv
    rw [eq_of_verify_sign hv] at hexp
    cases hexp
    exact ⟨time, users, login, he, hus ▸ hl, huse, hnow⟩

theorem validateApiToken_iff : validateApiToken crypto tokens token ↔ HashStored crypto tokens token := by
  cases tokens with
  | none | some entries => simp [validateApiToken, HashStored]

theorem auth_eq_next (h : auth crypto secret now tokens request = .next) : exempt request.path ∨
      (∃ token ∈ request.presented, (validateJwt crypto secret now token).isSome) ∨
      ∃ token, request.bearer = some token ∧ HashStored crypto tokens token := by
  unfold auth at h
  split at h
  · next he => exact .inl he
  split at h
  · next hb =>
    obtain ⟨token, ht, hv⟩ := (any_eq_true _ _).mp hb
    obtain hjwt | hapi := Bool.or_eq_true_iff.mp hv
    · exact .inr (.inl ⟨token, mem_append_left _ (mem_toList.mpr ht), hjwt⟩)
    · exact .inr (.inr ⟨token, ht, validateApiToken_iff.mp hapi⟩)
  split at h
  · next hc =>
    obtain ⟨token, ht, hjwt⟩ := any_eq_true.mp hc
    exact .inr (.inl ⟨token, mem_append_right _ ht, hjwt⟩)
  split at h <;> cases h

theorem api_eq_handled (h : api crypto secret now tokens waf request = .handled route) :
    route ∈ apiRoutes ∧ route.matches request.path ∧ auth crypto secret now tokens request = .next := by
  unfold api at h
  split at h
  · cases h
  · next found hf =>
    split at h
    · cases h
    · split at h
      · next hn =>
        split at h
        · cases h
          exact ⟨mem_of_find?_eq_some hf, find?_some (p := fun r : Route => r.matches request.path) hf, hn⟩
        · cases h
      · cases h
      · cases h

end

/-- **Who reaches a protected route.** -/
theorem handled_only_authenticated (crypto : Crypto) (secret : Text) (history : List Event)
    (now : Nat) (tokens : Option (List TokenEntry)) (waf : Request → Bool) (request : Request) :
    ((∀ token ∈ request.presented, Unforged crypto secret history token) →
      ∀ route, api crypto secret now tokens waf request = .handled route →
        (∃ token ∈ request.presented, SessionOf crypto secret history now token) ∨
          ∃ token, request.bearer = some token ∧ HashStored crypto tokens token) ∧
    (∀ route ∈ apiRoutes, route.matches request.path = true → exempt request.path = false) ∧
    (∀ time x y z, validateJwt crypto secret now (captcha crypto secret time x y z) = none) ∧
    (∀ time users credentials response, login crypto secret time users credentials = .ok response →
        ∀ answer, verifyCaptcha crypto secret now response.token answer = false) := by
  refine ⟨?_, ?_, ?_, ?_⟩
  · intro hunforged route hhandled
    obtain ⟨hroute, hmatches, hnext⟩ := api_eq_handled hhandled
    obtain hexempt | ⟨token, htoken, hjwt⟩ | hstored := auth_eq_next hnext
    · cases (not_exempt_of_matches hroute hmatches).symm.trans hexempt
    · exact .inl ⟨token, htoken, sessionOf_of_validateJwt (hunforged token htoken) hjwt⟩
    · exact .inr hstored
  · intro route hroute hmatches
    exact not_exempt_of_matches hroute hmatches
  · intro time x y z
    exact validateJwt_captcha now time x y z
  · intro time users credentials response hlogin answer
    exact verifyCaptcha_login hlogin now answer

/-! ## A session of a day -/

/-- The two tokens of one login, and passwords that are their own hashes. -/
def Crypto.simple : Crypto where
  encode _ object := if object = (sessionClaims 1000 "admin").toJson then some "session"
    else if object = (CaptchaClaims.mk "2" 1200).toJson then some "captcha"
    else none
  verify _ token := if token = "session" then some (sessionClaims 1000 "admin").toJson
    else if token = "captcha" then some (CaptchaClaims.mk "2" 1200).toJson
    else none
  sha256Hex text := text
  verifyPassword hash password := hash == password
  verify_encode := by
    intro secret object token h
    split at h
    · cases h
      subst object
      rfl
    · split at h
      · cases h
        subst object
        rfl
      · cases h
  verify_empty _ := rfl

def oneLogin : List Event := [.captcha 900 0 0 1, .login 1000 (some [{ username := "admin", passwordHash := "secret" }])
      { username := "admin", password := "secret", captchaToken := "captcha", captchaAnswer := "2" }]

def statusRequest : Request where
  method := .get
  path := "/api/status"
  cookie := some "lg_session=session"

def statusRoute : Route := { path := ["status"], methods := [.get] }

theorem statusRequest_unforged : ∀ token ∈ statusRequest.presented, Unforged .simple "key" oneLogin token := by
  have hp : statusRequest.presented = [("session" : Text)] := by decide
  have ht : (oneLogin[1]).token .simple "key" = some ("session" : Text) := by decide
  intro token hmem _
  rw [hp, mem_singleton] at hmem
  exact ⟨oneLogin[1], .tail _ (.head _), hmem ▸ ht⟩

theorem status_handled : api .simple "key" 2000 none (fun _ => false) statusRequest = .handled statusRoute ∧
      ((∃ token ∈ statusRequest.presented, SessionOf .simple "key" oneLogin 2000 token) ∨
        ∃ token, statusRequest.bearer = some token ∧ HashStored .simple none token) :=
  have hhandled : api .simple "key" 2000 none (fun _ => false) statusRequest = .handled statusRoute := by decide
  ⟨hhandled, (handled_only_authenticated .simple "key" oneLogin 2000 none (fun _ => false)
    statusRequest).1 statusRequest_unforged statusRoute hhandled⟩

/-- At 87460, the only session there is has been past its time for a minute. -/
theorem expired_session_handled : (∀ token ∈ statusRequest.presented, Unforged .simple "key" oneLogin token) ∧
      api .simple "key" 87460 none (fun _ => false) statusRequest = .handled statusRoute ∧
      statusRequest.bearer = none ∧ ∀ time users credentials, .login time users credentials ∈ oneLogin →
        (sessionClaims time credentials.username).exp < 87460 := by
  refine ⟨statusRequest_unforged, by decide, rfl, ?_⟩
  intro time users credentials hmem
  obtain - | ⟨_, _ | ⟨_, hnil⟩⟩ := hmem
  · decide
  · cases hnil

end ServerWall.Webui
