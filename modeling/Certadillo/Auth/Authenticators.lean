/-
Authentication (`auth/`, `api/deps.py` and `services.py`): from a request's headers to the actor it acts as.

- `credential`: what the headers present.
- `authenticate`: an API key, looked up by its hash; the row must be active and carry a valid seal.
- `OidcValidator`: a token's claims to a role; checking the token itself is PyJWT's, given as `decode`.
- `authenticateRequest`: the authenticators in turn; the first that knows the caller decides.
-/
import Certadillo.Discovery.Reports

namespace Certadillo.Auth

open Integrity Policy Py

/-! ## Credentials -/

/-- what the request presented -/
structure Credential where
  apiKey : Option String
  bearer : Option String
deriving DecidableEq

/-- the parts of the HTTP layer: a header's lower-case form, and the text of a Basic credential -/
structure Http where
  lower : Chars → Chars
  b64decode : Chars → Option Chars

/-- `a or b`, of texts that may be missing -/
def orText (a b : Option String) : Option String := (a.filter (· ≠ "")).or b

/-- `_credential` -/
def credential (http : Http) (apiKey : Option String) (authorization : String) : Credential :=
  let auth := authorization.toList
  let low := http.lower auth
  if startsWith low "bearer ".toList then
    let tok := strip (auth.drop 7)
    if tok.count '.' = 2 && !startsWith tok "cdl_".toList then ⟨apiKey, some (String.ofList tok)⟩
    else ⟨orText apiKey (some (String.ofList tok)), none⟩
  else if startsWith low "basic ".toList then
    match http.b64decode (auth.drop 6) with
    | some text =>
      let pw := String.ofList (partition ':' text).2
      ⟨orText apiKey (if pw = "" then none else some pw), none⟩
    | none => ⟨apiKey, none⟩
  else ⟨apiKey, none⟩

/-! ## API keys -/

/-- the app of a credential, if it has one, is active -/
def appActive (d : Db) (appId : Option ℕ) : Bool :=
  match appId.filter (· ≠ 0) with
  | none => true
  | some id => ((d.apps.get id).map fun a => decide (a.status = .active)).getD false

/-- `Platform.authenticate` -/
def authenticate (env : Env) (d : Db) (rawKey : Option String) : Except Err (Option Actor) :=
  match rawKey.filter (· ≠ "") with
  | none => .ok none
  | some raw => do
    match ← oneOrNone d.principals fun p => p.keyHash = env.sha256 raw && p.active with
    | none => pure none
    | some (_, p) =>
      if verify env.st p && appActive d p.appId then pure (some ⟨p.name, p.role, p.appId⟩) else pure none

/-- `ApiKeyAuthenticator.authenticate` -/
def apiKeyAuthenticate (env : Env) (d : Db) (cred : Credential) : Except Err (Option Actor) :=
  authenticate env d (orText cred.apiKey (cred.bearer.filter fun b => startsWith b.toList "cdl_".toList))

/-! ## Tokens -/

structure OidcConfig where
  issuer : String
  audience : String
  jwksUri : String
  algorithms : List String
  usernameClaim : String
  roleClaim : String
  appClaim : String
  roleMap : List (String × String)
  clockSkew : ℤ

/-- the settings of the identity provider -/
structure OidcSettings where
  provider : Option String
  issuer : Option String
  audience : Option String
  jwksUri : Option String
  entraTenant : Option String
  vaultIssuer : Option String
  algorithms : List String
  usernameClaim : String
  roleClaim : String
  appClaim : String
  roleMap : List (String × String)
  clockSkew : ℤ

/-- a setting, if it is there and not empty -/
def present (v : Option String) : Option String := v.filter (· ≠ "")

def entraEndpoints (s : OidcSettings) (tenant : String) : Option String × Option String :=
  (orText s.issuer (some ("https://login.microsoftonline.com/" ++ tenant ++ "/v2.0")),
    orText s.jwksUri (some ("https://login.microsoftonline.com/" ++ tenant ++ "/discovery/v2.0/keys")))

def vaultEndpoints (s : OidcSettings) (issuer : String) : Option String × Option String :=
  let base := String.ofList (rstrip (· = '/') issuer.toList)
  (orText s.issuer (some base), orText s.jwksUri (some (base ++ "/.well-known/keys")))

/-- the issuer and the JWKS address of a provider, from its preset if there is one -/
def endpoints (lower : Chars → Chars) (s : OidcSettings) : Option String × Option String :=
  let provider := lower (s.provider.getD "").toList
  match if provider = "entra".toList then present s.entraTenant else none with
  | some tenant => entraEndpoints s tenant
  | none =>
    match if provider = "vault".toList then present s.vaultIssuer else none with
    | some issuer => vaultEndpoints s issuer
    | none => (s.issuer, s.jwksUri)

/-- `x or y`, of texts -/
def textOr (x y : String) : String := if x = "" then y else x

/-- `oidc_config_from_settings` -/
def oidcConfigFromSettings (lower : Chars → Chars) (s : OidcSettings) : Option OidcConfig :=
  match present (endpoints lower s).1, present s.audience, present (endpoints lower s).2 with
  | some issuer, some audience, some jwksUri => some
    { issuer := issuer
      audience := audience
      jwksUri := jwksUri
      algorithms := if s.algorithms = [] then ["RS256"] else s.algorithms
      usernameClaim := textOr s.usernameClaim "sub"
      roleClaim := textOr s.roleClaim "roles"
      appClaim := textOr s.appClaim "app"
      roleMap := s.roleMap
      clockSkew := s.clockSkew }
  | _, _, _ => none

/-- the libraries: PyJWT's `decode` with the issuer's keys, and `str.isdigit` with `int` of such a text -/
structure Tokens where
  decode : OidcConfig → String → Except String Json
  digits : String → Option (Except Err ℕ)

/-- highest privilege first -/
def ROLE_PRIORITY : List Role := [.admin, .operator, .approver, .gateway, .auditor, .app]

/-- what `for v in values` goes through, of a claim -/
def valuesOf : Json → Except Err (List Json)
  | .str s => .ok [.str s]
  | .arr xs => .ok xs
  | .obj kvs => .ok (kvs.map fun p => .str p.1)
  | _ => .error (.type "object is not iterable")

/-- `role_map[v]`, if `v in role_map` -/
def mappedRole (cfg : OidcConfig) : Json → Except Err (Option String)
  | .str v => .ok (cfg.roleMap.lookup v)
  | .arr _ => .error (.type "unhashable type: 'list'")
  | .obj _ => .error (.type "unhashable type: 'dict'")
  | _ => .ok none

/-- the roles the claims map to -/
def mappedRoles (cfg : OidcConfig) (claims : Json) : Except Err (List String) := do
  let values ← valuesOf (← dgetOr claims cfg.roleClaim (.arr []))
  let roles ← values.mapM (mappedRole cfg)
  pure (roles.filterMap id)

/-- `role_for` -/
def roleFor (cfg : OidcConfig) (claims : Json) : Except Err (Option Role) := do
  let mapped ← mappedRoles cfg claims
  pure (ROLE_PRIORITY.find? fun r => mapped.contains r.text)

/-- `username` -/
def username (cfg : OidcConfig) (claims : Json) : Except Err String := do
  let name ← dget claims cfg.usernameClaim
  let sub ← dget claims "sub"
  pure (if truthy name then Discovery.strOf name else if truthy sub then Discovery.strOf sub else "unknown")

/-- the key an app claim gives -/
def idOfClaim (t : Tokens) : Json → Except Err (Option ℕ)
  | .num n => .ok (if 0 ≤ n then some n.toNat else none)
  | .bool b => .ok (some (if b then 1 else 0))
  | .str s =>
    match t.digits s with
    | some n => n.map some
    | none => .ok none
  | _ => .ok none

/-- the app a claim names: by its key, else by its name -/
def appOfClaim (t : Tokens) (d : Db) (ref : Json) : Except Err (Option (ℕ × App)) := do
  let byId ← idOfClaim t ref
  match byId.bind fun id => (d.apps.get id).map (id, ·) with
  | some a => pure (some a)
  | none => oneOrNone d.apps fun a => a.name = Discovery.strOf ref

/-- `actor_from_token` -/
def actorFromToken (t : Tokens) (d : Db) (subject : String) (role : Role) (ref : Json) : Except Err (Option Actor) :=
  if role ≠ .app then .ok (some ⟨"idp:" ++ subject, role, none⟩)
  else if ref = .null then .ok none
  else do
    match ← appOfClaim t d ref with
    | none => pure none
    | some (id, app) => pure (if app.status = .active then some ⟨"idp:" ++ subject, .app, some id⟩ else none)

/-- the actor of verified claims -/
def actorOfClaims (t : Tokens) (cfg : OidcConfig) (d : Db) (claims : Json) : Except Err (Option Actor) := do
  match ← roleFor cfg claims with
  | none => pure none
  | some role =>
    let subject ← username cfg claims
    let ref ← dget claims cfg.appClaim
    actorFromToken t d subject role ref

/-- `OidcAuthenticator.authenticate` -/
def oidcAuthenticate (t : Tokens) (cfg : OidcConfig) (d : Db) (cred : Credential) : Except Err (Option Actor) :=
  match present cred.bearer with
  | none => .ok none
  | some token =>
    match t.decode cfg token with
    | .error _ => .ok none
    | .ok claims => actorOfClaims t cfg d claims

/-! ## The chain -/

/-- the identity provider, where one is configured -/
def tokenActor (t : Tokens) (cfg : Option OidcConfig) (d : Db) (cred : Credential) : Except Err (Option Actor) :=
  match cfg with
  | none => .ok none
  | some cfg => oidcAuthenticate t cfg d cred

/-- `authenticate_request`, over the chain of `build_authenticators` -/
def authenticateRequest (t : Tokens) (cfg : Option OidcConfig) (env : Env) (d : Db) (cred : Credential) :
    Except Err (Option Actor) := do
  match ← tokenActor t cfg d cred with
  | some a => pure (some a)
  | none => apiKeyAuthenticate env d cred

/-- `mint_app_credential` with the key it mints -/
def mintAppCredential (env : Env) (actor : Actor) (appId : ℕ) (rawKey : String) : M Unit := do
  lift (actor.require [.admin, .operator])
  let d ← Tx.get
  match d.apps.get appId with
  | none => raise (.notFound "app not found")
  | some app =>
    if app.status ≠ .active then
      let status := app.status.text
      raise (.forbidden s!"app is {status}; credentials are issued only to active apps")
    else
      let n := (d.principals.all fun p => p.appId = some appId).length + 1
      let appName := app.name
      let name := s!"app:{appName}:{n}"
      let hash := env.sha256 rawKey
      let _ ← addRow env Col.principals
        (fun t => (unique "principals.name" Principal.name name t).or
          (unique "principals.key_hash" Principal.keyHash hash t))
        ⟨name, .app, hash, some appId, true, actor.name, none⟩
      record env actor.name "principal.create" name [("role", .str "app"), ("app_id", .num appId)]

end Certadillo.Auth
