/-
The ACME server (`enrollment/acme.py`): accounts, orders, authorizations, challenges, finalization and cleanup.

A request arrives parsed; base64, JSON and the signatures of a JWS are the libraries' and enter through `Request` and
`Site`. A handler first reads its rows and checks them, which writes nothing, and then writes: `mayX` is the first part and
`storeX` the second, over whatever is stored by then. Between the two other requests may commit, and an UPDATE sets the
columns this request changed (`saveRow`).

A flush writes the orders before their authorizations.

- `spendNonce`: a nonce is spent even if the request later fails.
- `answer`: what an ACME problem does to the session.
-/
import Certadillo.Services.Issuance

namespace Certadillo.Acme

open Integrity Policy Py Platform

/-! ## Requests -/

/-- what the protected header names as the signer -/
inductive KeyId where
  | jwk (jwk : Json)
  /-- the number at the end of the account URL, if there is one -/
  | kid (acctId : Option ℕ)
  | neither

/-- a flattened JWS; a part that cannot be read holds the exception -/
structure Request where
  /-- the path of the request -/
  path : String
  nonce : Except Err String
  /-- the path of the JWS's url -/
  url : Except Err String
  keyId : KeyId
  /-- `jwk_to_key` and `verify_jws_sig` -/
  verifyJws : Json → Except Err Unit
  payload : Except Err Json
  /-- the PEM of the payload's csr, if it is a PKCS#10 request -/
  csrPem : Option String

/-- an external account binding -/
structure Binding where
  kid : String
  alg : Json
  /-- its signature is the HMAC under this key -/
  macVerifies : String → Except Err Bool
  payload : Except Err Json

/-- the random draws of one request -/
structure Draws where
  nonce : String
  token : ℕ → String

/-- the server's settings and what it reaches over the network -/
structure Site where
  /-- `CERTADILLO_ACME_CHALLENGE` is ra-scope -/
  raScope : Bool
  thumbprint : Json → Except Err String
  binding : Json → Except Err Binding
  /-- `cipher.decrypt_str` -/
  decrypt : String → Except Err String
  findByCertId : Db → String → Except String (Option (ℕ × Certificate))
  http01Fetch : String → String → Except String String
  dns01Lookup : String → Except String (List String × String)
  keyAuthorizationDigest : String → String → String

def lowered (env : Env) (s : String) : String := String.ofList (env.lower s.toList)

/-! ## Updates of loaded rows -/

/-- the UPDATE of a row this session loaded, if it changed; the row must still be there -/
def saveRow {α : Type} [DecidableEq α] (c : Col α) (assign : α → α → α → α) (id : ℕ) (loaded new : α) : M Unit := do
  if new = loaded then pure ()
  else
    let d ← Tx.get
    if ((c.get d).get id).isSome then Tx.modify fun d => c.put d ((c.get d).update id (assign loaded new))
    else raise (.other "UPDATE statement expected to update 1 row(s); 0 were matched.")

def assignAccount (loaded new stored : AcmeAccount) : AcmeAccount where
  thumbprint := written loaded.thumbprint new.thumbprint stored.thumbprint
  jwk := written loaded.jwk new.jwk stored.jwk
  appId := written loaded.appId new.appId stored.appId
  status := written loaded.status new.status stored.status
  contact := written loaded.contact new.contact stored.contact

def assignOrder (loaded new stored : AcmeOrder) : AcmeOrder where
  accountId := written loaded.accountId new.accountId stored.accountId
  identifiers := written loaded.identifiers new.identifiers stored.identifiers
  status := written loaded.status new.status stored.status
  expires := written loaded.expires new.expires stored.expires
  certificateId := written loaded.certificateId new.certificateId stored.certificateId
  error := written loaded.error new.error stored.error
  replaces := written loaded.replaces new.replaces stored.replaces
  replacesCertId := written loaded.replacesCertId new.replacesCertId stored.replacesCertId

def assignAuthz (loaded new stored : AcmeAuthz) : AcmeAuthz where
  orderId := written loaded.orderId new.orderId stored.orderId
  identifier := written loaded.identifier new.identifier stored.identifier
  status := written loaded.status new.status stored.status
  token := written loaded.token new.token stored.token
  challengeStatus := written loaded.challengeStatus new.challengeStatus stored.challengeStatus
  validatedAt := written loaded.validatedAt new.validatedAt stored.validatedAt
  wildcard := written loaded.wildcard new.wildcard stored.wildcard
  challengeType := written loaded.challengeType new.challengeType stored.challengeType
  error := written loaded.error new.error stored.error

def assignEab (loaded new stored : AcmeEab) : AcmeEab where
  kid := written loaded.kid new.kid stored.kid
  hmacKeyB64 := written loaded.hmacKeyB64 new.hmacKeyB64 stored.hmacKeyB64
  hmacKeyEnc := written loaded.hmacKeyEnc new.hmacKeyEnc stored.hmacKeyEnc
  appId := written loaded.appId new.appId stored.appId
  used := written loaded.used new.used stored.used

def saveAccount (id : ℕ) (loaded new : AcmeAccount) : M Unit := saveRow Col.acmeAccounts assignAccount id loaded new

def saveOrder (id : ℕ) (loaded new : AcmeOrder) : M Unit := saveRow Col.acmeOrders assignOrder id loaded new

def saveAuthz (id : ℕ) (loaded new : AcmeAuthz) : M Unit := saveRow Col.acmeAuthz assignAuthz id loaded new

def saveEab (id : ℕ) (loaded new : AcmeEab) : M Unit := saveRow Col.acmeEab assignEab id loaded new

/-! ## Nonces, answers and signatures -/

/-- what a response is about; its body is rendered from the rows -/
inductive Reply where
  | account (id : ℕ) (created : Bool)
  | order (id : ℕ)
  | authz (id : ℕ)
  | challenge (authzId : ℕ) (ctype : String)
  /-- no body -/
  | empty
deriving DecidableEq

def newNonce (env : Env) (draws : Draws) : M Unit := do
  let _ ← addPlain Col.acmeNonces (unique "acme_nonces.value" AcmeNonce.value draws.nonce) ⟨draws.nonce, env.now⟩
  pure ()

/-- `_resp` -/
def resp (env : Env) (draws : Draws) (reply : Reply) : M Reply := do
  newNonce env draws
  Tx.commit
  pure reply

/-- an ACME problem: `_problem` rolls back, any other exception goes on to the caller -/
def answer (env : Env) (draws : Draws) (handler : M Reply) : M (Except (String × String × ℕ) Reply) := do
  match ← Tx.attempt handler with
  | .ok reply => pure (.ok reply)
  | .error (.acme kind detail status) =>
    Tx.rollback
    newNonce env draws
    Tx.commit
    pure (.error (kind, detail, status))
  | .error e => raise e

/-- `_parse`: the nonce's row -/
def takeNonce (d : Db) (req : Request) : Except Err ℕ := do
  let value ← req.nonce
  match d.acmeNonces.first fun n => n.value = value with
  | some (id, _) => pure id
  | none => throw (.acme "badNonce" "nonce unknown or already used" 400)

/-- `_parse`: a nonce is spent even if the request later fails; a row that is gone by then is no error -/
def spendNonce (id : ℕ) : M Unit := do
  Tx.modify fun d => { d with acmeNonces := d.acmeNonces.delete fun i _ => i = id }
  Tx.commit

/-- `_parse`: the rest, which writes nothing -/
def identify (d : Db) (req : Request) (needJwk allowJwk : Bool) : Except Err (Json × Option (ℕ × AcmeAccount)) := do
  let url ← req.url
  if url ≠ req.path then throw (.acme "unauthorized" "JWS url does not match request URL" 401)
  else
    match req.keyId with
    | .jwk jwk =>
      if !(needJwk || allowJwk) then throw (.acme "malformed" "use kid for this request" 400)
      else
        req.verifyJws jwk
        let payload ← req.payload
        pure (payload, none)
    | .kid acctId =>
      if needJwk then throw (.acme "malformed" "newAccount requires jwk" 400)
      else
        match acctId.bind fun id => (d.acmeAccounts.get id).map (id, ·) with
        | none => throw (.acme "accountDoesNotExist" "unknown account" 400)
        | some (id, account) =>
          let status := account.status.text
          if account.status ≠ .valid then throw (.acme "unauthorized" s!"account is {status}" 401)
          else
            req.verifyJws account.jwk
            let payload ← req.payload
            pure (payload, some (id, account))
    | .neither => throw (.acme "malformed" "jwk or kid required" 400)

/-- the payload and the account of a request signed by one -/
def accountOf (d : Db) (req : Request) : Except Err (Json × ℕ × AcmeAccount) := do
  match ← identify d req false false with
  | (payload, some acct) => pure (payload, acct)
  | (_, none) => throw (.attribute "'NoneType' object has no attribute 'id'")

/-- `_app_actor` -/
def appActor (d : Db) (acct : ℕ × AcmeAccount) : Except Err (Actor × App) :=
  match d.apps.get acct.2.appId with
  | some app =>
    let acctId := acct.1
    let name := app.name
    if app.status ≠ .active then .error (.acme "unauthorized" "the app bound to this account is not active" 403)
    else .ok (⟨s!"acme:{acctId}:{name}", .app, some acct.2.appId⟩, app)
  | none => .error (.acme "unauthorized" "the app bound to this account is not active" 403)

/-! ## Accounts -/

/-- what a new-account request comes to -/
inductive NewAccount where
  | existing (id : ℕ)
  | create (cred : ℕ × AcmeEab) (account : AcmeAccount)

/-- `eab_hmac_key` -/
def eabHmacKey (site : Site) (cred : AcmeEab) : Except Err String :=
  match cred.hmacKeyEnc.filter (· ≠ "") with
  | some enc => site.decrypt enc
  | none => .ok cred.hmacKeyB64

/-- the binding's credential, if it is unused and has signed the account's key -/
def bindingCred (site : Site) (d : Db) (eab jwk : Json) : Except Err (ℕ × AcmeEab) := do
  let binding ← site.binding eab
  match d.acmeEab.first fun cred => cred.kid = binding.kid with
  | none => throw (.acme "unauthorized" "EAB key id unknown or already used" 401)
  | some (id, cred) =>
    if cred.used then throw (.acme "unauthorized" "EAB key id unknown or already used" 401)
    else
      let key ← eabHmacKey site cred
      let signed ← binding.macVerifies key
      if binding.alg ≠ .str "HS256" || !signed then throw (.acme "unauthorized" "EAB signature invalid" 401)
      else
        let bound ← binding.payload
        if bound ≠ jwk then throw (.acme "malformed" "EAB payload must be the account JWK" 400)
        else pure (id, cred)

/-- `new_account`, up to the first write -/
def mayNewAccount (site : Site) (d : Db) (req : Request) : Except Err NewAccount := do
  let (payload, _) ← identify d req true false
  match req.keyId with
  | .jwk jwk =>
    let tp ← site.thumbprint jwk
    match ← oneOrNone d.acmeAccounts fun a => a.thumbprint = tp with
    | some (id, existing) =>
      let status := existing.status.text
      if existing.status ≠ .valid then throw (.acme "unauthorized" s!"the account for this key is {status}" 401)
      else pure (.existing id)
    | none =>
      let only ← dget payload "onlyReturnExisting"
      if truthy only then throw (.acme "accountDoesNotExist" "no account for this key" 400)
      else
        let eab ← dget payload "externalAccountBinding"
        if !truthy eab then
          throw (.acme "externalAccountRequired" "register with an EAB credential from your app onboarding" 400)
        else
          let cred ← bindingCred site d eab jwk
          let contact ← dgetOr payload "contact" (.arr [])
          pure (.create cred ⟨tp, jwk, cred.2.appId, .valid, contact⟩)
  | _ => throw (.key "jwk")

def storeNewAccount (env : Env) (draws : Draws) : NewAccount → M Reply
  | .existing id => resp env draws (.account id false)
  | .create cred account => do
    saveEab cred.1 cred.2 { cred.2 with used := true }
    let id ← addPlain Col.acmeAccounts
      (unique "acme_accounts.thumbprint" AcmeAccount.thumbprint account.thumbprint) account
    let appId := account.appId
    record env s!"acme:{id}" "acme.account.create" s!"app:{appId}"
      [("thumbprint", .str account.thumbprint), ("eab_kid", .str cred.2.kid)]
    resp env draws (.account id true)

/-- an order being closed, with the authorizations closed with it -/
structure Closing where
  order : ℕ × AcmeOrder
  authz : List (ℕ × AcmeAuthz)

def closeAuthz (dead : AuthzStatus) : List (ℕ × AcmeAuthz) → M Unit
  | [] => pure ()
  | a :: rest => do
    saveAuthz a.1 a.2 { a.2 with status := dead }
    closeAuthz dead rest

/-- orders become invalid and their authorizations `dead`; the number of authorizations -/
def closeOrders (text : AcmeOrder → Option String) (dead : AuthzStatus) : List Closing → M ℕ
  | [] => pure 0
  | c :: rest => do
    saveOrder c.order.1 c.order.2 { c.order.2 with status := .invalid, error := text c.order.2 }
    closeAuthz dead c.authz
    let n ← closeOrders text dead rest
    pure (c.authz.length + n)

/-- the orders of an account that are not finished, with their open authorizations -/
def openOrders (d : Db) (acctId : ℕ) : List Closing :=
  (d.acmeOrders.all fun o => o.accountId = acctId &&
      (o.status = .pending || o.status = .ready || o.status = .processing)).map fun o =>
    ⟨o, d.acmeAuthz.all fun a => a.orderId = o.1 && (a.status = .pending || a.status = .valid)⟩

/-- `payload and payload.get("status") == "deactivated"` -/
def givesUp (payload : Json) : Except Err Bool :=
  if truthy payload then (dget payload "status").map fun status => decide (status = .str "deactivated") else .ok false

/-- what a request for an account comes to -/
inductive AccountUpdate where
  | deactivate (orders : List Closing)
  | contact (contact : Json)
  | nothing

/-- `list(v)` -/
def listOf : Json → Except Err Json
  | .arr xs => .ok (.arr xs)
  | .obj kvs => .ok (.ofStrs (kvs.map Prod.fst))
  | .str s => .ok (.ofStrs (s.toList.map fun c => String.ofList [c]))
  | _ => .error (.type "object is not iterable")

/-- `account`, up to the first write -/
def mayAccount (d : Db) (req : Request) (acctId : ℕ) : Except Err ((ℕ × AcmeAccount) × AccountUpdate) := do
  let (payload, acct) ← accountOf d req
  if acct.1 ≠ acctId then throw (.acme "unauthorized" "not your account" 403)
  else if ← givesUp payload then pure (acct, .deactivate (openOrders d acct.1))
  else if ← (if truthy payload then isIn "contact" payload else pure false) then
    let contact ← listOf (← item payload "contact")
    pure (acct, .contact contact)
  else pure (acct, .nothing)

/-- RFC 8555 7.3.6: the account is gone for good, and so are its open authorizations and orders. -/
def deactivateAccount (env : Env) (acct : ℕ × AcmeAccount) (orders : List Closing) : M Unit := do
  let acctId := acct.1
  let appId := acct.2.appId
  saveAccount acctId acct.2 { acct.2 with status := .deactivated }
  let authzN ← closeOrders (fun _ => some "account deactivated") .deactivated orders
  record env s!"acme:{acctId}" "acme.account.deactivate" s!"app:{appId}"
    [("orders_closed", .num orders.length), ("authorizations_deactivated", .num authzN)]

def updateContact (env : Env) (acct : ℕ × AcmeAccount) (contact : Json) : M Unit := do
  let acctId := acct.1
  let appId := acct.2.appId
  saveAccount acctId acct.2 { acct.2 with contact := contact }
  record env s!"acme:{acctId}" "acme.account.update" s!"app:{appId}" [("contact", contact)]

def updateAccount (env : Env) (acct : ℕ × AcmeAccount) : AccountUpdate → M Unit
  | .deactivate orders => deactivateAccount env acct orders
  | .contact contact => updateContact env acct contact
  | .nothing => pure ()

def storeAccount (env : Env) (draws : Draws) (l : (ℕ × AcmeAccount) × AccountUpdate) : M Reply := do
  updateAccount env l.1 l.2
  resp env draws (.account l.1.1 false)

/-! ## Orders -/

/-- `any(i.get("type") != "dns" for i in idents)` -/
def anyNotDns : List Json → Except Err Bool
  | [] => .ok false
  | i :: rest => do
    let type ← dget i "type"
    if type ≠ .str "dns" then pure true else anyNotDns rest

/-- `i["value"].lower().rstrip(".")` -/
def identValue (env : Env) (i : Json) : Except Err String := do
  match ← item i "value" with
  | .str s => pure (String.ofList (rstrip (· = '.') (env.lower s.toList)))
  | _ => throw (.attribute "object has no attribute 'lower'")

/-- the names of an order -/
def orderNames (env : Env) (payload : Json) : Except Err (List String) := do
  let unsupported := Err.acme "unsupportedIdentifier" "only dns identifiers are supported" 400
  match ← dget payload "identifiers" with
  | .arr (i :: rest) =>
    if ← anyNotDns (i :: rest) then throw unsupported
    else
      let values ← (i :: rest).mapM (identValue env)
      pure (sorted values.dedup)
  | idents => if truthy idents then throw (.attribute "object has no attribute 'get'") else throw unsupported

def isWildcard (n : String) : Bool := startsWith n.toList "*.".toList

/-- wildcard names need a profile that allows them -/
def wildcardsAllowed (env : Env) (app : App) (names : List String) : Except Err Bool :=
  if names.any isWildcard then (profile env.policies app.profile).map Profile.allowWildcard else .ok true

/-- the names outside the app's scope, and the wildcards where there may be none -/
def nameViolations (env : Env) (app : App) (wildcards : Bool) (names : List String) : List (String × String) :=
  let outside := names.filter fun n => !domainAllowed env.lower n.toList app.allowedDomains
  outside.map (fun n => ("san_scope", n)) ++
    if wildcards then [] else (names.filter isWildcard).map fun n => ("wildcard", n)

/-- a wildcard is only allowed as the whole leftmost label -/
def badWildcard (names : List String) : Bool :=
  names.any fun n => if isWildcard n then (n.toList.drop 2).contains '*' else n.toList.contains '*'

/-- RFC 9773 section 5: the certificate an order replaces must belong to the same app and must not already be replaced. -/
def checkReplaces (env : Env) (site : Site) (d : Db) (acct : AcmeAccount) (value : String) : Except Err ℕ := do
  match site.findByCertId d value with
  | .error e => throw (.acme "malformed" s!"replaces: {e}" 400)
  | .ok found =>
    match found.filter fun r => r.2.appId = some acct.appId with
    | none => throw (.acme "malformed" "replaces: no certificate with this CertID for this account's app" 400)
    | some (id, row) =>
      if row.status = .superseded || (row.replacedBy.filter (· ≠ 0)).isSome then
        throw (.acme "alreadyReplaced" "this certificate has already been replaced" 409)
      else
        match d.acmeOrders.first fun o => o.replacesCertId = some id &&
            (o.status = .pending || o.status = .ready || o.status = .processing) && env.now < o.expires with
        | some (orderId, _) =>
          throw (.acme "alreadyReplaced" s!"order {orderId} is already replacing this certificate" 409)
        | none => pure id

/-- an order to create, or the names an order may not have -/
inductive NewOrder where
  | create (acct : ℕ × AcmeAccount) (names : List String) (replaces : Option String) (replacesCertId : Option ℕ)
  | refuse (actor : Actor) (app : App) (violations : List (String × String))

/-- `new_order`, up to the first write -/
def mayNewOrder (env : Env) (site : Site) (d : Db) (req : Request) : Except Err NewOrder := do
  let (payload, acct) ← accountOf d req
  let (who, app) ← appActor d acct
  let names ← orderNames env payload
  if badWildcard names then
    throw (.acme "rejectedIdentifier" "a wildcard is only allowed as the whole leftmost label" 400)
  else
    let wildcards ← wildcardsAllowed env app names
    let violations := nameViolations env app wildcards names
    if !violations.isEmpty then pure (.refuse who app violations)
    else
      match ← dget payload "replaces" with
      | .str s =>
        if s = "" then pure (.create acct names (some s) none)
        else
          let replaced ← checkReplaces env site d acct.2 s
          pure (.create acct names (some s) (some replaced))
      | replaces =>
        if truthy replaces then throw (.attribute "object has no attribute 'split'") else pure (.create acct names none none)

/-- one authorization for each name -/
def addAuthz (draws : Draws) (orderId : ℕ) (status : AuthzStatus) (challengeType : Option String) :
    ℕ → List String → M Unit
  | _, [] => pure ()
  | k, n :: rest => do
    let identifier := if isWildcard n then String.ofList (n.toList.drop 2) else n
    let _ ← addPlain Col.acmeAuthz noClash
      ⟨orderId, identifier, status, draws.token k, status, none, isWildcard n, challengeType, none⟩
    addAuthz draws orderId status challengeType (k + 1) rest

/-- the order and its authorizations; under ra-scope they need no challenge -/
def addOrder (env : Env) (site : Site) (draws : Draws) (acctId : ℕ) (names : List String) (replaces : Option String)
    (replacesCertId : Option ℕ) : M ℕ := do
  let orderId ← addPlain Col.acmeOrders noClash
    ⟨acctId, names, .pending, env.now + 8 * 3600, none, none, replaces, replacesCertId⟩
  if site.raScope then
    addAuthz draws orderId .valid (some "ra-scope") 0 names
    setPlain Col.acmeOrders orderId fun o => { o with status := .ready }
    pure orderId
  else
    addAuthz draws orderId .pending none 0 names
    pure orderId

/-- the texts of refused names -/
def refusalText (app : App) (violations : List (String × String)) : String :=
  let profile := app.profile
  join "; " (violations.map fun (r, n) =>
    let why := if r = "san_scope" then "outside app scope" else s!"wildcards not allowed for profile {profile}"
    s!"{n}: {why}")

def storeNewOrder (env : Env) (site : Site) (draws : Draws) : NewOrder → M Reply
  | .refuse who app violations => do
    record env who.name "certificate.rejected" app.name
      [("protocol", .str "acme"), ("violations", violationsJson violations)]
    Tx.commit
    raise (.acme "rejectedIdentifier" (refusalText app violations) 403)
  | .create acct names replaces replacesCertId => do
    let orderId ← addOrder env site draws acct.1 names replaces replacesCertId
    resp env draws (.order orderId)

/-- `_own_order` -/
def ownOrder (d : Db) (acct : ℕ × AcmeAccount) (orderId : ℕ) : Except Err (ℕ × AcmeOrder) :=
  match d.acmeOrders.get orderId with
  | some o =>
    if o.accountId ≠ acct.1 then .error (.acme "unauthorized" "order not found" 404) else .ok (orderId, o)
  | none => .error (.acme "unauthorized" "order not found" 404)

/-- `_own_order` of a live order: this one has expired -/
def isExpired (env : Env) (o : AcmeOrder) : Bool := o.status ≠ .valid && o.status ≠ .invalid && o.expires < env.now

def expireOrder (o : ℕ × AcmeOrder) : M Reply := do
  saveOrder o.1 o.2 { o.2 with status := .invalid, error := some "order expired" }
  Tx.commit
  raise (.acme "malformed" "order expired; create a new order" 403)

/-! ## Authorizations -/

/-- an authorization and its order -/
structure Owned where
  acct : ℕ × AcmeAccount
  authz : ℕ × AcmeAuthz
  order : ℕ × AcmeOrder

/-- `get_authz`, up to the first write, and whether the client gives the authorization up -/
def mayGetAuthz (d : Db) (req : Request) (authzId : ℕ) : Except Err (Owned × Bool) := do
  let (payload, acct) ← accountOf d req
  match d.acmeAuthz.get authzId with
  | none => throw (.acme "unauthorized" "authorization not found" 404)
  | some a =>
    let o ← ownOrder d acct a.orderId
    let deactivate ← givesUp payload
    let status := a.status.text
    if deactivate && a.status ≠ .pending && a.status ≠ .valid then
      throw (.acme "malformed" s!"authorization is {status}" 400)
    else pure (⟨acct, (authzId, a), o⟩, deactivate)

/-- an open order is over when one of its authorizations is -/
def gaveUp (o : AcmeOrder) : AcmeOrder :=
  if o.status = .pending || o.status = .ready then
    { o with status := .invalid, error := some "an authorization was deactivated" }
  else o

/-- RFC 8555 7.5.2: a client gives up an authorization it no longer wants. -/
def deactivateAuthz (env : Env) (l : Owned) : M Unit := do
  let acctId := l.acct.1
  saveOrder l.order.1 l.order.2 (gaveUp l.order.2)
  saveAuthz l.authz.1 l.authz.2 { l.authz.2 with status := .deactivated }
  record env s!"acme:{acctId}" "acme.authz.deactivate" l.authz.2.identifier [("order", .num l.order.1)]

def updateAuthz (env : Env) (l : Owned × Bool) : M Unit :=
  if l.2 then deactivateAuthz env l.1 else pure ()

def storeGetAuthz (env : Env) (draws : Draws) (l : Owned × Bool) : M Reply := do
  updateAuthz env l
  resp env draws (.authz l.1.authz.1)

/-! ## Challenges -/

def challengeTypes (a : AcmeAuthz) : List String :=
  if a.challengeType = some "ra-scope" then ["http-01"]
  else if a.wildcard then ["dns-01"] else ["http-01", "dns-01"]

/-- `_validate`: why the validation failed, if it did -/
def validate (site : Site) (a : AcmeAuthz) (acct : AcmeAccount) (ctype : String) : Option String :=
  let token := a.token
  let tp := acct.thumbprint
  let identifier := a.identifier
  if ctype = "http-01" then
    match site.http01Fetch identifier token with
    | .error e => some s!"fetching http://{identifier}/.well-known/acme-challenge/{token}: {e}"
    | .ok got =>
      if got = s!"{token}.{tp}" then none else some "the response did not match the key authorization"
  else
    let qname := s!"_acme-challenge.{identifier}"
    match site.dns01Lookup qname with
    | .error e => some e
    | .ok (values, view) =>
      let found := values.length
      if values.contains (site.keyAuthorizationDigest token tp) then none
      else some s!"no TXT record at {qname} matches the key authorization ({found} found in the {view} view)"

/-- `challenge`, up to the network validation -/
def mayChallenge (d : Db) (req : Request) (authzId : ℕ) (ctype : String) : Except Err Owned := do
  let (_, acct) ← accountOf d req
  match d.acmeAuthz.get authzId with
  | none => throw (.acme "unauthorized" "challenge not found" 404)
  | some a =>
    if !(challengeTypes a).contains ctype then throw (.acme "unauthorized" "challenge not found" 404)
    else
      let o ← ownOrder d acct a.orderId
      pure ⟨acct, (authzId, a), o⟩

/-- the challenge and its authorization are pending -/
def Owned.open (l : Owned) : Bool := l.authz.2.challengeStatus = .pending && l.authz.2.status = .pending

/-- the authorization after its validation -/
def validated (env : Env) (ctype : String) (why : Option String) (a : AcmeAuthz) : AcmeAuthz :=
  match why with
  | none =>
    { a with challengeType := some ctype, challengeStatus := .valid, status := .valid, validatedAt := some env.now,
             error := none }
  | some why => { a with challengeType := some ctype, challengeStatus := .invalid, status := .invalid, error := some why }

/-- its order after it -/
def validatedOrder (why : Option String) (a : AcmeAuthz) (o : AcmeOrder) : AcmeOrder :=
  let identifier := a.identifier
  match why with
  | none => o
  | some why => { o with status := .invalid, error := some s!"{identifier}: {why}" }

/-- every authorization of the order is valid; the one this session loaded is as it sees it -/
def allValid (d : Db) (orderId authzId : ℕ) (a : AcmeAuthz) : Bool :=
  (d.acmeAuthz.all fun s => s.orderId = orderId).all fun s => (if s.1 = authzId then a else s.2).status = .valid

/-- the result of the validation is written over the loaded rows -/
def recordValidation (env : Env) (ctype : String) (why : Option String) (l : Owned) : M Unit := do
  let a := validated env ctype why l.authz.2
  let o := validatedOrder why l.authz.2 l.order.2
  saveOrder l.order.1 l.order.2 o
  saveAuthz l.authz.1 l.authz.2 a
  let d ← Tx.get
  if allValid d l.order.1 l.authz.1 a && o.status = .pending then saveOrder l.order.1 o { o with status := .ready }
  else pure ()

def updateChallenge (env : Env) (ctype : String) (why : Option String) (l : Owned) : M Unit :=
  if l.open then recordValidation env ctype why l else pure ()

/-- `challenge`, with the result of the validation -/
def storeChallenge (env : Env) (draws : Draws) (ctype : String) (why : Option String) (l : Owned) : M Reply := do
  updateChallenge env ctype why l
  resp env draws (.challenge l.authz.1 ctype)

/-! ## Finalization -/

/-- an order to finalize, with the CSR -/
structure Finalizing where
  order : ℕ × AcmeOrder
  csrPem : String
  who : Actor
  appId : ℕ

/-- the CSR's DNS names, as `finalize` compares them -/
def csrNames (env : Env) (csr : Csr) : List String := sorted (((csr.san.getD .none).dns.map (lowered env)).dedup)

/-- the CSR names exactly the order's identifiers -/
def checkCsr (env : Env) (csr : Csr) (o : AcmeOrder) : Except Err Unit :=
  let names := listRepr (csrNames env csr)
  let identifiers := listRepr o.identifiers
  match csr.commonNames with
  | cn :: _ =>
    if !o.identifiers.contains (lowered env cn) then .error (.acme "badCSR" "CSR common name is not in the order" 400)
    else if csrNames env csr ≠ o.identifiers then
      .error (.acme "badCSR" s!"CSR names {names} do not match order {identifiers}" 400)
    else .ok ()
  | [] =>
    if csrNames env csr ≠ o.identifiers then
      .error (.acme "badCSR" s!"CSR names {names} do not match order {identifiers}" 400)
    else .ok ()

/-- `finalize` of a live order, up to the first write -/
def mayFinalize (env : Env) (d : Db) (req : Request) (acct : ℕ × AcmeAccount) (o : ℕ × AcmeOrder) :
    Except Err Finalizing := do
  let status := o.2.status.text
  if o.2.status ≠ .ready then throw (.acme "orderNotReady" s!"order is {status}" 403)
  else
    match req.csrPem.bind fun pem => (env.loadPemCsr pem).map (pem, ·) with
    | none => throw (.acme "badCSR" "CSR is not valid DER" 400)
    | some (pem, csr) =>
      checkCsr env csr o.2
      let (who, _) ← appActor d acct
      pure ⟨o, pem, who, acct.2.appId⟩

/-- the certificate the order replaces; one revoked meanwhile is not renewed -/
def previousOf (d : Db) (o : AcmeOrder) : Option ℕ :=
  (o.replacesCertId.filter (· ≠ 0)).filter fun i => (d.certificates.get i).map (·.status) = some .active

/-- the order while its certificate is requested -/
def processing (o : AcmeOrder) : AcmeOrder := { o with status := .processing }

/-- the order with its certificate -/
def issued (o : AcmeOrder) (certificateId : ℕ) : AcmeOrder :=
  { o with certificateId := some certificateId, status := .valid }

/-- `finalize`, up to the first commit; the text of a request the policy rejected -/
def storeFinalize (env : Env) (draws : Draws) (l : Finalizing) : M (Except String Reply) := do
  saveOrder l.order.1 l.order.2 (processing l.order.2)
  let d ← Tx.get
  let result ← Tx.attempt (requestCertificate env l.who l.appId
    ⟨some l.csrPem, none, none, none, "acme", previousOf d l.order.2, false, none⟩)
  match result with
  | .ok (.certificate id) =>
    saveOrder l.order.1 (processing l.order.2) (issued l.order.2 id)
    let reply ← resp env draws (.order l.order.1)
    pure (.ok reply)
  | .ok _ => raise (.acme "unauthorized" "this profile needs dual control; use the REST API" 403)
  | .error (.policy v) => pure (.error (policyText v))
  | .error e => raise e

/-- `finalize`: the policy rejected the request -/
def rejectFinalize (l : Finalizing) (text : String) : M Reply := do
  saveOrder l.order.1 (processing l.order.2) { l.order.2 with status := .invalid, error := some text }
  Tx.commit
  raise (.acme "badCSR" text 400)

/-- `finalize`, from the first write on -/
def finalizeOrder (env : Env) (draws : Draws) (l : Finalizing) : M Reply := do
  match ← storeFinalize env draws l with
  | .ok reply => pure reply
  | .error text => rejectFinalize l text

/-! ## Cleanup -/

/-- the expired orders, with their pending authorizations -/
def expiredOrders (env : Env) (d : Db) : List Closing :=
  (d.acmeOrders.all fun o => (o.status = .pending || o.status = .ready || o.status = .processing) &&
      o.expires < env.now).map fun o =>
    ⟨o, d.acmeAuthz.all fun a => a.orderId = o.1 && a.status = .pending⟩

/-- an order that is dropped: it has been invalid for a month -/
def isStale (env : Env) (o : AcmeOrder) : Bool := o.status = .invalid && o.expires < env.now - 30 * 86400

/-- invalid orders go a month after they expired, with their authorizations, and nonces after an hour -/
def purge (env : Env) (d : Db) : Db :=
  { d with
    acmeOrders := d.acmeOrders.delete fun _ o => isStale env o
    acmeAuthz := d.acmeAuthz.delete fun _ a => ((d.acmeOrders.get a.orderId).map (isStale env)).getD false
    acmeNonces := d.acmeNonces.delete fun _ n => n.createdAt < env.now - 3600 }

/-- Expire stale orders and authorizations, drop spent state. -/
def housekeeping (env : Env) (expired : List Closing) : M Unit := do
  let _ ← closeOrders (fun o => (o.error.filter (· ≠ "")).or (some "order expired")) .expired expired
  Tx.modify (purge env)
  Tx.commit

/-! ## Handlers -/

inductive Call where
  | newAccount
  | account (acctId : ℕ)
  | newOrder
  | getAuthz (authzId : ℕ)
  | challenge (authzId : ℕ) (ctype : String)
  | finalize (orderId : ℕ)

/-- the part of a handler after the nonce is spent -/
def serve (env : Env) (site : Site) (draws : Draws) (req : Request) : Call → M Reply
  | .newAccount => do
    let d ← Tx.get
    let l ← lift (mayNewAccount site d req)
    storeNewAccount env draws l
  | .account acctId => do
    let d ← Tx.get
    let l ← lift (mayAccount d req acctId)
    storeAccount env draws l
  | .newOrder => do
    let d ← Tx.get
    let l ← lift (mayNewOrder env site d req)
    storeNewOrder env site draws l
  | .getAuthz authzId => do
    let d ← Tx.get
    let l ← lift (mayGetAuthz d req authzId)
    storeGetAuthz env draws l
  | .challenge authzId ctype => do
    let d ← Tx.get
    let l ← lift (mayChallenge d req authzId ctype)
    if isExpired env l.order.2 then expireOrder l.order
    else storeChallenge env draws ctype (validate site l.authz.2 l.acct.2 ctype) l
  | .finalize orderId => do
    let d ← Tx.get
    let (_, acct) ← lift (accountOf d req)
    let o ← lift (ownOrder d acct orderId)
    if isExpired env o.2 then expireOrder o
    else
      let l ← lift (mayFinalize env d req acct o)
      finalizeOrder env draws l

/-- one request -/
def handle (env : Env) (site : Site) (draws : Draws) (req : Request) (call : Call) :
    M (Except (String × String × ℕ) Reply) :=
  answer env draws do
    let d ← Tx.get
    let nonce ← lift (takeNonce d req)
    spendNonce nonce
    serve env site draws req call

end Certadillo.Acme
