/-
The ACME client behind an upstream issuer (`ca/issuers/acme_client.py`): account, order, dns-01 challenges, finalization and
download, against a CA and a DNS provider that may answer anything.

A program runs over the issuer object's fields, the lists `sign` fills in its `try`, and the outside. `_poll` loops until the
clock passes its deadline, so it takes fuel.
-/
import Certadillo.Enrollment.AriCertId
import Certadillo.Lib.Prog
import Certadillo.PyText

namespace Certadillo.AcmeClient

open Py Bytes
open Ari (b64u)

/-! ## Outside -/

/-- how a request names its account -/
inductive KeyId where
  | jwk (jwk : Json)
  | kid (kid : Option String)

/-- the protected header of a request -/
structure Header where
  nonce : String
  url : String
  keyId : KeyId

def Header.json (h : Header) : Json :=
  .obj ([("alg", .str "ES256"), ("nonce", .str h.nonce), ("url", .str h.url)] ++
    match h.keyId with
    | .jwk jwk => [("jwk", jwk)]
    | .kid kid => [("kid", (kid.map Json.str).getD .null)])

/-- a signed request; no payload is a POST-as-GET -/
structure Jws where
  header : Header
  payload : Option Json
  signature : String

structure Response where
  statusCode : ℕ
  text : String
  /-- `json()`, where the body is JSON -/
  json : Option Json
  replayNonce : Option String
  location : Option String
  contentType : String

/-- `Path.exists` and the file's key -/
inductive KeyFile (Key : Type) where
  | missing
  | unreadable (e : Err)
  | key (k : Key)

/-- httpx and the CA behind it, the DNS provider, the account key's file, the clock, and the libraries -/
structure World (σ Key Cert : Type) where
  get : String → σ → Except Err Response × σ
  head : String → σ → Except Err Response × σ
  post : String → Jws → σ → Except Err Response × σ
  setTxt : String → String → σ → Except Err Unit × σ
  clearTxt : String → String → σ → Except Err Unit × σ
  keyFile : σ → KeyFile Key
  generateKey : σ → Key × σ
  /-- the file of a new key, which must not exist -/
  writeKey : Key → σ → Except Err Unit × σ
  monotonic : σ → ℚ
  sleep : ℚ → σ → σ
  /-- the point of a P-256 key -/
  publicNumbers : Key → ℕ × ℕ
  /-- an ECDSA signature over P-256 and SHA-256 -/
  signature : Key → Octets → σ → ℕ × ℕ
  sha256 : Octets → Octets
  hmacSha256 : Octets → Octets → Octets
  /-- `json.dumps(v)`, with the default separators and without blanks -/
  dumps : Json → String
  compact : Json → String
  /-- `f"{v}"` of what is no str -/
  format : Json → String
  /-- `credentials.resolve` -/
  resolve : String → σ → Except Err String
  loadCertificates : String → Except Err (List Cert)

structure Eab where
  kid : String
  hmacRef : String

/-- an issuer of the policy file -/
structure Config where
  directory : String
  contact : String
  eab : Option Eab
  timeout : ℚ
  pollInterval : ℚ
  propagationSeconds : ℚ

/-- the issuer's fields, what a `sign` has published and still has to answer, and the outside -/
structure Issuer (σ Key : Type) where
  key : Option Key
  kid : Option String
  directory : Option Json
  nonce : Option String
  published : List (String × String)
  challenges : List (String × Json)
  outside : σ

abbrev Call (σ Key α : Type) := Prog Err (Issuer σ Key) α

/-- what is signed for: the CSR's DER and the names of the decision -/
structure Order where
  csrDer : Octets
  dnsNames : List String
  uris : List String
  emails : List String
  upns : List String

section Model

variable {σ Key Cert : Type}

/-- an exchange with the outside -/
def talk {α : Type} (f : σ → Except Err α × σ) : Call σ Key α :=
  Prog.talk fun s => ((f s.outside).1, { s with outside := (f s.outside).2 })

/-- `AcmeError` -/
def acmeError (text : String) : Err := .other text

/-- `s.encode()` -/
def bytes (s : String) : Octets := s.toUTF8.toList

/-- `f"{v}"` -/
def shown (w : World σ Key Cert) : Json → String
  | .str s => s
  | v => w.format v

/-! ## Plumbing -/

/-- `_account_key` -/
def accountKey (w : World σ Key Cert) : Call σ Key Key := do
  let s ← Prog.get
  match s.key with
  | some k => pure k
  | none =>
    match w.keyFile s.outside with
    | .unreadable e => Prog.raise e
    | .key k =>
      Prog.modify fun s => { s with key := some k }
      pure k
    | .missing =>
      let k ← talk fun x => (.ok (w.generateKey x).1, (w.generateKey x).2)
      Prog.modify fun s => { s with key := some k }
      talk (w.writeKey k)
      pure k

/-- the JWK of a key -/
def jwkOf (w : World σ Key Cert) (k : Key) : List (String × Json) :=
  let n := w.publicNumbers k
  [("crv", .str "P-256"), ("kty", .str "EC"), ("x", .str (b64u (toBE 32 n.1))), ("y", .str (b64u (toBE 32 n.2)))]

/-- the thumbprint of a key's JWK, whose members stand in order -/
def thumbprintOf (w : World σ Key Cert) (k : Key) : String := b64u (w.sha256 (bytes (w.compact (.obj (jwkOf w k)))))

/-- `_jwk` -/
def jwk (w : World σ Key Cert) : Call σ Key Json := do
  let k ← accountKey w
  pure (.obj (jwkOf w k))

/-- `thumbprint` -/
def thumbprint (w : World σ Key Cert) : Call σ Key String := do
  let k ← accountKey w
  pure (thumbprintOf w k)

/-- `_sign` -/
def signJws (w : World σ Key Cert) (header : Header) (payload : Option Json) : Call σ Key Jws := do
  let p64 := b64u (bytes (w.dumps header.json))
  let body := (payload.map fun v => b64u (bytes (w.dumps v))).getD ""
  let k ← accountKey w
  let s ← Prog.get
  let (r, t) := w.signature k (bytes (p64 ++ "." ++ body)) s.outside
  pure ⟨header, payload, b64u (toBE 32 r ++ toBE 32 t)⟩

/-- the body as JSON, or the `ValueError` -/
def jsonOf (r : Response) : Except Err Json :=
  match r.json with
  | some v => .ok v
  | none => .error (.value "the body is not JSON")

/-- `_directory` -/
def directory (w : World σ Key Cert) (cfg : Config) : Call σ Key Json := do
  let s ← Prog.get
  match s.directory with
  | some d => pure d
  | none =>
    let r ← talk (w.get cfg.directory)
    if r.statusCode ≠ 200 then
      let code := r.statusCode
      Prog.raise (acmeError s!"ACME directory returned {code}")
    else
      let d ← Prog.ofExcept (jsonOf r)
      Prog.modify fun s => { s with directory := some d }
      pure d

/-- `self._directory(c)[name]`, which is a URL -/
def resource (w : World σ Key Cert) (cfg : Config) (name : String) : Call σ Key String := do
  let d ← directory w cfg
  Prog.ofExcept (do toStr (← item d name))

/-- `headers[name]` -/
def header (name : String) : Option String → Except Err String
  | some v => .ok v
  | none => .error (.key name)

/-- `_new_nonce` -/
def newNonce (w : World σ Key Cert) (cfg : Config) : Call σ Key String := do
  let url ← resource w cfg "newNonce"
  let r ← talk (w.head url)
  Prog.ofExcept (header "Replay-Nonce" r.replayNonce)

/-- `self._nonce or self._new_nonce(c)` -/
def nonceOr (w : World σ Key Cert) (cfg : Config) (nonce : Option String) : Call σ Key String :=
  match nonce.filter (· ≠ "") with
  | some n => pure n
  | none => newNonce w cfg

/-- the nonce at hand, or a new one; it is at hand no more -/
def takeNonce (w : World σ Key Cert) (cfg : Config) : Call σ Key String := do
  let s ← Prog.get
  let nonce ← nonceOr w cfg s.nonce
  Prog.modify fun s => { s with nonce := none }
  pure nonce

def keyIdOf (w : World σ Key Cert) (useJwk : Bool) : Call σ Key KeyId :=
  if useJwk then do
    let v ← jwk w
    pure (.jwk v)
  else do
    let s ← Prog.get
    pure (.kid s.kid)

/-- the server wants the request again, with another nonce -/
def badNonce (r : Response) : Bool := r.statusCode = 400 && isSubstring "badNonce".toList r.text.toList

/-- one round of `_post` -/
def postOnce (w : World σ Key Cert) (cfg : Config) (url : String) (payload : Option Json) (useJwk : Bool) :
    Call σ Key Response := do
  let nonce ← takeNonce w cfg
  let keyId ← keyIdOf w useJwk
  let jws ← signJws w ⟨nonce, url, keyId⟩ payload
  let r ← talk (w.post url jws)
  Prog.modify fun s => { s with nonce := r.replayNonce }
  pure r

def postTimes (w : World σ Key Cert) (cfg : Config) (url : String) (payload : Option Json) (useJwk : Bool) :
    ℕ → Call σ Key Response
  | 0 => Prog.raise (acmeError "the ACME server kept rejecting nonces")
  | n + 1 => do
    let r ← postOnce w cfg url payload useJwk
    if badNonce r then postTimes w cfg url payload useJwk n else pure r

/-- `_post` -/
def post (w : World σ Key Cert) (cfg : Config) (url : String) (payload : Option Json) (useJwk : Bool) : Call σ Key Response :=
  postTimes w cfg url payload useJwk 3

/-- `_ok` -/
def okay (w : World σ Key Cert) (r : Response) (what : String) : Except Err Response :=
  if 300 ≤ r.statusCode then do
    let start : Json := .str (String.ofList (r.text.toList.take 200))
    let detail ← if endsWith r.contentType.toList "json".toList then do dgetOr (← jsonOf r) "detail" start else pure start
    let detail := shown w detail
    let code := r.statusCode
    throw (acmeError s!"{what} failed ({code}): {detail}")
  else pure r

/-- `self._ok(self._post(...), what)` -/
def postOk (w : World σ Key Cert) (cfg : Config) (url : String) (payload : Option Json) (useJwk : Bool) (what : String) :
    Call σ Key Response := do
  let r ← post w cfg url payload useJwk
  Prog.ofExcept (okay w r what)

/-- the account binding a CA asks for: the account's JWK under the HMAC key it gave out -/
def binding (w : World σ Key Cert) (cfg : Config) (eab : Eab) : Call σ Key Json := do
  let url ← resource w cfg "newAccount"
  let p64 := b64u (bytes (w.dumps (.obj [("alg", .str "HS256"), ("kid", .str eab.kid), ("url", .str url)])))
  let pl := b64u (bytes (w.dumps (← jwk w)))
  let s ← Prog.get
  let ref ← Prog.ofExcept (w.resolve eab.hmacRef s.outside)
  match Base64.urlDecode (ref ++ "==").toList with
  | none => Prog.raise (.value "Incorrect padding")
  | some key =>
    pure (.obj [("protected", .str p64), ("payload", .str pl),
      ("signature", .str (b64u (w.hmacSha256 key (bytes (p64 ++ "." ++ pl)))))])

def bindings (w : World σ Key Cert) (cfg : Config) : Call σ Key (List (String × Json)) :=
  match cfg.eab with
  | none => pure []
  | some eab => do
    let b ← binding w cfg eab
    pure [("externalAccountBinding", b)]

/-- `_account` -/
def account (w : World σ Key Cert) (cfg : Config) : Call σ Key Unit := do
  let s ← Prog.get
  if (s.kid.getD "") ≠ "" then pure ()
  else
    let contact := if cfg.contact = "" then [] else [("contact", Json.arr [.str cfg.contact])]
    let bound ← bindings w cfg
    let url ← resource w cfg "newAccount"
    let r ← postOk w cfg url (some (.obj ([("termsOfServiceAgreed", .bool true)] ++ contact ++ bound))) true
      "account registration"
    let kid ← Prog.ofExcept (header "Location" r.location)
    Prog.modify fun s => { s with kid := some kid }

/-- `status in {...}` -/
def isIn (status : Json) (xs : List String) : Except Err Bool :=
  match status with
  | .arr _ => .error (.type "unhashable type: 'list'")
  | .obj _ => .error (.type "unhashable type: 'dict'")
  | v => .ok (xs.any fun x => v = .str x)

/-- what a failed object says of its failure -/
def failure (w : World σ Key Cert) (obj : Json) : Except Err String := do
  let error ← dget obj "error"
  pure (String.ofList ((w.dumps (if truthy error then error else obj)).toList.take 300))

/-- one look at an object that is being waited for -/
def pollOnce (w : World σ Key Cert) (cfg : Config) (url : String) (done failed : List String) (what : String)
    (deadline : ℚ) : Call σ Key (Option Json) := do
  let r ← postOk w cfg url none false what
  let obj ← Prog.ofExcept (jsonOf r)
  let status ← Prog.ofExcept (dget obj "status")
  let isDone ← Prog.ofExcept (isIn status done)
  if isDone then pure (some obj)
  else
    let isFailed ← Prog.ofExcept (isIn status failed)
    let is := shown w status
    if isFailed then
      let why ← Prog.ofExcept (failure w obj)
      Prog.raise (acmeError s!"{what} is {is}: {why}")
    else
      let s ← Prog.get
      if deadline < w.monotonic s.outside then
        let seconds := cfg.timeout.floor
        Prog.raise (acmeError s!"{what} still {is} after {seconds}s")
      else
        Prog.modify fun s => { s with outside := w.sleep cfg.pollInterval s.outside }
        pure none

/-- `_poll` -/
def poll (w : World σ Key Cert) (cfg : Config) (fuel : ℕ) (url : String) (done failed : List String) (what : String) :
    Call σ Key Json := do
  let s ← Prog.get
  Prog.loop (pollOnce w cfg url done failed what (w.monotonic s.outside + cfg.timeout)) fuel

/-! ## Signing -/

/-- what a JSON value iterates over -/
def elements : Json → Except Err (List Json)
  | .arr xs => .ok xs
  | .str s => .ok (s.toList.map fun c => .str (String.ofList [c]))
  | .obj kvs => .ok (kvs.map fun p => .str p.1)
  | _ => .error (.type "object is not iterable")

/-- the first dns-01 challenge -/
def dns01 : List Json → Except Err (Option Json)
  | [] => .ok none
  | x :: xs => do
    let type ← item x "type"
    if type = .str "dns-01" then pure (some x) else dns01 xs

/-- the TXT record that answers a challenge: its name, and its value for the account's thumbprint -/
def recordName (domain : String) : String :=
  "_acme-challenge." ++ String.ofList ( removeprefix "*.".toList domain.toList) ++ "."

def recordValue (w : World σ Key Cert) (token thumbprint : String) : String :=
  b64u (w.sha256 (bytes (token ++ "." ++ thumbprint)))

/-- `v.removeprefix`, of a str -/
def text : Json → Except Err String
  | .str s => .ok s
  | _ => .error (.attribute "object has no attribute 'removeprefix'")

/-- the record of a challenge is published, and the challenge left to be answered -/
def publish (w : World σ Key Cert) (authzUrl : String) (domain challenge : Json) : Call σ Key Unit := do
  let name ← Prog.ofExcept (text domain)
  let token ← Prog.ofExcept (item challenge "token")
  let tp ← thumbprint w
  let fqdn := recordName name
  let value := recordValue w (shown w token) tp
  talk (w.setTxt fqdn value)
  Prog.modify fun s => { s with published := s.published ++ [(fqdn, value)] }
  let url ← Prog.ofExcept (item challenge "url")
  Prog.modify fun s => { s with challenges := s.challenges ++ [(authzUrl, url)] }

/-- one authorization of an order, unless it is valid already -/
def authorize (w : World σ Key Cert) (cfg : Config) (authzUrl : Json) : Call σ Key Unit := do
  let url ← Prog.ofExcept (toStr authzUrl)
  let r ← postOk w cfg url none false "authorization"
  let authz ← Prog.ofExcept (jsonOf r)
  let status ← Prog.ofExcept (dget authz "status")
  if status = .str "valid" then pure ()
  else
    let found ← Prog.ofExcept (do dns01 (← elements (← item authz "challenges")))
    let domain ← Prog.ofExcept (do item (← item authz "identifier") "value")
    match found with
    | none =>
      let domain := shown w domain
      Prog.raise (acmeError s!"no dns-01 challenge offered for {domain}")
    | some ch => publish w url domain ch

/-- the answer to a challenge -/
def respond (w : World σ Key Cert) (cfg : Config) (challengeUrl : Json) : Call σ Key Unit := do
  let url ← Prog.ofExcept (toStr challengeUrl)
  let _ ← postOk w cfg url (some (.obj [])) false "challenge response"
  pure ()

/-- an authorization is waited for -/
def await (w : World σ Key Cert) (cfg : Config) (fuel : ℕ) (authzUrl : String) : Call σ Key Unit := do
  let _ ← poll w cfg fuel authzUrl ["valid"] ["invalid", "revoked", "expired", "deactivated"] "authorization"
  pure ()

/-- the `try` of `sign`: the certificate's URL and its PEM -/
def fulfil (w : World σ Key Cert) (cfg : Config) (fuel : ℕ) (orderUrl : String) (order : Json) (csrDer : Octets) :
    Call σ Key (String × String) := do
  let urls ← Prog.ofExcept (do elements (← item order "authorizations"))
  Prog.forEach (authorize w cfg) urls
  Prog.modify fun s => { s with outside := w.sleep cfg.propagationSeconds s.outside }
  let s ← Prog.get
  Prog.forEach (respond w cfg) (s.challenges.map (·.2))
  Prog.forEach (await w cfg fuel) (s.challenges.map (·.1))
  let finalize ← Prog.ofExcept (do toStr (← item order "finalize"))
  let _ ← postOk w cfg finalize (some (.obj [("csr", .str (b64u csrDer))])) false "finalize"
  let order ← poll w cfg fuel orderUrl ["valid"] ["invalid"] "order"
  let certUrl ← Prog.ofExcept (do toStr (← item order "certificate"))
  let r ← postOk w cfg certUrl none false "certificate download"
  pure (certUrl, r.text)

/-- a record is removed, if the provider will -/
def clear (w : World σ Key Cert) (p : String × String) : Call σ Key Unit := do
  let _ ← Prog.attempt (talk (w.clearTxt p.1 p.2))
  pure ()

/-- the `finally` of `sign`: what cannot be removed is left -/
def cleanup (w : World σ Key Cert) : Call σ Key Unit := do
  let s ← Prog.get
  Prog.forEach (clear w) s.published

/-- `list(dict.fromkeys(names))` -/
def distinct (names : List String) : List String := names.foldl (fun seen n => if n ∈ seen then seen else seen ++ [n]) []

/-- `sign`: the certificate, its chain, and the URL it is revoked by -/
def sign (w : World σ Key Cert) (cfg : Config) (fuel : ℕ) (order : Order) : Call σ Key (Cert × List Cert × String) := do
  let names := distinct order.dnsNames
  if names = [] ∨ order.uris ≠ [] ∨ order.emails ≠ [] ∨ order.upns ≠ [] then
    Prog.raise (acmeError "an ACME issuer can only issue DNS-name certificates")
  else
    Prog.modify fun s => { s with published := [], challenges := [] }
    account w cfg
    let url ← resource w cfg "newOrder"
    let r ← postOk w cfg url (some (.obj [("identifiers", .arr (names.map fun n =>
      .obj [("type", .str "dns"), ("value", .str n)]))])) false "new order"
    let orderUrl ← Prog.ofExcept (header "Location" r.location)
    let placed ← Prog.ofExcept (jsonOf r)
    let issued ← Prog.tryFinally (fulfil w cfg fuel orderUrl placed order.csrDer) (cleanup w)
    let certs ← Prog.ofExcept (w.loadCertificates issued.2)
    match certs with
    | [] => Prog.raise (.other "list index out of range")
    | leaf :: chain => pure (leaf, chain, issued.1)

/-- `REASON_CODES` -/
def REASON_CODES : List (String × ℤ) :=
  [("unspecified", 0), ("key_compromise", 1), ("ca_compromise", 2), ("affiliation_changed", 3), ("superseded", 4),
    ("cessation_of_operation", 5), ("certificate_hold", 6), ("privilege_withdrawn", 9)]

/-- `revoke`, of a certificate by its DER -/
def revoke (w : World σ Key Cert) (cfg : Config) (reason : String) (der : Option Octets) : Call σ Key Unit :=
  match der with
  | none => Prog.raise (acmeError "ACME revocation needs the certificate")
  | some der => do
    account w cfg
    let url ← resource w cfg "revokeCert"
    let code := (REASON_CODES.lookup reason).getD 0
    let _ ← postOk w cfg url (some (.obj [("certificate", .str (b64u der)), ("reason", .num code)])) false "revocation"
    pure ()

end Model

end Certadillo.AcmeClient
