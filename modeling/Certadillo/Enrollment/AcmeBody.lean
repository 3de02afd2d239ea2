/-
A new-account request as bytes (`enrollment/acme.py`): the flattened JWS, its header, key, payload and account binding, read
with Python's operators, and the exceptions of each.

JSON values are Python's: numbers may have fractions, texts lone surrogates. What the libraries do with well-typed arguments
(`json.loads`, base64, keys and signatures, `Session.get` of what is no str) is `Libs`; what happens to ill-typed ones is not.
-/
import Certadillo.Enrollment.Acme

namespace Certadillo.AcmeBody

open Integrity Policy Py Platform Acme

/-! ## Python values -/

/-- a str: its code points, lone surrogates included -/
abbrev Text := List ℕ

def text (s : String) : Text := s.toList.map Char.toNat

inductive Number where
  | finite (q : ℚ)
  | infinite (negative : Bool)
  | nan
deriving DecidableEq

/-- what `json.loads` returns -/
inductive Value where
  | none
  | bool (b : Bool)
  | int (n : ℤ)
  | float (x : Number)
  | str (t : Text)
  | list (xs : List Value)
  | dict (kvs : List (Text × Value))

namespace Value

def truthy : Value → Bool
  | none => false
  | bool b => b
  | int n => n ≠ 0
  | float x => x ≠ .finite 0
  | str t => !t.isEmpty
  | list xs => !xs.isEmpty
  | dict kvs => !kvs.isEmpty

/-- the value is this str -/
def isText (v : Value) (s : String) : Bool :=
  match v with
  | str t => t = text s
  | _ => false

def number : Value → Option Number
  | bool b => some (.finite (if b then 1 else 0))
  | int n => some (.finite n)
  | float x => some x
  | _ => Option.none

/-- numbers of every type compare by value; NaN is not even itself -/
def sameNumber (a b : Value) : Bool :=
  match a.number, b.number with
  | some x, some y => x = y && x ≠ .nan
  | _, _ => false

mutual

/-- `a == b` -/
def eq : Value → Value → Bool
  | none, none => true
  | str a, str b => a = b
  | list a, list b => eqList a b
  | dict a, dict b => a.length = b.length && eqItems a b
  | a, b => sameNumber a b

def eqList : List Value → List Value → Bool
  | [], [] => true
  | a :: as, b :: bs => eq a b && eqList as bs
  | _, _ => false

/-- every key is in the other dict, with an equal value -/
def eqItems : List (Text × Value) → List (Text × Value) → Bool
  | [], _ => true
  | (k, a) :: as, bs =>
    (match bs.lookup k with
      | some b => eq a b
      | Option.none => false) && eqItems as bs

end

/-- `v.get(key, dflt)` -/
def get (v : Value) (key : String) (dflt : Value) : Except Err Value :=
  match v with
  | dict kvs => .ok ((kvs.lookup (text key)).getD dflt)
  | _ => .error (.attribute "object has no attribute 'get'")

/-- `v[key]` -/
def item (v : Value) (key : String) : Except Err Value :=
  match v with
  | dict kvs =>
    match kvs.lookup (text key) with
    | some a => .ok a
    | Option.none => .error (.key key)
  | _ => .error (.type "indices must be integers")

/-- `key in v`, of a dict -/
def has (v : Value) (key : String) : Bool :=
  match v with
  | dict kvs => (kvs.lookup (text key)).isSome
  | _ => false

end Value

/-! ## Libraries -/

inductive Curve where
  | p256
  | p384
deriving DecidableEq

/-- the numbers of a public key, as they were sent -/
inductive JwkKey where
  | ec (curve : Curve) (x y : List UInt8)
  | rsa (e n : List UInt8)

inductive LoadsError where
  /-- `JSONDecodeError`, `UnicodeDecodeError`: a ValueError -/
  | invalid
  /-- `RecursionError`: nested too deeply -/
  | tooDeep

/-- the library calls; an absent result is a ValueError, and `InvalidSignature` is `false` -/
structure Libs where
  loads : List UInt8 → Except LoadsError Value
  urlsafeB64decode : Text → Option (List UInt8)
  /-- `str(v)` of what is no str -/
  str : Value → Text
  urlparsePath : Text → Option Text
  /-- `public_key()` of the numbers -/
  publicKey : JwkKey → Bool
  /-- `key.verify` under SHA-256 or SHA-384, of an EC key or PKCS#1 v1.5 -/
  verify : JwkKey → Bool → Text → List UInt8 → Bool
  /-- base64url of the SHA-256 of the members as canonical JSON -/
  canonicalSha256 : List (String × Value) → String
  /-- the MAC under this key is the signature -/
  compareDigest : List UInt8 → Text → List UInt8 → Bool
  /-- the key `Session.get` looks up for an identifier that is neither None nor a str; None finds nothing -/
  identity : Value → Except Err (Option Text)
  /-- a value in a JSON column -/
  column : Value → Json

section Reading

variable (lib : Libs)

def loads (bytes : List UInt8) : Except Err Value :=
  match lib.loads bytes with
  | .ok v => .ok v
  | .error .invalid => .error (.value "invalid JSON")
  | .error .tooDeep => .error (.runtime "maximum recursion depth exceeded")

/-- `b64u_dec`: len() or + fails for what is no str -/
def b64uDec : Value → Except Err (List UInt8)
  | .str t =>
    match lib.urlsafeB64decode (t ++ List.replicate ((4 - t.length % 4) % 4) 61) with
    | some bytes => .ok bytes
    | none => .error (.value "invalid base64")
  | _ => .error (.type "object has no len()")

/-- a value in an f-string -/
def formatted : Value → Text
  | .str t => t
  | v => lib.str v

/-- `.encode()`; the bytes stand as their text -/
def encode (t : Text) : Except Err Text :=
  if t.any fun c => 0xD800 ≤ c && c ≤ 0xDFFF then .error (.value "surrogates not allowed") else .ok t

/-- the key that `Session.get` looks up, if any -/
def identity : Value → Except Err (Option Text)
  | .none => .ok none
  | .str t => (encode t).map some
  | v => lib.identity v

/-- `urlparse(v).path`; a falsy v that is no str gives bytes, which equal no str -/
def urlPath (v : Value) : Except Err (Option Text) :=
  match v with
  | .str t =>
    match lib.urlparsePath t with
    | some path => .ok (some path)
    | none => .error (.value "invalid URL")
  | v => if v.truthy then .error (.attribute "object has no attribute 'decode'") else .ok none

/-! ## Keys and signatures -/

/-- `{"P-256": .., "P-384": ..}[v]`: a list or a dict has no hash -/
def curveOf : Value → Except Err Curve
  | .list _ => .error (.type "unhashable type: 'list'")
  | .dict _ => .error (.type "unhashable type: 'dict'")
  | v =>
    if v.isText "P-256" then .ok .p256
    else if v.isText "P-384" then .ok .p384
    else .error (.key "crv")

/-- `public_key()` -/
def publicKey (key : JwkKey) : Except Err JwkKey :=
  if lib.publicKey key then .ok key else .error (.value "Invalid key")

/-- a base64 member -/
def bytesOf (jwk : Value) (key : String) : Except Err (List UInt8) := do
  let v ← jwk.item key
  b64uDec lib v

def ecKey (jwk : Value) : Except Err JwkKey := do
  let crv ← jwk.item "crv"
  let curve ← curveOf crv
  let x ← bytesOf lib jwk "x"
  let y ← bytesOf lib jwk "y"
  publicKey lib (.ec curve x y)

def rsaKey (jwk : Value) : Except Err JwkKey := do
  let e ← bytesOf lib jwk "e"
  let n ← bytesOf lib jwk "n"
  publicKey lib (.rsa e n)

def jwkToKey (jwk : Value) : Except Err JwkKey := do
  let kty ← jwk.get "kty" .none
  if kty.isText "EC" then ecKey lib jwk
  else if kty.isText "RSA" then rsaKey lib jwk
  else throw (.acme "badPublicKey" "unsupported JWK" 400)

/-- RFC 7638. -/
def thumbprint (jwk : Value) : Except Err String := do
  let kty ← jwk.item "kty"
  let req := if kty.isText "EC" then ["crv", "kty", "x", "y"] else ["e", "kty", "n"]
  let members ← req.mapM fun k => (jwk.item k).map (k, ·)
  pure (lib.canonicalSha256 members)

def invalidSignature : Err := .acme "malformed" "JWS signature invalid" 400

/-- the text of an algorithm -/
def algText (alg : Value) : String := String.ofList ((formatted lib alg).map Char.ofNat)

/-- the two key types take different numbers of arguments -/
def verifyJwsSig (alg : Value) (key : JwkKey) (signingInput : Text) (sig : List UInt8) : Except Err Unit :=
  if alg.isText "ES256" || alg.isText "ES384" then
    match key with
    | .ec _ _ _ => if lib.verify key (alg.isText "ES256") signingInput sig then .ok () else .error invalidSignature
    | .rsa _ _ => .error (.type "verify() missing 1 required positional argument: 'algorithm'")
  else if alg.isText "RS256" then
    match key with
    | .ec _ _ _ => .error (.type "verify() takes 3 positional arguments but 4 were given")
    | .rsa _ _ => if lib.verify key true signingInput sig then .ok () else .error invalidSignature
  else
    let shown := algText lib alg
    .error (.acme "badSignatureAlgorithm" s!"{shown} not supported" 400)

/-! ## The request -/

/-- the parts of a flattened JWS -/
structure Jws where
  protectedPart : Value
  header : Value
  payloadRaw : Value
  sig : List UInt8

def readJws (bytes : List UInt8) : Except Err Jws := do
  let body ← loads lib bytes
  let part ← body.item "protected"
  let headerBytes ← b64uDec lib part
  let header ← loads lib headerBytes
  let payloadRaw ← body.item "payload"
  let sig ← bytesOf lib body "signature"
  pure ⟨part, header, payloadRaw, sig⟩

/-- `_parse`: whatever is raised here is malformed -/
def flattened (bytes : List UInt8) : Except Err Jws :=
  match readJws lib bytes with
  | .ok jws => .ok jws
  | .error _ => .error (.acme "malformed" "request is not a flattened JWS" 400)

/-- the row of a nonce -/
def nonceRow (d : Db) (key : Option Text) : Except Err ℕ :=
  match key.bind fun t => d.acmeNonces.first fun n => text n.value = t with
  | some (id, _) => .ok id
  | none => .error (.acme "badNonce" "nonce unknown or already used" 400)

/-- `_parse`: the nonce's row -/
def takeNonce (d : Db) (jws : Jws) : Except Err ℕ := do
  let value ← jws.header.get "nonce" (.str [])
  let key ← identity lib value
  nonceRow d key

/-- `_parse`: the key of a request that must bring it -/
def headerKey (header : Value) : Except Err JwkKey :=
  if header.has "jwk" then do
    let jwk ← header.item "jwk"
    jwkToKey lib jwk
  else if header.has "kid" then .error (.acme "malformed" "newAccount requires jwk" 400)
  else .error (.acme "malformed" "jwk or kid required" 400)

/-- `_parse`: `json.loads(b64u_dec(payload_raw)) if payload_raw else None` -/
def payloadOf (payloadRaw : Value) : Except Err Value :=
  if payloadRaw.truthy then do
    let bytes ← b64uDec lib payloadRaw
    loads lib bytes
  else .ok .none

/-- `_parse`: the rest -/
def signedPayload (jws : Jws) : Except Err Value := do
  let signingInput ← encode (formatted lib jws.protectedPart ++ text "." ++ formatted lib jws.payloadRaw)
  let key ← headerKey lib jws.header
  let alg ← jws.header.get "alg" (.str [])
  verifyJwsSig lib alg key signingInput jws.sig
  payloadOf lib jws.payloadRaw

def parsed (path : Text) (jws : Jws) : Except Err Value := do
  let url ← jws.header.get "url" (.str [])
  let urlPath ← urlPath lib url
  if urlPath ≠ some path then throw (.acme "unauthorized" "JWS url does not match request URL" 401)
  else signedPayload lib jws

/-! ## The account -/

variable (site : Site)

def badBinding : Err := .acme "unauthorized" "EAB signature invalid" 401

/-- the credential has signed the account's key -/
def signedBinding (cred : AcmeEab) (eab eabProt jwk : Value) : Except Err Unit := do
  let stored ← eabHmacKey site cred
  let key ← b64uDec lib (.str (text stored))
  let part ← eab.item "protected"
  let payload ← eab.item "payload"
  let signingInput ← encode (formatted lib part ++ text "." ++ formatted lib payload)
  let alg ← eabProt.get "alg" .none
  if !alg.isText "HS256" then throw badBinding
  else
    let sig ← bytesOf lib eab "signature"
    if !lib.compareDigest key signingInput sig then throw badBinding
    else
      let bytes ← b64uDec lib payload
      let bound ← loads lib bytes
      if !bound.eq jwk then throw (.acme "malformed" "EAB payload must be the account JWK" 400) else pure ()

def unknownBinding : Err := .acme "unauthorized" "EAB key id unknown or already used" 401

/-- the credential a kid names, if it is unused -/
def unusedCred (d : Db) (key : Option Text) : Except Err (ℕ × AcmeEab) :=
  match key.bind fun t => d.acmeEab.first fun cred => text cred.kid = t with
  | none => .error unknownBinding
  | some (id, cred) => if cred.used then .error unknownBinding else .ok (id, cred)

def bindingCred (d : Db) (eab jwk : Value) : Except Err (ℕ × AcmeEab) := do
  let bytes ← bytesOf lib eab "protected"
  let eabProt ← loads lib bytes
  let kid ← eabProt.get "kid" (.str [])
  let key ← identity lib kid
  let cred ← unusedCred d key
  signedBinding lib site cred.2 eab eabProt jwk
  pure cred

/-- what a key without an account asks for -/
def mayRegister (d : Db) (tp : String) (jwk payload : Value) : Except Err NewAccount := do
  let only ← payload.get "onlyReturnExisting" .none
  if only.truthy then throw (.acme "accountDoesNotExist" "no account for this key" 400)
  else
    let eab ← payload.get "externalAccountBinding" .none
    if !eab.truthy then
      throw (.acme "externalAccountRequired" "register with an EAB credential from your app onboarding" 400)
    else
      let cred ← bindingCred lib site d eab jwk
      let contact ← payload.get "contact" (.list [])
      pure (.create cred ⟨tp, lib.column jwk, cred.2.appId, .valid, lib.column contact⟩)

/-- the account of the key, if it may be shown -/
def shown (existing : ℕ × AcmeAccount) : Except Err NewAccount :=
  let status := existing.2.status.text
  if existing.2.status ≠ .valid then .error (.acme "unauthorized" s!"the account for this key is {status}" 401)
  else .ok (.existing existing.1)

/-- `new_account`, up to the first write -/
def mayNewAccount (d : Db) (header payload : Value) : Except Err NewAccount := do
  let jwk ← header.item "jwk"
  let tp ← thumbprint lib jwk
  let existing ← oneOrNone d.acmeAccounts fun a => a.thumbprint = tp
  match existing with
  | some existing => shown existing
  | none => mayRegister lib site d tp jwk payload

/-- `new_account`, inside the try -/
def register (env : Env) (draws : Draws) (path : Text) (bytes : List UInt8) : M Reply := do
  let jws ← lift (flattened lib bytes)
  let d ← Tx.get
  let nonce ← lift (takeNonce lib d jws)
  spendNonce nonce
  let d ← Tx.get
  let payload ← lift (parsed lib path jws)
  let l ← lift (mayNewAccount lib site d jws.header payload)
  storeNewAccount env draws l

/-- `new_account`, of the bytes of the request -/
def newAccount (env : Env) (draws : Draws) (path : Text) (bytes : List UInt8) : M (Except (String × String × ℕ) Reply) :=
  answer env draws (register lib site env draws path bytes)

end Reading

end Certadillo.AcmeBody
