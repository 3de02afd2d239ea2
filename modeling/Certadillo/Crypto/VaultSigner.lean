/-
CA keys in Vault's Transit engine (`crypto/vault.py`, `crypto/vault_signer.py`).

Vault answers requests from a state of its own, and may answer anything. A signer names a key, a version and the public key
it was pinned to; the store remembers the public keys it has seen.

- `sign_verified`: what a signer returns verifies under its public key, whatever Vault answered.
- `signer_pins`: the store gives out the public key it has seen, and never replaces one.
- `load_keyRef`: a reference loads the key and the version it was made of.
-/
import Certadillo.PyText
import Certadillo.Lib.Base64
import Certadillo.Lib.Bytes
import Certadillo.Lib.Prog
import Certadillo.Lib.Tx

namespace Certadillo.VaultSigner

open Py Bytes

/-! ## Outside -/

structure Request where
  method : String
  url : String
  json : Option Json
  token : String
  vaultNamespace : Option String

structure Response where
  statusCode : ℕ
  text : String
  /-- `json()`, where the body is JSON -/
  json : Option Json

inductive Padding where
  | pkcs1v15 | ecdsa
deriving DecidableEq

/-- what the process raises -/
inductive Failure where
  /-- a `VaultError`, with the HTTP status where there was one -/
  | vault (message : String) (status : Option ℕ)
  | other (e : Err)
deriving DecidableEq

/-- httpx and Vault behind it, the token file, and cryptography; `σ` is the state of what is outside the process -/
structure World (σ PublicKey Hash : Type) where
  /-- a response, or the text of an `httpx.HTTPError` -/
  send : Request → σ → Except String Response × σ
  /-- `Path(name).read_text()` -/
  readText : String → σ → Except String String
  /-- `load_pem_public_key` -/
  loadPem : String → Except Err PublicKey
  isRsa : PublicKey → Bool
  hashName : Hash → String
  /-- `verify`, with `false` for an `InvalidSignature` -/
  verify : PublicKey → Padding → Octets → Octets → Hash → Except Err Bool
  /-- the DER of the SubjectPublicKeyInfo -/
  spki : PublicKey → Octets

/-- `VaultClient` -/
structure VaultClient where
  addr : String
  token : Option String
  tokenFile : Option String
  vaultNamespace : Option String

/-- `VaultTransitKeyStore`: the configuration -/
structure KeyStore where
  client : VaultClient
  mount : String
  keyPrefix : String

/-- the public keys seen so far, and the outside -/
structure Process (σ PublicKey : Type) where
  pubs : List ((String × ℤ) × PublicKey)
  outside : σ

abbrev Call (σ PublicKey α : Type) := Prog Failure (Process σ PublicKey) α

/-- `VaultTransitSigner` -/
structure Signer (PublicKey : Type) where
  keyName : String
  version : ℤ
  publicKey : PublicKey

section Model

variable {σ PublicKey Hash : Type}

def lift {α : Type} (x : Except Err α) : Call σ PublicKey α := Prog.ofExcept (x.mapError .other)

/-! ## Requests -/

/-- `VaultClient.__init__` -/
def VaultClient.new (addr : String) (token tokenFile vaultNamespace : Option String) : Except Failure VaultClient :=
  if addr = "" then .error (.vault "CERTADILLO_VAULT_ADDR is not set" none)
  else if token.getD "" = "" ∧ tokenFile.getD "" = "" then
    .error (.vault "set CERTADILLO_VAULT_TOKEN_FILE (Vault Agent sink) or CERTADILLO_VAULT_TOKEN" none)
  else .ok ⟨String.ofList (rstrip (· = '/') addr.toList), token, tokenFile, vaultNamespace⟩

/-- `token()`: the file is read again every time -/
def tokenOf (w : World σ PublicKey Hash) (c : VaultClient) (s : σ) : Except Failure String :=
  match c.tokenFile.filter (· ≠ "") with
  | some name =>
    match w.readText name s with
    | .ok text => .ok (String.ofList (strip text.toList))
    | .error e => .error (.vault s!"cannot read Vault token file {name}: {e}" none)
  | none => .ok (c.token.getD "")

/-- the errors of a refusal, or the start of its text -/
def errorText (r : Response) : Except Err String :=
  match r.json with
  | none => .ok (String.ofList (r.text.toList.take 200))
  | some body => do
    let errors ← dget body "errors"
    let text ← joined "; " (if truthy errors then errors else .arr [])
    pure (if text = "" then String.ofList (r.text.toList.take 200) else text)

/-- what `request` makes of a response -/
def answerOf (method path : String) (r : Response) : Except Failure Json :=
  if 400 ≤ r.statusCode then
    match errorText r with
    | .ok errors =>
      let code := r.statusCode
      .error (.vault s!"Vault {method} {path} returned {code}: {errors}" (some code))
    | .error e => .error (.other e)
  else if r.statusCode = 204 ∨ r.text = "" then .ok (.obj [])
  else
    match r.json with
    | some body => .ok body
    | none => .error (.vault s!"Vault {method} {path} returned invalid JSON" none)

def urlOf (c : VaultClient) (path : String) : String :=
  c.addr ++ "/v1/" ++ String.ofList (lstrip (· = '/') path.toList)

/-- `VaultClient.request` -/
def exchange (w : World σ PublicKey Hash) (c : VaultClient) (method path : String) (json : Option Json) (s : σ) :
    Except Failure Json × σ :=
  match tokenOf w c s with
  | .error e => (.error e, s)
  | .ok token =>
    match w.send ⟨method, urlOf c path, json, token, c.vaultNamespace.filter (· ≠ "")⟩ s with
    | (.error e, s') =>
      let addr := c.addr
      (.error (.vault s!"Vault unreachable at {addr}: {e}" none), s')
    | (.ok r, s') => (answerOf method path r, s')

def request (w : World σ PublicKey Hash) (c : VaultClient) (method path : String) (json : Option Json) :
    Call σ PublicKey Json :=
  Prog.talk fun s => ((exchange w c method path json s.outside).1,
    { s with outside := (exchange w c method path json s.outside).2 })

/-! ## Keys -/

def VAULT_TYPES : List (String × String) :=
  [("ec-p256", "ecdsa-p256"), ("ec-p384", "ecdsa-p384"), ("rsa-3072", "rsa-3072"), ("rsa-4096", "rsa-4096")]

def HASHES : List (String × String) := [("sha256", "sha2-256"), ("sha384", "sha2-384"), ("sha512", "sha2-512")]

/-- `PREFIX` -/
def scheme : String := "vault-transit:"

/-- `str(n)` -/
def str (n : ℤ) : String := String.ofList (JsonText.intText n)

def Signer.keyRef (s : Signer PublicKey) : String := scheme ++ s.keyName ++ ":" ++ str s.version

def keysPath (store : KeyStore) (keyName : String) : String := store.mount ++ "/keys/" ++ keyName

/-- `_key_info` -/
def keyInfo (w : World σ PublicKey Hash) (store : KeyStore) (keyName : String) : Call σ PublicKey Json := do
  let resp ← request w store.client "GET" (keysPath store keyName) none
  lift (item resp "data")

/-- the public key of a version, out of what Vault says of the key -/
def publicKeyIn (w : World σ PublicKey Hash) (info : Json) (keyName : String) (version : ℤ) : Except Failure PublicKey :=
  let read : Except Err (Option PublicKey) := do
    let entry ← dget (orDict (← dget info "keys")) (str version)
    if truthy entry then
      let pem ← dget entry "public_key"
      if truthy pem then pure (some (← w.loadPem (← toStr pem))) else pure none
    else pure none
  match read with
  | .ok (some pub) => .ok pub
  | .ok none =>
    let shown := str version
    .error (.vault s!"Vault key {keyName} has no version {shown} (trimmed or never existed)" none)
  | .error e => .error (.other e)

/-- `info or self._key_info(key_name)` -/
def infoOr (w : World σ PublicKey Hash) (store : KeyStore) (keyName : String) (info : Option Json) : Call σ PublicKey Json :=
  match info.filter truthy with
  | some info => pure info
  | none => keyInfo w store keyName

/-- `_signer` -/
def signer (w : World σ PublicKey Hash) (store : KeyStore) (keyName : String) (version : ℤ) (info : Option Json) :
    Call σ PublicKey (Signer PublicKey) := do
  let s ← Prog.get
  match s.pubs.lookup (keyName, version) with
  | some pub => pure ⟨keyName, version, pub⟩
  | none =>
    let info ← infoOr w store keyName info
    let pub ← Prog.ofExcept (publicKeyIn w info keyName version)
    Prog.modify fun s => { s with pubs := ((keyName, version), pub) :: s.pubs }
    pure ⟨keyName, version, pub⟩

/-- the check before a key is created: a name that is taken, or whose absence is not sure, is refused -/
def mustBeNew (w : World σ PublicKey Hash) (store : KeyStore) (keyName : String) : Call σ PublicKey Unit := do
  match ← Prog.attempt (keyInfo w store keyName) with
  | .ok _ => Prog.raise (.vault
      s!"Vault key {keyName} already exists; refusing to adopt a key Certadillo did not create" none)
  | .error (.vault message status) => if status = some 404 then pure () else Prog.raise (.vault message status)
  | .error e => Prog.raise e

/-- `generate` -/
def generate (w : World σ PublicKey Hash) (store : KeyStore) (name alg : String) : Call σ PublicKey (Signer PublicKey) := do
  match VAULT_TYPES.lookup alg with
  | none =>
    let known := join ", " (sorted (VAULT_TYPES.map (·.1)))
    Prog.raise (.vault s!"algorithm {alg} is not supported for Vault-held CA keys (use one of {known})" none)
  | some type =>
    let keyName := store.keyPrefix ++ name
    mustBeNew w store keyName
    let _ ← request w store.client "POST" (keysPath store keyName)
      (some (.obj [("type", .str type), ("exportable", .bool false), ("allow_plaintext_backup", .bool false)]))
    let info ← keyInfo w store keyName
    if truthy (← lift (dget info "exportable")) || truthy (← lift (dget info "allow_plaintext_backup")) then
      Prog.raise (.vault s!"Vault key {keyName} was created exportable; refusing to use it" none)
    else
      let version ← lift (do intOfJson (← item info "latest_version"))
      signer w store keyName version (some info)

/-- `load` -/
def load (w : World σ PublicKey Hash) (store : KeyStore) (keyRef : String) : Call σ PublicKey (Signer PublicKey) :=
  if !startsWith keyRef.toList scheme.toList then
    Prog.raise (.vault s!"not a Vault Transit key reference: {keyRef}" none)
  else do
    let parts := rpartition ':' (keyRef.toList.drop scheme.length)
    let version ← lift (intOfJson (.str (String.ofList parts.2)))
    signer w store (String.ofList parts.1) version none

structure Health where
  key : String
  version : ℤ
  latestVersion : Json
  exportable : Bool
  deletionAllowed : Bool
  versionPresent : Bool

/-- `health` -/
def health (w : World σ PublicKey Hash) (store : KeyStore) (keyRef : String) : Call σ PublicKey Health := do
  let parts := rpartition ':' (keyRef.toList.drop scheme.length)
  let info ← keyInfo w store (String.ofList parts.1)
  let version ← lift (intOfJson (.str (String.ofList parts.2)))
  let latest ← lift (dget info "latest_version")
  let exportable ← lift (dget info "exportable")
  let deletion ← lift (dget info "deletion_allowed")
  let present ← lift (do isIn (String.ofList parts.2) (orDict (← dget info "keys")))
  pure ⟨String.ofList parts.1, version, latest, truthy exportable, truthy deletion, present⟩

/-! ## Signatures -/

/-- `base64.b64decode` of a text -/
def b64decode (text : Chars) : Except Err Octets :=
  if text.any fun c => 128 ≤ c.toNat then .error (.value "string argument should contain only ASCII characters")
  else
    match Base64.decode text with
    | some b => .ok b
    | none => .error (.value "Incorrect padding")

def signPath (store : KeyStore) (keyName : String) : String := store.mount ++ "/sign/" ++ keyName

def paddingOf (w : World σ PublicKey Hash) (s : Signer PublicKey) : Padding :=
  if w.isRsa s.publicKey then .pkcs1v15 else .ecdsa

/-- what Vault is asked to sign, and how: the version is named, and the padding X.509 needs -/
def signBody (w : World σ PublicKey Hash) (s : Signer PublicKey) (hash : String) (data : Octets) : Json :=
  .obj ([("input", .str (String.ofList (Base64.encode data))), ("hash_algorithm", .str hash),
    ("key_version", .num s.version)] ++
    if w.isRsa s.publicKey then [("signature_algorithm", .str "pkcs1v15")] else [("marshaling_algorithm", .str "asn1")])

/-- the three parts of a signature: `vault`, the version and the signature itself -/
def signatureParts (resp : Json) : Except Failure (Chars × Chars × Chars) :=
  let read : Except Err (Chars × Chars × Chars) := do
    match ← item (← item resp "data") "signature" with
    | .str text =>
      match split3 text.toList with
      | some parts => pure parts
      | none => throw (.value "not enough values to unpack")
    | _ => throw (.attribute "object has no attribute 'split'")
  match read with
  | .ok parts => .ok parts
  | .error (.key _) | .error (.value _) => .error (.vault "Vault returned no signature" none)
  | .error e => .error (.other e)

/-- the checks before a signature is used -/
def checked (w : World σ PublicKey Hash) (s : Signer PublicKey) (data : Octets) (hash : Hash) (resp : Json) :
    Except Failure Octets := do
  let (kind, version, b64) ← signatureParts resp
  let expected := str s.version
  if kind ≠ "vault".toList ∨ version ≠ 'v' :: expected.toList then
    let shown := String.ofList version
    throw (.vault s!"Vault signed with key version {shown}, expected v{expected}" none)
  else
    let sig ← (b64decode b64).mapError .other
    let valid ← (w.verify s.publicKey (paddingOf w s) sig data hash).mapError .other
    if valid then pure sig
    else
      let keyName := s.keyName
      throw (.vault (s!"signature from Vault key {keyName} v{expected} does not verify " ++
        "against the pinned public key") none)

/-- `VaultTransitSigner.sign` -/
def sign (w : World σ PublicKey Hash) (store : KeyStore) (s : Signer PublicKey) (data : Octets) (hash : Hash) :
    Call σ PublicKey Octets :=
  match HASHES.lookup (w.hashName hash) with
  | none =>
    let name := w.hashName hash
    Prog.raise (.vault s!"hash {name} is not supported by the Vault signer" none)
  | some alg => do
    let resp ← request w store.client "POST" (signPath store s.keyName) (some (signBody w s alg data))
    Prog.ofExcept (checked w s data hash resp)

/-- what `signer_for` reads of a CA: its name, its key's reference, and the public key of its certificate -/
structure Ca (PublicKey : Type) where
  name : String
  keyRef : String
  publicKey : PublicKey

/-- `CAService.signer_for`, over this key store -/
def signerFor (w : World σ PublicKey Hash) (store : KeyStore) (ca : Ca PublicKey) : Call σ PublicKey (Signer PublicKey) :=
  let name := ca.name
  let ref := ca.keyRef
  if startsWith ca.keyRef.toList "offline:".toList then
    Prog.raise (.other (.runtime (s!"CA {name}'s key is offline; sign with it in the offline ceremony " ++
      "(`certadillo offline-root`), not on this server")))
  else do
    let signer ← load w store ca.keyRef
    if w.spki signer.publicKey ≠ w.spki ca.publicKey then
      Prog.raise (.other (.runtime s!"the key behind {ref} does not match CA {name}'s certificate; refusing to sign"))
    else pure signer

end Model

/-! ## What a call gives -/

section Calls

variable {σ PublicKey Hash : Type} {w : World σ PublicKey Hash} {store : KeyStore} {p : List ((String × ℤ) × PublicKey)}

theorem mapError_eq_ok {ε ε' α : Type} {x : Except ε α} {f : ε → ε'} {a : α} : x.mapError f = .ok a ↔ x = .ok a := by
  cases x <;> simp [Except.mapError]

/-- what passes the checks is a signature by the pinned key -/
theorem checked_verified {s : Signer PublicKey} {data sig : Octets} {hash : Hash} {resp : Json}
    (h : checked w s data hash resp = .ok sig) : w.verify s.publicKey (paddingOf w s) sig data hash = .ok true := by
  unfold checked at h
  obtain ⟨⟨kind, version, b64⟩, -, h⟩ := except_bind_ok.1 h
  dsimp only at h
  split at h
  · cases h
  · obtain ⟨raw, -, h⟩ := except_bind_ok.1 h
    obtain ⟨valid, hvalid, h⟩ := except_bind_ok.1 h
    split at h
    · next hv =>
      cases h
      rw [← hv]
      exact mapError_eq_ok.1 hvalid
    · cases h

/-- a request leaves the public keys alone -/
theorem request_pubs (c : VaultClient) (method path : String) (json : Option Json) :
    Prog.Holds (fun a : Process σ PublicKey => a.pubs = p) (request w c method path json) (fun _ a => a.pubs = p)
      (fun _ a => a.pubs = p) := Prog.holds_talk_state fun _ h => h

/-- **Only a signature that verifies under the pinned key is returned**, whatever Vault answers. -/
theorem sign_verified (s : Signer PublicKey) (data : Octets) (hash : Hash) :
    Prog.Holds (fun a : Process σ PublicKey => a.pubs = p) (sign w store s data hash)
      (fun sig a => a.pubs = p ∧ w.verify s.publicKey (paddingOf w s) sig data hash = .ok true) (fun _ a => a.pubs = p) := by
  unfold sign
  cases HASHES.lookup (w.hashName hash) with
  | none => exact Prog.holds_raise _ fun _ h => h
  | some alg =>
    exact Prog.holds_bind (request_pubs _ _ _ _) fun resp =>
      Prog.holds_ofExcept (fun sig a h ha => ⟨ha, checked_verified h⟩) fun e a h ha => ha

theorem lift_pubs {α : Type} (x : Except Err α) :
    Prog.Holds (fun a : Process σ PublicKey => a.pubs = p) (lift x) (fun _ a => a.pubs = p) (fun _ a => a.pubs = p) :=
  Prog.holds_ofExcept (fun _ _ _ h => h) fun _ _ _ h => h

theorem keyInfo_pubs (keyName : String) :
    Prog.Holds (fun a : Process σ PublicKey => a.pubs = p) (keyInfo w store keyName) (fun _ a => a.pubs = p)
      (fun _ a => a.pubs = p) := Prog.holds_bind (request_pubs _ _ _ _) fun _ => lift_pubs _

/-- the store remembers at least these public keys -/
def Extends (p q : List ((String × ℤ) × PublicKey)) : Prop := ∀ k pub, p.lookup k = some pub → q.lookup k = some pub

/-- the store remembers the public key of the signer -/
def Pinned (s : Signer PublicKey) (a : Process σ PublicKey) : Prop :=
  a.pubs.lookup (s.keyName, s.version) = some s.publicKey

theorem Extends.refl : Extends p p := fun _ _ h => h

theorem Extends.trans {q r : List ((String × ℤ) × PublicKey)} (h : Extends p q) (h' : Extends q r) : Extends p r :=
  fun k pub hk => h' k pub (h k pub hk)

theorem extends_cons {k : String × ℤ} {pub : PublicKey} (h : p.lookup k = none) : Extends p ((k, pub) :: p) := by
  intro k' pub' hk'
  have hne : k' ≠ k := by
    rintro rfl
    rw [h] at hk'
    cases hk'
  have hbeq : (k' == k) = false := by simpa using hne
  rw [List.lookup_cons, hbeq]
  exact hk'

/-- what `_signer` gives: the signer asked for, with the public key the store remembers from here on -/
def Gives (p : List ((String × ℤ) × PublicKey)) (keyName : String) (version : ℤ) (s : Signer PublicKey)
    (a : Process σ PublicKey) : Prop := Extends p a.pubs ∧ Pinned s a ∧ s.keyName = keyName ∧ s.version = version

/-- **The store gives out the public key it remembers, and never replaces one.** -/
theorem signer_pins (keyName : String) (version : ℤ) (info : Option Json) :
    Prog.Holds (fun a : Process σ PublicKey => a.pubs = p) (signer w store keyName version info)
      (Gives p keyName version) (fun _ a => a.pubs = p) := by
  unfold signer
  refine Prog.holds_get_bind fun d hd => ?_
  cases hlookup : d.pubs.lookup (keyName, version) with
  | some pub =>
    refine Prog.holds_pure _ fun a h => ?_
    obtain ⟨rfl, rfl⟩ := h
    exact ⟨.refl, hlookup, rfl, rfl⟩
  | none =>
    rw [hd] at hlookup
    refine Prog.holds_bind (Q := fun _ (a : Process σ PublicKey) => a.pubs = p) ?_ fun info' => ?_
    · unfold infoOr
      cases info.filter truthy with
      | some i => exact Prog.holds_pure _ fun a h => h.1
      | none => exact (keyInfo_pubs keyName).pre fun a h => h.1
    · refine Prog.holds_bind (Q := fun _ (a : Process σ PublicKey) => a.pubs = p) (Prog.holds_ofExcept (fun _ _ _ h => h) fun _ _ _ h => h) fun pub => ?_
      refine Prog.holds_bind (Q := fun _ (a : Process σ PublicKey) => a.pubs = ((keyName, version), pub) :: p)
        (Prog.holds_modify fun (a : Process σ PublicKey) (h : a.pubs = p) => by rw [h]) fun _ => Prog.holds_pure _ fun a h => ?_
      refine ⟨?_, ?_, rfl, rfl⟩
      · rw [h]
        exact extends_cons hlookup
      · simp [Pinned, h]

theorem load_pins (keyRef : String) :
    Prog.Holds (fun a : Process σ PublicKey => a.pubs = p) (load w store keyRef) (fun s a => Extends p a.pubs ∧ Pinned s a)
      (fun _ a => a.pubs = p) := by
  unfold load
  split
  · exact Prog.holds_raise _ fun _ h => h
  · dsimp only
    generalize rpartition ':' _ = parts
    exact Prog.holds_bind (lift_pubs _) fun version => (signer_pins _ version none).post fun s a h => ⟨h.1, h.2.1⟩

theorem generate_pins (name alg : String) :
    Prog.Holds (fun a : Process σ PublicKey => a.pubs = p) (generate w store name alg)
      (fun s a => Extends p a.pubs ∧ Pinned s a) (fun _ a => a.pubs = p) := by
  unfold generate
  cases VAULT_TYPES.lookup alg with
  | none => exact Prog.holds_raise _ fun _ h => h
  | some type =>
    dsimp only
    have hnew : Prog.Holds (fun a : Process σ PublicKey => a.pubs = p) (mustBeNew w store (store.keyPrefix ++ name))
        (fun _ a => a.pubs = p) (fun _ a => a.pubs = p) := by
      refine Prog.holds_bind (Prog.holds_attempt (keyInfo_pubs _)) fun r => ?_
      cases r with
      | ok info => exact Prog.holds_raise _ fun _ h => h
      | error e =>
        cases e with
        | other e => exact Prog.holds_raise _ fun _ h => h
        | vault message status =>
          dsimp only
          split
          · exact Prog.holds_pure _ fun _ h => h
          · exact Prog.holds_raise _ fun _ h => h
    refine Prog.holds_bind hnew fun _ => Prog.holds_bind (request_pubs _ _ _ _) fun _ => ?_
    refine Prog.holds_bind (keyInfo_pubs _) fun info => Prog.holds_bind (lift_pubs _) fun exportable => ?_
    refine Prog.holds_bind (lift_pubs _) fun backup => ?_
    split
    · exact Prog.holds_raise _ fun _ h => h
    · exact Prog.holds_bind (lift_pubs _) fun version => (signer_pins _ version _).post fun s a h => ⟨h.1, h.2.1⟩

theorem signerFor_pins (ca : Ca PublicKey) :
    Prog.Holds (fun a : Process σ PublicKey => a.pubs = p) (signerFor w store ca)
      (fun s a => Extends p a.pubs ∧ Pinned s a ∧ w.spki s.publicKey = w.spki ca.publicKey)
      (fun _ a => Extends p a.pubs) := by
  unfold signerFor
  dsimp only
  split
  · refine Prog.holds_raise _ fun a h => ?_
    rw [h]
    exact .refl
  · refine Prog.holds_bind ((load_pins ca.keyRef).mono (fun _ h => h) (fun _ _ h => h) fun e a h => ?_) fun s => ?_
    · rw [h]
      exact .refl
    · split
      · exact Prog.holds_raise _ fun a h => h.1
      · next hsame => exact Prog.holds_pure _ fun a h => ⟨h.1, h.2, not_not.1 hsame⟩

theorem health_pubs (keyRef : String) :
    Prog.Holds (fun a : Process σ PublicKey => a.pubs = p) (health w store keyRef) (fun _ a => a.pubs = p)
      (fun _ a => a.pubs = p) := by
  unfold health
  dsimp only
  generalize rpartition ':' _ = parts
  refine Prog.holds_bind (keyInfo_pubs _) fun info => Prog.holds_bind (lift_pubs _) fun version => ?_
  refine Prog.holds_bind (lift_pubs _) fun latest => Prog.holds_bind (lift_pubs _) fun exportable => ?_
  refine Prog.holds_bind (lift_pubs _) fun deletion => Prog.holds_bind (lift_pubs _) fun present => ?_
  exact Prog.holds_pure _ fun _ h => h

/-! ## Coming to an end -/

section Ends

open Prog (Ends ends_bind ends_pure ends_raise ends_get ends_modify ends_ofExcept ends_talk ends_attempt)

theorem ends_keyInfo (keyName : String) : Ends (keyInfo w store keyName) :=
  ends_bind (ends_talk _) fun _ => ends_ofExcept _

theorem ends_signer (keyName : String) (version : ℤ) (info : Option Json) : Ends (signer w store keyName version info) := by
  refine ends_bind ends_get fun s => ?_
  cases s.pubs.lookup (keyName, version) with
  | some pub => exact ends_pure _
  | none =>
    refine ends_bind ?_ fun info => ends_bind (ends_ofExcept _) fun pub => ends_bind (ends_modify _) fun _ => ends_pure _
    unfold infoOr
    cases info.filter truthy with
    | some i => exact ends_pure _
    | none => exact ends_keyInfo _

theorem ends_load (keyRef : String) : Ends (load w store keyRef) := by
  unfold load
  split
  · exact ends_raise _
  · dsimp only
    generalize rpartition ':' _ = parts
    exact ends_bind (ends_ofExcept _) fun version => ends_signer _ _ _

theorem ends_generate (name alg : String) : Ends (generate w store name alg) := by
  unfold generate
  cases VAULT_TYPES.lookup alg with
  | none => exact ends_raise _
  | some type =>
    dsimp only
    have hnew : Ends (mustBeNew w store (store.keyPrefix ++ name)) := by
      refine ends_bind (ends_attempt (ends_keyInfo _)) fun r => ?_
      split
      · exact ends_raise _
      · split
        · exact ends_pure _
        · exact ends_raise _
      · exact ends_raise _
    refine ends_bind hnew fun _ => ends_bind (ends_talk _) fun _ => ends_bind (ends_keyInfo _) fun info => ?_
    refine ends_bind (ends_ofExcept _) fun exportable => ends_bind (ends_ofExcept _) fun backup => ?_
    split
    · exact ends_raise _
    · exact ends_bind (ends_ofExcept _) fun version => ends_signer _ _ _

theorem ends_signerFor (ca : Ca PublicKey) : Ends (signerFor w store ca) := by
  unfold signerFor
  dsimp only
  split
  · exact ends_raise _
  · refine ends_bind (ends_load _) fun s => ?_
    split
    · exact ends_raise _
    · exact ends_pure _

theorem ends_sign (s : Signer PublicKey) (data : Octets) (hash : Hash) : Ends (sign w store s data hash) := by
  unfold sign
  cases HASHES.lookup (w.hashName hash) with
  | none => exact ends_raise _
  | some alg => exact ends_bind (ends_talk _) fun resp => ends_ofExcept _

theorem ends_health (keyRef : String) : Ends (health w store keyRef) := by
  unfold health
  dsimp only
  generalize rpartition ':' _ = parts
  refine ends_bind (ends_keyInfo _) fun info => ends_bind (ends_ofExcept _) fun version => ?_
  refine ends_bind (ends_ofExcept _) fun latest => ends_bind (ends_ofExcept _) fun exportable => ?_
  exact ends_bind (ends_ofExcept _) fun deletion => ends_bind (ends_ofExcept _) fun present => ends_pure _

end Ends

/-! ## References -/

/-- **A reference loads the key and the version it was made of**, also of a key whose name has colons in it. -/
theorem load_keyRef (s : Signer PublicKey) :
    load w store s.keyRef = signer w store s.keyName s.version none := by
  have hchars : s.keyRef.toList = scheme.toList ++ (s.keyName.toList ++ ':' :: JsonText.intText s.version) := by
    simp [Signer.keyRef, str, String.toList_append, List.append_assoc]
  have hlen : scheme.length = scheme.toList.length := by rfl
  have hstart : startsWith s.keyRef.toList scheme.toList = true := by
    rw [hchars]
    exact startsWith_append _ _
  have hparts : rpartition ':' (s.keyRef.toList.drop scheme.length) = (s.keyName.toList, JsonText.intText s.version) := by
    rw [hchars, hlen, List.drop_left, rpartition_append (colon_notMem_intText _)]
  have hint : intOfJson (.str (String.ofList (JsonText.intText s.version))) = .ok s.version := by
    simp [intOfJson, intOf_intText]
  unfold load
  rw [hstart, hparts]
  simp only [Bool.not_true, Bool.false_eq_true, if_false, hint, String.ofList_toList]
  rfl

/-- the reference of a signer the store remembers loads that signer, without a word to Vault -/
theorem load_pinned {s : Signer PublicKey} {a : Process σ PublicKey} (h : Pinned s a) :
    load w store s.keyRef a = (.returned s, a) := by
  rw [load_keyRef]
  unfold signer
  rw [Prog.bind_returned (m := Prog.get) rfl, h]
  rfl

end Calls

end Certadillo.VaultSigner
