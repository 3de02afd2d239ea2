/-
The code-signing service (`codesign/service.py`): requesting a key, creating it when the approval is granted, requesting
a signature, signing and rejecting.
-/
import Certadillo.Services.Issuance

namespace Certadillo

open Integrity Policy Py

namespace CodeSign

open Platform

/-- `NAME`, matched in full -/
def nameOk (s : Chars) : Bool :=
  let first (c : Char) : Bool := ('a' ≤ c && c ≤ 'z') || ('0' ≤ c && c ≤ '9')
  3 ≤ s.length && s.length ≤ 61 && (s.head?.map first).getD false && s.all fun c => first c || c = '-'

/-- what the code-signing profile accepts -/
def ALGS : List String := ["ec-p384", "rsa-3072", "rsa-4096"]

/-- digest algorithm to digest length in bytes -/
def DIGEST_LEN : List (String × ℕ) := [("sha256", 32), ("sha384", 48), ("sha512", 64)]

def requestKey (env : Env) (actor : Actor) (name : String) (appId : ℕ) (purpose alg : String) : M ℕ := do
  lift (actor.require [.admin, .operator])
  let d ← Tx.get
  let algs := join ", " (sorted ALGS)
  if !nameOk name.toList then raise (.value "key names are 3-61 lowercase letters, digits and hyphens")
  else if purpose ≠ "release" && purpose ≠ "test" then raise (.value "purpose must be release or test")
  else if !ALGS.contains alg then raise (.value s!"alg must be one of {algs}")
  else if ((d.apps.get appId).map (·.status)) ≠ some .active then
    raise (.value "the app must exist and be active")
  else if (d.signingKeys.first fun k => k.name = name).isSome then
    raise (.value s!"a signing key named {name} already exists")
  else
    requestApproval env actor .codesignKeyCreate
      [("name", .str name), ("app_id", .num appId), ("purpose", .str purpose), ("alg", .str alg)]

/-- the payload of a codesign_key_create approval -/
structure KeyArgs where
  name : String
  appId : ℕ
  purpose : String
  alg : String

def KeyArgs.ofPayload (p : Json) : Except Err KeyArgs := do
  pure ⟨← toStr (← item p "name"), ← toId (← item p "app_id"), ← toStr (← item p "purpose"),
    ← toStr (← item p "alg")⟩

/-- Runs when the approval is granted: key in the keystore, certificate from the code-signing profile, both recorded.
Returns the keys it adds to the payload. -/
def createKeyNow (env : Env) (requestedBy decidedBy : String) (a : KeyArgs) : M (List (String × Json)) := do
  let d ← Tx.get
  match d.apps.get a.appId with
  | none => raise (.attribute "'NoneType' object has no attribute 'name'")
  | some app =>
    let keyName := a.name
    let appName := app.name
    let signer ← lift (libCall .other (env.keystoreGenerate s!"codesign-{keyName}" a.alg))
    let csr : Csr := ⟨.ok signer.publicKey, some true, [s!"{appName} code signing ({keyName})"], none⟩
    let decision ← lift (evaluateRequest env d csr app "code-signing" none none none false)
    let certId ← sign env csr decision a.appId app "codesign" ⟨requestedBy, .operator, none⟩
    let keyId ← addPlain Col.signingKeys (unique "signing_keys.name" SigningKey.name a.name)
      ⟨a.name, a.appId, a.purpose, a.alg, signer.keyRef, signer.kind, some certId, "active", requestedBy⟩
    let d ← Tx.get
    record env decidedBy "codesign.key.create" a.name
      [("app", .str app.name), ("purpose", .str a.purpose), ("key_ref", .str signer.keyRef),
        ("signer", .str signer.kind), ("certificate", .ofStr? ((d.certificates.get certId).map (·.serialHex))),
        ("requested_by", .str requestedBy)]
    pure [("signing_key_id", .num keyId), ("certificate_id", .num certId)]

/-- `_may_sign` -/
def maySign (actor : Actor) (key : SigningKey) : Except Err Unit :=
  if actor.role = .app then
    if actor.appId ≠ some key.appId then .error (.forbidden "this signing key belongs to another app") else .ok ()
  else if actor.role ≠ .admin && actor.role ≠ .operator then
    .error (.forbidden "only the owning app, an operator or an admin can request signatures")
  else .ok ()

/-- the certificate a signing request is signed under: active, sealed and not expired -/
def signingCert (env : Env) (d : Db) (key : SigningKey) : Except Err (Certificate × X509Cert) :=
  match key.certificateId.bind d.certificates.get with
  | none => .error (.value "the signing key's certificate is not active")
  | some row =>
    if row.status ≠ .active || !verify env.st row then
      .error (.value "the signing key's certificate is not active")
    else do
      let cert ← CAService.loadPem env row.pem
      if cert.tbs.notAfter ≤ env.now then throw (.value "the signing key's certificate has expired")
      else pure (row, cert)

def signNow (env : Env) (requestId : ℕ) (decidedBy : String) : M Unit := do
  let d ← Tx.get
  match d.signingRequests.get requestId with
  | none => raise (.attribute "'NoneType' object has no attribute 'key_id'")
  | some req =>
    match d.signingKeys.get req.keyId with
    | none => raise (.attribute "'NoneType' object has no attribute 'status'")
    | some key =>
      if req.status ≠ .pending then
        let status := match req.status with
          | .signed => "signed"
          | .rejected => "rejected"
          | .failed => "failed"
          | .pending => "pending"
        raise (.value s!"signing request already {status}")
      else if key.status ≠ "active" then raise (.value "the signing key was retired")
      else
        let (row, cert) ← lift (signingCert env d key)
        let _ ← lift (match row.caId.bind d.cas.get with
          | some ca => CAService.chain env d (row.caId.getD 0, ca)
          | none => pure [])
        let signer ← lift (libCall .other (env.keystoreLoad key.keyRef))
        -- the timestamp over the signature is made inside `signed_data`
        let tsaCa ← lift (CAService.defaultIssuing env d)
        let _ ← CAService.ensureTsa env tsaCa.1 tsaCa.2
        let der ← lift (libCall .value (env.signedData signer cert req.digestAlg req.digestHex))
        setPlain Col.signingRequests requestId fun r =>
          { r with signatureDer := some der, status := .signed, signedAt := some env.now }
        record env decidedBy "codesign.sign" key.name
          (updateItems [("request", .num requestId), ("digest_alg", .str req.digestAlg),
            ("digest", .str req.digestHex), ("certificate", .str row.serialHex),
            ("timestamp_serial", .num (env.randomSerial 3))] req.artifact)

def reject (env : Env) (requestId : ℕ) (decidedBy : String) : M Unit := do
  let d ← Tx.get
  match d.signingRequests.get requestId with
  | none => pure ()
  | some req =>
    if req.status ≠ .pending then pure ()
    else
      setPlain Col.signingRequests requestId fun r => { r with status := .rejected }
      record env decidedBy "codesign.reject" (toString requestId)
        (updateItems [("key_id", .num req.keyId)] req.artifact)

/-- hexadecimal digits, as many as the algorithm's digest has -/
def digestOk (len : ℕ) (s : Chars) : Bool := s.length = len * 2 && s.all fun c => (hexVal c).isSome

/-- the artifact's known fields, cut to 200 characters -/
def artifactFields (artifact : List (String × String)) : List (String × Json) :=
  (artifact.filter fun p => ["name", "version", "commit", "pipeline"].contains p.1).map fun p =>
    (p.1, .str (String.ofList (p.2.toList.take 200)))

def requestSignature (env : Env) (actor : Actor) (keyName digestAlg digestHex : String)
    (artifact : List (String × String)) : M ℕ := do
  let d ← Tx.get
  match ← lift (oneOrNone d.signingKeys fun k => k.name = keyName) with
  | none => raise (.lookup s!"no active signing key named {keyName}")
  | some (keyId, key) =>
    if key.status ≠ "active" then raise (.lookup s!"no active signing key named {keyName}")
    else
      lift (maySign actor key)
      let digestAlg := String.ofList (env.lower digestAlg.toList)
      match DIGEST_LEN.lookup digestAlg with
      | none => raise (.value "digest_alg must be sha256, sha384 or sha512")
      | some len =>
        let chars := len * 2
        let art := artifactFields artifact
        let named := ((art.lookup "name").map truthy).getD false
        if !digestOk len digestHex.toList then
          raise (.value s!"digest must be {chars} hex characters for {digestAlg}")
        else if !named then
          raise (.value "artifact.name is required, so the audit trail says what was signed")
        else
          let digest := String.ofList (env.lower digestHex.toList)
          let id ← addPlain Col.signingRequests noClash
            ⟨keyId, actor.name, digestAlg, digest, art, .pending, none, none, none⟩
          record env actor.name "codesign.request" key.name
            (updateItems [("request", .num id), ("digest_alg", .str digestAlg), ("digest", .str digest)] art)
          if key.purpose = "release" then
            let approval ← requestApproval env actor .codeSign
              (updateItems [("request_id", .num id), ("key", .str key.name), ("digest", .str digest)] art)
            setPlain Col.signingRequests id fun r => { r with approvalId := some approval }
          else signNow env id "policy:test-key"
          pure id

end CodeSign

end Certadillo
