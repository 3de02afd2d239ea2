/-
The registration authority (`services.py`): certificate requests, signing, renewal, revocation, the AD CS gateway and
the inventory.

A directory failure or a disabled account is recorded and committed before it raises (`applyLogonSid`), as are the
rejections of `requestCertificate`.
-/
import Certadillo.Services.Onboarding

namespace Certadillo

open Integrity Policy Py

namespace Platform

/-- `str(PolicyError)` -/
def policyText (v : Violations) : String := join "; " (v.map fun (r, m) => s!"{r}: {m}")

/-- violations in an audit event's details -/
def violationsJson (v : Violations) : Json := .arr (v.map fun p => .arr [.str p.1, .str p.2])

/-! ## Evaluation -/

/-- `_evaluate`: the profile's rules, then the app's policy folder on top -/
def evaluateRequest (env : Env) (d : Db) (csr : Csr) (app : App) (profileName : String) (days hours : Option ℤ)
    (prevFp : Option String) (popVerified : Bool) : Except Err Decision := do
  let decision ← evaluate env.lower env.sha256 env.policies csr profileName app.allowedDomains days hours prevFp
    popVerified
  let eff ← Folders.effective d.folders app.folderId
  Folders.apply env.lower eff decision csr days hours

/-- the rejection of a Windows logon request is kept in the audit trail -/
def rejectLogon {α : Type} (env : Env) (decision : Decision) (app : App) (protocol : String) (v : Violations) : M α := do
  record env "system" "certificate.rejected" app.name
    [("profile", .str decision.profile), ("protocol", .str protocol), ("violations", violationsJson v)]
  Tx.commit
  raise (.policy v)

/-- what the directory lookup comes to -/
inductive LogonAnswer where
  | unconfigured
  | refused (v : Violations)
  | account (a : Account)

/-- `resolve_upn` of the decision's UPN: refused when the lookup fails or the account is disabled -/
def logonAnswer (env : Env) (decision : Decision) : LogonAnswer :=
  match env.directory with
  | none => .unconfigured
  | some resolveUpn =>
    let upn := decision.upns.head?.getD ""
    match resolveUpn upn with
    | .error exc => .refused [("directory", exc)]
    | .ok account =>
      if !account.enabled then .refused [("account_disabled", s!"account for {upn} is disabled")] else .account account

/-- `_apply_logon_sid`: resolve the UPN's account SID, failing closed. The flag says that the account is sensitive. -/
def applyLogonSid (env : Env) (decision : Decision) (app : App) (protocol : String) : M (Decision × Bool) :=
  match logonAnswer env decision with
  | .unconfigured =>
    raise (.policy [("directory", "Windows logon needs CERTADILLO_ADCS_LDAP_URL, _USER, _PASSWORD, _BASE")])
  | .refused v => rejectLogon env decision app protocol v
  | .account account => pure ({ decision with sid := some account.sid }, account.adminCount)

/-! ## Signing -/

/-- `_check_upstream`: the requested key, and no name the policy did not approve -/
def checkUpstream (leaf : X509Cert) (csr : Csr) (decision : Decision) (issuer : String) : Except Err Unit := do
  let leafKey ← match leaf.tbs.publicKey with
    | some k => pure k
    | none => throw (.value "the certificate's public key cannot be read")
  let csrKey ← libCall .value csr.publicKey
  if leafKey.spki ≠ csrKey.spki then throw (.runtime s!"issuer {issuer} returned a certificate for a different key")
  else
    let names := (leaf.tbs.san.getD .none).dns
    let extra := sorted (names.dedup.filter fun n => !decision.dnsNames.contains n)
    let shown := listRepr extra
    if extra.isEmpty then pure ()
    else throw (.runtime s!"issuer {issuer} added names the policy did not approve: {shown}")

/-- the issuer of a decision: the folder's, else the profile's, else local -/
def issuerOf (env : Env) (decision : Decision) : Except Err String :=
  match decision.issuer.filter (· ≠ "") with
  | some i => .ok i
  | none =>
    match env.policies.profiles.lookup decision.profile with
    | some prof => .ok (prof.issuer.getD "local")
    | none => .error (.key decision.profile)

/-- the row `_sign` adds: signed by a local CA, or by an upstream issuer whose certificate passes the check -/
def signRow (env : Env) (d : Db) (csr : Csr) (decision : Decision) (appId : ℕ) : Except Err Certificate := do
  let issuer ← issuerOf env decision
  if issuer = "local" then
    let ca ← match decision.ca.filter (· ≠ "") with
      | some name => do pure (some (← CAService.get d name))
      | none => pure none
    let (caId, cert) ← CAService.prepare env d csr decision ca
    pure { certRow env cert .issued (some appId) with caId := some caId, profile := some decision.profile }
  else
    match env.getBackend issuer with
    | none => throw (.runtime s!"issuer backend '{issuer}' is not configured")
    | some backend =>
      let (leaf, chain, ref) ← libCall .other (backend.sign csr decision)
      checkUpstream leaf csr decision issuer
      pure { certRow env leaf .issued (some appId) with
        profile := some decision.profile
        backend := issuer
        backendRef := ref
        chainPem := some (String.join (chain.map X509Cert.pem)) }

/-- `_sign` -/
def sign (env : Env) (csr : Csr) (decision : Decision) (appId : ℕ) (app : App) (protocol : String) (actor : Actor) :
    M ℕ := do
  let d ← Tx.get
  let row ← lift (signRow env d csr decision appId)
  let id ← addCertificate env row
  setRow env Col.certificates id fun c => { c with protocol := some protocol }
  record env actor.name "certificate.issue" row.serialHex
    [("app", .str app.name), ("profile", .str decision.profile), ("protocol", .str protocol),
      ("backend", .str row.backend), ("sans", .ofStrs row.sans), ("not_after", .num row.notAfter)]
  pure id

/-! ## AD CS jobs -/

/-- `gateway.enqueue_issue`: an identical CSR already pending or claimed for the app is not queued twice -/
def enqueueIssue (env : Env) (appId : ℕ) (profileName csrPem : String) (ca tmpl : Option String)
    (requestedBy : String) : M ℕ := do
  let h := env.sha256 (String.ofList (strip csrPem.toList))
  let d ← Tx.get
  match d.jobs.first fun j => j.jobType = .issue && j.appId = some appId && j.csrHash = some h &&
      (j.status = .pending || j.status = .claimed) with
  | some (id, _) => pure id
  | none =>
    addPlain Col.jobs noClash
      ⟨.issue, .pending, some appId, some profileName, ca, tmpl, some csrPem, some h, none, none, none, none, none, none,
        some requestedBy, none, none, none⟩

/-- `_enqueue_adcs_issue` -/
def enqueueAdcsIssue (env : Env) (actor : Actor) (appId : ℕ) (app : App) (decision : Decision)
    (csrPem : Option String) : M ℕ :=
  match csrPem.filter (· ≠ "") with
  | none => raise (.policy [("adcs_csr", "the AD CS gateway needs a PKCS#10 CSR (not a CMP template)")])
  | some pem => do
    let prof := env.policies.profiles.lookup decision.profile
    let tmpl := prof.bind (·.adcsTemplate)
    let id ← enqueueIssue env appId decision.profile pem (prof.bind (·.adcsCa)) tmpl actor.name
    record env actor.name "adcs.job.issue" s!"job:{id}"
      [("app", .str app.name), ("profile", .str decision.profile), ("template", .ofStr? tmpl)]
    pure id

/-- the profile's certificates come from the AD CS gateway -/
def isAdcs (env : Env) (profileName : String) : Bool :=
  ((env.policies.profiles.lookup profileName).bind (·.issuer)) = some "adcs"

/-! ## Requests -/

/-- `TemplateRequest.to_payload` -/
def templatePayload (env : Env) (t : Csr) : Json :=
  .obj [("subject", .str (env.template.name t.commonNames)),
    ("spki", match t.publicKey with
      | .ok k => .str k.spki
      | .error _ => .null),
    ("san", .ofStr? (t.san.map env.template.san))]

/-- `TemplateRequest.from_payload` -/
def templateOfPayload (env : Env) (j : Json) : Except Err Csr := do
  let sanJ ← dget j "san"
  let san ← if truthy sanJ then do
      let der ← toStr sanJ
      let san ← libCall .value (env.template.sanFromDer der)
      pure (some san)
    else pure none
  let names ← libCall .value (env.template.nameFromDer (← toStr (← item j "subject")))
  let key ← libCall .value (env.template.loadDerPublicKey (← toStr (← item j "spki")))
  pure (.template names key san)

/-- what `request_certificate` is asked: a PKCS#10 request or a template, with the front end's options -/
structure CertRequest where
  csrPem : Option String
  profile : Option String
  days : Option ℤ
  hours : Option ℤ
  protocol : String
  /-- the certificate this one replaces -/
  previous : Option ℕ
  popVerified : Bool
  template : Option Csr

/-- the payload of an issue_certificate approval -/
def issuePayload (env : Env) (appId : ℕ) (profileName : String) (r : CertRequest) : List (String × Json) :=
  [("app_id", .num appId), ("csr_pem", .ofStr? r.csrPem),
    ("template", match r.template with
      | some t => templatePayload env t
      | none => .null),
    ("profile", .str profileName),
    ("days", match r.days with
      | some n => .num n
      | none => .null),
    ("hours", match r.hours with
      | some n => .num n
      | none => .null),
    ("protocol", .str r.protocol), ("previous_id", .ofNat? r.previous), ("pop_verified", .bool r.popVerified)]

/-- what a request led to -/
inductive Outcome where
  | certificate (id : ℕ)
  | approval (id : ℕ)
  | job (id : ℕ)
deriving DecidableEq

/-- the checks before the request itself is read -/
def mayRequest (env : Env) (d : Db) (actor : Actor) (appId : ℕ) : Except Err App :=
  match d.apps.get appId with
  | none => .error (.notFound "app not found")
  | some app =>
    let status := app.status.text
    if actor.role = .app && actor.appId ≠ some appId then
      .error (.forbidden "an app credential can only request certificates for its own app")
    else if actor.role ≠ .app && actor.role ≠ .admin && actor.role ≠ .operator then
      .error (.forbidden "role cannot request certificates")
    else if app.status ≠ .active then .error (.forbidden s!"app is {status}")
    else if !verify env.st app then
      .error (.forbidden "this app failed its integrity check (changed outside Certadillo)")
    else .ok app

/-- a rejection is kept in the audit trail -/
def rejectRequest {α : Type} (env : Env) (actor : Actor) (app : App) (profileName protocol : String) (v : Violations) :
    M α := do
  record env actor.name "certificate.rejected" app.name
    [("profile", .str profileName), ("protocol", .str protocol), ("violations", violationsJson v)]
  Tx.commit
  raise (.policy v)

/-- the request to evaluate -/
def requestedCsr (env : Env) (r : CertRequest) : Except Err Csr :=
  match r.template with
  | some t => .ok t
  | none =>
    match r.csrPem.bind env.loadPemCsr with
    | some csr => .ok csr
    | none => .error (.policy [("csr_format", "CSR is not valid PEM PKCS#10")])

/-- the key fingerprint of the certificate being replaced -/
def previousFp (env : Env) (d : Db) (previous : Option ℕ) : Except Err (Option String) :=
  match previous.bind d.certificates.get with
  | none => .ok none
  | some row => do
    let cert ← CAService.loadPem env row.pem
    pure (spkiSha256 env cert)

/-- the decision, with the account's SID and dual control for a sensitive account -/
def decideLogon (env : Env) (decision : Decision) (app : App) (protocol : String) : M Decision :=
  if decision.upns.isEmpty then pure decision
  else do
    let r ← applyLogonSid env decision app protocol
    pure (if r.2 then { r.1 with dualControl := true } else r.1)

/-- what is done with a decision -/
def fulfil (env : Env) (actor : Actor) (appId : ℕ) (app : App) (profileName : String) (csr : Csr)
    (decision : Decision) (r : CertRequest) : M Outcome := do
  if decision.dualControl then
    let id ← requestApproval env actor .issueCertificate (issuePayload env appId profileName r)
    pure (.approval id)
  else if isAdcs env profileName then
    let id ← enqueueAdcsIssue env actor appId app decision r.csrPem
    pure (.job id)
  else
    let id ← sign env csr decision appId app r.protocol actor
    match r.previous with
    | none => pure (.certificate id)
    | some prev =>
      let d ← Tx.get
      setRow env Col.certificates prev fun c => { c with status := .superseded, replacedBy := some id }
      record env actor.name "certificate.renew" (((d.certificates.get prev).map (·.serialHex)).getD "")
        [("new_serial", .ofStr? ((d.certificates.get id).map (·.serialHex)))]
      pure (.certificate id)

def requestCertificate (env : Env) (actor : Actor) (appId : ℕ) (r : CertRequest) : M Outcome := do
  let d ← Tx.get
  let app ← lift (mayRequest env d actor appId)
  let profileName := (r.profile.filter (· ≠ "")).getD app.profile
  let onboarded := app.profile
  if profileName ≠ app.profile then
    rejectRequest env actor app profileName r.protocol
      [("profile_not_onboarded", s!"app is onboarded for '{onboarded}', not '{profileName}'")]
  else
    let csr ← lift (requestedCsr env r)
    let prevFp ← lift (previousFp env d r.previous)
    match evaluateRequest env d csr app profileName r.days r.hours prevFp r.popVerified with
    | .error (.policy v) => rejectRequest env actor app profileName r.protocol v
    | .error e => raise e
    | .ok decision =>
      let decision ← decideLogon env decision app r.protocol
      fulfil env actor appId app profileName csr decision r

def renew (env : Env) (actor : Actor) (certId : ℕ) (csrPem : String) (protocol : String) : M Outcome := do
  let d ← Tx.get
  match d.certificates.get certId with
  | none => raise (.notFound "certificate not found or not issued here")
  | some prev =>
    let status := prev.status.text
    if prev.source ≠ .issued then raise (.notFound "certificate not found or not issued here")
    else if prev.status ≠ .active then raise (.value s!"certificate is {status}")
    else
      match prev.appId with
      | none => raise (.notFound "app not found")
      | some appId =>
        requestCertificate env actor appId
          ⟨some csrPem, prev.profile, none, none, protocol, some certId, false, none⟩

/-! ## Revocation -/

/-- the row columns of a revocation -/
def markRevoked (env : Env) (reason : String) (c : Certificate) : Certificate :=
  { c with status := .revoked, revokedAt := some env.now, revocationReason := some reason }

/-- the certificate may be revoked by this actor, with this change reference -/
def mayRevoke (d : Db) (actor : Actor) (certId : ℕ) (reason : String) (changeRef : Option String) :
    Except Err Certificate :=
  match d.certificates.get certId with
  | none => .error (.notFound "certificate not found")
  | some row => do
    let own : Except Err Unit :=
      if row.appId ≠ actor.appId then .error (.forbidden "an app can only revoke its own certificates") else .ok ()
    if actor.role = .app then own else actor.require [.admin, .operator]
    let app := (row.appId.filter (· ≠ 0)).bind d.apps.get
    let prod := (app.map fun a => decide (a.environment = .prod)).getD false
    if prod && actor.role ≠ .app && reason ≠ "key_compromise" && (changeRef.filter (· ≠ "")).isNone then
      throw (.policy [("change_ref", "production revocations need a change ticket reference")])
    else pure row

def revoke (env : Env) (actor : Actor) (certId : ℕ) (reason : String) (changeRef : Option String) : M Unit := do
  let d ← Tx.get
  let row ← lift (mayRevoke d actor certId reason changeRef)
  let upstream := row.backend
  if row.backend = "adcs" then
    let prof := row.profile.bind fun name => env.policies.profiles.lookup name
    let _ ← addPlain Col.jobs noClash
      ⟨.revoke, .pending, row.appId, none, prof.bind (·.adcsCa), none, none, none, some row.serialHex, some reason, none,
        none, none, some certId, some actor.name, none, none, none⟩
    setRow env Col.certificates certId (markRevoked env reason)
  else if row.backend ≠ "local" then
    match env.getBackend row.backend with
    | none => raise (.runtime s!"backend {upstream} not configured")
    | some backend =>
      lift (libCall .other (backend.revoke row.serialHex reason row.backendRef row.pem))
      setRow env Col.certificates certId (markRevoked env reason)
  else
    CAService.revoke env certId row reason
    -- publish a fresh CRL right away; OCSP already answers from live state
    match row.caId with
    | none => raise (.attribute "'NoneType' object has no attribute 'cert_pem'")
    | some caId => CAService.generateCrl env caId 24
  record env actor.name "certificate.revoke" row.serialHex
    [("reason", .str reason), ("change_ref", .ofStr? changeRef)]

/-! ## Inventory -/

/-- `_retire_replaced`: the old rows at this endpoint, one after another -/
def retireAll (env : Env) (actorName : String) (currentId : ℕ) (current : Certificate) (location : String) :
    List (ℕ × Certificate) → M Unit
  | [] => pure ()
  | (id, old) :: rest => do
    setRow env Col.certificates id fun c => { c with status := .superseded, replacedBy := some currentId }
    record env actorName "certificate.replaced_at_endpoint" old.serialHex
      [("location", .str location), ("new_serial", .str current.serialHex)]
    retireAll env actorName currentId current location rest

def retireReplaced (env : Env) (actorName : String) (currentId : ℕ) (current : Certificate) (source : CertSource)
    (location : Option String) : M Unit :=
  match location.filter (· ≠ "") with
  | none => pure ()
  | some loc =>
    if source ≠ .discovered then pure ()
    else do
      let d ← Tx.get
      let stale := (d.certificates.all fun c => c.location = some loc && c.source = .discovered &&
        c.status = .active).filter fun p => p.1 ≠ currentId
      retireAll env actorName currentId current loc stale

/-- `ingest`: the row's key -/
def ingest (env : Env) (actorName : String) (cert : X509Cert) (source : CertSource) (location : Option String)
    (appId : Option ℕ) : M ℕ := do
  let d ← Tx.get
  let findings := gradeCertificate env.policies cert
  match ← lift (oneOrNone d.certificates fun c => c.fingerprintSha256 = cert.fingerprint) with
  | some (id, existing) =>
    setRow env Col.certificates id fun c =>
      { c with lastSeen := some env.now
               location := if (c.location.filter (· ≠ "")).isNone && (location.filter (· ≠ "")).isSome then location
                 else c.location }
    retireReplaced env actorName id existing source location
    pure id
  | none =>
    let row := { certRow env cert source appId with location := location, lastSeen := some env.now }
    let id ← addCertificate env row
    retireReplaced env actorName id row source location
    let kind := source.text
    record env actorName s!"certificate.{kind}" row.serialHex
      [("location", .ofStr? location), ("cn", .str row.commonName), ("not_after", .num row.notAfter),
        ("findings", .ofStrs (findings.map Prod.fst))]
    pure id

/-- `gateway_complete` of an issue job -/
def gatewayCompleteIssue (env : Env) (actor : Actor) (jobId : ℕ) (certificatePem : String) : M Unit := do
  lift (actor.require [.admin, .gateway])
  let d ← Tx.get
  match d.jobs.get jobId with
  | none => raise (.notFound "job not found")
  | some job =>
    if job.status = .done || job.status = .failed then
      let status := if job.status = .done then "done" else "failed"
      raise (.policy [("job_state", s!"job {jobId} is already {status}")])
    else
      let cert ← lift (CAService.loadPem env certificatePem)
      let ca := (job.adcsCa.filter (· ≠ "")).getD "ca"
      let id ← ingest env actor.name cert .issued (some s!"adcs:{ca}") job.appId
      setRow env Col.certificates id fun c => { c with backend := "adcs", profile := job.profile }
      setPlain Col.jobs jobId fun j =>
        { j with
          certificateId := some id
          resultCertPem := some certificatePem
          resultChainPem := none
          status := .done
          completedAt := some env.now }
      record env actor.name "adcs.job.done" s!"job:{jobId}" [("type", .str "issue")]

/-! ## Renewal campaigns -/

/-- `ari.replacement_for`: an explicit link, or a newer active certificate of the app with the same names -/
def replacementFor (d : Db) (id : ℕ) (c : Certificate) (since : ℤ) : Option ℕ :=
  match c.replacedBy.filter (· ≠ 0) with
  | some r => if (d.certificates.get r).isSome then some r else none
  | none =>
    match c.appId with
    | none => none
    | some appId =>
      ((d.certificates.all fun n => n.appId = some appId && n.status = .active && n.source = .issued &&
          n.createdAt ≥ since).find? fun p => p.1 ≠ id && sorted p.2.sans = sorted c.sans &&
          p.2.commonName = c.commonName).map Prod.fst

/-- the loop of `_campaign_revoke` over the campaign's advice: how many it revoked -/
def campaignLoop (env : Env) (actor : Actor) (campaignId : ℕ) (camp : RenewalCampaign) (remaining : Bool)
    (changeRef : Option String) : List RenewalAdvice → M ℕ
  | [] => pure 0
  | adv :: rest => do
    let d ← Tx.get
    match d.certificates.get adv.certificateId with
    | none => raise (.attribute "'NoneType' object has no attribute 'status'")
    | some c =>
      let hasSuccessor := (replacementFor d adv.certificateId c camp.createdAt).isSome
      if c.status = .revoked || hasSuccessor = remaining then
        campaignLoop env actor campaignId camp remaining changeRef rest
      else
        revoke env actor adv.certificateId camp.revocationReason changeRef
        Tx.modify fun d => { d with advice := d.advice.map fun a =>
          if a.certificateId = adv.certificateId then { a with revokedByCampaign := true } else a }
        let n ← campaignLoop env actor campaignId camp remaining changeRef rest
        pure (n + 1)

/-- `_campaign_revoke`, of what was replaced or of the remaining certificates -/
def campaignRevokeNow (env : Env) (actor : Actor) (campaignId : ℕ) (remaining : Bool) (changeRef : Option String) :
    M ℕ := do
  let d ← Tx.get
  match d.campaigns.get campaignId with
  | none => raise (.notFound "campaign not found")
  | some camp =>
    let n ← campaignLoop env actor campaignId camp remaining changeRef
      (d.advice.filter fun a => a.campaignId = campaignId)
    let which := if remaining then "remaining" else "replaced"
    record env actor.name s!"renewal_campaign.revoke_{which}" s!"campaign:{campaignId}"
      [("revoked", .num n), ("reason", .str camp.revocationReason), ("change_ref", .ofStr? changeRef)]
    pure n

/-- The remaining certificates are a hard cutoff that can take services down, so it needs a second person. -/
def campaignRevoke (env : Env) (actor : Actor) (campaignId : ℕ) (remaining : Bool) (changeRef : Option String) :
    M (Option ℕ) := do
  lift (actor.require [.admin, .operator])
  if remaining then
    let id ← requestApproval env actor .campaignRevokeRemaining
      [("campaign_id", .num campaignId), ("change_ref", .ofStr? changeRef)]
    pure (some id)
  else
    let _ ← campaignRevokeNow env actor campaignId false changeRef
    pure none

end Platform

end Certadillo
