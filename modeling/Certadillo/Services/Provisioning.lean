/-
Push provisioning (`provisioning/engine.py`): one run that issues a certificate for an installation, pushes it with the
target's driver, and retires the previous one.

The drivers and the validation of the endpoint enter through `Drivers`. Every exception of a run is recorded on the run;
only a broken constraint is not, since it leaves the session unusable. `failed` is the except branch.
-/
import Certadillo.Enrollment.Ari

namespace Certadillo.Provisioning

open Integrity Policy Py Platform

structure Drivers where
  /-- the target's driver is loaded with its credentials and checks the parameters against its configuration -/
  checkParams : ProvisioningTarget → Json → Except String Json
  /-- a key in memory, and the PEM of its request -/
  centralCsr : Installation → Except String String
  /-- the target makes the key -/
  deviceCsr : ProvisioningTarget → Json → Installation → Except String String
  /-- the steps of an installation with the chain's PEM, and the parameters it changes -/
  install : ProvisioningTarget → Json → Certificate → String → List String × Except String (List (String × Json))
  /-- the endpoint serves the certificate, or what is seen there -/
  served : String → Certificate → Except String Unit

/-! ## Failures -/

/-- `_message` -/
def message (e : Err) : String :=
  let text := match e with
    | .policy v => "policy: " ++ policyText v
    | .forbidden m => "Forbidden: " ++ m
    | .notFound m => "NotFound: " ++ m
    | .value m => "ValueError: " ++ m
    | .type m => "TypeError: " ++ m
    | .key name => "KeyError: " ++ pyRepr name
    | .attribute m => "AttributeError: " ++ m
    | .lookup m => "LookupError: " ++ m
    | .runtime m => "RuntimeError: " ++ m
    | .integrity c => "IntegrityError: " ++ c
    | .cmp _ m => "CmpError: " ++ m
    | .acme _ m _ => "AcmeError: " ++ m
    | .other m => m
  match e with
  | .policy _ => text
  | _ => String.ofList (text.toList.take 500)

/-- what a run did -/
structure Progress where
  issued : Option (ℕ × Certificate)
  installed : Bool
  steps : List String

def actorOf (instId appId : ℕ) : Actor := ⟨s!"provisioner:{instId}", .app, some appId⟩

/-- the only copy of a central key is gone; a device key was never activated -/
def revokeUndelivered (env : Env) (instId appId : ℕ) (p : Progress) : M (List String) := do
  match p.issued with
  | none => pure p.steps
  | some (id, row) =>
    let d ← Tx.get
    let serial := row.serialHex
    if p.installed || ((d.certificates.get id).map (·.status)) ≠ some .active then pure p.steps
    else
      match ← Tx.attempt (revoke env (actorOf instId appId) id "cessation_of_operation" none) with
      | .ok _ => pure (p.steps ++ [s!"revoked undelivered serial {serial}"])
      | .error (.integrity c) => raise (.integrity c)
      | .error e =>
        let why := message e
        pure (p.steps ++ [s!"could not revoke undelivered serial {serial}: {why}"])

/-- five minutes doubled with every failure, up to a day -/
def backoff (failures : ℕ) : ℤ := min (300 * 2 ^ min failures 10) 86400

/-- the installation after a failed run -/
def failedInstallation (env : Env) (p : Progress) (why : String) (i : Installation) : Installation :=
  { i with
    certificateId := if p.installed then (p.issued.map Prod.fst).or i.certificateId else i.certificateId
    status := "failed"
    failures := i.failures + 1
    lastError := some why
    nextAttemptAt := some (env.now + backoff (i.failures + 1)) }

/-- the audit event that closes a run -/
def report (env : Env) (instId runId : ℕ) (inst : Installation) (target : Option ProvisioningTarget)
    (actorName : String) (trigger status : String) (serial error : Option String) (steps : List String) : M Unit := do
  setPlain Col.provisioningRuns runId fun r => { r with steps := steps }
  record env actorName "provisioning.run" inst.commonName
    [("installation", .num instId), ("target", .ofStr? (target.map (·.name))), ("trigger", .str trigger),
      ("status", .str status), ("serial", .ofStr? serial), ("error", .ofStr? error)]

/-- what a run is about -/
structure Run where
  instId : ℕ
  inst : Installation
  runId : ℕ
  app : Option App
  target : Option ProvisioningTarget
  actorName : String
  trigger : String

def failed (env : Env) (run : Run) (p : Progress) (e : Err) : M Unit :=
  match e with
  | .integrity c => raise (.integrity c)
  | _ => do
    let why := message e
    let steps ← revokeUndelivered env run.instId run.inst.appId p
    setRow env Col.installations run.instId (failedInstallation env p why)
    setPlain Col.provisioningRuns run.runId fun r =>
      { r with status := "failed", error := some why, certificateId := (p.issued.map Prod.fst).or r.certificateId }
    report env run.instId run.runId run.inst run.target run.actorName run.trigger "failed"
      (p.issued.map fun c => c.2.serialHex) (some why) steps

/-! ## A run -/

/-- the target and the request for a run -/
structure Prepared where
  target : ProvisioningTarget
  params : Json
  csrPem : String
  steps : List String

/-- everything before the certificate is requested -/
def prepare (env : Env) (w : Drivers) (run : Run) : Except Err Prepared :=
  match run.app, run.target with
  | none, _ => .error (.attribute "'NoneType' object has no attribute 'status'")
  | some app, none =>
    if app.status ≠ .active then .error (.other "the app or the target is not active")
    else .error (.attribute "'NoneType' object has no attribute 'status'")
  | some app, some target => do
    if app.status ≠ .active || target.status ≠ "active" then throw (.other "the app or the target is not active")
    else if !verify env.st target || !verify env.st run.inst then
      throw (.other ("the target or installation failed its integrity check (changed outside " ++
        "Certadillo); nothing was pushed"))
    else
      let params ← libCall .other (w.checkParams target run.inst.params)
      let kind := run.inst.keyType
      if run.inst.keyLocation = "central" then
        let csrPem ← libCall .other (w.centralCsr run.inst)
        pure ⟨target, params, csrPem, [s!"generated a {kind} key in memory"]⟩
      else
        let csrPem ← libCall .other (w.deviceCsr target params run.inst)
        pure ⟨target, params, csrPem, [s!"the target generated a {kind} key and returned a CSR"]⟩

/-- the certificate, signed on the spot -/
def issueNow (env : Env) (run : Run) (csrPem : String) : M (ℕ × Certificate) := do
  let result ← requestCertificate env (actorOf run.instId run.inst.appId) run.inst.appId
    ⟨some csrPem, none, none, none, "push", none, false, none⟩
  match result with
  | .certificate id =>
    let d ← Tx.get
    match d.certificates.get id with
    | some row => pure (id, row)
    | none => raise (.attribute "'NoneType' object has no attribute 'serial_hex'")
  | _ => raise (.other "the profile did not issue on the spot (approval or gateway required)")

/-- the chain that is installed with a certificate -/
def chainPem (env : Env) (d : Db) (row : Certificate) : Except Err String :=
  match (row.caId.filter (· ≠ 0)).bind fun i => (d.cas.get i).map (i, ·) with
  | some ca => do
    let chain ← CAService.chain env d ca
    pure (String.join (chain.dropLast.map X509Cert.pem))
  | none => .ok (row.chainPem.getD "")

/-- the endpoint's check, if the installation has one: the steps and the status it leaves -/
def validate (w : Drivers) (run : Run) (row : Certificate) : Except Err (List String × String) :=
  match run.inst.validateEndpoint.filter (· ≠ "") with
  | none => .ok ([], "installed")
  | some endpoint =>
    match w.served endpoint row with
    | .ok _ => .ok ([s!"{endpoint} serves the new certificate"], "validated")
    | .error seen =>
      let short := String.ofList (seen.toList.take 24)
      .error (.other s!"{endpoint} does not serve the new certificate (saw {short})")

/-- the previous certificate of an installation is retired -/
def retirePrevious (env : Env) (run : Run) (id : ℕ) : M (List String) := do
  let d ← Tx.get
  match (run.inst.certificateId.filter (· ≠ 0)).bind fun i => (d.certificates.get i).map (i, ·) with
  | some (prevId, prev) =>
    let serial := prev.serialHex
    if prev.status = .active && prevId ≠ id then
      setRow env Col.certificates prevId fun c => { c with status := .superseded, replacedBy := some id }
      pure [s!"superseded serial {serial}"]
    else pure []
  | none => pure []

/-- the run ends well -/
def finished (env : Env) (run : Run) (issued : ℕ × Certificate) (status : String) (steps : List String) : M Unit := do
  let retired ← retirePrevious env run issued.1
  setRow env Col.installations run.instId fun i =>
    { i with status := status, certificateId := some issued.1, failures := 0, lastError := none, nextAttemptAt := none }
  setPlain Col.provisioningRuns run.runId fun r => { r with status := "ok", certificateId := some issued.1 }
  report env run.instId run.runId run.inst run.target run.actorName run.trigger "ok" (some issued.2.serialHex) none
    (steps ++ retired)

/-- the certificate is pushed and checked -/
def push (env : Env) (w : Drivers) (run : Run) (p : Prepared) (issued : ℕ × Certificate) : M Unit := do
  let serial := issued.2.serialHex
  let steps := p.steps ++ [s!"issued serial {serial}"]
  let d ← Tx.get
  match chainPem env d issued.2 with
  | .error e => failed env run ⟨some issued, false, steps⟩ e
  | .ok chain =>
    match w.install p.target p.params issued.2 chain with
    | (added, .error e) => failed env run ⟨some issued, false, steps ++ added⟩ (.other e)
    | (added, .ok updates) =>
      setRow env Col.installations run.instId fun i =>
        { i with
          params := match i.params with
            | .obj kvs => .obj (updateItems kvs updates)
            | j => j
          status := "installed" }
      match validate w run issued.2 with
      | .error e => failed env run ⟨some issued, true, steps ++ added⟩ e
      | .ok (seen, status) => finished env run issued status (steps ++ added ++ seen)

/-- the try block -/
def attempted (env : Env) (w : Drivers) (run : Run) : M Unit :=
  match prepare env w run with
  | .error e => failed env run ⟨none, false, []⟩ e
  | .ok p => do
    match ← Tx.attempt (issueNow env run p.csrPem) with
    | .error e => failed env run ⟨none, false, p.steps⟩ e
    | .ok issued => push env w run p issued

/-- `provision` -/
def provision (env : Env) (w : Drivers) (instId : ℕ) (actorName trigger : String) : M ℕ := do
  let d ← Tx.get
  match d.installations.get instId with
  | none => raise (.lookup "installation not found")
  | some inst =>
    let runId ← addPlain Col.provisioningRuns noClash ⟨instId, trigger, "running", none, [], none, actorName⟩
    attempted env w ⟨instId, inst, runId, d.apps.get inst.appId, d.targets.get inst.targetId, actorName, trigger⟩
    Tx.commit
    pure runId

/-! ## Scheduler -/

/-- thresholds of the expiry alerts, in days -/
structure ExpirySettings where
  criticalDays : ℤ
  warningDays : ℤ

/-- expired | critical | warning | None. Thresholds scale with lifetime. -/
def expiryState (settings : ExpirySettings) (notBefore notAfter now : ℤ) : Option String :=
  let left : ℚ := notAfter - now
  let lifetime : ℚ := notAfter - notBefore
  if left ≤ 0 then some "expired"
  else if left ≤ min ((settings.criticalDays : ℚ) * 86400) (lifetime / 10) then some "critical"
  else if left ≤ min ((settings.warningDays : ℚ) * 86400) (lifetime / 3) then some "warning"
  else none

/-- why an installation is due -/
inductive DueReason where
  /-- nothing is installed, the last run failed, or the certificate is not active -/
  | pending
  | expiring
  /-- a campaign's advice has begun -/
  | advised
deriving DecidableEq

/-- the branch of `due` that an installation takes -/
def dueReason (d : Db) (settings : ExpirySettings) (now : ℤ) (inst : Installation) : Option DueReason :=
  if (inst.nextAttemptAt.map fun t => decide (now < t)).getD false then none
  else
    match (inst.certificateId.filter (· ≠ 0)).bind fun id => (d.certificates.get id).map (id, ·) with
    | none => some .pending
    | some (id, cert) =>
      if inst.status = "failed" || cert.status ≠ .active then some .pending
      else if (expiryState settings cert.notBefore cert.notAfter now).isSome then some .expiring
      else
        match Ari.adviceFor d.advice id with
        | none => none
        | some advice => if advice.windowStart ≤ now then some .advised else none

def PER_CYCLE : ℕ := 20

/-- the installations that renew by themselves and are due, a cycle's number of them at most -/
def due (d : Db) (settings : ExpirySettings) (now : ℤ) : List (ℕ × Installation) :=
  ((d.installations.all (·.autoRenew)).filter fun p => (dueReason d settings now p.2).isSome).take PER_CYCLE

end Certadillo.Provisioning
