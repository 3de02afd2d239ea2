/-
Dual control (`services.py`): deciding an approval request and carrying it out.

`decide` is split where the source first writes: `decideChecks` only reads, `carry` writes the decision and carries it
out. `execute` has one branch for each kind of approval.
-/
import Certadillo.Services.CodeSign

namespace Certadillo

open Integrity Policy Py

namespace Platform

/-! ## Checks -/

/-- the kinds that name an app whose state `_still_valid` checks -/
def Action.namesApp : Action → Bool
  | .onboardProdApp | .issueCertificate | .addEstTrustAnchor | .codesignKeyCreate => true
  | _ => false

/-- `_still_valid`: the app and the requester are as they were when it was asked -/
def stillValid (d : Db) (req : ApprovalRequest) : Except Err Unit := do
  if Action.namesApp req.action then
    let appId ← toId? (← dget (orEmpty req.payload) "app_id")
    let want := if req.action = .onboardProdApp then AppStatus.pendingApproval else .active
    let words := if req.action = .onboardProdApp then "pending approval" else "active"
    if ((appId.bind d.apps.get).map (·.status)) ≠ some want then
      throw (.forbidden s!"the app is no longer {words}; this request cannot be approved")
  match ← oneOrNone d.principals fun p => p.name = req.requestedBy with
  | some (_, p) =>
    if !p.active then
      throw (.forbidden "the requester's credential has been deactivated; this request cannot be approved")
  | none => pure ()

/-- the maker-checker checks of `decide` on the request it loaded -/
def decideChecks (env : Env) (d : Db) (actor : Actor) (approvalId : ℕ) (approve : Bool) :
    Except Err ApprovalRequest := do
  actor.require [.approver]
  match d.approvals.get approvalId with
  | none => throw (.notFound "approval not found")
  | some req =>
    let status := req.status.text
    if !verify env.st req then
      throw (.forbidden "this approval request failed its integrity check and cannot be decided")
    else if req.status ≠ .pending then throw (.value s!"approval already {status}")
    else if req.requestedBy = actor.name then
      throw (.forbidden "maker-checker: the requester cannot approve their own request")
    else
      let me ← oneOrNone d.principals fun p => p.name = actor.name
      if (me.map (·.2.createdBy)) = some req.requestedBy then
        throw (.forbidden "maker-checker: this approver credential was issued by the requester")
      else
        if approve then stillValid d req
        pure req

/-! ## Carrying out -/

/-- the keys of an issue_certificate payload -/
structure IssueArgs where
  appId : ℕ
  template : Json
  csrPem : Json
  profile : String
  days : Option ℤ
  hours : Option ℤ
  popVerified : Bool
  protocol : String
  previousId : Option ℕ

def IssueArgs.ofPayload (p : Json) : Except Err IssueArgs := do
  let protocol ← match ← dget p "protocol" with
    | .null => pure "rest"
    | j => toStr j
  pure
    { appId := ← toId (← item p "app_id")
      template := ← dget p "template"
      csrPem := ← dget p "csr_pem"
      profile := ← toStr (← item p "profile")
      days := ← toInt? (← dget p "days")
      hours := ← toInt? (← dget p "hours")
      popVerified := truthy (← dget p "pop_verified")
      protocol := protocol
      previousId := (← toId? (← dget p "previous_id")).filter (· ≠ 0) }

/-- the request an approval was given for -/
def IssueArgs.csr (env : Env) (a : IssueArgs) : Except Err Csr :=
  if truthy a.template then templateOfPayload env a.template
  else
    match a.csrPem with
    | .str pem =>
      match env.loadPemCsr pem with
      | some csr => .ok csr
      | none => .error (.value "Unable to load PEM file")
    | _ => .error (.attribute "'NoneType' object has no attribute 'encode'")

/-- the policy decision for an approved request, at the time it is carried out -/
def issueDecision (env : Env) (d : Db) (a : IssueArgs) : Except Err (App × Csr × Decision) :=
  match d.apps.get a.appId with
  | none => .error (.attribute "'NoneType' object has no attribute 'allowed_domains'")
  | some app => do
    let csr ← a.csr env
    let decision ← evaluateRequest env d csr app a.profile a.days a.hours none a.popVerified
    pure (app, csr, decision)

/-- Re-resolve the SID at issuance: the account may have been disabled while the request waited for approval. -/
def resolveSid (env : Env) (decision : Decision) (app : App) (protocol : String) : M Decision :=
  if decision.upns.isEmpty then pure decision
  else do
    let r ← applyLogonSid env decision app protocol
    pure r.1

/-- an approved decision is queued for the AD CS gateway or signed: the key it adds to the payload -/
def issueApproved (env : Env) (requestedBy : String) (a : IssueArgs) (app : App) (csr : Csr) (decision : Decision) :
    M (List (String × Json)) := do
  let requester : Actor := ⟨requestedBy, .app, some a.appId⟩
  if isAdcs env a.profile then
    let job ← enqueueAdcsIssue env requester a.appId app decision (match a.csrPem with
      | .str s => some s
      | _ => none)
    pure [("adcs_job_id", .num job)]
  else
    let id ← sign env csr decision a.appId app a.protocol requester
    let d ← Tx.get
    match a.previousId with
    | some prevId =>
      match d.certificates.get prevId with
      | some prev =>
        if prev.status = .active then
          setRow env Col.certificates prevId fun c => { c with status := .superseded, replacedBy := some id }
      | none => pure ()
    | none => pure ()
    pure [("certificate_id", .num id)]

/-- the issue_certificate branch -/
def executeIssue (env : Env) (requestedBy : String) (a : IssueArgs) : M (List (String × Json)) := do
  let d ← Tx.get
  let (app, csr, decision) ← lift (issueDecision env d a)
  let decision ← resolveSid env decision app a.protocol
  issueApproved env requestedBy a app csr decision

/-- the onboard_prod_app branches: the app of the payload becomes active or rejected -/
def setAppStatus (env : Env) (payload : Json) (status : AppStatus) : M String := do
  let d ← Tx.get
  let appId ← lift (do toId (← item payload "app_id"))
  match d.apps.get appId with
  | none => raise (.attribute "'NoneType' object has no attribute 'status'")
  | some app =>
    setRow env Col.apps appId fun a => { a with status := status }
    pure app.name

/-- `_execute`: the keys a branch adds to the payload, if it stores the payload again -/
def executeBranch (env : Env) (approvalId : ℕ) (req : ApprovalRequest) (decidedBy : String) :
    M (Option (List (String × Json))) :=
  match req.action with
  | .onboardProdApp => do
    let name ← setAppStatus env req.payload .active
    record env decidedBy "app.activate" name [("approval", .num approvalId)]
    pure none
  | .issueCertificate => do
    let a ← lift (IssueArgs.ofPayload req.payload)
    let keys ← executeIssue env req.requestedBy a
    pure (some keys)
  | .createCa => do
    let d ← Tx.get
    let parentName ← lift (do toStr (← item req.payload "parent"))
    let parent ← lift (CAService.get d parentName)
    let name ← lift (do toStr (← item req.payload "name"))
    let years ← lift (do toInt? (← dget req.payload "years"))
    let _ ← CAService.createSubordinate env parent name (years.getD 5) "ec-p384" 0
    record env decidedBy "ca.create" name [("parent", .str parentName), ("approval", .num approvalId)]
    pure none
  | .addEstTrustAnchor => do
    let appId ← lift (do toId (← item req.payload "app_id"))
    let name ← lift (do toStr (← item req.payload "name"))
    let certPem ← lift (do toStr (← item req.payload "cert_pem"))
    addTrustAnchor env req.requestedBy appId name certPem
    pure none
  | .policyChange => do
    let op ← lift (PolicyOp.ofPayload req.payload)
    let keys ← applyPolicyChange env decidedBy op false
    pure (some keys)
  | .codesignKeyCreate => do
    let a ← lift (CodeSign.KeyArgs.ofPayload req.payload)
    let keys ← CodeSign.createKeyNow env req.requestedBy decidedBy a
    pure (some keys)
  | .codeSign => do
    let requestId ← lift (do toId (← item req.payload "request_id"))
    CodeSign.signNow env requestId decidedBy
    pure none
  | .campaignRevokeRemaining => do
    let campaignId ← lift (do toId (← item req.payload "campaign_id"))
    let changeRef ← lift (do toStr? (← dget req.payload "change_ref"))
    let n ← campaignRevokeNow env ⟨req.requestedBy, .operator, none⟩ campaignId true changeRef
    pure (some [("revoked", .num n)])
  | .other _ _ => pure none

/-- `req.payload = p` -/
def addKeys (payload : Json) (keys : List (String × Json)) : Json :=
  match payload with
  | .obj kvs => .obj (updateItems kvs keys)
  | j => j

def execute (env : Env) (approvalId : ℕ) (req : ApprovalRequest) (decidedBy : String) : M Unit :=
  match req.payload with
  | .obj _ => do
    let keys ← executeBranch env approvalId req decidedBy
    match keys with
    | some keys => setRow env Col.approvals approvalId fun r => { r with payload := addKeys req.payload keys }
    | none => pure ()
  | _ => raise (.type "object is not iterable")

/-! ## Deciding -/

/-- the columns `decide` assigns -/
def decided (env : Env) (actor : Actor) (approve : Bool) (comment : Option String) (r : ApprovalRequest) :
    ApprovalRequest :=
  { r with status := if approve then .approved else .rejected, decidedBy := some actor.name,
           decidedAt := some env.now, comment := comment }

/-- what a rejection does to what was asked for -/
def carryRejection (env : Env) (req : ApprovalRequest) (decidedBy : String) : M Unit :=
  match req.action with
  | .onboardProdApp => do
    let _ ← setAppStatus env req.payload .rejected
    pure ()
  | .codeSign => do
    let requestId ← lift (do toId (← item req.payload "request_id"))
    CodeSign.reject env requestId decidedBy
  | _ => pure ()

/-- the part of `decide` that writes -/
def carry (env : Env) (actor : Actor) (approvalId : ℕ) (req : ApprovalRequest) (approve : Bool)
    (comment : Option String) : M Unit := do
  setRow env Col.approvals approvalId (decided env actor approve comment)
  let verdict := (if approve then ApprovalStatus.approved else .rejected).text
  record env actor.name s!"approval.{verdict}" s!"approval:{approvalId}"
    [("action", .str req.action.text), ("comment", .ofStr? comment)]
  if approve then execute env approvalId req actor.name else carryRejection env req actor.name

def decide (env : Env) (actor : Actor) (approvalId : ℕ) (approve : Bool) (comment : Option String) : M Unit := do
  let d ← Tx.get
  let req ← lift (decideChecks env d actor approvalId approve)
  carry env actor approvalId req approve comment

end Platform

end Certadillo
