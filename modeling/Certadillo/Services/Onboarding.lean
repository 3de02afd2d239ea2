/-
The registration authority (`services.py`): principals, approval requests, onboarding and the policy tree.

Every operation is a program over one session; `Tx.transact` runs it as `Runtime.platform` does.
-/
import Certadillo.Authority

namespace Certadillo

open Integrity Policy Py

namespace Platform

/-! ## Principals -/

/-- `create_principal` with the key it mints or is given; `None` is the process itself at bootstrap -/
def createPrincipal (env : Env) (actor : Option Actor) (name : String) (role : Role) (appId : Option ℕ)
    (rawKey : String) : M Unit := do
  match actor with
  | some a => lift (a.require [.admin])
  | none => pure ()
  match role with
  | .other s _ => raise (.value s!"unknown role {s}")
  | _ =>
    let creator := (actor.map (·.name)).getD "system"
    let hash := env.sha256 rawKey
    let _ ← addRow env Col.principals
      (fun t => (unique "principals.name" Principal.name name t).or
        (unique "principals.key_hash" Principal.keyHash hash t))
      ⟨name, role, hash, appId, true, creator, none⟩
    record env creator "principal.create" name [("role", .str role.text), ("app_id", .ofNat? appId)]

def deactivatePrincipal (env : Env) (actor : Actor) (name : String) : M Unit := do
  lift (actor.require [.admin])
  let d ← Tx.get
  match ← lift (oneOrNone d.principals fun p => p.name = name) with
  | none => raise (.notFound "principal not found")
  | some (id, p) =>
    setRow env Col.principals id fun p => { p with active := false }
    record env actor.name "principal.deactivate" name [("role", .str p.role.text)]

/-! ## Dual control: requests -/

/-- `_request_approval` -/
def requestApproval (env : Env) (actor : Actor) (action : Action) (payload : List (String × Json)) : M ℕ := do
  let id ← addRow env Col.approvals noClash
    ⟨action, .obj payload, actor.name, .pending, none, none, none, none⟩
  record env actor.name "approval.request" s!"approval:{id}"
    (updateItems [("action", .str action.text)] payload)
  pure id

/-! ## Onboarding -/

/-- every folder of the chain carries a valid seal -/
def foldersIntact (env : Env) (chain : List (ℕ × PolicyFolder)) : Bool := chain.all fun f => verify env.st f.2

def onboardApp (env : Env) (actor : Actor) (teamId : ℕ) (name : String) (environment : Environment)
    (profileName : String) (allowedDomains : List String) (dataClassification : String) (folderId : Option ℕ) :
    M (ℕ × Option ℕ) := do
  lift (actor.require [.admin, .operator])
  match environment with
  | .other _ _ => raise (.value "environment must be one of ['dev', 'prod', 'test']")
  | _ =>
    let _ ← lift (profile env.policies profileName)
    if allowedDomains.isEmpty then raise (.value "allowed_domains is required (the RA scope for this app)")
    else
      let allowedDomains ← lift (validateScope env.lower allowedDomains)
      let d ← Tx.get
      if (d.teams.get teamId).isNone then raise (.notFound "team not found")
      else
        match folderId with
        | none => pure ()
        | some fid =>
          match Folders.getFolder d.folders fid with
          | none => raise (.notFound "folder not found")
          | some folder =>
            let chain ← lift (Folders.ancestors d.folders (some folder))
            if !foldersIntact env chain then raise (.forbidden "this policy folder failed its integrity check")
            else
              let eff ← lift (Folders.effective d.folders (some fid))
              lift (Folders.checkApp env.lower eff profileName allowedDomains)
        -- The environment is a label the requester picks, so it cannot be what skips the second person.
        let devScope := environment ≠ .prod && allowedDomains.all fun p => withinDomains env.lower p env.devDomains
        let needsApproval := !devScope && env.dualControlActions.contains "onboard_prod_app"
        let status := if needsApproval then AppStatus.pendingApproval else .active
        let id ← addRow env Col.apps (unique "apps.name" App.name name)
          ⟨teamId, name, environment, profileName, allowedDomains, dataClassification, status, actor.name, folderId,
            .null, none⟩
        let approval ←
          if needsApproval then do
            let a ← requestApproval env actor .onboardProdApp [("app_id", .num id)]
            pure (some a)
          else pure none
        record env actor.name "app.onboard" name
          [("team_id", .num teamId), ("environment", .str environment.text), ("profile", .str profileName),
            ("allowed_domains", .ofStrs allowedDomains), ("classification", .str dataClassification),
            ("status", .str status.text)]
        pure (id, approval)

/-! ## Policy tree -/

/-- the folder a policy change names, if the whole chain above it is intact -/
def intactFolder (env : Env) (d : Db) (fid : ℕ) : Except Err (ℕ × PolicyFolder) :=
  match Folders.getFolder d.folders fid with
  | none => .error (.notFound "folder not found")
  | some f => do
    let chain ← Folders.ancestors d.folders (some f)
    if foldersIntact env chain then pure f else throw (.forbidden "a policy folder failed its integrity check")

/-- the payloads of `policy_change`, with every key present -/
inductive PolicyOp where
  | createFolder (name : Json) (parentId : Option ℕ) (settings : Json)
  | updateFolder (folderId : ℕ) (settings : Json)
  | moveApp (appId : ℕ) (folderId : Option ℕ)

def PolicyOp.payload : PolicyOp → List (String × Json)
  | createFolder name parentId settings =>
    [("op", .str "create_folder"), ("name", name), ("parent_id", .ofNat? parentId), ("settings", settings)]
  | updateFolder folderId settings =>
    [("op", .str "update_folder"), ("folder_id", .num folderId), ("settings", settings)]
  | moveApp appId folderId =>
    [("op", .str "move_app"), ("app_id", .num appId), ("folder_id", .ofNat? folderId)]

/-- reading a payload back -/
def PolicyOp.ofPayload (p : Json) : Except Err PolicyOp := do
  let op ← dget p "op"
  if op = .str "create_folder" then
    pure (.createFolder (← item p "name") (← toId? (← dget p "parent_id")) (← dget p "settings"))
  else if op = .str "update_folder" then
    pure (.updateFolder (← toId (← item p "folder_id")) (← dget p "settings"))
  else if op = .str "move_app" then
    pure (.moveApp (← toId (← item p "app_id")) (← toId? (← dget p "folder_id")))
  else throw (.value "unknown policy change")

/-- `p.get("settings") or {}` -/
def orEmpty (j : Json) : Json := if truthy j then j else .obj []

/-- `folders.path` of an app's place, `\` when it has none -/
def placePath (t : Table PolicyFolder) (folderId : Option ℕ) : Except Err String :=
  match folderId with
  | none => .ok "\\"
  | some i => if i = 0 then .ok "\\" else Folders.path t (Folders.getFolder t i)

/-- `_apply_policy_change`: the keys it adds to the payload -/
def applyPolicyChange (env : Env) (who : String) (op : PolicyOp) (dryRun : Bool) : M (List (String × Json)) := do
  let d ← Tx.get
  match op with
  | .createFolder name parentId settings =>
    let name ← lift (Folders.checkName name)
    match parentId with
    | some pid => let _ ← lift (intactFolder env d pid)
    | none => pure ()
    if (d.folders.first fun f => f.name = name && f.parentId = parentId).isSome then
      raise (.value s!"a folder named {name} already exists there")
    else
      let settings ← lift (Folders.checkSettings env d parentId (orEmpty settings))
      if dryRun then pure []
      else
        let id ← addRow env Col.folders noClash ⟨name, parentId, settings, who, none⟩
        let d ← Tx.get
        let path ← lift (Folders.path d.folders (Folders.getFolder d.folders id))
        record env who "policy.folder.create" path [("settings", settings)]
        pure [("folder_id", .num id)]
  | .updateFolder folderId settings =>
    let (id, f) ← lift (intactFolder env d folderId)
    let settings ← lift (Folders.checkSettings env d f.parentId (orEmpty settings))
    if dryRun then pure []
    else
      setRow env Col.folders id fun f => { f with settings := settings }
      let d ← Tx.get
      let path ← lift (Folders.path d.folders (Folders.getFolder d.folders id))
      record env who "policy.folder.update" path [("before", f.settings), ("after", settings)]
      pure [("folder_id", .num id)]
  | .moveApp appId folderId =>
    match d.apps.get appId with
    | none => raise (.notFound "app not found")
    | some app =>
      if !verify env.st app then raise (.forbidden "this app failed its integrity check")
      else
        match folderId with
        | some fid => let _ ← lift (intactFolder env d fid)
        | none => pure ()
        let eff ← lift (Folders.effective d.folders folderId)
        lift (Folders.checkApp env.lower eff app.profile app.allowedDomains)
        if dryRun then pure []
        else
          let src ← lift (placePath d.folders app.folderId)
          setRow env Col.apps appId fun a => { a with folderId := folderId }
          let dst ← lift (placePath d.folders folderId)
          record env who "policy.app.move" app.name [("from", .str src), ("to", .str dst)]
          pure [("app_id", .num appId)]

/-- `_policy_change`: by default through a second person -/
def policyChange (env : Env) (actor : Actor) (op : PolicyOp) : M (Option ℕ) := do
  lift (actor.require [.admin])
  let _ ← applyPolicyChange env actor.name op true
  if env.dualControlActions.contains "policy_change" then
    let id ← requestApproval env actor .policyChange op.payload
    pure (some id)
  else
    let _ ← applyPolicyChange env actor.name op false
    pure none

/-! ## Trust anchors and CAs -/

/-- `_add_trust_anchor` -/
def addTrustAnchor (env : Env) (who : String) (appId : ℕ) (name certPem : String) : M Unit := do
  let _ ← addPlain Col.trustAnchors noClash ⟨appId, name, certPem, who⟩
  let cert ← lift (CAService.loadPem env certPem)
  record env who "est.trust_anchor.add" s!"app:{appId}"
    [("name", .str name), ("subject", .ofStr? cert.tbs.commonName)]

def addEstTrustAnchor (env : Env) (actor : Actor) (appId : ℕ) (name certPem : String) : M (Option ℕ) := do
  lift (actor.require [.admin, .operator])
  let d ← Tx.get
  match d.apps.get appId with
  | none => raise (.notFound "app not found")
  | some app =>
    match env.loadPemCert certPem with
    | none => raise (.value "cert_pem is not a PEM certificate")
    | some ca =>
      if !ca.tbs.ca then raise (.value "the trust anchor must be a CA certificate")
      else if app.environment = .prod then
        let id ← requestApproval env actor .addEstTrustAnchor
          [("app_id", .num appId), ("name", .str name), ("cert_pem", .str certPem)]
        pure (some id)
      else
        addTrustAnchor env actor.name appId name certPem
        pure none

/-- the `POST /api/v1/cas` endpoint -/
def createSubCa (env : Env) (actor : Actor) (name parent : String) (years : ℤ) : M ℕ := do
  lift (actor.require [.admin])
  let d ← Tx.get
  let p ← lift (CAService.get d parent)
  let _ ← lift (CAService.checkCanSignCa env p.2)
  if (d.cas.first fun ca => ca.name = name).isSome then raise (.value s!"CA {name} already exists")
  else requestApproval env actor .createCa [("name", .str name), ("parent", .str parent), ("years", .num years)]

end Platform

end Certadillo
