/-
The persistence model (`db.py`): the rows of the tables the modelled code uses, with the columns it reads or writes.

A text column with a fixed vocabulary is an enumeration whose `other` holds any other text: outside writes can store
anything. Timestamps are integer seconds. The audit table is append-only, so an event's `prev_hash` and `hash` are
functions of the events before it and are left out here.
-/
import Certadillo.Lib.Table
import Certadillo.Seal
import Certadillo.X509

namespace Certadillo

/-! ## Vocabularies -/

/-- principals and actors: the names of ROLES, or any other text -/
inductive Role where
  | admin | approver | operator | auditor | app | gateway | agent
  | other (s : String) (h : s ∉ ["admin", "approver", "operator", "auditor", "app", "gateway", "agent"])
deriving DecidableEq

def Role.text : Role → String
  | admin => "admin"
  | approver => "approver"
  | operator => "operator"
  | auditor => "auditor"
  | app => "app"
  | gateway => "gateway"
  | agent => "agent"
  | other s _ => s

inductive Environment where
  | dev | test | prod
  | other (s : String) (h : s ∉ ["dev", "test", "prod"])
deriving DecidableEq

def Environment.text : Environment → String
  | dev => "dev"
  | test => "test"
  | prod => "prod"
  | other s _ => s

inductive AppStatus where
  | pendingApproval | active | rejected
  | other (s : String) (h : s ∉ ["pending_approval", "active", "rejected"])
deriving DecidableEq

def AppStatus.text : AppStatus → String
  | pendingApproval => "pending_approval"
  | active => "active"
  | rejected => "rejected"
  | other s _ => s

inductive CertStatus where
  | active | revoked | superseded
  | other (s : String) (h : s ∉ ["active", "revoked", "superseded"])
deriving DecidableEq

def CertStatus.text : CertStatus → String
  | active => "active"
  | revoked => "revoked"
  | superseded => "superseded"
  | other s _ => s

inductive CertSource where
  | issued | discovered | imported
  | other (s : String) (h : s ∉ ["issued", "discovered", "imported"])
deriving DecidableEq

def CertSource.text : CertSource → String
  | issued => "issued"
  | discovered => "discovered"
  | imported => "imported"
  | other s _ => s

inductive ApprovalStatus where
  | pending | approved | rejected
  | other (s : String) (h : s ∉ ["pending", "approved", "rejected"])
deriving DecidableEq

def ApprovalStatus.text : ApprovalStatus → String
  | pending => "pending"
  | approved => "approved"
  | rejected => "rejected"
  | other s _ => s

/-- the kinds of approval `_execute` knows -/
inductive Action where
  | onboardProdApp | issueCertificate | createCa | addEstTrustAnchor | policyChange | codesignKeyCreate | codeSign
  | campaignRevokeRemaining
  | other (s : String) (h : s ∉ ["onboard_prod_app", "issue_certificate", "create_ca", "add_est_trust_anchor",
      "policy_change", "codesign_key_create", "code_sign", "campaign_revoke_remaining"])
deriving DecidableEq

def Action.text : Action → String
  | onboardProdApp => "onboard_prod_app"
  | issueCertificate => "issue_certificate"
  | createCa => "create_ca"
  | addEstTrustAnchor => "add_est_trust_anchor"
  | policyChange => "policy_change"
  | codesignKeyCreate => "codesign_key_create"
  | codeSign => "code_sign"
  | campaignRevokeRemaining => "campaign_revoke_remaining"
  | other s _ => s

inductive JobType where
  | issue | revoke | inventory
deriving DecidableEq

inductive JobStatus where
  | pending | claimed | done | failed
deriving DecidableEq

inductive SigningStatus where
  | pending | signed | rejected | failed
deriving DecidableEq

inductive CmpStatus where
  | waitingConf | confirmed | rejected | pending | expired
deriving DecidableEq

inductive ScepStatus where
  | pending | issued | rejected
deriving DecidableEq

inductive AccountStatus where
  | valid | deactivated
deriving DecidableEq

def AccountStatus.text : AccountStatus → String
  | valid => "valid"
  | deactivated => "deactivated"

inductive OrderStatus where
  | pending | ready | processing | valid | invalid
deriving DecidableEq

def OrderStatus.text : OrderStatus → String
  | pending => "pending"
  | ready => "ready"
  | processing => "processing"
  | valid => "valid"
  | invalid => "invalid"

/-- of an authorization and of its challenge -/
inductive AuthzStatus where
  | pending | valid | invalid | deactivated | expired
deriving DecidableEq

def AuthzStatus.text : AuthzStatus → String
  | pending => "pending"
  | valid => "valid"
  | invalid => "invalid"
  | deactivated => "deactivated"
  | expired => "expired"

/-! ## Rows -/

/-- An API caller: a human operator or an onboarded application. -/
structure Principal where
  name : String
  role : Role
  keyHash : String
  appId : Option ℕ
  active : Bool
  createdBy : String
  sealHex : Option Integrity.Seal
deriving DecidableEq

structure App where
  teamId : ℕ
  name : String
  environment : Environment
  profile : String
  allowedDomains : List String
  dataClassification : String
  status : AppStatus
  createdBy : String
  /-- where the app sits in the policy tree (`none`: only its profile applies) -/
  folderId : Option ℕ
  /-- a JSON column, null or an object -/
  options : Json
  sealHex : Option Integrity.Seal
deriving DecidableEq

/-- A node in the policy tree. `settings` maps a setting name to `value` and `locked`. -/
structure PolicyFolder where
  name : String
  parentId : Option ℕ
  settings : Json
  createdBy : String
  sealHex : Option Integrity.Seal
deriving DecidableEq

/-- a revoked entry of a CRL -/
structure CrlEntry where
  serial : ℕ
  revocationDate : ℤ
  reason : String
deriving DecidableEq

/-- a signed CRL -/
structure Crl where
  number : ℤ
  thisUpdate : ℤ
  nextUpdate : ℤ
  entries : List CrlEntry
deriving DecidableEq

structure CertificateAuthority where
  name : String
  parentId : Option ℕ
  certPem : String
  keyRef : String
  signerType : String
  isRoot : Bool
  crlNumber : ℤ
  crlLastGenerated : Option ℤ
  crlDer : Option Crl
  ocspCertPem : Option String
  ocspKeyRef : Option String
  scepRaCertPem : Option String
  scepRaKeyRef : Option String
  cmpRaCertPem : Option String
  cmpRaKeyRef : Option String
  tsaCertPem : Option String
  tsaKeyRef : Option String
deriving DecidableEq

structure Certificate where
  serialHex : String
  fingerprintSha256 : String
  caId : Option ℕ
  appId : Option ℕ
  commonName : String
  sans : List String
  notBefore : ℤ
  notAfter : ℤ
  keyType : String
  keySize : ℕ
  profile : Option String
  pem : String
  status : CertStatus
  source : CertSource
  backend : String
  protocol : Option String
  location : Option String
  revokedAt : Option ℤ
  revocationReason : Option String
  replacedBy : Option ℕ
  lastSeen : Option ℤ
  createdAt : ℤ
  sealHex : Option Integrity.Seal
  backendRef : Option String
  chainPem : Option String
deriving DecidableEq

structure ApprovalRequest where
  action : Action
  payload : Json
  requestedBy : String
  status : ApprovalStatus
  decidedBy : Option String
  decidedAt : Option ℤ
  comment : Option String
  sealHex : Option Integrity.Seal
deriving DecidableEq

structure AuditEvent where
  ts : ℤ
  actor : String
  action : String
  target : String
  details : Json
deriving DecidableEq

/-- A planned early renewal of a set of certificates. -/
structure RenewalCampaign where
  name : String
  reason : String
  revocationReason : String
  explanationUrl : Option String
  criteria : Json
  windowStart : ℤ
  windowEnd : ℤ
  /-- active or closed -/
  status : String
  createdBy : String
  createdAt : ℤ
deriving DecidableEq

/-- a certificate's window, from the campaign that matched it: one row a certificate -/
structure RenewalAdvice where
  certificateId : ℕ
  campaignId : ℕ
  windowStart : ℤ
  windowEnd : ℤ
  revokedByCampaign : Bool
deriving DecidableEq

/-- Work handed to the AD CS gateway. -/
structure AdcsJob where
  jobType : JobType
  status : JobStatus
  appId : Option ℕ
  profile : Option String
  adcsCa : Option String
  adcsTemplate : Option String
  csrPem : Option String
  csrHash : Option String
  serialHex : Option String
  reason : Option String
  resultCertPem : Option String
  resultChainPem : Option String
  error : Option String
  certificateId : Option ℕ
  requestedBy : Option String
  claimedBy : Option String
  claimedAt : Option ℤ
  completedAt : Option ℤ
deriving DecidableEq

structure SigningKey where
  name : String
  appId : ℕ
  purpose : String
  alg : String
  keyRef : String
  signerType : String
  certificateId : Option ℕ
  status : String
  createdBy : String
deriving DecidableEq

structure SigningRequest where
  keyId : ℕ
  requestedBy : String
  digestAlg : String
  digestHex : String
  artifact : List (String × Json)
  status : SigningStatus
  approvalId : Option ℕ
  signatureDer : Option String
  signedAt : Option ℤ
deriving DecidableEq

/-- A manufacturer (IDevID) CA whose device certificates may enroll into an app over EST. -/
structure EstTrustAnchor where
  appId : ℕ
  name : String
  certPem : String
  createdBy : String
deriving DecidableEq

/-- CMP transaction state between the certificate response and certConf. -/
structure CmpTransaction where
  transactionId : String
  appId : Option ℕ
  secretId : Option ℕ
  senderCertPem : Option String
  certificateId : Option ℕ
  approvalId : Option ℕ
  certReqId : ℤ
  bodyType : String
  status : CmpStatus
deriving DecidableEq

/-- One-time shared secret for MAC-protected CMP initial enrollment. -/
structure CmpSecret where
  reference : String
  secretEnc : String
  appId : ℕ
  expiresAt : ℤ
  used : Bool
deriving DecidableEq

/-- One-time SCEP challenge password bound to an app. -/
structure ScepChallenge where
  challengeHash : String
  appId : ℕ
  expiresAt : ℤ
  used : Bool
deriving DecidableEq

/-- A SCEP request waiting for a second person. -/
structure ScepTransaction where
  transactionId : String
  appId : ℕ
  approvalId : Option ℕ
  signerCertPem : String
  subject : String
  status : ScepStatus
  certificateId : Option ℕ
deriving DecidableEq

structure AcmeAccount where
  thumbprint : String
  jwk : Json
  appId : ℕ
  status : AccountStatus
  contact : Json
deriving DecidableEq

structure AcmeOrder where
  accountId : ℕ
  identifiers : List String
  status : OrderStatus
  expires : ℤ
  certificateId : Option ℕ
  error : Option String
  replaces : Option String
  replacesCertId : Option ℕ
deriving DecidableEq

structure AcmeAuthz where
  orderId : ℕ
  identifier : String
  status : AuthzStatus
  token : String
  challengeStatus : AuthzStatus
  validatedAt : Option ℤ
  /-- a null column counts as false -/
  wildcard : Bool
  /-- the one that was attempted -/
  challengeType : Option String
  error : Option String
deriving DecidableEq

/-- External Account Binding credential: ties an ACME account to an onboarded app. -/
structure AcmeEab where
  kid : String
  hmacKeyB64 : String
  hmacKeyEnc : Option String
  appId : ℕ
  used : Bool
deriving DecidableEq

structure AcmeNonce where
  value : String
  createdAt : ℤ
deriving DecidableEq

/-- A place certificates are pushed to: a load balancer, a host, a cluster or a cloud certificate store. -/
structure ProvisioningTarget where
  name : String
  kind : String
  teamId : ℕ
  config : Json
  credentialRef : Option String
  status : String
  sealHex : Option Integrity.Seal
deriving DecidableEq

/-- One certificate kept installed at one place on a target. -/
structure Installation where
  appId : ℕ
  targetId : ℕ
  commonName : String
  sans : List String
  keyType : String
  keyLocation : String
  params : Json
  validateEndpoint : Option String
  autoRenew : Bool
  certificateId : Option ℕ
  status : String
  lastError : Option String
  failures : ℕ
  nextAttemptAt : Option ℤ
  sealHex : Option Integrity.Seal
deriving DecidableEq

structure ProvisioningRun where
  installationId : ℕ
  trigger : String
  status : String
  certificateId : Option ℕ
  steps : List String
  error : Option String
  actor : String
deriving DecidableEq

/-! ## The database -/

structure Db where
  teams : Table String
  apps : Table App
  folders : Table PolicyFolder
  principals : Table Principal
  cas : Table CertificateAuthority
  certificates : Table Certificate
  approvals : Table ApprovalRequest
  audit : List AuditEvent
  campaigns : Table RenewalCampaign
  advice : List RenewalAdvice
  jobs : Table AdcsJob
  signingKeys : Table SigningKey
  signingRequests : Table SigningRequest
  trustAnchors : Table EstTrustAnchor
  cmpTransactions : Table CmpTransaction
  cmpSecrets : Table CmpSecret
  scepChallenges : Table ScepChallenge
  scepTransactions : Table ScepTransaction
  acmeAccounts : Table AcmeAccount
  acmeOrders : Table AcmeOrder
  acmeAuthz : Table AcmeAuthz
  acmeEab : Table AcmeEab
  acmeNonces : Table AcmeNonce
  targets : Table ProvisioningTarget
  installations : Table Installation
  provisioningRuns : Table ProvisioningRun

def Db.empty : Db :=
  ⟨.empty, .empty, .empty, .empty, .empty, .empty, .empty, [], .empty, [], .empty, .empty, .empty, .empty, .empty,
    .empty, .empty, .empty, .empty, .empty, .empty, .empty, .empty, .empty, .empty, .empty⟩

/-- the tables of the enrollment protocols that keep one-time credentials, SCEP requests and ACME objects -/
structure FrontEnd where
  cmpSecrets : Table CmpSecret
  scepChallenges : Table ScepChallenge
  scepTransactions : Table ScepTransaction
  acmeAccounts : Table AcmeAccount
  acmeOrders : Table AcmeOrder
  acmeAuthz : Table AcmeAuthz
  acmeEab : Table AcmeEab
  acmeNonces : Table AcmeNonce

def Db.frontEnd (d : Db) : FrontEnd :=
  ⟨d.cmpSecrets, d.scepChallenges, d.scepTransactions, d.acmeAccounts, d.acmeOrders, d.acmeAuthz, d.acmeEab,
    d.acmeNonces⟩

/-! ## Sealed columns -/

open Integrity

instance : Sealed Principal where
  kind := .principal
  getattr p
    | .name => .str p.name
    | .role => .str p.role.text
    | .keyHash => .str p.keyHash
    | .appId => .ofNat? p.appId
    | .active => .bool p.active
    | .createdBy => .str p.createdBy
    | _ => .null
  sealHex p := p.sealHex
  withSeal p s := { p with sealHex := s }
  sealHex_withSeal _ _ := rfl
  getattr_withSeal _ _ := rfl

instance : Sealed ApprovalRequest where
  kind := .approval
  getattr r
    | .action => .str r.action.text
    | .payload => r.payload
    | .requestedBy => .str r.requestedBy
    | .status => .str r.status.text
    | .decidedBy => .ofStr? r.decidedBy
    | _ => .null
  sealHex r := r.sealHex
  withSeal r s := { r with sealHex := s }
  sealHex_withSeal _ _ := rfl
  getattr_withSeal _ _ := rfl

instance : Sealed Certificate where
  kind := .certificate
  getattr c
    | .fingerprintSha256 => .str c.fingerprintSha256
    | .serialHex => .str c.serialHex
    | .caId => .ofNat? c.caId
    | .appId => .ofNat? c.appId
    | .status => .str c.status.text
    | .revocationReason => .ofStr? c.revocationReason
    | .source => .str c.source.text
    | .backend => .str c.backend
    | _ => .null
  sealHex c := c.sealHex
  withSeal c s := { c with sealHex := s }
  sealHex_withSeal _ _ := rfl
  getattr_withSeal _ _ := rfl

instance : Sealed App where
  kind := .app
  getattr a
    | .teamId => .num a.teamId
    | .name => .str a.name
    | .environment => .str a.environment.text
    | .profile => .str a.profile
    | .allowedDomains => .ofStrs a.allowedDomains
    | .status => .str a.status.text
    | .folderId => .ofNat? a.folderId
    | _ => .null
  sealHex a := a.sealHex
  withSeal a s := { a with sealHex := s }
  sealHex_withSeal _ _ := rfl
  getattr_withSeal _ _ := rfl

instance : Sealed PolicyFolder where
  kind := .policyFolder
  getattr f
    | .name => .str f.name
    | .parentId => .ofNat? f.parentId
    | .settings => f.settings
    | _ => .null
  sealHex f := f.sealHex
  withSeal f s := { f with sealHex := s }
  sealHex_withSeal _ _ := rfl
  getattr_withSeal _ _ := rfl

instance : Sealed ProvisioningTarget where
  kind := .provisioningTarget
  getattr t
    | .name => .str t.name
    | .kind => .str t.kind
    | .teamId => .num t.teamId
    | .config => t.config
    | .credentialRef => .ofStr? t.credentialRef
    | .status => .str t.status
    | _ => .null
  sealHex t := t.sealHex
  withSeal t s := { t with sealHex := s }
  sealHex_withSeal _ _ := rfl
  getattr_withSeal _ _ := rfl

instance : Sealed Installation where
  kind := .installation
  getattr i
    | .appId => .num i.appId
    | .targetId => .num i.targetId
    | .commonName => .str i.commonName
    | .sans => .ofStrs i.sans
    | .keyType => .str i.keyType
    | .keyLocation => .str i.keyLocation
    | .params => i.params
    | .validateEndpoint => .ofStr? i.validateEndpoint
    | _ => .null
  sealHex i := i.sealHex
  withSeal i s := { i with sealHex := s }
  sealHex_withSeal _ _ := rfl
  getattr_withSeal _ _ := rfl

/-! ## Flushing rows -/

section Flushed

variable {α : Type} [Sealed α]

/-- an INSERT: the hook seals the new row -/
def inserted (st : SealState) (a : α) : α :=
  if st.key.isNone then a else Sealed.withSeal a (compute st (Sealed.kind α) (Sealed.getattr a))

/-- an UPDATE of a row loaded in this session and assigned since: the hook renews a valid seal, keeps a broken one -/
def flushed [DecidableEq α] (st : SealState) (old new : α) : α :=
  if st.key.isNone || old = new then new
  else if matchesSeal st (Sealed.kind α) (Sealed.getattr old) (Sealed.sealHex old) then
    Sealed.withSeal new (compute st (Sealed.kind α) (Sealed.getattr new))
  else new

@[simp] theorem getattr_inserted (st : SealState) (a : α) : Sealed.getattr (inserted st a) = Sealed.getattr a := by
  unfold inserted; split_ifs <;> simp

@[simp] theorem getattr_flushed [DecidableEq α] (st : SealState) (old new : α) :
    Sealed.getattr (flushed st old new) = Sealed.getattr new := by
  unfold flushed; split_ifs <;> simp

theorem inserted_eq (st : SealState) (a : α) : inserted st a = a ∨ ∃ s, inserted st a = Sealed.withSeal a s := by
  unfold inserted
  split_ifs
  · exact Or.inl rfl
  · exact Or.inr ⟨_, rfl⟩

theorem flushed_eq [DecidableEq α] (st : SealState) (old new : α) :
    flushed st old new = new ∨ ∃ s, flushed st old new = Sealed.withSeal new s := by
  unfold flushed
  split_ifs
  · exact Or.inl rfl
  · exact Or.inr ⟨_, rfl⟩
  · exact Or.inl rfl

theorem verify_inserted {st : SealState} {κ : Key} (hk : st.key = some κ) (a : α) : verify st (inserted st a) = true := by
  rw [verify, verifyRow_iff hk]
  simp [Sealed.row, inserted, hk, matches_compute hk]

/-- a row verifies after an update iff it did before; `new` is `old` with columns other than the seal assigned -/
theorem verify_flushed [DecidableEq α] {st : SealState} {κ : Key} (hk : st.key = some κ) {old new : α}
    (h : verify st old = true) : verify st (flushed st old new) = true := by
  have hm := (verifyRow_iff hk).1 h
  rw [verify, verifyRow_iff hk]
  by_cases he : old = new
  · subst he
    simpa [flushed, Sealed.row] using hm
  · simp only [Sealed.row] at hm
    simp [flushed, hk, he, hm, Sealed.row, matches_compute hk]

end Flushed

/-- the hook writes no column but the seal -/
theorem flushed_certificate (st : SealState) (old new : Certificate) :
    ∃ s, flushed st old new = { new with sealHex := s } := by
  rcases flushed_eq st old new with h | ⟨s, h⟩
  · exact ⟨new.sealHex, h⟩
  · exact ⟨s, h⟩

section Columns

variable (st : SealState) (old new : Certificate)

@[simp] theorem flushed_status : (flushed st old new).status = new.status := by
  obtain ⟨s, h⟩ := flushed_certificate st old new
  rw [h]

@[simp] theorem flushed_serialHex : (flushed st old new).serialHex = new.serialHex := by
  obtain ⟨s, h⟩ := flushed_certificate st old new
  rw [h]

@[simp] theorem flushed_source : (flushed st old new).source = new.source := by
  obtain ⟨s, h⟩ := flushed_certificate st old new
  rw [h]

@[simp] theorem flushed_caId : (flushed st old new).caId = new.caId := by
  obtain ⟨s, h⟩ := flushed_certificate st old new
  rw [h]

end Columns

theorem inserted_certificate (st : SealState) (c : Certificate) : ∃ s, inserted st c = { c with sealHex := s } := by
  rcases inserted_eq st c with h | ⟨s, h⟩
  · exact ⟨c.sealHex, h⟩
  · exact ⟨s, h⟩

theorem flushed_approval (st : SealState) (old new : ApprovalRequest) :
    ∃ s, flushed st old new = { new with sealHex := s } := by
  rcases flushed_eq st old new with h | ⟨s, h⟩
  · exact ⟨new.sealHex, h⟩
  · exact ⟨s, h⟩

theorem inserted_approval (st : SealState) (r : ApprovalRequest) :
    ∃ s, inserted st r = { r with sealHex := s } := by
  rcases inserted_eq st r with h | ⟨s, h⟩
  · exact ⟨r.sealHex, h⟩
  · exact ⟨s, h⟩

end Certadillo
