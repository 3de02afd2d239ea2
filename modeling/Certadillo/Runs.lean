/-
Runs of the application: any sequence of service calls and CMP messages, each in a transaction of its own.

Every call brings its own `Env`: the clock, the random draws and the answers of the outside world are those of that
request. `writes` says which single writes a call is made of; invariants of runs follow from it.
-/
import Certadillo.Enrollment.CmpEffects
import Certadillo.Lib.Run

namespace Certadillo

open Integrity Policy Py Relation

/-- the sources an inventory feed reports certificates under -/
inductive Feed where
  | discovered | imported | cloud | ct | agent
deriving DecidableEq

def Feed.source : Feed → CertSource
  | discovered => .discovered
  | imported => .imported
  | cloud => .other "cloud" (by decide)
  | ct => .other "ct" (by decide)
  | agent => .other "agent" (by decide)

inductive Op where
  | createPrincipal (actor : Option Actor) (name : String) (role : Role) (appId : Option ℕ) (rawKey : String)
  | deactivatePrincipal (actor : Actor) (name : String)
  | onboardApp (actor : Actor) (teamId : ℕ) (name : String) (environment : Environment) (profileName : String)
      (allowedDomains : List String) (dataClassification : String) (folderId : Option ℕ)
  | policyChange (actor : Actor) (op : Platform.PolicyOp)
  | addEstTrustAnchor (actor : Actor) (appId : ℕ) (name certPem : String)
  | createSubCa (actor : Actor) (name parent : String) (years : ℤ)
  | requestCertificate (actor : Actor) (appId : ℕ) (r : Platform.CertRequest)
  | renew (actor : Actor) (certId : ℕ) (csrPem protocol : String)
  | revoke (actor : Actor) (certId : ℕ) (reason : String) (changeRef : Option String)
  | ingest (actorName : String) (cert : X509Cert) (feed : Feed) (location : Option String) (appId : Option ℕ)
  | gatewayCompleteIssue (actor : Actor) (jobId : ℕ) (certificatePem : String)
  | campaignRevoke (actor : Actor) (campaignId : ℕ) (remaining : Bool) (changeRef : Option String)
  | requestKey (actor : Actor) (name : String) (appId : ℕ) (purpose alg : String)
  | requestSignature (actor : Actor) (keyName digestAlg digestHex : String) (artifact : List (String × String))
  | decide (actor : Actor) (approvalId : ℕ) (approve : Bool) (comment : Option String)
  | cmp (w : Cmp.Wire) (req : Cmp.CmpRequest) (label : Option String)

structure Call where
  env : Env
  op : Op

/-- one call, as `Runtime.platform` runs it -/
def step (d : Db) (c : Call) : Db :=
  match c.op with
  | .createPrincipal actor name role appId rawKey =>
    (Tx.transact (Platform.createPrincipal c.env actor name role appId rawKey) d).2
  | .deactivatePrincipal actor name => (Tx.transact (Platform.deactivatePrincipal c.env actor name) d).2
  | .onboardApp actor teamId name environment profileName allowedDomains dataClassification folderId =>
    (Tx.transact (Platform.onboardApp c.env actor teamId name environment profileName allowedDomains
      dataClassification folderId) d).2
  | .policyChange actor op => (Tx.transact (Platform.policyChange c.env actor op) d).2
  | .addEstTrustAnchor actor appId name certPem =>
    (Tx.transact (Platform.addEstTrustAnchor c.env actor appId name certPem) d).2
  | .createSubCa actor name parent years => (Tx.transact (Platform.createSubCa c.env actor name parent years) d).2
  | .requestCertificate actor appId r => (Tx.transact (Platform.requestCertificate c.env actor appId r) d).2
  | .renew actor certId csrPem protocol => (Tx.transact (Platform.renew c.env actor certId csrPem protocol) d).2
  | .revoke actor certId reason changeRef =>
    (Tx.transact (Platform.revoke c.env actor certId reason changeRef) d).2
  | .ingest actorName cert feed location appId =>
    (Tx.transact (Platform.ingest c.env actorName cert feed.source location appId) d).2
  | .gatewayCompleteIssue actor jobId certificatePem =>
    (Tx.transact (Platform.gatewayCompleteIssue c.env actor jobId certificatePem) d).2
  | .campaignRevoke actor campaignId remaining changeRef =>
    (Tx.transact (Platform.campaignRevoke c.env actor campaignId remaining changeRef) d).2
  | .requestKey actor name appId purpose alg =>
    (Tx.transact (CodeSign.requestKey c.env actor name appId purpose alg) d).2
  | .requestSignature actor keyName digestAlg digestHex artifact =>
    (Tx.transact (CodeSign.requestSignature c.env actor keyName digestAlg digestHex artifact) d).2
  | .decide actor approvalId approve comment =>
    (Tx.transact (Platform.decide c.env actor approvalId approve comment) d).2
  | .cmp w req label => (Tx.transact (Cmp.handle c.env w req label) d).2

/-! ## What a call writes -/

/-- the revocations a call may record: of row `i`, under the serial `x` -/
def revokes (d : Db) (c : Call) (i : ℕ) (x : String) : Prop :=
  match c.op with
  | .revoke _ certId _ _ => i = certId
  | .campaignRevoke _ campaignId remaining _ =>
    remaining = false ∧ ∃ a ∈ d.advice, a.campaignId = campaignId ∧ i = a.certificateId
  | .decide actor approvalId approve _ =>
    ∃ req, Platform.decideChecks c.env d actor approvalId approve = .ok req ∧ req.action = .campaignRevokeRemaining ∧
      ∃ a ∈ d.advice, Platform.campaignOf req = .ok a.campaignId ∧ i = a.certificateId
  | .cmp _ req _ => Cmp.MayRevoke d req i x
  | _ => False

/-- the call may draw a serial for a certificate -/
def draws (c : Call) : Prop :=
  match c.op with
  | .requestCertificate .. | .renew .. | .decide .. => True
  | .cmp _ req _ => req.body.enrolls = true
  | _ => False

/-- what a call is granted: a call that records revocations adds no certificate -/
def grant (d : Db) (c : Call) : Grant where
  adds row := (∀ i x, ¬ revokes d c i x) ∧ (row.caId = none ∨ draws c ∧ row.serialHex = hex (c.env.randomSerial 0))
  revokes := revokes d c
  supersedes _ _ := True
  decides i :=
    match c.op with
    | .decide _ approvalId _ _ => i = approvalId
    | _ => False
  opens t :=
    match c.op with
    | .cmp w req _ => ∃ prot, Cmp.authenticate c.env w d req = .ok prot ∧ t.transactionId = req.txid ∧
        Cmp.opener t = some prot.sender.credential
    | _ => False
  advances _ :=
    match c.op with
    | .cmp .. => True
    | _ => False

open Tx (Calm Does DoesAt)

theorem writes_of_does {α : Type} {m : M α} {c : Call} {d : Db} (h : Does (Write c.env (grant d c)) m) :
    ReflTransGen (Write c.env (grant d c)) d (Tx.transact m d).2 := Tx.transact_does h d

/-- a call that revokes nothing may add what it is offered -/
theorem adds_of_draws {d : Db} {c : Call} (hd : draws c) (h : ∀ i x, ¬ revokes d c i x) (row : Certificate)
    (ho : Offered c.env row) : (grant d c).adds row := ⟨h, ho.imp_right fun hx => ⟨hd, hx⟩⟩

theorem adds_of_revokes_none {d : Db} {c : Call} (h : ∀ i x, ¬ revokes d c i x) (row : Certificate)
    (hca : row.caId = none) : (grant d c).adds row := ⟨h, Or.inl hca⟩

/-- **Every call is a sequence of single writes it is granted.** -/
theorem step_writes (d : Db) (c : Call) : ReflTransGen (Write c.env (grant d c)) d (step d c) := by
  have hdraws := @adds_of_draws d c
  have hadds := @adds_of_revokes_none d c
  obtain ⟨env, op⟩ := c
  cases op with
  | createPrincipal actor name role appId rawKey => exact writes_of_does (Platform.calm_createPrincipal _ _ _ _ _).does
  | deactivatePrincipal actor name => exact writes_of_does (Platform.calm_deactivatePrincipal _ _).does
  | onboardApp actor teamId name environment profileName allowedDomains dataClassification folderId =>
    exact writes_of_does (Platform.calm_onboardApp _ _ _ _ _ _ _ _).does
  | policyChange actor op => exact writes_of_does (Platform.calm_policyChange _ _).does
  | addEstTrustAnchor actor appId name certPem => exact writes_of_does (Platform.calm_addEstTrustAnchor _ _ _ _).does
  | createSubCa actor name parent years => exact writes_of_does (Platform.calm_createSubCa _ _ _ _).does
  | requestCertificate actor appId r =>
    exact writes_of_does (Platform.does_requestCertificate (hdraws trivial fun _ _ => id) (fun _ _ _ => trivial) _ _)
  | renew actor certId csrPem protocol => exact writes_of_does (Platform.does_renew (hdraws trivial fun _ _ => id) (fun _ => trivial) _ _ _)
  | revoke actor certId reason changeRef =>
    exact writes_of_does (Platform.calm_revoke (fun _ => rfl) _ _ _).does
  | ingest actorName cert feed location appId =>
    exact writes_of_does (Platform.calm_ingest (fun row hca _ => hadds (fun _ _ => id) row hca) (by cases feed <;> decide) (fun _ _ _ => trivial) _ _ _ _).does
  | gatewayCompleteIssue actor jobId certificatePem =>
    exact writes_of_does (Platform.calm_gatewayCompleteIssue (hadds fun _ _ => id) _ _ _).does
  | campaignRevoke actor campaignId remaining changeRef =>
    refine Tx.transact_doesAt (Platform.calmAt_campaignRevoke ?_ _ _).does
    exact fun hrem a ha hc x => ⟨hrem, a, ha, hc, rfl⟩
  | requestKey actor name appId purpose alg => exact writes_of_does (CodeSign.calm_requestKey _ _ _ _ _).does
  | requestSignature actor keyName digestAlg digestHex artifact =>
    exact writes_of_does (CodeSign.calm_requestSignature _ _ _ _ _).does
  | decide actor approvalId approve comment =>
    refine Tx.transact_doesAt (Platform.doesAt_decide comment (fun req hreq _ => ⟨fun appId happ decision c hc => hdraws trivial ?_ c hc.offered, fun _ _ _ _ _ => trivial, ?_⟩) rfl)
    · rintro i x ⟨req', hreq', he, -⟩
      obtain rfl : req = req' := by simpa [hreq] using hreq'
      exact happ.signs he
    · exact fun he a ha hc x => ⟨req, hreq, he, a, ha, hc, rfl⟩
  | cmp w req label =>
    refine Tx.transact_doesAt (Cmp.doesAt_handle (fun prot hprot => ?_) label)
    refine ⟨fun hb => hdraws hb fun i x hr => ?_, fun i x hr => hr, fun _ _ _ => trivial, fun t ht ho => ⟨prot, hprot, ht, ho⟩, fun _ => trivial⟩
    have hr : Cmp.MayRevoke d req i x := hr
    unfold Cmp.MayRevoke at hr
    split at hr <;> simp_all [Cmp.Body.enrolls]

end Certadillo
