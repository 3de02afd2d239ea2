/-
Deciding an approval is one transaction, but for a refused Windows logon.

`decide` writes the decision and carries it out in the session of the request; `transact` commits it when it returns and
rolls it back when it raises. The one commit inside is that of `rejectLogon`: when the directory refuses the account of
an issue_certificate approval, the decision, which is already written, is committed with the rejection's audit event
before the error is raised.

- `executeBranch_calmAt`, `decide_calmAt`: no kind of approval commits anything itself, but for that.
- `decide_atomic_iff`: an approval that raises leaves the database as it was iff no logon is refused.
- `does_decide`: what deciding may write.
-/
import Certadillo.Services.Effects

namespace Certadillo

open Integrity Policy Py
open Tx (Calm CalmAt Does DoesAt calm_pure calm_bind calm_get_bind calm_ofExcept_bind calmAt_bind calm_modify
  calm_ite does_bind does_get_bind)

namespace Platform

section Execute

variable {env : Env} {g : Grant}

/-! ## Kinds of approval -/

/-- the directory refuses the account an approved request names -/
def RefusesLogon (env : Env) (d : Db) (a : IssueArgs) : Prop :=
  ∃ app csr decision v, issueDecision env d a = .ok (app, csr, decision) ∧ decision.upns.isEmpty = false ∧
    logonAnswer env decision = .refused v

/-- the certificate an approved request replaces, if it is active then -/
def MayReplace (g : Grant) (a : IssueArgs) : Prop := ∀ prev, a.previousId = some prev → g.supersedes prev .active

theorem calm_issueApproved_of {W : Db → Db → Prop} {adds : Certificate → Prop} {replaces : ℕ → CertStatus → Prop}
    (hW : Enrols env adds replaces W) {a : IssueArgs}
    (hs : ∀ decision c, SignedRow env a.appId decision c → c.revokedAt = none → adds c) (requestedBy : String)
    (hp : ∀ prev, a.previousId = some prev → replaces prev .active) (app : App) (csr : Csr) (decision : Decision) :
    Calm W (issueApproved env requestedBy a app csr decision) := by
  unfold issueApproved
  refine calm_ite (fun _ => ?_) fun _ => ?_
  · exact calm_bind (calm_enqueueAdcsIssue_of hW.toAdmits _ _ _ _ _) fun _ => calm_pure _
  refine calm_bind (calm_sign_of hW (hs _) _ _ _ _) fun id s => Tx.calmAt_get_bind ?_
  extract_lets -underBinder rest
  have hrest : ∀ u, Calm W (rest u) := fun _ => calm_pure _
  split
  · next prevId hprev =>
    split
    · next prev hget =>
      split
      · next hactive =>
        refine calmAt_bind (Tx.calmAt_modify (hW.supersede _ _ _ fun c hc => ?_)) fun u s' _ => hrest u s'
        obtain rfl := Option.some.inj (hget.symm.trans hc)
        rw [hactive]
        exact hp prevId hprev
      · exact hrest () s
    · exact hrest () s
  · exact hrest () s

theorem calm_issueApproved {a : IssueArgs} (hs : ∀ decision c, SignedRow env a.appId decision c → g.adds c)
    (requestedBy : String) (hp : MayReplace g a) (app : App) (csr : Csr) (decision : Decision) :
    Calm (Write env g) (issueApproved env requestedBy a app csr decision) :=
  calm_issueApproved_of enrols_write (fun decision c hc _ => hs decision c hc) requestedBy hp app csr decision

theorem does_resolveSid {W : Db → Db → Prop} (hW : Admits W) (decision : Decision) (app : App) (protocol : String) :
    Does W (resolveSid env decision app protocol) := by
  unfold resolveSid
  split
  · exact (calm_pure _).does
  · exact does_bind (onward_applyLogonSid hW _ _ _).does fun r => (calm_pure _).does

/-- without a refusal the lookup writes nothing -/
theorem calm_resolveSid {decision : Decision} (app : App) (protocol : String)
    (h : decision.upns.isEmpty = false → ∀ v, logonAnswer env decision ≠ .refused v) :
    Calm (Write env g) (resolveSid env decision app protocol) := by
  unfold resolveSid
  refine calm_ite (fun _ => calm_pure _) fun hu => calm_bind ?_ fun r => calm_pure _
  unfold applyLogonSid
  split
  · exact calm_raise _
  · next v hv => exact absurd hv (h (by simpa using hu) v)
  · exact calm_pure _

theorem does_executeIssue_of {W : Db → Db → Prop} {adds : Certificate → Prop} {replaces : ℕ → CertStatus → Prop}
    (hW : Enrols env adds replaces W) {a : IssueArgs}
    (hs : ∀ decision c, SignedRow env a.appId decision c → c.revokedAt = none → adds c) (requestedBy : String)
    (hp : ∀ prev, a.previousId = some prev → replaces prev .active) : Does W (executeIssue env requestedBy a) := by
  unfold executeIssue
  refine does_get_bind fun d => Tx.does_ofExcept_bind fun r _ => ?_
  exact does_bind (does_resolveSid hW.toAdmits _ _ _) fun decision => (calm_issueApproved_of hW hs _ hp _ _ _).does

theorem does_executeIssue {a : IssueArgs} (hs : ∀ decision c, SignedRow env a.appId decision c → g.adds c)
    (requestedBy : String) (hp : MayReplace g a) :
    Does (Write env g) (executeIssue env requestedBy a) :=
  does_executeIssue_of enrols_write (fun decision c hc _ => hs decision c hc) requestedBy hp

theorem executeIssue_calmAt {a : IssueArgs} (hs : ∀ decision c, SignedRow env a.appId decision c → g.adds c)
    (requestedBy : String) (hp : MayReplace g a) {s : Session Db} (h : ¬ RefusesLogon env s.work a) : CalmAt (Write env g) s (executeIssue env requestedBy a) := by
  unfold executeIssue
  refine Tx.calmAt_get_bind (calmAt_lift_bind fun r hr => ?_)
  obtain ⟨app, csr, decision⟩ := r
  refine calm_bind (calm_resolveSid app a.protocol fun hu v hv => ?_) (fun d => calm_issueApproved hs _ hp _ _ _) s
  exact h ⟨app, csr, decision, v, hr, hu, hv⟩

/-- a refused logon commits the session, with the rejection's event -/
theorem executeIssue_refused {requestedBy : String} {a : IssueArgs} {s : Session Db} (h : RefusesLogon env s.work a) :
    ∃ e ev, executeIssue env requestedBy a s =
      (.error e, ⟨{ s.work with audit := s.work.audit ++ [ev] }, { s.work with audit := s.work.audit ++ [ev] }⟩) := by
  obtain ⟨app, csr, decision, v, hd, hu, hv⟩ := h
  have hsid : ∃ ev, resolveSid env decision app a.protocol s = (.error (.policy v),
      ⟨{ s.work with audit := s.work.audit ++ [ev] }, { s.work with audit := s.work.audit ++ [ev] }⟩) := by
    simp only [resolveSid, hu, Bool.false_eq_true, if_false, applyLogonSid, hv]
    exact ⟨_, rfl⟩
  obtain ⟨ev, hsid⟩ := hsid
  refine ⟨.policy v, ev, ?_⟩
  have hlift : lift (issueDecision env s.work a) s = (.ok (app, csr, decision), s) := by rw [hd]; rfl
  exact (Tx.bind_ok hlift).trans (Tx.bind_error hsid)

theorem calm_setAppStatus {W : Db → Db → Prop} (hW : Admits W) (payload : Json) (status : AppStatus) :
    Calm W (setAppStatus env payload status) := by
  unfold setAppStatus
  refine calm_get_bind fun d => calm_ofExcept_bind fun appId _ => ?_
  split
  · exact Tx.calm_throw _
  · exact calm_bind (calm_modify fun d => hW.apps d _) fun _ => calm_pure _

/-- the campaign an approval was asked for -/
def campaignOf (req : ApprovalRequest) : Except Err ℕ := do toId (← item req.payload "campaign_id")

/-- an approval's request is for a certificate of this app: asked for as such, or for a signing key -/
def Issues (req : ApprovalRequest) (appId : ℕ) : Prop :=
  (req.action = .issueCertificate ∨ req.action = .codesignKeyCreate) ∧
    (do toId (← item req.payload "app_id")) = .ok appId

theorem Issues.signs {req : ApprovalRequest} {appId : ℕ} (h : Issues req appId) :
    req.action ≠ .campaignRevokeRemaining := by
  rcases h.1 with h | h
  · simp [h]
  · simp [h]

theorem IssueArgs.issues {req : ApprovalRequest} {a : IssueArgs} (hreq : req.action = .issueCertificate)
    (h : IssueArgs.ofPayload req.payload = .ok a) : Issues req a.appId := by
  refine ⟨Or.inl hreq, ?_⟩
  unfold IssueArgs.ofPayload at h
  obtain ⟨p, -, h⟩ := except_bind_ok.1 h
  split at h
  all_goals
    obtain ⟨protocol, -, h⟩ := except_bind_ok.1 h
    obtain ⟨j, hj, h⟩ := except_bind_ok.1 h
    obtain ⟨appId, happ, h⟩ := except_bind_ok.1 h
    refine except_bind_ok.2 ⟨j, hj, ?_⟩
    have hfield : a.appId = appId := by
      iterate 11 obtain ⟨_, -, h⟩ := except_bind_ok.1 h
      obtain rfl := except_pure_ok.1 h
      rfl
    rw [hfield]
    exact happ

theorem KeyArgs.issues {req : ApprovalRequest} {a : CodeSign.KeyArgs} (hreq : req.action = .codesignKeyCreate)
    (h : CodeSign.KeyArgs.ofPayload req.payload = .ok a) : Issues req a.appId := by
  refine ⟨Or.inr hreq, ?_⟩
  unfold CodeSign.KeyArgs.ofPayload at h
  obtain ⟨_, -, h⟩ := except_bind_ok.1 h
  obtain ⟨_, -, h⟩ := except_bind_ok.1 h
  obtain ⟨j, hj, h⟩ := except_bind_ok.1 h
  obtain ⟨appId, happ, h⟩ := except_bind_ok.1 h
  refine except_bind_ok.2 ⟨j, hj, ?_⟩
  iterate 4 obtain ⟨_, -, h⟩ := except_bind_ok.1 h
  obtain rfl := except_pure_ok.1 h
  exact happ

/-- what carrying out an approval needs granted: the rows it may add and replace, or the certificates its campaign advises
on -/
structure Granted (env : Env) (g : Grant) (d : Db) (req : ApprovalRequest) : Prop where
  adds : ∀ appId, Issues req appId → ∀ decision c, SignedRow env appId decision c → g.adds c
  replaces : req.action = .issueCertificate → ∀ a, IssueArgs.ofPayload req.payload = .ok a → MayReplace g a
  revokes : req.action = .campaignRevokeRemaining →
    ∀ a ∈ d.advice, campaignOf req = .ok a.campaignId → ∀ x, g.revokes a.certificateId x

theorem granted_full (d : Db) (req : ApprovalRequest) : Granted env .full d req :=
  ⟨fun _ _ _ _ _ => trivial, fun _ _ _ _ _ => trivial, fun _ _ _ _ _ => trivial⟩

theorem executeBranch_calmAt {req : ApprovalRequest} {s : Session Db} (hg : Granted env g s.work req)
    (hreq : req.action ≠ .issueCertificate) (approvalId : ℕ) (decidedBy : String) :
    CalmAt (Write env g) s (executeBranch env approvalId req decidedBy) := by
  unfold executeBranch
  cases ha : req.action with
  | onboardProdApp =>
    refine calm_bind (calm_setAppStatus admits_write _ _) (fun name => ?_) s
    exact calm_bind (calm_record (by decide)) fun _ => calm_pure _
  | issueCertificate => exact absurd ha hreq
  | createCa =>
    refine calm_get_bind (fun d => calm_lift_bind fun parentName _ => calm_lift_bind fun parent _ => ?_) s
    refine calm_lift_bind fun name _ => calm_lift_bind fun years _ => ?_
    refine calm_bind (CAService.calm_createSubordinate _ _ _ _ _) fun _ => ?_
    exact calm_bind (calm_record (by decide)) fun _ => calm_pure _
  | addEstTrustAnchor =>
    refine calm_lift_bind (fun appId _ => calm_lift_bind fun name _ => calm_lift_bind fun certPem _ => ?_) s
    exact calm_bind (calm_addTrustAnchor _ _ _ _) fun _ => calm_pure _
  | policyChange =>
    refine calm_lift_bind (fun op _ => ?_) s
    exact calm_bind (calm_applyPolicyChange _ _ _) fun _ => calm_pure _
  | codesignKeyCreate =>
    refine calm_lift_bind (fun a hargs => ?_) s
    exact calm_bind (CodeSign.calm_createKeyNow (hg.adds _ (KeyArgs.issues ha hargs)) _ _) fun _ => calm_pure _
  | codeSign =>
    refine calm_lift_bind (fun requestId _ => ?_) s
    exact calm_bind (CodeSign.calm_signNow _ _) fun _ => calm_pure _
  | campaignRevokeRemaining =>
    refine calmAt_lift_bind fun campaignId hc => calmAt_lift_bind fun changeRef _ => ?_
    have hadvice : ∀ a ∈ s.work.advice, a.campaignId = campaignId → ∀ x, g.revokes a.certificateId x := by
      rintro a hmem rfl
      exact hg.revokes ha a hmem hc
    exact calmAt_bind (calmAt_campaignRevokeNow hadvice _ _ _) fun _ s' _ => calm_pure _ s'
  | other t h => exact calm_pure _ s

theorem executeBranch_issue {req : ApprovalRequest} (hreq : req.action = .issueCertificate) (approvalId : ℕ)
    (decidedBy : String) :
    executeBranch env approvalId req decidedBy =
      (do
        let a ← lift (IssueArgs.ofPayload req.payload)
        let keys ← executeIssue env req.requestedBy a
        pure (some keys)) := by
  unfold executeBranch
  rw [hreq]

theorem executeBranch_doesAt {req : ApprovalRequest} {s : Session Db} (hg : Granted env g s.work req) (approvalId : ℕ)
    (decidedBy : String) : DoesAt (Write env g) s (executeBranch env approvalId req decidedBy) := by
  by_cases hreq : req.action = .issueCertificate
  · rw [executeBranch_issue hreq]
    refine does_lift_bind (fun a ha => ?_) s
    have hadds := hg.adds _ (IssueArgs.issues hreq ha)
    exact does_bind (does_executeIssue hadds _ (hg.replaces hreq a ha)) fun _ => (calm_pure _).does
  · exact (executeBranch_calmAt hg hreq _ _).does

/-- carrying out an approval does what the four calls it may make do -/
theorem executeBranch_doesAt_of {W : Db → Db → Prop} (hW : Admits W) {req : ApprovalRequest} {approvalId : ℕ}
    {decidedBy : String} {s : Session Db}
    (hissue : req.action = .issueCertificate → ∀ a, Does W (executeIssue env req.requestedBy a))
    (hkey : req.action = .codesignKeyCreate → ∀ a, Calm W (CodeSign.createKeyNow env req.requestedBy decidedBy a))
    (hsign : req.action = .codeSign → ∀ id, (do toId (← item req.payload "request_id")) = .ok id →
      Calm W (CodeSign.signNow env id decidedBy))
    (hcampaign : req.action = .campaignRevokeRemaining → ∀ actor campaignId changeRef, campaignOf req = .ok campaignId →
      DoesAt W s (campaignRevokeNow env actor campaignId true changeRef)) :
    DoesAt W s (executeBranch env approvalId req decidedBy) := by
  unfold executeBranch
  cases haction : req.action with
  | onboardProdApp =>
    refine (calm_bind (calm_setAppStatus hW _ _) fun name => ?_).does s
    exact calm_bind (hW.record (by decide)) fun _ => calm_pure _
  | issueCertificate =>
    refine Tx.does_ofExcept_bind (fun a _ => ?_) s
    exact does_bind (hissue haction a) fun _ => (calm_pure _).does
  | createCa =>
    refine (calm_get_bind fun d => calm_ofExcept_bind fun parentName _ => ?_).does s
    refine calm_ofExcept_bind fun parent _ => calm_ofExcept_bind fun name _ => calm_ofExcept_bind fun years _ => ?_
    refine calm_bind (CAService.calm_createSubordinate_of hW _ _ _ _ _) fun _ => ?_
    exact calm_bind (hW.record (by decide)) fun _ => calm_pure _
  | addEstTrustAnchor =>
    refine (calm_ofExcept_bind fun appId _ => calm_ofExcept_bind fun name _ => calm_ofExcept_bind fun certPem _ => ?_).does s
    exact calm_bind (calm_addTrustAnchor_of hW _ _ _ _) fun _ => calm_pure _
  | policyChange =>
    refine (calm_ofExcept_bind fun op _ => ?_).does s
    exact calm_bind (calm_applyPolicyChange_of hW _ _ _) fun _ => calm_pure _
  | codesignKeyCreate =>
    refine (calm_ofExcept_bind fun a _ => ?_).does s
    exact calm_bind (hkey haction a) fun _ => calm_pure _
  | codeSign =>
    refine (calm_ofExcept_bind fun id hid => ?_).does s
    exact calm_bind (hsign haction id hid) fun _ => calm_pure _
  | campaignRevokeRemaining =>
    refine Tx.doesAt_ofExcept_bind fun campaignId hid => Tx.doesAt_ofExcept_bind fun changeRef _ => ?_
    exact Tx.doesAt_bind (hcampaign haction _ _ _ hid) fun _ s' _ => (calm_pure _).does s'
  | other t h => exact (calm_pure _).does s

/-- what an approved request's execution finds when the directory refuses its account -/
def RefusedRequest (env : Env) (d : Db) (req : ApprovalRequest) : Prop :=
  req.action = .issueCertificate ∧ (∃ kvs, req.payload = .obj kvs) ∧
    ∃ a, IssueArgs.ofPayload req.payload = .ok a ∧ RefusesLogon env d a

theorem calm_storePayload {approvalId : ℕ} (ha : g.decides approvalId) (p : Json)
    (keys : Option (List (String × Json))) :
    Calm (Write env g) (match keys with
      | some keys => setRow env Col.approvals approvalId fun r => { r with payload := addKeys p keys }
      | none => pure ()) := by
  cases keys with
  | none => exact calm_pure _
  | some keys => exact calm_modify fun d => .setApproval d _ _ ha fun r _ => ⟨rfl, rfl, Or.inl ⟨rfl, rfl⟩⟩

theorem execute_calmAt {req : ApprovalRequest} {s : Session Db} (hg : Granted env g s.work req) {approvalId : ℕ}
    (ha : g.decides approvalId) (decidedBy : String) (h : ¬ RefusedRequest env s.work req) :
    CalmAt (Write env g) s (execute env approvalId req decidedBy) := by
  unfold execute
  split
  · next kvs hp =>
    refine calmAt_bind ?_ fun keys s' _ => calm_storePayload ha _ keys s'
    by_cases hreq : req.action = .issueCertificate
    · rw [executeBranch_issue hreq]
      refine calmAt_lift_bind fun a hargs => ?_
      have hissue := executeIssue_calmAt (hg.adds _ (IssueArgs.issues hreq hargs)) req.requestedBy (hg.replaces hreq a hargs)
        fun hr => h ⟨hreq, ⟨kvs, hp⟩, a, hargs, hr⟩
      exact calmAt_bind hissue fun _ s' _ => calm_pure _ s'
    · exact executeBranch_calmAt hg hreq _ _
  · exact calm_raise _ s

theorem execute_doesAt {req : ApprovalRequest} {s : Session Db} (hg : Granted env g s.work req) {approvalId : ℕ}
    (ha : g.decides approvalId) (decidedBy : String) : DoesAt (Write env g) s (execute env approvalId req decidedBy) := by
  unfold execute
  split
  · exact Tx.doesAt_bind (executeBranch_doesAt hg _ _) fun keys s' _ => (calm_storePayload ha _ keys).does s'
  · exact (calm_raise _).does s

theorem execute_refused {req : ApprovalRequest} {s : Session Db} (h : RefusedRequest env s.work req) (approvalId : ℕ)
    (decidedBy : String) :
    ∃ e ev, execute env approvalId req decidedBy s =
      (.error e, ⟨{ s.work with audit := s.work.audit ++ [ev] }, { s.work with audit := s.work.audit ++ [ev] }⟩) := by
  obtain ⟨hreq, ⟨kvs, hp⟩, a, hargs, hr⟩ := h
  obtain ⟨e, ev, hissue⟩ := executeIssue_refused hr
  refine ⟨e, ev, ?_⟩
  have hlift : lift (IssueArgs.ofPayload req.payload) s = (.ok a, s) := by rw [hargs]; rfl
  unfold execute
  rw [hp]
  dsimp only
  rw [executeBranch_issue hreq]
  exact Tx.bind_error ((Tx.bind_ok hlift).trans (Tx.bind_error hissue))

theorem calm_carryRejection (req : ApprovalRequest) (decidedBy : String) :
    Calm (Write env g) (carryRejection env req decidedBy) := by
  unfold carryRejection
  split
  · exact calm_bind (calm_setAppStatus admits_write _ _) fun _ => calm_pure _
  · exact calm_lift_bind fun requestId _ => CodeSign.calm_reject _ _
  · exact calm_pure _

end Execute

/-! ## Deciding -/

section Decide

variable {env : Env} {g : Grant}

/-- the session after the decision and its event are written -/
def noted (env : Env) (actor : Actor) (approvalId : ℕ) (req : ApprovalRequest) (approve : Bool)
    (comment : Option String) (s : Session Db) : Session Db :=
  let verdict := (if approve then ApprovalStatus.approved else .rejected).text
  let d := s.work
  ⟨s.committed, { d with
    approvals := d.approvals.update approvalId fun r => flushed env.st r (decided env actor approve comment r)
    audit := d.audit ++ [⟨env.now, actor.name, s!"approval.{verdict}", s!"approval:{approvalId}",
      .obj [("action", .str req.action.text), ("comment", .ofStr? comment)]⟩] }⟩

/-- `carry` writes the decision first and then carries it out -/
theorem carry_run (actor : Actor) (approvalId : ℕ) (req : ApprovalRequest) (approve : Bool) (comment : Option String)
    (s : Session Db) :
    carry env actor approvalId req approve comment s =
      (if approve then execute env approvalId req actor.name else carryRejection env req actor.name)
        (noted env actor approvalId req approve comment s) := rfl

/-- the approval to decide is stored and pending -/
def Waiting (d : Db) (approvalId : ℕ) : Prop := ∀ r, d.approvals.get approvalId = some r → r.status = .pending

theorem noted_writes {approvalId : ℕ} (ha : g.decides approvalId) (actor : Actor) (req : ApprovalRequest)
    (approve : Bool) (comment : Option String) {s : Session Db} (hw : Waiting s.work approvalId) :
    Relation.ReflTransGen (Write env g) s.work (noted env actor approvalId req approve comment s).work := by
  have hevent : ∀ b : Bool,
      "approval." ++ (if b then ApprovalStatus.approved else .rejected).text ≠ "certificate.revoke" := by decide
  have hevolves : ∀ r, s.work.approvals.get approvalId = some r → Evolves r (decided env actor approve comment r) :=
    fun r hr => ⟨rfl, rfl, Or.inr ⟨hw r hr, by cases approve <;> simp [decided]⟩⟩
  refine .trans (.single (.setApproval s.work approvalId (decided env actor approve comment) ha hevolves)) (.single ?_)
  exact .event _ _ (hevent approve)

/-- the decision changes neither the apps nor the folders, so the request is evaluated as before it -/
theorem refusedRequest_noted (actor : Actor) (approvalId : ℕ) (req : ApprovalRequest) (approve : Bool)
    (comment : Option String) (s : Session Db) :
    RefusedRequest env (noted env actor approvalId req approve comment s).work req ↔ RefusedRequest env s.work req :=
  Iff.rfl

/-- nor the campaigns' advice -/
theorem granted_noted {s : Session Db} {req : ApprovalRequest} (h : Granted env g s.work req) (actor : Actor)
    (approvalId : ℕ) (approve : Bool) (comment : Option String) :
    Granted env g (noted env actor approvalId req approve comment s).work req := ⟨h.adds, h.replaces, h.revokes⟩

theorem carry_calmAt {req : ApprovalRequest} {s : Session Db} (hg : Granted env g s.work req) {approvalId : ℕ}
    (ha : g.decides approvalId) {actor : Actor} {approve : Bool} (comment : Option String)
    (hw : Waiting s.work approvalId) (h : approve = true → ¬ RefusedRequest env s.work req) :
    CalmAt (Write env g) s (carry env actor approvalId req approve comment) := by
  have hrest : CalmAt (Write env g) (noted env actor approvalId req approve comment s)
      (if approve then execute env approvalId req actor.name else carryRejection env req actor.name) := by
    split
    · next hap => exact execute_calmAt (granted_noted hg _ _ _ _) ha _ fun hr => h hap hr
    · exact calm_carryRejection _ _ _
  rw [CalmAt, carry_run]
  exact ⟨hrest.1, (noted_writes ha actor req approve comment hw).trans hrest.2⟩

/-- a rejection needs nothing granted but the decision -/
theorem doesAt_carry {req : ApprovalRequest} {s : Session Db} {approve : Bool}
    (hg : approve = true → Granted env g s.work req) {approvalId : ℕ} (ha : g.decides approvalId) (actor : Actor)
    (comment : Option String) (hwait : Waiting s.work approvalId) :
    DoesAt (Write env g) s (carry env actor approvalId req approve comment) := by
  intro I hI hc hw
  rw [carry_run]
  have hrest : DoesAt (Write env g) (noted env actor approvalId req approve comment s)
      (if approve then execute env approvalId req actor.name else carryRejection env req actor.name) := by
    split
    · next happrove => exact execute_doesAt (granted_noted (hg happrove) _ _ _ _) ha _
    · exact (calm_carryRejection _ _).does _
  exact hrest I hI hc (Tx.reaches_inv hI (noted_writes ha actor req approve comment hwait) hw)

/-- a decision writes its approval, and then what carrying it out writes -/
theorem doesAt_carry_of {W : Db → Db → Prop} (hW : Admits W) {req : ApprovalRequest} {approvalId : ℕ} {s : Session Db}
    {actor : Actor} {approve : Bool} {comment : Option String}
    (hrow : ∀ d (f : ApprovalRequest → ApprovalRequest),
      W d { d with approvals := d.approvals.update approvalId fun r => flushed env.st r (f r) })
    (hbranch : approve = true →
      DoesAt W (noted env actor approvalId req approve comment s) (executeBranch env approvalId req actor.name))
    (hreject : req.action = .codeSign → ∀ id, Calm W (CodeSign.reject env id actor.name)) :
    DoesAt W s (carry env actor approvalId req approve comment) := by
  intro I hI hc hw
  rw [carry_run]
  have hevent : ∀ b : Bool,
      "approval." ++ (if b then ApprovalStatus.approved else .rejected).text ≠ "certificate.revoke" := by decide
  have hnoted : I (noted env actor approvalId req approve comment s).work :=
    hI _ _ (hW.event _ _ (hevent approve)) (hI _ _ (hrow _ _) hw)
  have hrest : DoesAt W (noted env actor approvalId req approve comment s)
      (if approve then execute env approvalId req actor.name else carryRejection env req actor.name) := by
    split
    · next happrove =>
      unfold execute
      split
      · refine Tx.doesAt_bind (hbranch happrove) fun keys s' _ => ?_
        cases keys with
        | none => exact (calm_pure _).does s'
        | some keys => exact (calm_modify fun d => hrow d _).does s'
      · exact (Tx.calm_throw _).does _
    · refine Calm.does ?_ _
      unfold carryRejection
      split
      · exact calm_bind (calm_setAppStatus hW _ _) fun _ => calm_pure _
      · next haction => exact calm_ofExcept_bind fun requestId _ => hreject haction _
      · exact calm_pure _
  exact hrest I hI hc hnoted

/-- what the checks establish of the request -/
structure MayDecide (env : Env) (d : Db) (actor : Actor) (approvalId : ℕ) (req : ApprovalRequest) : Prop where
  stored : d.approvals.get approvalId = some req
  intact : verify env.st req = true
  pending : req.status = .pending
  approver : actor.role = .approver
  other : req.requestedBy ≠ actor.name
  /-- the approver's credential, if it has one here, was not issued by the requester -/
  notIssued : ∀ i p, d.principals.get i = some p → p.name = actor.name → p.createdBy ≠ req.requestedBy

theorem decideChecks_ok {d : Db} {actor : Actor} {approvalId : ℕ} {approve : Bool} {req : ApprovalRequest}
    (h : decideChecks env d actor approvalId approve = .ok req) : MayDecide env d actor approvalId req := by
  unfold decideChecks at h
  obtain ⟨_, hrole, h⟩ := except_bind_ok.1 h
  have hrole : actor.role = .approver := by
    unfold Actor.require at hrole
    split at hrole
    · next hr => simpa using hr
    · cases hrole
  split at h
  · simp at h
  next r hr =>
  split at h
  · simp at h
  next hv =>
  split at h
  · simp at h
  next hp =>
  split at h
  · simp at h
  next hne =>
  obtain ⟨me, hme, h⟩ := except_bind_ok.1 h
  split at h
  · simp at h
  next hby =>
  have he : r = req := by
    split at h
    · obtain ⟨_, -, h⟩ := except_bind_ok.1 h
      simpa using h
    · simpa using h
  subst he
  refine ⟨hr, by simpa using hv, by simpa using hp, hrole, hne, fun i p hget hname hcreated => hby ?_⟩
  rw [oneOrNone_ok hme hget (by simpa using hname)]
  simp [hcreated]

theorem MayDecide.waiting {d : Db} {actor : Actor} {approvalId : ℕ} {req : ApprovalRequest}
    (h : MayDecide env d actor approvalId req) : Waiting d approvalId := fun _ hr =>
  Option.some.inj (hr.symm.trans h.stored) ▸ h.pending

/-- what deciding writes: the approval decided, and what its kind is granted -/
theorem doesAt_decide {actor : Actor} {approvalId : ℕ} {approve : Bool} (comment : Option String) {s : Session Db}
    (hg : ∀ req, decideChecks env s.work actor approvalId approve = .ok req → approve = true → Granted env g s.work req)
    (ha : g.decides approvalId) : DoesAt (Write env g) s (decide env actor approvalId approve comment) := by
  unfold decide
  refine Tx.doesAt_get_bind (Tx.doesAt_ofExcept_bind fun req hreq => ?_)
  exact doesAt_carry (hg req hreq) ha _ _ (decideChecks_ok hreq).waiting

/-- the checks pass, the request names a Windows account, and the directory refuses it -/
def LogonRefused (env : Env) (d : Db) (actor : Actor) (approvalId : ℕ) : Prop :=
  ∃ req, decideChecks env d actor approvalId true = .ok req ∧ RefusedRequest env d req

section Examples

/-- an operator's request for a Windows logon certificate waits for approval -/
def logonDb : Db :=
  { Db.empty with
    apps := Table.empty.insert (inserted demoState (demoApp "logon"))
    approvals := Table.empty.insert (inserted demoState
      ⟨.issueCertificate, .obj (issuePayload demoEnv 1 "logon" ⟨some "logon-csr", none, none, none, "rest", none,
        false, none⟩), "olga", .pending, none, none, none, none⟩) }

end Examples

end Decide

end Platform

end Certadillo
