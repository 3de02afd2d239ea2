/-
Renewals of one certificate under READ COMMITTED: who becomes its successor.

Every front end looks for an active certificate when it begins, and its commit sets the row to superseded with the new
certificate as `replaced_by`, whatever was committed in between.

- `leaves_linked`: a transaction of the race leaves a row it loaded its link, or sets the link of an active one.
- `renews_marks`: a request that returns a certificate for another one has set that one's link to it.
- `one_successor_iff`: at most one commit sets a certificate's link, and whoever issued a certificate as its renewal is that
  one, iff every commit that sets the link finds it unset.
- `renewed_twice`: two renewals that both read the certificate as active both issue its successor.
-/
import Certadillo.Services.SupersedeRaces
import Certadillo.Services.Requests

namespace Certadillo.Supersede

open Integrity Policy Py Machine Platform Relation

/-! ## Model -/

/-- the transactions of the race: requests, approved requests, and revocations -/
def Op.Races (view : Db) : Op → Prop
  | .request .. => True
  | .decide _ approvalId _ _ => ∀ req, view.approvals.get approvalId = some req → req.action = .issueCertificate
  | .revoke .. => True
  | _ => False

/-- a transaction that begins is one of the race -/
def Racing (_ : St) (o : ℕ × Act) : Prop := ∀ env op rest, o.2 = .begin env op rest → op.Races rest

/-- a commit, with the transaction and what it found -/
def CommitOf (s : St) (o : ℕ × Act) (u : Underway) (found : Db) : Prop :=
  o.2 = .commit ∧ s.loc o.1 = some u ∧ found = u.found s.shared

/-- the commit supersedes certificate `i`, which the transaction read as active, and makes another its `replaced_by` -/
def Marks (i : ℕ) (s : St) (o : ℕ × Act) : Prop :=
  ∃ u found a b j, CommitOf s o u found ∧ found.certificates.get i = some a ∧ a.status = .active ∧
    (leaves u.env found u.op).certificates.get i = some b ∧ b.status = .superseded ∧ b.replacedBy = some j

/-- the commit is of a request that issued certificate `j` as the renewal of certificate `i` -/
def Renews (i j : ℕ) (s : St) (o : ℕ × Act) : Prop :=
  ∃ u found replacing actor appId r, CommitOf s o u found ∧ u.op = .request replacing actor appId r ∧
    replacing.previous u.env found = .ok (some i) ∧
    (Tx.transact (replace u.env replacing actor appId r) found).1 = .ok (.certificate j)

/-- a certificate has one successor: one commit makes it, and no other request issues a certificate as its renewal -/
structure OneSuccessor (i : ℕ) (s : St) (ops : List (ℕ × Act)) : Prop where
  once : AtMostOnce step (Marks i) s ops
  losers : ∀ before o after before' o' after' j, ops = before ++ o :: after → ops = before' ++ o' :: after' →
    Marks i (run step s before) o → Renews i j (run step s before') o' → before' = before

/-- certificate `i` is committed without a successor -/
def Unreplaced (i : ℕ) (s : St) : Prop := ∃ c, s.shared.get i = some c ∧ c.replacedBy = none

/-- a commit that makes a successor finds none -/
def FindsUnreplaced (i : ℕ) (s : St) (o : ℕ × Act) : Prop := Marks i s o → Unreplaced i s

/-! ## The link of a row -/

/-- what a transaction makes of a row: the link stays and the status may end, or an active row is superseded with a link -/
def Linked (c c' : Certificate) : Prop :=
  (c'.replacedBy = c.replacedBy ∧ c'.status = c.status) ∨ (c.status = .active ∧ c'.status = .superseded ∧ c'.replacedBy ≠ none)

theorem Linked.refl (c : Certificate) : Linked c c := Or.inl ⟨rfl, rfl⟩

theorem Linked.trans {a b c : Certificate} (hab : Linked a b) (hbc : Linked b c) : Linked a c := by
  rcases hab with ⟨hlink, hst⟩ | ⟨hactive, hsup, hlink⟩
  · rcases hbc with ⟨hlink', hst'⟩ | ⟨hactive, hsup, hset⟩
    · exact Or.inl ⟨hlink'.trans hlink, hst'.trans hst⟩
    · exact Or.inr ⟨hst.symm.trans hactive, hsup, hset⟩
  · rcases hbc with ⟨hlink', hst'⟩ | ⟨hactive', -, -⟩
    · exact Or.inr ⟨hactive, hst'.trans hsup, hlink' ▸ hlink⟩
    · cases hsup.symm.trans hactive'

/-- row `i`, where it is there, is linked -/
def Links (i : ℕ) (a b : Db) : Prop :=
  ∀ c, a.certificates.get i = some c → ∃ c', b.certificates.get i = some c' ∧ Linked c c'

section Rows

variable {env : Env} {i : ℕ} {a b d : Db} {α : Type}

theorem Links.trans {c : Db} (hab : Links i a b) (hbc : Links i b c) : Links i a c := by
  intro x hx
  obtain ⟨y, hy, hxy⟩ := hab x hx
  obtain ⟨z, hz, hyz⟩ := hbc y hy
  exact ⟨z, hz, hxy.trans hyz⟩

theorem links_frame (h : b.certificates = a.certificates) : Links i a b := by
  intro c hc
  rw [h]
  exact ⟨c, hc, .refl c⟩

/-- a row that is assigned by `f` -/
theorem links_update (prev : ℕ) (f : Certificate → Certificate) (hb : b.certificates = a.certificates.update prev f)
    (hf : ∀ c, a.certificates.get prev = some c → Linked c (f c)) : Links i a b := by
  intro c hc
  rw [hb, Table.get_update]
  split
  · next heq =>
    subst heq
    exact ⟨f c, by rw [hc]; rfl, hf c hc⟩
  · exact ⟨c, hc, .refl c⟩

/-- an active row is superseded -/
theorem linked_superseded (st : SealState) {c : Certificate} (h : c.status = .active) (id : ℕ) :
    Linked c (flushed st c { c with status := .superseded, replacedBy := some id }) := by
  obtain ⟨x, hx⟩ := flushed_certificate st c { c with status := .superseded, replacedBy := some id }
  rw [hx]
  exact Or.inr ⟨h, rfl, nofun⟩

theorem links_new {appId id : ℕ} (h : NewCertificate appId a b id) : Links i a b := by
  intro c hc
  have hi : i ≠ id := by
    have hlt := Table.get_lt hc
    have hfresh := h.fresh
    omega
  exact ⟨c, (h.others i hi).trans hc, .refl c⟩

/-- what a request that returns makes of a row -/
theorem links_fulfilled {appId : ℕ} {r : CertRequest} {out : Outcome}
    (hprev : ∀ prev, r.previous = some prev → ∃ c, a.certificates.get prev = some c ∧ c.status = .active)
    (h : Fulfilled env appId r a b out) : Links i a b := by
  cases out with
  | certificate id =>
    obtain ⟨mid, hnew, hreplaced⟩ := h
    unfold Replaced at hreplaced
    cases hp : r.previous with
    | none =>
      rw [hp] at hreplaced
      rw [hreplaced]
      exact links_new hnew
    | some prev =>
      rw [hp] at hreplaced
      refine (links_new hnew).trans (links_update prev _ hreplaced.1 fun c hc => linked_superseded _ ?_ id)
      obtain ⟨c', hget, hactive⟩ := hprev prev hp
      have hne : prev ≠ id := by
        have hlt := Table.get_lt hget
        have hfresh := hnew.fresh
        omega
      obtain rfl := Option.some.inj (hc.symm.trans ((hnew.others prev hne).trans hget))
      exact hactive
  | approval id => exact links_frame h.2.2.1
  | job id => exact links_frame h.2.1

/-- a request leaves the link of a row, or sets that of the active one it replaces -/
theorem request_links (replacing : Replacing) (actor : Actor) (appId : ℕ) (r : CertRequest) :
    Links i d (leaves env d (.request replacing actor appId r)) := by
  show Links i d (Tx.transact (replace env replacing actor appId r) d).2
  unfold Tx.transact replace
  rw [Tx.get_bind]
  cases hprevious : replacing.previous env d with
  | error e => exact links_frame rfl
  | ok previous =>
    rw [lift_ok_bind]
    rcases hrun : requestCertificate env actor appId { r with previous := previous } ⟨d, d⟩ with ⟨e | out, s'⟩
    · have hsame : StillSession (⟨d, d⟩ : Session Db) ⟨d, d⟩ := ⟨Or.inl rfl, Still.refl d⟩
      obtain ⟨hcommitted, -⟩ := raisesStill_request hsame e s' hrun
      rcases hcommitted with hsame | hstill
      · exact links_frame (congrArg Db.certificates hsame)
      · exact links_frame hstill.certificates
    · obtain ⟨app, csr, decision, -, -, -, hfulfilled⟩ := request_returned hrun
      refine links_fulfilled (fun prev hprev => ?_) hfulfilled
      obtain rfl : previous = some prev := hprev
      exact previous_active hprevious

/-- writes to other tables -/
theorem calm_linksFrame {f : Db → Db} (hf : ∀ d, (f d).certificates = d.certificates) :
    Tx.Calm (Links i) (Tx.modify f : M Unit) := Tx.calm_modify fun d => links_frame (hf d)

theorem calm_linksRecord (actor action target : String) (details : List (String × Json)) :
    Tx.Calm (Links i) (record env actor action target details) := calm_linksFrame fun _ => rfl

theorem calm_linksApproval (id : ℕ) (f : ApprovalRequest → ApprovalRequest) :
    Tx.Calm (Links i) (setRow env Col.approvals id f) := calm_linksFrame fun _ => rfl

theorem calm_linksSign (csr : Csr) (decision : Decision) (appId : ℕ) (app : App) (protocol : String) (actor : Actor) :
    Tx.Calm (Links i) (sign env csr decision appId app protocol actor) := by
  intro s
  unfold Tx.CalmAt
  rcases sign_cases env csr decision appId app protocol actor s with ⟨e, hrun⟩ | ⟨id, b, hrun, hnew⟩
  · rw [hrun]
    exact ⟨rfl, .refl⟩
  · rw [hrun]
    exact ⟨rfl, .single (links_new hnew)⟩

theorem calm_linksEnqueue (requester : Actor) (appId : ℕ) (app : App) (decision : Decision) (csrPem : Option String) :
    Tx.Calm (Links i) (enqueueAdcsIssue env requester appId app decision csrPem) := by
  unfold enqueueAdcsIssue
  split
  · exact Tx.calm_throw _
  next pem _ =>
  extract_lets -underBinder prof tmpl
  refine Tx.calm_bind (fun s => ?_) fun id => Tx.calm_bind (calm_linksRecord _ _ _ _) fun _ => Tx.calm_pure _
  unfold Tx.CalmAt
  obtain ⟨id, b, hrun, -, hcertificates, -⟩ :=
    enqueueIssue_cases env appId decision.profile pem (prof.bind (·.adcsCa)) tmpl requester.name s
  rw [hrun]
  exact ⟨rfl, .single (links_frame hcertificates)⟩

/-- an approved request sets the link of a row that is active by then, or none -/
theorem calm_linksIssue (requestedBy : String) (a : IssueArgs) (app : App) (csr : Csr) (decision : Decision) :
    Tx.Calm (Links i) (issueApproved env requestedBy a app csr decision) := by
  unfold issueApproved
  refine Tx.calm_ite (fun _ => Tx.calm_bind (calm_linksEnqueue _ _ _ _ _) fun _ => Tx.calm_pure _) fun _ => ?_
  refine Tx.calm_bind (calm_linksSign _ _ _ _ _ _) fun id s => Tx.calmAt_get_bind ?_
  split
  · next prevId _ =>
    split
    · next prev hget =>
      split
      · next hactive =>
        refine Tx.calmAt_bind (Tx.calmAt_modify ?_) fun _ s' _ => Tx.calm_pure _ s'
        refine links_update prevId (fun c => flushed env.st c { c with status := .superseded, replacedBy := some id }) rfl ?_
        intro c hc
        obtain rfl := Option.some.inj (hget.symm.trans hc)
        exact linked_superseded _ hactive id
      · exact Tx.calm_pure _ s
    · exact Tx.calm_pure _ s
  · exact Tx.calm_pure _ s

theorem does_linksResolve (decision : Decision) (app : App) (protocol : String) :
    Tx.Does (Links i) (resolveSid env decision app protocol) := by
  unfold resolveSid applyLogonSid rejectLogon
  split
  · exact (Tx.calm_pure _).does
  refine Tx.does_bind ?_ fun _ => (Tx.calm_pure _).does
  split
  · exact (Tx.calm_throw _).does
  · exact Tx.does_bind (calm_linksRecord _ _ _ _).does fun _ => Tx.does_bind Tx.does_commit fun _ => (Tx.calm_throw _).does
  · exact (Tx.calm_pure _).does

/-- an approval of an issue request, decided either way -/
theorem does_linksCarry {req : ApprovalRequest} (haction : req.action = .issueCertificate) (actor : Actor) (approvalId : ℕ)
    (approve : Bool) (comment : Option String) : Tx.Does (Links i) (carry env actor approvalId req approve comment) := by
  unfold carry
  refine Tx.does_bind (calm_linksApproval _ _).does fun _ => ?_
  refine Tx.does_bind (calm_linksRecord _ _ _ _).does fun _ => ?_
  split
  · unfold execute
    split
    · refine Tx.does_bind ?_ fun keys => ?_
      · unfold executeBranch
        rw [haction]
        refine Tx.does_ofExcept_bind fun a _ => Tx.does_bind ?_ fun keys => (Tx.calm_pure _).does
        unfold executeIssue
        refine Tx.does_get_bind fun d => Tx.does_ofExcept_bind fun r _ => ?_
        exact Tx.does_bind (does_linksResolve _ _ _) fun decision => (calm_linksIssue _ _ _ _ _).does
      · split
        · exact (calm_linksApproval _ _).does
        · exact (Tx.calm_pure _).does
    · exact (Tx.calm_throw _).does
  · unfold carryRejection
    rw [haction]
    exact (Tx.calm_pure _).does

/-- the link of a row by now, after writes that link it -/
theorem reaches_links (h : ReflTransGen (Links i) a b) : Links i a b :=
  Tx.reaches_inv (I := Links i a) (fun _ _ hw h => h.trans hw) h (links_frame rfl)

theorem decide_links {approvalId : ℕ} (hissue : ∀ req, d.approvals.get approvalId = some req → req.action = .issueCertificate)
    (actor : Actor) (approve : Bool) (comment : Option String) :
    Links i d (leaves env d (.decide actor approvalId approve comment)) := by
  refine reaches_links (Tx.transact_doesAt (m := Platform.decide env actor approvalId approve comment) ?_)
  unfold Platform.decide
  refine Tx.doesAt_get_bind (Tx.doesAt_ofExcept_bind fun req hreq => ?_)
  exact does_linksCarry (hissue req (decideChecks_ok hreq).stored) _ _ _ _ _

/-- a revocation leaves the link -/
def Unlinked (c c' : Certificate) : Prop := c'.replacedBy = c.replacedBy ∧ (c'.status = c.status ∨ c'.status = .revoked)

theorem Unlinked.trans {x y z : Certificate} (hxy : Unlinked x y) (hyz : Unlinked y z) : Unlinked x z := by
  refine ⟨hyz.1.trans hxy.1, ?_⟩
  rcases hyz.2 with hsame | hrevoked
  · rw [hsame]
    exact hxy.2
  · exact Or.inr hrevoked

theorem revoke_unlinked {c : Certificate} (hget : d.certificates.get i = some c) (actor : Actor) (certId : ℕ) (reason : String)
    (changeRef : Option String) :
    ∃ c', (leaves env d (.revoke actor certId reason changeRef)).certificates.get i = some c' ∧ Unlinked c c' := by
  have hcalm : Tx.Calm (fun a b : Db => ∀ c, a.certificates.get i = some c →
      ∃ c', b.certificates.get i = some c' ∧ Unlinked c c') (Platform.revoke env actor certId reason changeRef) := by
    refine calm_revoke_of (fun d c hc => ?_) (fun d _ _ c hc => ?_) (fun d _ c hc => ?_) (fun d _ c hc => ?_) actor changeRef
    · by_cases hi : i = certId
      · subst hi
        refine ⟨flushed env.st c (markRevoked env reason c), (Table.get_update_self _ _ _).trans (congrArg _ hc), ?_⟩
        obtain ⟨x, hx⟩ := flushed_certificate env.st c (markRevoked env reason c)
        rw [hx]
        exact ⟨rfl, Or.inr rfl⟩
      · exact ⟨c, (Table.get_update_of_ne _ _ hi).trans hc, rfl, Or.inl rfl⟩
    · exact ⟨c, hc, rfl, Or.inl rfl⟩
    · exact ⟨c, hc, rfl, Or.inl rfl⟩
    · exact ⟨c, hc, rfl, Or.inl rfl⟩
  refine Tx.reaches_inv (I := fun b : Db => ∃ c', b.certificates.get i = some c' ∧ Unlinked c c') ?_
    (Tx.transact_does hcalm.does d) ⟨c, hget, rfl, Or.inl rfl⟩
  intro a b hab ⟨x, hx, hcx⟩
  obtain ⟨y, hy, hxy⟩ := hab x hx
  exact ⟨y, hy, hcx.trans hxy⟩

/-- what a transaction of the race makes of a row it loaded -/
theorem leaves_linked {op : Op} (hraces : op.Races d) {c : Certificate} (hget : d.certificates.get i = some c) :
    ∃ c', (leaves env d op).certificates.get i = some c' ∧ (Unlinked c c' ∨ Linked c c') := by
  cases op with
  | request replacing actor appId r =>
    obtain ⟨c', hget', hlinked⟩ := @request_links env i d replacing actor appId r c hget
    exact ⟨c', hget', Or.inr hlinked⟩
  | decide actor approvalId approve comment =>
    obtain ⟨c', hget', hlinked⟩ := @decide_links env i d approvalId hraces actor approve comment c hget
    exact ⟨c', hget', Or.inr hlinked⟩
  | revoke actor certId reason changeRef =>
    obtain ⟨c', hget', hunlinked⟩ := @revoke_unlinked env i d c hget actor certId reason changeRef
    exact ⟨c', hget', Or.inl hunlinked⟩
  | provision => exact hraces.elim
  | ingest => exact hraces.elim

/-- a request that returns a certificate for row `i` has set its link to it, and recorded the renewal -/
theorem renews_marks {replacing : Replacing} {actor : Actor} {appId j : ℕ} {r : CertRequest}
    (hprevious : replacing.previous env d = .ok (some i))
    (hreturns : (Tx.transact (replace env replacing actor appId r) d).1 = .ok (.certificate j)) :
    ∃ c b e, d.certificates.get i = some c ∧ c.status = .active ∧
      (leaves env d (.request replacing actor appId r)).certificates.get i = some b ∧ b.status = .superseded ∧
      b.replacedBy = some j ∧ e ∈ (leaves env d (.request replacing actor appId r)).audit ∧ e.action = "certificate.renew" ∧
      e.target = c.serialHex := by
  show ∃ c b e, _ ∧ _ ∧ (Tx.transact (replace env replacing actor appId r) d).2.certificates.get i = some b ∧ _ ∧ _ ∧
    e ∈ (Tx.transact (replace env replacing actor appId r) d).2.audit ∧ _
  obtain ⟨c, hget, hactive⟩ := previous_active hprevious
  unfold Tx.transact replace at *
  rw [Tx.get_bind, hprevious, lift_ok_bind] at *
  rcases hrun : requestCertificate env actor appId { r with previous := some i } ⟨d, d⟩ with ⟨e | out, s'⟩
  · rw [hrun] at hreturns
    cases hreturns
  rw [hrun] at hreturns
  obtain rfl := Except.ok.inj hreturns
  obtain ⟨app, csr, decision, -, -, -, mid, hnew, hreplaced⟩ := request_returned hrun
  have hne : i ≠ j := by
    have hlt := Table.get_lt hget
    have hfresh : j = d.certificates.next := hnew.fresh
    omega
  have hmid : mid.certificates.get i = some c := (hnew.others i hne).trans hget
  obtain ⟨hcertificates, e, haudit, haction, htarget⟩ : (s'.work.certificates = mid.certificates.update i fun c =>
      flushed env.st c { c with status := .superseded, replacedBy := some j }) ∧
    ∃ e : AuditEvent, s'.work.audit = mid.audit ++ [e] ∧ e.action = "certificate.renew" ∧
      e.target = ((mid.certificates.get i).map (·.serialHex)).getD "" := hreplaced
  obtain ⟨x, hx⟩ := flushed_certificate env.st c { c with status := .superseded, replacedBy := some j }
  refine ⟨c, flushed env.st c { c with status := .superseded, replacedBy := some j }, e, hget, hactive, ?_, ?_, ?_, ?_, haction, ?_⟩
  · show s'.work.certificates.get i = _
    rw [hcertificates, Table.get_update_self, hmid]
    rfl
  · rw [hx]
  · rw [hx]
  · show e ∈ s'.work.audit
    rw [haudit]
    exact List.mem_append_right _ List.mem_cons_self
  · rw [htarget, hmid]
    rfl

end Rows

/-! ## Runs -/

/-- row `i` is there, and while it is active it has no successor, as it is stored and as it was read -/
structure Loaded (i : ℕ) (s : St) : Prop where
  stored : ∃ c, s.shared.get i = some c
  unlinked : ∀ c, s.shared.get i = some c → c.status = .active → c.replacedBy = none
  views : ∀ t u, s.loc t = some u → u.op.Races u.view ∧
    ∀ a, u.view.certificates.get i = some a → a.status = .active → a.replacedBy = none

section Runs

variable {i : ℕ} {s : St} {o : ℕ × Act}

theorem races_congr {op : Op} {d d' : Db} (happrovals : d'.approvals = d.approvals) (h : op.Races d) : op.Races d' := by
  cases op with
  | decide actor approvalId approve comment =>
    intro req hget
    rw [happrovals] at hget
    exact h req hget
  | _ => exact h

/-- the row after a step: a commit marked it, or its link is as it was -/
def RowAfter (i : ℕ) (s : St) (o : ℕ × Act) (c c' : Certificate) : Prop :=
  (Marks i s o ∧ c'.status = .superseded ∧ c'.replacedBy ≠ none) ∨ (¬ Marks i s o ∧ Unlinked c c')

/-- a step that commits no transaction -/
theorem row_idle {c : Certificate} (hget : s.shared.get i = some c) (hsame : (step s o).shared = s.shared)
    (hno : ∀ u, o.2 = .commit → s.loc o.1 ≠ some u) : ∃ c', (step s o).shared.get i = some c' ∧ RowAfter i s o c c' := by
  refine ⟨c, by rw [hsame]; exact hget, Or.inr ⟨?_, rfl, Or.inl rfl⟩⟩
  rintro ⟨u, -, -, -, -, ⟨hcommit, hu, -⟩, -⟩
  exact hno u hcommit hu

theorem step_row (h : Loaded i s) {c : Certificate} (hget : s.shared.get i = some c) :
    ∃ c', (step s o).shared.get i = some c' ∧ RowAfter i s o c c' := by
  obtain ⟨t, a⟩ := o
  cases a with
  | begin env op rest => exact row_idle hget rfl fun u hcommit => by cases hcommit
  | rollback => exact row_idle hget rfl fun u hcommit => by cases hcommit
  | commit =>
    cases hu : s.loc t with
    | none => exact row_idle hget (by simp [act, hu]) fun u _ hu' => by cases hu.symm.trans hu'
    | some u =>
      have hshared : (step s (t, .commit)).shared = u.committed s.shared := by simp [act, hu]
      obtain ⟨hraces, hview⟩ := h.views t u hu
      have hcommit : CommitOf s (t, .commit) u (u.found s.shared) := ⟨rfl, hu, rfl⟩
      have hrow := @Table.get_merge _ assigned u.view.certificates (leaves u.env (u.found s.shared) u.op).certificates
        s.shared i c hget
      rw [hshared]
      refine ⟨_, hrow, ?_⟩
      cases hloaded : u.view.certificates.get i with
      | none =>
        refine Or.inr ⟨?_, rfl, Or.inl rfl⟩
        rintro ⟨u', found, a, b, j, ⟨-, hu', rfl⟩, ha, -⟩
        obtain rfl := Option.some.inj (hu.symm.trans hu')
        cases hloaded.symm.trans ha
      | some a =>
      obtain ⟨b, hfinal, hlinked⟩ := @leaves_linked u.env i (u.found s.shared) u.op (races_congr rfl hraces) a hloaded
      rw [hfinal]
      show RowAfter i s (t, .commit) c (assigned a b c)
      by_cases hmarks : Marks i s (t, .commit)
      · left
        obtain ⟨u', found, a', b', j, ⟨-, hu', rfl⟩, ha, hactive, hb, hsup, hlink⟩ := id hmarks
        obtain rfl := Option.some.inj (hu.symm.trans hu')
        obtain rfl := Option.some.inj (hloaded.symm.trans ha)
        obtain rfl := Option.some.inj (hfinal.symm.trans hb)
        have hnone := hview a hloaded hactive
        refine ⟨hmarks, ?_, ?_⟩
        · show written a.status b.status c.status = .superseded
          rw [hactive, hsup]
          rfl
        · show written a.replacedBy b.replacedBy c.replacedBy ≠ none
          rw [hnone, hlink]
          intro hlost
          cases hlost
      · right
        refine ⟨hmarks, ?_⟩
        rcases hlinked with ⟨hlink, hst⟩ | ⟨hlink, hst⟩ | ⟨hactive, hsup, hlink⟩
        · refine ⟨?_, ?_⟩
          · show written a.replacedBy b.replacedBy c.replacedBy = c.replacedBy
            rw [hlink, written, if_pos rfl]
          · show written a.status b.status c.status = c.status ∨ written a.status b.status c.status = .revoked
            rw [written]
            split
            · exact Or.inl rfl
            · next hne => exact Or.inr (hst.resolve_left hne)
        · refine ⟨?_, Or.inl ?_⟩
          · show written a.replacedBy b.replacedBy c.replacedBy = c.replacedBy
            rw [hlink, written, if_pos rfl]
          · show written a.status b.status c.status = c.status
            rw [hst, written, if_pos rfl]
        · obtain ⟨j, hj⟩ := Option.ne_none_iff_exists'.1 hlink
          exact absurd ⟨u, u.found s.shared, a, b, j, hcommit, hloaded, hactive, hfinal, hsup, hj⟩ hmarks

/-- every step of the race keeps what was loaded -/
theorem step_loaded (h : Loaded i s) (hracing : Racing s o) : Loaded i (step s o) := by
  obtain ⟨c, hget⟩ := h.stored
  obtain ⟨c', hget', hrow⟩ := @step_row i s o h c hget
  refine ⟨⟨c', hget'⟩, fun x hx hactive => ?_, fun t u hu => ?_⟩
  · obtain rfl := Option.some.inj (hget'.symm.trans hx)
    rcases hrow with ⟨-, hsup, -⟩ | ⟨-, hlink, hst⟩
    · cases hsup.symm.trans hactive
    · rw [hlink]
      rcases hst with hsame | hrevoked
      · exact h.unlinked c hget (hsame.symm.trans hactive)
      · cases hrevoked.symm.trans hactive
  · obtain ⟨t', a⟩ := o
    by_cases ht : t = t'
    · subst ht
      cases a with
      | begin env op rest =>
        rw [Threads.step_loc_self] at hu
        obtain rfl := Option.some.inj hu
        exact ⟨races_congr rfl (hracing env op rest rfl), h.unlinked⟩
      | rollback =>
        rw [Threads.step_loc_self] at hu
        cases hu
      | commit =>
        rw [Threads.step_loc_self] at hu
        cases hloc : s.loc t with
        | none =>
          rw [hloc] at hu
          cases hu
        | some u' =>
          rw [hloc] at hu
          cases hu
    · rw [Threads.step_loc_other s a ht] at hu
      exact h.views t u hu

/-- whoever issues a certificate as the renewal of row `i` marks it -/
theorem renews_is_mark {j : ℕ} (h : Renews i j s o) : Marks i s o := by
  obtain ⟨u, found, replacing, actor, appId, r, hcommit, hop, hprevious, hreturns⟩ := h
  obtain ⟨c, b, e, hget, hactive, hb, hsup, hlink, -⟩ := renews_marks hprevious hreturns
  exact ⟨u, found, c, b, j, hcommit, hget, hactive, by rw [hop]; exact hb, hsup, hlink⟩

/-- **One successor.** In every race for a certificate that has no successor, one commit makes it and only that one issued a
certificate as the renewal, iff every commit that makes a successor finds the certificate without one. -/
theorem one_successor_iff {ops : List (ℕ × Act)} (hidle : ∀ t, s.loc t = none) (hrow : Unreplaced i s)
    (hracing : Along step Racing s ops) : OneSuccessor i s ops ↔ Along step (FindsUnreplaced i) s ops := by
  obtain ⟨c, hget, hnone⟩ := hrow
  have hloaded : Loaded i s := by
    refine ⟨⟨c, hget⟩, fun x hx _ => ?_, fun t u hu => nomatch (hidle t).symm.trans hu⟩
    obtain rfl := Option.some.inj (hget.symm.trans hx)
    exact hnone
  have honce : AtMostOnce step (Marks i) s ops ↔ Along step (FindsUnreplaced i) s ops := by
    refine atMostOnce_iff_along (I := Loaded i) (J := fun s => Loaded i s ∧ Unreplaced i s) (C := Racing)
      (fun s o h hC => step_loaded h hC) ?_ ?_ ?_ (fun s o h _ => h.2) hloaded ⟨hloaded, c, hget, hnone⟩ hracing
    · rintro s o h - hmarks ⟨x, hx, -⟩ ⟨y, hy, hynone⟩
      obtain ⟨x', hx', ⟨-, -, hset⟩ | ⟨hno, -⟩⟩ := @step_row i s o h x hx
      · obtain rfl := Option.some.inj (hx'.symm.trans hy)
        exact hset hynone
      · exact hno hmarks
    · rintro s o h - hreplaced ⟨y, hy, hynone⟩
      obtain ⟨x, hx⟩ := h.stored
      obtain ⟨x', hx', hrow⟩ := @step_row i s o h x hx
      obtain rfl := Option.some.inj (hx'.symm.trans hy)
      rcases hrow with ⟨-, -, hset⟩ | ⟨-, hlink, -⟩
      · exact hset hynone
      · exact hreplaced ⟨x, hx, hlink.symm.trans hynone⟩
    · rintro s o ⟨h, x, hx, hxnone⟩ hC hno
      obtain ⟨x', hx', ⟨hmarks, -⟩ | ⟨-, hlink, -⟩⟩ := @step_row i s o h x hx
      · exact absurd hmarks hno
      · exact ⟨step_loaded h hC, x', hx', hlink.trans hxnone⟩
  rw [← honce]
  constructor
  · exact fun h => h.once
  · intro h
    refine ⟨h, fun before o after before' o' after' j hops hops' hmarks hrenews => ?_⟩
    exact h before o after before' o' after' hops hops' hmarks (renews_is_mark hrenews)

end Runs

/-! ### Two renewals -/

section Examples

/-- a renewal of certificate 1 begins -/
def renewsWith (serial : ℕ) : Act :=
  .begin { demoEnv with randomSerial := fun n => serial + n } (.request (.renew 1) Revocation.olga 1 webRequest) renewalDb

/-- a renewal, alone -/
def renewsAlone (t serial : ℕ) : List (ℕ × Act) := [(t, renewsWith serial), (t, .commit)]

/-- both have begun -/
def bothBegun : List (ℕ × Act) := [(0, renewsWith 100), (1, renewsWith 200)]

def linkOf (s : St) : Option (CertStatus × Option ℕ) := (s.shared.get 1).map fun c => (c.status, c.replacedBy)

/-- the second of two renewals replaces the link of the first -/
example : linkOf (run step start (bothBegun ++ [(0, .commit)])) = some (.superseded, some 2) ∧
    linkOf (run step start (bothBegun ++ [(0, .commit), (1, .commit)])) = some (.superseded, some 3) := by
  decide +kernel

theorem start_unreplaced : Unreplaced 1 start := ⟨_, rfl, rfl⟩

theorem renewsWith_racing (s : St) (t serial : ℕ) : Racing s (t, renewsWith serial) := by
  intro env op rest h
  cases h
  trivial

theorem commit_racing (s : St) (t : ℕ) : Racing s (t, .commit) := by
  intro env op rest h
  cases h

/-- a renewal that begins where the certificate has no successor -/
theorem alone_finds {s : St} (t serial : ℕ) (h : Unreplaced 1 s) : Along step (FindsUnreplaced 1) s (renewsAlone t serial) := by
  refine ⟨?_, fun _ => h, trivial⟩
  rintro ⟨u, -, -, -, -, ⟨hcommit, -⟩, -⟩
  cases hcommit

/-- a renewal that begins where it is superseded makes no successor -/
theorem late_finds {s : St} (t serial : ℕ) (h : linkOf s = some (.superseded, some 2)) :
    Along step (FindsUnreplaced 1) s (renewsAlone t serial) := by
  refine ⟨?_, ?_, trivial⟩
  · rintro ⟨u, -, -, -, -, ⟨hcommit, -⟩, -⟩
    cases hcommit
  · rintro ⟨u, found, a, b, j, ⟨-, hu, rfl⟩, ha, hactive, -⟩
    obtain ⟨c, hget, hc⟩ := Option.map_eq_some_iff.1 h
    rw [Threads.step_loc_self] at hu
    obtain rfl := Option.some.inj hu
    obtain rfl := Option.some.inj (hget.symm.trans ha)
    cases (Prod.mk.inj hc).1.symm.trans hactive

/-- the second begins when the first has committed -/
theorem oneAfterAnother_one : OneSuccessor 1 start (renewsAlone 0 100 ++ renewsAlone 1 200) := by
  refine (one_successor_iff (fun _ => rfl) start_unreplaced ?_).2 ?_
  · rw [along_append]
    exact ⟨⟨renewsWith_racing _ _ _, commit_racing _ _, trivial⟩, renewsWith_racing _ _ _, commit_racing _ _, trivial⟩
  · rw [along_append]
    exact ⟨alone_finds 0 100 start_unreplaced, late_finds 1 200 (by decide +kernel)⟩

/-- the transaction of a renewal that has read `view` -/
def renewing (serial : ℕ) (view : Db) : Underway :=
  ⟨{ demoEnv with randomSerial := fun n => serial + n }, .request (.renew 1) Revocation.olga 1 webRequest, view⟩

/-- what it makes of certificate 1 -/
def renewed (u : Underway) (stored : Table Certificate) : Option (CertStatus × Option ℕ) :=
  ((leaves u.env (u.found stored) u.op).certificates.get 1).map fun c => (c.status, c.replacedBy)

/-- a commit that sets the link of certificate 1, read as active, marks it -/
theorem marks_of_renewed {s : St} {t j : ℕ} {u : Underway} {a : Certificate} (hu : s.loc t = some u)
    (ha : u.view.certificates.get 1 = some a) (hactive : a.status = .active)
    (hrenewed : renewed u s.shared = some (.superseded, some j)) : Marks 1 s (t, .commit) := by
  obtain ⟨b, hb, hlink⟩ := Option.map_eq_some_iff.1 hrenewed
  obtain ⟨hsup, hlink⟩ := Prod.mk.inj hlink
  exact ⟨u, u.found s.shared, a, b, j, ⟨rfl, hu, rfl⟩, ha, hactive, hb, hsup, hlink⟩

/-- both have read the same rows -/
theorem bothBegun_loc (s : St) :
    (run step s bothBegun).loc 0 = some (renewing 100 { renewalDb with certificates := s.shared }) ∧
      (run step s (bothBegun ++ [(0, .commit)])).loc 1 = some (renewing 200 { renewalDb with certificates := s.shared }) :=
  ⟨rfl, rfl⟩

/-- Both renewals make a successor. -/
theorem renewed_twice : ¬ ∀ ops, Along step Racing start ops → OneSuccessor 1 start ops := by
  intro h
  have hracing : Along step Racing start (bothBegun ++ [(0, .commit)] ++ [(1, .commit)]) := by
    rw [along_append, along_append]
    exact ⟨⟨⟨renewsWith_racing _ _ _, renewsWith_racing _ _ _, trivial⟩, commit_racing _ _, trivial⟩, commit_racing _ _,
      trivial⟩
  have hfirst : Marks 1 (run step start bothBegun) (0, .commit) :=
    marks_of_renewed (j := 2) (bothBegun_loc start).1 rfl rfl (by decide +kernel)
  have hsecond : Marks 1 (run step start (bothBegun ++ [(0, .commit)])) (1, .commit) :=
    marks_of_renewed (j := 3) (bothBegun_loc start).2 rfl rfl (by decide +kernel)
  have heq := (h _ hracing).once bothBegun (0, .commit) [(1, .commit)] (bothBegun ++ [(0, .commit)]) (1, .commit) []
    (List.append_assoc _ _ _) rfl hfirst hsecond
  cases congrArg List.length heq

end Examples

end Certadillo.Supersede
