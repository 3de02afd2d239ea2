/-
What the services write: every operation as a sequence of single writes.

`Write env g` is one write to the database: to the tables no rule here is about (`frame`), an audit event, a certificate
row, an approval row. `Grant` says which of them an operation may make: the serials of the certificates it may add,
whether it records revocations, and the approvals it may change.

- `calm_*`: the operation commits nothing itself, and only makes the writes granted.
- `does_*`: the same for the operations that keep a rejection in the audit trail by committing it.

A certificate is only added with a serial the outside world gives (`Offered`), a `certificate.revoke` event only names a
row that is no longer active, and only `decide` changes an approval that exists.
-/
import Certadillo.Services.Approvals

namespace Certadillo

open Integrity Policy Py

/-! ## Writes -/

structure Grant where
  adds : Certificate → Prop
  /-- the rows whose revocation it may record, and under which serial -/
  revokes : ℕ → String → Prop
  /-- the rows it may supersede, and with which status it may find them -/
  supersedes : ℕ → CertStatus → Prop
  decides : ℕ → Prop
  /-- the CMP transactions it may open -/
  opens : CmpTransaction → Prop
  /-- the CMP transactions it may advance -/
  advances : ℕ → Prop

/-- everything is granted -/
def Grant.full : Grant := ⟨fun _ => True, fun _ _ => True, fun _ _ => True, fun _ => True, fun _ => True, fun _ => True⟩

/-- a certificate row keeps its identity, and its status only ends -/
structure Retires (c c' : Certificate) : Prop where
  serialHex : c'.serialHex = c.serialHex
  source : c'.source = c.source
  caId : c'.caId = c.caId
  appId : c'.appId = c.appId
  sans : c'.sans = c.sans
  status : c'.status = c.status ∨ c'.status = .superseded ∨ c'.status = .revoked

/-- an approval is decided at most once, and what it asks for stays -/
structure Evolves (r r' : ApprovalRequest) : Prop where
  action : r'.action = r.action
  requestedBy : r'.requestedBy = r.requestedBy
  status : (r'.status = r.status ∧ r'.decidedBy = r.decidedBy) ∨ (r.status = .pending ∧ r'.status ≠ .pending)

/-- a CMP transaction keeps its identity and the credential that opened it -/
structure SameOpener (t t' : CmpTransaction) : Prop where
  transactionId : t'.transactionId = t.transactionId
  secretId : t'.secretId = t.secretId
  senderCertPem : t'.senderCertPem = t.senderCertPem

/-- an assignment to row `id` that supersedes it only where that is granted -/
def Supersedes (g : Grant) (id : ℕ) (c c' : Certificate) : Prop :=
  c'.status = .superseded → c.status = .superseded ∨ g.supersedes id c.status

inductive Write (env : Env) (g : Grant) : Db → Db → Prop where
  | frame (d d' : Db) (certs : d'.certificates = d.certificates) (apps : d'.approvals = d.approvals)
      (log : d'.audit = d.audit) (txns : d'.cmpTransactions = d.cmpTransactions) (front : d'.frontEnd = d.frontEnd) :
      Write env g d d'
  | event (d : Db) (e : AuditEvent) (h : e.action ≠ "certificate.revoke") :
      Write env g d { d with audit := d.audit ++ [e] }
  | revokeEvent (d : Db) (e : AuditEvent) (id : ℕ) (c : Certificate) (hg : g.revokes id c.serialHex)
      (hget : d.certificates.get id = some c) (hst : c.status ≠ .active) (ht : e.target = c.serialHex) :
      Write env g d { d with audit := d.audit ++ [e] }
  | addCertificate (d : Db) (c : Certificate) (hg : g.adds c) :
      Write env g d { d with certificates := d.certificates.insert (inserted env.st c) }
  | setCertificate (d : Db) (id : ℕ) (f : Certificate → Certificate) (hf : ∀ c, Retires c (f c))
      (hs : ∀ c, d.certificates.get id = some c → Supersedes g id c (f c)) :
      Write env g d { d with certificates := d.certificates.update id fun c => flushed env.st c (f c) }
  | addApproval (d : Db) (r : ApprovalRequest) (hr : r.status = .pending) :
      Write env g d { d with approvals := d.approvals.insert (inserted env.st r) }
  | setApproval (d : Db) (id : ℕ) (f : ApprovalRequest → ApprovalRequest) (hg : g.decides id)
      (hf : ∀ r, d.approvals.get id = some r → Evolves r (f r)) :
      Write env g d { d with approvals := d.approvals.update id fun r => flushed env.st r (f r) }
  | openTxn (d : Db) (t : CmpTransaction) (hg : g.opens t) :
      Write env g d { d with cmpTransactions := d.cmpTransactions.insert t }
  | setTxn (d : Db) (id : ℕ) (f : CmpTransaction → CmpTransaction) (hg : g.advances id) (hf : ∀ t, SameOpener t (f t)) :
      Write env g d { d with cmpTransactions := d.cmpTransactions.update id f }
  | useSecret (d : Db) (id : ℕ) :
      Write env g d { d with cmpSecrets := d.cmpSecrets.update id fun s => { s with used := true } }

open Tx (Calm CalmAt Onward Does DoesAt calm_pure calm_bind calm_get_bind calm_ofExcept_bind calmAt_bind calm_modify
  calm_ite onward_bind does_bind does_get_bind)

section Rules

variable {env : Env} {g : Grant} {α β : Type}

/-- the columns of a CA other than its CRL and the CRL's number are assigned -/
structure KeepsCrl (ca ca' : CertificateAuthority) : Prop where
  number : ca'.crlNumber = ca.crlNumber
  crl : ca'.crlDer = ca.crlDer

/-- a relation that holds of the writes to the policy tree, the anchors and the jobs, of those to the CAs that sign no CRL,
and of every event that records no revocation -/
structure Admits (W : Db → Db → Prop) : Prop where
  apps : ∀ d t, W d { d with apps := t }
  folders : ∀ d t, W d { d with folders := t }
  setCa : ∀ d id f, (∀ ca, KeepsCrl ca (f ca)) → W d { d with cas := d.cas.update id f }
  addCa : ∀ d ca, ca.crlDer = none → W d { d with cas := d.cas.insert ca }
  anchors : ∀ d t, W d { d with trustAnchors := t }
  jobs : ∀ d t, W d { d with jobs := t }
  event : ∀ d e, e.action ≠ "certificate.revoke" → W d { d with audit := d.audit ++ [e] }

theorem admits_write : Admits (Write env g) where
  apps _ _ := .frame _ _ rfl rfl rfl rfl rfl
  folders _ _ := .frame _ _ rfl rfl rfl rfl rfl
  setCa _ _ _ _ := .frame _ _ rfl rfl rfl rfl rfl
  addCa _ _ _ := .frame _ _ rfl rfl rfl rfl rfl
  anchors _ _ := .frame _ _ rfl rfl rfl rfl rfl
  jobs _ _ := .frame _ _ rfl rfl rfl rfl rfl
  event d e h := .event d e h

theorem Admits.record {W : Db → Db → Prop} (hW : Admits W) {actor action target : String} {details : List (String × Json)}
    (h : action ≠ "certificate.revoke") : Calm W (record env actor action target details) :=
  calm_modify fun d => hW.event d _ h

/-- columns other than a row's identity, its status and its revocation are assigned -/
structure Fills (c c' : Certificate) : Prop where
  retires : Retires c c'
  status : c'.status = c.status
  revokedAt : c'.revokedAt = c.revokedAt
  reason : c'.revocationReason = c.revocationReason

/-- and of the rows issuing adds, of the certificates it replaces, and of the columns it fills in -/
structure Enrols (env : Env) (adds : Certificate → Prop) (replaces : ℕ → CertStatus → Prop) (W : Db → Db → Prop) : Prop
    extends Admits W where
  addCertificate : ∀ d c, adds c → W d { d with certificates := d.certificates.insert (inserted env.st c) }
  supersede : ∀ d id by', (∀ c, d.certificates.get id = some c → replaces id c.status) → W d { d with
    certificates := d.certificates.update id fun c => flushed env.st c { c with status := .superseded, replacedBy := by' } }
  fill : ∀ d id (f : Certificate → Certificate), (∀ c, Fills c (f c)) →
    W d { d with certificates := d.certificates.update id fun c => flushed env.st c (f c) }

theorem enrols_write : Enrols env g.adds g.supersedes (Write env g) where
  toAdmits := admits_write
  addCertificate d c h := .addCertificate d c h
  supersede d id _ h := .setCertificate d id _ (fun _ => ⟨rfl, rfl, rfl, rfl, rfl, Or.inr (Or.inl rfl)⟩)
    fun c hc _ => Or.inr (h c hc)
  fill d id f hf := .setCertificate d id f (fun c => (hf c).retires) fun c _ h => Or.inl ((hf c).status.symm.trans h)

/-! ## Session operations -/

theorem calm_raise (e : Err) : Calm (Write env g) (raise e : M α) := Tx.calm_throw e

theorem calm_lift (x : Except Err α) : Calm (Write env g) (lift x) := Tx.calm_ofExcept x

theorem calm_lift_bind {x : Except Err α} {f : α → M β} (hf : ∀ a, x = .ok a → Calm (Write env g) (f a)) :
    Calm (Write env g) (lift x >>= f) := calm_ofExcept_bind hf

theorem calmAt_lift_bind {s : Session Db} {x : Except Err α} {f : α → M β}
    (hf : ∀ a, x = .ok a → CalmAt (Write env g) s (f a)) : CalmAt (Write env g) s (lift x >>= f) :=
  Tx.calmAt_ofExcept_bind hf

theorem does_lift_bind {x : Except Err α} {f : α → M β} (hf : ∀ a, x = .ok a → Does (Write env g) (f a)) :
    Does (Write env g) (lift x >>= f) := Tx.does_ofExcept_bind hf

/-- a table no rule here is about -/
def Col.Framed (c : Col α) : Prop :=
  ∀ d t, (c.put d t).certificates = d.certificates ∧ (c.put d t).approvals = d.approvals ∧
    (c.put d t).audit = d.audit ∧ (c.put d t).cmpTransactions = d.cmpTransactions ∧
    (c.put d t).frontEnd = d.frontEnd

theorem Col.Framed.write {c : Col α} (h : c.Framed) (d : Db) (t : Table α) : Write env g d (c.put d t) :=
  .frame _ _ (h d t).1 (h d t).2.1 (h d t).2.2.1 (h d t).2.2.2.1 (h d t).2.2.2.2

theorem calm_setPlain {c : Col α} (h : c.Framed) (id : ℕ) (f : α → α) : Calm (Write env g) (setPlain c id f) :=
  calm_modify fun d => h.write d _

theorem calm_setRow [Sealed α] [DecidableEq α] {c : Col α} (h : c.Framed) (id : ℕ) (f : α → α) :
    Calm (Write env g) (setRow env c id f) := calm_modify fun d => h.write d _

/-- an INSERT: the check of its unique constraints, and the row -/
theorem calm_addPlain_of {W : Db → Db → Prop} {c : Col α} {clash : Table α → Option String} {a : α}
    (h : ∀ d, W d (c.put d ((c.get d).insert a))) : Calm W (addPlain c clash a) := by
  unfold addPlain
  refine calm_get_bind fun d => ?_
  cases clash (c.get d) with
  | some u => exact Tx.calm_throw _
  | none => exact calm_bind (calm_modify h) fun _ => calm_pure _

theorem calm_addRow_of {W : Db → Db → Prop} [Sealed α] {c : Col α} {clash : Table α → Option String} {a : α}
    (h : ∀ d, W d (c.put d ((c.get d).insert (inserted env.st a)))) :
    Calm W (addRow env c clash a) := by
  unfold addRow
  refine calm_get_bind fun d => ?_
  cases clash (c.get d) with
  | some u => exact Tx.calm_throw _
  | none => exact calm_bind (calm_modify h) fun _ => calm_pure _

theorem calm_addPlain {c : Col α} (h : c.Framed) (clash : Table α → Option String) (a : α) :
    Calm (Write env g) (addPlain c clash a) := calm_addPlain_of fun d => h.write d _

theorem calm_addRow [Sealed α] {c : Col α} (h : c.Framed) (clash : Table α → Option String) (a : α) :
    Calm (Write env g) (addRow env c clash a) := calm_addRow_of fun d => h.write d _

theorem calm_record {actor action target : String} {details : List (String × Json)}
    (h : action ≠ "certificate.revoke") : Calm (Write env g) (record env actor action target details) :=
  admits_write.record h

theorem calm_setCertificate {id : ℕ} {f : Certificate → Certificate} (hf : ∀ c, Retires c (f c))
    (hs : ∀ c, Supersedes g id c (f c)) : Calm (Write env g) (setRow env Col.certificates id f) :=
  calm_modify fun d => .setCertificate d id f hf fun c _ => hs c

/-- columns other than the status -/
theorem calm_setColumns {id : ℕ} {f : Certificate → Certificate} (hf : ∀ c, Retires c (f c))
    (hstatus : ∀ c, (f c).status = c.status) : Calm (Write env g) (setRow env Col.certificates id f) :=
  calm_setCertificate hf fun c h => Or.inl ((hstatus c).symm.trans h)

/-- a certificate is superseded -/
theorem calm_supersede {id : ℕ} (hp : ∀ st, g.supersedes id st) (by' : Option ℕ) :
    Calm (Write env g) (setRow env Col.certificates id fun c => { c with status := .superseded, replacedBy := by' }) :=
  calm_setCertificate (fun _ => ⟨rfl, rfl, rfl, rfl, rfl, Or.inr (Or.inl rfl)⟩) fun _ _ => Or.inr (hp _)

theorem calm_addCertificate {row : Certificate} (h : g.adds row) :
    Calm (Write env g) (addCertificate env row) := calm_addRow_of fun d => .addCertificate d row h

/-- an INSERT that returns -/
theorem addRow_ok [Sealed α] {c : Col α} {clash : Table α → Option String} {a : α} {s s' : Session Db} {id : ℕ}
    (h : addRow env c clash a s = (.ok id, s')) :
    id = (c.get s.work).next ∧ s'.work = c.put s.work ((c.get s.work).insert (inserted env.st a)) := by
  unfold addRow at h
  rw [Tx.get_bind] at h
  cases hclash : clash (c.get s.work) with
  | some u =>
    rw [hclash] at h
    cases h
  | none =>
    rw [hclash] at h
    cases h
    exact ⟨rfl, rfl⟩

/-- the rows a request may add: one the platform's own CA signs carries the serial this request drew -/
def Offered (env : Env) (c : Certificate) : Prop := c.caId = none ∨ c.serialHex = hex (env.randomSerial 0)

theorem libCall_ok {mk : String → Err} {x : Except String α} {a : α} (h : libCall mk x = .ok a) : x = .ok a := by
  cases x with
  | error e => simp [libCall] at h
  | ok b => simpa [libCall] using h

/-! ## Principals, onboarding and the policy tree -/

namespace Platform

theorem calm_createPrincipal (actor : Option Actor) (name : String) (role : Role) (appId : Option ℕ) (rawKey : String) :
    Calm (Write env g) (createPrincipal env actor name role appId rawKey) := by
  unfold createPrincipal
  extract_lets -underBinder rest
  have hrest : ∀ r, Calm (Write env g) (rest r) := by
    intro r
    cases role with
    | other s h => exact calm_raise _
    | _ =>
      refine calm_bind (calm_addRow (fun _ _ => ⟨rfl, rfl, rfl, rfl, rfl⟩) _ _) fun _ => ?_
      exact calm_record (by decide)
  cases actor with
  | none => exact hrest ()
  | some a => exact calm_lift_bind fun _ _ => hrest ()

theorem calm_deactivatePrincipal (actor : Actor) (name : String) :
    Calm (Write env g) (deactivatePrincipal env actor name) := by
  unfold deactivatePrincipal
  refine calm_lift_bind fun _ _ => calm_get_bind fun d => calm_lift_bind fun p _ => ?_
  cases p with
  | none => exact calm_raise _
  | some p =>
    refine calm_bind (calm_setRow (fun _ _ => ⟨rfl, rfl, rfl, rfl, rfl⟩) _ _) fun _ => ?_
    exact calm_record (by decide)

theorem calm_requestApproval_of {W : Db → Db → Prop} (hW : Admits W)
    (hask : ∀ d r, r.status = .pending → W d { d with approvals := d.approvals.insert (inserted env.st r) }) (actor : Actor)
    (action : Action) (payload : List (String × Json)) : Calm W (requestApproval env actor action payload) := by
  unfold requestApproval
  refine calm_bind (calm_addRow_of fun d => hask d _ rfl) fun id => ?_
  refine calm_bind (hW.record (by decide)) fun _ => ?_
  exact calm_pure _

theorem calm_requestApproval (actor : Actor) (action : Action) (payload : List (String × Json)) :
    Calm (Write env g) (requestApproval env actor action payload) :=
  calm_requestApproval_of admits_write (fun d r h => .addApproval d r h) actor action payload

theorem calm_onboardApp (actor : Actor) (teamId : ℕ) (name : String) (environment : Environment) (profileName : String)
    (allowedDomains : List String) (dataClassification : String) (folderId : Option ℕ) :
    Calm (Write env g)
      (onboardApp env actor teamId name environment profileName allowedDomains dataClassification folderId) := by
  unfold onboardApp
  refine calm_lift_bind fun _ _ => ?_
  cases environment with
  | other s h => exact calm_raise _
  | _ =>
    refine calm_lift_bind fun _ _ => ?_
    split
    · exact calm_raise _
    refine calm_lift_bind fun domains _ => calm_get_bind fun d => ?_
    split
    · exact calm_raise _
    extract_lets -underBinder rest
    have hrest : ∀ r, Calm (Write env g) (rest r) := by
      intro r
      refine calm_bind (calm_addRow (fun _ _ => ⟨rfl, rfl, rfl, rfl, rfl⟩) _ _) fun id => ?_
      extract_lets -underBinder report
      have hreport : ∀ a, Calm (Write env g) (report a) := fun a =>
        calm_bind (calm_record (by decide)) fun _ => calm_pure _
      split
      · exact calm_bind (calm_requestApproval _ _ _) fun _ => calm_bind (calm_pure _) hreport
      · exact calm_bind (calm_pure _) hreport
    cases folderId with
    | none => exact hrest ()
    | some fid =>
      dsimp only
      split
      · exact calm_bind (calm_raise _) hrest
      refine calm_lift_bind fun chain _ => ?_
      split
      · exact calm_bind (calm_raise _) hrest
      exact calm_lift_bind fun eff _ => calm_lift_bind fun _ _ => hrest ()

theorem calm_applyPolicyChange_of {W : Db → Db → Prop} (hW : Admits W) (who : String) (op : PolicyOp) (dryRun : Bool) :
    Calm W (applyPolicyChange env who op dryRun) := by
  unfold applyPolicyChange
  refine calm_get_bind fun d => ?_
  cases op with
  | createFolder name parentId settings =>
    refine calm_ofExcept_bind fun name _ => ?_
    extract_lets -underBinder rest
    have hrest : ∀ r, Calm W (rest r) := by
      intro r
      dsimp only [rest]
      split
      · exact Tx.calm_throw _
      refine calm_ofExcept_bind fun settings _ => ?_
      split
      · exact calm_pure _
      refine calm_bind (calm_addRow_of fun d => hW.folders d _) fun id => ?_
      refine calm_get_bind fun d => calm_ofExcept_bind fun path _ => ?_
      exact calm_bind (hW.record (by decide)) fun _ => calm_pure _
    cases parentId with
    | none => exact hrest ()
    | some pid => exact calm_ofExcept_bind fun _ _ => hrest ()
  | updateFolder folderId settings =>
    refine calm_ofExcept_bind fun f _ => calm_ofExcept_bind fun settings _ => ?_
    split
    · exact calm_pure _
    refine calm_bind (calm_modify fun d => hW.folders d _) fun _ => ?_
    refine calm_get_bind fun d => calm_ofExcept_bind fun path _ => ?_
    exact calm_bind (hW.record (by decide)) fun _ => calm_pure _
  | moveApp appId folderId =>
    dsimp only
    split
    · exact Tx.calm_throw _
    split
    · exact Tx.calm_throw _
    cases folderId
    -- a named folder is checked first; the rest is the same
    case' some fid => refine calm_ofExcept_bind fun _ _ => ?_
    all_goals
      refine calm_ofExcept_bind fun eff _ => calm_ofExcept_bind fun _ _ => calm_ite (fun _ => calm_pure _) fun _ => ?_
      refine calm_ofExcept_bind fun src _ => ?_
      refine calm_bind (calm_modify fun d => hW.apps d _) fun _ => ?_
      refine calm_ofExcept_bind fun dst _ => ?_
      exact calm_bind (hW.record (by decide)) fun _ => calm_pure _

theorem calm_applyPolicyChange (who : String) (op : PolicyOp) (dryRun : Bool) :
    Calm (Write env g) (applyPolicyChange env who op dryRun) := calm_applyPolicyChange_of admits_write who op dryRun

theorem calm_policyChange (actor : Actor) (op : PolicyOp) : Calm (Write env g) (policyChange env actor op) := by
  unfold policyChange
  refine calm_lift_bind fun _ _ => calm_bind (calm_applyPolicyChange _ _ _) fun _ => ?_
  split
  · exact calm_bind (calm_requestApproval _ _ _) fun _ => calm_pure _
  · exact calm_bind (calm_applyPolicyChange _ _ _) fun _ => calm_pure _

theorem calm_addTrustAnchor_of {W : Db → Db → Prop} (hW : Admits W) (who : String) (appId : ℕ) (name certPem : String) :
    Calm W (addTrustAnchor env who appId name certPem) := by
  unfold addTrustAnchor
  refine calm_bind (calm_addPlain_of fun d => hW.anchors d _) fun _ => calm_ofExcept_bind fun cert _ => ?_
  exact hW.record (by decide)

theorem calm_addTrustAnchor (who : String) (appId : ℕ) (name certPem : String) :
    Calm (Write env g) (addTrustAnchor env who appId name certPem) := calm_addTrustAnchor_of admits_write who appId name certPem

theorem calm_addEstTrustAnchor (actor : Actor) (appId : ℕ) (name certPem : String) :
    Calm (Write env g) (addEstTrustAnchor env actor appId name certPem) := by
  unfold addEstTrustAnchor
  refine calm_lift_bind fun _ _ => calm_get_bind fun d => ?_
  split
  · exact calm_raise _
  split
  · exact calm_raise _
  split
  · exact calm_raise _
  split
  · exact calm_bind (calm_requestApproval _ _ _) fun _ => calm_pure _
  · exact calm_bind (calm_addTrustAnchor _ _ _ _) fun _ => calm_pure _

theorem calm_createSubCa (actor : Actor) (name parent : String) (years : ℤ) :
    Calm (Write env g) (createSubCa env actor name parent years) := by
  unfold createSubCa
  refine calm_lift_bind fun _ _ => calm_get_bind fun d => calm_lift_bind fun p _ => calm_lift_bind fun _ _ => ?_
  split
  · exact calm_raise _
  · exact calm_requestApproval _ _ _

end Platform

/-! ## The certificate authority -/

namespace CAService

theorem calm_rotateOcspSigner_of {W : Db → Db → Prop} (hW : Admits W) (caId : ℕ) (ca : CertificateAuthority) (days : ℤ) :
    Calm W (rotateOcspSigner env caId ca days) := by
  unfold rotateOcspSigner
  refine calm_ofExcept_bind fun caCert _ => calm_ofExcept_bind fun osigner _ => calm_ofExcept_bind fun signer _ => ?_
  refine calm_ofExcept_bind fun cert _ => ?_
  exact calm_modify fun d => hW.setCa d _ _ fun _ => ⟨rfl, rfl⟩

theorem calm_createSubordinate_of {W : Db → Db → Prop} (hW : Admits W) (parent : ℕ × CertificateAuthority) (name : String)
    (years : ℤ) (alg : String) (pathLen : ℕ) : Calm W (createSubordinate env parent name years alg pathLen) := by
  unfold createSubordinate
  refine calm_ofExcept_bind fun parentPl _ => calm_ofExcept_bind fun parentCert _ => ?_
  refine calm_ofExcept_bind fun parentSigner _ => calm_ofExcept_bind fun signer _ => calm_ofExcept_bind fun cert _ => ?_
  refine calm_bind (calm_addPlain_of fun d => hW.addCa d _ rfl) fun id => ?_
  exact calm_bind (calm_rotateOcspSigner_of hW _ _ _) fun _ => calm_pure _

theorem calm_createSubordinate (parent : ℕ × CertificateAuthority) (name : String) (years : ℤ) (alg : String)
    (pathLen : ℕ) : Calm (Write env g) (createSubordinate env parent name years alg pathLen) :=
  calm_createSubordinate_of admits_write parent name years alg pathLen

theorem calm_ensureTsa_of {W : Db → Db → Prop} (hW : Admits W) (caId : ℕ) (ca : CertificateAuthority) :
    Calm W (ensureTsa env caId ca) := by
  unfold ensureTsa
  refine calm_ofExcept_bind fun stored _ => ?_
  cases stored with
  | some c => exact calm_ofExcept_bind fun signer _ => calm_pure _
  | none =>
    refine calm_ofExcept_bind fun caCert _ => calm_ofExcept_bind fun signer _ => calm_ofExcept_bind fun caSigner _ => ?_
    refine calm_ofExcept_bind fun cert _ => ?_
    exact calm_bind (calm_modify fun d => hW.setCa d _ _ fun _ => ⟨rfl, rfl⟩) fun _ => calm_pure _

theorem calm_ensureTsa (caId : ℕ) (ca : CertificateAuthority) : Calm (Write env g) (ensureTsa env caId ca) :=
  calm_ensureTsa_of admits_write caId ca

/-- only the CA's row is written -/
theorem calm_generateCrl_of {W : Db → Db → Prop} (hW : ∀ d t, W d { d with cas := t }) (caId : ℕ)
    (nextUpdateHours : ℤ) : Calm W (generateCrl env caId nextUpdateHours) := by
  unfold generateCrl
  refine calm_get_bind fun d => ?_
  split
  · exact Tx.calm_throw _
  refine calm_ofExcept_bind fun _ _ => calm_bind (calm_modify fun d => hW d _) fun _ => ?_
  refine calm_get_bind fun d => calm_ofExcept_bind fun crl _ => calm_ofExcept_bind fun signer _ => ?_
  refine calm_ofExcept_bind fun _ _ => ?_
  exact calm_modify fun d => hW d _

end CAService

/-! ## Signing -/

namespace CAService

/-- what a CA signs for a decision -/
theorem prepare_tbs {d : Db} {csr : Csr} {decision : Decision} {ca : Option (ℕ × CertificateAuthority)} {caId : ℕ}
    {cert : X509Cert} (h : prepare env d csr decision ca = .ok (caId, cert)) :
    ∃ caCert pub, cert.tbs = leafTbs env caCert pub decision := by
  unfold prepare at h
  extract_lets -underBinder rest at h
  have hrest : ∀ c, rest c = .ok (caId, cert) → ∃ caCert pub, cert.tbs = leafTbs env caCert pub decision := by
    intro c h
    obtain ⟨caCert, -, h⟩ := except_bind_ok.1 h
    obtain ⟨pub, -, h⟩ := except_bind_ok.1 h
    split at h
    · simp at h
    obtain ⟨signer, -, h⟩ := except_bind_ok.1 h
    obtain ⟨cert', hs, h⟩ := except_bind_ok.1 h
    obtain ⟨signed, -, hs⟩ := except_bind_ok.1 hs
    simp only [except_pure_ok, Prod.mk.injEq] at h hs
    refine ⟨caCert, pub, ?_⟩
    rw [← h.2, ← hs]
  cases ca with
  | some c => exact hrest c h
  | none =>
    obtain ⟨c, -, h⟩ := except_bind_ok.1 h
    exact hrest c h

theorem prepare_serial {d : Db} {csr : Csr} {decision : Decision} {ca : Option (ℕ × CertificateAuthority)} {caId : ℕ}
    {cert : X509Cert} (h : prepare env d csr decision ca = .ok (caId, cert)) :
    cert.tbs.serialNumber = env.randomSerial 0 := by
  obtain ⟨caCert, pub, htbs⟩ := prepare_tbs h
  rw [htbs]
  rfl

/-- the SANs a CA signs are the decision's names -/
theorem prepare_names {d : Db} {csr : Csr} {decision : Decision} {ca : Option (ℕ × CertificateAuthority)} {caId : ℕ}
    {cert : X509Cert} (h : prepare env d csr decision ca = .ok (caId, cert)) :
    (cert.tbs.san.map San.strings).getD [] =
      decision.dnsNames ++ decision.uris ++ decision.emails ++ decision.upns := by
  obtain ⟨caCert, pub, htbs⟩ := prepare_tbs h
  rw [htbs]
  unfold leafTbs San.none
  dsimp only
  split
  · next hnone =>
    simp only [San.mk.injEq, List.map_eq_nil_iff] at hnone
    obtain ⟨hdns, huris, hemails, -, hupns⟩ := hnone
    simp [hdns, huris, hemails, hupns]
  · simp [San.strings, Function.comp_def]

end CAService

namespace Platform

/-- a row `_sign` makes for an app: active, under a serial the outside world gave, and with the decision's names if the
platform's own CA signs it -/
structure SignedRow (env : Env) (appId : ℕ) (decision : Decision) (c : Certificate) : Prop where
  offered : Offered env c
  active : c.status = .active
  owner : c.appId = some appId
  names : c.caId ≠ none → c.sans = decision.dnsNames ++ decision.uris ++ decision.emails ++ decision.upns

theorem signRow_ok {d : Db} {csr : Csr} {decision : Decision} {appId : ℕ} {row : Certificate}
    (h : signRow env d csr decision appId = .ok row) : SignedRow env appId decision row := by
  unfold signRow at h
  obtain ⟨issuer, -, h⟩ := except_bind_ok.1 h
  split at h
  · extract_lets -underBinder rest at h
    have hrest : ∀ c, rest c = .ok row → SignedRow env appId decision row := by
      intro c h
      obtain ⟨⟨caId, cert⟩, hp, h⟩ := except_bind_ok.1 h
      rw [except_pure_ok] at h
      subst h
      refine ⟨Or.inr ?_, rfl, rfl, fun _ => CAService.prepare_names hp⟩
      rw [← CAService.prepare_serial hp]
      rfl
    split at h
    · obtain ⟨ca, -, h⟩ := except_bind_ok.1 h
      exact hrest _ h
    · exact hrest _ h
  · split at h
    · simp at h
    · next backend hb =>
      obtain ⟨⟨leaf, chain, ref⟩, hs, h⟩ := except_bind_ok.1 h
      obtain ⟨_, -, h⟩ := except_bind_ok.1 h
      rw [except_pure_ok] at h
      subst h
      exact ⟨Or.inl rfl, rfl, rfl, fun hca => absurd rfl hca⟩

theorem signRow_undated {d : Db} {csr : Csr} {decision : Decision} {appId : ℕ} {row : Certificate}
    (h : signRow env d csr decision appId = .ok row) : row.revokedAt = none := by
  unfold signRow at h
  obtain ⟨issuer, -, h⟩ := except_bind_ok.1 h
  split at h
  · extract_lets -underBinder rest at h
    have hrest : ∀ c, rest c = .ok row → row.revokedAt = none := by
      intro c h
      obtain ⟨⟨caId, cert⟩, -, h⟩ := except_bind_ok.1 h
      rw [except_pure_ok] at h
      subst h
      rfl
    split at h
    · obtain ⟨ca, -, h⟩ := except_bind_ok.1 h
      exact hrest _ h
    · exact hrest _ h
  · split at h
    · simp at h
    · obtain ⟨⟨leaf, chain, ref⟩, -, h⟩ := except_bind_ok.1 h
      obtain ⟨_, -, h⟩ := except_bind_ok.1 h
      rw [except_pure_ok] at h
      subst h
      rfl

theorem calm_sign_of {W : Db → Db → Prop} {adds : Certificate → Prop} {replaces : ℕ → CertStatus → Prop}
    (hW : Enrols env adds replaces W) {decision : Decision} {appId : ℕ}
    (hg : ∀ c, SignedRow env appId decision c → c.revokedAt = none → adds c) (csr : Csr) (app : App) (protocol : String)
    (actor : Actor) : Calm W (sign env csr decision appId app protocol actor) := by
  unfold sign
  refine calm_get_bind fun d => calm_ofExcept_bind fun row hrow => ?_
  refine calm_bind (calm_addRow_of fun d => hW.addCertificate d _ (hg _ (signRow_ok hrow) (signRow_undated hrow))) fun id => ?_
  refine calm_bind (calm_modify fun d => hW.fill d _ _ fun c => ⟨⟨rfl, rfl, rfl, rfl, rfl, Or.inl rfl⟩, rfl, rfl, rfl⟩) fun _ => ?_
  exact calm_bind (hW.record (by decide)) fun _ => calm_pure _

theorem calm_sign {decision : Decision} {appId : ℕ} (hg : ∀ c, SignedRow env appId decision c → g.adds c) (csr : Csr)
    (app : App) (protocol : String) (actor : Actor) :
    Calm (Write env g) (sign env csr decision appId app protocol actor) :=
  calm_sign_of enrols_write (fun c hc _ => hg c hc) csr app protocol actor

theorem calm_enqueueIssue_of {W : Db → Db → Prop} (hW : Admits W) (appId : ℕ) (profileName csrPem : String)
    (ca tmpl : Option String) (requestedBy : String) :
    Calm W (enqueueIssue env appId profileName csrPem ca tmpl requestedBy) := by
  unfold enqueueIssue
  refine calm_get_bind fun d => ?_
  split
  · exact calm_pure _
  · exact calm_addPlain_of fun d => hW.jobs d _

theorem calm_enqueueAdcsIssue_of {W : Db → Db → Prop} (hW : Admits W) (actor : Actor) (appId : ℕ) (app : App)
    (decision : Decision) (csrPem : Option String) : Calm W (enqueueAdcsIssue env actor appId app decision csrPem) := by
  unfold enqueueAdcsIssue
  split
  · exact Tx.calm_throw _
  · refine calm_bind (calm_enqueueIssue_of hW _ _ _ _ _ _) fun id => ?_
    exact calm_bind (hW.record (by decide)) fun _ => calm_pure _

theorem calm_enqueueAdcsIssue (actor : Actor) (appId : ℕ) (app : App) (decision : Decision) (csrPem : Option String) :
    Calm (Write env g) (enqueueAdcsIssue env actor appId app decision csrPem) :=
  calm_enqueueAdcsIssue_of admits_write actor appId app decision csrPem

/-! ## Rejections that are kept -/

/-- an event, a commit and a raise -/
theorem onward_reject {W : Db → Db → Prop} (hW : Admits W) {actor action target : String} {details : List (String × Json)}
    {e : Err} (h : action ≠ "certificate.revoke") :
    Onward W (do record env actor action target details; Tx.commit; raise e : M α) :=
  onward_bind (hW.record h).onward fun _ => onward_bind Tx.onward_commit fun _ => (Tx.calm_throw _).onward

theorem onward_rejectRequest (actor : Actor) (app : App) (profileName protocol : String) (v : Violations) :
    Onward (Write env g) (@rejectRequest α env actor app profileName protocol v) := onward_reject admits_write (by decide)

theorem onward_applyLogonSid {W : Db → Db → Prop} (hW : Admits W) (decision : Decision) (app : App) (protocol : String) :
    Onward W (applyLogonSid env decision app protocol) := by
  unfold applyLogonSid
  split
  · exact (Tx.calm_throw _).onward
  · exact onward_reject hW (by decide)
  · exact (calm_pure _).onward

theorem onward_decideLogon_of {W : Db → Db → Prop} (hW : Admits W) (decision : Decision) (app : App) (protocol : String) :
    Onward W (decideLogon env decision app protocol) := by
  unfold decideLogon
  split
  · exact (calm_pure _).onward
  · exact onward_bind (onward_applyLogonSid hW _ _ _) fun r => (calm_pure _).onward

theorem onward_decideLogon (decision : Decision) (app : App) (protocol : String) :
    Onward (Write env g) (decideLogon env decision app protocol) := onward_decideLogon_of admits_write decision app protocol

/-! ## Requests -/

section Requests

variable {W : Db → Db → Prop} {adds : Certificate → Prop} {replaces : ℕ → CertStatus → Prop} {decision : Decision}
  {appId : ℕ} {r : CertRequest}

/-- a decision under dual control signs nothing -/
theorem calm_fulfil_of (hW : Enrols env adds replaces W)
    (hask : ∀ d a, a.status = .pending → W d { d with approvals := d.approvals.insert (inserted env.st a) })
    (hg : decision.dualControl = false → ∀ c, SignedRow env appId decision c → c.revokedAt = none → adds c)
    (hp : ∀ prev, r.previous = some prev → ∀ st, replaces prev st) (actor : Actor) (app : App) (profileName : String)
    (csr : Csr) : Calm W (fulfil env actor appId app profileName csr decision r) := by
  have hadmits : Admits W := hW.toAdmits
  unfold fulfil
  refine calm_ite (fun _ => calm_bind (calm_requestApproval_of hadmits hask _ _ _) fun _ => calm_pure _) fun hdual => ?_
  refine calm_ite (fun _ => calm_bind (calm_enqueueAdcsIssue_of hadmits _ _ _ _ _) fun _ => calm_pure _) fun _ => ?_
  refine calm_bind (calm_sign_of hW (hg (by simpa using hdual)) _ _ _ _) fun id => ?_
  cases hr : r.previous with
  | none => exact calm_pure _
  | some prev =>
    refine calm_get_bind fun d => calm_bind (calm_modify fun d => hW.supersede d _ _ fun c _ => hp prev hr _) fun _ => ?_
    exact calm_bind (hadmits.record (by decide)) fun _ => calm_pure _

theorem calm_fulfil (hg : decision.dualControl = false → ∀ c, SignedRow env appId decision c → g.adds c)
    (hp : ∀ prev, r.previous = some prev → ∀ st, g.supersedes prev st) (actor : Actor) (app : App)
    (profileName : String) (csr : Csr) :
    Calm (Write env g) (fulfil env actor appId app profileName csr decision r) :=
  calm_fulfil_of enrols_write (fun d a h => .addApproval d a h) (fun hdual c hc _ => hg hdual c hc) hp actor app profileName csr

/-- a request commits its rejections, and never rolls back -/
theorem onward_requestCertificate_of (hW : Enrols env adds replaces W)
    (hask : ∀ d a, a.status = .pending → W d { d with approvals := d.approvals.insert (inserted env.st a) })
    (hg : ∀ c, Offered env c → c.status = .active → c.revokedAt = none → adds c)
    (hp : ∀ prev, r.previous = some prev → ∀ st, replaces prev st) (actor : Actor) (appId : ℕ) :
    Onward W (requestCertificate env actor appId r) := by
  have hadmits : Admits W := hW.toAdmits
  unfold requestCertificate
  refine Tx.onward_get_bind fun d => Tx.onward_ofExcept_bind fun app _ => ?_
  dsimp only
  split
  · exact onward_reject hadmits (by decide)
  refine Tx.onward_ofExcept_bind fun csr _ => Tx.onward_ofExcept_bind fun prevFp _ => ?_
  split
  · exact onward_reject hadmits (by decide)
  · exact (Tx.calm_throw _).onward
  · refine onward_bind (onward_decideLogon_of hadmits _ _ _) fun decision => ?_
    exact (calm_fulfil_of hW hask (fun _ c h => hg c h.offered h.active) hp _ _ _ _).onward

theorem does_requestCertificate (hg : ∀ c, Offered env c → g.adds c)
    (hp : ∀ prev, r.previous = some prev → ∀ st, g.supersedes prev st) (actor : Actor) (appId : ℕ) :
    Does (Write env g) (requestCertificate env actor appId r) :=
  (onward_requestCertificate_of enrols_write (fun d a h => .addApproval d a h) (fun c hc _ _ => hg c hc) hp actor appId).does

theorem does_renew_of (hW : Enrols env adds replaces W)
    (hask : ∀ d a, a.status = .pending → W d { d with approvals := d.approvals.insert (inserted env.st a) })
    (hg : ∀ c, Offered env c → c.status = .active → c.revokedAt = none → adds c) {certId : ℕ}
    (hp : ∀ st, replaces certId st) (actor : Actor) (csrPem protocol : String) :
    Does W (renew env actor certId csrPem protocol) := by
  unfold renew
  refine does_get_bind fun d => ?_
  split
  · exact (Tx.calm_throw _).does
  dsimp only
  split
  · exact (Tx.calm_throw _).does
  split
  · exact (Tx.calm_throw _).does
  split
  · exact (Tx.calm_throw _).does
  · refine (onward_requestCertificate_of hW hask hg (fun prev h => ?_) _ _).does
    obtain rfl := Option.some.inj h
    exact hp

theorem does_renew (hg : ∀ c, Offered env c → g.adds c) {certId : ℕ} (hp : ∀ st, g.supersedes certId st) (actor : Actor)
    (csrPem protocol : String) :
    Does (Write env g) (renew env actor certId csrPem protocol) :=
  does_renew_of enrols_write (fun d a h => .addApproval d a h) (fun c hc _ _ => hg c hc) hp actor csrPem protocol

end Requests

/-! ## Revocation -/

/-- row `id` has this serial and is no longer active -/
def Ended (id : ℕ) (serial : String) (d : Db) : Prop :=
  ∃ c, d.certificates.get id = some c ∧ c.status ≠ .active ∧ c.serialHex = serial

theorem ended_markRevoked {d : Db} {id : ℕ} {c : Certificate} (reason : String) (h : d.certificates.get id = some c) :
    Ended id c.serialHex (Col.certificates.put d
      ((Col.certificates.get d).update id fun a => flushed env.st a (markRevoked env reason a))) := by
  refine ⟨flushed env.st c (markRevoked env reason c), ?_, by simp [markRevoked], by simp [markRevoked]⟩
  exact (Table.get_update_self _ _ _).trans (by simp [Col.certificates, h])

theorem calmAt_recordRevoked {s : Session Db} {id : ℕ} {serial : String} (hg : g.revokes id serial)
    (h : Ended id serial s.work)
    (actor : String) (details : List (String × Json)) :
    CalmAt (Write env g) s (record env actor "certificate.revoke" serial details) := by
  obtain ⟨c, hget, hst, rfl⟩ := h
  exact Tx.calmAt_modify (.revokeEvent s.work _ id c hg hget hst rfl)

theorem mayRevoke_ok {d : Db} {actor : Actor} {certId : ℕ} {reason : String} {changeRef : Option String}
    {row : Certificate} (h : mayRevoke d actor certId reason changeRef = .ok row) :
    d.certificates.get certId = some row := by
  unfold mayRevoke at h
  split at h
  · simp at h
  · next c hc =>
    extract_lets -underBinder own rest at h
    have hrest : ∀ u, rest u = .ok row → c = row := by
      intro u h
      dsimp only [rest] at h
      split at h
      · simp at h
      · simpa using h
    rw [hc]
    split at h
    · obtain ⟨u, -, h⟩ := except_bind_ok.1 h
      rw [hrest u h]
    · obtain ⟨u, -, h⟩ := except_bind_ok.1 h
      rw [hrest u h]

/-- a new AD CS job leaves the certificates as they are -/
theorem addPlain_jobs_certificates {j : AdcsJob} {s s' : Session Db} {id : ℕ}
    (h : addPlain Col.jobs noClash j s = (.ok id, s')) : s'.work.certificates = s.work.certificates := by
  cases h
  rfl

/-- the certificates table is left as it is -/
def KeepsCertificates (d d' : Db) : Prop := d'.certificates = d.certificates

theorem calm_caRevoke (id : ℕ) (row : Certificate) (reason : String) :
    Calm (Write env g) (CAService.revoke env id row reason) := by
  unfold CAService.revoke
  refine calm_ite (fun _ => calm_raise _) fun _ => calm_ite (fun _ => calm_raise _) fun _ => ?_
  refine calm_ite (fun _ => calm_pure _) fun _ => ?_
  exact calm_setCertificate (fun c => ⟨rfl, rfl, rfl, rfl, rfl, Or.inr (Or.inr rfl)⟩) fun c h => nomatch h

/-- where the CA's revocation of a row returns, the row is no longer active -/
theorem caRevoke_ended {id : ℕ} {row : Certificate} {reason : String} {s s' : Session Db} {u : Unit}
    (hget : s.work.certificates.get id = some row) (h : CAService.revoke env id row reason s = (.ok u, s')) :
    Ended id row.serialHex s'.work := by
  unfold CAService.revoke at h
  split_ifs at h with h1 h2 h3
  · cases h
  · cases h
  · cases h
    exact ⟨row, hget, by simp [h3], rfl⟩
  · cases h
    exact ended_markRevoked reason hget

/-- marking the row, then whatever keeps the certificates, then the event -/
theorem calmAt_markAndRecord {s : Session Db} {id : ℕ} {row : Certificate} (hg : g.revokes id row.serialHex)
    (hget : s.work.certificates.get id = some row) (reason actor : String) (details : List (String × Json)) :
    CalmAt (Write env g) s (do
      setRow env Col.certificates id (markRevoked env reason)
      record env actor "certificate.revoke" row.serialHex details) := by
  have hmark : ∀ c, Retires c (markRevoked env reason c) := fun c => ⟨rfl, rfl, rfl, rfl, rfl, Or.inr (Or.inr rfl)⟩
  refine calmAt_bind (calm_setCertificate hmark (fun c h => nomatch h) s) ?_
  intro a s' h
  cases h
  exact calmAt_recordRevoked hg (ended_markRevoked reason hget) _ _

/-- a revocation is recorded under the serial the row has when it starts -/
theorem calmAt_revoke {s : Session Db} {certId : ℕ}
    (hg : ∀ c, s.work.certificates.get certId = some c → g.revokes certId c.serialHex) (actor : Actor) (reason : String)
    (changeRef : Option String) : CalmAt (Write env g) s (revoke env actor certId reason changeRef) := by
  unfold revoke
  refine Tx.calmAt_get_bind (calmAt_lift_bind fun row hrow => ?_)
  have hget : s.work.certificates.get certId = some row := mayRevoke_ok hrow
  have hg := hg row hget
  extract_lets -underBinder upstream rest
  split
  · refine calmAt_bind (calm_addPlain (fun _ _ => ⟨rfl, rfl, rfl, rfl, rfl⟩) _ _ s) fun _ s' h => ?_
    exact calmAt_markAndRecord hg (by rw [addPlain_jobs_certificates h, hget]) _ _ _
  split
  · split
    · exact calmAt_bind (calm_raise _ s) fun _ _ h => nomatch h
    · exact calmAt_lift_bind fun _ _ => calmAt_markAndRecord hg hget _ _ _
  · -- the local CA: the row is revoked already, or marked now; then a fresh CRL
    refine calmAt_bind (calm_caRevoke _ _ _ s) fun _ s1 h1 => ?_
    have hended : Ended certId row.serialHex s1.work := caRevoke_ended hget h1
    split
    · exact calmAt_bind (calm_raise _ s1) fun _ _ h => nomatch h
    · next caId _ =>
      refine calmAt_bind (CAService.calm_generateCrl_of (fun d t => .frame _ _ rfl rfl rfl rfl rfl) caId 24 s1) fun _ s2 h2 => ?_
      have hcerts : s2.work.certificates = s1.work.certificates := by
        have hk : Calm KeepsCertificates (CAService.generateCrl env caId 24) :=
          CAService.calm_generateCrl_of (fun _ _ => rfl) caId 24
        have h := (hk s1).2
        rw [h2] at h
        exact Tx.reaches_inv (I := fun d => d.certificates = s1.work.certificates) (fun _ _ hw => hw.trans) h rfl
      obtain ⟨c, hc, hst⟩ := hended
      exact calmAt_recordRevoked hg ⟨c, hcerts ▸ hc, hst⟩ _ _

theorem calm_revoke {certId : ℕ} (hg : ∀ x, g.revokes certId x) (actor : Actor) (reason : String)
    (changeRef : Option String) : Calm (Write env g) (revoke env actor certId reason changeRef) := fun _ =>
  calmAt_revoke (fun _ _ => hg _) _ _ _

/-! ## Inventory -/

section Inventory

variable {W : Db → Db → Prop} {adds : Certificate → Prop} {replaces : ℕ → CertStatus → Prop}

theorem calm_retireAll (hW : Enrols env adds replaces W) (actorName : String) (currentId : ℕ) (current : Certificate)
    (location : String) {stale : List (ℕ × Certificate)} (hp : ∀ p ∈ stale, ∀ st, replaces p.1 st) :
    Calm W (retireAll env actorName currentId current location stale) := by
  induction stale with
  | nil => exact calm_pure _
  | cons p rest ih =>
    have ih := ih fun q hq => hp q (List.mem_cons_of_mem _ hq)
    refine calm_bind (calm_modify fun d => hW.supersede d _ _ fun c _ => hp p List.mem_cons_self _) fun _ => ?_
    exact calm_bind (hW.record (by decide)) fun _ => ih

/-- an active certificate discovered at this endpoint -/
def AtEndpoint (location : Option String) (c : Certificate) : Prop :=
  c.location = location ∧ c.source = .discovered ∧ c.status = .active

theorem calmAt_retireReplaced (hW : Enrols env adds replaces W) {s : Session Db} {currentId : ℕ} {source : CertSource}
    {location : Option String} (hp : source = .discovered → ∀ i c, s.work.certificates.get i = some c → i ≠ currentId →
      AtEndpoint location c → ∀ st, replaces i st) (actorName : String) (current : Certificate) :
    CalmAt W s (retireReplaced env actorName currentId current source location) := by
  unfold retireReplaced
  split
  · exact calm_pure _ s
  next loc hloc =>
  split
  · exact calm_pure _ s
  next hsource =>
  refine Tx.calmAt_get_bind (calm_retireAll hW _ _ _ _ (fun p hmem => ?_) s)
  obtain ⟨hmem, hne⟩ := List.mem_filter.1 hmem
  obtain ⟨hget, hstale⟩ := Table.mem_all.1 hmem
  simp only [Bool.and_eq_true, decide_eq_true_eq] at hstale
  have hlocation : location = some loc := (Option.filter_eq_some_iff.1 hloc).1
  exact hp (not_not.1 hsource) p.1 p.2 hget (by simpa using hne) ⟨hstale.1.1.trans hlocation.symm, hstale.1.2, hstale.2⟩

theorem ingest_event {kind : String} (h : kind ≠ "revoke") : s!"certificate.{kind}" ≠ "certificate.revoke" := by
  intro he
  have he : "certificate." ++ kind = "certificate." ++ "revoke" := he
  exact h ((String.append_right_inj _).1 he)

/-- `source` is one of the inventory's, never the text "revoke" -/
theorem calmAt_ingest_of (hW : Enrols env adds replaces W) {s : Session Db} {source : CertSource}
    (hs : ∀ c : Certificate, c.caId = none → c.source = source → c.status = .active → c.revokedAt = none → adds c)
    (hsrc : source.text ≠ "revoke") {location : Option String}
    (hp : source = .discovered → ∀ i c, s.work.certificates.get i = some c → AtEndpoint location c →
      ∀ st, replaces i st) (actorName : String) (cert : X509Cert) (appId : Option ℕ) :
    CalmAt W s (ingest env actorName cert source location appId) := by
  unfold ingest
  refine Tx.calmAt_get_bind (Tx.calmAt_ofExcept_bind fun found _ => ?_)
  cases found with
  | some p =>
    refine calmAt_bind (Tx.calmAt_modify (hW.fill _ _ _ ?_)) fun _ s' h => ?_
    · exact fun c => ⟨⟨rfl, rfl, rfl, rfl, rfl, Or.inl rfl⟩, rfl, rfl, rfl⟩
    cases h
    refine calmAt_bind (calmAt_retireReplaced hW (fun hsource i c hget hne => ?_) _ _) fun _ s' _ => calm_pure _ s'
    exact hp hsource i c ((Table.get_update_of_ne _ _ hne).symm.trans hget)
  | none =>
    refine calmAt_bind (calm_addRow_of (fun d => hW.addCertificate d _ (hs _ rfl rfl rfl rfl)) s) fun id s' h => ?_
    obtain ⟨rfl, hwork⟩ := addRow_ok h
    refine calmAt_bind (calmAt_retireReplaced hW (fun hsource i c hget hne => ?_) _ _) fun _ s' _ => ?_
    · rw [hwork] at hget
      exact hp hsource i c ((if_neg hne).symm.trans ((Table.get_insert _ _ _).symm.trans hget))
    · exact calm_bind (hW.record (ingest_event hsrc)) (fun _ => calm_pure _) s'

theorem calmAt_ingest {s : Session Db} {source : CertSource}
    (hs : ∀ c : Certificate, c.caId = none → c.source = source → g.adds c) (hsrc : source.text ≠ "revoke") {location : Option String}
    (hp : source = .discovered → ∀ i c, s.work.certificates.get i = some c → AtEndpoint location c →
      ∀ st, g.supersedes i st) (actorName : String) (cert : X509Cert) (appId : Option ℕ) :
    CalmAt (Write env g) s (ingest env actorName cert source location appId) :=
  calmAt_ingest_of enrols_write (fun c hca hsource _ _ => hs c hca hsource) hsrc hp actorName cert appId

end Inventory

theorem calm_ingest {source : CertSource} (hs : ∀ c : Certificate, c.caId = none → c.source = source → g.adds c) (hsrc : source.text ≠ "revoke")
    (hp : source = .discovered → ∀ i st, g.supersedes i st) (actorName : String) (cert : X509Cert)
    (location : Option String) (appId : Option ℕ) :
    Calm (Write env g) (ingest env actorName cert source location appId) := fun _ =>
  calmAt_ingest hs hsrc (fun hsource i _ _ _ => hp hsource i) _ _ _

theorem calm_gatewayCompleteIssue (hs : ∀ c : Certificate, c.caId = none → g.adds c) (actor : Actor) (jobId : ℕ)
    (certificatePem : String) :
    Calm (Write env g) (gatewayCompleteIssue env actor jobId certificatePem) := by
  unfold gatewayCompleteIssue
  refine calm_lift_bind fun _ _ => calm_get_bind fun d => ?_
  split
  · exact calm_raise _
  refine calm_ite (fun _ => calm_raise _) fun _ => calm_lift_bind fun cert _ => ?_
  refine calm_bind (calm_ingest (fun c hca _ => hs c hca) (by decide) (fun h => absurd h (by decide)) _ _ _ _) fun id => ?_
  refine calm_bind (calm_setColumns (fun c => ⟨rfl, rfl, rfl, rfl, rfl, Or.inl rfl⟩) fun _ => rfl) fun _ => ?_
  refine calm_bind (calm_setPlain (fun _ _ => ⟨rfl, rfl, rfl, rfl, rfl⟩) _ _) fun _ => ?_
  exact calm_record (by decide)

/-! ## Renewal campaigns -/

theorem calm_campaignLoop {W : Db → Db → Prop} (hadvice : ∀ d t, W d { d with advice := t }) {actor : Actor}
    {camp : RenewalCampaign} {changeRef : Option String} {advice : List RenewalAdvice}
    (hrevoke : ∀ a ∈ advice, Calm W (revoke env actor a.certificateId camp.revocationReason changeRef)) (campaignId : ℕ)
    (remaining : Bool) : Calm W (campaignLoop env actor campaignId camp remaining changeRef advice) := by
  induction advice with
  | nil => exact calm_pure _
  | cons adv rest ih =>
    have ih := ih fun a ha => hrevoke a (List.mem_cons_of_mem _ ha)
    unfold campaignLoop
    refine calm_get_bind fun d => ?_
    split
    · exact Tx.calm_throw _
    refine calm_ite (fun _ => ih) fun _ => calm_bind (hrevoke adv List.mem_cons_self) fun _ => ?_
    refine calm_bind (calm_modify fun d => hadvice d _) fun _ => ?_
    exact calm_bind ih fun n => calm_pure _

theorem calmAt_campaignRevokeNow {s : Session Db} {campaignId : ℕ}
    (hg : ∀ a ∈ s.work.advice, a.campaignId = campaignId → ∀ x, g.revokes a.certificateId x) (actor : Actor)
    (remaining : Bool) (changeRef : Option String) :
    CalmAt (Write env g) s (campaignRevokeNow env actor campaignId remaining changeRef) := by
  unfold campaignRevokeNow
  refine Tx.calmAt_get_bind ?_
  split
  · exact calm_raise _ s
  have hadvice : ∀ a ∈ s.work.advice.filter fun a => a.campaignId = campaignId, ∀ x, g.revokes a.certificateId x := by
    intro a ha
    obtain ⟨hmem, hc⟩ := List.mem_filter.1 ha
    exact hg a hmem (by simpa using hc)
  have hloop := fun camp => calm_campaignLoop (W := Write env g) (fun d _ => .frame _ _ rfl rfl rfl rfl rfl)
    (fun a ha => @calm_revoke env g _ (hadvice a ha) actor (RenewalCampaign.revocationReason camp) changeRef) campaignId remaining
  refine calmAt_bind (hloop _ s) fun n s' _ => ?_
  refine calm_bind (calm_record ?_) (fun _ => calm_pure _) s'
  cases remaining <;> decide

theorem calmAt_campaignRevoke {s : Session Db} {campaignId : ℕ} {remaining : Bool}
    (hg : remaining = false → ∀ a ∈ s.work.advice, a.campaignId = campaignId → ∀ x, g.revokes a.certificateId x)
    (actor : Actor) (changeRef : Option String) :
    CalmAt (Write env g) s (campaignRevoke env actor campaignId remaining changeRef) := by
  unfold campaignRevoke
  refine calmAt_lift_bind fun _ _ => ?_
  by_cases h : remaining = true
  · rw [if_pos h]
    exact calm_bind (calm_requestApproval _ _ _) (fun _ => calm_pure _) s
  · rw [if_neg h]
    exact calmAt_bind (calmAt_campaignRevokeNow (hg (by simpa using h)) _ _ _) fun _ s' _ => calm_pure _ s'

end Platform

/-! ## Code signing -/

namespace CodeSign

open Platform

theorem calm_requestKey (actor : Actor) (name : String) (appId : ℕ) (purpose alg : String) :
    Calm (Write env g) (requestKey env actor name appId purpose alg) := by
  unfold requestKey
  refine calm_lift_bind fun _ _ => calm_get_bind fun d => ?_
  refine calm_ite (fun _ => calm_raise _) fun _ => calm_ite (fun _ => calm_raise _) fun _ => ?_
  refine calm_ite (fun _ => calm_raise _) fun _ => calm_ite (fun _ => calm_raise _) fun _ => ?_
  exact calm_ite (fun _ => calm_raise _) fun _ => calm_requestApproval _ _ _

theorem calm_createKeyNow_of {W : Db → Db → Prop} {adds : Certificate → Prop} {replaces : ℕ → CertStatus → Prop}
    (hW : Enrols env adds replaces W) (hkey : ∀ d k, W d { d with signingKeys := d.signingKeys.insert k }) {a : KeyArgs}
    (hs : ∀ decision c, SignedRow env a.appId decision c → c.revokedAt = none → adds c) (requestedBy decidedBy : String) :
    Calm W (createKeyNow env requestedBy decidedBy a) := by
  unfold createKeyNow
  refine calm_get_bind fun d => ?_
  split
  · exact Tx.calm_throw _
  refine calm_ofExcept_bind fun signer _ => calm_ofExcept_bind fun decision _ => ?_
  refine calm_bind (calm_sign_of hW (hs _) _ _ _ _) fun certId => ?_
  refine calm_bind (calm_addPlain_of fun d => hkey d _) fun keyId => calm_get_bind fun d => ?_
  exact calm_bind (hW.record (by decide)) fun _ => calm_pure _

theorem calm_createKeyNow {a : KeyArgs} (hs : ∀ decision c, SignedRow env a.appId decision c → g.adds c)
    (requestedBy decidedBy : String) : Calm (Write env g) (createKeyNow env requestedBy decidedBy a) :=
  calm_createKeyNow_of enrols_write (fun _ _ => .frame _ _ rfl rfl rfl rfl rfl) (fun decision c hc _ => hs decision c hc)
    requestedBy decidedBy

theorem calm_signNow (requestId : ℕ) (decidedBy : String) : Calm (Write env g) (signNow env requestId decidedBy) := by
  unfold signNow
  refine calm_get_bind fun d => ?_
  split
  · exact calm_raise _
  split
  · exact calm_raise _
  refine calm_ite (fun _ => calm_raise _) fun _ => calm_ite (fun _ => calm_raise _) fun _ => ?_
  refine calm_lift_bind fun rc _ => calm_lift_bind fun _ _ => calm_lift_bind fun signer _ => ?_
  refine calm_lift_bind fun tsaCa _ => calm_bind (CAService.calm_ensureTsa _ _) fun _ => ?_
  refine calm_lift_bind fun der _ => ?_
  refine calm_bind (calm_setPlain (fun _ _ => ⟨rfl, rfl, rfl, rfl, rfl⟩) _ _) fun _ => ?_
  exact calm_record (by decide)

theorem calm_reject (requestId : ℕ) (decidedBy : String) : Calm (Write env g) (reject env requestId decidedBy) := by
  unfold reject
  refine calm_get_bind fun d => ?_
  split
  · exact calm_pure _
  refine calm_ite (fun _ => calm_pure _) fun _ => ?_
  exact calm_bind (calm_setPlain (fun _ _ => ⟨rfl, rfl, rfl, rfl, rfl⟩) _ _) fun _ => calm_record (by decide)

theorem calm_requestSignature (actor : Actor) (keyName digestAlg digestHex : String)
    (artifact : List (String × String)) :
    Calm (Write env g) (requestSignature env actor keyName digestAlg digestHex artifact) := by
  unfold requestSignature
  refine calm_get_bind fun d => calm_lift_bind fun found _ => ?_
  cases found with
  | none => exact calm_raise _
  | some p =>
    refine calm_ite (fun _ => calm_raise _) fun _ => calm_lift_bind fun _ _ => ?_
    dsimp only
    split
    · exact calm_raise _
    refine calm_ite (fun _ => calm_raise _) fun _ => calm_ite (fun _ => calm_raise _) fun _ => ?_
    refine calm_bind (calm_addPlain (fun _ _ => ⟨rfl, rfl, rfl, rfl, rfl⟩) _ _) fun id => ?_
    refine calm_bind (calm_record (by decide)) fun _ => calm_ite (fun _ => ?_) fun _ => ?_
    · refine calm_bind (calm_requestApproval _ _ _) fun approval => ?_
      exact calm_bind (calm_setPlain (fun _ _ => ⟨rfl, rfl, rfl, rfl, rfl⟩) _ _) fun _ => calm_pure _
    · exact calm_bind (calm_signNow _ _) fun _ => calm_pure _

end CodeSign

end Rules

end Certadillo
