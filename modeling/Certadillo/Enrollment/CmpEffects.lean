/-
What a CMP message writes.

- `doesAt_handle`: certificates only for an enrollment, revocations only for a certConf or an rr, a transaction opened
  only under the message's own identifier with the credential that authenticated it, and transactions advanced without
  touching either.
-/
import Certadillo.Enrollment.Cmp
import Certadillo.Services.Atomic

namespace Certadillo.Cmp

open Integrity Policy Py Platform
open Tx (Calm CalmAt Onward Does DoesAt calm_pure calm_bind calm_get_bind calm_ofExcept_bind calmAt_bind calm_modify
  calm_ite onward_bind does_bind does_get_bind doesAt_bind)

/-- a credential a message is authenticated with: a MAC secret's row, or a signer's certificate -/
inductive Credential where
  | secret (id : ℕ)
  | certificate (pem : String)
deriving DecidableEq

def Sender.credential : Sender → Credential
  | .mac id => .secret id
  | .sig _ row => .certificate row.pem

/-- the credential the row of a transaction names as the one that opened it -/
def opener (t : CmpTransaction) : Option Credential :=
  match t.secretId, t.senderCertPem with
  | some id, none => some (.secret id)
  | none, some pem => some (.certificate pem)
  | _, _ => none

def Body.enrolls : Body → Bool
  | .ir _ | .cr _ | .kur _ | .p10cr _ => true
  | _ => false

/-- the revocations a message may record: of its transaction's certificate, or under the serials it names -/
def MayRevoke (d : Db) (req : CmpRequest) (i : ℕ) (x : String) : Prop :=
  match req.body with
  | .certConf _ => ∃ id t, d.cmpTransactions.get id = some t ∧ t.transactionId = req.txid ∧ t.certificateId = some i
  | .rr details => ∃ det ∈ details, ∃ n, det.serialNumber = some n ∧ x = hex n
  | _ => False

/-- what a message needs granted: its sender may open a transaction under its identifier -/
structure Allows (env : Env) (g : Grant) (d : Db) (req : CmpRequest) (sender : Sender) : Prop where
  adds : req.body.enrolls = true → ∀ c, Offered env c → g.adds c
  revokes : ∀ i x, MayRevoke d req i x → g.revokes i x
  replaces : ∀ p, updatedBy req.body sender = .ok (some p) → ∀ st, g.supersedes p.1 st
  opens : ∀ t, t.transactionId = req.txid → opener t = some sender.credential → g.opens t
  advances : ∀ i, g.advances i

section Rules

variable {env : Env} {g : Grant} {w : Wire}

/-! ## Responses -/

/-- only the CA's row is written -/
theorem calm_ensureCmpRa_of {W : Db → Db → Prop}
    (hW : ∀ d id f, (∀ ca, KeepsCrl ca (f ca)) → W d { d with cas := d.cas.update id f }) (caId : ℕ)
    (ca : CertificateAuthority) : Calm W (ensureCmpRa env caId ca) := by
  unfold ensureCmpRa
  refine calm_ofExcept_bind fun current _ => calm_ite (fun _ => ?_) fun _ => ?_
  · exact calm_ofExcept_bind fun _ _ => calm_pure _
  refine calm_ofExcept_bind fun caCert _ => calm_ofExcept_bind fun signer _ => calm_ofExcept_bind fun caSigner _ => ?_
  exact calm_ofExcept_bind fun cert _ => calm_modify fun d => hW d _ _ fun _ => ⟨rfl, rfl⟩

theorem calm_responder_of {W : Db → Db → Prop}
    (hW : ∀ d id f, (∀ ca, KeepsCrl ca (f ca)) → W d { d with cas := d.cas.update id f }) : Calm W (responder env) := by
  unfold responder
  refine calm_get_bind fun d => calm_ofExcept_bind fun ca _ => ?_
  exact calm_bind (calm_ensureCmpRa_of hW _ _) fun _ => calm_pure _

/-- preparing a response writes only to the CAs -/
theorem responder_work (s : Session Db) : ∃ t, (responder env s).2.work = { s.work with cas := t } := by
  have h : Calm (fun a b : Db => ∃ t, b = { a with cas := t }) (responder env) := calm_responder_of fun _ _ _ _ => ⟨_, rfl⟩
  refine Tx.reaches_inv (I := fun d => ∃ t, d = { s.work with cas := t }) ?_ (h s).2 ⟨_, rfl⟩
  rintro _ _ ⟨t', rfl⟩ ⟨t, rfl⟩
  exact ⟨t', rfl⟩

theorem calm_responderChain_of {W : Db → Db → Prop} (ca : ℕ × CertificateAuthority) : Calm W (responderChain env ca) := by
  unfold responderChain
  exact calm_get_bind fun d => calm_ofExcept_bind fun _ _ => calm_pure _

/-! ## Transactions -/

/-- a relation that holds of a message's writes to the transactions and to the secrets -/
structure Converses (opens : CmpTransaction → Prop) (W : Db → Db → Prop) : Prop where
  openTxn : ∀ d t, opens t → W d { d with cmpTransactions := d.cmpTransactions.insert t }
  setTxn : ∀ d id (f : CmpTransaction → CmpTransaction), (∀ t, SameOpener t (f t)) →
    W d { d with cmpTransactions := d.cmpTransactions.update id f }
  useSecret : ∀ d id, W d { d with cmpSecrets := d.cmpSecrets.update id fun s => { s with used := true } }

theorem converses_write (ha : ∀ i, g.advances i) : Converses g.opens (Write env g) :=
  ⟨fun d t h => .openTxn d t h, fun d id f hf => .setTxn d id f (ha id) hf, fun d id => .useSecret d id⟩

section Messages

variable {W : Db → Db → Prop} {opens : CmpTransaction → Prop} {req : CmpRequest}

theorem calm_setTxn (hC : Converses opens W) (id : ℕ) {f : CmpTransaction → CmpTransaction} (hf : ∀ t, SameOpener t (f t)) :
    Calm W (setPlain Col.cmpTransactions id f) := calm_modify fun d => hC.setTxn d id f hf

theorem onward_deliver (hW : Admits W) (hC : Converses opens W) (ca : ℕ × CertificateAuthority) (req : CmpRequest)
    (sender : Sender) (txnId : ℕ) (txn : CmpTransaction) (certId : Option ℕ) :
    Onward W (deliver env ca req sender txnId txn certId) := by
  unfold deliver
  refine Tx.onward_get_bind fun d => ?_
  split
  · exact (Tx.calm_throw _).onward
  refine Tx.onward_ofExcept_bind fun _ _ => ?_
  refine onward_bind (Calm.onward (calm_setTxn hC _ fun t => ⟨rfl, rfl, rfl⟩)) fun _ => ?_
  refine onward_bind (hW.record (by decide)).onward fun _ => onward_bind Tx.onward_commit fun _ => ?_
  exact onward_bind (calm_responderChain_of _).onward fun _ => (calm_pure _).onward

/-! ## Enrollment -/

theorem calm_openTransaction (hC : Converses opens W) {sender : Sender} {txid : String}
    (ho : ∀ t, t.transactionId = txid → opener t = some sender.credential → opens t) (appId : ℕ) (reqId : ℤ) (kind : String) :
    Calm W (openTransaction sender appId txid reqId kind) := by
  unfold openTransaction
  cases sender with
  | mac secretId =>
    refine calm_bind (calm_modify fun d => hC.useSecret d secretId) fun _ => ?_
    exact calm_addPlain_of fun d => hC.openTxn d _ (ho _ rfl rfl)
  | sig id row => exact calm_addPlain_of fun d => hC.openTxn d _ (ho _ rfl rfl)

/-- what follows the opening of a transaction -/
def opened (env : Env) (ca : ℕ × CertificateAuthority) (req : CmpRequest) (sender : Sender) (app : ℕ × App)
    (txnId : ℕ) : Outcome → M Reply
  | .approval approvalId => do
    setPlain Col.cmpTransactions txnId fun t => { t with status := .pending, approvalId := some approvalId }
    record env (enrollActor sender app).name "cmp.pending" req.txid [("approval", .num approvalId)]
    Tx.commit
    pure .waiting
  | .certificate id => do
    let d ← Tx.get
    match d.cmpTransactions.get txnId with
    | none => raise (.attribute "no transaction")
    | some txn => deliver env ca req sender txnId txn (some id)
  | .job _ => raise (.attribute "'AdcsJob' object has no attribute 'pem'")

theorem enrolled_eq (ca : ℕ × CertificateAuthority) (req : CmpRequest) (sender : Sender) (app : ℕ × App) (reqId : ℤ)
    (outcome : Outcome) :
    enrolled env ca req sender app reqId outcome = (do
      let txnId ← openTransaction sender app.1 req.txid reqId (replyKind req.body)
      opened env ca req sender app txnId outcome) := by
  cases outcome <;> rfl

theorem onward_opened (hW : Admits W) (hC : Converses opens W) (ca : ℕ × CertificateAuthority) (sender : Sender)
    (app : ℕ × App) (txnId : ℕ) (outcome : Outcome) :
    Onward W (opened env ca req sender app txnId outcome) := by
  cases outcome with
  | approval approvalId =>
    refine onward_bind (Calm.onward (calm_setTxn hC _ fun t => ⟨rfl, rfl, rfl⟩)) fun _ => ?_
    refine onward_bind (hW.record (by decide)).onward fun _ => onward_bind Tx.onward_commit fun _ => ?_
    exact (calm_pure _).onward
  | certificate id =>
    refine Tx.onward_get_bind fun d => ?_
    split
    · exact (Tx.calm_throw _).onward
    · exact onward_deliver hW hC _ _ _ _ _ _
  | job id => exact (Tx.calm_throw _).onward

theorem does_enrolled (hW : Admits W) (hC : Converses opens W) {sender : Sender}
    (ho : ∀ t, t.transactionId = req.txid → opener t = some sender.credential → opens t) (ca : ℕ × CertificateAuthority)
    (app : ℕ × App) (reqId : ℤ) (outcome : Outcome) : Does W (enrolled env ca req sender app reqId outcome) := by
  rw [enrolled_eq]
  exact does_bind (calm_openTransaction hC ho _ _ _).does fun _ => (onward_opened hW hC _ _ _ _ _).does

/-- an enrollment writes nothing before it requests the certificate -/
theorem handleEnrollment_doesAt (hW : Admits W) (hC : Converses opens W) {prot : Protection} {s : Session Db}
    (ho : ∀ t, t.transactionId = req.txid → opener t = some prot.sender.credential → opens t)
    (hrequest : ∀ previous, updatedBy req.body prot.sender = .ok previous → ∀ actor appId r,
      r.previous = previous.map Prod.fst → DoesAt W s (requestCertificate env actor appId r))
    (ca : ℕ × CertificateAuthority) : DoesAt W s (handleEnrollment env w ca req prot) := by
  unfold handleEnrollment
  refine Tx.doesAt_ofExcept_bind fun previous hprevious => Tx.doesAt_ofExcept_bind fun r _ => ?_
  refine Tx.doesAt_ofExcept_bind fun app _ => ?_
  refine doesAt_bind (m := Tx.attempt _) (hrequest previous hprevious _ _ _ rfl) fun result s' _ => ?_
  have hreject : ∀ {actor : String} {details : List (String × Json)} {reply : Reply}, Does W
      (do record env actor "certificate.rejected" app.2.name details; Tx.commit; pure reply : M Reply) :=
    does_bind (hW.record (by decide)).does fun _ => does_bind Tx.does_commit fun _ => (calm_pure _).does
  dsimp only
  split
  · exact does_enrolled hW hC ho _ _ _ _ s'
  · exact hreject s'
  · exact hreject s'
  · exact (Tx.calm_throw _).does s'

theorem does_handleEnrollment {d : Db} {prot : Protection} (h : Allows env g d req prot.sender)
    (hb : req.body.enrolls = true) (ca : ℕ × CertificateAuthority) :
    Does (Write env g) (handleEnrollment env w ca req prot) := by
  refine fun s => handleEnrollment_doesAt admits_write (converses_write h.advances) h.opens
    (fun previous hprevious actor appId r hr => ?_) ca
  refine does_requestCertificate (h.adds hb) (fun prev hprev => ?_) actor appId s
  obtain ⟨p, rfl, rfl⟩ := Option.map_eq_some_iff.1 (hr.symm.trans hprev)
  exact h.replaces p hprevious

/-! ## Confirmation, polling and revocation -/

/-- the row a message's transaction is -/
theorem transactionIn_ok {d : Db} {txid : String} {status : CmpStatus} {text : String} {id : ℕ} {t : CmpTransaction}
    (h : transactionIn d txid status text = .ok (id, t)) :
    d.cmpTransactions.get id = some t ∧ t.transactionId = txid ∧ t.status = status := by
  unfold transactionIn at h
  obtain ⟨found, hfound, h⟩ := except_bind_ok.1 h
  split at h
  · cases h
  · split at h
    · cases h
    · next hst =>
      cases h
      obtain ⟨hget, htxid⟩ := oneOrNone_some hfound
      exact ⟨hget, by simpa using htxid, not_not.1 hst⟩

/-- the certificate of a message's transaction -/
def OfTransaction (d : Db) (txid : String) (i : ℕ) : Prop :=
  ∃ id t, d.cmpTransactions.get id = some t ∧ t.transactionId = txid ∧ t.certificateId = some i

theorem handleCertConf_doesAt (hW : Admits W) (hC : Converses opens W) {statuses : List CertStatusItem} {s : Session Db}
    (hrevoke : ∀ i, OfTransaction s.work req.txid i → ∀ actor, Calm W (revoke env actor i "cessation_of_operation" none)) :
    DoesAt W s (handleCertConf env w req statuses) := by
  unfold handleCertConf
  refine Tx.doesAt_get_bind (Tx.doesAt_ofExcept_bind fun r ht => ?_)
  obtain ⟨txnId, txn⟩ := r
  obtain ⟨hget, htxid, -⟩ := transactionIn_ok ht
  dsimp only
  split
  · exact (Tx.calm_throw _).does s
  next id row hrow =>
  have hid : txn.certificateId = some id := by
    cases hc : txn.certificateId with
    | none => simp [hc] at hrow
    | some i =>
      simp only [hc, Option.bind_some, Option.map_eq_some_iff, Prod.mk.injEq] at hrow
      obtain ⟨_, -, rfl, -⟩ := hrow
      rfl
  refine Tx.does_ofExcept_bind (fun cert _ => Tx.does_ofExcept_bind fun accepted _ => ?_) s
  have hdone : Does W (do Tx.commit; pure Reply.pkiConf : M Reply) :=
    does_bind Tx.does_commit fun _ => (calm_pure _).does
  split
  · refine does_bind (Calm.does (calm_setTxn hC _ fun t => ⟨rfl, rfl, rfl⟩)) fun _ => ?_
    exact does_bind (hW.record (by decide)).does fun _ => hdone
  · refine does_bind (Calm.does (calm_setTxn hC _ fun t => ⟨rfl, rfl, rfl⟩)) fun _ => ?_
    refine does_bind (hrevoke id ⟨txnId, txn, hget, htxid, hid⟩ _).does fun _ => ?_
    exact does_bind (hW.record (by decide)).does fun _ => hdone

theorem does_handlePoll (hW : Admits W) (hC : Converses opens W) (ca : ℕ × CertificateAuthority) (prot : Protection) :
    Does W (handlePoll env ca req prot) := by
  unfold handlePoll
  refine does_get_bind fun d => Tx.does_ofExcept_bind fun t _ => ?_
  dsimp only
  split
  · refine does_bind (Calm.does (calm_setTxn hC _ fun t => ⟨rfl, rfl, rfl⟩)) fun _ => ?_
    exact does_bind Tx.does_commit fun _ => (Tx.calm_throw _).does
  split
  · exact does_bind Tx.does_commit fun _ => (calm_pure _).does
  split
  · refine does_bind (Calm.does (calm_setTxn hC _ fun t => ⟨rfl, rfl, rfl⟩)) fun _ => ?_
    exact does_bind Tx.does_commit fun _ => (calm_pure _).does
  · exact Tx.does_ofExcept_bind fun certId _ => (onward_deliver hW hC _ _ _ _ _ _).does

/-- the reason an rr asks for -/
def reasonOf (det : RevDetails) : String :=
  match det.reasonCode with
  | some code => (REASON_CODES.lookup code).getD "unspecified"
  | none => "unspecified"

/-- the rows an rr names may be revoked, for its reason -/
def Revokes (env : Env) (W : Db → Db → Prop) (det : RevDetails) : Prop :=
  ∀ (s : Session Db) id c n, s.work.certificates.get id = some c → det.serialNumber = some n → c.serialHex = hex n →
    ∀ actor, CalmAt W s (revoke env actor id (reasonOf det) none)

theorem calm_revokeOne {det : RevDetails} (hr : Revokes env W det) (row : Certificate) (appId : ℕ) :
    Calm W (revokeOne env row appId det) := by
  unfold revokeOne
  split
  · exact calm_pure _
  next n hn =>
  intro s
  refine Tx.calmAt_get_bind ?_
  split
  · exact calm_pure _ s
  next id c hfirst =>
  obtain ⟨hget, hp⟩ := Table.first_some hfirst
  have hserial : c.serialHex = hex n := by
    simp only [Bool.and_eq_true, decide_eq_true_eq] at hp
    exact hp.1.1
  split
  · exact calm_pure _ s
  · exact calmAt_bind (hr s id c n hget hn hserial _) fun _ s' _ => calm_pure _ s'

theorem calm_revokeEach {details : List RevDetails} (hr : ∀ det ∈ details, Revokes env W det) (row : Certificate)
    (appId : ℕ) : Calm W (revokeEach env row appId details) := by
  induction details with
  | nil => exact calm_pure _
  | cons det rest ih =>
    have ih := ih fun a ha => hr a (List.mem_cons_of_mem _ ha)
    exact calm_bind (calm_revokeOne (hr det List.mem_cons_self) _ _) fun st => calm_bind ih fun sts => calm_pure _

theorem does_handleRr {details : List RevDetails} (hr : ∀ det ∈ details, Revokes env W det) (prot : Protection) :
    Does W (handleRr env prot details) := by
  unfold handleRr
  split
  · exact (Tx.calm_throw _).does
  refine Tx.does_ofExcept_bind fun app _ => does_bind (calm_revokeEach hr _ _).does fun out => ?_
  exact does_bind Tx.does_commit fun _ => (calm_pure _).does

/-! ## One message -/

theorem answer_doesAt_of (hW : Admits W) (hC : Converses opens W) {prot : Protection} {s : Session Db}
    (hconf : ∀ statuses, req.body = .certConf statuses → ∀ i, OfTransaction s.work req.txid i →
      ∀ actor, Calm W (revoke env actor i "cessation_of_operation" none))
    (hrr : ∀ details, req.body = .rr details → ∀ det ∈ details, Revokes env W det)
    (henroll : req.body.enrolls = true → ∀ ca s', responder env s = (.ok ca, s') →
      DoesAt W s' (handleEnrollment env w ca req prot)) :
    DoesAt W s (answer env w req prot) := by
  unfold answer
  refine doesAt_bind (calm_responder_of hW.setCa s).does fun ca s' hs' => ?_
  have htxns : s'.work.cmpTransactions = s.work.cmpTransactions := by
    obtain ⟨t, ht⟩ := @responder_work env s
    rw [hs'] at ht
    exact (congrArg Db.cmpTransactions ht :)
  cases hb : req.body with
  | certConf statuses =>
    refine handleCertConf_doesAt hW hC fun i hi => hconf statuses hb i ?_
    unfold OfTransaction at hi ⊢
    rwa [htxns] at hi
  | pollReq => exact does_handlePoll hW hC _ _ s'
  | rr details => exact does_handleRr (hrr details hb) _ s'
  | genm => exact does_bind (calm_responderChain_of _).does (fun _ => (calm_pure _).does) s'
  | other name => exact (Tx.calm_throw _).does s'
  | ir msgs => exact henroll (by rw [hb]; rfl) _ _ hs'
  | cr msgs => exact henroll (by rw [hb]; rfl) _ _ hs'
  | kur msgs => exact henroll (by rw [hb]; rfl) _ _ hs'
  | p10cr csr => exact henroll (by rw [hb]; rfl) _ _ hs'

theorem answer_doesAt {prot : Protection} {s : Session Db}
    (hrevokes : ∀ i x, MayRevoke s.work req i x → g.revokes i x) (ha : ∀ i, g.advances i)
    (henroll : req.body.enrolls = true → ∀ ca s', responder env s = (.ok ca, s') →
      DoesAt (Write env g) s' (handleEnrollment env w ca req prot)) :
    DoesAt (Write env g) s (answer env w req prot) := by
  refine answer_doesAt_of admits_write (converses_write ha) (fun statuses hb i hi actor => ?_) (fun details hb det hdet => ?_)
    henroll
  · refine calm_revoke (fun x => hrevokes i x ?_) _ _ _
    rw [MayRevoke, hb]
    exact hi
  · intro s' id c n hget hn hserial actor
    refine calmAt_revoke (fun c' hc' => hrevokes id _ ?_) _ _ _
    obtain rfl := Option.some.inj (hget.symm.trans hc')
    rw [MayRevoke, hb]
    exact ⟨det, hdet, n, hn, hserial⟩

end Messages

/-- dispatching a message does what its answer does, if it is authenticated -/
theorem dispatch_doesAt {W : Db → Db → Prop} {req : CmpRequest} {s : Session Db}
    (h : ∀ prot, authenticate env w s.work req = .ok prot → DoesAt W s (answer env w req prot))
    (label : Option String) : DoesAt W s (dispatch env w req label) := by
  unfold dispatch
  refine Tx.doesAt_get_bind (Tx.doesAt_ofExcept_bind fun prot hprot => ?_)
  split
  · refine Tx.doesAt_ofExcept_bind fun app _ => ?_
    split
    · exact Calm.does (Tx.calm_throw _) s
    · exact h prot hprot
  · exact h prot hprot

theorem doesAt_dispatch {req : CmpRequest} {s : Session Db}
    (h : ∀ prot, authenticate env w s.work req = .ok prot → Allows env g s.work req prot.sender) (label : Option String) :
    DoesAt (Write env g) s (dispatch env w req label) := by
  refine dispatch_doesAt (fun prot hprot => ?_) label
  have hallows := h prot hprot
  exact answer_doesAt hallows.revokes hallows.advances fun hb ca s' _ => does_handleEnrollment hallows hb ca s'

/-- `handle` around the rest of a message: a failure is rolled back, recorded and answered -/
def guarded (env : Env) (req : CmpRequest) (m : M Reply) : M (Except (ℕ × String) Reply) := do
  let answer ← Tx.attempt m
  match answer with
  | .ok reply => pure (.ok reply)
  | .error e =>
    Tx.rollback
    record env "cmp" "cmp.error" (cut 32 req.txid) [("body", .str req.body.name), ("reason", .str (cmpError e).2)]
    Tx.commit
    let _ ← responder env
    pure (.error (cmpError e))

theorem handle_eq (req : CmpRequest) (label : Option String) :
    handle env w req label = guarded env req (dispatch env w req label) := rfl

/-- what a failed message adds to what its handler committed: an event, and the CA's response certificate -/
theorem doesAt_guarded {W : Db → Db → Prop}
    (hcas : ∀ d id f, (∀ ca, KeepsCrl ca (f ca)) → W d { d with cas := d.cas.update id f })
    (hlog : ∀ d e, e.action ≠ "certificate.revoke" → W d { d with audit := d.audit ++ [e] }) {req : CmpRequest}
    {m : M Reply} {s : Session Db} (h : DoesAt W s m) : DoesAt W s (guarded env req m) := by
  unfold guarded
  refine doesAt_bind (m := Tx.attempt m) h fun result s' _ => ?_
  split
  · exact (calm_pure _).does s'
  · refine does_bind Tx.does_rollback (fun _ => does_bind ?_ fun _ => ?_) s'
    · exact Calm.does (calm_modify fun d => hlog d _ (show "cmp.error" ≠ "certificate.revoke" by decide))
    · exact does_bind Tx.does_commit fun _ => does_bind (calm_responder_of hcas).does fun _ => (calm_pure _).does

/-- **What a CMP message writes**: what its sender is allowed. -/
theorem doesAt_handle {req : CmpRequest} {s : Session Db}
    (h : ∀ prot, authenticate env w s.work req = .ok prot → Allows env g s.work req prot.sender) (label : Option String) :
    DoesAt (Write env g) s (handle env w req label) :=
  doesAt_guarded (fun _ _ _ _ => .frame _ _ rfl rfl rfl rfl rfl) .event (doesAt_dispatch h label)

end Rules

end Certadillo.Cmp
