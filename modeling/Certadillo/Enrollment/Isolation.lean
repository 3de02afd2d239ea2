/-
Isolation of CMP transactions: which credential may confirm, reject or collect what another message asked for.

A transaction row names the credential that opened it, the MAC secret's row or the signer's certificate, and no message
changes that. But certConf and pollReq look the transaction up by its identifier alone: whoever is authenticated, by a
credential of any app, acts on it.

- `step_opened`, `run_opened`: a transaction's row names the credential that authenticated the message that opened it.
- `handle_spares`: a certConf or pollReq that is not due leaves transactions and certificates alone.
- `transactions_isolated`: in runs where the messages that are due come from the opener, only the opener's are acted on.
- `other_tenant_rejects`: an app's certificate is revoked by another app's certConf.
-/
import Certadillo.Runs

namespace Certadillo.Cmp

open Integrity Policy Py Platform Relation Machine
open Tx (Calm CalmAt Does DoesAt calmAt_get_bind doesAt_get_bind does_bind calm_pure)

/-! ## One message -/

section Messages

variable {env : Env} {w : Wire} {d : Db} {s : Session Db} {req : CmpRequest} {label : Option String} {id : ℕ}
  {t : CmpTransaction}

/-- a certConf or a pollReq -/
def Body.concludes : Body → Bool
  | .certConf _ | .pollReq => true
  | _ => false

/-- the transactions and the certificates are left as they are -/
def Spares (a b : Db) : Prop := b.cmpTransactions = a.cmpTransactions ∧ b.certificates = a.certificates

/-- the transaction is in the state the message is about, and the message can be acted on -/
def Due (env : Env) (w : Wire) (d : Db) (req : CmpRequest) (t : CmpTransaction) : Prop :=
  match req.body with
  | .certConf statuses =>
    t.status = .waitingConf ∧
      ∃ i row cert accepted, t.certificateId = some i ∧ d.certificates.get i = some row ∧
        CAService.loadPem env row.pem = .ok cert ∧ confirmed w cert statuses = .ok accepted
  | .pollReq =>
    t.status = .pending ∧
      ∀ a, ((t.approvalId.bind d.approvals.get).filter fun a => verify env.st a) = some a → a.status ≠ .pending
  | _ => False

/-- the endpoint's label is the name of the sender's app, or there is none -/
def Labelled (prot : Protection) (label : Option String) : Prop :=
  ∀ name, label.filter (· ≠ "") = some name → ∃ app, prot.app = some app ∧ app.2.name = name

theorem appOfSender_ok {prot : Protection} {app : ℕ × App} (h : appOfSender prot = .ok app) : prot.app = some app := by
  unfold appOfSender at h
  split at h
  · next a ha => exact Except.ok.inj h ▸ ha
  · cases h

theorem labelled_of {prot : Protection} {app : ℕ × App} {name : String} (hname : label.filter (· ≠ "") = some name)
    (happ : appOfSender prot = .ok app) (heq : app.2.name = name) : Labelled prot label := by
  intro name' hname'
  obtain rfl : name = name' := Option.some.inj (hname.symm.trans hname')
  exact ⟨app, appOfSender_ok happ, heq⟩

/-- the transaction a message finds is the one with its identifier -/
theorem transactionIn_unique {txid text : String} {status : CmpStatus} {r : ℕ × CmpTransaction}
    (h : transactionIn d txid status text = .ok r) (hget : d.cmpTransactions.get id = some t)
    (htxid : t.transactionId = txid) : r = (id, t) := by
  unfold transactionIn at h
  obtain ⟨found, hfound, h⟩ := except_bind_ok.1 h
  obtain rfl := oneOrNone_ok hfound hget (by simpa using htxid)
  dsimp only at h
  split at h
  · cases h
  · cases h
    rfl

theorem handleCertConf_spares {statuses : List CertStatusItem} (hbody : req.body = .certConf statuses)
    (hget : s.work.cmpTransactions.get id = some t) (htxid : t.transactionId = req.txid)
    (hdue : ¬ Due env w s.work req t) : CalmAt Spares s (handleCertConf env w req statuses) := by
  unfold handleCertConf
  refine calmAt_get_bind (Tx.calmAt_ofExcept_bind fun r hr => ?_)
  obtain rfl := transactionIn_unique hr hget htxid
  obtain ⟨-, -, hst⟩ := transactionIn_ok hr
  dsimp only
  split
  · exact Tx.calm_throw _ s
  next i row hrow =>
  refine Tx.calmAt_ofExcept_bind fun cert hcert => Tx.calmAt_ofExcept_bind fun accepted hacc => ?_
  refine absurd ?_ hdue
  rw [Due, hbody]
  cases hc : t.certificateId with
  | none => simp [hc] at hrow
  | some j =>
    simp only [hc, Option.bind_some, Option.map_eq_some_iff, Prod.mk.injEq] at hrow
    obtain ⟨_, hj, rfl, rfl⟩ := hrow
    exact ⟨hst, j, _, cert, accepted, rfl, hj, hcert, hacc⟩

theorem handlePoll_spares {ca : ℕ × CertificateAuthority} {prot : Protection} (hbody : req.body = .pollReq)
    (hget : s.work.cmpTransactions.get id = some t) (htxid : t.transactionId = req.txid)
    (hdue : ¬ Due env w s.work req t) : DoesAt Spares s (handlePoll env ca req prot) := by
  unfold handlePoll
  refine doesAt_get_bind (Tx.doesAt_ofExcept_bind fun r hr => ?_)
  obtain rfl := transactionIn_unique hr hget htxid
  obtain ⟨-, -, hst⟩ := transactionIn_ok hr
  rw [Due, hbody] at hdue
  dsimp only
  split
  · next hnone =>
    exact absurd ⟨hst, fun a ha => by rw [hnone] at ha; cases ha⟩ hdue
  next a ha =>
  split
  · exact does_bind Tx.does_commit (fun _ => (calm_pure _).does) s
  · next hpending =>
    refine absurd ⟨hst, fun a' ha' => ?_⟩ hdue
    rw [ha] at ha'
    cases ha'
    exact hpending

theorem answer_spares {prot : Protection} (hbody : req.body.concludes = true)
    (hget : s.work.cmpTransactions.get id = some t) (htxid : t.transactionId = req.txid)
    (hdue : ¬ Due env w s.work req t) : DoesAt Spares s (answer env w req prot) := by
  unfold answer
  have hresponder : Calm Spares (responder env) := calm_responder_of fun _ _ _ _ => ⟨rfl, rfl⟩
  refine Tx.doesAt_bind (hresponder s).does fun ca s' hs' => ?_
  obtain ⟨cas, hwork⟩ := @responder_work env s
  rw [hs'] at hwork
  have hwork : s'.work = { s.work with cas := cas } := hwork
  have hget' : s'.work.cmpTransactions.get id = some t := by rw [hwork]; exact hget
  have hdue' : ¬ Due env w s'.work req t := by rw [hwork]; exact hdue
  cases hb : req.body with
  | certConf statuses => exact (handleCertConf_spares hb hget' htxid hdue').does
  | pollReq => exact handlePoll_spares hb hget' htxid hdue'
  | _ => simp [hb, Body.concludes] at hbody

/-- a certConf or pollReq that is not due, or not admitted, changes neither a transaction nor a certificate -/
theorem handle_spares (hbody : req.body.concludes = true) (hget : d.cmpTransactions.get id = some t)
    (htxid : t.transactionId = req.txid)
    (h : ∀ prot, authenticate env w d req = .ok prot → Labelled prot label → ¬ Due env w d req t) :
    Spares d (Tx.transact (handle env w req label) d).2 := by
  have hdispatch : DoesAt Spares ⟨d, d⟩ (dispatch env w req label) := by
    unfold dispatch
    refine doesAt_get_bind (Tx.doesAt_ofExcept_bind fun prot hprot => ?_)
    split
    · next name hname =>
      refine Tx.doesAt_ofExcept_bind fun app happ => ?_
      split
      · exact (Tx.calm_throw _ _).does
      · next heq =>
        exact answer_spares hbody hget htxid (h prot hprot (labelled_of hname happ (not_not.1 heq)))
    · next hnone =>
      refine answer_spares hbody hget htxid (h prot hprot fun name' hname' => ?_)
      exact absurd (hnone.symm.trans hname') nofun
  have hhandle : DoesAt Spares ⟨d, d⟩ (handle env w req label) :=
    doesAt_guarded (fun _ _ _ _ => ⟨rfl, rfl⟩) (fun _ _ _ => ⟨rfl, rfl⟩) hdispatch
  refine Tx.reaches_inv (I := fun a => Spares d a) ?_ (Tx.transact_doesAt hhandle) ⟨rfl, rfl⟩
  exact fun a b hab ha => ⟨hab.1.trans ha.1, hab.2.trans ha.2⟩

end Messages

/-! ## Openers -/

section Openers

variable {env : Env} {g : Grant} {d d' : Db} {c : Call} {id : ℕ} {t : CmpTransaction} {k : Credential}

/-- a new row under `id` was opened, and names its opener from then on -/
theorem write_opened (h : Write env g d d')
    (hd : ∀ t, d.cmpTransactions.get id = some t → ∃ t0, g.opens t0 ∧ opener t = opener t0) :
    ∀ t, d'.cmpTransactions.get id = some t → ∃ t0, g.opens t0 ∧ opener t = opener t0 := by
  intro t ht
  cases h with
  | frame _ _ _ _ txns _ => exact hd t (txns ▸ ht)
  | openTxn t1 hg =>
    by_cases hi : id = d.cmpTransactions.next
    · subst hi
      obtain rfl : t1 = t := Option.some.inj ((Table.get_insert_next _ _).symm.trans ht)
      exact ⟨t1, hg, rfl⟩
    · rw [Table.get_insert, if_neg hi] at ht
      exact hd t ht
  | setTxn i f hg hf =>
    by_cases hi : id = i
    · subst hi
      rw [Table.get_update_self, Option.map_eq_some_iff] at ht
      obtain ⟨t1, ht1, rfl⟩ := ht
      obtain ⟨t0, h0, hopener⟩ := hd t1 ht1
      refine ⟨t0, h0, ?_⟩
      rw [← hopener, opener, opener, (hf t1).secretId, (hf t1).senderCertPem]
    · rw [Table.get_update_of_ne _ _ hi] at ht
      exact hd t ht
  | _ => exact hd t ht

/-- a row keeps naming its opener -/
theorem write_opener (h : Write env g d d') (hd : ∃ t, d.cmpTransactions.get id = some t ∧ opener t = some k) :
    ∃ t, d'.cmpTransactions.get id = some t ∧ opener t = some k := by
  obtain ⟨t, ht, hk⟩ := hd
  cases h with
  | frame _ _ _ _ txns _ => exact ⟨t, txns ▸ ht, hk⟩
  | openTxn t1 hg => exact ⟨t, Table.get_insert_of_some ht, hk⟩
  | setTxn i f hg hf =>
    by_cases hi : id = i
    · subst hi
      refine ⟨f t, (Table.get_update_self _ _ _).trans (by rw [ht]; rfl), ?_⟩
      rw [← hk, opener, opener, (hf t).secretId, (hf t).senderCertPem]
    · exact ⟨t, (Table.get_update_of_ne _ _ hi).trans ht, hk⟩
  | _ => exact ⟨t, ht, hk⟩

/-- the call opens transaction `id`, authenticated by the credential `k` -/
def Opens (d : Db) (c : Call) (id : ℕ) (k : Credential) : Prop :=
  d.cmpTransactions.get id = none ∧ (Certadillo.step d c).cmpTransactions.get id ≠ none ∧
    ∃ w req label prot, c.op = .cmp w req label ∧ authenticate c.env w d req = .ok prot ∧ prot.sender.credential = k

theorem step_opened (h0 : d.cmpTransactions.get id = none) (h : (Certadillo.step d c).cmpTransactions.get id = some t) :
    ∃ k, Opens d c id k ∧ opener t = some k := by
  have hopened := Tx.reaches_inv
    (I := fun a => ∀ t, a.cmpTransactions.get id = some t → ∃ t0, (grant d c).opens t0 ∧ opener t = opener t0)
    (fun _ _ => write_opened) (step_writes d c) (fun t ht => absurd (h0.symm.trans ht) nofun)
  obtain ⟨t0, hg, hopener⟩ := hopened t h
  have hsome : (Certadillo.step d c).cmpTransactions.get id ≠ none := by rw [h]; exact nofun
  obtain ⟨env, op⟩ := c
  cases op with
  | cmp w req label =>
    obtain ⟨prot, hprot, -, hk⟩ := hg
    exact ⟨prot.sender.credential, ⟨h0, hsome, w, req, label, prot, rfl, hprot, rfl⟩, hopener.trans hk⟩
  | _ => exact hg.elim

theorem step_opener (h : ∃ t, d.cmpTransactions.get id = some t ∧ opener t = some k) :
    ∃ t, (Certadillo.step d c).cmpTransactions.get id = some t ∧ opener t = some k :=
  Tx.reaches_inv (I := fun a => ∃ t, a.cmpTransactions.get id = some t ∧ opener t = some k)
    (fun _ _ => write_opener) (step_writes d c) h

/-- some call of the run opened transaction `id`, authenticated by the credential `k` -/
def Opened (d : Db) (calls : List Call) (id : ℕ) (k : Credential) : Prop :=
  ∃ before c after, calls = before ++ c :: after ∧ Opens (run Certadillo.step d before) c id k

/-- every transaction a run opened names the credential that opened it -/
theorem run_opened {calls : List Call} (h0 : d.cmpTransactions.get id = none)
    (h : (run Certadillo.step d calls).cmpTransactions.get id = some t) :
    ∃ k, Opened d calls id k ∧ opener t = some k := by
  induction calls generalizing d with
  | nil => exact absurd (h0.symm.trans h) nofun
  | cons c calls ih =>
    rcases hget : (Certadillo.step d c).cmpTransactions.get id with _ | t1
    · obtain ⟨k, ⟨before, c', after, he, hopens⟩, hk⟩ := ih hget h
      exact ⟨k, ⟨c :: before, c', after, by rw [he]; rfl, hopens⟩, hk⟩
    · obtain ⟨k, hopens, hk⟩ := step_opened h0 hget
      obtain ⟨t2, ht2, hk2⟩ := run_keeps (I := fun a : Db => ∃ t, a.cmpTransactions.get id = some t ∧ opener t = some k)
        (fun _ _ h => step_opener h) ⟨t1, hget, hk⟩ calls
      obtain rfl : t2 = t := Option.some.inj (ht2.symm.trans h)
      exact ⟨k, ⟨[], c, calls, rfl, hopens⟩, hk2⟩

end Openers

/-! ## Runs -/

/-- a certConf or pollReq that is due comes from the credential that opened its transaction -/
def FromOpener (d : Db) (c : Call) : Prop :=
  ∀ w req label prot id t, c.op = .cmp w req label → authenticate c.env w d req = .ok prot → Labelled prot label →
    d.cmpTransactions.get id = some t → t.transactionId = req.txid → Due c.env w d req t →
    opener t = some prot.sender.credential

/-- the call changes the transaction's row, or the row of its certificate -/
def ActsOn (d : Db) (c : Call) (id : ℕ) (t : CmpTransaction) : Prop :=
  (Certadillo.step d c).cmpTransactions.get id ≠ some t ∨
    ∃ i, t.certificateId = some i ∧ (Certadillo.step d c).certificates.get i ≠ d.certificates.get i

theorem actsOn_due {d : Db} {c : Call} {w : Wire} {req : CmpRequest} {label : Option String} {id : ℕ}
    {t : CmpTransaction} (hop : c.op = .cmp w req label) (hbody : req.body.concludes = true)
    (hget : d.cmpTransactions.get id = some t) (htxid : t.transactionId = req.txid) (h : ActsOn d c id t) :
    ∃ prot, authenticate c.env w d req = .ok prot ∧ Labelled prot label ∧ Due c.env w d req t := by
  by_contra hnone
  have hspares : Spares d (Certadillo.step d c) := by
    obtain ⟨env, op⟩ := c
    obtain rfl : op = .cmp w req label := hop
    exact handle_spares hbody hget htxid fun prot hprot hlabel hdue => hnone ⟨prot, hprot, hlabel, hdue⟩
  rcases h with htxn | ⟨i, -, hcert⟩
  · exact htxn (hspares.1 ▸ hget)
  · exact hcert (by rw [hspares.2])

/-- **CMP transactions are isolated** in runs where every certConf and pollReq that is due comes from the opener: only a
message authenticated by the credential that opened a transaction acts on it. -/
theorem transactions_isolated {d0 : Db} (h0 : ∀ id, d0.cmpTransactions.get id = none) {calls : List Call}
    (hC : Along Certadillo.step FromOpener d0 calls) (before after : List Call) (c : Call)
    (hcalls : calls = before ++ c :: after) {w : Wire} {req : CmpRequest} {label : Option String}
    (hop : c.op = .cmp w req label) (hbody : req.body.concludes = true) {id : ℕ} {t : CmpTransaction}
    (hget : (run Certadillo.step d0 before).cmpTransactions.get id = some t) (htxid : t.transactionId = req.txid) :
    ∃ k, Opened d0 before id k ∧
      (ActsOn (run Certadillo.step d0 before) c id t →
        ∃ prot, authenticate c.env w (run Certadillo.step d0 before) req = .ok prot ∧ prot.sender.credential = k) := by
  obtain ⟨k, hopened, hk⟩ := run_opened (h0 id) hget
  refine ⟨k, hopened, fun hacts => ?_⟩
  obtain ⟨prot, hprot, hlabel, hdue⟩ := actsOn_due hop hbody hget htxid hacts
  have hfrom := (along_iff_split _ _).1 hC before c after hcalls
  have hcred := hfrom w req label prot id t hop hprot hlabel hget htxid hdue
  exact ⟨prot, hprot, Option.some.inj (hcred.symm.trans hk)⟩

/-! ### Another app's certConf -/

section Examples

/-- two apps, each with a shared secret, and the CA that issues for them -/
def tenantsDb : Db :=
  { Db.empty with
    apps := (Table.empty.insert (inserted demoState (demoApp "web"))).insert
      (inserted demoState { demoApp "web" with name := "hr", allowedDomains := ["hr.corp.example"] })
    cmpSecrets := (Table.empty.insert ⟨"crm", "crm-secret", 1, 2000, false⟩).insert ⟨"hr", "hr-secret", 2, 2000, false⟩
    cas := Table.empty.insert ⟨"issuing", none, "ca-pem", "file:ca", "file", false, 0, none, none, none, none, none, none,
      none, none, none, none⟩ }

/-- a MAC verifies under the secret it names -/
def demoWire : Wire :=
  ⟨.ok, fun secret req => req.protection = some secret, fun _ _ => false, fun _ _ => true, fun c => .ok c.fingerprint⟩

/-- a certificate the demo CA signed -/
def demoLeaf (serial : ℕ) (pem fingerprint : String) : X509Cert :=
  ⟨{ demoCaCert.tbs with serialNumber := serial, ca := false }, ⟨pem, fingerprint, "1.2.840.10045.4.3.2", some "sha256"⟩, false⟩

/-- what the demo CA signs can be read back: the app's certificate and the one that signs CMP responses -/
def demoMessageEnv : Env :=
  { demoEnv with
    loadPemCert := fun pem =>
      if pem = "pem-16" then some (demoLeaf 16 "pem-16" "fp-16")
      else if pem = "pem-18" then some (demoLeaf 18 "pem-18" "fp-18")
      else demoEnv.loadPemCert pem }

def demoMessage (secret : String) (body : Body) : Call :=
  ⟨demoMessageEnv, .cmp demoWire ⟨body, "aa", secret, some PBM, .ok ⟨"2.16.840.1.101.3.4.2.1", "1.2.840.113549.2.9", 1000⟩,
    some (secret ++ "-secret"), [], false⟩ none⟩

/-- the first app enrolls, and its certificate waits for confirmation -/
def enrolls : Call :=
  demoMessage "crm" (.ir [⟨0, some (.ok (demoKey "web-key")), some (.ok ["www.corp.example"]),
    some (.ok (some ⟨["www.corp.example"], [], [], [], []⟩)), .signature false "1.2.840.10045.4.3.2" "sig"⟩])

/-- a certConf without statuses refuses the certificate -/
def refuses (secret : String) : Call := demoMessage secret (.certConf [])

/-- the credential a call of the demo is authenticated by -/
def authenticatedBy (d : Db) (c : Call) : Option Credential :=
  match c.op with
  | .cmp w req _ => (authenticate c.env w d req).toOption.map (·.sender.credential)
  | _ => none

theorem authenticatedBy_ok {d : Db} {c : Call} {w : Wire} {req : CmpRequest} {label : Option String} {prot : Protection}
    (hop : c.op = .cmp w req label) (h : authenticate c.env w d req = .ok prot) :
    authenticatedBy d c = some prot.sender.credential := by
  simp only [authenticatedBy, hop, h]
  rfl

/-- the app's own refusal comes from the opener -/
theorem own_refusal_isolated :
    ∃ t k, (run Certadillo.step tenantsDb [enrolls]).cmpTransactions.get 1 = some t ∧ Opened tenantsDb [enrolls] 1 k ∧
      (ActsOn (run Certadillo.step tenantsDb [enrolls]) (refuses "crm") 1 t →
        authenticatedBy (run Certadillo.step tenantsDb [enrolls]) (refuses "crm") = some k) := by
  have hrow : ((run Certadillo.step tenantsDb [enrolls]).cmpTransactions.get 1).isSome = true := by decide
  obtain ⟨t, ht⟩ := Option.isSome_iff_exists.1 hrow
  have htxid : ((run Certadillo.step tenantsDb [enrolls]).cmpTransactions.get 1).map (·.transactionId) = some "aa" := by
    decide
  rw [ht, Option.map_some, Option.some.injEq] at htxid
  have hopeners : ∀ p ∈ (run Certadillo.step tenantsDb [enrolls]).cmpTransactions.rows,
      opener p.2 = authenticatedBy (run Certadillo.step tenantsDb [enrolls]) (refuses "crm") := by decide
  have hC : Along Certadillo.step FromOpener tenantsDb [enrolls, refuses "crm"] := by
    refine ⟨?_, ?_, trivial⟩
    · intro w req label prot id t hop _ _ _ _ hdue
      cases hop
      exact hdue.elim
    · intro w req label prot id t' hop hprot _ hget _ _
      rw [← authenticatedBy_ok hop hprot]
      exact hopeners (id, t') (Table.mem_rows.2 hget)
  obtain ⟨k, hopened, hacts⟩ := transactions_isolated (fun _ => rfl) hC [enrolls] [] (refuses "crm") rfl rfl rfl ht htxid
  refine ⟨t, k, ht, hopened, fun h => ?_⟩
  obtain ⟨prot, hprot, hk⟩ := hacts h
  rw [authenticatedBy_ok (c := refuses "crm") rfl hprot, hk]

/-- The second app refuses the first one's certificate: it is revoked. -/
theorem other_tenant_rejects :
    ¬ ∀ (before : List Call) (c : Call) (w : Wire) (req : CmpRequest) (label : Option String) (id : ℕ)
      (t : CmpTransaction), c.op = .cmp w req label → req.body.concludes = true →
      (run Certadillo.step tenantsDb before).cmpTransactions.get id = some t → t.transactionId = req.txid →
      ∃ k, Opened tenantsDb before id k ∧
        (ActsOn (run Certadillo.step tenantsDb before) c id t →
          ∃ prot, authenticate c.env w (run Certadillo.step tenantsDb before) req = .ok prot ∧
            prot.sender.credential = k) := by
  intro h
  have hrow : ((run Certadillo.step tenantsDb [enrolls]).cmpTransactions.get 1).isSome = true := by decide
  obtain ⟨t, ht⟩ := Option.isSome_iff_exists.1 hrow
  have htxid : ((run Certadillo.step tenantsDb [enrolls]).cmpTransactions.get 1).map (·.transactionId) = some "aa" := by
    decide
  rw [ht, Option.map_some, Option.some.injEq] at htxid
  obtain ⟨k, ⟨before, c, after, he, -, -, w, req, label, prot, hop, hprot, hk⟩, hacts⟩ :=
    h [enrolls] (refuses "hr") _ _ _ 1 t rfl rfl ht htxid
  have hchanged : ((run Certadillo.step tenantsDb [enrolls, refuses "hr"]).cmpTransactions.get 1).map (·.status) ≠
      ((run Certadillo.step tenantsDb [enrolls]).cmpTransactions.get 1).map (·.status) := by decide
  obtain ⟨prot', hprot', hk'⟩ := hacts (Or.inl fun heq => hchanged (by rw [ht]; exact congrArg _ heq))
  -- the transaction was opened under the first app's secret, the certConf came under the second's
  obtain ⟨rfl, rfl⟩ : before = [] ∧ c = enrolls := by
    cases before with
    | nil => exact ⟨rfl, (List.cons.inj he).1.symm⟩
    | cons b before => simp at he
  have hfirst := authenticatedBy_ok hop hprot
  have hsecond := authenticatedBy_ok (c := refuses "hr") rfl hprot'
  rw [hk, ← hk'] at hfirst
  have hdiffer : authenticatedBy tenantsDb enrolls ≠
      authenticatedBy (run Certadillo.step tenantsDb [enrolls]) (refuses "hr") := by decide
  exact hdiffer (hfirst.trans hsecond.symm)

end Examples

end Certadillo.Cmp
