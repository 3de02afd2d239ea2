/-
What lasts of a revocation: the audit event, under whatever is written to the tables afterwards.

A revoked row may be deleted, restored, duplicated, re-pointed or rewritten. OCSP looks for a row with the serial and the
CA of the request and compares it with the audit trail, so whatever it finds is not good. The CRL is assembled from the
rows, so it keeps a serial only while some row of the CA has it.

- `revoke_ok`: what `Platform.revoke` leaves where it returns.
- `run_recorded`: a recorded revocation stays recorded while the audit trail is intact.
- `never_good`: OCSP never answers GOOD for a serial whose revocation is recorded.
- `crl_keeps_serial`: a CRL lists the serial if some row of the CA still has it; `deleted_row_unlisted` shows that it must.
-/
import Certadillo.Revocation.Ocsp
import Certadillo.Runs
import Certadillo.Services.CrlRaces

namespace Certadillo.Revocation

open Integrity Policy Py Machine Relation

/-! ## One revocation -/

/-- a CA's row apart from the columns of its CRL -/
def withoutCrl (ca : CertificateAuthority) : CertificateAuthority :=
  { ca with crlNumber := 0, crlLastGenerated := none, crlDer := none }

def caRows (d : Db) : List (ℕ × CertificateAuthority) := d.cas.rows.map fun p => (p.1, withoutCrl p.2)

/-- nothing but CRL columns of CAs is written -/
structure OnlyCrls (d d' : Db) : Prop where
  certificates : d'.certificates = d.certificates
  audit : d'.audit = d.audit
  cas : caRows d' = caRows d

theorem OnlyCrls.trans {a b c : Db} (h : OnlyCrls a b) (h' : OnlyCrls b c) : OnlyCrls a c :=
  ⟨h'.certificates.trans h.certificates, h'.audit.trans h.audit, h'.cas.trans h.cas⟩

theorem generateCrl_onlyCrls {env : Env} {caId : ℕ} {hours : ℤ} {s s' : Session Db} {r : Except Err Unit}
    (h : CAService.generateCrl env caId hours s = (r, s')) : OnlyCrls s.work s'.work := by
  have hset : ∀ f : CertificateAuthority → CertificateAuthority, (∀ ca, withoutCrl (f ca) = withoutCrl ca) →
      Tx.Calm OnlyCrls (setPlain Col.cas caId f) := fun f hf => by
    refine Tx.calm_modify fun d => ⟨rfl, rfl, ?_⟩
    exact Table.map_rows_update _ fun ca => by rw [hf]
  have hcalm : Tx.Calm OnlyCrls (CAService.generateCrl env caId hours) := by
    unfold CAService.generateCrl
    refine Tx.calm_get_bind fun d => ?_
    split
    · exact Tx.calm_throw _
    refine Tx.calm_ofExcept_bind fun _ _ => Tx.calm_bind (hset _ fun _ => rfl) fun _ => ?_
    refine Tx.calm_get_bind fun d => Tx.calm_ofExcept_bind fun crl _ => Tx.calm_ofExcept_bind fun signer _ => ?_
    exact Tx.calm_ofExcept_bind fun _ _ => hset _ fun _ => rfl
  have hreach := (hcalm s).2
  rw [h] at hreach
  exact Tx.reaches_inv (I := fun d => OnlyCrls s.work d) (fun _ _ hw hd => hd.trans hw) hreach ⟨rfl, rfl, rfl⟩

/-- what a revocation of row `certId`, as it was stored, leaves -/
structure Revoked (certId : ℕ) (row : Certificate) (d d' : Db) : Prop where
  stored : d.certificates.get certId = some row
  certificates : ∃ f : Certificate → Certificate, d'.certificates = d.certificates.update certId f ∧
    (f row).serialHex = row.serialHex ∧ (f row).caId = row.caId ∧ (f row).status = .revoked
  audit : ∃ e : AuditEvent, d'.audit = d.audit ++ [e] ∧ e.action = "certificate.revoke" ∧ e.target = row.serialHex
  cas : caRows d' = caRows d

/-- marking the row, then whatever keeps it, then the event -/
theorem revoked_of_marked {env : Env} {certId : ℕ} {row : Certificate} {d : Db} {reason actor : String}
    {details : List (String × Json)} {s s' : Session Db} {u : Unit}
    (hget : d.certificates.get certId = some row) (hd : OnlyCrls d s.work)
    (h : (do
      setRow env Col.certificates certId (Platform.markRevoked env reason)
      record env actor "certificate.revoke" row.serialHex details : M Unit) s = (.ok u, s')) :
    Revoked certId row d s'.work := by
  cases h
  refine ⟨hget, ⟨fun c => flushed env.st c (Platform.markRevoked env reason c), ?_, ?_⟩,
    ⟨⟨env.now, actor, "certificate.revoke", row.serialHex, .obj details⟩, ?_, rfl, rfl⟩, hd.cas⟩
  · exact congrArg (fun t : Table Certificate => t.update certId fun c =>
      flushed env.st c (Platform.markRevoked env reason c)) hd.certificates
  · simp [Platform.markRevoked]
  · exact congrArg (· ++ _) hd.audit

theorem revoke_ok {env : Env} {actor : Actor} {certId : ℕ} {reason : String} {changeRef : Option String}
    {s s' : Session Db} {u : Unit} (h : Platform.revoke env actor certId reason changeRef s = (.ok u, s')) :
    ∃ row, Revoked certId row s.work s'.work := by
  unfold Platform.revoke at h
  rw [Tx.get_bind] at h
  obtain ⟨row, s1, h1, h⟩ := Tx.bind_returns.1 h
  obtain ⟨hmay, rfl⟩ := Prod.mk.inj h1
  have hget := Platform.mayRevoke_ok hmay
  refine ⟨row, ?_⟩
  extract_lets -underBinder upstream at h
  split at h
  · obtain ⟨_, s2, h2, h⟩ := Tx.bind_returns.1 h
    cases h2
    refine revoked_of_marked hget ?_ h
    exact ⟨rfl, rfl, rfl⟩
  split at h
  · cases hb : env.getBackend row.backend with
    | none =>
      rw [hb] at h
      cases h
    | some backend =>
      rw [hb] at h
      obtain ⟨_, s2, h2, h⟩ := Tx.bind_returns.1 h
      obtain ⟨-, rfl⟩ := Prod.mk.inj h2
      exact revoked_of_marked hget ⟨rfl, rfl, rfl⟩ h
  · obtain ⟨_, s2, h2, h⟩ := Tx.bind_returns.1 h
    cases hca : row.caId with
    | none =>
      rw [hca] at h
      cases h
    | some caId =>
    rw [hca] at h
    obtain ⟨_, s3, h3, h⟩ := Tx.bind_returns.1 h
    have hcrl := generateCrl_onlyCrls h3
    cases h
    -- the CA's own revocation marks the row, or finds it revoked
    have hmark : s2.work.audit = s.work.audit ∧ s2.work.cas = s.work.cas ∧ ∃ f : Certificate → Certificate,
        s2.work.certificates = s.work.certificates.update certId f ∧
          (f row).serialHex = row.serialHex ∧ (f row).caId = row.caId ∧ (f row).status = .revoked := by
      unfold CAService.revoke at h2
      split_ifs at h2 with h4 h5 h6
      · cases h2
      · cases h2
      · cases h2
        exact ⟨rfl, rfl, id, (Table.update_eq_self fun _ _ => rfl).symm, rfl, rfl, h6⟩
      · cases h2
        exact ⟨rfl, rfl, fun c => flushed env.st c (Platform.markRevoked env reason c), rfl, by simp [Platform.markRevoked],
          by simp [Platform.markRevoked], by simp [Platform.markRevoked]⟩
    obtain ⟨haudit, hcas, f, hcerts, hf⟩ := hmark
    refine ⟨hget, ⟨f, hcrl.certificates.trans hcerts, hf⟩, ⟨⟨env.now, actor.name, "certificate.revoke", row.serialHex,
      .obj [("reason", .str reason), ("change_ref", .ofStr? changeRef)]⟩, ?_, rfl, rfl⟩, ?_⟩
    · exact congrArg (· ++ _) (hcrl.audit.trans haudit)
    · exact hcrl.cas.trans (by unfold caRows; rw [hcas])

/-! ## Afterwards -/

/-- an application call, or any other change of the database: other operations, and SQL writes -/
inductive Event where
  | call (c : Call)
  | outside (write : Db → Db)

def step (d : Db) : Event → Db
  | .call c => Certadillo.step d c
  | .outside write => write d

/-- the change only appends to the audit trail -/
def Intact (d : Db) : Event → Prop
  | .call _ => True
  | .outside write => d.audit <+: (write d).audit

theorem write_audit {env : Env} {g : Grant} {a b : Db} (h : Write env g a b) : a.audit <+: b.audit := by
  cases h with
  | frame _ _ _ log _ _ => exact log ▸ List.prefix_refl _
  | event e _ => exact List.prefix_append _ _
  | revokeEvent e _ _ _ _ _ _ => exact List.prefix_append _ _
  | _ => exact List.prefix_refl _

theorem step_audit {d : Db} {e : Event} (h : Intact d e) : d.audit <+: (step d e).audit := by
  cases e with
  | call c =>
    exact Tx.reaches_inv (I := fun a => d.audit <+: a.audit) (fun a b hw ha => ha.trans (write_audit hw))
      (step_writes d c) (List.prefix_refl _)
  | outside write => exact h

theorem revokedInAudit_prefix {d d' : Db} (h : d.audit <+: d'.audit) {x : String} (hx : revokedInAudit d x = true) :
    revokedInAudit d' x = true := by
  simp only [revokedInAudit, List.any_eq_true] at hx ⊢
  obtain ⟨e, he, htarget⟩ := hx
  exact ⟨e, h.subset he, htarget⟩

/-- a recorded revocation stays recorded -/
theorem run_recorded {d : Db} {x : String} (hx : revokedInAudit d x = true) {events : List Event}
    (hintact : Along step Intact d events) : revokedInAudit (run step d events) x = true :=
  run_inv (I := fun d => revokedInAudit d x = true) (fun _ _ h hi => revokedInAudit_prefix (step_audit hi) h) hx hintact

/-- the CRL `generate_crl` publishes -/
def crlOf (env : Env) (d : Db) (caId : ℕ) (hours : ℤ) : Except Err Crl :=
  match d.cas.get caId with
  | none => .error (.attribute "'NoneType' object has no attribute 'cert_pem'")
  | some ca => do
    let _ ← CAService.loadPem env ca.certPem
    let crl ← CAService.buildCrl env d caId (ca.crlNumber + 1) hours
    let signer ← CAService.signerFor env ca
    libCall .value (env.signCrl signer crl)
    pure crl

theorem generateCrl_run {env : Env} {caId : ℕ} {hours : ℤ} {s : Session Db} :
    match crlOf env s.work caId hours with
    | .error e => (CAService.generateCrl env caId hours s).1 = .error e
    | .ok crl => ∃ s', CAService.generateCrl env caId hours s = (.ok (), s') ∧ storedCrl caId s'.work = some crl := by
  unfold crlOf CAService.generateCrl
  rw [Tx.get_bind]
  cases hca : s.work.cas.get caId with
  | none => rfl
  | some ca =>
  dsimp only
  cases CAService.loadPem env ca.certPem with
  | error e => rfl
  | ok cert =>
  rw [lift_ok_bind, except_ok_bind]
  unfold setPlain
  rw [Tx.modify_bind, Tx.get_bind]
  dsimp only [Col.cas]
  have hbuild : ∀ t, CAService.buildCrl env { s.work with cas := t } caId (ca.crlNumber + 1) hours =
      CAService.buildCrl env s.work caId (ca.crlNumber + 1) hours := fun _ => rfl
  rw [hbuild (s.work.cas.update caId fun ca => { ca with crlNumber := ca.crlNumber + 1 })]
  cases CAService.buildCrl env s.work caId (ca.crlNumber + 1) hours with
  | error e => rfl
  | ok crl =>
  rw [lift_ok_bind, except_ok_bind]
  cases CAService.signerFor env ca with
  | error e => rfl
  | ok signer =>
  rw [lift_ok_bind, except_ok_bind]
  cases libCall Err.value (env.signCrl signer crl) with
  | error e => rfl
  | ok u =>
  refine ⟨_, rfl, ?_⟩
  simp [storedCrl, Table.get_update_self, hca]

/-- a CRL that is generated is the one built over the rows as they are -/
theorem generateCrl_ok {env : Env} {caId : ℕ} {hours : ℤ} {s s' : Session Db} {u : Unit}
    (h : CAService.generateCrl env caId hours s = (.ok u, s')) :
    ∃ crl, crlOf env s.work caId hours = .ok crl ∧ storedCrl caId s'.work = some crl := by
  have hrun := @generateCrl_run env caId hours s
  cases hcrl : crlOf env s.work caId hours with
  | error e =>
    rw [hcrl, h] at hrun
    cases hrun
  | ok crl =>
    rw [hcrl] at hrun
    obtain ⟨s2, hs2, hstored⟩ := hrun
    obtain rfl := (Prod.mk.inj (h.symm.trans hs2)).2
    exact ⟨crl, rfl, hstored⟩

theorem crlOf_built {env : Env} {d : Db} {caId : ℕ} {hours : ℤ} {crl : Crl} (h : crlOf env d caId hours = .ok crl) :
    ∃ number, CAService.buildCrl env d caId number hours = .ok crl := by
  unfold crlOf at h
  split at h
  · cases h
  obtain ⟨_, -, h⟩ := except_bind_ok.1 h
  obtain ⟨crl', hcrl, h⟩ := except_bind_ok.1 h
  obtain ⟨_, -, h⟩ := except_bind_ok.1 h
  obtain ⟨_, -, h⟩ := except_bind_ok.1 h
  cases h
  exact ⟨_, hcrl⟩

section Lasting

variable {env : Env} {actor : Actor} {certId : ℕ} {reason : String} {changeRef : Option String} {d : Db} {row : Certificate}

/-- a committed revocation is recorded under the row's serial -/
theorem revoke_recorded (h : Tx.Returns (Platform.revoke env actor certId reason changeRef) ⟨d, d⟩)
    (hrow : d.certificates.get certId = some row) :
    revokedInAudit (Tx.transact (Platform.revoke env actor certId reason changeRef) d).2 row.serialHex = true := by
  obtain ⟨u, s', h⟩ := h
  rw [Tx.transact_snd_of_run h]
  obtain ⟨row', hrevoked⟩ := revoke_ok h
  obtain rfl := Option.some.inj (hrow.symm.trans hrevoked.stored)
  obtain ⟨e, haudit, haction, htarget⟩ := hrevoked.audit
  simp [revokedInAudit, haudit, haction, htarget]

/-- OCSP does not answer GOOD for a serial whose revocation is recorded -/
theorem recorded_not_good {κ : Key} {lib : Ocsp.Lib} (hk : env.st.key = some κ) {n : ℕ}
    (h : revokedInAudit d (hex n) = true) (der : String) (nonce : Option String) :
    (Ocsp.respond env lib der ⟨d, d⟩).1 ≠ .ok (.successful .good n nonce) := by
  intro hgood
  rw [Ocsp.respond_fst] at hgood
  obtain ⟨caId, found, hfound, hanswer⟩ := Ocsp.answerTo_successful hgood
  obtain ⟨c, hc, htrusted⟩ := Ocsp.certAnswer_good hanswer
  obtain ⟨p, rfl, rfl⟩ := Option.map_eq_some_iff.1 hc
  have hasks := (oneOrNone_some hfound).2
  have hserial : p.2.serialHex = hex n := by
    simp only [Ocsp.asks, Bool.and_eq_true, decide_eq_true_eq] at hasks
    rw [hasks.1, Ocsp.hexInt_natCast]
  apply htrusted
  by_cases hst : p.2.status = .revoked
  · simp [trustedStatus, hst]
  · simp [trustedStatus, hst, hk, hserial, h]

/-- **Revocation is permanent at OCSP**: once the revocation of a certificate is committed, no later state with its audit
trail intact has a responder answer GOOD for its serial, under any issuer. -/
theorem never_good {st : SealState} {κ : Key} (hk : st.key = some κ)
    (h : Tx.Returns (Platform.revoke env actor certId reason changeRef) ⟨d, d⟩)
    (hrow : d.certificates.get certId = some row) {n : ℕ} (hserial : row.serialHex = hex n) {events : List Event}
    (hintact : Along step Intact (Tx.transact (Platform.revoke env actor certId reason changeRef) d).2 events)
    (env' : Env) (hst : env'.st = st) (lib : Ocsp.Lib) (der : String) (nonce : Option String) :
    let now := run step (Tx.transact (Platform.revoke env actor certId reason changeRef) d).2 events
    (Ocsp.respond env' lib der ⟨now, now⟩).1 ≠ .ok (.successful .good n nonce) := by
  have hrecorded := run_recorded (revoke_recorded h hrow) hintact
  rw [hserial] at hrecorded
  exact recorded_not_good (by rw [hst]; exact hk) hrecorded der nonce

/-- **A CRL lists the serial of every recorded revocation** that some row of the CA still has. -/
theorem crl_keeps_serial (h : Tx.Returns (Platform.revoke env actor certId reason changeRef) ⟨d, d⟩)
    (hrow : d.certificates.get certId = some row) {caId : ℕ} {events : List Event}
    (hintact : Along step Intact (Tx.transact (Platform.revoke env actor certId reason changeRef) d).2 events) :
    let now := run step (Tx.transact (Platform.revoke env actor certId reason changeRef) d).2 events
    ∀ (env' : Env) (hours : ℤ) (s' : Session Db), CAService.generateCrl env' caId hours ⟨now, now⟩ = (.ok (), s') →
      (∃ i left, now.certificates.get i = some left ∧ left.caId = some caId ∧ left.serialHex = row.serialHex) →
        ∃ crl, storedCrl caId s'.work = some crl ∧ Lists crl row.serialHex := by
  rintro now env' hours s' hcrl ⟨i, left, hleft, hca, hserial⟩
  have hrecorded : revokedInAudit now row.serialHex = true := run_recorded (revoke_recorded h hrow) hintact
  obtain ⟨crl, hcrlOf, hstored⟩ := generateCrl_ok hcrl
  obtain ⟨number, hbuilt⟩ := crlOf_built hcrlOf
  refine ⟨crl, hstored, ?_⟩
  rw [← hserial] at hrecorded ⊢
  exact buildCrl_lists hbuilt ((CAService.mem_crlRows hleft).2 ⟨hca, Or.inr (Or.inr hrecorded)⟩)

end Lasting

/-! ### A deleted and a restored row -/

section Examples

/-- a CA that answers OCSP, and two certificates it issued -/
def answeringDb : Db :=
  { twoIssued with
    cas := Table.empty.insert ⟨"issuing", none, "ca-pem", "file:ca", "file", false, 0, none, none, some "ca-pem",
      some "file:ocsp", none, none, none, none, none, none⟩ }

def olga : Actor := ⟨"olga", .operator, none⟩

/-- the database after the first certificate is revoked -/
def revokedDb : Db := (Tx.transact (Platform.revoke demoEnv olga 1 "key_compromise" none) answeringDb).2

/-- an SQL write to the certificates table -/
def sql (t : Table Certificate) : Event := .outside fun d => { d with certificates := t }

theorem sql_intact (d : Db) (t : Table Certificate) : Intact d (sql t) := List.prefix_refl _

theorem answering_returns : Tx.Returns (Platform.revoke demoEnv olga 1 "key_compromise" none) ⟨answeringDb, answeringDb⟩ := by
  decide

/-- the rows as they were before the revocation, with their seals -/
def restored : Event := sql answeringDb.certificates

/-- the responder does not call the restored certificate good -/
theorem restored_not_good :
    (Ocsp.respond demoEnv Ocsp.demoLib "der" ⟨run step revokedDb [restored], run step revokedDb [restored]⟩).1 ≠
      .ok (.successful .good 16 none) := by
  have hkey : demoState.key = some "key" := rfl
  have hrow : answeringDb.certificates.get 1 = some ((answeringDb.certificates.get 1).get (by decide)) :=
    (Option.some_get _).symm
  have hintact : Along step Intact revokedDb [restored] := ⟨sql_intact _ _, trivial⟩
  exact never_good (n := 16) hkey answering_returns hrow (by decide) hintact demoEnv rfl Ocsp.demoLib "der" none

/-- it calls it revoked -/
example : (Ocsp.respond demoEnv Ocsp.demoLib "der" ⟨run step revokedDb [restored], run step revokedDb [restored]⟩).1 =
    .ok (.successful (.revoked 1000 "unspecified") 16 none) := by
  decide

/-- the CRL lists it too -/
theorem restored_listed : ∃ crl, storedCrl 1 (CAService.generateCrl demoEnv 1 24
    ⟨run step revokedDb [restored], run step revokedDb [restored]⟩).2.work = some crl ∧ Lists crl "10" := by
  have hrow : answeringDb.certificates.get 1 = some ((answeringDb.certificates.get 1).get (by decide)) :=
    (Option.some_get _).symm
  have hintact : Along step Intact revokedDb [restored] := ⟨sql_intact _ _, trivial⟩
  refine crl_keeps_serial answering_returns hrow hintact demoEnv 24 _ ?_ ?_
  · rfl
  · exact ⟨1, (answeringDb.certificates.get 1).get (by decide), by decide, by decide, rfl⟩

/-- A deleted row leaves the CRL, though its revocation is recorded. -/
theorem deleted_row_unlisted :
    ¬ ∀ (d : Db) (row : Certificate) (events : List Event),
      Tx.Returns (Platform.revoke demoEnv olga 1 "key_compromise" none) ⟨d, d⟩ → d.certificates.get 1 = some row →
        row.caId = some 1 →
          Along step Intact (Tx.transact (Platform.revoke demoEnv olga 1 "key_compromise" none) d).2 events →
            let now := run step (Tx.transact (Platform.revoke demoEnv olga 1 "key_compromise" none) d).2 events
            ∀ s', CAService.generateCrl demoEnv 1 24 ⟨now, now⟩ = (.ok (), s') →
              ∃ crl, storedCrl 1 s'.work = some crl ∧ Lists crl row.serialHex := by
  intro h
  have hempty : (storedCrl 1 (CAService.generateCrl demoEnv 1 24
      ⟨run step revokedDb [sql Table.empty], run step revokedDb [sql Table.empty]⟩).2.work).map (·.entries) = some [] := by
    decide
  obtain ⟨crl, hcrl, e, he, -⟩ := h answeringDb ((answeringDb.certificates.get 1).get (by decide)) [sql Table.empty]
    answering_returns (Option.some_get _).symm (by decide) ⟨sql_intact _ _, trivial⟩ _ rfl
  obtain ⟨crl', hcrl', hnone⟩ := Option.map_eq_some_iff.1 hempty
  obtain rfl : crl = crl' := Option.some.inj (hcrl.symm.trans hcrl')
  rw [hnone] at he
  cases he

end Examples

end Certadillo.Revocation
