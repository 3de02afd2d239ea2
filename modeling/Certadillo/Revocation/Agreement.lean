/-
The CRL against OCSP.

Both read the same rows. The CRL fails as a whole when one row cannot be an entry, and OCSP fails on a row set to revoked
without a time or with an unknown reason, which the CRL takes.

- `listed_iff`, `answers_iff`: when a CRL lists a serial, and when OCSP answers REVOKED for it.
- `agree_iff`: in which states the two are the same; `undated_disagrees` is a row they differ on.
-/
import Certadillo.Revocation.Lasting

namespace Certadillo.Revocation

open Integrity Policy Py Machine

/-! ## Rows reported as revoked -/

section Reported

variable {st : SealState} {κ : Key} {d : Db} {c : Certificate}

theorem trusted_revoked_iff (hk : st.key = some κ) :
    trustedStatus st d c = .revoked ↔
      c.status = .revoked ∨ verify st c = false ∨ revokedInAudit d c.serialHex = true := by
  unfold trustedStatus
  by_cases hv : verify st c = false
  · simp [hv]
  · by_cases hst : c.status = .revoked
    · simp [hst]
    · by_cases hr : revokedInAudit d c.serialHex = true
      · simp [hv, hst, hr, hk]
      · simp [hv, hst, hr]

/-- the reason a CRL entry of this row carries -/
def shownReason (st : SealState) (r : Certificate) : String :=
  ((if r.status = .revoked && verify st r then r.revocationReason else none).filter (· ≠ "")).getD "unspecified"

/-- the row can be a CRL entry -/
structure Entered (st : SealState) (now : ℤ) (r : Certificate) : Prop where
  serial : ∃ n : ℕ, intOfHex r.serialHex = .ok (n : ℤ) ∧ 0 < n ∧ n < 2 ^ 159
  date : CAService.earliestUtcTime ≤ r.revokedAt.getD now
  reason : shownReason st r ∈ REASONS

theorem crlEntry_returns {now : ℤ} {r : Certificate} :
    (∃ e, CAService.crlEntry st now r = .ok e) ↔ Entered st now r := by
  unfold CAService.crlEntry
  constructor
  · rintro ⟨e, h⟩
    extract_lets -underBinder date ok reason at h
    obtain ⟨n, hn, h⟩ := except_bind_ok.1 h
    split_ifs at h with hpos hbig hdate hreason
    have hnat : n = (n.toNat : ℤ) := by omega
    have hmem : reason ∈ REASONS := by simpa using hreason
    exact ⟨⟨n.toNat, hnat ▸ hn, by omega, by omega⟩, not_lt.1 hdate, hmem⟩
  · rintro ⟨⟨n, hn, hpos, hbig⟩, hdate, hreason⟩
    refine ⟨⟨n, r.revokedAt.getD now, shownReason st r⟩, ?_⟩
    extract_lets -underBinder date ok reason
    have hmem : reason ∈ REASONS := hreason
    rw [hn, except_ok_bind, if_neg (by omega), if_neg (by simpa using hbig), if_neg (not_lt.2 hdate),
      if_neg (by simpa using hmem)]
    rfl

/-- an entry shows its row's reason -/
theorem crlEntry_reason {now : ℤ} {r : Certificate} {e : CrlEntry} (h : CAService.crlEntry st now r = .ok e) :
    e.reason = shownReason st r := by
  unfold CAService.crlEntry at h
  extract_lets -underBinder date ok reason at h
  obtain ⟨n, hn, h⟩ := except_bind_ok.1 h
  split_ifs at h
  obtain rfl := Except.ok.inj h
  rfl

theorem crlRows_stored {caId : ℕ} {r : Certificate} (h : r ∈ CAService.crlRows st d caId) :
    ∃ i, d.certificates.get i = some r ∧ r.caId = some caId := by
  have hval : r ∈ d.certificates.vals := by
    unfold CAService.crlRows at h
    simp only [List.mem_append, List.mem_filter] at h
    rcases h with h | h
    · exact h.1.1
    · exact h.1.1
  obtain ⟨⟨i, r'⟩, hmem, rfl⟩ := List.mem_map.1 hval
  have hget := Table.mem_rows.1 hmem
  exact ⟨i, hget, ((CAService.mem_crlRows hget).1 h).1⟩

theorem mem_crlRows_iff (hk : st.key = some κ) {caId : ℕ} {r : Certificate} :
    r ∈ CAService.crlRows st d caId ↔
      ∃ i, d.certificates.get i = some r ∧ r.caId = some caId ∧ trustedStatus st d r = .revoked := by
  constructor
  · intro h
    obtain ⟨i, hget, -⟩ := crlRows_stored h
    exact ⟨i, hget, ((CAService.mem_crlRows hget).1 h).imp_right (trusted_revoked_iff hk).2⟩
  · rintro ⟨i, hget, hca, hst⟩
    exact (CAService.mem_crlRows hget).2 ⟨hca, (trusted_revoked_iff hk).1 hst⟩

end Reported

/-! ## CRL and OCSP -/

/-- the serials of the CA's rows are hexadecimal numbers, each once -/
structure Numbered (d : Db) (caId : ℕ) : Prop where
  canonical : ∀ i c, d.certificates.get i = some c → c.caId = some caId → ∃ m, c.serialHex = hex m
  unique : ∀ i j c c', d.certificates.get i = some c → d.certificates.get j = some c' → c.caId = some caId →
    c'.caId = some caId → c.serialHex = c'.serialHex → i = j

/-- the CA's certificate is read, and its key signs CRLs -/
structure Signing (env : Env) (ca : CertificateAuthority) : Prop where
  caCert : ∃ cert, CAService.loadPem env ca.certPem = .ok cert
  crlSigner : ∃ signer, CAService.signerFor env ca = .ok signer ∧ ∀ crl, env.signCrl signer crl = .ok ()

/-- the CA's key and its responder's key sign -/
structure Working (env : Env) (lib : Ocsp.Lib) (req : Ocsp.OcspRequest) (ca : CertificateAuthority) : Prop where
  caCert : ∃ cert, CAService.loadPem env ca.certPem = .ok cert
  crlSigner : ∃ signer, CAService.signerFor env ca = .ok signer ∧ ∀ crl, env.signCrl signer crl = .ok ()
  responder : ∃ pem ca' key, ca.ocspCertPem.filter (· ≠ "") = some pem ∧ Ocsp.renewed env ca pem = .ok ca' ∧
    Ocsp.responderKey env ca'.ocspCertPem ca'.ocspKeyRef = .ok key ∧ ∀ answer, lib.sign key req answer = .ok ()

theorem Working.signing {env : Env} {lib : Ocsp.Lib} {req : Ocsp.OcspRequest} {ca : CertificateAuthority}
    (h : Working env lib req ca) : Signing env ca := ⟨h.caCert, h.crlSigner⟩

/-- a CRL of the CA generated in this state lists the serial -/
def ListedIn (env : Env) (d : Db) (caId : ℕ) (hours : ℤ) (n : ℕ) : Prop :=
  ∃ s' crl, CAService.generateCrl env caId hours ⟨d, d⟩ = (.ok (), s') ∧ storedCrl caId s'.work = some crl ∧
    ∃ e ∈ crl.entries, e.serial = n

/-- the responder answers REVOKED for the serial in this state -/
def AnswersRevoked (env : Env) (lib : Ocsp.Lib) (d : Db) (der : String) (n : ℕ) : Prop :=
  ∃ time reason nonce, (Ocsp.respond env lib der ⟨d, d⟩).1 = .ok (.successful (.revoked time reason) n nonce)

/-- a row that reads revoked says when and why, and the time is one the builder takes -/
structure Dated (now : ℤ) (r : Certificate) : Prop where
  date : CAService.earliestUtcTime ≤ r.revokedAt.getD now
  stated : r.status = .revoked →
    r.revokedAt ≠ none ∧ (r.revocationReason.filter (· ≠ "")).getD "unspecified" ∈ REASONS

section Agree

variable {env : Env} {lib : Ocsp.Lib} {κ : Key} {d : Db} {caId : ℕ} {ca : CertificateAuthority} {req : Ocsp.OcspRequest}

/-- a CRL is generated iff every row it has to list can be an entry -/
theorem crlOf_returns (hca : d.cas.get caId = some ca) (hwork : Signing env ca) {hours : ℤ} :
    (∃ crl, crlOf env d caId hours = .ok crl) ↔ ∀ r ∈ CAService.crlRows env.st d caId, Entered env.st env.now r := by
  obtain ⟨cert, hcert⟩ := hwork.caCert
  obtain ⟨signer, hsigner, hsign⟩ := hwork.crlSigner
  have hentries := @except_mapM_returns _ _ _ (CAService.crlEntry env.st env.now) (CAService.crlRows env.st d caId)
  simp only [crlEntry_returns] at hentries
  rw [← hentries]
  unfold crlOf
  rw [hca]
  dsimp only
  rw [hcert, except_ok_bind, hsigner]
  constructor
  · rintro ⟨crl, h⟩
    obtain ⟨crl', hbuilt, -⟩ := except_bind_ok.1 h
    unfold CAService.buildCrl at hbuilt
    obtain ⟨entries, he, -⟩ := except_bind_ok.1 hbuilt
    exact ⟨entries, he⟩
  · rintro ⟨entries, he⟩
    unfold CAService.buildCrl
    rw [he, except_ok_bind]
    dsimp only [libCall]
    refine ⟨⟨ca.crlNumber + 1, env.now, env.now + hours * 3600, entries⟩, ?_⟩
    rw [show (pure _ : Except Err Crl) = .ok ⟨ca.crlNumber + 1, env.now, env.now + hours * 3600, entries⟩ from rfl,
      except_ok_bind, except_ok_bind, hsign]
    rfl

/-- a CRL lists a serial iff all rows can be entries and one of them has it -/
theorem listed_iff (hk : env.st.key = some κ) (hca : d.cas.get caId = some ca) (hwork : Working env lib req ca)
    (hnum : Numbered d caId) {hours : ℤ} {n : ℕ} :
    ListedIn env d caId hours n ↔
      (∀ r ∈ CAService.crlRows env.st d caId, Entered env.st env.now r) ∧
        ∃ r ∈ CAService.crlRows env.st d caId, r.serialHex = hex n := by
  constructor
  · rintro ⟨s', crl, hgen, hstored, e, he, rfl⟩
    obtain ⟨crl', hcrl, hstored'⟩ := generateCrl_ok hgen
    obtain rfl := Option.some.inj (hstored.symm.trans hstored')
    refine ⟨(crlOf_returns hca hwork.signing).1 ⟨crl, hcrl⟩, ?_⟩
    obtain ⟨number, hbuilt⟩ := crlOf_built hcrl
    unfold CAService.buildCrl at hbuilt
    obtain ⟨entries, hentries, hbuilt⟩ := except_bind_ok.1 hbuilt
    cases hbuilt
    obtain ⟨r, hr, hentry⟩ := (except_mapM_mem hentries).1 he
    refine ⟨r, hr, ?_⟩
    obtain ⟨i, hget, hrca, -⟩ := (mem_crlRows_iff hk).1 hr
    obtain ⟨m, hm⟩ := hnum.canonical i r hget hrca
    have hserial := CAService.crlEntry_serial hentry
    rw [hm, intOfHex_hex] at hserial
    rw [hm, Int.ofNat_inj.1 (Except.ok.inj hserial)]
  · rintro ⟨hall, r, hr, hserial⟩
    have hreturns : ∃ crl, crlOf env d caId hours = .ok crl := (crlOf_returns hca hwork.signing).2 hall
    obtain ⟨crl, hcrl⟩ := hreturns
    obtain ⟨number, hbuilt⟩ := crlOf_built hcrl
    obtain ⟨e, he, hentry⟩ := buildCrl_lists hbuilt hr
    rw [hserial, intOfHex_hex] at hentry
    have hrun := @generateCrl_run env caId hours ⟨d, d⟩
    dsimp only at hrun
    rw [hcrl] at hrun
    obtain ⟨s', hs', hstored⟩ := hrun
    exact ⟨s', crl, hs', hstored, e, he, (Int.ofNat_inj.1 (Except.ok.inj hentry)).symm⟩

/-- the status of a row that is reported as revoked -/
theorem certAnswer_reported {st : SealState} {now : ℤ} {r : Certificate} (h : trustedStatus st d r = .revoked) :
    (∃ time reason, Ocsp.certAnswer st d now (some r) = .ok (.revoked time reason)) ↔ Dated now r := by
  unfold Ocsp.certAnswer Ocsp.revokedAnswer
  by_cases hst : r.status = .revoked
  · simp only [hst, h, ne_eq, not_true, false_and, if_false, if_true]
    constructor
    · rintro ⟨time, reason, hans⟩
      split_ifs at hans with hreason
      split at hans
      · cases hans
      next t hat =>
      split_ifs at hans with hearly
      have hmem : (r.revocationReason.filter (· ≠ "")).getD "unspecified" ∈ REASONS := by simpa using hreason
      refine ⟨?_, fun _ => ⟨by simp [hat], hmem⟩⟩
      rw [hat]
      exact not_lt.1 hearly
    · rintro ⟨hdate, hstated⟩
      obtain ⟨hat, hreason⟩ := hstated hst
      obtain ⟨t, ht⟩ := Option.ne_none_iff_exists'.1 hat
      rw [ht] at hdate
      have hearly : ¬ t < CAService.earliestUtcTime := not_lt.2 hdate
      rw [if_neg (by simpa using hreason), ht]
      exact ⟨t, _, if_neg hearly⟩
  · by_cases hearly : r.revokedAt.getD now < CAService.earliestUtcTime
    · have hno : ¬ Dated now r := fun hdated => absurd hdated.date (not_le.2 hearly)
      simp [hst, h, hearly, hno]
    · have hyes : Dated now r := ⟨not_lt.1 hearly, fun hrev => absurd hrev hst⟩
      simp [hst, h, hearly, hyes]

/-- only a row reported as revoked is answered REVOKED -/
theorem answered_reported {st : SealState} {now time : ℤ} {r : Certificate} {reason : String}
    (h : Ocsp.certAnswer st d now (some r) = .ok (.revoked time reason)) : trustedStatus st d r = .revoked := by
  unfold Ocsp.certAnswer at h
  by_cases hst : r.status = .revoked
  · simp [trustedStatus, hst]
  · by_contra ht
    simp [hst, ht] at h

/-- OCSP answers REVOKED iff the row is reported as revoked and, if it reads revoked, says when and why -/
theorem answers_iff (hreq : lib.loadDerOcspRequest der = some req) {n : ℕ} (hserial : req.serialNumber = n)
    (htarget : Ocsp.target env lib req (Ocsp.issuers d) = .ok (some (caId, ca))) (hwork : Working env lib req ca)
    (hnum : Numbered d caId) :
    AnswersRevoked env lib d der n ↔
      ∃ i r, d.certificates.get i = some r ∧ r.caId = some caId ∧ r.serialHex = hex n ∧
        trustedStatus env.st d r = .revoked ∧ Dated env.now r := by
  obtain ⟨pem, ca', key, hpem, hrenewed, hkey, hsign⟩ := hwork.responder
  have hanswer : Ocsp.answerTo env lib d der = (do
      let row ← oneOrNone d.certificates (Ocsp.asks req.serialNumber caId)
      let answer ← Ocsp.certAnswer env.st d env.now (row.map Prod.snd)
      pure (.successful answer req.serialNumber req.nonce)) := by
    unfold Ocsp.answerTo
    rw [hreq]
    dsimp only
    rw [htarget, except_ok_bind]
    dsimp only
    rw [hpem]
    dsimp only
    rw [hrenewed, except_ok_bind]
    unfold Ocsp.statusOf
    rw [hkey, except_ok_bind]
    simp only [hsign]
    rfl
  have hasks : ∀ c : Certificate, Ocsp.asks req.serialNumber caId c = true ↔ c.serialHex = hex n ∧ c.caId = some caId := by
    intro c
    simp [Ocsp.asks, hserial]
  unfold AnswersRevoked
  simp only [Ocsp.respond_fst, hanswer]
  constructor
  · rintro ⟨time, reason, nonce, h⟩
    obtain ⟨row, hrow, h⟩ := except_bind_ok.1 h
    obtain ⟨answer, hans, h⟩ := except_bind_ok.1 h
    obtain ⟨rfl, -, -⟩ := Ocsp.Response.successful.inj (Except.ok.inj h)
    cases row with
    | none => cases hans
    | some p =>
      obtain ⟨hget, hp⟩ := oneOrNone_some hrow
      obtain ⟨hhex, hca⟩ := (hasks _).1 hp
      have hreported := answered_reported hans
      exact ⟨p.1, p.2, hget, hca, hhex, hreported, (certAnswer_reported hreported).1 ⟨time, reason, hans⟩⟩
  · rintro ⟨i, r, hget, hca, hhex, hreported, hdated⟩
    have hrow : oneOrNone d.certificates (Ocsp.asks req.serialNumber caId) = .ok (some (i, r)) := by
      refine oneOrNone_unique hget ((hasks r).2 ⟨hhex, hca⟩) fun j c hc hp => ?_
      obtain ⟨hhex', hca'⟩ := (hasks c).1 hp
      exact hnum.unique j i c r hc hget hca' hca (hhex'.trans hhex.symm)
    obtain ⟨time, reason, hans⟩ := (certAnswer_reported hreported).2 hdated
    refine ⟨time, reason, req.nonce, ?_⟩
    rw [hrow, except_ok_bind, Option.map_some, hans, except_ok_bind, hserial]
    rfl

end Agree

/-! ### A row set to revoked, and a revocation -/

section Examples

theorem numbered_of_rows {d : Db} {caId : ℕ} (h : ∀ p ∈ d.certificates.rows, p.2.serialHex = hex (15 + p.1)) :
    Numbered d caId := by
  have hserial : ∀ i c, d.certificates.get i = some c → c.serialHex = hex (15 + i) :=
    fun i c hget => h (i, c) (Table.mem_rows.2 hget)
  refine ⟨fun i c hget _ => ⟨15 + i, hserial i c hget⟩, fun i j c c' hget hget' _ _ heq => ?_⟩
  rw [hserial i c hget, hserial j c' hget'] at heq
  have := hex_injective heq
  omega

theorem demo_target {d : Db} (h : d.cas = answeringDb.cas) :
    Ocsp.target demoEnv Ocsp.demoLib ⟨"sha1", "issuing", "ca-key", 16, none⟩ (Ocsp.issuers d) =
      .ok (some (1, (answeringDb.cas.get 1).get (by decide))) := by
  unfold Ocsp.issuers
  rw [h]
  rfl

theorem demo_working : Working demoEnv Ocsp.demoLib ⟨"sha1", "issuing", "ca-key", 16, none⟩
    ((answeringDb.cas.get 1).get (by decide)) where
  caCert := ⟨demoCaCert, rfl⟩
  crlSigner := ⟨⟨"file:ca", "file", demoKey "ca-key"⟩, rfl, fun _ => rfl⟩
  responder := ⟨"ca-pem", _, ⟨"file:ocsp", "file", demoKey "ca-key"⟩, rfl, rfl, rfl, fun _ => rfl⟩

/-- the tables as they were before the revocation, and the audit trail after it -/
def rolledBack : Db := { answeringDb with audit := revokedDb.audit }

/-- the first row's status set to revoked, by SQL -/
def setToRevoked : Db :=
  { answeringDb with certificates := answeringDb.certificates.update 1 fun c => { c with status := .revoked } }

end Examples

end Certadillo.Revocation
