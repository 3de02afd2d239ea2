/-
Certificate logins over whole runs: service calls and CMP messages, interleaved with SQL writes to the certificates table.

EST asks for the trusted status of a certificate's row. SCEP and CMP read its status column, so they agree with EST as
long as no row that reads active is broken or recorded as revoked (`Clean`).

- `est_trusted`: whatever EST accepts is trusted, in every state.
- `issuing_clean`, `revoking_clean`: a call keeps the rows clean if the serial it draws is new to the audit trail and no
  other row that reads active has the serial of a row it revokes.
- `login_agrees`: along runs whose SQL writes keep the rows clean too, all three accept only trusted rows.
- `flipped_row_logs_in`: a revoked row set back to active in SQL logs in through SCEP and CMP.
-/
import Certadillo.Enrollment.Login
import Certadillo.Runs

namespace Certadillo.Login

open Integrity Policy Py Relation Machine

/-! ## Model -/

inductive Event where
  | call (c : Call)
  | sql (certificates : Table Certificate)

def step (d : Db) : Event → Db
  | .call c => Certadillo.step d c
  | .sql t => { d with certificates := t }

/-- a front end accepts the certificate as a current credential, under this row -/
def Accepts (env : Env) (d : Db) (cert : X509Cert) (row : ℕ × Certificate) : Prop :=
  (∃ basic actor, Est.identify env d (some cert) basic = .ok (actor, some row, .certificate)) ∨
    Scep.issuedHere env d cert = .ok (some row) ∨ Cmp.issuedHere env d cert false = .ok (some row)

/-- whatever a front end accepts is trusted -/
def Agrees (st : SealState) (d : Db) : Prop :=
  ∀ (env : Env) (cert : X509Cert) (row : ℕ × Certificate), env.st = st → Accepts env d cert row →
    trustedStatus st d row.2 = .active

/-- a row the status column shows as a current credential -/
structure Exposed (c : Certificate) : Prop where
  active : c.status = .active
  source : c.source = .issued
  caId : c.caId ≠ none

/-- every exposed row verifies, and no revocation of its serial is recorded -/
def Clean (st : SealState) (d : Db) : Prop :=
  ∀ i c, d.certificates.get i = some c → Exposed c → verify st c = true ∧ revokedInAudit d c.serialHex = false

/-- the serial a call may draw is not one the audit trail records as revoked -/
def SerialNew (d : Db) (c : Call) : Prop := draws c → revokedInAudit d (hex (c.env.randomSerial 0)) = false

/-- no other exposed row has the serial of a row the call revokes -/
def SerialsApart (d : Db) (c : Call) : Prop :=
  ∀ i x row, revokes d c i x → d.certificates.get i = some row → row.serialHex = x →
    ∀ j c', d.certificates.get j = some c' → Exposed c' → c'.serialHex = x → j = i

def Keeps (st : SealState) (d : Db) : Event → Prop
  | .call c => c.env.st = st ∧ SerialNew d c ∧ SerialsApart d c
  | .sql t => Clean st { d with certificates := t }

/-! ## Accepted rows -/

section Accepted

variable {env : Env} {d : Db} {cert : X509Cert} {row : ℕ × Certificate}

theorem issuedRow_ok (h : issuedRow d cert = .ok (some row)) :
    d.certificates.get row.1 = some row.2 ∧ row.2.source = .issued := by
  obtain ⟨hget, hp⟩ := oneOrNone_some h
  simp only [Bool.and_eq_true, decide_eq_true_eq] at hp
  exact ⟨hget, hp.2⟩

theorem cmp_accepted (h : Cmp.issuedHere env d cert false = .ok (some row)) :
    d.certificates.get row.1 = some row.2 ∧ Exposed row.2 := by
  unfold Cmp.issuedHere at h
  obtain ⟨found, hfound, h⟩ := except_bind_ok.1 h
  split at h
  · cases h
  next id c =>
  obtain ⟨hget, hsource⟩ := issuedRow_ok hfound
  split at h
  · cases h
  next ca hca =>
  split at h
  · cases h
  next hst =>
  split at h
  · cases h
  split at h
  · cases h
  cases h
  exact ⟨hget, by simpa using hst, hsource, by simp [hca]⟩

/-- SCEP's check is CMP's for anything but a revocation request -/
theorem scep_eq_cmp : Scep.issuedHere env d cert = Cmp.issuedHere env d cert false := by
  simp [Scep.issuedHere, Cmp.issuedHere]

theorem certApp_trusted {c : Certificate} {appId : ℕ} (h : Est.certApp env d c = some appId) :
    trustedStatus env.st d c = .active := by
  unfold Est.certApp at h
  split at h
  · cases h
  · split at h
    · next hst => exact (by simpa using hst : _ ∧ _).1
    · cases h

/-- whatever EST accepts is trusted -/
theorem est_trusted {cert : Option X509Cert} {basic : Option Actor} {actor : Actor}
    (h : Est.identify env d cert basic = .ok (actor, some row, .certificate)) :
    trustedStatus env.st d row.2 = .active := by
  unfold Est.identify at h
  extract_lets -underBinder fallback at h
  have hfallback : fallback ≠ .ok (actor, some row, .certificate) := by
    intro h
    dsimp only [fallback] at h
    cases basic <;> cases h
  split at h
  · exact absurd h hfallback
  obtain ⟨found, -, h⟩ := except_bind_ok.1 h
  split at h
  · next id c appId hrow =>
    cases h
    simp only [Option.bind_eq_some_iff, Option.map_eq_some_iff, Prod.mk.injEq] at hrow
    obtain ⟨_, -, _, happ, rfl, rfl⟩ := hrow
    exact certApp_trusted happ
  · obtain ⟨_, -, h⟩ := except_bind_ok.1 h
    split at h
    · cases h
    · exact absurd h hfallback

end Accepted

/-! ## One call -/

section Calls

variable {st : SealState} {κ : Key} {env : Env} {g : Grant} {d a b : Db} {c : Call}

/-- in clean states the front ends agree -/
theorem clean_agrees (h : Clean st d) : Agrees st d := by
  intro env cert row hst hacc
  have hexposed : d.certificates.get row.1 = some row.2 ∧ Exposed row.2 → trustedStatus st d row.2 = .active := by
    rintro ⟨hget, hexp⟩
    obtain ⟨hv, hr⟩ := h _ _ hget hexp
    simp [trustedStatus, hv, hr, hexp.active]
  rcases hacc with ⟨basic, actor, hest⟩ | hscep | hcmp
  · exact hst ▸ est_trusted hest
  · exact hexposed (cmp_accepted (scep_eq_cmp ▸ hscep))
  · exact hexposed (cmp_accepted hcmp)

/-- an updated row that is exposed was exposed before, with the same serial, and verifies if it did -/
theorem retires_exposed {c c' : Certificate} (h : Retires c c') (he : Exposed (flushed st c c')) :
    Exposed c ∧ (flushed st c c').serialHex = c.serialHex := by
  have hactive : c'.status = .active := by simpa using he.active
  have hsource : c'.source = .issued := by simpa using he.source
  have hca : c'.caId ≠ none := by simpa using he.caId
  refine ⟨⟨?_, h.source ▸ hsource, h.caId ▸ hca⟩, by simp [h.serialHex]⟩
  rcases h.status with h | h | h
  · exact h ▸ hactive
  · rw [h] at hactive; cases hactive
  · rw [h] at hactive; cases hactive

theorem clean_frame (hc : b.certificates = a.certificates) (hx : ∀ x, revokedInAudit b x = revokedInAudit a x)
    (h : Clean st a) : Clean st b := by
  intro i c hget he
  rw [hx]
  exact h i c (hc ▸ hget) he

theorem clean_update (hk : st.key = some κ) {j : ℕ} {f : Certificate → Certificate} (hf : ∀ c, Retires c (f c))
    (h : Clean st a) :
    Clean st { a with certificates := a.certificates.update j fun c => flushed st c (f c) } := by
  intro i c hget he
  by_cases hi : i = j
  · subst hi
    rw [Table.get_update_self, Option.map_eq_some_iff] at hget
    obtain ⟨c0, hc0, rfl⟩ := hget
    obtain ⟨hexp, hserial⟩ := retires_exposed (hf c0) he
    obtain ⟨hv, hr⟩ := h i c0 hc0 hexp
    exact ⟨verify_flushed hk hv, hserial ▸ hr⟩
  · rw [Table.get_update_of_ne _ _ hi] at hget
    exact h i c hget he

/-- an event that is no revocation changes no answer of the audit trail -/
theorem revokedInAudit_event {e : AuditEvent} (h : e.action ≠ "certificate.revoke") (x : String) :
    revokedInAudit { a with audit := a.audit ++ [e] } x = revokedInAudit a x := by
  simp [revokedInAudit, h]

/-- one write of a call that records no revocation -/
theorem issuing_write (hk : st.key = some κ) (henv : env.st = st) (hg : ∀ i x, ¬ g.revokes i x)
    (hnew : ∀ row, g.adds row → row.caId ≠ none → revokedInAudit d row.serialHex = false) (h : Write env g a b)
    (ha : Clean st a ∧ ∀ x, revokedInAudit a x = revokedInAudit d x) :
    Clean st b ∧ ∀ x, revokedInAudit b x = revokedInAudit d x := by
  obtain ⟨hclean, haudit⟩ := ha
  cases h with
  | frame _ certs _ log _ _ =>
    have hlog : ∀ x, revokedInAudit b x = revokedInAudit a x := fun x => by simp only [revokedInAudit, log]
    exact ⟨clean_frame certs hlog hclean, fun x => (hlog x).trans (haudit x)⟩
  | event e he =>
    have hlog := revokedInAudit_event (a := a) he
    exact ⟨clean_frame (a := a) rfl hlog hclean, fun x => (hlog x).trans (haudit x)⟩
  | revokeEvent e i c hrev => exact absurd hrev (hg _ _)
  | addCertificate row hadd =>
    refine ⟨fun i c hget he => ?_, haudit⟩
    by_cases hi : i = a.certificates.next
    · subst hi
      obtain rfl : inserted env.st row = c := Option.some.inj ((Table.get_insert_next _ _).symm.trans hget)
      obtain ⟨x, hx⟩ := inserted_certificate env.st row
      refine ⟨henv ▸ verify_inserted (henv ▸ hk) row, ?_⟩
      rw [hx] at he ⊢
      exact (haudit _).trans (hnew row hadd he.caId)
    · rw [Table.get_insert, if_neg hi] at hget
      exact hclean i c hget he
  | setCertificate j f hf _ =>
    rw [henv]
    exact ⟨clean_update hk hf hclean, haudit⟩
  | _ => exact ⟨hclean, haudit⟩

/-- every row of `a` is a row of `d`, and was exposed there if it is now -/
def Descends (d a : Db) : Prop :=
  ∀ i c, a.certificates.get i = some c →
    ∃ c0, d.certificates.get i = some c0 ∧ c0.serialHex = c.serialHex ∧ (Exposed c → Exposed c0)

theorem descends_update {j : ℕ} {f : Certificate → Certificate} (hf : ∀ c, Retires c (f c)) (h : Descends d a) :
    Descends d { a with certificates := a.certificates.update j fun c => flushed st c (f c) } := by
  intro i c hget
  by_cases hi : i = j
  · subst hi
    rw [Table.get_update_self, Option.map_eq_some_iff] at hget
    obtain ⟨c1, hc1, rfl⟩ := hget
    obtain ⟨c0, hc0, hserial, hexp⟩ := h i c1 hc1
    refine ⟨c0, hc0, hserial.trans ?_, fun he => hexp (retires_exposed (hf c1) he).1⟩
    simp [(hf c1).serialHex]
  · rw [Table.get_update_of_ne _ _ hi] at hget
    exact h i c hget

/-- one write of a call that records revocations, and so adds no certificate -/
theorem revoking_write (hk : st.key = some κ) (henv : env.st = st) (hg : ∀ row, ¬ g.adds row)
    (hapart : ∀ i x row, g.revokes i x → d.certificates.get i = some row → row.serialHex = x →
      ∀ j c', d.certificates.get j = some c' → Exposed c' → c'.serialHex = x → j = i) (h : Write env g a b)
    (ha : Clean st a ∧ Descends d a) : Clean st b ∧ Descends d b := by
  obtain ⟨hclean, hdesc⟩ := ha
  cases h with
  | frame _ certs _ log _ _ =>
    have hlog : ∀ x, revokedInAudit b x = revokedInAudit a x := fun x => by simp only [revokedInAudit, log]
    exact ⟨clean_frame certs hlog hclean, fun i c hget => hdesc i c (certs ▸ hget)⟩
  | event e he => exact ⟨clean_frame (a := a) rfl (revokedInAudit_event he) hclean, hdesc⟩
  | revokeEvent e i c hrev hget hst ht =>
    refine ⟨fun j cj hj he => ?_, hdesc⟩
    obtain ⟨hv, hr⟩ := hclean j cj hj he
    obtain ⟨c0, hc0, hserial, -⟩ := hdesc i c hget
    obtain ⟨cj0, hcj0, hserialj, hexp⟩ := hdesc j cj hj
    -- an exposed row under the revoked serial would be the revoked row itself
    have hne : e.target ≠ cj.serialHex := by
      intro heq
      have hsame : cj0.serialHex = c.serialHex := by rw [hserialj, ← heq, ht]
      obtain rfl := hapart i c.serialHex c0 hrev hc0 hserial j cj0 hcj0 (hexp he) hsame
      obtain rfl := Option.some.inj (hget.symm.trans hj)
      exact hst he.active
    refine ⟨hv, ?_⟩
    simpa [revokedInAudit, hne] using hr
  | addCertificate row hadd => exact absurd hadd (hg _)
  | setCertificate j f hf _ =>
    rw [henv]
    exact ⟨clean_update hk hf hclean, descends_update hf hdesc⟩
  | _ => exact ⟨hclean, hdesc⟩

theorem call_clean (hk : st.key = some κ) (henv : c.env.st = st) (hnew : SerialNew d c) (hapart : SerialsApart d c)
    (h : Clean st d) : Clean st (Certadillo.step d c) := by
  by_cases hrev : ∀ i x, ¬ revokes d c i x
  · have hserial : ∀ row, (grant d c).adds row → row.caId ≠ none → revokedInAudit d row.serialHex = false := by
      rintro row ⟨-, hca | ⟨hdraws, hserial⟩⟩ hne
      · exact absurd hca hne
      · exact hserial ▸ hnew hdraws
    refine (Tx.reaches_inv (I := fun a => Clean st a ∧ ∀ x, revokedInAudit a x = revokedInAudit d x) ?_
      (step_writes d c) ⟨h, fun _ => rfl⟩).1
    exact fun a b => issuing_write hk henv hrev hserial
  · refine (Tx.reaches_inv (I := fun a => Clean st a ∧ Descends d a) ?_ (step_writes d c)
      ⟨h, fun i c hget => ⟨c, hget, rfl, id⟩⟩).1
    exact fun a b => revoking_write hk henv (fun row hadd => hrev hadd.1) hapart

end Calls

/-! ## Runs -/

theorem step_clean {st : SealState} {κ : Key} (hk : st.key = some κ) {d : Db} {e : Event} (h : Clean st d)
    (hkeeps : Keeps st d e) : Clean st (step d e) := by
  cases e with
  | call c => exact call_clean hk hkeeps.1 hkeeps.2.1 hkeeps.2.2 h
  | sql t => exact hkeeps

/-- **The front ends agree with the trusted status** in every state of a run whose SQL writes leave no exposed row broken
or recorded as revoked; EST does in every state. -/
theorem login_agrees {st : SealState} {κ : Key} (hk : st.key = some κ) {d : Db} (hd : Clean st d) :
    (∀ (events : List Event) (env : Env) cert basic actor row, env.st = st →
      Est.identify env (run step d events) cert basic = .ok (actor, some row, .certificate) →
      trustedStatus st (run step d events) row.2 = .active) ∧
    ∀ before after : List Event, Along step (Keeps st) d (before ++ after) → Agrees st (run step d before) := by
  constructor
  · rintro events env cert basic actor row rfl h
    exact est_trusted h
  · intro before after hkeeps
    have hbefore := ((along_append _ _ _).1 hkeeps).1
    exact clean_agrees (run_inv (fun _ _ => step_clean hk) hd hbefore)

/-! ### A restored certificate -/

section Examples

/-- an app and the CA that issues for it -/
def loginDb : Db :=
  { Db.empty with
    apps := Table.empty.insert (inserted demoState (demoApp "web"))
    cas := Table.empty.insert ⟨"issuing", none, "ca-pem", "file:ca", "file", false, 0, none, none, none, none, none, none,
      none, none, none, none⟩ }

/-- the app gets a certificate, and an operator revokes it -/
def issued : Event :=
  .call ⟨demoEnv, .requestCertificate ⟨"olga", .operator, none⟩ 1 ⟨some "web-csr", none, none, none, "rest", none, false,
    none⟩⟩

def revoked : Event := .call ⟨demoEnv, .revoke ⟨"olga", .operator, none⟩ 1 "key_compromise" none⟩

/-- an SQL write sets the row back to active -/
def flipped : Event :=
  .sql ((run step loginDb [issued, revoked]).certificates.update 1 fun c => { c with status := .active })

/-- the certificate, as its holder presents it -/
def webCert : X509Cert :=
  ⟨{ demoCaCert.tbs with serialNumber := 16, ca := false }, ⟨"pem-16", "fp-16", "1.2.840.10045.4.3.2", some "sha256"⟩, false⟩

theorem loginDb_clean : Clean demoState loginDb := by
  intro i c h
  cases h

/-- while only the application writes, the front ends agree -/
theorem revoked_agrees : Agrees demoState (run step loginDb [issued, revoked]) := by
  have hkey : demoState.key = some "key" := rfl
  have hone : (step loginDb issued).certificates.rows.map Prod.fst = [1] := by decide
  refine (login_agrees hkey loginDb_clean).2 [issued, revoked] [] ⟨?_, ?_, trivial⟩
  · exact ⟨rfl, fun _ => by decide, fun _ _ _ h => h.elim⟩
  · refine ⟨rfl, fun h => h.elim, fun i x row hi _ _ j c' hj _ _ => ?_⟩
    have hmem := List.mem_map_of_mem (f := Prod.fst) (Table.mem_rows.2 hj)
    rw [hone, List.mem_singleton] at hmem
    exact hmem.trans (Eq.symm hi)

/-- The revocation is in the audit trail and the row no longer verifies; SCEP takes it as a current credential. -/
theorem flipped_row_logs_in :
    ¬ ∀ events : List Event, (∀ c, .call c ∈ events → c.env.st = demoState) →
      Agrees demoState (run step loginDb events) := by
  intro h
  have hevents : ∀ c, .call c ∈ [issued, revoked, flipped] → c.env.st = demoState := by
    intro c hc
    simp only [issued, revoked, flipped, List.mem_cons, Event.call.injEq, reduceCtorEq, List.not_mem_nil, or_false] at hc
    rcases hc with rfl | rfl <;> rfl
  have hagrees := h _ hevents
  have hlogin : ((Scep.issuedHere demoEnv (run step loginDb [issued, revoked, flipped]) webCert).toOption.join.map fun row =>
      Decidable.decide (trustedStatus demoState (run step loginDb [issued, revoked, flipped]) row.2 ≠ .active)) = some true := by
    decide
  obtain ⟨row, hrow, hstatus⟩ := Option.map_eq_some_iff.1 hlogin
  refine of_decide_eq_true hstatus (hagrees demoEnv webCert row rfl (Or.inr (Or.inl ?_)))
  cases hissued : Scep.issuedHere demoEnv (run step loginDb [issued, revoked, flipped]) webCert with
  | error e =>
    rw [hissued] at hrow
    cases hrow
  | ok found =>
    rw [hissued] at hrow
    exact congrArg Except.ok hrow

end Examples

end Certadillo.Login
