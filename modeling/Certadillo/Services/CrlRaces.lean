/-
Concurrent `revoke` transactions on the certificates of one CA, under READ COMMITTED.

A transaction loads the certificate and passes its checks (`load`), loads the CA's row (`loadCa`), and later updates both
rows, builds the CRL, writes the event and commits (`finish`). The query of the revoked rows flushes the incremented
counter first, and that UPDATE waits for every other revocation that has written the CA's row, so `finish` is one step: it
reads what all earlier ones committed. The counter it increments is the loaded one.

- `carry_loaded`: a transaction that loads its rows and finishes with nothing in between is `Platform.revoke`'s.
- `finish_lists`: what a finish commits lists every revoked certificate of the CA.
- `published_crl`: after every interleaving the stored CRL lists every committed revocation; no two CRLs have one number if
  every finish finds the counter as it loaded it.
- `one_number_twice`: two revocations that load the same counter publish different CRLs under one number.
-/
import Certadillo.Lib.Threads
import Certadillo.Services.Tampered

namespace Certadillo.Revocation

open Integrity Policy Py Machine Platform

/-! ## Model -/

/-- a revocation under way: the certificate's row as loaded, then the CA's -/
structure Revoking where
  env : Env
  actor : Actor
  certId : ℕ
  reason : String
  changeRef : Option String
  row : Certificate
  ca : Option CertificateAuthority

inductive RevokeOp where
  | load (env : Env) (actor : Actor) (certId : ℕ) (reason : String) (changeRef : Option String)
  | loadCa
  | finish
  | rollback

/-- the session's certificate object once it is marked -/
def Revoking.marked (p : Revoking) : Certificate :=
  if p.row.status = .revoked then p.row else flushed p.env.st p.row (markRevoked p.env p.reason p.row)

/-- the rows as the session sees them: for the one it has loaded, queries answer with its object -/
def Revoking.seen (p : Revoking) (d : Db) : Db :=
  { d with certificates := d.certificates.update p.certId fun _ => p.marked }

/-- the rest of the transaction, over whatever is stored by then -/
def Revoking.carry (p : Revoking) (caId : ℕ) (ca : CertificateAuthority) : M Unit := do
  let reason := p.reason
  if !REASONS.contains p.reason then raise (.value s!"unknown reason {reason}")
  else if p.row.source ≠ .issued then raise (.value "only certificates issued by this platform can be revoked here")
  else
    Tx.modify fun d => { d with certificates := d.certificates.update p.certId (updated p.row p.marked) }
    let _ ← lift (CAService.loadPem p.env ca.certPem)
    setPlain Col.cas caId fun c => { c with crlNumber := ca.crlNumber + 1 }
    let d ← Tx.get
    let crl ← lift (CAService.buildCrl p.env (p.seen d) caId (ca.crlNumber + 1) 24)
    let signer ← lift (CAService.signerFor p.env ca)
    lift (libCall .value (p.env.signCrl signer crl))
    setPlain Col.cas caId fun c => { c with crlLastGenerated := some p.env.now, crlDer := some crl }
    record p.env p.actor.name "certificate.revoke" p.row.serialHex
      [("reason", .str p.reason), ("change_ref", .ofStr? p.changeRef)]

/-- one transaction's step on the committed database; all revoke local certificates of CA `caId` -/
def revokeRace (caId : ℕ) (_ : ℕ) (d : Db) (l : Option Revoking) : RevokeOp → Db × Option Revoking
  | .load env actor certId reason changeRef =>
    match mayRevoke d actor certId reason changeRef with
    | .ok row =>
      if row.backend = "local" ∧ row.caId = some caId then
        (d, some ⟨env, actor, certId, reason, changeRef, row, none⟩)
      else (d, none)
    | .error _ => (d, none)
  | .loadCa => (d, l.map fun p => { p with ca := p.ca.or (d.cas.get caId) })
  | .finish =>
    match l with
    | none => (d, none)
    | some p =>
      match p.ca with
      | none => (d, none)
      | some ca => ((Tx.transact (p.carry caId ca) d).2, none)
  | .rollback => (d, none)

abbrev RevokeSt := Threads.St Db (Option Revoking)

abbrev revokeStep (caId : ℕ) : RevokeSt → ℕ × RevokeOp → RevokeSt := Threads.step (revokeRace caId)

/-- no transaction has loaded anything -/
def revokeStart (d : Db) : RevokeSt := ⟨d, fun _ => none⟩

/-- the step commits the revocation of certificate `i`, with the rows it loaded -/
def CommitsRevocation (caId : ℕ) (s : RevokeSt) (o : ℕ × RevokeOp) (p : Revoking) (ca : CertificateAuthority) : Prop :=
  o.2 = .finish ∧ s.loc o.1 = some p ∧ p.ca = some ca ∧ Tx.Returns (p.carry caId ca) ⟨s.shared, s.shared⟩

/-- the CRL stored for the CA -/
def storedCrl (caId : ℕ) (d : Db) : Option Crl := (d.cas.get caId).bind (·.crlDer)

/-- the CRL lists a serial, given as a row has it -/
def Lists (crl : Crl) (serialHex : String) : Prop := ∃ e ∈ crl.entries, intOfHex serialHex = .ok (e.serial : ℤ)

/-- the revocation of certificate `i` is published: the stored CRL lists its serial -/
def Published (caId i : ℕ) (d : Db) : Prop :=
  ∃ row crl, d.certificates.get i = some row ∧ row.caId = some caId ∧ row.status = .revoked ∧
    storedCrl caId d = some crl ∧ Lists crl row.serialHex

/-- a finish that commits finds the counter as it loaded it -/
def FindsCounter (caId : ℕ) (s : RevokeSt) (o : ℕ × RevokeOp) : Prop :=
  ∀ p ca, CommitsRevocation caId s o p ca → ∀ stored, s.shared.cas.get caId = some stored → stored.crlNumber = ca.crlNumber

/-- no number is below a stored CRL's -/
def Counted (caId : ℕ) (d : Db) : Prop :=
  ∀ ca crl, d.cas.get caId = some ca → ca.crlDer = some crl → crl.number ≤ ca.crlNumber

/-- two CRLs stored during the run under one number are the same -/
def NumberedOnce (caId : ℕ) (s : RevokeSt) (ops : List (ℕ × RevokeOp)) : Prop :=
  ∀ before mid after crl crl', ops = before ++ mid ++ after →
    storedCrl caId (run (revokeStep caId) s before).shared = some crl →
    storedCrl caId (run (revokeStep caId) s (before ++ mid)).shared = some crl' → crl.number = crl'.number → crl = crl'

/-! ## One transaction -/

section One

variable {caId : ℕ} {d : Db} {p : Revoking} {ca : CertificateAuthority}

/-- the CRL lists the rows it is built over -/
theorem buildCrl_lists {env : Env} {number hours : ℤ} {crl : Crl}
    (h : CAService.buildCrl env d caId number hours = .ok crl) {row : Certificate}
    (hrow : row ∈ CAService.crlRows env.st d caId) : Lists crl row.serialHex := by
  unfold CAService.buildCrl at h
  obtain ⟨entries, hentries, h⟩ := except_bind_ok.1 h
  cases h
  obtain ⟨e, he⟩ := except_mapM_returns.1 ⟨entries, hentries⟩ row hrow
  exact ⟨e, (except_mapM_mem hentries).2 ⟨row, hrow, he⟩, CAService.crlEntry_serial he⟩

/-- what a finish that returns has written -/
theorem carry_ok {s s' : Session Db} {u : Unit} (h : p.carry caId ca s = (.ok u, s')) :
    ∃ d crl, d.certificates = s.work.certificates.update p.certId (updated p.row p.marked) ∧
      CAService.buildCrl p.env (p.seen d) caId (ca.crlNumber + 1) 24 = .ok crl ∧
      s'.work.certificates = s.work.certificates.update p.certId (updated p.row p.marked) ∧
      s'.work.cas = (s.work.cas.update caId fun c => { c with crlNumber := ca.crlNumber + 1 }).update caId fun c =>
        { c with crlLastGenerated := some p.env.now, crlDer := some crl } := by
  unfold Revoking.carry at h
  split at h
  · cases h
  split at h
  · cases h
  obtain ⟨_, s1, h1, h⟩ := Tx.bind_returns.1 h
  cases h1
  obtain ⟨_, s2, h2, h⟩ := Tx.bind_returns.1 h
  obtain ⟨-, rfl⟩ := Prod.mk.inj h2
  obtain ⟨_, s3, h3, h⟩ := Tx.bind_returns.1 h
  cases h3
  obtain ⟨d', s4, h4, h⟩ := Tx.bind_returns.1 h
  cases h4
  obtain ⟨crl, s5, h5, h⟩ := Tx.bind_returns.1 h
  obtain ⟨hcrl, rfl⟩ := Prod.mk.inj h5
  obtain ⟨_, s6, h6, h⟩ := Tx.bind_returns.1 h
  obtain ⟨-, rfl⟩ := Prod.mk.inj h6
  obtain ⟨_, s7, h7, h⟩ := Tx.bind_returns.1 h
  obtain ⟨-, rfl⟩ := Prod.mk.inj h7
  obtain ⟨_, s8, h8, h⟩ := Tx.bind_returns.1 h
  cases h8
  cases h
  exact ⟨_, crl, rfl, hcrl, rfl, rfl⟩

/-- without a race the session's object is the stored row -/
theorem updated_loaded : updated p.row p.marked p.row = p.marked := by
  unfold Revoking.marked updated
  split
  · simp only [written_self]
  · obtain ⟨x, hx⟩ := flushed_certificate p.env.st p.row (markRevoked p.env p.reason p.row)
    simp only [written_self, hx]
    rfl

/-- without a race the session's rows are the stored ones -/
theorem seen_loaded {d : Db} (h : d.certificates.get p.certId = some p.marked) : p.seen d = d := by
  have hsame : (d.certificates.update p.certId fun _ => p.marked) = d.certificates :=
    Table.update_eq_self fun a ha => Option.some.inj (h.symm.trans ha)
  unfold Revoking.seen
  rw [hsame]

/-- the CRL part of the transaction -/
theorem generateCrl_loaded {s : Session Db} (hca : s.work.cas.get caId = some ca)
    (hmarked : s.work.certificates.get p.certId = some p.marked) (f : Unit → M Unit) :
    (CAService.generateCrl p.env caId 24 >>= f) s =
      (do
        let _ ← lift (CAService.loadPem p.env ca.certPem)
        setPlain Col.cas caId fun c => { c with crlNumber := ca.crlNumber + 1 }
        let d ← Tx.get
        let crl ← lift (CAService.buildCrl p.env (p.seen d) caId (ca.crlNumber + 1) 24)
        let signer ← lift (CAService.signerFor p.env ca)
        lift (libCall .value (p.env.signCrl signer crl))
        setPlain Col.cas caId fun c => { c with crlLastGenerated := some p.env.now, crlDer := some crl }
        f () : M Unit) s := by
  unfold CAService.generateCrl
  rw [Tx.bind_assoc, Tx.get_bind, hca]
  dsimp only
  cases CAService.loadPem p.env ca.certPem with
  | error e => rfl
  | ok cert =>
    have hcounter : (s.work.cas.update caId fun c => { c with crlNumber := c.crlNumber + 1 }) =
        s.work.cas.update caId fun c => { c with crlNumber := ca.crlNumber + 1 } := by
      apply Table.update_congr
      intro c hc
      obtain rfl := Option.some.inj (hca.symm.trans hc)
      rfl
    rw [Tx.bind_assoc, lift_ok_bind, lift_ok_bind]
    unfold setPlain
    rw [Tx.bind_assoc, Tx.modify_bind, Tx.modify_bind, Tx.get_bind]
    dsimp only [Col.cas]
    have hseen : ∀ t, p.seen { s.work with cas := t } = { s.work with cas := t } := fun t => seen_loaded hmarked
    rw [hcounter, Tx.bind_assoc, Tx.get_bind, hseen]
    simp only [Tx.bind_assoc]

/-- without a race the transaction is `revoke`'s -/
theorem carry_loaded {d : Db} (hmay : mayRevoke d p.actor p.certId p.reason p.changeRef = .ok p.row)
    (hlocal : p.row.backend = "local") (hcaId : p.row.caId = some caId) (hca : d.cas.get caId = some ca) :
    p.carry caId ca ⟨d, d⟩ = revoke p.env p.actor p.certId p.reason p.changeRef ⟨d, d⟩ := by
  have hget := mayRevoke_ok hmay
  have hmarked : d.certificates.update p.certId (updated p.row p.marked) =
      d.certificates.update p.certId fun _ => p.marked := by
    apply Table.update_congr
    intro r hr
    obtain rfl := Option.some.inj (hget.symm.trans hr)
    exact updated_loaded
  unfold revoke
  rw [Tx.get_bind]
  dsimp only
  rw [hmay, lift_ok_bind, if_neg (by rw [hlocal]; decide), if_neg (by simp [hlocal])]
  unfold Revoking.carry CAService.revoke
  split
  · rfl
  split
  · rfl
  simp only [hcaId]
  have hmark : (if p.row.status = .revoked then pure () else setRow p.env Col.certificates p.certId fun c =>
      { c with status := .revoked, revokedAt := some p.env.now, revocationReason := some p.reason } : M Unit) ⟨d, d⟩ =
      (.ok (), ⟨d, { d with certificates := d.certificates.update p.certId fun _ => p.marked }⟩) := by
    split
    · next hst =>
      have hsame : (d.certificates.update p.certId fun _ => p.marked) = d.certificates := by
        apply Table.update_eq_self
        intro r hr
        obtain rfl := Option.some.inj (hget.symm.trans hr)
        exact if_pos hst
      rw [hsame]
      rfl
    · next hst =>
      have hsame : (d.certificates.update p.certId fun c => flushed p.env.st c (markRevoked p.env p.reason c)) =
          d.certificates.update p.certId fun _ => p.marked := by
        apply Table.update_congr
        intro r hr
        obtain rfl := Option.some.inj (hget.symm.trans hr)
        exact (if_neg hst).symm
      rw [← hsame]
      rfl
  rw [Tx.bind_ok hmark, Tx.modify_bind, hmarked, generateCrl_loaded hca]
  rw [Table.get_update_self, hget]
  rfl

theorem calm_carry : Tx.Calm (fun _ _ : Db => True) (p.carry caId ca) := by
  have hlift : ∀ {α : Type} (x : Except Err α), Tx.Calm (fun _ _ : Db => True) (lift x) := fun x => Tx.calm_ofExcept x
  have hmodify : ∀ f : Db → Db, Tx.Calm (fun _ _ : Db => True) (Tx.modify f : M Unit) := fun f =>
    Tx.calm_modify fun _ => trivial
  unfold Revoking.carry
  split
  · exact Tx.calm_throw _
  split
  · exact Tx.calm_throw _
  refine Tx.calm_bind (hmodify _) fun _ => Tx.calm_bind (hlift _) fun _ => Tx.calm_bind (hmodify _) fun _ => ?_
  refine Tx.calm_get_bind fun d => Tx.calm_bind (hlift _) fun crl => Tx.calm_bind (hlift _) fun signer => ?_
  exact Tx.calm_bind (hlift _) fun _ => Tx.calm_bind (hmodify _) fun _ => hmodify _

theorem marked_status : p.marked.status = .revoked := by
  unfold Revoking.marked
  split
  · next h => exact h
  · simp [markRevoked]

theorem marked_columns : p.marked.caId = p.row.caId ∧ p.marked.serialHex = p.row.serialHex := by
  unfold Revoking.marked
  split
  · exact ⟨rfl, rfl⟩
  · simp [markRevoked]

/-- a row keeps its identity, and stays revoked if it was -/
structure StaysRevoked (r r' : Certificate) : Prop where
  caId : r'.caId = r.caId
  serialHex : r'.serialHex = r.serialHex
  revoked : r.status = .revoked → r'.status = .revoked

theorem updated_status {r : Certificate} (h : p.row.status = .revoked → r.status = .revoked) :
    (updated p.row p.marked r).status = .revoked := by
  have hnew : (updated p.row p.marked r).status = written p.row.status p.marked.status r.status := rfl
  rw [hnew, marked_status, written]
  split
  · next heq => exact h heq.symm
  · rfl

/-- the row of a transaction under way, as it is stored by then -/
structure Bound (caId : ℕ) (d : Db) (p : Revoking) : Prop where
  loaded : p.row.caId = some caId
  stored : ∃ r, d.certificates.get p.certId = some r ∧ StaysRevoked p.row r
  ca : p.ca ≠ none → ∃ stored, d.cas.get caId = some stored

/-- what a finish leaves -/
structure Finished (caId : ℕ) (p : Revoking) (ca : CertificateAuthority) (d d' : Db) : Prop where
  kept : ∀ i r, d.certificates.get i = some r → ∃ r', d'.certificates.get i = some r' ∧ StaysRevoked r r'
  marked : ∃ r, d'.certificates.get p.certId = some r ∧ r.caId = some caId ∧ r.status = .revoked
  crl : ∃ ca' crl, d'.cas.get caId = some ca' ∧ ca'.crlNumber = ca.crlNumber + 1 ∧ ca'.crlDer = some crl ∧
    crl.number = ca.crlNumber + 1 ∧
    ∀ i r, d'.certificates.get i = some r → r.caId = some caId → r.status = .revoked → Lists crl r.serialHex

/-- a finish that returns lists every revoked certificate of the CA -/
theorem finish_lists (hb : Bound caId d p) (hca : p.ca ≠ none) (h : Tx.Returns (p.carry caId ca) ⟨d, d⟩) :
    Finished caId p ca d (Tx.transact (p.carry caId ca) d).2 := by
  obtain ⟨u, s', h⟩ := h
  obtain ⟨dq, crl, hrows, hcrl, hcerts, hcas⟩ := carry_ok h
  obtain ⟨r, hr, hstays⟩ := hb.stored
  obtain ⟨stored, hstored⟩ := hb.ca hca
  have hnew := updated_status (p := p) hstays.revoked
  have hwork : (Tx.transact (p.carry caId ca) d).2 = s'.work := by
    unfold Tx.transact
    rw [h]
  rw [hwork]
  have hget : s'.work.certificates.get p.certId = some (updated p.row p.marked r) := by
    rw [hcerts, Table.get_update_self, hr]
    rfl
  have hcaId : (updated p.row p.marked r).caId = some caId := hstays.caId.trans hb.loaded
  refine ⟨?_, ⟨_, hget, hcaId, hnew⟩, ?_⟩
  · intro i r0 hr0
    by_cases hi : i = p.certId
    · subst hi
      obtain rfl := Option.some.inj (hr.symm.trans hr0)
      exact ⟨_, hget, rfl, rfl, fun _ => hnew⟩
    · exact ⟨r0, by rw [hcerts, Table.get_update_of_ne _ _ hi]; exact hr0, rfl, rfl, id⟩
  · refine ⟨{ stored with crlNumber := ca.crlNumber + 1, crlLastGenerated := some p.env.now, crlDer := some crl }, crl,
      ?_, rfl, rfl, ?_, ?_⟩
    · rw [hcas, Table.get_update_self, Table.get_update_self, hstored]
      rfl
    · unfold CAService.buildCrl at hcrl
      obtain ⟨entries, -, hcrl⟩ := except_bind_ok.1 hcrl
      cases hcrl
      rfl
    · intro i r0 hr0 hca0 hst0
      obtain ⟨hmca, hmserial⟩ := marked_columns (p := p)
      by_cases hi : i = p.certId
      · subst hi
        obtain rfl := Option.some.inj (hget.symm.trans hr0)
        have hseen : (p.seen dq).certificates.get p.certId = some p.marked := by
          unfold Revoking.seen
          rw [Table.get_update_self, hrows, Table.get_update_self, hr]
          rfl
        have hl := buildCrl_lists hcrl
          ((CAService.mem_crlRows hseen).2 ⟨hmca.trans hb.loaded, Or.inl marked_status⟩)
        rw [hmserial] at hl
        exact (show (updated p.row p.marked r).serialHex = p.row.serialHex from hstays.serialHex) ▸ hl
      · have hseen : (p.seen dq).certificates.get i = some r0 := by
          unfold Revoking.seen
          rw [Table.get_update_of_ne _ _ hi, hrows, ← hcerts]
          exact hr0
        exact buildCrl_lists hcrl ((CAService.mem_crlRows hseen).2 ⟨hca0, Or.inl hst0⟩)

end One

/-! ## Every interleaving -/

section Races

variable {caId : ℕ} {d : Db} {s : RevokeSt} {ops : List (ℕ × RevokeOp)}

/-- every transaction under way is bound to its rows -/
def Underway (caId : ℕ) (s : RevokeSt) : Prop := ∀ t p, s.loc t = some p → Bound caId s.shared p

/-- what a step does to the committed database: nothing, or a finish that returns -/
theorem revoke_shared (h : Underway caId s) (o : ℕ × RevokeOp) :
    (revokeStep caId s o).shared = s.shared ∧ (∀ p ca, ¬ CommitsRevocation caId s o p ca) ∨
      ∃ p ca, CommitsRevocation caId s o p ca ∧ Finished caId p ca s.shared (revokeStep caId s o).shared := by
  obtain ⟨t, op⟩ := o
  rw [Threads.step_shared]
  cases op with
  | load env actor certId reason changeRef =>
    refine Or.inl ⟨?_, fun _ _ hc => nomatch hc.1⟩
    unfold revokeRace
    dsimp only
    split
    · split <;> rfl
    · rfl
  | loadCa => exact Or.inl ⟨rfl, fun _ _ hc => nomatch hc.1⟩
  | rollback => exact Or.inl ⟨rfl, fun _ _ hc => nomatch hc.1⟩
  | finish =>
    cases hl : s.loc t with
    | none => exact Or.inl ⟨rfl, fun p ca hc => nomatch hl.symm.trans hc.2.1⟩
    | some p =>
      cases hca : p.ca with
      | none =>
        refine Or.inl ⟨by simp [revokeRace, hca], fun p' ca hc => ?_⟩
        obtain rfl := Option.some.inj (hl.symm.trans hc.2.1)
        exact nomatch hca.symm.trans hc.2.2.1
      | some ca =>
        have hstep : (revokeRace caId t s.shared (some p) .finish).1 =
            (Tx.transact (p.carry caId ca) s.shared).2 := by
          simp [revokeRace, hca]
        rw [hstep]
        by_cases hret : Tx.Returns (p.carry caId ca) ⟨s.shared, s.shared⟩
        · exact Or.inr ⟨p, ca, ⟨rfl, hl, hca, hret⟩, finish_lists (h t p hl) (by simp [hca]) hret⟩
        · refine Or.inl ⟨?_, fun p' ca' hc => ?_⟩
          · rw [Tx.transact_snd_of_raises hret]
            exact (calm_carry ⟨s.shared, s.shared⟩).1
          · obtain rfl := Option.some.inj (hl.symm.trans hc.2.1)
            obtain rfl := Option.some.inj (hca.symm.trans hc.2.2.1)
            exact hret hc.2.2.2

/-- a transaction under way after a step was so before, has just loaded its rows, or has just loaded the CA's row -/
theorem revoke_loc {o : ℕ × RevokeOp} {t : ℕ} {p : Revoking} (h : (revokeStep caId s o).loc t = some p) :
    s.loc t = some p ∨
      (revokeStep caId s o).shared = s.shared ∧
        ((s.shared.certificates.get p.certId = some p.row ∧ p.row.caId = some caId ∧ p.ca = none) ∨
          ∃ p', s.loc t = some p' ∧ p = { p' with ca := p'.ca.or (s.shared.cas.get caId) }) := by
  obtain ⟨u, op⟩ := o
  by_cases ht : t = u
  swap
  · rw [Threads.step_loc_other _ _ ht] at h
    exact Or.inl h
  subst ht
  rw [Threads.step_loc_self] at h
  rw [Threads.step_shared]
  cases op with
  | load env actor certId reason changeRef =>
    right
    unfold revokeRace at h ⊢
    dsimp only at h ⊢
    split at h
    · next row hrow =>
      split at h
      · next hlocal =>
        obtain rfl := Option.some.inj h
        rw [if_pos hlocal]
        exact ⟨rfl, Or.inl ⟨mayRevoke_ok hrow, hlocal.2, rfl⟩⟩
      · cases h
    · cases h
  | loadCa =>
    right
    unfold revokeRace at h ⊢
    obtain ⟨p', hp', rfl⟩ := Option.map_eq_some_iff.1 h
    exact ⟨rfl, Or.inr ⟨p', hp', rfl⟩⟩
  | finish =>
    unfold revokeRace at h
    dsimp only at h
    split at h
    · cases h
    · split at h <;> cases h
  | rollback => cases h

theorem StaysRevoked.trans {a b c : Certificate} (h : StaysRevoked a b) (h' : StaysRevoked b c) : StaysRevoked a c :=
  ⟨h'.caId.trans h.caId, h'.serialHex.trans h.serialHex, fun hst => h'.revoked (h.revoked hst)⟩

theorem Bound.step {p q : Revoking} {ca : CertificateAuthority} {d' : Db} (h : Bound caId d p)
    (hf : Finished caId q ca d d') : Bound caId d' p := by
  obtain ⟨r, hr, hstays⟩ := h.stored
  obtain ⟨r', hr', hstays'⟩ := hf.kept _ _ hr
  obtain ⟨ca', -, hca', -⟩ := hf.crl
  exact ⟨h.loaded, ⟨r', hr', hstays.trans hstays'⟩, fun _ => ⟨ca', hca'⟩⟩

theorem underway_revoke {o : ℕ × RevokeOp} (h : Underway caId s) : Underway caId (revokeStep caId s o) := by
  intro t p hp
  rcases revoke_loc hp with hbefore | ⟨hsame, ⟨hget, hca, hnone⟩ | ⟨p', hp', rfl⟩⟩
  · rcases revoke_shared h o with ⟨hsame, -⟩ | ⟨q, ca, -, hf⟩
    · exact hsame ▸ h t p hbefore
    · exact (h t p hbefore).step hf
  · rw [hsame]
    exact ⟨hca, ⟨p.row, hget, rfl, rfl, id⟩, fun hne => absurd hnone hne⟩
  · rw [hsame]
    obtain ⟨hloaded, hstored, hca⟩ := h t p' hp'
    refine ⟨hloaded, hstored, fun hne => ?_⟩
    cases hpca : p'.ca with
    | some ca => exact hca (by simp [hpca])
    | none =>
      rw [hpca, Option.none_or] at hne
      exact Option.ne_none_iff_exists'.1 hne

theorem revokeStart_loc {t : ℕ} {p : Revoking} : (revokeStart d).loc t ≠ some p := nofun

theorem revokeStart_underway : Underway caId (revokeStart d) := fun _ _ h => absurd h revokeStart_loc

/-- a finish publishes its own revocation and keeps the others published -/
theorem Finished.published {p : Revoking} {ca : CertificateAuthority} {d' : Db} (h : Finished caId p ca d d') {i : ℕ}
    (hi : i = p.certId ∨ Published caId i d) : Published caId i d' := by
  obtain ⟨ca', crl, hca', -, hder, -, hlists⟩ := h.crl
  have hstored : storedCrl caId d' = some crl := by
    unfold storedCrl
    rw [hca']
    exact hder
  rcases hi with rfl | ⟨r, -, hr, hca, hst, -, -⟩
  · obtain ⟨r, hr, hca, hst⟩ := h.marked
    exact ⟨r, crl, hr, hca, hst, hstored, hlists _ r hr hca hst⟩
  · obtain ⟨r', hr', hstays⟩ := h.kept _ _ hr
    have hca' := hstays.caId.trans hca
    exact ⟨r', crl, hr', hca', hstays.revoked hst, hstored, hlists _ r' hr' hca' (hstays.revoked hst)⟩

theorem published_step {o : ℕ × RevokeOp} {i : ℕ} (hs : Underway caId s) (h : Published caId i s.shared) :
    Published caId i (revokeStep caId s o).shared := by
  rcases revoke_shared hs o with ⟨hsame, -⟩ | ⟨p, ca, -, hf⟩
  · exact hsame ▸ h
  · exact hf.published (Or.inr h)

/-- the stored CRL and its number from one state to a later one: the same CRL, or one with a higher number -/
def Newer (caId : ℕ) (d d' : Db) : Prop :=
  ∀ ca, d.cas.get caId = some ca → ∃ ca', d'.cas.get caId = some ca' ∧ ca.crlNumber ≤ ca'.crlNumber ∧
    (ca'.crlDer = ca.crlDer ∨ ∃ crl, ca'.crlDer = some crl ∧ ca.crlNumber < crl.number)

theorem Newer.refl (d : Db) : Newer caId d d := fun ca h => ⟨ca, h, le_refl _, Or.inl rfl⟩

theorem Newer.trans {a b c : Db} (h : Newer caId a b) (h' : Newer caId b c) : Newer caId a c := by
  intro ca hca
  obtain ⟨ca', hca', hle, hder⟩ := h ca hca
  obtain ⟨ca'', hca'', hle', hder'⟩ := h' ca' hca'
  refine ⟨ca'', hca'', hle.trans hle', ?_⟩
  rcases hder' with hder' | ⟨crl, hcrl, hlt⟩
  · rw [hder']
    exact hder
  · exact Or.inr ⟨crl, hcrl, by omega⟩

theorem newer_step {o : ℕ × RevokeOp} (hs : Underway caId s) (h : FindsCounter caId s o) :
    Newer caId s.shared (revokeStep caId s o).shared := by
  rcases revoke_shared hs o with ⟨hsame, -⟩ | ⟨p, ca, hc, hf⟩
  · rw [hsame]
    exact Newer.refl _
  · intro stored hstored
    obtain ⟨ca', crl, hca', hnumber, hder, hcrl, -⟩ := hf.crl
    have hfinds := h p ca hc stored hstored
    exact ⟨ca', hca', by omega, Or.inr ⟨crl, hder, by omega⟩⟩

theorem counted_step {o : ℕ × RevokeOp} (hs : Underway caId s) (h : Counted caId s.shared) :
    Counted caId (revokeStep caId s o).shared := by
  rcases revoke_shared hs o with ⟨hsame, -⟩ | ⟨p, ca, -, hf⟩
  · rw [hsame]
    exact h
  · obtain ⟨ca', crl, hca', hnumber, hder, hcrl, -⟩ := hf.crl
    intro ca'' crl' hca'' hder'
    obtain rfl := Option.some.inj (hca'.symm.trans hca'')
    obtain rfl := Option.some.inj (hder.symm.trans hder')
    omega

theorem numbered_once (hs : Underway caId s) (hd : Counted caId s.shared)
    (hC : Along (revokeStep caId) (FindsCounter caId) s ops) : NumberedOnce caId s ops := by
  rintro before mid after crl crl' rfl hcrl hcrl' hnumber
  obtain ⟨hC, -⟩ := (along_append _ _ _).1 hC
  obtain ⟨-, hC⟩ := (along_append _ _ _).1 hC
  have hbefore : Underway caId (run (revokeStep caId) s before) ∧ Counted caId (run (revokeStep caId) s before).shared :=
    run_keeps (I := fun s : RevokeSt => Underway caId s ∧ Counted caId s.shared)
      (fun _ _ h => ⟨underway_revoke h.1, counted_step h.1 h.2⟩) ⟨hs, hd⟩ before
  -- the states reached so far are newer than the one after `before`
  have hnewer : Newer caId (run (revokeStep caId) s before).shared (run (revokeStep caId) s (before ++ mid)).shared := by
    rw [run_append]
    refine (run_inv (I := fun s' : RevokeSt => Underway caId s' ∧
      Newer caId (run (revokeStep caId) s before).shared s'.shared) ?_ ⟨hbefore.1, Newer.refl _⟩ hC).2
    exact fun s' o h hfinds => ⟨underway_revoke h.1, h.2.trans (newer_step h.1 hfinds)⟩
  obtain ⟨ca, hca, hder⟩ := Option.bind_eq_some_iff.1 hcrl
  obtain ⟨ca', hca', hder'⟩ := Option.bind_eq_some_iff.1 hcrl'
  obtain ⟨_, hget, -, hsame⟩ := hnewer ca hca
  obtain rfl := Option.some.inj (hca'.symm.trans hget)
  have hle := hbefore.2 ca crl hca hder
  rcases hsame with hsame | ⟨crl2, hcrl2, hlt⟩
  · exact Option.some.inj (hder.symm.trans (hsame.symm.trans hder'))
  · obtain rfl := Option.some.inj (hder'.symm.trans hcrl2)
    omega

/-- **Every committed revocation stays on the stored CRL**, after every interleaving; and no two CRLs are published under
one number if every finish finds the counter as it loaded it. -/
theorem published_crl (caId : ℕ) (d : Db) (hd : Counted caId d) (ops : List (ℕ × RevokeOp)) :
    (∀ before o after p ca, ops = before ++ o :: after →
      CommitsRevocation caId (run (revokeStep caId) (revokeStart d) before) o p ca →
        Published caId p.certId (run (revokeStep caId) (revokeStart d) ops).shared) ∧
    (Along (revokeStep caId) (FindsCounter caId) (revokeStart d) ops → NumberedOnce caId (revokeStart d) ops) := by
  constructor
  · rintro before o after p ca rfl hc
    have hs : Underway caId (run (revokeStep caId) (revokeStart d) before) :=
      run_keeps (fun _ _ => underway_revoke) revokeStart_underway before
    rw [run_append, run_cons]
    have hpub : Published caId p.certId (revokeStep caId (run (revokeStep caId) (revokeStart d) before) o).shared := by
      rcases revoke_shared hs o with ⟨-, hnone⟩ | ⟨q, ca', hq, hf⟩
      · exact absurd hc (hnone p ca)
      · obtain rfl := Option.some.inj (hq.2.1.symm.trans hc.2.1)
        exact hf.published (Or.inl rfl)
    exact (run_keeps (I := fun s : RevokeSt => Underway caId s ∧ Published caId p.certId s.shared)
      (fun _ _ h => ⟨underway_revoke h.1, published_step h.1 h.2⟩) ⟨underway_revoke hs, hpub⟩ after).2
  · exact numbered_once revokeStart_underway hd

end Races

/-! ### Two revocations at once -/

section Examples

/-- a certificate of the issuing CA -/
def issuedRow (serial : ℕ) : Certificate :=
  let name := toString serial
  { certRow demoEnv ⟨{ demoCaCert.tbs with serialNumber := serial, ca := false },
      ⟨"pem-" ++ name, "fp-" ++ name, "1.2.840.10045.4.3.2", some "sha256"⟩, false⟩ .issued none with caId := some 1 }

/-- a CA and two certificates it issued -/
def twoIssued : Db :=
  { Db.empty with
    cas := Table.empty.insert ⟨"issuing", none, "ca-pem", "file:ca", "file", false, 0, none, none, none, none, none, none,
      none, none, none, none⟩
    certificates := (Table.empty.insert (inserted demoState (issuedRow 16))).insert (inserted demoState (issuedRow 17)) }

def revokes (t certId : ℕ) : List (ℕ × RevokeOp) :=
  [(t, .load demoEnv ⟨"olga", .operator, none⟩ certId "key_compromise" none), (t, .loadCa)]

theorem twoIssued_counted : Counted 1 twoIssued := by
  intro ca crl hca hder
  obtain rfl := Option.some.inj hca
  cases hder

/-- one transaction after the other -/
def inTurn : List (ℕ × RevokeOp) := revokes 0 1 ++ (0, .finish) :: (revokes 1 2 ++ [(1, .finish)])

theorem finds_of_eq {caId : ℕ} {s : RevokeSt} {o : ℕ × RevokeOp}
    (h : o.2 = .finish → (s.shared.cas.get caId).map (·.crlNumber) = ((s.loc o.1).bind (·.ca)).map (·.crlNumber)) :
    FindsCounter caId s o := by
  rintro p ca ⟨hfinish, hp, hca, -⟩ stored hstored
  have heq := h hfinish
  rw [hp, hstored, Option.bind_some, hca] at heq
  exact Option.some.inj heq

theorem inTurn_finds : Along (revokeStep 1) (FindsCounter 1) (revokeStart twoIssued) inTurn := by
  have hnot : ∀ {s : RevokeSt} {t : ℕ} {op : RevokeOp}, op ≠ .finish → FindsCounter 1 s (t, op) := fun hne =>
    finds_of_eq fun h => absurd h hne
  refine ⟨hnot nofun, hnot nofun, finds_of_eq fun _ => ?_, hnot nofun, hnot nofun, finds_of_eq fun _ => ?_, trivial⟩
  · decide
  · decide

/-- one after the other, the first revocation is published and stays so, and the CRLs have two numbers -/
theorem first_published :
    (∃ p ca, CommitsRevocation 1 (run (revokeStep 1) (revokeStart twoIssued) (revokes 0 1)) (0, .finish) p ca ∧
      Published 1 p.certId (run (revokeStep 1) (revokeStart twoIssued) inTurn).shared) ∧
    NumberedOnce 1 (revokeStart twoIssued) inTurn := by
  obtain ⟨hpub, hnum⟩ := published_crl 1 twoIssued twoIssued_counted inTurn
  refine ⟨⟨(((run (revokeStep 1) (revokeStart twoIssued) (revokes 0 1)).loc 0).get (by decide)),
    (twoIssued.cas.get 1).get (by decide), ?_⟩, hnum inTurn_finds⟩
  have hc : CommitsRevocation 1 (run (revokeStep 1) (revokeStart twoIssued) (revokes 0 1)) (0, .finish)
      (((run (revokeStep 1) (revokeStart twoIssued) (revokes 0 1)).loc 0).get (by decide))
      ((twoIssued.cas.get 1).get (by decide)) := ⟨rfl, (Option.some_get _).symm, by decide, by decide⟩
  exact ⟨hc, hpub _ _ _ _ _ rfl hc⟩

/-- both transactions load the counter at 0, and the first commits -/
def firstCommits : List (ℕ × RevokeOp) := revokes 0 1 ++ revokes 1 2 ++ [(0, .finish)]

def secondCommits : List (ℕ × RevokeOp) := [(1, .finish)]

/-- the number of the stored CRL, and how many certificates it lists -/
def publishedSize (ops : List (ℕ × RevokeOp)) : Option (ℤ × ℕ) :=
  (storedCrl 1 (run (revokeStep 1) (revokeStart twoIssued) ops).shared).map fun crl => (crl.number, crl.entries.length)

theorem racing_sizes :
    publishedSize firstCommits = some (1, 1) ∧ publishedSize (firstCommits ++ secondCommits) = some (1, 2) := by
  decide

/-- Two CRLs are published under the number 1, one with one entry and one with two. -/
theorem one_number_twice :
    ¬ ∀ (caId : ℕ) (d : Db) (ops : List (ℕ × RevokeOp)), Counted caId d → NumberedOnce caId (revokeStart d) ops := by
  intro h
  obtain ⟨crl, hcrl, hone⟩ := Option.map_eq_some_iff.1 racing_sizes.1
  obtain ⟨crl', hcrl', htwo⟩ := Option.map_eq_some_iff.1 racing_sizes.2
  rw [Prod.mk.injEq] at hone htwo
  have heq : crl = crl' := h 1 twoIssued (firstCommits ++ secondCommits) twoIssued_counted firstCommits secondCommits []
    crl crl' (List.append_nil _).symm hcrl hcrl' (hone.1.trans htwo.1.symm)
  have hlen : crl.entries.length = crl'.entries.length := by rw [heq]
  omega

end Examples

end Certadillo.Revocation
