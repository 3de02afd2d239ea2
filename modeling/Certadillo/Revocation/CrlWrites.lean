/-
What the platform's calls do to the rows a CRL is made of.

A CRL of a CA lists its revoked rows, and fails as a whole if one of them cannot be an entry. `Since` says what a call may
have done to the rows, the CAs and the campaigns since the database it found: every row can still be an entry, a row that
reads revoked was revoked before or the call gave it its reason, and no CRL number went back.

- `keeps_frame`, `keeps_insert`, `keeps_assign`, `keeps_setCa`: the single writes.
- `calm_keepsCrl`: signing a CRL takes the next number.
- `calmAt_keepsRevoke`: a revocation gives its reason, which is a CRL's unless the row's backend is not the local CA.
- `calm_keepsSign`, `does_keepsDecide`, `calm_keepsComplete`, ...: issuing, decisions, reports of the gateway, campaigns.
-/
import Certadillo.Revocation.Agreement
import Certadillo.Services.Gateway
import Certadillo.Services.Atomic
import Certadillo.Enrollment.Ari

namespace Certadillo.Revocation

open Integrity Policy Py Platform
open Tx (Calm CalmAt Onward Does DoesAt calm_pure calm_throw calm_bind calm_get_bind calm_ofExcept_bind calmAt_bind
  calm_modify calm_ite does_bind does_get_bind onward_bind)

/-! ## Rows, CAs and campaigns -/

/-- the reasons a call gives: to row `i`, which has the serial `x` -/
abbrev Reasons := ℕ → String → String → Prop

/-- a row that can be a CRL entry -/
structure Listable (st : SealState) (c : Certificate) : Prop where
  serial : c.caId ≠ none → ∃ n : ℕ, c.serialHex = hex n ∧ 0 < n ∧ n < 2 ^ 159
  date : ∀ t, c.revokedAt = some t → CAService.earliestUtcTime ≤ t
  intact : verify st c = true
  reason : c.caId ≠ none → c.status = .revoked → ∃ reason ∈ REASONS, c.revocationReason = some reason

/-- the CA's counter does not go back, and a CRL it signed has a number of its own -/
structure Advances (ca ca' : CertificateAuthority) : Prop where
  number : ca.crlNumber ≤ ca'.crlNumber
  crl : ca'.crlDer = ca.crlDer ∨
    ∃ crl, ca'.crlDer = some crl ∧ ca.crlNumber < crl.number ∧ crl.number ≤ ca'.crlNumber

/-- every row can be an entry, no CRL is ahead of its CA's counter, and every campaign gives a reason of a CRL -/
structure Sound (st : SealState) (d : Db) : Prop where
  rows : ∀ i c, d.certificates.get i = some c → Listable st c
  numbers : ∀ i ca crl, d.cas.get i = some ca → ca.crlDer = some crl → crl.number ≤ ca.crlNumber
  campaigns : ∀ i camp, d.campaigns.get i = some camp → camp.revocationReason ∈ REASONS

/-- row `i` is a CA's and reads revoked for this reason -/
def RevokedFor (d : Db) (i : ℕ) (c : Certificate) (reason : String) : Prop :=
  d.certificates.get i = some c ∧ c.caId ≠ none ∧ c.status = .revoked ∧ c.revocationReason = some reason

/-- what a call may have done since the database it found -/
structure Since (st : SealState) (gives : Reasons) (d₀ d : Db) : Prop where
  sound : Sound st d
  reasons : ∀ i c reason, RevokedFor d i c reason → (∃ c₀, RevokedFor d₀ i c₀ reason) ∨ gives i c.serialHex reason
  counters : ∀ i ca, d₀.cas.get i = some ca → ∃ ca', d.cas.get i = some ca' ∧ Advances ca ca'

/-- a write that keeps it -/
def Keeps (st : SealState) (gives : Reasons) (d₀ a b : Db) : Prop := Since st gives d₀ a → Since st gives d₀ b

section Since

variable {st : SealState} {gives : Reasons} {d₀ d a b : Db}

theorem Advances.refl (ca : CertificateAuthority) : Advances ca ca := ⟨le_rfl, Or.inl rfl⟩

theorem Advances.trans {ca ca' ca'' : CertificateAuthority} (h : Advances ca ca') (h' : Advances ca' ca'') :
    Advances ca ca'' := by
  refine ⟨h.number.trans h'.number, ?_⟩
  rcases h'.crl with hsame | ⟨crl, hcrl, hlt, hle⟩
  · rcases h.crl with hsame' | ⟨crl, hcrl, hlt, hle⟩
    · exact Or.inl (hsame.trans hsame')
    · exact Or.inr ⟨crl, hsame.trans hcrl, hlt, hle.trans h'.number⟩
  · exact Or.inr ⟨crl, hcrl, lt_of_le_of_lt h.number hlt, hle⟩

theorem Sound.since (h : Sound st d) : Since st gives d d :=
  ⟨h, fun _ c _ hrev => Or.inl ⟨c, hrev⟩, fun _ ca hca => ⟨ca, hca, .refl ca⟩⟩

/-! ## Single writes -/

/-- a write to other tables -/
theorem keeps_frame (hcerts : b.certificates = a.certificates) (hcas : b.cas = a.cas) (hcamps : b.campaigns = a.campaigns) :
    Keeps st gives d₀ a b := by
  intro h
  refine ⟨⟨?_, ?_, ?_⟩, ?_, ?_⟩
  · rw [hcerts]
    exact h.sound.rows
  · rw [hcas]
    exact h.sound.numbers
  · rw [hcamps]
    exact h.sound.campaigns
  · unfold RevokedFor
    rw [hcerts]
    exact h.reasons
  · rw [hcas]
    exact h.counters

/-- a write to the certificates, row by row -/
theorem keeps_rows {t : Table Certificate}
    (hrow : Since st gives d₀ a → ∀ i c, t.get i = some c → Listable st c ∧
      ∀ reason, c.caId ≠ none → c.status = .revoked → c.revocationReason = some reason →
        (∃ c₀, RevokedFor d₀ i c₀ reason) ∨ gives i c.serialHex reason) :
    Keeps st gives d₀ a { a with certificates := t } := fun h =>
  ⟨⟨fun i c hget => (hrow h i c hget).1, h.sound.numbers, h.sound.campaigns⟩,
    fun i c reason hrev => (hrow h i c hrev.1).2 reason hrev.2.1 hrev.2.2.1 hrev.2.2.2, h.counters⟩

theorem verify_inserted_row (c : Certificate) : verify st (inserted st c) = true := by
  cases hk : st.key with
  | none => simp [verify, verifyRow, hk]
  | some κ => exact verify_inserted hk c

theorem verify_flushed_row {c c' : Certificate} (h : verify st c = true) : verify st (flushed st c c') = true := by
  cases hk : st.key with
  | none => simp [verify, verifyRow, hk]
  | some κ => exact verify_flushed hk h

/-- a new row: active, never revoked, and if a CA signed it, under a serial the CRL takes -/
theorem keeps_insert {c : Certificate} (hactive : c.status = .active) (hdate : c.revokedAt = none)
    (hserial : c.caId ≠ none → ∃ n : ℕ, c.serialHex = hex n ∧ 0 < n ∧ n < 2 ^ 159) :
    Keeps st gives d₀ a { a with certificates := a.certificates.insert (inserted st c) } := by
  refine keeps_rows fun h i c' hget => ?_
  rw [Table.get_insert] at hget
  split at hget
  · obtain rfl := Option.some.inj hget
    have hintact : verify st (inserted st c) = true := verify_inserted_row c
    obtain ⟨s, hs⟩ := inserted_certificate st c
    rw [hs] at hintact ⊢
    have hnot : c.status ≠ .revoked := by
      rw [hactive]
      exact fun h => nomatch h
    refine ⟨⟨hserial, fun t ht => ?_, hintact, fun _ hrev => absurd hrev hnot⟩, fun _ _ hrev => absurd hrev hnot⟩
    rw [hdate] at ht
    cases ht
  · exact ⟨h.sound.rows i c' hget, fun reason hca hrev hreason => h.reasons i c' reason ⟨hget, hca, hrev, hreason⟩⟩

/-- what an assignment to row `i` may do to it -/
structure Assigns (gives : Reasons) (i : ℕ) (c c' : Certificate) : Prop where
  serial : c'.serialHex = c.serialHex
  ca : c'.caId = c.caId
  date : c'.revokedAt = c.revokedAt ∨ ∀ t, c'.revokedAt = some t → CAService.earliestUtcTime ≤ t
  reason : c'.status = .revoked → (c.status = .revoked ∧ c'.revocationReason = c.revocationReason) ∨
    (c.caId ≠ none → ∃ reason ∈ REASONS, c'.revocationReason = some reason ∧ gives i c.serialHex reason)

theorem keeps_assign {id : ℕ} {f : Certificate → Certificate}
    (hf : ∀ c, a.certificates.get id = some c → Assigns gives id c (f c)) :
    Keeps st gives d₀ a { a with certificates := a.certificates.update id fun c => flushed st c (f c) } := by
  refine keeps_rows fun h i c' hget => ?_
  rw [Table.get_update] at hget
  split at hget
  · next hid =>
    subst hid
    obtain ⟨c, hc, rfl⟩ := Option.map_eq_some_iff.1 hget
    have hold := h.sound.rows i c hc
    have hintact : verify st (flushed st c (f c)) = true := verify_flushed_row hold.intact
    obtain ⟨s, hs⟩ := flushed_certificate st c (f c)
    rw [hs] at hintact ⊢
    obtain ⟨hserial, hca, hdate, hreason⟩ := hf c hc
    constructor
    · refine ⟨fun hne => ?_, fun t ht => ?_, hintact, fun hne hrev => ?_⟩
      · obtain ⟨n, hn, hpos, hlt⟩ := hold.serial (hca ▸ hne)
        exact ⟨n, hserial.trans hn, hpos, hlt⟩
      · rcases hdate with hsame | hnew
        · exact hold.date t (hsame ▸ ht)
        · exact hnew t ht
      · rcases hreason hrev with ⟨hwas, hsame⟩ | hgiven
        · obtain ⟨reason, hmem, hold'⟩ := hold.reason (hca ▸ hne) hwas
          exact ⟨reason, hmem, hsame.trans hold'⟩
        · obtain ⟨reason, hmem, hnew, -⟩ := hgiven (hca ▸ hne)
          exact ⟨reason, hmem, hnew⟩
    · intro reason hne hrev hrea
      rcases hreason hrev with ⟨hwas, hsame⟩ | hgiven
      · have hbefore := h.reasons i c reason ⟨hc, hca ▸ hne, hwas, hsame.symm.trans hrea⟩
        rwa [← hserial] at hbefore
      · obtain ⟨reason', -, hnew, hgives⟩ := hgiven (hca ▸ hne)
        obtain rfl := Option.some.inj (hnew.symm.trans hrea)
        exact Or.inr (hserial ▸ hgives)
  · exact ⟨h.sound.rows i c' hget, fun reason hca hrev hreason => h.reasons i c' reason ⟨hget, hca, hrev, hreason⟩⟩

/-- columns other than those of a revocation -/
theorem assigns_columns {i : ℕ} {c c' : Certificate} (hserial : c'.serialHex = c.serialHex) (hca : c'.caId = c.caId)
    (hdate : c'.revokedAt = c.revokedAt) (hreason : c'.revocationReason = c.revocationReason)
    (hstatus : c'.status = .revoked → c.status = .revoked) : Assigns gives i c c' :=
  ⟨hserial, hca, Or.inl hdate, fun h => Or.inl ⟨hstatus h, hreason⟩⟩

/-- a write to the CAs, row by row -/
theorem keeps_cas {t : Table CertificateAuthority}
    (hnew : ∀ i ca', t.get i = some ca' → (∃ ca, a.cas.get i = some ca ∧ Advances ca ca') ∨ ca'.crlDer = none)
    (hold : ∀ i ca, a.cas.get i = some ca → ∃ ca', t.get i = some ca' ∧ Advances ca ca') :
    Keeps st gives d₀ a { a with cas := t } := by
  intro h
  refine ⟨⟨h.sound.rows, fun i ca' crl hget hcrl => ?_, h.sound.campaigns⟩, h.reasons, fun i ca₀ hca₀ => ?_⟩
  · rcases hnew i ca' hget with ⟨ca, hca, hadvances⟩ | hnone
    · rcases hadvances.crl with hsame | ⟨crl', hcrl', -, hle⟩
      · exact (h.sound.numbers i ca crl hca (hsame.symm.trans hcrl)).trans hadvances.number
      · obtain rfl := Option.some.inj (hcrl'.symm.trans hcrl)
        exact hle
    · rw [hnone] at hcrl
      cases hcrl
  · obtain ⟨ca, hca, hadvances⟩ := h.counters i ca₀ hca₀
    obtain ⟨ca', hca', hadvances'⟩ := hold i ca hca
    exact ⟨ca', hca', hadvances.trans hadvances'⟩

theorem keeps_setCa {id : ℕ} {f : CertificateAuthority → CertificateAuthority}
    (hf : ∀ ca, a.cas.get id = some ca → Advances ca (f ca)) :
    Keeps st gives d₀ a { a with cas := a.cas.update id f } := by
  refine keeps_cas (fun i ca' hget => Or.inl ?_) fun i ca hget => ?_
  · rw [Table.get_update] at hget
    split at hget
    · next hid =>
      subst hid
      obtain ⟨ca, hca, rfl⟩ := Option.map_eq_some_iff.1 hget
      exact ⟨ca, hca, hf ca hca⟩
    · exact ⟨ca', hget, .refl ca'⟩
  · by_cases hid : i = id
    · subst hid
      refine ⟨f ca, ?_, hf ca hget⟩
      rw [Table.get_update_self, hget]
      rfl
    · refine ⟨ca, ?_, .refl ca⟩
      rw [Table.get_update_of_ne _ _ hid, hget]

theorem keeps_addCa {ca : CertificateAuthority} (hcrl : ca.crlDer = none) :
    Keeps st gives d₀ a { a with cas := a.cas.insert ca } := by
  refine keeps_cas (fun i ca' hget => ?_) fun i ca' hget => ⟨ca', Table.get_insert_of_some hget, .refl ca'⟩
  rw [Table.get_insert] at hget
  split at hget
  · obtain rfl := Option.some.inj hget
    exact Or.inr hcrl
  · exact Or.inl ⟨ca', hget, .refl ca'⟩

/-- a new campaign -/
theorem keeps_addCampaign {camp : RenewalCampaign} (hreason : camp.revocationReason ∈ REASONS) :
    Keeps st gives d₀ a { a with campaigns := a.campaigns.insert camp } := by
  intro h
  refine ⟨⟨h.sound.rows, h.sound.numbers, fun i camp' hget => ?_⟩, h.reasons, h.counters⟩
  change (a.campaigns.insert camp).get i = some camp' at hget
  rw [Table.get_insert] at hget
  split at hget
  · obtain rfl := Option.some.inj hget
    exact hreason
  · exact h.sound.campaigns i camp' hget

/-- a campaign keeps its reason -/
theorem keeps_setCampaign {id : ℕ} {f : RenewalCampaign → RenewalCampaign}
    (hf : ∀ camp, (f camp).revocationReason = camp.revocationReason) :
    Keeps st gives d₀ a { a with campaigns := a.campaigns.update id f } := by
  intro h
  refine ⟨⟨h.sound.rows, h.sound.numbers, fun i camp hget => ?_⟩, h.reasons, h.counters⟩
  change (a.campaigns.update id f).get i = some camp at hget
  rw [Table.get_update] at hget
  split at hget
  · obtain ⟨camp', hcamp', rfl⟩ := Option.map_eq_some_iff.1 hget
    rw [hf camp']
    exact h.sound.campaigns i camp' hcamp'
  · exact h.sound.campaigns i camp hget

theorem admits_keeps : Admits (Keeps st gives d₀) where
  apps _ _ := keeps_frame rfl rfl rfl
  folders _ _ := keeps_frame rfl rfl rfl
  setCa _ _ _ hf := keeps_setCa fun ca _ => ⟨(hf ca).number.ge, Or.inl (hf ca).crl⟩
  addCa _ _ hcrl := keeps_addCa hcrl
  anchors _ _ := keeps_frame rfl rfl rfl
  jobs _ _ := keeps_frame rfl rfl rfl
  event _ _ _ := keeps_frame rfl rfl rfl

end Since

/-! ## CRLs and revocations -/

section Revoking

variable {env : Env} {gives : Reasons} {d₀ : Db}

theorem calm_keepsRecord (actor action target : String) (details : List (String × Json)) :
    Calm (Keeps env.st gives d₀) (record env actor action target details) :=
  calm_modify fun _ => keeps_frame rfl rfl rfl

/-- a table a CRL is not made of -/
def Beside {α : Type} (c : Col α) : Prop :=
  ∀ d t, (c.put d t).certificates = d.certificates ∧ (c.put d t).cas = d.cas ∧ (c.put d t).campaigns = d.campaigns

theorem calm_keepsSet {α : Type} (c : Col α) (h : Beside c) (id : ℕ) (f : α → α) :
    Calm (Keeps env.st gives d₀) (setPlain c id f) :=
  calm_modify fun d => keeps_frame (h d _).1 (h d _).2.1 (h d _).2.2

theorem calm_keepsSetRow {α : Type} [Sealed α] [DecidableEq α] (c : Col α) (h : Beside c) (id : ℕ) (f : α → α) :
    Calm (Keeps env.st gives d₀) (setRow env c id f) :=
  calm_modify fun d => keeps_frame (h d _).1 (h d _).2.1 (h d _).2.2

theorem calm_keepsAdd {α : Type} (c : Col α) (h : Beside c) (clash : Table α → Option String) (a : α) :
    Calm (Keeps env.st gives d₀) (addPlain c clash a) :=
  calm_addPlain_of fun d => keeps_frame (h d _).1 (h d _).2.1 (h d _).2.2

theorem buildCrl_number {d : Db} {caId : ℕ} {number hours : ℤ} {crl : Crl}
    (h : CAService.buildCrl env d caId number hours = .ok crl) : crl.number = number := by
  unfold CAService.buildCrl at h
  obtain ⟨entries, -, h⟩ := except_bind_ok.1 h
  obtain rfl := Except.ok.inj h
  rfl

/-- **Signing a CRL takes the next number**, also where it fails once the counter is incremented. -/
theorem calm_keepsCrl (caId : ℕ) (hours : ℤ) : Calm (Keeps env.st gives d₀) (CAService.generateCrl env caId hours) := by
  intro s
  unfold CAService.generateCrl
  refine Tx.calmAt_get_bind ?_
  cases hca : s.work.cas.get caId with
  | none => exact calm_throw _ s
  | some ca =>
    refine Tx.calmAt_ofExcept_bind fun cert _ => ?_
    have hbump : Keeps env.st gives d₀ s.work
        { s.work with cas := s.work.cas.update caId fun ca => { ca with crlNumber := ca.crlNumber + 1 } } :=
      keeps_setCa fun ca _ => ⟨by show ca.crlNumber ≤ ca.crlNumber + 1; omega, Or.inl rfl⟩
    unfold setPlain CalmAt
    rw [Tx.modify_bind, Tx.get_bind]
    dsimp only
    cases hbuild : CAService.buildCrl env
        (Col.cas.put s.work ((Col.cas.get s.work).update caId fun ca => { ca with crlNumber := ca.crlNumber + 1 })) caId
        (ca.crlNumber + 1) hours with
    | error e => exact ⟨rfl, .single hbump⟩
    | ok crl =>
      rw [lift_ok_bind]
      cases hsigner : CAService.signerFor env ca with
      | error e => exact ⟨rfl, .single hbump⟩
      | ok signer =>
        rw [lift_ok_bind]
        cases hsign : libCall Err.value (env.signCrl signer crl) with
        | error e => exact ⟨rfl, .single hbump⟩
        | ok u =>
          rw [lift_ok_bind]
          refine ⟨rfl, .single ?_⟩
          have hstore : Keeps env.st gives d₀ s.work { s.work with
              cas := (s.work.cas.update caId fun ca => { ca with crlNumber := ca.crlNumber + 1 }).update caId fun ca =>
                { ca with crlLastGenerated := some env.now, crlDer := some crl } } := by
            rw [Table.update_update]
            refine keeps_setCa fun ca' hca' => ?_
            obtain rfl := Option.some.inj (hca.symm.trans hca')
            have hnumber := buildCrl_number hbuild
            refine ⟨?_, Or.inr ⟨crl, rfl, ?_, ?_⟩⟩
            · show ca.crlNumber ≤ ca.crlNumber + 1
              omega
            · omega
            · show crl.number ≤ ca.crlNumber + 1
              omega
          exact hstore

/-- the row a revocation marks: a CA's row gets a reason a CRL can give, and the call gives it -/
def MayMark (gives : Reasons) (reason : String) (id : ℕ) (c : Certificate) : Prop :=
  c.caId ≠ none → reason ∈ REASONS ∧ gives id c.serialHex reason

theorem calmAt_keepsMark (hnow : CAService.earliestUtcTime ≤ env.now) {s : Session Db} {id : ℕ} {reason : String}
    (hrow : ∀ c, s.work.certificates.get id = some c → MayMark gives reason id c) :
    CalmAt (Keeps env.st gives d₀) s (setRow env Col.certificates id (markRevoked env reason)) := by
  refine Tx.calmAt_modify (keeps_assign fun c hc => ⟨rfl, rfl, Or.inr fun t ht => ?_, fun _ => Or.inr fun hca => ?_⟩)
  · obtain rfl := Option.some.inj ht
    exact hnow
  · obtain ⟨hmem, hgives⟩ := hrow c hc hca
    exact ⟨reason, hmem, rfl, hgives⟩

/-- **A revocation gives its reason.** The local CA refuses a reason that is not a CRL's; the other backends take any. -/
theorem calmAt_keepsRevoke (hnow : CAService.earliestUtcTime ≤ env.now) {s : Session Db} {certId : ℕ} {reason : String}
    {actor : Actor} {changeRef : Option String} (hrow : ∀ c, mayRevoke s.work actor certId reason changeRef = .ok c →
      c.caId ≠ none → (c.backend ≠ "local" → reason ∈ REASONS) ∧ gives certId c.serialHex reason) :
    CalmAt (Keeps env.st gives d₀) s (revoke env actor certId reason changeRef) := by
  unfold revoke
  refine Tx.calmAt_get_bind (Tx.calmAt_ofExcept_bind fun row hmay => ?_)
  have hget : s.work.certificates.get certId = some row := mayRevoke_ok hmay
  have hgives := hrow row hmay
  have hmark : row.backend ≠ "local" → ∀ s' : Session Db, s'.work.certificates = s.work.certificates →
      CalmAt (Keeps env.st gives d₀) s' (do
        setRow env Col.certificates certId (markRevoked env reason)
        record env actor.name "certificate.revoke" row.serialHex [("reason", .str reason), ("change_ref", .ofStr? changeRef)]) := by
    intro hbackend s' hsame
    refine calmAt_bind (calmAt_keepsMark hnow fun c hc => ?_) fun _ s'' _ => calm_keepsRecord _ _ _ _ s''
    rw [hsame] at hc
    obtain rfl := Option.some.inj (hget.symm.trans hc)
    exact fun hca => ⟨(hgives hca).1 hbackend, (hgives hca).2⟩
  extract_lets -underBinder upstream
  split
  · next hadcs =>
    refine calmAt_bind (calm_keepsAdd Col.jobs (fun _ _ => ⟨rfl, rfl, rfl⟩) _ _ s) fun _ s' hadd => ?_
    refine hmark ?_ s' (addPlain_jobs_certificates hadd)
    rw [hadcs]
    decide
  · split
    · next hother =>
      split
      · exact calmAt_bind (calm_throw _ s) fun _ _ h => by cases h
      · exact Tx.calmAt_ofExcept_bind fun _ _ => hmark hother s rfl
    · refine calmAt_bind ?_ fun _ s' _ => ?_
      · unfold CAService.revoke
        split
        · exact calm_throw _ s
        next hmem =>
          have hreason : reason ∈ REASONS := by simpa using hmem
          split
          · exact calm_throw _ s
          split
          · exact calm_pure _ s
          · refine calmAt_keepsMark hnow fun c hc => ?_
            obtain rfl := Option.some.inj (hget.symm.trans hc)
            exact fun hca => ⟨hreason, (hgives hca).2⟩
      · split
        · exact calmAt_bind (calm_throw _ s') fun _ _ h => by cases h
        · exact calm_bind (calm_keepsCrl _ _) (fun _ => calm_keepsRecord _ _ _ _) s'

/-- a revocation whose reason is a CRL's -/
theorem calm_keepsRevoke (hnow : CAService.earliestUtcTime ≤ env.now) {certId : ℕ} {reason : String} (hreason : reason ∈ REASONS)
    (hgives : ∀ serial, gives certId serial reason) (actor : Actor) (changeRef : Option String) :
    Calm (Keeps env.st gives d₀) (revoke env actor certId reason changeRef) := fun _ =>
  calmAt_keepsRevoke hnow fun _ _ _ => ⟨fun _ => hreason, hgives _⟩

end Revoking

/-! ## Issuing -/

/-- the clock reads a time a certificate can hold, and the serial that is drawn fits one -/
structure Ordinary (env : Env) : Prop where
  now : CAService.earliestUtcTime ≤ env.now
  serial : 0 < env.randomSerial 0 ∧ env.randomSerial 0 < 2 ^ 159

/-- the rows issuing may add -/
structure NewRow (c : Certificate) : Prop where
  active : c.status = .active
  undated : c.revokedAt = none
  serial : c.caId ≠ none → ∃ n : ℕ, c.serialHex = hex n ∧ 0 < n ∧ n < 2 ^ 159

section Issuing

variable {env : Env} {gives : Reasons} {d₀ : Db}

theorem enrols_keeps : Enrols env NewRow (fun _ _ => True) (Keeps env.st gives d₀) where
  toAdmits := admits_keeps
  addCertificate _ _ h := keeps_insert h.active h.undated h.serial
  supersede _ _ _ _ := keeps_assign fun _ _ => assigns_columns rfl rfl rfl rfl fun h => nomatch h
  fill _ _ _ hf := keeps_assign fun c _ => assigns_columns (hf c).retires.serialHex (hf c).retires.caId (hf c).revokedAt
    (hf c).reason fun h => (hf c).status ▸ h

theorem keeps_ask (d : Db) (r : ApprovalRequest) :
    Keeps env.st gives d₀ d { d with approvals := d.approvals.insert (inserted env.st r) } := keeps_frame rfl rfl rfl

theorem Ordinary.newRow (h : Ordinary env) {c : Certificate} (hoffered : Offered env c) (hactive : c.status = .active)
    (hundated : c.revokedAt = none) : NewRow c :=
  ⟨hactive, hundated, fun hca => ⟨env.randomSerial 0, hoffered.resolve_left hca, h.serial⟩⟩

theorem does_keepsRequest (h : Ordinary env) (actor : Actor) (appId : ℕ) (r : CertRequest) :
    Does (Keeps env.st gives d₀) (requestCertificate env actor appId r) :=
  (onward_requestCertificate_of enrols_keeps (fun d a _ => keeps_ask d a) (fun _ => h.newRow) (fun _ _ _ => trivial) actor appId).does

theorem does_keepsRenew (h : Ordinary env) (actor : Actor) (certId : ℕ) (csrPem protocol : String) :
    Does (Keeps env.st gives d₀) (renew env actor certId csrPem protocol) :=
  does_renew_of enrols_keeps (fun d a _ => keeps_ask d a) (fun _ => h.newRow) (fun _ => trivial) actor csrPem protocol

theorem calm_keepsIngest {source : CertSource} (hsource : source.text ≠ "revoke") (actorName : String) (cert : X509Cert)
    (location : Option String) (appId : Option ℕ) :
    Calm (Keeps env.st gives d₀) (ingest env actorName cert source location appId) := fun _ =>
  calmAt_ingest_of enrols_keeps (fun _ hca _ hactive hundated => ⟨hactive, hundated, fun hne => absurd hca hne⟩) hsource
    (fun _ _ _ _ _ _ => trivial) actorName cert appId

end Issuing

/-! ## The AD CS gateway -/

section Gateway

variable {env : Env} {gives : Reasons} {d₀ : Db}

theorem calm_keepsIngestAll (actorName location : String) (owners : List (String × ℕ)) (items : List Json) :
    Calm (Keeps env.st gives d₀) (Gateway.ingestAll env actorName location owners items) := by
  induction items with
  | nil => exact calm_pure _
  | cons item rest ih =>
    unfold Gateway.ingestAll
    refine calm_ite (fun _ => ?_) fun _ => ih
    refine calm_ofExcept_bind fun pem _ => calm_ofExcept_bind fun cert _ => calm_ofExcept_bind fun appId _ => ?_
    exact calm_bind (calm_keepsIngest (by decide) _ _ _ _) fun _ => ih

theorem calm_keepsCarryOut (actor : Actor) (jobId : ℕ) (job : AdcsJob) (r : Gateway.Report) :
    Calm (Keeps env.st gives d₀) (Gateway.carryOut env actor jobId job r) := by
  unfold Gateway.carryOut
  split
  · refine calm_ofExcept_bind fun p _ => ?_
    dsimp only
    refine calm_bind (calm_keepsIngest (by decide) _ _ _ _) fun id => ?_
    refine calm_bind (calm_modify fun d => keeps_assign fun _ _ => assigns_columns rfl rfl rfl rfl fun h => h) fun _ => ?_
    exact calm_keepsSet Col.jobs (fun _ _ => ⟨rfl, rfl, rfl⟩) _ _
  · exact calm_pure _
  · exact calm_get_bind fun d => calm_keepsIngestAll _ _ _ _

/-- **A report of the gateway revokes nothing**, and a row it moves to the gateway keeps its revocation. -/
theorem calm_keepsComplete (actor : Actor) (jobId : ℕ) (r : Gateway.Report) :
    Calm (Keeps env.st gives d₀) (Gateway.gatewayComplete env actor jobId r) := by
  unfold Gateway.gatewayComplete
  refine calm_get_bind fun d => calm_ofExcept_bind fun job _ => ?_
  split
  · refine calm_bind (calm_keepsSet Col.jobs (fun _ _ => ⟨rfl, rfl, rfl⟩) _ _) fun _ => ?_
    exact calm_keepsRecord _ _ _ _
  · refine calm_bind (calm_keepsCarryOut _ _ _ _) fun _ => ?_
    refine calm_bind (calm_keepsSet Col.jobs (fun _ _ => ⟨rfl, rfl, rfl⟩) _ _) fun _ => ?_
    exact calm_keepsRecord _ _ _ _

end Gateway

/-! ## Campaigns -/

section Campaigns

variable {env : Env} {gives : Reasons} {d₀ : Db}

/-- a call may rely on what it has kept so far -/
theorem doesAt_assuming {α : Type} {s : Session Db} {m : M α}
    (h : Since env.st gives d₀ s.work → DoesAt (Keeps env.st gives d₀) s m) : DoesAt (Keeps env.st gives d₀) s m := by
  by_cases hs : Since env.st gives d₀ s.work
  · exact h hs
  · -- any write keeps what does not hold
    intro I hI _ hw
    have hany : ∀ b, I b := fun b => hI s.work b (fun hs' => absurd hs' hs) hw
    exact ⟨hany _, hany _⟩

/-- the reason a campaign gives: to the certificates it advises on -/
def campaignGives (d : Db) (campaignId : ℕ) : Reasons := fun i _ reason =>
  ∃ camp, d.campaigns.get campaignId = some camp ∧ reason = camp.revocationReason ∧
    ∃ a ∈ d.advice, a.campaignId = campaignId ∧ a.certificateId = i

/-- **A campaign revokes for its own reason**, which was a CRL's when the campaign was created. -/
theorem doesAt_keepsCampaign (hnow : CAService.earliestUtcTime ≤ env.now) {s : Session Db} {campaignId : ℕ}
    (hgives : ∀ i serial reason, campaignGives s.work campaignId i serial reason → gives i serial reason) (actor : Actor)
    (remaining : Bool) (changeRef : Option String) :
    DoesAt (Keeps env.st gives d₀) s (campaignRevokeNow env actor campaignId remaining changeRef) := by
  refine doesAt_assuming fun hs => ?_
  unfold campaignRevokeNow
  refine Tx.doesAt_get_bind ?_
  split
  · exact (Tx.calm_throw _).does s
  next camp hcamp =>
  have hreason : camp.revocationReason ∈ REASONS := hs.sound.campaigns campaignId camp hcamp
  have hadvised : ∀ a ∈ s.work.advice.filter fun a => a.campaignId = campaignId, ∀ serial,
      gives a.certificateId serial camp.revocationReason := by
    intro a ha serial
    obtain ⟨hmem, hid⟩ := List.mem_filter.1 ha
    exact hgives _ _ _ ⟨camp, hcamp, rfl, a, hmem, by simpa using hid, rfl⟩
  refine Calm.does ?_ s
  refine calm_bind ?_ fun n => calm_bind (calm_keepsRecord _ _ _ _) fun _ => calm_pure _
  refine calm_campaignLoop (fun _ _ => keeps_frame rfl rfl rfl) (fun a ha => ?_) campaignId remaining
  exact calm_keepsRevoke hnow hreason (hadvised a ha) _ _

theorem doesAt_keepsCampaignRevoke (hnow : CAService.earliestUtcTime ≤ env.now) {s : Session Db} {campaignId : ℕ}
    (hgives : ∀ i serial reason, campaignGives s.work campaignId i serial reason → gives i serial reason) (actor : Actor)
    (remaining : Bool) (changeRef : Option String) :
    DoesAt (Keeps env.st gives d₀) s (campaignRevoke env actor campaignId remaining changeRef) := by
  unfold campaignRevoke
  refine Tx.doesAt_ofExcept_bind fun _ _ => ?_
  split
  · refine Calm.does (calm_bind ?_ fun _ => calm_pure _) s
    exact calm_requestApproval_of admits_keeps (fun d a _ => keeps_ask d a) _ _ _
  · exact Tx.doesAt_bind (doesAt_keepsCampaign hnow hgives _ _ _) fun _ s' _ => (calm_pure _).does s'

theorem calm_keepsCreateCampaign (actor : Actor) (name reason : String) (criteria : Ari.Criteria) (hours : ℤ)
    (url : Option String) (revocationReason : String) (immediate : Bool) :
    Calm (Keeps env.st gives d₀) (createCampaign env actor name reason criteria hours url revocationReason immediate) := by
  unfold createCampaign
  refine calm_ofExcept_bind fun _ _ => ?_
  split
  · exact Tx.calm_throw _
  next hmem =>
  have hreason : revocationReason ∈ REASONS := by simpa using hmem
  unfold Ari.createCampaign
  split
  · exact Tx.calm_throw _
  split
  · exact Tx.calm_throw _
  split
  · exact Tx.calm_throw _
  refine calm_get_bind fun d => calm_ofExcept_bind fun certs _ => ?_
  refine calm_bind (calm_addPlain_of fun d => keeps_addCampaign hreason) fun id => ?_
  refine calm_bind (calm_modify fun d => keeps_frame rfl rfl rfl) fun _ => ?_
  exact calm_bind (calm_keepsRecord _ _ _ _) fun _ => calm_pure _

theorem calm_keepsCloseCampaign (actor : Actor) (campaignId : ℕ) :
    Calm (Keeps env.st gives d₀) (closeCampaign env actor campaignId) := by
  unfold closeCampaign
  refine calm_ofExcept_bind fun _ _ => calm_get_bind fun d => ?_
  split
  · exact Tx.calm_throw _
  · exact calm_bind (calm_modify fun d => keeps_setCampaign fun _ => rfl) fun _ => calm_keepsRecord _ _ _ _

end Campaigns

/-! ## Decisions -/

section Deciding

variable {env : Env} {gives : Reasons} {d₀ : Db}

theorem calm_keepsSignNow (requestId : ℕ) (decidedBy : String) :
    Calm (Keeps env.st gives d₀) (CodeSign.signNow env requestId decidedBy) := by
  unfold CodeSign.signNow
  refine calm_get_bind fun d => ?_
  split
  · exact Tx.calm_throw _
  split
  · exact Tx.calm_throw _
  refine calm_ite (fun _ => Tx.calm_throw _) fun _ => calm_ite (fun _ => Tx.calm_throw _) fun _ => ?_
  refine calm_ofExcept_bind fun rc _ => calm_ofExcept_bind fun _ _ => calm_ofExcept_bind fun signer _ => ?_
  refine calm_ofExcept_bind fun tsaCa _ => calm_bind (CAService.calm_ensureTsa_of admits_keeps _ _) fun _ => ?_
  refine calm_ofExcept_bind fun der _ => ?_
  refine calm_bind (calm_keepsSet Col.signingRequests (fun _ _ => ⟨rfl, rfl, rfl⟩) _ _) fun _ => ?_
  exact calm_keepsRecord _ _ _ _

theorem calm_keepsReject (requestId : ℕ) (decidedBy : String) :
    Calm (Keeps env.st gives d₀) (CodeSign.reject env requestId decidedBy) := by
  unfold CodeSign.reject
  refine calm_get_bind fun d => ?_
  split
  · exact calm_pure _
  refine calm_ite (fun _ => calm_pure _) fun _ => ?_
  refine calm_bind (calm_keepsSet Col.signingRequests (fun _ _ => ⟨rfl, rfl, rfl⟩) _ _) fun _ => ?_
  exact calm_keepsRecord _ _ _ _

/-- **A decision** issues, or revokes for the reason of the campaign it was asked for. -/
theorem doesAt_keepsDecide (h : Ordinary env) {s : Session Db} {approvalId : ℕ}
    (hgives : ∀ req campaignId, s.work.approvals.get approvalId = some req → campaignOf req = .ok campaignId →
      ∀ i serial reason, campaignGives s.work campaignId i serial reason → gives i serial reason) (actor : Actor)
    (approve : Bool) (comment : Option String) :
    DoesAt (Keeps env.st gives d₀) s (Platform.decide env actor approvalId approve comment) := by
  unfold Platform.decide
  refine Tx.doesAt_get_bind (Tx.doesAt_ofExcept_bind fun req hreq => ?_)
  have hstored := (decideChecks_ok hreq).stored
  refine doesAt_carry_of admits_keeps (fun _ _ => keeps_frame rfl rfl rfl) (fun _ => ?_) fun _ id => calm_keepsReject _ _
  refine executeBranch_doesAt_of admits_keeps ?_ ?_ ?_ ?_
  · intro _ a
    exact does_executeIssue_of enrols_keeps (fun _ c hc hundated => h.newRow hc.offered hc.active hundated) _ fun _ _ => trivial
  · intro _ a
    exact CodeSign.calm_createKeyNow_of enrols_keeps (fun _ _ => keeps_frame rfl rfl rfl)
      (fun _ c hc hundated => h.newRow hc.offered hc.active hundated) _ _
  · intro _ id _
    exact calm_keepsSignNow _ _
  · intro _ actor campaignId changeRef hid
    refine doesAt_keepsCampaign h.now (fun i serial reason hgiven => ?_) _ _ _
    -- the decision itself leaves the campaigns and their advice
    have hsame : campaignGives s.work campaignId i serial reason := hgiven
    exact hgives req campaignId hstored hid i serial reason hsame

end Deciding

end Certadillo.Revocation
