/-
CRL generation over any history of issuing, gateway reports, revocations and generated CRLs.

`Platform.revoke` checks the reason where the local CA revokes, and a row's backend decides that. A report of the AD CS
gateway that brings a certificate the local CA issued moves the row to the gateway; from then on any reason is taken for it,
and `generate_crl` looks every reason up. CMP, ACME, campaigns and provisioning never give another reason than a CRL's.

- `step_since`: what a call of a history leaves of the rows, the CAs and the campaigns.
- `crls_survive`: every CA whose signer works gets its CRL in every state of a history that gives no other reason to a row
  that was moved; `unknown_reason_stops_crls` is a history that does.
-/
import Certadillo.Revocation.CrlFronts

namespace Certadillo.Revocation

open Integrity Policy Py Platform Machine
open Tx (Calm DoesAt)

/-! ## One CRL -/

section Crl

variable {st : SealState} {env : Env} {d : Db} {c : Certificate}

theorem Listable.shown (h : Listable st c) (hca : c.caId ≠ none) (hst : c.status = .revoked) :
    c.revocationReason = some (shownReason st c) ∧ shownReason st c ∈ REASONS := by
  obtain ⟨reason, hmem, hreason⟩ := h.reason hca hst
  have hne : reason ≠ "" := by
    rintro rfl
    revert hmem
    decide
  have hshown : shownReason st c = reason := by
    have hkept : (some reason).filter (fun r => decide (r ≠ "")) = some reason := Option.filter_some_pos (by simpa using hne)
    simp only [shownReason, hst, h.intact, hreason, decide_true, Bool.and_self, if_true]
    rw [hkept]
    rfl
  exact ⟨hshown ▸ hreason, hshown ▸ hmem⟩

theorem Listable.entered (h : Listable st c) (hca : c.caId ≠ none) {now : ℤ} (hnow : CAService.earliestUtcTime ≤ now) :
    Entered st now c := by
  obtain ⟨n, hn, hpos, hlt⟩ := h.serial hca
  refine ⟨⟨n, by rw [hn, intOfHex_hex], hpos, hlt⟩, ?_, ?_⟩
  · cases hdate : c.revokedAt with
    | none => exact hnow
    | some t => exact h.date t hdate
  · by_cases hst : c.status = .revoked
    · exact (h.shown hca hst).2
    · have hdefault : "unspecified" ∈ REASONS := by decide
      simpa [shownReason, hst] using hdefault

/-- **A CRL can be generated** over sound rows, under the next number, and shows the reason of every revoked row. -/
theorem Sound.generates (hd : Sound env.st d) (hnow : CAService.earliestUtcTime ≤ env.now) {caId : ℕ}
    {ca : CertificateAuthority} (hca : d.cas.get caId = some ca) (hsign : Signing env ca) (hours : ℤ) :
    ∃ s' crl, CAService.generateCrl env caId hours ⟨d, d⟩ = (.ok (), s') ∧ storedCrl caId s'.work = some crl ∧
      crl.number = ca.crlNumber + 1 ∧ ∀ i c, d.certificates.get i = some c → c.caId = some caId → c.status = .revoked →
        ∃ e ∈ crl.entries, c.serialHex = hex e.serial ∧ c.revocationReason = some e.reason := by
  have hentered : ∀ r ∈ CAService.crlRows env.st d caId, Entered env.st env.now r := by
    intro r hr
    obtain ⟨i, hget, hrca⟩ := crlRows_stored hr
    exact (hd.rows i r hget).entered (by simp [hrca]) hnow
  have hreturns : ∃ crl, crlOf env d caId hours = .ok crl := (crlOf_returns hca hsign).2 hentered
  obtain ⟨crl, hcrl⟩ := hreturns
  have hrun := @generateCrl_run env caId hours ⟨d, d⟩
  dsimp only at hrun
  rw [hcrl] at hrun
  obtain ⟨s', hs', hstored⟩ := hrun
  have hbuilt : CAService.buildCrl env d caId (ca.crlNumber + 1) hours = .ok crl := by
    unfold crlOf at hcrl
    rw [hca] at hcrl
    obtain ⟨_, -, hcrl⟩ := except_bind_ok.1 hcrl
    obtain ⟨crl', hbuilt, hcrl⟩ := except_bind_ok.1 hcrl
    obtain ⟨_, -, hcrl⟩ := except_bind_ok.1 hcrl
    obtain ⟨_, -, hcrl⟩ := except_bind_ok.1 hcrl
    obtain rfl := Except.ok.inj hcrl
    exact hbuilt
  refine ⟨s', crl, hs', hstored, buildCrl_number hbuilt, fun i c hget hcca hst => ?_⟩
  unfold CAService.buildCrl at hbuilt
  obtain ⟨entries, hentries, hbuilt⟩ := except_bind_ok.1 hbuilt
  obtain rfl := Except.ok.inj hbuilt
  have hrow : c ∈ CAService.crlRows env.st d caId := (CAService.mem_crlRows hget).2 ⟨hcca, Or.inl hst⟩
  obtain ⟨e, he⟩ := except_mapM_returns.1 ⟨entries, hentries⟩ c hrow
  have hne : c.caId ≠ none := by simp [hcca]
  have hlistable : Listable env.st c := hd.rows i c hget
  obtain ⟨n, hn, -⟩ := hlistable.serial hne
  have hserial := CAService.crlEntry_serial he
  rw [hn, intOfHex_hex] at hserial
  obtain rfl : n = e.serial := Int.ofNat_inj.1 (Except.ok.inj hserial)
  refine ⟨e, (except_mapM_mem hentries).2 ⟨c, hrow, he⟩, hn, ?_⟩
  rw [crlEntry_reason he]
  exact (hlistable.shown hne hst).1

end Crl

namespace Histories

/-! ## Histories -/

inductive Op where
  | request (env : Env) (actor : Actor) (appId : ℕ) (r : CertRequest)
  | renew (env : Env) (actor : Actor) (certId : ℕ) (csrPem protocol : String)
  | decide (env : Env) (actor : Actor) (approvalId : ℕ) (approve : Bool) (comment : Option String)
  | complete (env : Env) (actor : Actor) (jobId : ℕ) (r : Gateway.Report)
  /-- REST -/
  | revoke (env : Env) (actor : Actor) (certId : ℕ) (reason : String) (changeRef : Option String)
  | cmp (env : Env) (w : Cmp.Wire) (req : Cmp.CmpRequest) (label : Option String)
  | revokeCert (env : Env) (certs : Acme.Certificates) (site : Acme.Site) (draws : Acme.Draws) (req : Acme.Request)
  | createCampaign (env : Env) (actor : Actor) (name reason : String) (criteria : Ari.Criteria) (hours : ℤ)
      (url : Option String) (revocationReason : String) (immediate : Bool)
  | campaignRevoke (env : Env) (actor : Actor) (campaignId : ℕ) (remaining : Bool) (changeRef : Option String)
  | closeCampaign (env : Env) (actor : Actor) (campaignId : ℕ)
  | provision (env : Env) (w : Provisioning.Drivers) (instId : ℕ) (actorName trigger : String)
  | generateCrl (env : Env) (caId : ℕ) (hours : ℤ)
  /-- whatever else writes, to any other table -/
  | elsewhere (write : Db → Db)

def Op.env : Op → Option Env
  | .request env .. | .renew env .. | .decide env .. | .complete env .. | .revoke env .. | .cmp env ..
  | .revokeCert env .. | .createCampaign env .. | .campaignRevoke env .. | .closeCampaign env .. | .provision env ..
  | .generateCrl env .. => some env
  | .elsewhere _ => none

def step (d : Db) : Op → Db
  | .request env actor appId r => (Tx.transact (requestCertificate env actor appId r) d).2
  | .renew env actor certId csrPem protocol => (Tx.transact (Platform.renew env actor certId csrPem protocol) d).2
  | .decide env actor approvalId approve comment => (Tx.transact (Platform.decide env actor approvalId approve comment) d).2
  | .complete env actor jobId r => (Tx.transact (Gateway.gatewayComplete env actor jobId r) d).2
  | .revoke env actor certId reason changeRef => (Tx.transact (Platform.revoke env actor certId reason changeRef) d).2
  | .cmp env w req label => (Tx.transact (Cmp.handle env w req label) d).2
  | .revokeCert env certs site draws req => (Tx.transact (Acme.revokeCert env certs site draws req) d).2
  | .createCampaign env actor name reason criteria hours url revocationReason immediate =>
    (Tx.transact (Platform.createCampaign env actor name reason criteria hours url revocationReason immediate) d).2
  | .campaignRevoke env actor campaignId remaining changeRef =>
    (Tx.transact (Platform.campaignRevoke env actor campaignId remaining changeRef) d).2
  | .closeCampaign env actor campaignId => (Tx.transact (Platform.closeCampaign env actor campaignId) d).2
  | .provision env w instId actorName trigger => (Tx.transact (Provisioning.provision env w instId actorName trigger) d).2
  | .generateCrl env caId hours => (Tx.transact (CAService.generateCrl env caId hours) d).2
  | .elsewhere write => { write d with certificates := d.certificates, cas := d.cas, campaigns := d.campaigns }

/-- the reasons a call gives, and to which rows -/
def given (d : Db) : Op → Reasons
  | .revoke _ _ certId reason _ => fun i _ r => i = certId ∧ r = reason
  | .decide _ _ approvalId _ _ => fun i serial r => ∃ req campaignId, d.approvals.get approvalId = some req ∧
      campaignOf req = .ok campaignId ∧ campaignGives d campaignId i serial r
  | .cmp _ _ req _ => cmpGives d req
  | .revokeCert _ certs _ _ req => fun i _ r => Acme.Asks certs d req i r
  | .campaignRevoke _ _ campaignId _ _ => campaignGives d campaignId
  | .provision .. => fun _ _ r => r = "cessation_of_operation"
  | _ => fun _ _ _ => False

/-- a REST revocation that may go ahead, of a CA's row that the gateway has been given, gives a reason of a CRL -/
def KnownReason (d : Db) : Op → Prop
  | .revoke _ actor certId reason changeRef =>
    ∀ c, mayRevoke d actor certId reason changeRef = .ok c → c.caId ≠ none → c.backend ≠ "local" → reason ∈ REASONS
  | _ => True

/-- the call runs under this seal key, by an ordinary clock -/
def Under (st : SealState) (o : Op) : Prop := ∀ env, o.env = some env → env.st = st ∧ Ordinary env

/-- nothing is issued yet, and no campaign created -/
structure Fresh (d : Db) : Prop where
  certificates : ∀ i, d.certificates.get i = none
  campaigns : ∀ i, d.campaigns.get i = none
  numbers : ∀ i ca crl, d.cas.get i = some ca → ca.crlDer = some crl → crl.number ≤ ca.crlNumber

theorem Fresh.sound {d : Db} (h : Fresh d) (st : SealState) : Sound st d where
  rows i c hget := by
    rw [h.certificates i] at hget
    cases hget
  numbers := h.numbers
  campaigns i camp hget := by
    rw [h.campaigns i] at hget
    cases hget

/-! ## One call -/

section Step

variable {env : Env} {gives : Reasons} {d : Db} {o : Op}

/-- what a call that keeps its rows commits -/
theorem since_transact {α : Type} {m : M α} (hd : Sound env.st d) (hm : DoesAt (Keeps env.st gives d) ⟨d, d⟩ m) :
    Since env.st gives d (Tx.transact m d).2 :=
  Tx.reaches_inv (I := Since env.st gives d) (fun _ _ hw => hw) (Tx.transact_doesAt hm) hd.since

/-- **What one call leaves**: rows that can be entries, the reasons it gave, and CRL numbers that only grow. -/
theorem step_since {st : SealState} (hd : Sound st d) (hunder : Under st o) (hknown : KnownReason d o) :
    Since st (given d o) d (step d o) := by
  have hst : ∀ {env : Env}, o.env = some env → env.st = st := fun he => (hunder _ he).1
  have hord : ∀ {env : Env}, o.env = some env → Ordinary env := fun he => (hunder _ he).2
  cases o with
  | request env actor appId r =>
    obtain rfl := hst rfl
    exact since_transact hd (does_keepsRequest (hord rfl) actor appId r _)
  | renew env actor certId csrPem protocol =>
    obtain rfl := hst rfl
    exact since_transact hd (does_keepsRenew (hord rfl) actor certId csrPem protocol _)
  | decide env actor approvalId approve comment =>
    obtain rfl := hst rfl
    refine since_transact hd (doesAt_keepsDecide (hord rfl) ?_ actor approve comment)
    exact fun req campaignId hreq hid i serial reason hgiven => ⟨req, campaignId, hreq, hid, hgiven⟩
  | complete env actor jobId r =>
    obtain rfl := hst rfl
    exact since_transact hd ((calm_keepsComplete actor jobId r).does _)
  | revoke env actor certId reason changeRef =>
    obtain rfl := hst rfl
    refine since_transact hd (Tx.CalmAt.does (calmAt_keepsRevoke (hord rfl).now fun c hmay hca => ?_))
    exact ⟨hknown c hmay hca, rfl, rfl⟩
  | cmp env w req label =>
    obtain rfl := hst rfl
    exact since_transact hd (doesAt_keepsCmp (s := ⟨d, d⟩) (hord rfl) (fun _ _ _ h => h) label)
  | revokeCert env certs site draws req =>
    obtain rfl := hst rfl
    exact since_transact hd (doesAt_keepsRevokeCert (hord rfl) fun _ _ h _ => h)
  | createCampaign env actor name reason criteria hours url revocationReason immediate =>
    obtain rfl := hst rfl
    exact since_transact hd ((calm_keepsCreateCampaign actor name reason criteria hours url revocationReason immediate).does _)
  | campaignRevoke env actor campaignId remaining changeRef =>
    obtain rfl := hst rfl
    exact since_transact hd (doesAt_keepsCampaignRevoke (s := ⟨d, d⟩) (hord rfl).now (fun _ _ _ h => h) actor remaining changeRef)
  | closeCampaign env actor campaignId =>
    obtain rfl := hst rfl
    exact since_transact hd ((calm_keepsCloseCampaign actor campaignId).does _)
  | provision env w instId actorName trigger =>
    obtain rfl := hst rfl
    refine since_transact hd (does_keepsProvision (hord rfl) (fun i serial => ?_) instId actorName trigger _)
    rfl
  | generateCrl env caId hours =>
    obtain rfl := hst rfl
    exact since_transact hd ((calm_keepsCrl caId hours).does _)
  | elsewhere write =>
    have hframe : Keeps st (given d (.elsewhere write)) d d (step d (.elsewhere write)) := keeps_frame rfl rfl rfl
    exact hframe hd.since

end Step

/-! ## Whole histories -/

/-- a call of the history gave the row this reason, and since then the row has read revoked for it -/
def GivenIn (d0 : Db) (ops : List Op) (i : ℕ) (reason : String) : Prop :=
  ∃ before o after, ops = before ++ o :: after ∧ (∃ serial, given (run step d0 before) o i serial reason) ∧
    ∀ mid, mid <+: after → ∃ c, RevokedFor (run step d0 (before ++ o :: mid)) i c reason

/-- after the history a CRL of the CA is generated: under a greater number than any before, and with every revoked
certificate of the CA under the reason it was given -/
def Publishes (env : Env) (d0 : Db) (ops : List Op) (caId : ℕ) (hours : ℤ) : Prop :=
  ∃ s' crl, CAService.generateCrl env caId hours ⟨run step d0 ops, run step d0 ops⟩ = (.ok (), s') ∧
    storedCrl caId s'.work = some crl ∧
    (∀ earlier, earlier <+: ops → ∀ old, storedCrl caId (run step d0 earlier) = some old → old.number < crl.number) ∧
    ∀ i c, (run step d0 ops).certificates.get i = some c → c.caId = some caId → c.status = .revoked →
      ∃ e ∈ crl.entries, c.serialHex = hex e.serial ∧ GivenIn d0 ops i e.reason

/-- in every state of the history each CA whose signer works can publish, and its stored CRLs are numbered upwards -/
structure Survives (st : SealState) (d0 : Db) (ops : List Op) : Prop where
  publishes : ∀ before, before <+: ops → ∀ env caId ca hours, env.st = st → Ordinary env → 0 < hours →
    (run step d0 before).cas.get caId = some ca → Signing env ca → Publishes env d0 before caId hours
  numbers : ∀ before later, before <+: later → later <+: ops → ∀ caId old crl, storedCrl caId (run step d0 before) = some old →
    storedCrl caId (run step d0 later) = some crl → crl = old ∨ old.number < crl.number

/-- the CAs' counters and CRLs, between two states -/
def Counts (d d' : Db) : Prop := ∀ i ca, d.cas.get i = some ca → ∃ ca', d'.cas.get i = some ca' ∧ Advances ca ca'

theorem Counts.trans {a b c : Db} (h : Counts a b) (h' : Counts b c) : Counts a c := by
  intro i ca hca
  obtain ⟨ca', hca', hadvances⟩ := h i ca hca
  obtain ⟨ca'', hca'', hadvances'⟩ := h' i ca' hca'
  exact ⟨ca'', hca'', hadvances.trans hadvances'⟩

section Run

variable {st : SealState} {d0 : Db} {ops : List Op}

/-- what a call of a history needs -/
structure Proper (st : SealState) (d : Db) (o : Op) : Prop where
  sound : Sound st d
  under : Under st o
  known : KnownReason d o

theorem Proper.since {d : Db} {o : Op} (h : Proper st d o) : Since st (given d o) d (step d o) :=
  step_since h.sound h.under h.known

theorem along_proper (h0 : Fresh d0) (hunder : ∀ o ∈ ops, Under st o) (hknown : Along step KnownReason d0 ops) :
    Along step (Proper st) d0 ops := by
  have hboth : Along step (fun d o => Under st o ∧ KnownReason d o) d0 ops := by
    rw [along_iff_split] at hknown ⊢
    rintro pre o post rfl
    exact ⟨hunder o (by simp), hknown pre o post rfl⟩
  refine along_of_inv (I := Sound st) (fun d o hd h => ?_) (fun d o hd h => ⟨hd, h.1, h.2⟩) (h0.sound st) hboth
  exact (step_since hd h.1 h.2).sound

/-- the rows stay fit for a CRL -/
theorem run_sound (h0 : Fresh d0) (h : Along step (Proper st) d0 ops) : Sound st (run step d0 ops) :=
  run_inv (I := Sound st) (fun _ _ _ hproper => hproper.since.sound) (h0.sound st) h

/-- the counters go on -/
theorem run_counts {d : Db} (h : Along step (Proper st) d ops) : Counts d (run step d ops) :=
  run_rel (fun _ _ ca hca => ⟨ca, hca, .refl ca⟩) (fun h h' => h.trans h') (fun _ _ hproper => hproper.since.counters) h

/-- a row that reads revoked was given its reason in the history -/
theorem run_given (h0 : Fresh d0) (h : Along step (Proper st) d0 ops) {i : ℕ} {c : Certificate} {reason : String}
    (hrev : RevokedFor (run step d0 ops) i c reason) : GivenIn d0 ops i reason := by
  induction ops using List.reverseRecOn generalizing c with
  | nil =>
    have hnone := h0.certificates i
    rw [run_nil] at hrev
    rw [hrev.1] at hnone
    cases hnone
  | append_singleton ops o ih =>
    obtain ⟨hbefore, hlast⟩ := (along_append _ _ _).1 h
    have hnow := hrev
    rw [run_snoc] at hrev
    rcases hlast.1.since.reasons i c reason hrev with ⟨c₀, hold⟩ | hgiven
    · obtain ⟨before, o', after, rfl, hgave, hreads⟩ := ih hbefore hold
      refine ⟨before, o', after ++ [o], by simp, hgave, fun mid hmid => ?_⟩
      rcases List.prefix_concat_iff.1 hmid with rfl | hmid
      · exact ⟨c, by simpa using hnow⟩
      · exact hreads mid hmid
    · refine ⟨ops, o, [], rfl, ⟨c.serialHex, hgiven⟩, fun mid hmid => ?_⟩
      obtain rfl := List.prefix_nil.1 hmid
      exact ⟨c, hnow⟩

/-- a stored CRL stays, or a greater number replaces it -/
theorem stored_later {d d' : Db} (hd : Sound st d) (h : Counts d d') {caId : ℕ} {old : Crl}
    (hold : storedCrl caId d = some old) :
    ∃ ca', d'.cas.get caId = some ca' ∧ old.number ≤ ca'.crlNumber ∧ ∀ crl, ca'.crlDer = some crl → crl = old ∨ old.number < crl.number := by
  obtain ⟨ca, hca, hder⟩ := Option.bind_eq_some_iff.1 hold
  obtain ⟨ca', hca', hadvances⟩ := h caId ca hca
  have hle : old.number ≤ ca.crlNumber := hd.numbers caId ca old hca hder
  refine ⟨ca', hca', hle.trans hadvances.number, fun crl hcrl => ?_⟩
  rcases hadvances.crl with hsame | ⟨crl', hcrl', hlt, -⟩
  · left
    exact Option.some.inj (hcrl.symm.trans (hsame.trans hder))
  · right
    obtain rfl := Option.some.inj (hcrl'.symm.trans hcrl)
    exact lt_of_le_of_lt hle hlt

/-- **CRL generation survives every history** that gives a certificate the gateway was given only reasons of a CRL. -/
theorem crls_survive (h0 : Fresh d0) (hunder : ∀ o ∈ ops, Under st o) (hknown : Along step KnownReason d0 ops) :
    Survives st d0 ops := by
  have hproper : Along step (Proper st) d0 ops := along_proper h0 hunder hknown
  have hbefore : ∀ before, before <+: ops → Along step (Proper st) d0 before := by
    rintro before ⟨rest, rfl⟩
    exact ((along_append _ _ _).1 hproper).1
  have hcounts : ∀ before later, before <+: later → later <+: ops → Counts (run step d0 before) (run step d0 later) := by
    rintro before later ⟨rest, rfl⟩ hlater
    rw [run_append]
    exact run_counts ((along_append _ _ _).1 (hbefore _ hlater)).2
  constructor
  · rintro before hpre env caId ca hours rfl hordinary - hca hsign
    have hsound : Sound env.st (run step d0 before) := run_sound h0 (hbefore before hpre)
    obtain ⟨s', crl, hrun, hstored, hnumber, hentries⟩ := Sound.generates hsound hordinary.now hca hsign hours
    refine ⟨s', crl, hrun, hstored, fun earlier hearlier old hold => ?_, fun i c hget hcca hst => ?_⟩
    · have hsound' : Sound env.st (run step d0 earlier) := run_sound h0 (hbefore earlier (hearlier.trans hpre))
      obtain ⟨ca', hca', hle, -⟩ := stored_later hsound' (hcounts earlier before hearlier hpre) hold
      obtain rfl := Option.some.inj (hca'.symm.trans hca)
      omega
    · obtain ⟨e, he, hserial, hreason⟩ := hentries i c hget hcca hst
      refine ⟨e, he, hserial, run_given h0 (hbefore before hpre) ⟨hget, ?_, hst, hreason⟩⟩
      simp [hcca]
  · intro before later hpre hlater caId old crl hold hcrl
    have hsound : Sound st (run step d0 before) := run_sound h0 (hbefore before (hpre.trans hlater))
    obtain ⟨ca', hca', -, hlast⟩ := stored_later hsound (hcounts before later hpre hlater) hold
    refine hlast crl ?_
    obtain ⟨ca'', hca'', hder⟩ := Option.bind_eq_some_iff.1 hcrl
    obtain rfl := Option.some.inj (hca''.symm.trans hca')
    exact hder

end Run

/-! ### A certificate the gateway was given -/

section Examples

/-- the library reads the certificate that is issued -/
def historyEnv : Env :=
  { demoEnv with
    loadPemCert := fun pem =>
      if pem = "pem-16" then
        some ⟨⟨16, "", none, some "www.corp.example", some (demoKey "web-key"), 1000, 2000, false, none, [], [], none, none, [], []⟩,
          ⟨"pem-16", "fp-16", "1.2.840.10045.4.3.2", some "sha256"⟩, false⟩
      else demoEnv.loadPemCert pem }

/-- an app, its issuing CA, and an issue job of another app -/
def historyDb : Db :=
  { answeringDb with
    apps := Table.empty.insert (inserted demoState (demoApp "web"))
    certificates := Table.empty
    jobs := Table.empty.insert
      ⟨.issue, .claimed, some 2, some "windows", some "ca-1", none, some "csr", some "hash", none, none, none, none, none,
        none, some "joe", some "gw-1", some 10, none⟩ }

def issues : Op := .request historyEnv olga 1 ⟨some "web-csr", none, none, none, "rest", none, false, none⟩

/-- the worker reports the local CA's certificate -/
def reports : Op := .complete historyEnv ⟨"gw-1", .gateway, none⟩ 1 ⟨some "pem-16", none, none, none⟩

def revokes (reason : String) : Op := .revoke historyEnv olga 1 reason none

theorem historyDb_fresh : Fresh historyDb where
  certificates _ := rfl
  campaigns _ := rfl
  numbers i ca crl hget hcrl := by
    change (Table.empty.insert _).get i = some ca at hget
    rw [Table.get_insert] at hget
    split at hget
    · obtain rfl := Option.some.inj hget
      cases hcrl
    · cases hget

theorem historyEnv_ordinary : Ordinary historyEnv := ⟨by decide, by decide, by decide⟩

theorem demo_under (o : Op) (h : o ∈ [issues, reports, revokes "key_compromise"] ∨ o = revokes "oops") :
    Under demoState o := by
  intro env henv
  have hsame : env = historyEnv := by
    rcases h with h | rfl
    · simp only [List.mem_cons, List.not_mem_nil, or_false] at h
      rcases h with rfl | rfl | rfl <;> exact (Option.some.inj henv).symm
    · exact (Option.some.inj henv).symm
  rw [hsame]
  exact ⟨rfl, historyEnv_ordinary⟩

/-- with a reason of a CRL the same history goes on -/
theorem known_reason_survives : Survives demoState historyDb [issues, reports, revokes "key_compromise"] := by
  refine crls_survive historyDb_fresh (fun o ho => demo_under o (Or.inl ho)) ⟨trivial, trivial, ?_, trivial⟩
  intro c _ _ _
  decide

/-- the database after a reason that is no CRL's -/
def stoppedDb : Db := run step historyDb [issues, reports, revokes "oops"]

/-- After the report the row takes any reason, and no CRL of the CA is generated any more. -/
theorem unknown_reason_stops_crls :
    ¬ ∀ (st : SealState) (d0 : Db) (ops : List Op), Fresh d0 → (∀ o ∈ ops, Under st o) → Survives st d0 ops := by
  intro h
  have hunder : ∀ o ∈ [issues, reports, revokes "oops"], Under demoState o := by
    intro o ho
    refine demo_under o ?_
    simp only [List.mem_cons, List.not_mem_nil, or_false] at ho ⊢
    tauto
  have hca : stoppedDb.cas.get 1 = some ((stoppedDb.cas.get 1).get (by decide +kernel)) := (Option.some_get _).symm
  have hfails : (CAService.generateCrl historyEnv 1 24 ⟨stoppedDb, stoppedDb⟩).1.isOk = false := by decide +kernel
  obtain ⟨s', crl, hrun, -⟩ := (h demoState historyDb _ historyDb_fresh hunder).publishes _ (List.prefix_refl _) historyEnv 1 _ 24
    rfl historyEnv_ordinary (by decide) hca ⟨⟨demoCaCert, by decide +kernel⟩, ⟨⟨"file:ca", "file", demoKey "ca-key"⟩, by decide +kernel, fun _ => rfl⟩⟩
  rw [show (CAService.generateCrl historyEnv 1 24 ⟨stoppedDb, stoppedDb⟩) = (.ok (), s') from hrun] at hfails
  cases hfails

end Examples

end Histories

end Certadillo.Revocation
