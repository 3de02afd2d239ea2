/-
SCEP transactions over runs of service calls and SCEP messages, from the message that opens one to the poll it is served to.

A request that has to wait leaves a row with the transaction's identifier and the certificate of the key that signed it. A poll is
answered from the newest row under its identifier.

- `rows_handlePkiOperation`: what a message does to these rows: it opens one for the CSR it carries, or moves one along.
- `run_rows`: every row was opened by a message of the run, and waits for a certificate of its app for the CSR of that message.
- `polled_own`: a poll is handed a certificate only if it is signed with the key of a message of the run under the same
  identifier, and the certificate is of the app whose approval was granted for that message's CSR.
-/
import Certadillo.Enrollment.FrontEnds
import Certadillo.Services.ApprovedIssue

namespace Certadillo.Scep

open Integrity Policy Py Platform Relation
open Tx (Calm CalmAt Onward OnwardAt Does DoesAt calm_pure calm_throw calm_bind calm_get_bind calm_ofExcept_bind onward_bind
  onward_get_bind onward_ofExcept_bind onward_commit)

/-! ## Rows -/

/-- the approval a transaction waits for asks for a certificate of its app, for this CSR -/
def Begun (d : Db) (csrPem : String) (t : ScepTransaction) : Prop :=
  ∀ approvalId, t.approvalId = some approvalId → AsksFor t.appId csrPem approvalId d

/-- the transaction is under the message's identifier, and names the certificate it is signed with -/
def OpenedBy (msg : PkiMessage) (t : ScepTransaction) : Prop :=
  t.transactionId = msg.transactionId ∧ t.signerCertPem = msg.signerPem

/-- a message of `sent` opened every transaction, which waits for a certificate of its app for the message's CSR -/
def Rows (sent : PkiMessage → String → Prop) (d : Db) : Prop :=
  ∀ i t, d.scepTransactions.get i = some t → ∃ msg csrPem, sent msg csrPem ∧ OpenedBy msg t ∧ Begun d csrPem t

/-- what approvals ask for goes on -/
def Persists (d d' : Db) : Prop :=
  ∀ appId csrPem approvalId, AsksFor appId csrPem approvalId d → AsksFor appId csrPem approvalId d'

/-- a write of a message, to the transactions or beside them -/
inductive TxnWrite (opens : ScepTransaction → String → Prop) : Db → Db → Prop where
  | beside {d d' : Db} (rows : d'.scepTransactions = d.scepTransactions) (h : Persists d d') : TxnWrite opens d d'
  | move (d : Db) (id : ℕ) (f : ScepTransaction → ScepTransaction) (hf : ∀ t, SameOpening t (f t)) :
      TxnWrite opens d { d with scepTransactions := d.scepTransactions.update id f }
  | start (d : Db) (t : ScepTransaction) (csrPem : String) (ho : opens t csrPem) (h : Begun d csrPem t) :
      TxnWrite opens d { d with scepTransactions := d.scepTransactions.insert t }

section Writes

variable {env : Env} {g : Grant} {sent : PkiMessage → String → Prop} {opens : ScepTransaction → String → Prop}
  {msg : PkiMessage} {csrPem : String} {d d' : Db} {t t' : ScepTransaction}

theorem Begun.persists (h : Begun d csrPem t) (hp : Persists d d') : Begun d' csrPem t := fun approvalId ha =>
  hp _ _ _ (h approvalId ha)

theorem Begun.same (h : Begun d csrPem t) (hs : SameOpening t t') : Begun d csrPem t' := fun approvalId ha =>
  hs.appId ▸ h approvalId (hs.approvalId.symm.trans ha)

theorem OpenedBy.same (h : OpenedBy msg t) (hs : SameOpening t t') : OpenedBy msg t' :=
  ⟨hs.transactionId.trans h.1, hs.signerCertPem.trans h.2⟩

theorem persists_of_eq (happrovals : d'.approvals = d.approvals) (hcerts : d'.certificates = d.certificates) :
    Persists d d' := by
  intro appId csrPem approvalId hasks
  obtain ⟨payload, hputs, hfiled⟩ := hasks
  refine ⟨payload, hputs, hfiled.of_kept (fun req hget => ?_) (stays_refl hcerts)⟩
  rw [happrovals]
  exact hget

theorem write_persists (h : Write env g d d') (hnone : ∀ id, ¬ g.decides id) : Persists d d' := by
  intro appId csrPem approvalId hasks
  obtain ⟨payload, hputs, hfiled⟩ := hasks
  exact ⟨payload, hputs, write_filed h (hnone approvalId) hfiled⟩

theorem write_scepTransactions (h : Write env g d d') : d'.scepTransactions = d.scepTransactions := by
  cases h with
  | frame _ _ _ _ _ front => exact congrArg FrontEnd.scepTransactions front
  | _ => rfl

theorem TxnWrite.mono {opens' : ScepTransaction → String → Prop} (ho : ∀ t csrPem, opens t csrPem → opens' t csrPem)
    (h : TxnWrite opens d d') : TxnWrite opens' d d' := by
  cases h with
  | beside rows hp => exact .beside rows hp
  | move id f hf => exact .move d id f hf
  | start t csrPem h hbegun => exact .start d t csrPem (ho t csrPem h) hbegun

/-- beside the transactions, every row stays -/
theorem Rows.beside (h : Rows sent d) (hrows : d'.scepTransactions = d.scepTransactions) (hp : Persists d d') : Rows sent d' := by
  intro i t hget
  obtain ⟨msg, csrPem, hsent, hopened, hbegun⟩ := h i t (hrows ▸ hget)
  exact ⟨msg, csrPem, hsent, hopened, hbegun.persists hp⟩

/-- what one write does to the rows -/
theorem write_rows (hsent : ∀ t csrPem, opens t csrPem → ∃ msg, sent msg csrPem ∧ OpenedBy msg t) (hw : TxnWrite opens d d')
    (h : Rows sent d) : Rows sent d' := by
  cases hw with
  | beside rows hp => exact h.beside rows hp
  | move id f hf =>
    intro i t hget
    by_cases hi : i = id
    · subst hi
      obtain ⟨t₀, hget₀, rfl⟩ := Option.map_eq_some_iff.1 ((Table.get_update_self _ _ _).symm.trans hget)
      obtain ⟨msg, csrPem, hmsg, hopened, hbegun⟩ := h i t₀ hget₀
      exact ⟨msg, csrPem, hmsg, hopened.same (hf t₀), (hbegun.same (hf t₀)).persists (persists_of_eq rfl rfl)⟩
    · obtain ⟨msg, csrPem, hmsg, hopened, hbegun⟩ := h i t ((Table.get_update_of_ne _ _ hi).symm.trans hget)
      exact ⟨msg, csrPem, hmsg, hopened, hbegun.persists (persists_of_eq rfl rfl)⟩
  | start t₀ csrPem₀ ho hbegun₀ =>
    intro i t hget
    by_cases hi : i = d.scepTransactions.next
    · subst hi
      obtain rfl := Option.some.inj ((Table.get_insert_next _ _).symm.trans hget)
      obtain ⟨msg, hmsg, hopened⟩ := hsent t₀ csrPem₀ ho
      exact ⟨msg, csrPem₀, hmsg, hopened, hbegun₀.persists (persists_of_eq rfl rfl)⟩
    · have hold : d.scepTransactions.get i = some t := by
        rw [Table.get_insert, if_neg hi] at hget
        exact hget
      obtain ⟨msg, csrPem, hmsg, hopened, hbegun⟩ := h i t hold
      exact ⟨msg, csrPem, hmsg, hopened, hbegun.persists (persists_of_eq rfl rfl)⟩

end Writes

/-! ## Messages -/

section Handle

variable {env : Env} {w : Wire} {opens : ScepTransaction → String → Prop} {msg : PkiMessage} {s : Session Db}

theorem admits_rows : Admits (TxnWrite opens) where
  event _ _ := .beside rfl (persists_of_eq rfl rfl)
  cas _ _ := .beside rfl (persists_of_eq rfl rfl)
  redeem _ _ := .beside rfl (persists_of_eq rfl rfl)
  move := .move

/-- a transaction the message opened for the request -/
def OpenedFor (msg : PkiMessage) (req : LoadedCsr) (t : ScepTransaction) (csrPem : String) : Prop :=
  OpenedBy msg t ∧ csrPem = req.pem

/-- a request that waits opens a transaction for the approval it was given -/
theorem rows_enrolled (req : LoadedCsr) (who : Actor) (app : ℕ × App) (outcome : Outcome)
    (hasks : ∀ approvalId, outcome = .approval approvalId → AsksFor app.1 req.pem approvalId s.work) :
    OnwardAt (TxnWrite (OpenedFor msg req)) s (enrolled env w msg req who app outcome) := by
  cases outcome with
  | approval approvalId =>
    have hbegun : Begun s.work req.pem ⟨msg.transactionId, app.1, some approvalId, msg.signerPem, req.subject, .pending, none⟩ := by
      intro id hid
      obtain rfl := Option.some.inj hid
      exact hasks _ rfl
    have hadd : CalmAt (TxnWrite (OpenedFor msg req)) s (addPlain Col.scepTransactions noClash
        ⟨msg.transactionId, app.1, some approvalId, msg.signerPem, req.subject, .pending, none⟩) := by
      unfold addPlain
      refine Tx.calmAt_get_bind (Tx.calmAt_bind (Tx.calmAt_modify ?_) fun _ s' _ => calm_pure _ s')
      exact .start s.work _ req.pem ⟨⟨rfl, rfl⟩, rfl⟩ hbegun
    unfold enrolled
    refine Tx.onwardAt_bind hadd.onward fun _ s' _ => ?_
    refine onward_bind (calm_record admits_rows _ _ _ _).onward (fun _ => ?_) s'
    exact onward_bind onward_commit fun _ => (calm_pure _).onward
  | certificate id =>
    unfold enrolled
    refine onward_get_bind (fun d => ?_) s
    split
    · exact onward_success _ _ _
    · exact (calm_throw _).onward
  | job id => exact (calm_throw _).onward s

theorem rows_request (req : LoadedCsr) (who : Actor) (app : ℕ × App) (previous : Option ℕ) :
    Does (TxnWrite (OpenedFor msg req)) (request env w msg req who app previous) := by
  intro s
  have hcertificate : Does (TxnWrite (OpenedFor msg req)) (requestCertificate env who app.1
      ⟨some req.pem, none, none, none, "scep", previous, req.popVerified, none⟩) := fun s =>
    (does_requestCertificate (g := calling) (fun _ _ => trivial) (fun _ _ _ => trivial) _ _ s).mono fun _ _ hw =>
      .beside (write_scepTransactions hw) (write_persists hw fun _ => id)
  unfold request
  refine Tx.doesAt_bind (Tx.does_attempt hcertificate s) fun result s' hrun => ?_
  obtain ⟨hresult, hsession⟩ := Prod.mk.inj hrun
  obtain rfl := Except.ok.inj hresult
  cases hout : (requestCertificate env who app.1
      ⟨some req.pem, none, none, none, "scep", previous, req.popVerified, none⟩ s).1 with
  | ok outcome =>
    refine (rows_enrolled req who app outcome fun approvalId ho => ?_).does
    subst ho
    exact request_asks rfl (Prod.ext hout hsession)
  | error e =>
    cases e with
    | forbidden text => exact (onward_fail admits_rows _ _ _ s').does
    | policy v => exact (onward_fail admits_rows _ _ _ s').does
    | _ => exact (calm_throw _ s').does

theorem rows_renewal (req : LoadedCsr) (appName : Option String) (current : Option (ℕ × Certificate)) :
    Does (TxnWrite (OpenedFor msg req)) (renewal env w msg req appName current) := by
  unfold renewal
  refine Tx.does_get_bind fun d => ?_
  split
  · exact (onward_fail admits_rows _ _ _).does
  split
  · exact (onward_fail admits_rows _ _ _).does
  split
  · exact (onward_fail admits_rows _ _ _).does
  · exact rows_request _ _ _ _

theorem rows_enrollment (csrDer : String) (req : LoadedCsr) (appName : Option String) :
    Does (TxnWrite (OpenedFor msg req)) (enrollment env w msg csrDer req appName) := by
  unfold enrollment
  split
  · exact (onward_fail admits_rows _ _ _).does
  refine Tx.does_bind (Tx.does_attempt (calm_authorize admits_rows _ _ _ _ _).does) fun result => ?_
  split
  · exact (onward_fail admits_rows _ _ _).does
  · exact (calm_throw _).does
  · exact rows_request _ _ _ _

/-- the CSR in a message's envelope -/
def Carries (w : Wire) (msg : PkiMessage) (csrPem : String) : Prop :=
  ∃ ra csrDer req, w.decryptEnvelope msg.content ra = .ok csrDer ∧ w.loadCsr csrDer = .ok req ∧ req.pem = csrPem

/-- a transaction the message opened for the CSR it carries -/
def OpenedWith (w : Wire) (msg : PkiMessage) (t : ScepTransaction) (csrPem : String) : Prop :=
  OpenedBy msg t ∧ Carries w msg csrPem

theorem rows_answer (ra : X509Cert) (appName : Option String) : Does (TxnWrite (OpenedWith w msg)) (answer env w ra msg appName) := by
  unfold answer
  refine Tx.does_get_bind fun d => ?_
  dsimp only
  split
  · exact (onward_poll admits_rows _).does
  split
  · exact (onward_fail admits_rows _ _ _).does
  split
  · exact (onward_fail admits_rows _ _ _).does
  next csrDer hdecrypt =>
  split
  · exact (onward_fail admits_rows _ _ _).does
  next req hload =>
  have hwith : ∀ d d', TxnWrite (OpenedFor msg req) d d' → TxnWrite (OpenedWith w msg) d d' := fun _ _ hw =>
    hw.mono fun _ _ ho => ⟨ho.1, ra, csrDer, req, hdecrypt, hload, ho.2.symm⟩
  refine Tx.does_ofExcept_bind fun current _ => ?_
  split
  · exact fun s => (rows_renewal req appName current s).mono hwith
  · exact fun s => (rows_enrollment csrDer req appName s).mono hwith

/-- a message of the body's, with the CSR it carries -/
def Sent (w : Wire) (der : String) (msg : PkiMessage) (csrPem : String) : Prop :=
  w.parsePkiMessage der = .ok (.ok msg) ∧ Carries w msg csrPem

/-- **What a message does to the transactions**: it opens one for the CSR it carries, or moves one along. -/
theorem rows_handlePkiOperation (der : String) (appName : Option String) :
    Does (TxnWrite fun t csrPem => ∃ msg, Sent w der msg csrPem ∧ OpenedBy msg t) (handlePkiOperation env w der appName) := by
  unfold handlePkiOperation
  refine Tx.does_get_bind fun d => Tx.does_ofExcept_bind fun ca _ => ?_
  refine Tx.does_bind (calm_ensureScepRa admits_rows _ _).does fun ra => Tx.does_ofExcept_bind fun parsed hparsed => ?_
  cases parsed with
  | error detail => exact (calm_pure _).does
  | ok msg =>
    have hanswer : Does (TxnWrite fun t csrPem => ∃ msg, Sent w der msg csrPem ∧ OpenedBy msg t) (answer env w ra msg appName) :=
      fun s => (rows_answer ra appName s).mono fun _ _ hw => hw.mono fun _ _ ho => ⟨msg, ⟨hparsed, ho.2⟩, ho.1⟩
    exact Tx.does_bind hanswer fun _ => (calm_pure _).does

end Handle

/-! ## Polls -/

/-- what a poll that is handed certificate `id` has to do with the message that opened its transaction with `csrPem`: the same key
signed both, and an intact approval, granted for that CSR, is for the app the certificate is of -/
structure Served (env : Env) (d : Db) (opener : PkiMessage) (csrPem : String) (msg : PkiMessage) (id : ℕ) : Prop where
  transactionId : opener.transactionId = msg.transactionId
  key : ∃ cert key, CAService.loadPem env opener.signerPem = .ok cert ∧ spkiOf cert = .ok key ∧ spkiOf msg.signer = .ok key
  approval : ∃ appId approvalId req, AsksFor appId csrPem approvalId d ∧ d.approvals.get approvalId = some req ∧
    verify env.st req = true ∧ req.status ≠ .rejected ∧ req.status ≠ .pending ∧
    certificateId req.payload = .ok (some id) ∧ Owned appId d id

section Polls

variable {env : Env} {w : Wire} {sent : PkiMessage → String → Prop} {msg : PkiMessage} {d : Db} {s s' : Session Db} {id : ℕ}

/-- what is delivered is the certificate the approval names -/
theorem deliver_names {txnId : ℕ} {payload : Json} (h : deliver env w msg txnId payload s = (.ok (.success id), s')) :
    certificateId payload = .ok (some id) := by
  unfold deliver at h
  rw [Tx.get_bind] at h
  obtain ⟨certId, s₁, hcert, h⟩ := Tx.bind_returns.1 h
  obtain ⟨hnames, -⟩ := Prod.mk.inj hcert
  cases hrow : (certId.filter (· ≠ 0)).bind fun i => (s.work.certificates.get i).map (i, ·) with
  | none =>
    simp only [hrow] at h
    cases h
  | some found =>
    obtain ⟨id', row⟩ := found
    simp only [hrow] at h
    obtain ⟨-, s₂, -, h⟩ := Tx.bind_returns.1 h
    unfold success at h
    obtain ⟨cert, s₃, -, h⟩ := Tx.bind_returns.1 h
    obtain ⟨-, s₄, -, h⟩ := Tx.bind_returns.1 h
    obtain ⟨-, s₅, -, h⟩ := Tx.bind_returns.1 h
    cases h
    obtain ⟨i, hi, hget⟩ := Option.bind_eq_some_iff.1 hrow
    obtain ⟨c, -, hc⟩ := Option.map_eq_some_iff.1 hget
    obtain rfl : i = id := congrArg Prod.fst hc
    obtain rfl := (Option.filter_eq_some_iff.1 hi).1
    exact hnames

/-- the row a poll is answered from is under its identifier -/
theorem lastTransaction_some {txid : String} {txnId : ℕ} {t : ScepTransaction} (h : lastTransaction d txid = some (txnId, t)) :
    d.scepTransactions.get txnId = some t ∧ t.transactionId = txid := by
  obtain ⟨hget, hid⟩ := Table.mem_all.1 (List.mem_of_getLast? h)
  exact ⟨hget, of_decide_eq_true hid⟩

/-- a certificate an approval names is of the app it asks for -/
theorem owned_of_named {appId approvalId : ℕ} {csrPem : String} {req : ApprovalRequest} (h : AsksFor appId csrPem approvalId d)
    (hget : d.approvals.get approvalId = some req) (hnamed : certificateId req.payload = .ok (some id)) : Owned appId d id := by
  obtain ⟨payload, -, ⟨req', hget', -, rfl⟩, hnames⟩ := h
  obtain rfl := Option.some.inj (hget.symm.trans hget')
  exact hnames id hnamed

/-- **A poll that is handed a certificate** is of the key that opened its transaction. -/
theorem poll_served (hrows : Rows sent d) (h : poll env w msg ⟨d, d⟩ = (.ok (.success id), s')) :
    ∃ opener csrPem, sent opener csrPem ∧ Served env d opener csrPem msg id := by
  unfold poll at h
  rw [Tx.get_bind] at h
  cases hlast : lastTransaction d msg.transactionId with
  | none =>
    simp only [hlast] at h
    cases h
  | some found =>
    obtain ⟨txnId, t⟩ := found
    simp only [hlast] at h
    obtain ⟨original, s₁, horiginal, h⟩ := Tx.bind_returns.1 h
    obtain ⟨hload, -⟩ := Prod.mk.inj horiginal
    obtain ⟨cert, hcert, hspki⟩ := except_bind_ok.1 hload
    obtain ⟨key, s₂, hkey, h⟩ := Tx.bind_returns.1 h
    obtain ⟨hkey, -⟩ := Prod.mk.inj hkey
    by_cases hsame : original ≠ key
    · rw [if_pos hsame] at h
      cases h
    rw [if_neg hsame] at h
    obtain rfl := not_not.1 hsame
    cases hreq : (t.approvalId.filter (· ≠ 0)).bind d.approvals.get with
    | none =>
      simp only [hreq] at h
      cases h
    | some req =>
      simp only [hreq] at h
      by_cases hintact : verify env.st req = true
      · by_cases hrejected : req.status = .rejected
        · rw [if_neg (by simp [hintact]), if_pos hrejected] at h
          cases h
        by_cases hpending : req.status = .pending
        · rw [if_neg (by simp [hintact]), if_neg hrejected, if_pos hpending] at h
          cases h
        rw [if_neg (by simp [hintact]), if_neg hrejected, if_neg hpending] at h
        obtain ⟨hrow, hid⟩ := lastTransaction_some hlast
        obtain ⟨opener, csrPem, hopener, hopened, hbegun⟩ := hrows txnId t hrow
        obtain ⟨approvalId, hfilter, hget⟩ := Option.bind_eq_some_iff.1 hreq
        have hasks : AsksFor t.appId csrPem approvalId d := hbegun approvalId (Option.filter_eq_some_iff.1 hfilter).1
        have hnamed : certificateId req.payload = .ok (some id) := deliver_names h
        have howned : Owned t.appId d id := owned_of_named hasks hget hnamed
        refine ⟨opener, csrPem, hopener, hopened.1.symm.trans hid, ⟨cert, original, hopened.2 ▸ hcert, hspki, hkey⟩, ?_⟩
        exact ⟨t.appId, approvalId, req, hasks, hget, hintact, hrejected, hpending, hnamed, howned⟩
      · rw [if_pos (by simpa using hintact)] at h
        cases h

end Polls

/-! ## Runs -/

inductive Act where
  | call (c : Call)
  | message (env : Env) (w : Wire) (der : String) (appName : Option String)

def act (d : Db) : Act → Db
  | .call c => Certadillo.step d c
  | .message env w der appName => (Tx.transact (handlePkiOperation env w der appName) d).2

/-- the message is one of the run's, and carries the CSR -/
def SentIn (acts : List Act) (msg : PkiMessage) (csrPem : String) : Prop :=
  ∃ env w der appName, Act.message env w der appName ∈ acts ∧ Sent w der msg csrPem

section Runs

variable {env : Env} {w : Wire} {sent : PkiMessage → String → Prop} {msg : PkiMessage} {d : Db} {id : ℕ}

theorem act_rows {a : Act} (hsent : ∀ env w der appName, a = .message env w der appName → ∀ msg csrPem, Sent w der msg csrPem →
    sent msg csrPem) (h : Rows sent d) : Rows sent (act d a) := by
  cases a with
  | call c =>
    have hrows : (Certadillo.step d c).scepTransactions = d.scepTransactions :=
      Tx.reaches_inv (I := fun d' => d'.scepTransactions = d.scepTransactions)
        (fun _ _ hw hs => (write_scepTransactions hw).trans hs) (step_writes d c) rfl
    exact h.beside hrows fun _ _ _ hasks => step_asks hasks c
  | message env w der appName =>
    have hmessage : ReflTransGen (TxnWrite fun t csrPem => ∃ msg, Sent w der msg csrPem ∧ OpenedBy msg t) d
        (act d (.message env w der appName)) := Tx.transact_does (rows_handlePkiOperation der appName) d
    refine Tx.reaches_inv (I := Rows sent) (fun _ _ => write_rows fun t csrPem ho => ?_) hmessage h
    obtain ⟨msg, hmsg, hopened⟩ := ho
    exact ⟨msg, hsent _ _ _ _ rfl msg csrPem hmsg, hopened⟩

/-- **Every transaction of a run** was opened by a message of the run, and waits for a certificate for the CSR it carried. -/
theorem run_rows (h0 : d.scepTransactions = .empty) (acts : List Act) : Rows (SentIn acts) (Machine.run act d acts) := by
  have hempty : Rows (SentIn acts) d := fun i t hget => by
    rw [h0] at hget
    cases hget
  refine Machine.run_inv (C := fun _ a => a ∈ acts) (fun d a hrows ha => act_rows ?_ hrows) hempty ?_
  · rintro env w der appName rfl msg csrPem hmsg
    exact ⟨env, w, der, appName, ha, hmsg⟩
  · refine (Machine.along_iff_split _ _).2 fun before a after hacts => ?_
    rw [hacts]
    simp

/-- **In every run of calls and messages**, a poll is handed a certificate only if its key signed a message of the run under the
same identifier, and the certificate is of the app whose approval was granted for the CSR of that message. -/
theorem polled_own (h0 : d.scepTransactions = .empty) (acts : List Act)
    (h : (Tx.transact (poll env w msg) (Machine.run act d acts)).1 = .ok (.success id)) :
    ∃ opener csrPem, SentIn acts opener csrPem ∧ Served env (Machine.run act d acts) opener csrPem msg id := by
  rcases hrun : poll env w msg ⟨Machine.run act d acts, Machine.run act d acts⟩ with ⟨e | reply, s'⟩
  · rw [Tx.transact_of_raises hrun] at h
    cases h
  · rw [Tx.transact_of_returns hrun] at h
    obtain rfl := Except.ok.inj h
    exact poll_served (run_rows h0 acts) hrun

end Runs

/-! ## A device -/

/-- the certificate of a client's key -/
def clientCert : X509Cert :=
  ⟨⟨5, "client", none, some "client", some (demoKey "client-key"), 0, 10 ^ 9, false, none, [], [], none, none, [], []⟩,
    ⟨"client-pem", "client-fp", "1.2.840.10045.4.3.2", some "sha256"⟩, false⟩

def clientMessage (messageType : String) : PkiMessage := ⟨clientCert, "client-pem", "txn-1", messageType, "envelope"⟩

/-- every message is the client's, and its request is for `www.corp.example` -/
def clientWire : Wire where
  parsePkiMessage der := .ok (.ok (clientMessage der))
  decryptEnvelope _ _ := .ok "csr-der"
  loadCsr _ := (demoCsr "web-csr").elim (.error "no CSR") fun csr =>
    .ok ⟨csr, "web-csr", "CN=www.corp.example", true, some "password"⟩
  envelope _ _ := .ok ()
  validationUrl := none
  validationCall _ := .error "no webhook"
  reasonText _ := ""

def clientEnv : Env :=
  { demoEnv with loadPemCert := fun pem => some (if pem = "ca-pem" then demoCaCert else clientCert) }

def challengedDb : Db :=
  { retailDb with scepChallenges := Table.empty.insert ⟨"sha256:password", 1, 5000, false⟩ }

def grantedActs : List Act :=
  [.message clientEnv clientWire PKCS_REQ none, .call ⟨clientEnv, .decide ⟨"ann", .approver, none⟩ 1 true none⟩]

/-- the device is handed the certificate an approver granted it -/
theorem client_polled_own : ∃ opener csrPem, SentIn grantedActs opener csrPem ∧
    Served clientEnv (Machine.run act challengedDb grantedActs) opener csrPem (clientMessage GET_CERT_INITIAL) 1 :=
  polled_own (w := clientWire) rfl grantedActs (by decide +kernel)

end Certadillo.Scep
