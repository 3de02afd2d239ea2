/-
The certificate an approval stands for.

A request for a certificate that needs a second person waits as an approval. Carrying it out signs the certificate and leaves
its row's id in the approval's payload, where a front end that is polled finds it.

- `request_asks`: a request that waits asks for a certificate of its app, for its CSR, and names none yet.
- `issueApproved_keys`: what carrying it out adds to the payload: the id of a certificate of the app, or of a job.
- `step_asks`, `approval_names_own`: whatever the application does, the approval goes on asking for that, and a certificate it
  names is the app's.
-/
import Certadillo.Services.MakerChecker
import Certadillo.Services.Requests
import Certadillo.DualControlRuns

namespace Certadillo.Platform

open Integrity Policy Py Relation
open Tx (Calm CalmAt Does DoesAt calm_pure calm_throw calm_bind calm_modify does_bind)

/-- the payload asks for a certificate of the app, for this CSR -/
def Puts (appId : ℕ) (csrPem : String) (payload : Json) : Prop :=
  (do toId (← item payload "app_id")) = .ok appId ∧ item payload "csr_pem" = .ok (.str csrPem)

/-- the certificate a payload names, as the front ends read it -/
def certificateId (payload : Json) : Except Err (Option ℕ) := do toId? (← dget payload "certificate_id")

/-- row `id` is a certificate of the app -/
def Owned (appId : ℕ) (d : Db) (id : ℕ) : Prop := ∃ c, d.certificates.get id = some c ∧ c.appId = some appId

/-- the approval has this payload, and a certificate it names is the app's -/
def Filed (appId : ℕ) (payload : Json) (approvalId : ℕ) (d : Db) : Prop :=
  (∃ req, d.approvals.get approvalId = some req ∧ req.action = .issueCertificate ∧ req.payload = payload) ∧
    ∀ n, certificateId payload = .ok (some n) → Owned appId d n

/-- the approval asks for a certificate of the app for this CSR, and a certificate it names is the app's -/
def AsksFor (appId : ℕ) (csrPem : String) (approvalId : ℕ) (d : Db) : Prop :=
  ∃ payload, Puts appId csrPem payload ∧ Filed appId payload approvalId d

section Asking

variable {env : Env} {g : Grant} {appId approvalId : ℕ} {csrPem : String} {payload : Json} {d d' : Db} {s s' : Session Db}

/-! ## Payloads -/

theorem dget_addKeys_of_ne {kvs keys : List (String × Json)} {key : String} (h : ∀ p ∈ keys, p.1 ≠ key) :
    dget (addKeys (.obj kvs) keys) key = dget (.obj kvs) key := by
  simp only [addKeys, dget, lookup_updateItems kvs keys h]

theorem item_addKeys_of_ne {kvs keys : List (String × Json)} {key : String} (h : ∀ p ∈ keys, p.1 ≠ key) :
    item (addKeys (.obj kvs) keys) key = item (.obj kvs) key := by
  simp only [addKeys, item, lookup_updateItems kvs keys h]

theorem Puts.isObject (h : Puts appId csrPem payload) : ∃ kvs, payload = .obj kvs := by
  obtain ⟨-, hpem⟩ := h
  cases payload with
  | obj kvs => exact ⟨kvs, rfl⟩
  | _ => cases hpem

/-- a key that is neither of the request's is added -/
theorem Puts.addKey {kvs : List (String × Json)} (h : Puts appId csrPem (.obj kvs)) {key : String} (value : Json)
    (happ : key ≠ "app_id") (hcsr : key ≠ "csr_pem") : Puts appId csrPem (addKeys (.obj kvs) [(key, value)]) := by
  obtain ⟨happId, hpem⟩ := h
  constructor
  · rw [item_addKeys_of_ne (by simpa using happ)]
    exact happId
  · rw [item_addKeys_of_ne (by simpa using hcsr)]
    exact hpem

theorem certificateId_added (kvs : List (String × Json)) (n : ℕ) :
    certificateId (addKeys (.obj kvs) [("certificate_id", .num n)]) = .ok (some n) := by
  have hlookup : (updateItems kvs [("certificate_id", Json.num n)]).lookup "certificate_id" = some (.num n) := by
    show (setItem kvs "certificate_id" (Json.num n)).lookup "certificate_id" = _
    rw [lookup_setItem, if_pos rfl]
  simp [certificateId, addKeys, dget, hlookup, toId?]
  rfl

/-! ## Single writes -/

/-- certificates stay, and stay their app's -/
def Stays (d d' : Db) : Prop :=
  ∀ i c, d.certificates.get i = some c → ∃ c', d'.certificates.get i = some c' ∧ c'.appId = c.appId

theorem Owned.stays (h : Stays d d') {id : ℕ} (howned : Owned appId d id) : Owned appId d' id := by
  obtain ⟨c, hget, happ⟩ := howned
  obtain ⟨c', hget', hsame⟩ := h id c hget
  exact ⟨c', hget', hsame.trans happ⟩

theorem stays_refl (h : d'.certificates = d.certificates) : Stays d d' := fun i c hget =>
  ⟨c, (congrArg (·.get i) h).trans hget, rfl⟩

theorem write_stays (h : Write env g d d') : Stays d d' := by
  intro i c hget
  cases h with
  | frame _ certs _ _ _ _ => exact ⟨c, (congrArg (·.get i) certs).trans hget, rfl⟩
  | addCertificate c' _ => exact ⟨c, Table.get_insert_of_some hget, rfl⟩
  | setCertificate j f hf _ =>
    by_cases hi : i = j
    · subst hi
      obtain ⟨x, hx⟩ := flushed_certificate env.st c (f c)
      refine ⟨flushed env.st c (f c), (Table.get_update_self _ _ _).trans (congrArg _ hget), ?_⟩
      rw [hx]
      exact (hf c).appId
    · exact ⟨c, (Table.get_update_of_ne _ _ hi).trans hget, rfl⟩
  | _ => exact ⟨c, hget, rfl⟩

/-- what leaves the approval and keeps the certificates -/
theorem Filed.of_kept (h : Filed appId payload approvalId d)
    (hkept : ∀ req, d.approvals.get approvalId = some req → d'.approvals.get approvalId = some req) (hstays : Stays d d') :
    Filed appId payload approvalId d' := by
  obtain ⟨⟨req, hget, haction, hpayload⟩, hnames⟩ := h
  exact ⟨⟨req, hkept req hget, haction, hpayload⟩, fun n hn => (hnames n hn).stays hstays⟩

theorem write_filed (h : Write env g d d') (hid : ¬ g.decides approvalId) (hfiled : Filed appId payload approvalId d) :
    Filed appId payload approvalId d' :=
  hfiled.of_kept (fun _ hget => write_kept h hid hget) (write_stays h)

/-- everything but decisions -/
def calling : Grant := { Grant.full with decides := fun _ => False }

/-- columns of the approval other than its payload and its kind are assigned -/
theorem filed_assign {f : ApprovalRequest → ApprovalRequest} (hpayload : ∀ r, (f r).payload = r.payload)
    (haction : ∀ r, (f r).action = r.action) (h : Filed appId payload approvalId d) :
    Filed appId payload approvalId
      { d with approvals := d.approvals.update approvalId fun r => flushed env.st r (f r) } := by
  obtain ⟨⟨req, hget, hreq, hp⟩, hnames⟩ := h
  obtain ⟨x, hx⟩ := flushed_approval env.st req (f req)
  refine ⟨⟨flushed env.st req (f req), (Table.get_update_self _ _ _).trans (congrArg _ hget), ?_, ?_⟩, hnames⟩
  · rw [hx]
    exact (haction req).trans hreq
  · rw [hx]
    exact (hpayload req).trans hp

/-! ## Asking -/

/-- **A request that waits** asks for a certificate of its app, and names none yet. -/
theorem request_asks {actor : Actor} {r : CertRequest} (hpem : r.csrPem = some csrPem)
    (h : requestCertificate env actor appId r s = (.ok (.approval approvalId), s')) : AsksFor appId csrPem approvalId s'.work := by
  obtain ⟨app, csr, decision, -, hfulfil⟩ := requestCertificate_decided h
  unfold fulfil at hfulfil
  split at hfulfil
  · cases hfulfil
    obtain ⟨x, hx⟩ := inserted_approval env.st
      ⟨.issueCertificate, .obj (issuePayload env appId app.profile r), actor.name, .pending, none, none, none, none⟩
    refine ⟨.obj (issuePayload env appId app.profile r), ⟨rfl, ?_⟩, ⟨_, Table.get_insert_next _ _, ?_, ?_⟩, fun n hn => ?_⟩
    · show Except.ok (Json.ofStr? r.csrPem) = _
      rw [hpem]
      rfl
    · exact congrArg ApprovalRequest.action hx
    · exact congrArg ApprovalRequest.payload hx
    · cases hn
  · split at hfulfil
    · obtain ⟨id, s₁, -, hfulfil⟩ := Tx.bind_returns.1 hfulfil
      cases hfulfil
    · obtain ⟨id, s₁, -, hfulfil⟩ := Tx.bind_returns.1 hfulfil
      cases hprev : r.previous with
      | none =>
        rw [hprev] at hfulfil
        cases hfulfil
      | some prev =>
        rw [hprev] at hfulfil
        cases hfulfil

/-! ## Carrying out -/

/-- **What carrying out a request adds to its payload**: the id of a certificate of the app, or that of a job. -/
theorem issueApproved_keys {requestedBy : String} {a : IssueArgs} {app : App} {csr : Csr} {decision : Decision}
    {keys : List (String × Json)} (h : issueApproved env requestedBy a app csr decision s = (.ok keys, s')) :
    (∃ id : ℕ, keys = [("certificate_id", .num id)] ∧ Owned a.appId s'.work id) ∨ ∃ id : ℕ, keys = [("adcs_job_id", .num id)] := by
  unfold issueApproved at h
  split at h
  · obtain ⟨id, s₁, -, h⟩ := Tx.bind_returns.1 h
    cases h
    exact Or.inr ⟨id, rfl⟩
  · left
    obtain ⟨id, s₁, hsign, h⟩ := Tx.bind_returns.1 h
    have howned : Owned a.appId s₁.work id := by
      rcases sign_cases env csr decision a.appId app a.protocol ⟨requestedBy, .app, some a.appId⟩ s with ⟨e, hrun⟩ | ⟨id', b, hrun, hnew⟩
      · cases hrun.symm.trans hsign
      · cases hrun.symm.trans hsign
        obtain ⟨c, hget, -, happ⟩ := hnew.row
        exact ⟨c, hget, happ⟩
    have hset : ∀ prevId by', Owned a.appId (setRow env Col.certificates prevId
        (fun c => { c with status := .superseded, replacedBy := by' }) s₁).2.work id := by
      intro prevId by'
      have hcalm : Calm (Write env .full) (setRow env Col.certificates prevId
          fun c => { c with status := .superseded, replacedBy := by' }) := calm_supersede (fun _ => trivial) by'
      exact (hcalm s₁).keeps (I := fun d => Owned a.appId d id) (fun _ _ hw ho => ho.stays (write_stays hw)) howned rfl
    rw [Tx.get_bind] at h
    refine ⟨id, ?_⟩
    cases hprevious : a.previousId with
    | none =>
      rw [hprevious] at h
      cases h
      exact ⟨rfl, howned⟩
    | some prevId =>
      rw [hprevious] at h
      cases hprev : s₁.work.certificates.get prevId with
      | none =>
        simp only [hprev] at h
        cases h
        exact ⟨rfl, howned⟩
      | some prev =>
        simp only [hprev] at h
        by_cases hactive : prev.status = .active
        · rw [if_pos hactive] at h
          cases h
          exact ⟨rfl, hset _ _⟩
        · rw [if_neg hactive] at h
          cases h
          exact ⟨rfl, howned⟩

/-- the app an approval asks for is the one it is carried out for -/
theorem Puts.appId_eq {req : ApprovalRequest} (h : Puts appId csrPem req.payload) (haction : req.action = .issueCertificate)
    {a : IssueArgs} (ha : IssueArgs.ofPayload req.payload = .ok a) : a.appId = appId :=
  Except.ok.inj ((IssueArgs.issues haction ha).2.symm.trans h.1)

/-- the approval with the payload that carrying it out stores -/
theorem execute_asks {req : ApprovalRequest} {decidedBy : String} (haction : req.action = .issueCertificate)
    (hputs : Puts appId csrPem req.payload) (hfiled : ∀ d, d = s.committed ∨ d = s.work → Filed appId req.payload approvalId d) :
    AsksFor appId csrPem approvalId (execute env approvalId req decidedBy s).2.committed ∧
      AsksFor appId csrPem approvalId (execute env approvalId req decidedBy s).2.work := by
  have hbranch : DoesAt (Write env calling) s (executeBranch env approvalId req decidedBy) :=
    executeBranch_doesAt ⟨fun _ _ _ _ _ => trivial, fun _ _ _ _ _ => trivial, fun _ _ _ _ _ => trivial⟩ _ _
  have hleft := hbranch (Filed appId req.payload approvalId) (fun _ _ hw => write_filed hw id) (hfiled _ (Or.inl rfl))
    (hfiled _ (Or.inr rfl))
  obtain ⟨kvs, hkvs⟩ := hputs.isObject
  unfold execute
  rw [hkvs]
  dsimp only
  rw [Tx.bind_run]
  rcases hrun : executeBranch env approvalId req decidedBy s with ⟨e | keys, s₁⟩
  · rw [hrun] at hleft
    exact ⟨⟨_, hputs, hleft.1⟩, ⟨_, hputs, hleft.2⟩⟩
  rw [hrun] at hleft
  obtain ⟨hcommitted, hwork⟩ := hleft
  cases keys with
  | none => exact ⟨⟨_, hputs, hcommitted⟩, ⟨_, hputs, hwork⟩⟩
  | some keys =>
    refine ⟨⟨_, hputs, hcommitted⟩, ?_⟩
    rw [executeBranch_issue haction] at hrun
    obtain ⟨a, s₂, hargs, hrun⟩ := Tx.bind_returns.1 hrun
    obtain ⟨ha, rfl⟩ := Prod.mk.inj hargs
    obtain ⟨keys', s₃, hissue, hpure⟩ := Tx.bind_returns.1 hrun
    cases hpure
    obtain ⟨d₀, s₄, -, hissue⟩ := Tx.bind_returns.1 hissue
    obtain ⟨r, s₅, -, hissue⟩ := Tx.bind_returns.1 hissue
    obtain ⟨decision, s₆, -, hissue⟩ := Tx.bind_returns.1 hissue
    obtain rfl := hputs.appId_eq haction ha
    obtain ⟨⟨req', hget, haction', -⟩, hnames⟩ := hwork
    rw [hkvs] at hputs hnames
    -- the row that is stored has the payload the request was loaded with, and the new key
    have hstored : ∃ req'', (setRow env Col.approvals approvalId
        (fun r => { r with payload := addKeys (.obj kvs) keys }) s₁).2.work.approvals.get approvalId = some req'' ∧
        req''.action = .issueCertificate ∧ req''.payload = addKeys (.obj kvs) keys := by
      obtain ⟨x, hx⟩ := flushed_approval env.st req' { req' with payload := addKeys (.obj kvs) keys }
      refine ⟨flushed env.st req' { req' with payload := addKeys (.obj kvs) keys },
        (Table.get_update_self _ _ _).trans (congrArg _ hget), ?_, ?_⟩
      · rw [hx]
        exact haction'
      · rw [hx]
    rcases issueApproved_keys hissue with ⟨id, rfl, howned⟩ | ⟨id, rfl⟩
    · refine ⟨_, hputs.addKey (.num id) (by decide) (by decide), hstored, fun n hn => ?_⟩
      rw [certificateId_added] at hn
      obtain rfl := Option.some.inj (Except.ok.inj hn)
      exact howned
    · refine ⟨_, hputs.addKey (.num id) (by decide) (by decide), hstored, fun n hn => hnames n ?_⟩
      rw [certificateId, dget_addKeys_of_ne (by simp)] at hn
      exact hn

/-- what holds of the state a program commits and of the one it leaves holds after its transaction -/
theorem transact_both {α : Type} {m : M α} {I : Db → Prop} (h : I (m ⟨d, d⟩).2.committed ∧ I (m ⟨d, d⟩).2.work) :
    I (Tx.transact m d).2 := by
  unfold Tx.transact
  rcases hrun : m ⟨d, d⟩ with ⟨e | a, s₁⟩
  · rw [hrun] at h
    exact h.1
  · rw [hrun] at h
    exact h.2

/-- a decision of the approval -/
theorem decide_asks (h : AsksFor appId csrPem approvalId d) (actor : Actor) (approve : Bool) (comment : Option String) :
    AsksFor appId csrPem approvalId (Tx.transact (decide env actor approvalId approve comment) d).2 := by
  obtain ⟨payload, hputs, hfiled⟩ := h
  cases hchecks : decideChecks env d actor approvalId approve with
  | error e =>
    rw [decide_unchecked hchecks]
    exact ⟨payload, hputs, hfiled⟩
  | ok req =>
    obtain ⟨⟨req', hget, haction, rfl⟩, -⟩ := id hfiled
    obtain rfl := Option.some.inj (hget.symm.trans (decideChecks_ok hchecks).stored)
    have hnoted : Filed appId req'.payload approvalId (noted env actor approvalId req' approve comment ⟨d, d⟩).work :=
      filed_assign (fun _ => rfl) (fun _ => rfl) hfiled
    have hboth := decide_checked hchecks comment
    refine transact_both (hboth ▸ ?_)
    cases approve with
    | true =>
      refine execute_asks haction hputs fun b hb => ?_
      rcases hb with rfl | rfl
      · exact hfiled
      · exact hnoted
    | false =>
      have hreject : CalmAt (Write env calling) _ (carryRejection env req' actor.name) :=
        calm_carryRejection req' actor.name (noted env actor approvalId req' false comment ⟨d, d⟩)
      have hleft := hreject.does (Filed appId req'.payload approvalId) (fun _ _ hw => write_filed hw id) hfiled hnoted
      exact ⟨⟨_, hputs, hleft.1⟩, ⟨_, hputs, hleft.2⟩⟩

/-- **Whatever the application does, the approval goes on asking for the same**, and a certificate it names is the app's. -/
theorem step_asks (h : AsksFor appId csrPem approvalId d) (c : Call) : AsksFor appId csrPem approvalId (step d c) := by
  by_cases hdecides : Decides c approvalId
  · obtain ⟨env, op⟩ := c
    cases op with
    | decide actor id approve comment =>
      obtain rfl : approvalId = id := hdecides
      exact decide_asks h actor approve comment
    | _ => exact absurd hdecides id
  · obtain ⟨payload, hputs, hfiled⟩ := h
    exact ⟨payload, hputs, Tx.reaches_inv (I := Filed appId payload approvalId)
      (fun _ _ hw => write_filed hw (not_granted hdecides)) (step_writes d c) hfiled⟩

end Asking

end Certadillo.Platform
