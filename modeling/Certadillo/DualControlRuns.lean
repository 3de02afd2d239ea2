/-
Dual control over whole runs: service calls, CMP, EST, SCEP and ACME messages and provisioning runs, in any order, each in
a transaction of its own.

- `serve_certs`: what one message adds to the certificates it was authorised to.
- `dual_control_kept`: every certificate signed here in a run was signed alone, when neither the app's profile nor its
  folders nor the directory asked for a second person, or inside the execution of an approval for its app that somebody
  other than its requester decided.

The AD CS gateway reports certificates that were signed elsewhere; its reports are told apart.
-/
import Certadillo.Enrollment.FrontEnds
import Certadillo.Runs

namespace Certadillo

open Integrity Policy Py Relation Platform
open Tx (DoesAt)

/-! ## Messages -/

inductive Message where
  | service (op : Op)
  | est (site : Est.Site) (req : Est.Request) (endpoint : Est.Endpoint)
  | scep (w : Scep.Wire) (der : String) (appName : Option String)
  | acme (site : Acme.Site) (draws : Acme.Draws) (req : Acme.Request) (call : Acme.Call)
  | push (w : Provisioning.Drivers) (instId : ℕ) (actorName trigger : String)
  /-- any other change, which leaves the certificates alone: minted credentials, the directory of teams, cleanup -/
  | other (change : Db → Db) (h : ∀ d, (change d).certificates = d.certificates)

/-- a message, with the clock, the policies and the outside world it meets -/
structure Delivery where
  env : Env
  message : Message

/-- one message, in its own transaction -/
def serve (d : Db) (v : Delivery) : Db :=
  match v.message with
  | .service op => step d ⟨v.env, op⟩
  | .est site req endpoint => (Tx.transact (Est.handle v.env site req endpoint) d).2
  | .scep w der appName => (Tx.transact (Scep.handlePkiOperation v.env w der appName) d).2
  | .acme site draws req call => (Tx.transact (Acme.handle v.env site draws req call) d).2
  | .push w instId actorName trigger => (Tx.transact (Provisioning.provision v.env w instId actorName trigger) d).2
  | .other change _ => change d

/-! ## What authorises a certificate -/

/-- the message executes an approval, and the row is for the app of it -/
def Approves (v : Delivery) (d : Db) (c : Certificate) : Prop :=
  ∃ actor approvalId comment, v.message = .service (.decide actor approvalId true comment) ∧
    SignedApproved v.env d actor approvalId c

/-- the message reports what the AD CS gateway had signed -/
def Reports (v : Delivery) : Prop :=
  ∃ actor jobId certificatePem, v.message = .service (.gatewayCompleteIssue actor jobId certificatePem)

/-- why a row may be added -/
inductive Authorised (v : Delivery) (d : Db) (c : Certificate) : Prop where
  | alone (h : SignedAlone v.env d c)
  | approved (h : Approves v d c)
  | reported (h : Reports v)

theorem Authorised.same {v : Delivery} {d : Db} {c c' : Certificate} (h : Authorised v d c) (hs : SameIdentity c c') :
    Authorised v d c' := by
  cases h with
  | alone h => exact .alone (h.same hs)
  | approved h =>
    obtain ⟨actor, approvalId, comment, hmsg, hsigned⟩ := h
    exact .approved ⟨actor, approvalId, comment, hmsg, hsigned.same hs⟩
  | reported h => exact .reported h

/-- a row that needs two people was not signed alone -/
theorem Authorised.two {v : Delivery} {d : Db} {c : Certificate} (h : Authorised v d c) (hneeds : NeedsTwo v.env d c) :
    Approves v d c ∨ Reports v := by
  cases h with
  | alone h => exact absurd hneeds h.enough
  | approved h => exact Or.inl h
  | reported h => exact Or.inr h

/-- the rows a message may add: what the inventory finds, or what it is authorised to issue -/
def MayAdd (v : Delivery) (d : Db) (c : Certificate) : Prop := c.source = .issued → Authorised v d c

/-! ## One message -/

section Step

variable {v : Delivery} {d : Db}

/-- a service call adds the certificates it is authorised to -/
theorem step_certs {env : Env} {op : Op} {adds : Certificate → Prop} (d : Db)
    (halone : ∀ c, SignedAlone env d c → adds c) (hingest : ∀ c : Certificate, c.source ≠ .issued → adds c)
    (happroved : ∀ actor approvalId comment, op = .decide actor approvalId true comment →
      ∀ c, SignedApproved env d actor approvalId c → adds c)
    (hreported : ∀ actor jobId pem, op = .gatewayCompleteIssue actor jobId pem → ∀ c, adds c) :
    ReflTransGen (CertWrite env adds) d (step d ⟨env, op⟩) := by
  have hwrite : ∀ {α : Type} {m : M α}, DoesAt (Write env (.adding adds)) ⟨d, d⟩ m →
      ReflTransGen (CertWrite env adds) d (Tx.transact m d).2 := fun h =>
    Tx.transact_doesAt (h.mono fun _ _ => Write.cert)
  have hsteady : Steady d (⟨d, d⟩ : Session Db).work := .refl d
  cases op with
  | createPrincipal actor name role appId rawKey => exact hwrite ((calm_createPrincipal _ _ _ _ _).does _)
  | deactivatePrincipal actor name => exact hwrite ((calm_deactivatePrincipal _ _).does _)
  | onboardApp actor teamId name environment profileName allowedDomains dataClassification folderId =>
    exact hwrite ((calm_onboardApp _ _ _ _ _ _ _ _).does _)
  | policyChange actor op => exact hwrite ((calm_policyChange _ _).does _)
  | addEstTrustAnchor actor appId name certPem => exact hwrite ((calm_addEstTrustAnchor _ _ _ _).does _)
  | createSubCa actor name parent years => exact hwrite ((calm_createSubCa _ _ _ _).does _)
  | requestCertificate actor appId r => exact hwrite (doesAt_requestCertificate hsteady halone _ _ _)
  | renew actor certId csrPem protocol => exact hwrite (doesAt_renew hsteady halone _ _ _ _)
  | revoke actor certId reason changeRef => exact hwrite ((calm_revoke (fun _ => trivial) _ _ _).does _)
  | ingest actorName cert feed location appId =>
    have hfeed : feed.source ≠ .issued := by cases feed <;> decide
    refine hwrite ((calm_ingest (fun c _ hsource => hingest c (hsource ▸ hfeed)) ?_ (fun _ _ _ => trivial) _ _ _ _).does _)
    cases feed <;> decide
  | gatewayCompleteIssue actor jobId certificatePem =>
    exact hwrite ((calm_gatewayCompleteIssue (fun c _ => hreported _ _ _ rfl c) _ _ _).does _)
  | campaignRevoke actor campaignId remaining changeRef =>
    exact hwrite (calmAt_campaignRevoke (fun _ _ _ _ _ => trivial) _ _).does
  | requestKey actor name appId purpose alg => exact hwrite ((CodeSign.calm_requestKey _ _ _ _ _).does _)
  | requestSignature actor keyName digestAlg digestHex artifact =>
    exact hwrite ((CodeSign.calm_requestSignature _ _ _ _ _).does _)
  | decide actor approvalId approve comment =>
    refine hwrite (doesAt_decide_approved (fun happrove => ?_) comment)
    subst happrove
    exact happroved actor approvalId comment rfl
  | cmp w req label =>
    exact Tx.transact_doesAt ((Cmp.alone_handle hsteady halone _ _).mono fun _ _ => MessageWrite.cert)

/-- **Every message adds only certificates it is authorised to.** -/
theorem serve_certs (d : Db) (v : Delivery) : ReflTransGen (CertWrite v.env (MayAdd v d)) d (serve d v) := by
  have halone : ∀ c, SignedAlone v.env d c → MayAdd v d c := fun c h _ => .alone h
  have hsteady : Steady d (⟨d, d⟩ : Session Db).work := .refl d
  have hmessage : ∀ {α : Type} {m : M α}, DoesAt (MessageWrite v.env (MayAdd v d)) ⟨d, d⟩ m →
      ReflTransGen (CertWrite v.env (MayAdd v d)) d (Tx.transact m d).2 := fun h =>
    Tx.transact_doesAt (h.mono fun _ _ => MessageWrite.cert)
  unfold serve
  cases hmsg : v.message with
  | service op =>
    refine step_certs d halone (fun c h hs => absurd hs h) ?_ ?_
    · rintro actor approvalId comment rfl c hc -
      exact .approved ⟨actor, approvalId, comment, hmsg, hc⟩
    · rintro actor jobId pem rfl c -
      exact .reported ⟨actor, jobId, pem, hmsg⟩
  | est site req endpoint => exact hmessage (Est.alone_handle hsteady halone _ _ _)
  | scep w der appName => exact hmessage (Scep.alone_handlePkiOperation hsteady halone _ _)
  | acme site draws req call => exact hmessage (Acme.alone_handle hsteady halone _ _)
  | push w instId actorName trigger => exact hmessage (Provisioning.alone_provision hsteady halone _ _ _)
  | other change h => exact .single (.keep (h d))

/-- an issued row after a message was there before it, or is new and the message was authorised to add it -/
theorem serve_issued {i : ℕ} {row : Certificate} (hget : (serve d v).certificates.get i = some row)
    (hsource : row.source = .issued) :
    (∃ old, d.certificates.get i = some old ∧ SameIdentity old row) ∨
      d.certificates.get i = none ∧ Authorised v d row := by
  refine ((stored_row (serve_certs d v)).rows i row hget).imp_right fun hadded => ?_
  obtain ⟨hnone, c, hadds, hsame⟩ := hadded
  exact ⟨hnone, (hadds (hsame.source.symm.trans hsource)).same hsame⟩

end Step

/-! ## Whole runs -/

/-- after `before`, the message `v` signed the row that is stored under `i` -/
structure SignedIn (d : Db) (i : ℕ) (row : Certificate) (before : List Delivery) (v : Delivery) : Prop where
  absent : (Machine.run serve d before).certificates.get i = none
  stored : ∃ first, (Machine.run serve d (before ++ [v])).certificates.get i = some first ∧ SameIdentity first row
  authorised : Authorised v (Machine.run serve d before) row

theorem SignedIn.same {d : Db} {i : ℕ} {row row' : Certificate} {before : List Delivery} {v : Delivery}
    (h : SignedIn d i row before v) (hs : SameIdentity row row') : SignedIn d i row' before v := by
  obtain ⟨first, hfirst, hsame⟩ := h.stored
  exact ⟨h.absent, ⟨first, hfirst, hsame.trans hs⟩, h.authorised.same hs⟩

/-- an issued row after a run was there at its start, or a message of the run signed it -/
theorem run_issued (d : Db) (vs : List Delivery) {i : ℕ} {row : Certificate}
    (hget : (Machine.run serve d vs).certificates.get i = some row) (hsource : row.source = .issued) :
    (∃ old, d.certificates.get i = some old ∧ SameIdentity old row) ∨
      ∃ before v after, vs = before ++ v :: after ∧ SignedIn d i row before v := by
  induction vs using List.reverseRecOn generalizing row with
  | nil => exact Or.inl ⟨row, hget, .refl row⟩
  | append_singleton vs v ih =>
    have hstored := hget
    rw [Machine.run_snoc] at hget
    rcases serve_issued hget hsource with ⟨old, hold, hsame⟩ | ⟨hnone, hauth⟩
    · refine (ih hold (hsame.source.symm.trans hsource)).imp ?_ ?_
      · intro ⟨first, hfirst, hbefore⟩
        exact ⟨first, hfirst, hbefore.trans hsame⟩
      · intro ⟨before, v', after, hvs, hsigned⟩
        exact ⟨before, v', after ++ [v], by rw [hvs]; simp, hsigned.same hsame⟩
    · exact Or.inr ⟨vs, v, [], rfl, hnone, ⟨row, hstored, .refl row⟩, hauth⟩

/-- **Dual control is not bypassed**: every certificate signed in a run was signed by one of its messages, alone where
nobody asked for a second person; where the app's profile or its folders asked then, or it is for a sensitive Windows
account, inside an approval for its app, decided by an approver who had not asked for it. -/
theorem dual_control_kept (d : Db) (vs : List Delivery) {i : ℕ} {row : Certificate} (hnew : d.certificates.get i = none)
    (hget : (Machine.run serve d vs).certificates.get i = some row) (hsource : row.source = .issued) :
    ∃ before v after, vs = before ++ v :: after ∧ SignedIn d i row before v ∧
      (NeedsTwo v.env (Machine.run serve d before) row → Approves v (Machine.run serve d before) row ∨ Reports v) := by
  rcases run_issued d vs hget hsource with ⟨old, hold, -⟩ | ⟨before, v, after, hvs, hsigned⟩
  · rw [hnew] at hold
    cases hold
  · exact ⟨before, v, after, hvs, hsigned, hsigned.authorised.two⟩

/-! ### A folder under dual control -/

/-- an app whose folder asks for dual control, and an issuing CA -/
def retailDb : Db :=
  { widenedDb with
    folders := Table.empty.insert (inserted demoState
      ⟨"retail", none, .obj [("dual_control", .obj [("value", .bool true), ("locked", .bool true)])], "adm", none⟩) }

/-- an operator's request waits -/
def retailAsked : Delivery := ⟨demoEnv, .service (.requestCertificate ⟨"olga", .operator, none⟩ 1 webRequest)⟩

/-- an approver grants it -/
def retailGranted : Delivery := ⟨demoEnv, .service (.decide ⟨"ann", .approver, none⟩ 1 true none)⟩

theorem retail_signed_under_dual_control :
    ∃ row, (Machine.run serve retailDb [retailAsked, retailGranted]).certificates.get 1 = some row ∧
      ∃ before v after, [retailAsked, retailGranted] = before ++ v :: after ∧ SignedIn retailDb 1 row before v ∧
        (NeedsTwo v.env (Machine.run serve retailDb before) row →
          Approves v (Machine.run serve retailDb before) row ∨ Reports v) := by
  have hissued : ((Machine.run serve retailDb [retailAsked, retailGranted]).certificates.get 1).map (·.source) =
      some .issued := by decide +kernel
  obtain ⟨row, hget, hsource⟩ := Option.map_eq_some_iff.1 hissued
  exact ⟨row, hget, dual_control_kept retailDb [retailAsked, retailGranted] rfl hget hsource⟩

end Certadillo
