/-
What the CMP server, ACME revocation and push provisioning do to the rows a CRL is made of.

Each of them names the reason itself or reads it from a table of reason codes, so it never gives one a CRL cannot.

- `doesAt_keepsCmp`: an rr gives the reason of its code, and a rejected certificate ceases operation.
- `doesAt_keepsRevokeCert`: `revoke-cert` gives the reason of its code.
- `does_keepsProvision`: a certificate that was not delivered ceases operation.
-/
import Certadillo.Revocation.CrlWrites
import Certadillo.Enrollment.CmpEffects
import Certadillo.Enrollment.AcmeRevoke
import Certadillo.Services.Provisioning

namespace Certadillo.Revocation

open Integrity Policy Py Platform
open Tx (Calm CalmAt Does DoesAt calm_pure calm_throw calm_bind calm_get_bind calm_ofExcept_bind calm_modify does_bind
  does_get_bind)

/-! ## CMP -/

section Cmp

variable {env : Env} {gives : Reasons} {d₀ : Db} {w : Cmp.Wire}

theorem converses_keeps : Cmp.Converses (fun _ => True) (Keeps env.st gives d₀) :=
  ⟨fun _ _ _ => keeps_frame rfl rfl rfl, fun _ _ _ _ => keeps_frame rfl rfl rfl, fun _ _ => keeps_frame rfl rfl rfl⟩

theorem reasonCodes_reasons {code : ℕ} {name : String} (h : Cmp.REASON_CODES.lookup code = some name) : name ∈ REASONS := by
  have hall : ∀ p ∈ Cmp.REASON_CODES, p.2 ∈ REASONS := by decide
  obtain ⟨l₁, l₂, hl, -⟩ := List.lookup_eq_some_iff.1 h
  exact hall (code, name) (hl ▸ List.mem_append_right _ List.mem_cons_self)

/-- a code that is not in the table is unspecified -/
theorem reasonOf_mem (det : Cmp.RevDetails) : Cmp.reasonOf det ∈ REASONS := by
  have hdefault : "unspecified" ∈ REASONS := by decide
  unfold Cmp.reasonOf
  split
  · next code _ =>
    cases hlookup : Cmp.REASON_CODES.lookup code with
    | none => exact hdefault
    | some name => exact reasonCodes_reasons hlookup
  · exact hdefault

/-- the reasons a message gives -/
def cmpGives (d : Db) (req : Cmp.CmpRequest) : Reasons := fun i serial reason =>
  match req.body with
  | .certConf _ => Cmp.OfTransaction d req.txid i ∧ reason = "cessation_of_operation"
  | .rr details => ∃ det ∈ details, ∃ n, det.serialNumber = some n ∧ serial = hex n ∧ reason = Cmp.reasonOf det
  | _ => False

/-- **A CMP message** issues, or gives the reason of its code. -/
theorem doesAt_keepsCmp (h : Ordinary env) {s : Session Db} {req : Cmp.CmpRequest}
    (hgives : ∀ i serial reason, cmpGives s.work req i serial reason → gives i serial reason) (label : Option String) :
    DoesAt (Keeps env.st gives d₀) s (Cmp.handle env w req label) := by
  have hadmits : Admits (Keeps env.st gives d₀) := admits_keeps
  refine Cmp.doesAt_guarded hadmits.setCa hadmits.event (Cmp.dispatch_doesAt (fun prot _ => ?_) label)
  refine Cmp.answer_doesAt_of hadmits converses_keeps (fun statuses hbody i hi actor => ?_)
    (fun details hbody det hdet => ?_) fun _ ca s' _ => ?_
  · refine calm_keepsRevoke h.now (by decide) (fun serial => hgives _ _ _ ?_) _ _
    rw [cmpGives, hbody]
    exact ⟨hi, rfl⟩
  · intro s' id c n hget hn hserial actor
    refine calmAt_keepsRevoke h.now fun c' hmay _ => ⟨fun _ => reasonOf_mem det, hgives _ _ _ ?_⟩
    obtain rfl := Option.some.inj (hget.symm.trans (mayRevoke_ok hmay))
    rw [cmpGives, hbody]
    exact ⟨det, hdet, n, hn, hserial, rfl⟩
  · refine Cmp.handleEnrollment_doesAt hadmits converses_keeps (fun _ _ _ => trivial) (fun _ _ actor appId r _ => ?_) ca
    exact does_keepsRequest h actor appId r s'

end Cmp

/-! ## ACME -/

section Acme

variable {env : Env} {gives : Reasons} {d₀ : Db} {certs : Acme.Certificates} {site : Acme.Site} {draws : Acme.Draws}

/-- **`revoke-cert`** gives the reason its code names. -/
theorem doesAt_keepsRevokeCert (h : Ordinary env) {s : Session Db} {req : Acme.Request}
    (hgives : ∀ i reason, Acme.Asks certs s.work req i reason → ∀ serial, gives i serial reason) :
    DoesAt (Keeps env.st gives d₀) s (Acme.revokeCert env certs site draws req) := by
  refine Acme.doesAt_revokeCert (fun _ _ => keeps_frame rfl rfl rfl) fun i reason hasks who => ?_
  obtain ⟨payload, cert, row, -, -, hreason⟩ := id hasks
  exact (calm_keepsRevoke h.now (Acme.reasonNamed_mem hreason) (hgives i reason hasks) _ _).does

end Acme

/-! ## Push provisioning -/

section Provisioning

open Provisioning

variable {env : Env} {gives : Reasons} {d₀ : Db} {w : Drivers} {run : Run}

theorem calm_keepsUndelivered (h : Ordinary env) (hgives : ∀ i serial, gives i serial "cessation_of_operation")
    (instId appId : ℕ) (p : Progress) : Calm (Keeps env.st gives d₀) (revokeUndelivered env instId appId p) := by
  unfold revokeUndelivered
  split
  · exact calm_pure _
  next id row _ =>
  refine calm_get_bind fun d => ?_
  dsimp only
  split
  · exact calm_pure _
  have hrevoke : Calm (Keeps env.st gives d₀)
      (Tx.attempt (revoke env (actorOf instId appId) id "cessation_of_operation" none)) :=
    fun s => calm_keepsRevoke h.now (by decide) (hgives id) _ _ s
  refine calm_bind hrevoke fun result => ?_
  split
  · exact calm_pure _
  · exact calm_throw _
  · exact calm_pure _

theorem calm_keepsReport (instId runId : ℕ) (inst : Installation) (target : Option ProvisioningTarget)
    (actorName trigger status : String) (serial error : Option String) (steps : List String) :
    Calm (Keeps env.st gives d₀) (report env instId runId inst target actorName trigger status serial error steps) := by
  unfold report
  refine calm_bind (calm_keepsSet Col.provisioningRuns (fun _ _ => ⟨rfl, rfl, rfl⟩) _ _) fun _ => ?_
  exact calm_keepsRecord _ _ _ _

theorem calm_keepsFailed (h : Ordinary env) (hgives : ∀ i serial, gives i serial "cessation_of_operation") (p : Progress)
    (e : Err) : Calm (Keeps env.st gives d₀) (failed env run p e) := by
  unfold failed
  split
  · exact calm_throw _
  refine calm_bind (calm_keepsUndelivered h hgives _ _ _) fun steps => ?_
  refine calm_bind (calm_keepsSetRow Col.installations (fun _ _ => ⟨rfl, rfl, rfl⟩) _ _) fun _ => ?_
  refine calm_bind (calm_keepsSet Col.provisioningRuns (fun _ _ => ⟨rfl, rfl, rfl⟩) _ _) fun _ => ?_
  exact calm_keepsReport _ _ _ _ _ _ _ _ _ _

theorem calm_keepsFinished (issued : ℕ × Certificate) (status : String) (steps : List String) :
    Calm (Keeps env.st gives d₀) (finished env run issued status steps) := by
  have hretire : Calm (Keeps env.st gives d₀) (retirePrevious env run issued.1) := by
    unfold retirePrevious
    refine calm_get_bind fun d => ?_
    split
    · dsimp only
      split
      · refine calm_bind (calm_modify fun d => enrols_keeps.supersede d _ _ fun _ _ => trivial) fun _ => ?_
        exact calm_pure _
      · exact calm_pure _
    · exact calm_pure _
  unfold finished
  refine calm_bind hretire fun retired => ?_
  refine calm_bind (calm_keepsSetRow Col.installations (fun _ _ => ⟨rfl, rfl, rfl⟩) _ _) fun _ => ?_
  refine calm_bind (calm_keepsSet Col.provisioningRuns (fun _ _ => ⟨rfl, rfl, rfl⟩) _ _) fun _ => ?_
  exact calm_keepsReport _ _ _ _ _ _ _ _ _ _

theorem calm_keepsPush (h : Ordinary env) (hgives : ∀ i serial, gives i serial "cessation_of_operation") (p : Prepared)
    (issued : ℕ × Certificate) : Calm (Keeps env.st gives d₀) (push env w run p issued) := by
  unfold push
  refine calm_get_bind fun d => ?_
  split
  · exact calm_keepsFailed h hgives _ _
  split
  · exact calm_keepsFailed h hgives _ _
  refine calm_bind (calm_keepsSetRow Col.installations (fun _ _ => ⟨rfl, rfl, rfl⟩) _ _) fun _ => ?_
  split
  · exact calm_keepsFailed h hgives _ _
  · exact calm_keepsFinished _ _ _

/-- **A provisioning run** issues, and revokes only for a cessation of operation. -/
theorem does_keepsProvision (h : Ordinary env) (hgives : ∀ i serial, gives i serial "cessation_of_operation") (instId : ℕ)
    (actorName trigger : String) : Does (Keeps env.st gives d₀) (provision env w instId actorName trigger) := by
  have hattempted : ∀ run : Run, Does (Keeps env.st gives d₀) (attempted env w run) := by
    intro run
    unfold attempted
    split
    · exact (calm_keepsFailed h hgives _ _).does
    next p _ =>
    have hissue : Does (Keeps env.st gives d₀) (issueNow env run p.csrPem) := by
      unfold issueNow
      refine does_bind (does_keepsRequest h _ _ _) fun result => ?_
      split
      · refine does_get_bind fun d => ?_
        split
        · exact (calm_pure _).does
        · exact (calm_throw _).does
      · exact (calm_throw _).does
    refine does_bind (Tx.does_attempt hissue) fun result => ?_
    split
    · exact (calm_keepsFailed h hgives _ _).does
    · exact (calm_keepsPush h hgives _ _).does
  unfold provision
  refine does_get_bind fun d => ?_
  split
  · exact (calm_throw _).does
  refine does_bind (calm_keepsAdd Col.provisioningRuns (fun _ _ => ⟨rfl, rfl, rfl⟩) _ _).does fun runId => ?_
  exact does_bind (hattempted _) fun _ => does_bind Tx.does_commit fun _ => (calm_pure _).does

end Provisioning

end Certadillo.Revocation
