/-
Provisioning runs of one installation, one after another, over any database and with any drivers.

A run that installs its certificate and then fails, because the endpoint does not serve it, moves the installation's pointer
to it. The certificate that was live before is not retired, and no later run knows of it.

- `one_live_certificate`: after every run that succeeds, its certificate is the one the installation points to and the only
  live one of the installation's runs, if no run before left an active certificate behind: none installed a certificate that
  was then not served while the installation's was active, and none failed to take back one that was not installed.
- `unserved_left_active`: installed, installed but not served, installed: two certificates are live.
-/
import Certadillo.Services.ProvisioningRuns

namespace Certadillo.Provisioning

open Integrity Policy Py Machine Platform

/-! ## Runs of one installation -/

inductive Op where
  | provision (env : Env) (w : Drivers) (actorName trigger : String)
  /-- everything else that is committed between two runs -/
  | elsewhere (d : Db)

def step (instId : ℕ) (d : Db) : Op → Db
  | .provision env w actorName trigger => (Tx.transact (provision env w instId actorName trigger) d).2
  | .elsewhere d' => d'

/-- the certificate the installation points to -/
def pointer (d : Db) (instId : ℕ) : Option ℕ := (d.installations.get instId).bind (·.certificateId)

/-- certificate `id` was issued by a run of the installation -/
def OfRuns (instId : ℕ) (d : Db) (id : ℕ) : Prop :=
  ∃ r row, d.provisioningRuns.get r = some row ∧ row.installationId = instId ∧ row.certificateId = some id

def Active (d : Db) (id : ℕ) : Prop := ∃ c, d.certificates.get id = some c ∧ c.status = .active

/-- superseded or revoked -/
def Ended (d : Db) (id : ℕ) : Prop := ∃ c, d.certificates.get id = some c ∧ (c.status = .superseded ∨ c.status = .revoked)

/-- others leave the installation's runs and its pointer alone, and a certificate that ended stays so -/
structure Apart (instId : ℕ) (d d' : Db) : Prop where
  pointer : pointer d' instId = pointer d instId
  runs : ∀ id, OfRuns instId d' id → OfRuns instId d id
  active : ∀ id, OfRuns instId d id → Active d id → Active d' id ∨ Ended d' id
  ended : ∀ id, OfRuns instId d id → Ended d id → Ended d' id
  next : d.certificates.next ≤ d'.certificates.next

/-- No certificate is left behind: one that is installed while the installation's is active is served, and one that is not
installed does not stay active when it is revoked. -/
structure NothingLeft (env : Env) (w : Drivers) (instId : ℕ) (actorName trigger : String) (d : Db) : Prop where
  served : ∀ inst p id row mid, d.installations.get instId = some inst →
    Gets env w (runOf d instId inst actorName trigger) (begun d instId actorName trigger) p id row mid →
    Installs env w p row mid → (∃ prev, inst.certificateId = some prev ∧ Active d prev) →
    Served w (runOf d instId inst actorName trigger) row
  takenBack : ∀ inst p id row mid, d.installations.get instId = some inst →
    Gets env w (runOf d instId inst actorName trigger) (begun d instId actorName trigger) p id row mid →
    ¬ Installs env w p row mid →
    ¬ Active (revoke env (actorOf instId inst.appId) id "cessation_of_operation" none mid).2.work id

def Condition (instId : ℕ) (d : Db) : Op → Prop
  | .provision env w actorName trigger => NothingLeft env w instId actorName trigger d
  | .elsewhere d' => Apart instId d d'

/-- a run that succeeds leaves its certificate as the only live one of the installation's runs, and the pointer at it -/
def LiveAfter (instId : ℕ) (r : Except Err ℕ × Db) : Prop :=
  ∀ runId row, r.1 = .ok runId → r.2.provisioningRuns.get runId = some row → row.status = "ok" →
    ∃ id, row.certificateId = some id ∧ pointer r.2 instId = some id ∧ Active r.2 id ∧
      ∀ other, OfRuns instId r.2 other → other ≠ id → Ended r.2 other

def OneLive (instId : ℕ) (d : Db) : Op → Prop
  | .provision env w actorName trigger => LiveAfter instId (Tx.transact (provision env w instId actorName trigger) d)
  | .elsewhere _ => True

/-- every certificate of the installation's runs has ended, or is active and the one it points to -/
structure Settled (instId : ℕ) (d : Db) : Prop where
  next : 0 < d.certificates.next
  certificates : ∀ id, OfRuns instId d id → id ≠ 0 ∧ (Ended d id ∨ (Active d id ∧ pointer d instId = some id))

/-! ## One run -/

section Step

variable {env : Env} {w : Drivers} {instId : ℕ} {inst : Installation} {actorName trigger : String} {d mid b : Db}

/-- a run of an installation that exists -/
theorem provision_begun (hinst : d.installations.get instId = some inst) :
    provision env w instId actorName trigger ⟨d, d⟩ = (do
      attempted env w (runOf d instId inst actorName trigger)
      Tx.commit
      pure d.provisioningRuns.next : M ℕ) (begun d instId actorName trigger) := by
  unfold provision
  rw [Tx.get_bind, hinst]
  rfl

/-- a run raises, and the rows are as they were; or it returns, and leaves what its end leaves -/
theorem provision_cases (hinst : d.installations.get instId = some inst) :
    (∃ e, (Tx.transact (provision env w instId actorName trigger) d).1 = .error e ∧
      ((Tx.transact (provision env w instId actorName trigger) d).2 = d ∨
        Still (begun d instId actorName trigger).work (Tx.transact (provision env w instId actorName trigger) d).2)) ∨
      ((Tx.transact (provision env w instId actorName trigger) d).1 = .ok d.provisioningRuns.next ∧
        Leaves env w (runOf d instId inst actorName trigger) (begun d instId actorName trigger)
          (Tx.transact (provision env w instId actorName trigger) d).2) := by
  unfold Tx.transact
  rw [provision_begun hinst]
  rcases attempted_cases env w (runOf d instId inst actorName trigger) (begun d instId actorName trigger)
    with ⟨e, s', hrun, hcommitted⟩ | ⟨s', hrun, hleaves⟩
  · rw [Tx.bind_error hrun]
    exact Or.inl ⟨e, rfl, hcommitted⟩
  · rw [Tx.bind_ok hrun]
    exact Or.inr ⟨rfl, hleaves⟩

/-- a run without an installation raises -/
theorem provision_missing (hinst : d.installations.get instId = none) :
    (Tx.transact (provision env w instId actorName trigger) d).2 = d ∧
      ∀ runId, (Tx.transact (provision env w instId actorName trigger) d).1 ≠ .ok runId := by
  unfold Tx.transact provision
  rw [Tx.get_bind, hinst]
  exact ⟨rfl, nofun⟩

/-- the row of a run that begins names no certificate -/
theorem begun_ofRuns {id : ℕ} (h : OfRuns instId (begun d instId actorName trigger).work id) : OfRuns instId d id := by
  obtain ⟨r, row, hget, howner, hid⟩ := h
  have hget : (d.provisioningRuns.insert _).get r = some row := hget
  rw [Table.get_insert] at hget
  split at hget
  · cases hget
    cases hid
  · exact ⟨r, row, hget, howner, hid⟩

section Closed

variable {status : String} {issued point : Option ℕ}
  (hclosed : Closed (runOf d instId inst actorName trigger) status issued point mid b)
  (hruns : mid.provisioningRuns = (begun d instId actorName trigger).work.provisioningRuns)

include hclosed hruns

/-- the run's own row -/
theorem closed_row : ∃ row, b.provisioningRuns.get d.provisioningRuns.next = some row ∧ row.status = status ∧
    row.certificateId = issued := by
  obtain ⟨f, hf, hcols⟩ := hclosed.runs
  refine ⟨f ⟨instId, trigger, "running", none, [], none, actorName⟩, ?_, (hcols _).2.1, ?_⟩
  · rw [hf, hruns]
    exact (Table.get_update_self _ _ _).trans (congrArg _ (Table.get_insert_next _ _))
  · rw [(hcols _).2.2]
    exact Option.or_none

/-- the certificates of the installation's runs are those from before, and this run's -/
theorem closed_ofRuns {id : ℕ} (h : OfRuns instId b id) : OfRuns instId d id ∨ issued = some id := by
  obtain ⟨f, hf, hcols⟩ := hclosed.runs
  obtain ⟨r, row, hget, howner, hid⟩ := h
  by_cases hr : r = d.provisioningRuns.next
  · subst hr
    obtain ⟨row', hget', -, hissued⟩ := closed_row hclosed hruns
    obtain rfl := Option.some.inj (hget.symm.trans hget')
    exact Or.inr (hissued.symm.trans hid)
  · rw [hf, hruns] at hget
    exact Or.inl (begun_ofRuns ⟨r, row, (Table.get_update_of_ne _ _ hr).symm.trans hget, howner, hid⟩)

omit hruns in
theorem closed_pointer (hinst : d.installations.get instId = some inst) (hsame : mid.installations = d.installations) :
    pointer b instId = point.or inst.certificateId := by
  obtain ⟨f, hf, hpointer⟩ := hclosed.installation
  unfold pointer
  rw [hf, hsame, show (runOf d instId inst actorName trigger).instId = instId from rfl, Table.get_update_self, hinst]
  exact hpointer inst

end Closed

/-- a certificate the run did not issue is as it was -/
theorem issued_others {run : Run} {s s' : Session Db} {id i : ℕ} {row : Certificate} (h : Issued run s id row s')
    (hi : i ≠ id) : s'.work.certificates.get i = s.work.certificates.get i := h.new.others i hi

theorem active_congr {d d' : Db} {id : ℕ} (h : d'.certificates.get id = d.certificates.get id) : Active d' id ↔ Active d id := by
  unfold Active
  rw [h]

theorem ended_congr {d d' : Db} {id : ℕ} (h : d'.certificates.get id = d.certificates.get id) : Ended d' id ↔ Ended d id := by
  unfold Ended
  rw [h]

/-- a settled certificate has a row -/
theorem Settled.stored (h : Settled instId d) {id : ℕ} (hid : OfRuns instId d id) : ∃ c, d.certificates.get id = some c := by
  rcases (h.certificates id hid).2 with ⟨c, hget, -⟩ | ⟨⟨c, hget, -⟩, -⟩
  · exact ⟨c, hget⟩
  · exact ⟨c, hget⟩

/-- where the certificates, the pointer and the runs' certificates are as before, nothing changes -/
theorem Settled.same (h : Settled instId d) (hcertificates : b.certificates = d.certificates)
    (hpointer : pointer b instId = pointer d instId) (hruns : ∀ id, OfRuns instId b id → OfRuns instId d id) :
    Settled instId b := by
  refine ⟨hcertificates ▸ h.next, fun id hid => ?_⟩
  obtain ⟨hne, hlive⟩ := h.certificates id (hruns id hid)
  rw [ended_congr (congrArg (·.get id) hcertificates), active_congr (congrArg (·.get id) hcertificates), hpointer]
  exact ⟨hne, hlive⟩

/-- a request that gives no certificate leaves these tables -/
theorem refused_same {run : Run} {csrPem : String} {e : Err} {s s' : Session Db}
    (h : issueNow env run csrPem s = (.error e, s')) :
    s'.work.certificates = s.work.certificates ∧ s'.work.installations = s.work.installations ∧
      s'.work.provisioningRuns = s.work.provisioningRuns := by
  rcases issueNow_cases env run csrPem s with ⟨id, row, s₁, hrun, -⟩ | ⟨e', s₁, hrun, hleft⟩
  · cases h.symm.trans hrun
  obtain rfl := (Prod.mk.inj (h.symm.trans hrun)).2
  rcases hleft with ⟨-, hstill⟩ | ⟨-, -, app, csr, decision, out, -, hout, -, hfulfilled⟩
  · exact ⟨hstill.certificates, hstill.installations, hstill.runs⟩
  · cases out with
    | certificate id => exact absurd rfl (hout id)
    | approval id => exact hfulfilled.2.2
    | job id => exact hfulfilled.2

/-- a new certificate is none of those issued before -/
theorem Settled.fresh (h : Settled instId d) {s' : Session Db} {run : Run} {id other : ℕ} {row : Certificate}
    (hissued : Issued run (begun d instId actorName trigger) id row s') (hother : OfRuns instId d other) : other ≠ id := by
  intro heq
  obtain ⟨c, hget⟩ := h.stored hother
  have hlt := Table.get_lt hget
  have hfresh : id = d.certificates.next := hissued.new.fresh
  omega

/-- a certificate that was not delivered is active until it is revoked -/
theorem tidied_revoke {run : Run} {s mid : Session Db} {id : ℕ} {row : Certificate} (hissued : Issued run s id row mid)
    (steps : List String) : row.status = .active ∧ tidied env run ⟨some (id, row), false, steps⟩ mid =
      (revoke env (actorOf run.instId run.inst.appId) id "cessation_of_operation" none mid).2.work := by
  obtain ⟨c, hget, hactive, -⟩ := hissued.new.row
  obtain rfl := Option.some.inj (hissued.row.symm.trans hget)
  refine ⟨hactive, ?_⟩
  unfold tidied
  dsimp only
  rw [if_neg (by simp [hissued.row, hactive])]

/-- a certificate that was not installed, and is taken back -/
theorem settled_undelivered (h : Settled instId d) {id : ℕ} {row : Certificate} {mid : Session Db}
    {steps : List String} (hinst : d.installations.get instId = some inst)
    (hissued : Issued (runOf d instId inst actorName trigger) (begun d instId actorName trigger) id row mid)
    (htaken : ¬ Active (revoke env (actorOf instId inst.appId) id "cessation_of_operation" none mid).2.work id)
    (hrecorded : Recorded env (runOf d instId inst actorName trigger) ⟨some (id, row), false, steps⟩ mid b) :
    Settled instId b := by
  obtain ⟨hclosed, hcertificates, -⟩ := hrecorded
  obtain ⟨hactive, hrevoked⟩ := @tidied_revoke env _ _ _ _ _ hissued steps
  have haside : Aside id mid.work (tidied env (runOf d instId inst actorName trigger) ⟨some (id, row), false, steps⟩ mid) :=
    tidied_aside rfl
  have hpointer : pointer b instId = pointer d instId := by
    rw [closed_pointer hclosed hinst hissued.new.installations]
    unfold pointer
    rw [hinst]
    rfl
  constructor
  · rw [hcertificates, haside.next, hissued.new.next]
    exact Nat.succ_pos _
  · intro i hi
    rcases closed_ofRuns hclosed hissued.new.runs hi with hbefore | hnow
    · have hne := h.fresh hissued hbefore
      have hsame : b.certificates.get i = d.certificates.get i := by
        rw [hcertificates, haside.others i hne]
        exact hissued.new.others i hne
      rw [ended_congr hsame, active_congr hsame, hpointer]
      exact h.certificates i hbefore
    · obtain rfl := Option.some.inj hnow
      refine ⟨?_, Or.inl ?_⟩
      · rw [hissued.new.fresh]
        exact h.next.ne'
      · obtain ⟨c, hget, hst⟩ := haside.row row hissued.row
        refine ⟨c, (congrArg (·.get id) hcertificates).trans hget, Or.inr ?_⟩
        rcases hst with hsame | hrev
        · rw [hrevoked] at hget
          exact absurd ⟨c, hget, hsame.trans hactive⟩ htaken
        · exact hrev

/-- a certificate that was installed while none was live, and is not served -/
theorem settled_unserved (h : Settled instId d) {id : ℕ} {row : Certificate} {mid : Session Db}
    (hinst : d.installations.get instId = some inst)
    (hissued : Issued (runOf d instId inst actorName trigger) (begun d instId actorName trigger) id row mid)
    (hnone : ¬ ∃ prev, inst.certificateId = some prev ∧ Active d prev) (hcertificates : b.certificates = mid.work.certificates)
    (hclosed : Closed (runOf d instId inst actorName trigger) "failed" (some id) (some id) mid.work b) : Settled instId b := by
  have hpointer : pointer b instId = some id := closed_pointer hclosed hinst hissued.new.installations
  constructor
  · rw [hcertificates, hissued.new.next]
    exact Nat.succ_pos _
  · intro i hi
    rcases closed_ofRuns hclosed hissued.new.runs hi with hbefore | hnow
    · have hne := h.fresh hissued hbefore
      have hsame : b.certificates.get i = d.certificates.get i := by
        rw [hcertificates]
        exact hissued.new.others i hne
      obtain ⟨h0, hended | ⟨hactive, hpointed⟩⟩ := h.certificates i hbefore
      · exact ⟨h0, Or.inl ((ended_congr hsame).2 hended)⟩
      · unfold pointer at hpointed
        rw [hinst] at hpointed
        exact absurd ⟨i, hpointed, hactive⟩ hnone
    · obtain rfl := Option.some.inj hnow
      refine ⟨?_, Or.inr ⟨?_, hpointer⟩⟩
      · rw [hissued.new.fresh]
        exact h.next.ne'
      · obtain ⟨c, hget, hst, -⟩ := hissued.new.row
        exact ⟨c, (congrArg (·.get id) hcertificates).trans hget, hst⟩

/-- a run that succeeds -/
theorem settled_succeeded (h : Settled instId d) {id : ℕ} {row : Certificate} {mid : Session Db}
    (hinst : d.installations.get instId = some inst)
    (hissued : Issued (runOf d instId inst actorName trigger) (begun d instId actorName trigger) id row mid)
    (hretired : Retired (runOf d instId inst actorName trigger) id mid.work b)
    (hclosed : Closed (runOf d instId inst actorName trigger) "ok" (some id) (some id) mid.work b) :
    Settled instId b ∧ pointer b instId = some id ∧ Active b id ∧ ∀ other, OfRuns instId b other → other ≠ id → Ended b other := by
  have hpointer : pointer b instId = some id := closed_pointer hclosed hinst hissued.new.installations
  have hactive : Active b id := by
    obtain ⟨c, hget, hst, -⟩ := hissued.new.row
    rcases hretired.others id with hsame | ⟨-, hne⟩
    · exact ⟨c, hsame.trans hget, hst⟩
    · exact absurd rfl hne
  have hothers : ∀ other, OfRuns instId b other → other ≠ id → Ended b other := by
    intro other hother hne
    rcases closed_ofRuns hclosed hissued.new.runs hother with hbefore | hnow
    · have hsame : mid.work.certificates.get other = d.certificates.get other := hissued.new.others other hne
      obtain ⟨h0, ⟨c, hget, hended⟩ | ⟨⟨c, hget, hst⟩, hpointed⟩⟩ := h.certificates other hbefore
      · refine ⟨c, hretired.ended other c (hsame.trans hget) ?_, hended⟩
        rcases hended with heq | heq
        · rw [heq]
          decide
        · rw [heq]
          decide
      · unfold pointer at hpointed
        rw [hinst] at hpointed
        obtain ⟨c', hget', hst'⟩ := hretired.pointed other hpointed h0 hne c (hsame.trans hget) hst
        exact ⟨c', hget', Or.inl hst'⟩
    · exact absurd (Option.some.inj hnow).symm hne
  refine ⟨⟨?_, fun i hi => ?_⟩, hpointer, hactive, hothers⟩
  · rw [hretired.next, hissued.new.next]
    exact Nat.succ_pos _
  · by_cases hne : i = id
    · subst hne
      refine ⟨?_, Or.inr ⟨hactive, hpointer⟩⟩
      rw [hissued.new.fresh]
      exact h.next.ne'
    · refine ⟨?_, Or.inl (hothers i hi hne)⟩
      rcases closed_ofRuns hclosed hissued.new.runs hi with hbefore | hnow
      · exact (h.certificates i hbefore).1
      · exact absurd (Option.some.inj hnow).symm hne

/-- a run that leaves nothing behind keeps the certificates settled -/
theorem provision_settled (h : Settled instId d) (hleft : NothingLeft env w instId actorName trigger d) :
    Settled instId (Tx.transact (provision env w instId actorName trigger) d).2 ∧
      OneLive instId d (.provision env w actorName trigger) := by
  cases hinst : d.installations.get instId with
  | none =>
    obtain ⟨hsame, hraises⟩ := @provision_missing env w instId actorName trigger d hinst
    rw [hsame]
    exact ⟨h, fun runId _ hok => absurd hok (hraises runId)⟩
  | some inst =>
  have hbefore : pointer d instId = inst.certificateId := by
    unfold pointer
    rw [hinst]
    rfl
  -- a run that failed says so on its row, and its row is the one that is returned
  have hfailed : ∀ {issued point mid} {b : Db}, Closed (runOf d instId inst actorName trigger) "failed" issued point mid b →
      mid.provisioningRuns = (begun d instId actorName trigger).work.provisioningRuns → ∀ {row},
      b.provisioningRuns.get d.provisioningRuns.next = some row → row.status ≠ "ok" := by
    intro issued point mid b hclosed hruns row hget hok
    obtain ⟨row', hget', hst, -⟩ := closed_row hclosed hruns
    obtain rfl := Option.some.inj (hget.symm.trans hget')
    rw [hst] at hok
    revert hok
    decide
  rcases @provision_cases env w instId inst actorName trigger d hinst with ⟨e, hraised, hsame⟩ | ⟨hreturns, hleaves⟩
  · refine ⟨?_, fun runId _ hok => nomatch hraised.symm.trans hok⟩
    rcases hsame with hsame | hstill
    · rw [hsame]
      exact h
    · refine h.same hstill.certificates (congrArg (fun t : Table Installation => (t.get instId).bind _) hstill.installations) ?_
      intro id hid
      obtain ⟨r, row, hget, hrow⟩ := hid
      exact begun_ofRuns ⟨r, row, (congrArg (·.get r) hstill.runs).symm.trans hget, hrow⟩
  · have hmine : ∀ {runId}, (Tx.transact (provision env w instId actorName trigger) d).1 = .ok runId →
        d.provisioningRuns.next = runId := fun hok => Except.ok.inj (hreturns.symm.trans hok)
    cases hleaves with
    | unprepared e _ hrecorded =>
      obtain ⟨hclosed, hcertificates, -⟩ := hrecorded
      refine ⟨h.same hcertificates ?_ fun id hid => ?_, fun runId row hok hget hst => ?_⟩
      · exact (closed_pointer hclosed hinst rfl).trans hbefore.symm
      · exact (closed_ofRuns hclosed rfl hid).resolve_right nofun
      · obtain rfl := hmine hok
        exact absurd hst (hfailed hclosed rfl hget)
    | refused p e mid _ hissue hrecorded =>
      obtain ⟨hclosed, hcertificates, -⟩ := hrecorded
      obtain ⟨hcerts, hinsts, hruns⟩ := refused_same hissue
      refine ⟨h.same (hcertificates.trans hcerts) ?_ fun id hid => ?_, fun runId row hok hget hst => ?_⟩
      · exact (closed_pointer hclosed hinst hinsts).trans hbefore.symm
      · exact (closed_ofRuns hclosed hruns hid).resolve_right nofun
      · obtain rfl := hmine hok
        exact absurd hst (hfailed hclosed hruns hget)
    | undelivered p id row mid steps hgets hissued hnot hrecorded =>
      refine ⟨settled_undelivered h hinst hissued (hleft.takenBack inst p id row mid hinst hgets hnot) hrecorded, ?_⟩
      intro runId row hok hget hst
      obtain rfl := hmine hok
      exact absurd hst (hfailed hrecorded.closed hissued.new.runs hget)
    | unserved p id row mid hgets hissued hinstalls hnot hcertificates hclosed =>
      have hnone : ¬ ∃ prev, inst.certificateId = some prev ∧ Active d prev := fun hlive =>
        hnot (hleft.served inst p id row mid hinst hgets hinstalls hlive)
      refine ⟨settled_unserved h hinst hissued hnone hcertificates hclosed, fun runId row hok hget hst => ?_⟩
      obtain rfl := hmine hok
      exact absurd hst (hfailed hclosed hissued.new.runs hget)
    | succeeded p id row mid hgets hissued hinstalls hserved hretired hclosed =>
      obtain ⟨hsettled, hpointer, hactive, hothers⟩ := settled_succeeded h hinst hissued hretired hclosed
      refine ⟨hsettled, fun runId row hok hget _ => ⟨id, ?_, hpointer, hactive, hothers⟩⟩
      obtain rfl := hmine hok
      obtain ⟨row', hget', -, hcert⟩ := closed_row hclosed hissued.new.runs
      obtain rfl := Option.some.inj (hget.symm.trans hget')
      exact hcert

end Step

/-! ## Sequences of runs -/

theorem step_settled {instId : ℕ} (d : Db) (o : Op) (h : Settled instId d) (hC : Condition instId d o) :
    Settled instId (step instId d o) := by
  cases o with
  | provision env w actorName trigger => exact (provision_settled h hC).1
  | elsewhere d' =>
    have hapart : Apart instId d d' := hC
    refine ⟨h.next.trans_le hapart.next, fun id hid => ?_⟩
    have hid := hapart.runs id hid
    obtain ⟨h0, hended | ⟨hactive, hpointed⟩⟩ := h.certificates id hid
    · exact ⟨h0, Or.inl (hapart.ended id hid hended)⟩
    · refine ⟨h0, ?_⟩
      rcases hapart.active id hid hactive with hactive' | hended
      · exact Or.inr ⟨hactive', hapart.pointer.trans hpointed⟩
      · exact Or.inl hended

theorem settled_oneLive {instId : ℕ} (d : Db) (o : Op) (h : Settled instId d) (hC : Condition instId d o) :
    OneLive instId d o := by
  cases o with
  | provision env w actorName trigger => exact (provision_settled h hC).2
  | elsewhere d' => trivial

/-- **One live certificate.** From an installation that was never provisioned, after every run that succeeds its certificate
is the one the installation points to, and every other certificate of its runs is superseded or revoked, if no run left a
certificate behind. -/
theorem one_live_certificate {instId : ℕ} {d : Db} {ops : List Op} (hnext : 0 < d.certificates.next)
    (hnew : ∀ id, ¬ OfRuns instId d id) (hC : Along (step instId) (Condition instId) d ops) :
    Along (step instId) (OneLive instId) d ops :=
  along_of_inv (fun d o => step_settled d o) (fun d o => settled_oneLive d o) ⟨hnext, fun id hid => absurd hid (hnew id)⟩ hC

/-! ### A certificate that was installed and not served -/

section Examples

/-- an installation of the app's certificate on a web server -/
def webInstallation (keyLocation : String) : Installation :=
  ⟨1, 1, "www.corp.example", [], "ec-p256", keyLocation, .obj [], some "www.corp.example:443", true, none, "new", none, 0, none,
    none⟩

def webServer : ProvisioningTarget := ⟨"www", "ssh", 1, .obj [], none, "active", none⟩

/-- the app, its issuing CA, and the installation -/
def installationDb : Db :=
  { Revocation.answeringDb with
    apps := Table.empty.insert (inserted demoState (demoApp "web"))
    certificates := Table.empty
    targets := Table.empty.insert (inserted demoState webServer)
    installations := Table.empty.insert (inserted demoState (webInstallation "central")) }

/-- the target takes what it is given, and serves it or not -/
def takes (serves : Bool) : Drivers where
  checkParams _ params := .ok params
  centralCsr _ := .ok "web-csr"
  deviceCsr _ _ _ := .ok "web-csr"
  install _ _ _ _ := (["installed"], .ok [])
  served _ _ := if serves then .ok () else .error "another certificate"

/-- the runs draw different serials -/
def envOf (serial : ℕ) : Env := { demoEnv with randomSerial := fun n => serial + n }

def runs (serial : ℕ) (serves : Bool) : Op := .provision (envOf serial) (takes serves) "system" "renewal"

def statusesAfter (ops : List Op) : List (CertStatus × Option ℕ) :=
  (run (step 1) installationDb ops).certificates.vals.map fun c => (c.status, c.replacedBy)

/-- the certificate of a run on `d` has a chain -/
def chained (serial : ℕ) (d : Db) : Bool :=
  match d.installations.get 1 with
  | none => true
  | some inst =>
    match prepare (envOf serial) (takes true) (runOf d 1 inst "system" "renewal") with
    | .error _ => true
    | .ok p =>
      match issueNow (envOf serial) (runOf d 1 inst "system" "renewal") p.csrPem (begun d 1 "system" "renewal") with
      | (.ok (_, row), mid) => (chainPem (envOf serial) mid.work row).isOk
      | _ => true

/-- a target that serves what it takes leaves nothing behind -/
theorem takes_nothingLeft {serial : ℕ} {d : Db} (h : chained serial d = true) :
    NothingLeft (envOf serial) (takes true) 1 "system" "renewal" d := by
  constructor
  · intro inst p id row mid _ _ _ _
    unfold Served validate takes
    cases (runOf d 1 inst "system" "renewal").inst.validateEndpoint.filter (· ≠ "") with
    | none => exact ⟨_, rfl⟩
    | some endpoint => exact ⟨_, rfl⟩
  · intro inst p id row mid hinst hgets hnot
    unfold chained at h
    simp only [hinst, hgets.prepared, hgets.issued] at h
    cases hchain : chainPem (envOf serial) mid.work row with
    | error e =>
      rw [hchain] at h
      cases h
    | ok chain => exact absurd ⟨chain, _, _, hchain, rfl⟩ hnot

theorem installationDb_new (id : ℕ) : ¬ OfRuns 1 installationDb id := by
  rintro ⟨r, row, hget, -⟩
  cases hget

/-- two runs that succeed -/
theorem inOrder_oneLive : Along (step 1) (OneLive 1) installationDb [runs 100 true, runs 200 true] := by
  refine one_live_certificate (by decide) installationDb_new ⟨takes_nothingLeft ?_, takes_nothingLeft ?_, trivial⟩
  · decide +kernel
  · decide +kernel

/-- installed; installed but not served; installed -/
def missedOnce : List Op := [runs 100 true, runs 200 false] ++ [runs 300 true]

example : statusesAfter missedOnce = [(.active, none), (.superseded, some 3), (.active, none)] := by decide +kernel

/-- the state before the third run -/
def missedDb : Db := run (step 1) installationDb [runs 100 true, runs 200 false]

/-- what the third run leaves -/
def thirdRun : Except Err ℕ × Db := Tx.transact (provision (envOf 300) (takes true) 1 "system" "renewal") missedDb

/-- The third run succeeds, and the certificate of the first is still active. -/
theorem unserved_left_active :
    ¬ ∀ (d : Db) (ops : List Op), 0 < d.certificates.next → (∀ id, ¬ OfRuns 1 d id) → Along (step 1) (OneLive 1) d ops := by
  intro h
  have hall := h installationDb missedOnce (by decide) installationDb_new
  rw [missedOnce, along_append] at hall
  have hthird : LiveAfter 1 thirdRun := hall.2.1
  have hreturns : thirdRun.1 = .ok 3 := by decide +kernel
  have hrows : ((thirdRun.2.provisioningRuns.get 1).map fun r => (r.installationId, r.certificateId)) = some (1, some 1) ∧
      ((thirdRun.2.provisioningRuns.get 3).map fun r => (r.status, r.certificateId)) = some ("ok", some 3) ∧
      (thirdRun.2.certificates.get 1).map (·.status) = some .active := by decide +kernel
  generalize thirdRun = third at hthird hreturns hrows
  obtain ⟨hfirst, hlast, hactive⟩ := hrows
  obtain ⟨last, hgetLast, hlast⟩ := Option.map_eq_some_iff.1 hlast
  obtain ⟨first, hgetFirst, hfirst⟩ := Option.map_eq_some_iff.1 hfirst
  obtain ⟨hst, hcert⟩ := Prod.mk.inj hlast
  obtain ⟨howner, hissued⟩ := Prod.mk.inj hfirst
  obtain ⟨id, hid, -, -, hothers⟩ := hthird 3 last hreturns hgetLast hst
  obtain rfl : 3 = id := Option.some.inj (hcert.symm.trans hid)
  obtain ⟨c, hget, hended⟩ := hothers 1 ⟨1, first, hgetFirst, howner, hissued⟩ (by decide)
  rw [hget] at hactive
  rcases hended with heq | heq
  · cases (Option.some.inj hactive).symm.trans heq
  · cases (Option.some.inj hactive).symm.trans heq

end Examples

end Certadillo.Provisioning
