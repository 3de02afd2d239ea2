/-
What the ACME handlers write, as moves of orders and authorizations.

- `calmAt_closeOrders`, `calmAt_deactivateAuthz`, `calmAt_failed`: closing takes nothing but rows loaded together.
- `calmAt_passed`: the success of a challenge needs the authorization not to have ended and the order it completes not to
  have gone on (`Owned.InTime`).
- `doesAt_storeFinalize`: finalization needs the order still ready.
- `write_objects`: the registration authority writes neither orders nor authorizations.
-/
import Certadillo.Enrollment.AcmeLifecycle
import Certadillo.Services.Effects

namespace Certadillo.Acme

open Integrity Policy Py Platform Relation
open Tx (CalmAt DoesAt Calm Does)

/-! ## Closing orders -/

section Close

variable {s s' : Session Db}

theorem calmAt_closeAuthz {dead : AuthzStatus} (hdead : dead.Ended) {i : ℕ} {authz : List (ℕ × AcmeAuthz)}
    (hb : ∀ a ∈ authz, Belongs a.1 i s.work) (hnot : NotReady s.work i) : CalmAt Edit s (closeAuthz dead authz) := by
  induction authz generalizing s with
  | nil => exact Tx.calm_pure _ s
  | cons a rest ih =>
    have hsave : CalmAt Edit s (saveAuthz a.1 a.2 { a.2 with status := dead }) :=
      calmAt_endAuthz rfl hdead (hb a List.mem_cons_self) hnot
    refine Tx.calmAt_bind hsave fun _ s' hrun => ih (fun b hmem => ?_) ?_
    · exact hsave.keeps (fun _ _ => edit_belongs) (hb b (List.mem_cons_of_mem _ hmem)) hrun
    · unfold NotReady
      rw [saveAuthz_orders hrun]
      exact hnot

/-- what a request knows of an order it loaded to close -/
structure Closing.Ok (c : Closing) (d : Db) : Prop where
  opened : c.order.2.status ≠ .invalid
  belongs : ∀ a ∈ c.authz, Belongs a.1 c.order.1 d

theorem edit_closing {c : Closing} {d d' : Db} (h : Edit d d') (hc : c.Ok d) : c.Ok d' :=
  ⟨hc.opened, fun a ha => edit_belongs h (hc.belongs a ha)⟩

theorem calmAt_closeOrders (text : AcmeOrder → Option String) {dead : AuthzStatus} (hdead : dead.Ended)
    {orders : List Closing} (h : ∀ c ∈ orders, c.Ok s.work) : CalmAt Edit s (closeOrders text dead orders) := by
  induction orders generalizing s with
  | nil => exact Tx.calm_pure _ s
  | cons c rest ih =>
    have hc := h c List.mem_cons_self
    have hsave : CalmAt Edit s
        (saveOrder c.order.1 c.order.2 { c.order.2 with status := .invalid, error := text c.order.2 }) :=
      calmAt_closeOrder (Or.inl rfl)
    refine Tx.calmAt_bind hsave fun _ s1 hrun => ?_
    have hauthz : CalmAt Edit s1 (closeAuthz dead c.authz) :=
      calmAt_closeAuthz hdead (fun a ha => hsave.keeps (fun _ _ => edit_belongs) (hc.belongs a ha) hrun)
        (saveOrder_notReady hrun (Or.inl ⟨rfl, hc.opened⟩))
    refine Tx.calmAt_bind hauthz fun _ s2 hrun2 => ?_
    refine Tx.calmAt_bind (ih fun c' hmem => ?_) fun n s3 _ => Tx.calm_pure _ s3
    have hfirst := hsave.keeps (fun _ _ => edit_closing) (h c' (List.mem_cons_of_mem _ hmem)) hrun
    exact hauthz.keeps (fun _ _ => edit_closing) hfirst hrun2

end Close

/-! ## Handlers -/

section Handlers

variable {env : Env} {site : Site} {draws : Draws} {s : Session Db}

theorem calm_record {actor action target : String} {details : List (String × Json)} :
    Calm Edit (record env actor action target details) := Tx.calm_modify fun _ => .frame _ _ rfl rfl

theorem calm_newNonce : Calm Edit (newNonce env draws) := by
  unfold newNonce addPlain
  refine Tx.calm_bind (Tx.calm_get_bind fun d => ?_) fun _ => Tx.calm_pure _
  split
  · exact Tx.calm_throw _
  · exact Tx.calm_bind (Tx.calm_modify fun d => .frame _ _ rfl rfl) fun _ => Tx.calm_pure _

theorem does_resp (reply : Reply) : Does Edit (resp env draws reply) := by
  unfold resp
  exact Tx.does_bind calm_newNonce.does fun _ => Tx.does_bind Tx.does_commit fun _ => (Tx.calm_pure _).does

/-- a problem writes a nonce -/
theorem doesAt_answer {handler : M Reply} (h : DoesAt Edit s handler) : DoesAt Edit s (answer env draws handler) := by
  unfold answer
  refine Tx.doesAt_bind h fun result s' _ => ?_
  split
  · exact (Tx.calm_pure _).does s'
  · refine Tx.does_bind Tx.does_rollback (fun _ => ?_) s'
    exact Tx.does_bind calm_newNonce.does fun _ => Tx.does_bind Tx.does_commit fun _ => (Tx.calm_pure _).does
  · exact (Tx.calm_throw _).does s'

theorem does_storeNewAccount (l : NewAccount) : Does Edit (storeNewAccount env draws l) := by
  cases l with
  | existing id => exact does_resp _
  | create cred account =>
    unfold storeNewAccount addPlain
    have hsave : Calm Edit (saveEab cred.1 cred.2 { cred.2 with used := true }) := fun s =>
      calmAt_saveRow (.frame _ _ rfl rfl)
    refine Tx.does_bind hsave.does fun _ => Tx.does_bind ?_ fun id => ?_
    · refine Tx.does_get_bind fun d => ?_
      split
      · exact (Tx.calm_throw _).does
      · exact Tx.does_bind (Tx.calm_modify fun _ => .frame _ _ rfl rfl).does fun _ => (Tx.calm_pure _).does
    · exact Tx.does_bind calm_record.does fun _ => does_resp _

theorem calm_saveAccount (id : ℕ) (loaded new : AcmeAccount) : Calm Edit (saveAccount id loaded new) :=
  fun _ => calmAt_saveRow (.frame _ _ rfl rfl)

/-- what a request knows of the orders it closes -/
def AccountUpdate.Ok (d : Db) : AccountUpdate → Prop
  | .deactivate orders => ∀ c ∈ orders, c.Ok d
  | _ => True

theorem doesAt_storeAccount {l : (ℕ × AcmeAccount) × AccountUpdate} (h : l.2.Ok s.work) :
    DoesAt Edit s (storeAccount env draws l) := by
  obtain ⟨acct, update⟩ := l
  unfold storeAccount updateAccount
  refine Tx.doesAt_bind ?_ fun _ s' _ => does_resp _ s'
  cases update with
  | deactivate orders =>
    unfold deactivateAccount
    have hsave := calm_saveAccount acct.1 acct.2 { acct.2 with status := .deactivated } s
    refine Tx.doesAt_bind hsave.does fun _ s1 hrun => ?_
    have hclose : CalmAt Edit s1 (closeOrders (fun _ => some "account deactivated") .deactivated orders) :=
      calmAt_closeOrders _ (by decide) fun c hmem => hsave.keeps (fun _ _ => edit_closing) (h c hmem) hrun
    exact Tx.doesAt_bind hclose.does fun _ s2 _ => calm_record.does s2
  | contact contact =>
    unfold updateContact
    exact Tx.doesAt_bind (calm_saveAccount _ _ _ s).does fun _ s1 _ => calm_record.does s1
  | nothing => exact (Tx.calm_pure _).does s

/-- what a request knows of an authorization and its order -/
structure Owned.Ok (l : Owned) (d : Db) : Prop where
  belongs : Belongs l.authz.1 l.order.1 d
  past : Past l.order.2.status → OrderIs Past l.order.1 d

theorem edit_owned {l : Owned} {d d' : Db} (h : Edit d d') (hl : l.Ok d) : l.Ok d' :=
  ⟨edit_belongs h hl.belongs, fun hpast => edit_past h (hl.past hpast)⟩

theorem calmAt_deactivateAuthz {l : Owned} (h : l.Ok s.work) : CalmAt Edit s (deactivateAuthz env l) := by
  have hgaveUp : ((gaveUp l.order.2).status = .invalid ∧ l.order.2.status ≠ .invalid) ∨
      ((gaveUp l.order.2).status = l.order.2.status ∧ OrderIs Past l.order.1 s.work) := by
    unfold gaveUp
    split
    · next hopen =>
      refine Or.inl ⟨rfl, fun heq => ?_⟩
      simp [heq] at hopen
    · next hpast => exact Or.inr ⟨rfl, h.past (by simpa [Past] using hpast)⟩
  unfold deactivateAuthz
  have hsave : CalmAt Edit s (saveOrder l.order.1 l.order.2 (gaveUp l.order.2)) :=
    calmAt_closeOrder (hgaveUp.imp And.left And.left)
  refine Tx.calmAt_bind hsave fun _ s1 hrun => ?_
  have hend : CalmAt Edit s1 (saveAuthz l.authz.1 l.authz.2 { l.authz.2 with status := .deactivated }) :=
    calmAt_endAuthz rfl (Or.inr (Or.inl rfl)) (hsave.keeps (fun _ _ => edit_belongs) h.belongs hrun)
      (saveOrder_notReady hrun hgaveUp)
  exact Tx.calmAt_bind hend fun _ s2 _ => calm_record s2

theorem doesAt_storeGetAuthz {l : Owned × Bool} (h : l.1.Ok s.work) : DoesAt Edit s (storeGetAuthz env draws l) := by
  unfold storeGetAuthz updateAuthz
  refine Tx.doesAt_bind ?_ fun _ s' _ => does_resp _ s'
  split
  · exact (calmAt_deactivateAuthz h).does
  · exact (Tx.calm_pure _).does s

theorem doesAt_expireOrder (o : ℕ × AcmeOrder) : DoesAt Edit s (expireOrder o) := by
  unfold expireOrder
  refine Tx.doesAt_bind (calmAt_closeOrder (Or.inl rfl)).does fun _ s1 _ => ?_
  exact Tx.does_bind Tx.does_commit (fun _ => (Tx.calm_throw _).does) s1

theorem doesAt_housekeeping {orders : List Closing} (h : ∀ c ∈ orders, c.Ok s.work) :
    DoesAt Edit s (housekeeping env orders) := by
  unfold housekeeping
  refine Tx.doesAt_bind (calmAt_closeOrders _ (by decide) h).does fun _ s1 _ => ?_
  have hpurge : Calm Edit (Tx.modify (purge env) : M Unit) := Tx.calm_modify fun _ => .drop _ _ _ _
  exact Tx.does_bind hpurge.does (fun _ => Tx.does_commit) s1

/-! ### Challenges -/

/-- the other authorizations of the order are valid and it was loaded as pending, so this challenge would make it ready -/
def Owned.Completes (l : Owned) (d : Db) : Prop :=
  l.order.2.status = .pending ∧
    ∀ j a, d.acmeAuthz.get j = some a → a.orderId = l.order.1 → j ≠ l.authz.1 → a.status = .valid

/-- The validation's success still applies: the authorization has not ended since it was loaded, nor has the order it
completes gone on. -/
def Owned.InTime (l : Owned) (d : Db) : Prop :=
  (∀ a, d.acmeAuthz.get l.authz.1 = some a → ¬ a.status.Ended) ∧
    (l.Completes d → ∀ o, d.acmeOrders.get l.order.1 = some o → ¬ Past o.status)

theorem allValid_iff {d : Db} {i j : ℕ} {a : AcmeAuthz} :
    allValid d i j a = true ↔
      ∀ k b, d.acmeAuthz.get k = some b → b.orderId = i → (if k = j then a else b).status = .valid := by
  unfold allValid
  rw [List.all_eq_true]
  constructor
  · intro h k b hget hown
    simpa using h (k, b) (Table.mem_all.2 ⟨hget, by simpa using hown⟩)
  · intro h p hp
    obtain ⟨hget, hown⟩ := Table.mem_all.1 hp
    simpa using h p.1 p.2 hget (by simpa using hown)

theorem calmAt_failed {ctype why : String} {l : Owned} (hl : l.Ok s.work) :
    CalmAt Edit s (recordValidation env ctype (some why) l) := by
  have hclosed : (validatedOrder (some why) l.authz.2 l.order.2).status = .invalid := rfl
  have hsave : CalmAt Edit s (saveOrder l.order.1 l.order.2 (validatedOrder (some why) l.authz.2 l.order.2)) :=
    calmAt_closeOrder (Or.inl hclosed)
  unfold recordValidation
  refine Tx.calmAt_bind hsave fun _ s1 hrun => ?_
  have hnot : NotReady s1.work l.order.1 := by
    by_cases hopen : l.order.2.status = .invalid
    · have hpast : Past l.order.2.status := by
        rw [hopen]
        exact ⟨by decide, by decide⟩
      exact saveOrder_notReady hrun (Or.inr ⟨hclosed.trans hopen.symm, hl.past hpast⟩)
    · exact saveOrder_notReady hrun (Or.inl ⟨hclosed, hopen⟩)
  have hend : CalmAt Edit s1 (saveAuthz l.authz.1 l.authz.2 (validated env ctype (some why) l.authz.2)) :=
    calmAt_endAuthz rfl (Or.inl rfl) (hsave.keeps (fun _ _ => edit_belongs) hl.belongs hrun) hnot
  refine Tx.calmAt_bind hend fun _ s2 _ => Tx.calmAt_get_bind ?_
  rw [if_neg (by simp [hclosed])]
  exact Tx.calm_pure _ s2

theorem calmAt_passed {ctype : String} {l : Owned} (hopen : l.open = true) (htime : l.InTime s.work) :
    CalmAt Edit s (recordValidation env ctype none l) := by
  have hpending : l.authz.2.status = .pending := by
    unfold Owned.open at hopen
    simp only [Bool.and_eq_true, decide_eq_true_eq] at hopen
    exact hopen.2
  have hloaded : l.authz.2.status ≠ .valid := by
    rw [hpending]
    decide
  unfold recordValidation
  -- the order is as loaded, so its first UPDATE is none
  have hsame : saveOrder l.order.1 l.order.2 (validatedOrder none l.authz.2 l.order.2) s = (.ok (), s) := by
    unfold saveOrder saveRow validatedOrder
    rw [if_pos rfl]
    rfl
  refine Tx.calmAt_bind (by rw [CalmAt, hsame]; exact ⟨rfl, .refl⟩) fun _ s1 hrun => ?_
  obtain rfl := (Prod.mk.inj (hsame.symm.trans hrun)).2
  have hpass : CalmAt Edit s (saveAuthz l.authz.1 l.authz.2 (validated env ctype none l.authz.2)) :=
    calmAt_passAuthz rfl rfl hloaded htime.1
  refine Tx.calmAt_bind hpass fun _ s2 hrun2 => Tx.calmAt_get_bind ?_
  split
  · next hready =>
    simp only [Bool.and_eq_true, decide_eq_true_eq, allValid_iff] at hready
    obtain ⟨hall, hwait⟩ := hready
    have hwait : l.order.2.status = .pending := hwait
    have horders := saveAuthz_orders hrun2
    have hcompletes : l.Completes s.work := by
      refine ⟨hwait, fun j a hget hown hj => ?_⟩
      have hvalid := hall j a ((saveAuthz_other hrun2 hj).trans hget) hown
      rwa [if_neg hj] at hvalid
    have hvalid : AllAuthzValid s2.work l.order.1 := by
      intro j a hget hown
      by_cases hj : j = l.authz.1
      · subst hj
        obtain ⟨b, -, hst⟩ := saveAuthz_get hrun2 hget
        rw [hst, written, if_neg]
        · rfl
        · exact fun heq => hloaded heq.symm
      · have hvalid := hall j a hget hown
        rwa [if_neg hj] at hvalid
    have hnew : ∀ st : OrderStatus, written l.order.2.status .ready st = .ready := by
      intro st
      rw [written, hwait, if_neg (by decide)]
    apply calmAt_saveOrder
    · intro o hget
      have hnot := htime.2 hcompletes o (horders ▸ hget)
      have hmove : OrderMove o.status .ready := by
        cases hst : o.status with
        | pending => exact .ready
        | ready => exact .stay _
        | processing => exact absurd (by rw [hst]; exact ⟨by decide, by decide⟩) hnot
        | valid => exact absurd (by rw [hst]; exact ⟨by decide, by decide⟩) hnot
        | invalid => exact absurd (by rw [hst]; exact ⟨by decide, by decide⟩) hnot
      exact (hnew o.status).symm ▸ hmove
    · intro o _ _
      exact Or.inr hvalid
  · exact Tx.calm_pure _ s2

theorem doesAt_storeChallenge {ctype : String} {why : Option String} {l : Owned} (hl : l.Ok s.work)
    (htime : l.open = true → why = none → l.InTime s.work) :
    DoesAt Edit s (storeChallenge env draws ctype why l) := by
  unfold storeChallenge updateChallenge
  refine Tx.doesAt_bind ?_ fun _ s' _ => does_resp _ s'
  split
  · next hopen =>
    cases why with
    | none => exact (calmAt_passed hopen (htime hopen rfl)).does
    | some why => exact (calmAt_failed hl).does
  · exact (Tx.calm_pure _).does s

/-! ### New orders -/

/-- an order being created: it has its row, and only valid authorizations if it is to be ready -/
structure Fresh (i : ℕ) (status : AuthzStatus) (d : Db) : Prop where
  below : i < d.acmeOrders.next
  pending : ∀ o, d.acmeOrders.get i = some o → o.status = .pending
  authz : ∀ j a, d.acmeAuthz.get j = some a → a.orderId = i → a.status = status

theorem Fresh.notReady {i : ℕ} {status : AuthzStatus} {d : Db} (h : Fresh i status d) : NotReady d i := by
  intro o hget
  rw [h.pending o hget]
  decide

/-- each authorization is added to an order that is not ready yet -/
theorem addAuthz_fresh {i : ℕ} {status : AuthzStatus} {ctype : Option String} {k : ℕ} {names : List String}
    (h : Fresh i status s.work) :
    CalmAt Edit s (addAuthz draws i status ctype k names) ∧
      ∀ r s', addAuthz draws i status ctype k names s = (r, s') → Fresh i status s'.work := by
  induction names generalizing s k with
  | nil =>
    refine ⟨Tx.calm_pure _ s, fun r s' hrun => ?_⟩
    cases hrun
    exact h
  | cons n rest ih =>
    unfold addAuthz addPlain noClash
    extract_lets identifier
    set a : AcmeAuthz := ⟨i, identifier, status, draws.token k, status, none, isWildcard n, ctype, none⟩
    have hadd : Edit s.work { s.work with acmeAuthz := s.work.acmeAuthz.insert a } := .addAuthz _ a h.below h.notReady
    have hfresh : Fresh i status { s.work with acmeAuthz := s.work.acmeAuthz.insert a } := by
      refine ⟨h.below, h.pending, fun j b hget hown => ?_⟩
      dsimp only at hget
      rw [Table.get_insert] at hget
      split at hget
      · cases hget
        rfl
      · exact h.authz j b hget hown
    have hrest := @ih ⟨s.committed, { s.work with acmeAuthz := s.work.acmeAuthz.insert a }⟩ (k + 1) hfresh
    exact ⟨⟨hrest.1.1, .head hadd hrest.1.2⟩, hrest.2⟩

theorem calmAt_addOrder (hs : Sound s.work) (acctId : ℕ) (names : List String) (replaces : Option String)
    (replacesCertId : Option ℕ) : CalmAt Edit s (addOrder env site draws acctId names replaces replacesCertId) := by
  set o : AcmeOrder := ⟨acctId, names, .pending, env.now + 8 * 3600, none, none, replaces, replacesCertId⟩ with ho
  have hadd : Edit s.work { s.work with acmeOrders := s.work.acmeOrders.insert o } := .addOrder _ o rfl
  have hfresh : ∀ status, Fresh s.work.acmeOrders.next status { s.work with acmeOrders := s.work.acmeOrders.insert o } := by
    intro status
    refine ⟨Nat.lt_succ_self _, fun o' hget => ?_, fun j a hget hown => ?_⟩
    · dsimp only at hget
      rw [Table.get_insert_next] at hget
      cases hget
      rfl
    · -- no authorization names an order that is not there yet
      have hlt := hs.owned j a hget
      omega
  have hinsert : CalmAt Edit s (addPlain Col.acmeOrders noClash o) := by
    unfold addPlain noClash
    refine Tx.calmAt_get_bind (Tx.calmAt_bind (Tx.calmAt_modify hadd) fun _ s1 _ => Tx.calm_pure _ s1)
  unfold addOrder
  refine Tx.calmAt_bind hinsert fun id s1 hrun => ?_
  have hinserted : addPlain Col.acmeOrders noClash o s = (.ok s.work.acmeOrders.next,
      ⟨s.committed, { s.work with acmeOrders := s.work.acmeOrders.insert o }⟩) := rfl
  obtain ⟨hid, rfl⟩ := Prod.mk.inj (hinserted.symm.trans hrun)
  obtain rfl := Except.ok.inj hid
  split
  · obtain ⟨hcalm, hdone⟩ := @addAuthz_fresh draws ⟨s.committed, _⟩ _ _ (some "ra-scope") 0 names (hfresh .valid)
    refine Tx.calmAt_bind hcalm fun _ s2 hrun2 => ?_
    have hdone := hdone _ _ hrun2
    refine Tx.calmAt_bind ?_ fun _ s3 _ => Tx.calm_pure _ s3
    refine Tx.calmAt_modify (.setOrder _ _ (fun o => { o with status := .ready }) (fun o' hget => ?_) fun _ _ _ => ?_)
    · rw [hdone.pending o' hget]
      exact .ready
    · exact Or.inr hdone.authz
  · obtain ⟨hcalm, -⟩ := @addAuthz_fresh draws ⟨s.committed, _⟩ _ _ none 0 names (hfresh .pending)
    exact Tx.calmAt_bind hcalm fun _ s2 _ => Tx.calm_pure _ s2

theorem doesAt_storeNewOrder (hs : Sound s.work) (l : NewOrder) : DoesAt Edit s (storeNewOrder env site draws l) := by
  cases l with
  | create acct names replaces replacesCertId =>
    exact Tx.doesAt_bind (calmAt_addOrder hs _ _ _ _).does fun _ s1 _ => does_resp _ s1
  | refuse who app violations =>
    refine Tx.doesAt_bind (calm_record s).does fun _ s1 _ => ?_
    exact Tx.does_bind Tx.does_commit (fun _ => (Tx.calm_throw _).does) s1

/-! ### Finalization -/

/-- the registration authority writes neither orders nor authorizations -/
theorem write_objects {g : Grant} {a b : Db} (h : Write env g a b) :
    b.acmeOrders = a.acmeOrders ∧ b.acmeAuthz = a.acmeAuthz := by
  cases h with
  | frame _ _ _ _ _ front =>
    exact ⟨congrArg FrontEnd.acmeOrders front, congrArg FrontEnd.acmeAuthz front⟩
  | _ => exact ⟨rfl, rfl⟩

theorem does_request (actor : Actor) (appId : ℕ) (r : CertRequest) :
    Does (Write env .full) (requestCertificate env actor appId r) :=
  does_requestCertificate (fun _ _ => trivial) (fun _ _ _ => trivial) actor appId

theorem doesAt_storeFinalize {l : Finalizing} (hl : l.order.2.status = .ready)
    (hcommitted : OrderIs (· = .ready) l.order.1 s.committed) (hwork : OrderIs (· = .ready) l.order.1 s.work) :
    DoesAt Edit s (storeFinalize env draws l) := by
  have htake : ∀ st : OrderStatus, written l.order.2.status (processing l.order.2).status st = .processing := by
    intro st
    have hne : (processing l.order.2).status ≠ l.order.2.status := by simp [processing, hl]
    rw [written, if_neg hne]
    rfl
  have hsave : CalmAt Edit s (saveOrder l.order.1 l.order.2 (processing l.order.2)) := by
    apply calmAt_saveOrder
    · intro o hget
      rw [htake, hwork.2 o hget]
      exact .take
    · intro o _ hst
      rw [htake] at hst
      cases hst
  unfold storeFinalize
  refine Tx.doesAt_bind hsave.does fun _ s1 hrun => Tx.doesAt_get_bind ?_
  have hrequest : Does (Write env .full) (Tx.attempt (requestCertificate env l.who l.appId
      ⟨some l.csrPem, none, none, none, "acme", previousOf s1.work l.order.2, false, none⟩)) :=
    Tx.does_attempt (does_request _ _ _)
  refine Tx.doesAt_bind (Tx.DoesAt.mono (fun _ _ hw => ?_) (hrequest s1)) fun result s2 hrun2 => ?_
  · exact .frame _ _ (write_objects hw).1 (write_objects hw).2
  -- whatever the authority commits, the order is still ready or processing
  have hopen : ∀ o, s2.work.acmeOrders.get l.order.1 = some o → o.status = .ready ∨ o.status = .processing := by
    have hkeep := hrequest s1
      (fun d => ∀ o, d.acmeOrders.get l.order.1 = some o → o.status = .ready ∨ o.status = .processing)
      (fun _ _ hw h => (write_objects hw).1 ▸ h)
      (fun o hget => Or.inl (hcommitted.2 o (by rwa [← hsave.1, hrun])))
      (fun o hget => ?_)
    · rw [hrun2] at hkeep
      exact hkeep.2
    · obtain ⟨o', -, hst⟩ := saveOrder_get hrun hget
      exact Or.inr (hst.trans (htake _))
  split
  · next id =>
    have hissue : CalmAt Edit s2 (saveOrder l.order.1 (processing l.order.2) (issued l.order.2 id)) := by
      apply calmAt_saveOrder
      · intro o hget
        exact .issue _ (hopen o hget)
      · intro o _ hst
        cases hst
    refine Tx.doesAt_bind hissue.does fun _ s3 _ => ?_
    exact Tx.does_bind (does_resp _) (fun _ => (Tx.calm_pure _).does) s3
  · exact (Tx.calm_throw _).does s2
  · exact (Tx.calm_pure _).does s2
  · exact (Tx.calm_throw _).does s2

theorem doesAt_rejectFinalize (l : Finalizing) (text : String) : DoesAt Edit s (rejectFinalize l text) := by
  unfold rejectFinalize
  refine Tx.doesAt_bind (calmAt_closeOrder (Or.inl rfl)).does fun _ s1 _ => ?_
  exact Tx.does_bind Tx.does_commit (fun _ => (Tx.calm_throw _).does) s1

theorem doesAt_finalizeOrder {l : Finalizing} (hl : l.order.2.status = .ready)
    (hcommitted : OrderIs (· = .ready) l.order.1 s.committed) (hwork : OrderIs (· = .ready) l.order.1 s.work) :
    DoesAt Edit s (finalizeOrder env draws l) := by
  unfold finalizeOrder
  refine Tx.doesAt_bind (doesAt_storeFinalize hl hcommitted hwork) fun result s1 _ => ?_
  cases result with
  | ok reply => exact (Tx.calm_pure _).does s1
  | error text => exact doesAt_rejectFinalize l text

end Handlers

end Certadillo.Acme
