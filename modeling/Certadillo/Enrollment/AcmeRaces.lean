/-
Concurrent ACME requests and housekeeping, under READ COMMITTED.

A request first reads and checks its rows (`load`); for a challenge the network validation follows, whose result is any
(`store`'s `why`). Then it writes and commits, over whatever others have committed by then. A request the policy rejects
commits its order as processing and then as invalid, which are two commits.

- `load_knows`: what a request knows of the rows it loaded; `edit_knows`: others do not change that.
- `leaves_alone`: with nothing in between the two parts are the handler.
- `store_edits`: what a store does to orders and authorizations, if it is in time (`InTime`).
- `issuance_safe`: in every run whose stores are in time, a certificate is issued only while the account and every
  authorization of the order are valid, and what is deactivated, invalid or expired stays so.
- `deactivated_becomes_valid`: the success of a challenge is written over the deactivation of its authorization.
-/
import Certadillo.Enrollment.AcmeEffects
import Certadillo.Lib.Threads

namespace Certadillo.Acme

open Integrity Policy Py Platform Machine Relation
open Tx (DoesAt)

/-! ## Model -/

/-- a request, or housekeeping, between reading and writing -/
inductive Task where
  | newAccount (l : NewAccount)
  | account (l : (ℕ × AcmeAccount) × AccountUpdate)
  | newOrder (l : NewOrder)
  | authz (l : Owned × Bool)
  | challenge (ctype : String) (l : Owned)
  | finalize (l : Finalizing)
  | reject (l : Finalizing) (text : String)
  | expire (o : ℕ × AcmeOrder)
  | clean (orders : List Closing)

inductive Act where
  | load (env : Env) (site : Site) (req : Request) (call : Call)
  | loadExpired (env : Env)
  | store (env : Env) (site : Site) (draws : Draws) (why : Option String)
  | abort

/-- the reading part of a handler -/
def Call.load (env : Env) (site : Site) (d : Db) (req : Request) : Call → Except Err Task
  | .newAccount => (mayNewAccount site d req).map .newAccount
  | .account acctId => (mayAccount d req acctId).map .account
  | .newOrder => (mayNewOrder env site d req).map .newOrder
  | .getAuthz authzId => (mayGetAuthz d req authzId).map .authz
  | .challenge authzId ctype => do
    let l ← mayChallenge d req authzId ctype
    pure (if isExpired env l.order.2 then .expire l.order else .challenge ctype l)
  | .finalize orderId => do
    let (_, acct) ← accountOf d req
    let o ← ownOrder d acct orderId
    if isExpired env o.2 then pure (.expire o) else (mayFinalize env d req acct o).map .finalize

/-- the database after the writing part of a handler -/
def served (env : Env) (draws : Draws) (d : Db) (handler : M Reply) : Db :=
  (Tx.transact (answer env draws handler) d).2

/-- the same, for each request -/
def Task.leaves (env : Env) (site : Site) (draws : Draws) (why : Option String) (d : Db) : Task → Db
  | .newAccount l => served env draws d (storeNewAccount env draws l)
  | .account l => served env draws d (storeAccount env draws l)
  | .newOrder l => served env draws d (storeNewOrder env site draws l)
  | .authz l => served env draws d (storeGetAuthz env draws l)
  | .challenge ctype l => served env draws d (storeChallenge env draws ctype why l)
  | .finalize l => served env draws d (finalizeOrder env draws l)
  | .reject l text => served env draws d (rejectFinalize l text)
  | .expire o => served env draws d (expireOrder o)
  | .clean orders => (Tx.transact (housekeeping env orders) d).2

/-- what is committed, and what is left to do: a request that was rejected has its second commit to come -/
def Task.store (env : Env) (site : Site) (draws : Draws) (why : Option String) (d : Db) (t : Task) : Db × Option Task :=
  match t with
  | .finalize l =>
    match storeFinalize env draws l ⟨d, d⟩ with
    | (.ok (.error text), s) => (s.committed, some (.reject l text))
    | _ => (t.leaves env site draws why d, none)
  | _ => (t.leaves env site draws why d, none)

def act (_ : ℕ) (d : Db) (l : Option Task) : Act → Db × Option Task
  | .load env site req call =>
    match call.load env site d req with
    | .ok t => (d, some t)
    | .error _ => (d, none)
  | .loadExpired env => (d, some (.clean (expiredOrders env d)))
  | .store env site draws why =>
    match l with
    | none => (d, none)
    | some t => t.store env site draws why d
  | .abort => (d, none)

abbrev St := Threads.St Db (Option Task)

abbrev step : St → ℕ × Act → St := Threads.step act

/-- no orders, and no request under way -/
def start (d : Db) : St := ⟨{ d with acmeOrders := .empty, acmeAuthz := .empty }, fun _ => none⟩

/-! ## Properties -/

/-- the step issues a certificate for an order -/
def Issues (s : St) (o : ℕ × Act) (l : Finalizing) : Prop :=
  s.loc o.1 = some (.finalize l) ∧ ∃ env site draws why reply s', o.2 = .store env site draws why ∧
    storeFinalize env draws l ⟨s.shared, s.shared⟩ = (.ok (.ok reply), s')

/-- a certificate is issued for an order only if its account and every authorization of it are valid -/
def SafeIssue (s : St) (o : ℕ × Act) : Prop :=
  ∀ l, Issues s o l → ∃ ord acct, s.shared.acmeOrders.get l.order.1 = some ord ∧
    s.shared.acmeAccounts.get ord.accountId = some acct ∧ acct.status = .valid ∧ AllAuthzValid s.shared l.order.1

/-- an order committed as invalid, or an authorization committed as deactivated, invalid or expired, is never valid, ready
or processing later in the run -/
def NeverReopened (s : St) (ops : List (ℕ × Act)) : Prop :=
  ∀ before mid after, ops = before ++ mid ++ after →
    (∀ i o o', (run step s before).shared.acmeOrders.get i = some o → o.status = .invalid →
      (run step s (before ++ mid)).shared.acmeOrders.get i = some o' →
        o'.status ≠ .valid ∧ o'.status ≠ .ready ∧ o'.status ≠ .processing) ∧
    ∀ j a a', (run step s before).shared.acmeAuthz.get j = some a → a.status.Ended →
      (run step s (before ++ mid)).shared.acmeAuthz.get j = some a' → a'.status ≠ .valid

/-- the order is still ready and its account still valid -/
def Finalizing.InTime (l : Finalizing) (d : Db) : Prop :=
  (d.acmeOrders.get l.order.1).map (·.status) = some .ready ∧
    ((d.acmeOrders.get l.order.1).bind fun ord => d.acmeAccounts.get ord.accountId).map (·.status) = some .valid

/-- what a challenge or a finalization was allowed by is still so when it writes -/
def InTime (s : St) (o : ℕ × Act) : Prop :=
  match o.2, s.loc o.1 with
  | .store _ _ _ why, some (.challenge _ l) => l.open = true → why = none → l.InTime s.shared
  | .store .., some (.finalize l) => l.InTime s.shared
  | _, _ => True

instance (l : Owned) (d : Db) : Decidable (l.InTime d) := by
  unfold Owned.InTime Owned.Completes Past
  infer_instance

instance (l : Finalizing) (d : Db) : Decidable (l.InTime d) := by
  unfold Finalizing.InTime
  infer_instance

instance (s : St) (o : ℕ × Act) : Decidable (InTime s o) := by
  unfold InTime
  split
  · infer_instance
  · infer_instance
  · infer_instance

/-! ## What a request knows -/

/-- what a request knows of the rows it loaded, whatever others have committed since -/
def Task.Knows (t : Task) (d : Db) : Prop :=
  match t with
  | .account l => l.2.Ok d
  | .authz l => l.1.Ok d
  | .challenge _ l => l.Ok d
  | .finalize l => l.order.2.status = .ready
  | .clean orders => ∀ c ∈ orders, c.Ok d
  | _ => True

section Knows

variable {d d' : Db} {env : Env} {site : Site} {req : Request}

theorem edit_knows {t : Task} (h : Edit d d') (ht : t.Knows d) : t.Knows d' := by
  cases t with
  | account l =>
    obtain ⟨acct, update⟩ := l
    cases update with
    | deactivate orders => exact fun c hmem => edit_closing h (ht c hmem)
    | contact contact => trivial
    | nothing => trivial
  | authz l => exact edit_owned h ht
  | challenge ctype l => exact edit_owned h ht
  | finalize l => exact ht
  | clean orders => exact fun c hmem => edit_closing h (ht c hmem)
  | newAccount l => trivial
  | newOrder l => trivial
  | reject l text => trivial
  | expire o => trivial

theorem belongs_of_get {j : ℕ} {a : AcmeAuthz} (h : d.acmeAuthz.get j = some a) : Belongs j a.orderId d := by
  refine ⟨Table.get_lt h, fun b hb => ?_⟩
  rw [h] at hb
  cases hb
  rfl

/-- orders loaded while open, each with authorizations of its own -/
theorem closing_ok {o : ℕ × AcmeOrder} {p : AcmeAuthz → Bool} (hopen : o.2.status ≠ .invalid)
    (hp : ∀ a, p a = true → a.orderId = o.1) : Closing.Ok ⟨o, d.acmeAuthz.all p⟩ d := by
  refine ⟨hopen, fun a hmem => ?_⟩
  obtain ⟨hget, hown⟩ := Table.mem_all.1 hmem
  exact hp a.2 hown ▸ belongs_of_get hget

theorem openOrders_ok (acctId : ℕ) : ∀ c ∈ openOrders d acctId, c.Ok d := by
  intro c hmem
  obtain ⟨o, ho, rfl⟩ := List.mem_map.1 hmem
  obtain ⟨-, hopen⟩ := Table.mem_all.1 ho
  refine closing_ok (fun heq => ?_) fun a ha => ?_
  · simp [heq] at hopen
  · simp only [Bool.and_eq_true, decide_eq_true_eq] at ha
    exact ha.1

theorem expiredOrders_ok : ∀ c ∈ expiredOrders env d, c.Ok d := by
  intro c hmem
  obtain ⟨o, ho, rfl⟩ := List.mem_map.1 hmem
  obtain ⟨-, hopen⟩ := Table.mem_all.1 ho
  refine closing_ok (fun heq => ?_) fun a ha => ?_
  · simp [heq] at hopen
  · simp only [Bool.and_eq_true, decide_eq_true_eq] at ha
    exact ha.1

theorem ownOrder_ok {acct : ℕ × AcmeAccount} {orderId : ℕ} {o : ℕ × AcmeOrder} (h : ownOrder d acct orderId = .ok o) :
    o.1 = orderId ∧ d.acmeOrders.get o.1 = some o.2 := by
  unfold ownOrder at h
  split at h
  · next ord hget =>
    split at h
    · cases h
    · cases h
      exact ⟨rfl, hget⟩
  · cases h

/-- an authorization and its order, just loaded -/
theorem owned_ok {acct : ℕ × AcmeAccount} {authzId : ℕ} {a : AcmeAuthz} {o : ℕ × AcmeOrder}
    (hget : d.acmeAuthz.get authzId = some a) (ho : ownOrder d acct a.orderId = .ok o) :
    Owned.Ok ⟨acct, (authzId, a), o⟩ d := by
  obtain ⟨hid, hord⟩ := ownOrder_ok ho
  refine ⟨?_, fun hpast => ⟨Table.get_lt hord, fun o' ho' => ?_⟩⟩
  · have hb := belongs_of_get hget
    rwa [← hid] at hb
  · rw [hord] at ho'
    cases ho'
    exact hpast

theorem mayGetAuthz_ok {authzId : ℕ} {l : Owned × Bool} (h : mayGetAuthz d req authzId = .ok l) : l.1.Ok d := by
  unfold mayGetAuthz at h
  obtain ⟨p, -, h⟩ := except_bind_ok.1 h
  dsimp only at h
  split at h
  · cases h
  next a hget =>
  obtain ⟨o, ho, h⟩ := except_bind_ok.1 h
  obtain ⟨deactivate, -, h⟩ := except_bind_ok.1 h
  split at h
  · cases h
  · cases h
    exact owned_ok hget ho

theorem mayChallenge_ok {authzId : ℕ} {ctype : String} {l : Owned} (h : mayChallenge d req authzId ctype = .ok l) :
    l.Ok d := by
  unfold mayChallenge at h
  obtain ⟨p, -, h⟩ := except_bind_ok.1 h
  dsimp only at h
  split at h
  · cases h
  next a hget =>
  split at h
  · cases h
  obtain ⟨o, ho, h⟩ := except_bind_ok.1 h
  cases h
  exact owned_ok hget ho

theorem mayFinalize_ok {acct : ℕ × AcmeAccount} {o : ℕ × AcmeOrder} {l : Finalizing}
    (h : mayFinalize env d req acct o = .ok l) : l.order = o ∧ o.2.status = .ready := by
  unfold mayFinalize at h
  extract_lets status at h
  split at h
  · cases h
  next hready =>
  split at h
  · cases h
  obtain ⟨_, -, h⟩ := except_bind_ok.1 h
  obtain ⟨_, -, h⟩ := except_bind_ok.1 h
  cases h
  exact ⟨rfl, not_not.1 hready⟩

theorem mayAccount_ok {acctId : ℕ} {l : (ℕ × AcmeAccount) × AccountUpdate} (h : mayAccount d req acctId = .ok l) :
    l.2.Ok d := by
  unfold mayAccount at h
  obtain ⟨p, -, h⟩ := except_bind_ok.1 h
  dsimp only at h
  split at h
  · cases h
  obtain ⟨up, -, h⟩ := except_bind_ok.1 h
  split at h
  · cases h
    exact openOrders_ok _
  obtain ⟨has, -, h⟩ := except_bind_ok.1 h
  split at h
  · obtain ⟨_, -, h⟩ := except_bind_ok.1 h
    obtain ⟨_, -, h⟩ := except_bind_ok.1 h
    cases h
    trivial
  · cases h
    trivial

theorem load_knows {call : Call} {t : Task} (h : call.load env site d req = .ok t) : t.Knows d := by
  cases call with
  | newAccount =>
    obtain ⟨l, -, rfl⟩ := except_map_ok.1 h
    trivial
  | account acctId =>
    obtain ⟨l, hl, rfl⟩ := except_map_ok.1 h
    exact mayAccount_ok hl
  | newOrder =>
    obtain ⟨l, -, rfl⟩ := except_map_ok.1 h
    trivial
  | getAuthz authzId =>
    obtain ⟨l, hl, rfl⟩ := except_map_ok.1 h
    exact mayGetAuthz_ok hl
  | challenge authzId ctype =>
    obtain ⟨l, hl, h⟩ := except_bind_ok.1 h
    have ht := Except.ok.inj h
    split at ht
    · subst ht
      trivial
    · subst ht
      exact mayChallenge_ok hl
  | finalize orderId =>
    obtain ⟨p, -, h⟩ := except_bind_ok.1 h
    obtain ⟨o, -, h⟩ := except_bind_ok.1 h
    split at h
    · cases h
      trivial
    · obtain ⟨l, hl, rfl⟩ := except_map_ok.1 h
      obtain ⟨hord, hready⟩ := mayFinalize_ok hl
      show l.order.2.status = .ready
      rw [hord]
      exact hready

end Knows

/-! ## One request alone -/

/-- the result of the validation a loaded challenge waits for -/
def Task.validation (site : Site) : Task → Option String
  | .challenge ctype l => validate site l.authz.2 l.acct.2 ctype
  | _ => none

section Alone

variable {d : Db} {env : Env} {site : Site} {draws : Draws} {req : Request}

theorem served_congr {handler handler' : M Reply} (h : handler ⟨d, d⟩ = handler' ⟨d, d⟩) :
    served env draws d handler = served env draws d handler' := by
  have hanswer : answer env draws handler ⟨d, d⟩ = answer env draws handler' ⟨d, d⟩ := by
    unfold answer
    rw [Tx.bind_run, Tx.bind_run, Tx.attempt_run, Tx.attempt_run, h]
  unfold served Tx.transact
  rw [hanswer]

/-- a handler that reads, checks and then writes -/
theorem read_then_write {α : Type} {x : Db → Except Err α} {a : α} (h : x d = .ok a) (f : α → M Reply) :
    f a ⟨d, d⟩ = (do
      let d ← Tx.get
      let l ← lift (x d)
      f l : M Reply) ⟨d, d⟩ := by
  rw [Tx.get_bind]
  show f a ⟨d, d⟩ = (lift (x d) >>= f) ⟨d, d⟩
  rw [h, lift_ok_bind]

/-- **A load and a store with nothing in between are the handler.** -/
theorem leaves_alone {call : Call} {t : Task} (h : call.load env site d req = .ok t) :
    t.leaves env site draws (t.validation site) d = served env draws d (serve env site draws req call) := by
  cases call with
  | newAccount =>
    obtain ⟨l, hl, rfl⟩ := except_map_ok.1 h
    exact served_congr (read_then_write (x := fun d => mayNewAccount site d req) hl _)
  | account acctId =>
    obtain ⟨l, hl, rfl⟩ := except_map_ok.1 h
    exact served_congr (read_then_write (x := fun d => mayAccount d req acctId) hl _)
  | newOrder =>
    obtain ⟨l, hl, rfl⟩ := except_map_ok.1 h
    exact served_congr (read_then_write (x := fun d => mayNewOrder env site d req) hl _)
  | getAuthz authzId =>
    obtain ⟨l, hl, rfl⟩ := except_map_ok.1 h
    exact served_congr (read_then_write (x := fun d => mayGetAuthz d req authzId) hl _)
  | challenge authzId ctype =>
    obtain ⟨l, hl, h⟩ := except_bind_ok.1 h
    have ht := Except.ok.inj h
    have hrun : serve env site draws req (.challenge authzId ctype) ⟨d, d⟩ =
        (if isExpired env l.order.2 then expireOrder l.order
          else storeChallenge env draws ctype (validate site l.authz.2 l.acct.2 ctype) l : M Reply) ⟨d, d⟩ :=
      (read_then_write (x := fun d => mayChallenge d req authzId ctype) hl _).symm
    split at ht
    · next hexpired =>
      subst ht
      rw [if_pos hexpired] at hrun
      exact served_congr hrun.symm
    · next hlive =>
      subst ht
      rw [if_neg hlive] at hrun
      exact served_congr hrun.symm
  | finalize orderId =>
    obtain ⟨p, hp, h⟩ := except_bind_ok.1 h
    obtain ⟨o, ho, h⟩ := except_bind_ok.1 h
    have hrun : serve env site draws req (.finalize orderId) ⟨d, d⟩ =
        (if isExpired env o.2 then expireOrder o
          else do
            let l ← lift (mayFinalize env d req p.2 o)
            finalizeOrder env draws l : M Reply) ⟨d, d⟩ := by
      unfold serve
      dsimp only
      rw [Tx.get_bind]
      show (lift (accountOf d req) >>= _) ⟨d, d⟩ = _
      rw [hp, lift_ok_bind]
      show (lift (ownOrder d p.2 orderId) >>= _) ⟨d, d⟩ = _
      rw [ho, lift_ok_bind]
    split at h
    · next hexpired =>
      cases h
      rw [if_pos hexpired] at hrun
      exact served_congr hrun.symm
    · next hlive =>
      obtain ⟨l, hl, rfl⟩ := except_map_ok.1 h
      rw [if_neg hlive, hl, lift_ok_bind] at hrun
      exact served_congr hrun.symm

end Alone

/-! ## What a store does -/

section Store

variable {d : Db} {env : Env} {site : Site} {draws : Draws} {why : Option String}

theorem served_edits {handler : M Reply} (h : DoesAt Edit ⟨d, d⟩ handler) :
    ReflTransGen Edit d (served env draws d handler) := Tx.transact_doesAt (doesAt_answer h)

/-- the order a finalization finds in time is ready -/
theorem Finalizing.InTime.ready {l : Finalizing} (h : l.InTime d) : OrderIs (· = .ready) l.order.1 d := by
  obtain ⟨ord, hget, hready⟩ := Option.map_eq_some_iff.1 h.1
  refine ⟨Table.get_lt hget, fun o ho => ?_⟩
  rw [hget] at ho
  cases ho
  exact hready

/-- a store in time only moves orders and authorizations, and what is left to do knows its rows -/
theorem store_edits {t : Task} (hs : Sound d) (hk : t.Knows d)
    (hchallenge : ∀ ctype l, t = .challenge ctype l → l.open = true → why = none → l.InTime d)
    (hfinalize : ∀ l, t = .finalize l → l.InTime d) :
    ReflTransGen Edit d (t.store env site draws why d).1 ∧
      ∀ t', (t.store env site draws why d).2 = some t' → t'.Knows (t.store env site draws why d).1 := by
  cases t with
  | newAccount l => exact ⟨served_edits (does_storeNewAccount l _), fun _ h => by cases h⟩
  | account l => exact ⟨served_edits (doesAt_storeAccount hk), fun _ h => by cases h⟩
  | newOrder l => exact ⟨served_edits (doesAt_storeNewOrder hs l), fun _ h => by cases h⟩
  | authz l => exact ⟨served_edits (doesAt_storeGetAuthz hk), fun _ h => by cases h⟩
  | challenge ctype l =>
    exact ⟨served_edits (doesAt_storeChallenge hk (hchallenge ctype l rfl)), fun _ h => by cases h⟩
  | reject l text => exact ⟨served_edits (doesAt_rejectFinalize l text), fun _ h => by cases h⟩
  | expire o => exact ⟨served_edits (doesAt_expireOrder o), fun _ h => by cases h⟩
  | clean orders => exact ⟨Tx.transact_doesAt (doesAt_housekeeping hk), fun _ h => by cases h⟩
  | finalize l =>
    have hready := (hfinalize l rfl).ready
    have hdone : ReflTransGen Edit d (served env draws d (finalizeOrder env draws l)) :=
      served_edits (doesAt_finalizeOrder hk hready hready)
    have hdoes : Tx.DoesAt Edit ⟨d, d⟩ (storeFinalize env draws l) := doesAt_storeFinalize hk hready hready
    have hfirst := hdoes (ReflTransGen Edit d) (fun _ _ hab ha => ha.tail hab) .refl .refl
    unfold Task.store
    dsimp only
    split
    · next text s hrun =>
      rw [hrun] at hfirst
      refine ⟨hfirst.1, fun t' h => ?_⟩
      cases h
      trivial
    · exact ⟨hdone, fun _ h => by cases h⟩

end Store

/-! ## Runs -/

section Runs

/-- the shared invariant, and what every thread knows -/
abbrev Inv : St → Prop := Threads.Inv Sound fun _ d l => ∀ t, l = some t → t.Knows d

theorem inv_start (d : Db) : Inv (start d) where
  shared := by
    constructor
    · intro i o hget
      cases hget
    · intro j a hget
      cases hget
  loc t t' h := by cases h

/-- an action in time only moves orders and authorizations -/
theorem act_edits {s : St} {o : ℕ × Act} (hs : Inv s) (h : InTime s o) :
    ReflTransGen Edit s.shared (step s o).shared ∧
      ∀ t, (step s o).loc o.1 = some t → t.Knows (step s o).shared := by
  obtain ⟨n, a⟩ := o
  rw [Threads.step_shared, Threads.step_loc_self]
  cases a with
  | load env site req call =>
    unfold act
    dsimp only
    split
    · next t hload =>
      refine ⟨.refl, fun t' ht => ?_⟩
      cases ht
      exact load_knows hload
    · exact ⟨.refl, fun t' ht => by cases ht⟩
  | loadExpired env =>
    refine ⟨.refl, fun t ht => ?_⟩
    cases ht
    exact expiredOrders_ok
  | store env site draws why =>
    unfold act
    dsimp only
    split
    · exact ⟨.refl, fun t' ht => by cases ht⟩
    · next t hloc =>
      simp only [InTime, hloc] at h
      refine store_edits hs.shared (hs.loc n t hloc) (fun ctype l ht => ?_) fun l ht => ?_
      · subst ht
        exact h
      · subst ht
        exact h
  | abort => exact ⟨.refl, fun t ht => by cases ht⟩

theorem inv_step (s : St) (o : ℕ × Act) (hs : Inv s) (h : InTime s o) : Inv (step s o) := by
  obtain ⟨hedits, hknows⟩ := act_edits hs h
  refine ⟨Tx.reaches_inv (I := Sound) (fun _ _ => edit_sound) hedits hs.shared, fun n t ht => ?_⟩
  by_cases hn : n = o.1
  · subst hn
    exact hknows t ht
  · rw [Threads.step_loc_other s o.2 hn] at ht
    exact Tx.reaches_inv (I := t.Knows) (fun _ _ => edit_knows) hedits (hs.loc n t ht)

/-- what every edit keeps, a run in time keeps -/
theorem run_edits {I : Db → Prop} (hI : ∀ a b, Edit a b → I a → I b) {s : St} {ops : List (ℕ × Act)} (hs : Inv s)
    (h : Along step InTime s ops) (hi : I s.shared) : I (run step s ops).shared := by
  refine (run_inv (I := fun s => Inv s ∧ I s.shared) (fun s o hs h => ?_) ⟨hs, hi⟩ h).2
  exact ⟨inv_step s o hs.1 h, Tx.reaches_inv hI (act_edits hs.1 h).1 hs.2⟩

theorem never_reopened {s : St} {ops : List (ℕ × Act)} (hs : Inv s) (h : Along step InTime s ops) :
    NeverReopened s ops := by
  intro before mid after hops
  subst hops
  obtain ⟨hbefore, hmid⟩ := (along_append s _ _).1 ((along_append s _ _).1 h).1
  have hinv : Inv (run step s before) := run_inv inv_step hs hbefore
  rw [run_append]
  constructor
  · intro i o o' hget hinvalid hget'
    have hover : OrderIs (· = .invalid) i (run step s before).shared := by
      refine ⟨Table.get_lt hget, fun p hp => ?_⟩
      rw [hget] at hp
      cases hp
      exact hinvalid
    have hst := (run_edits (fun _ _ => edit_over) hinv hmid hover).2 o' hget'
    rw [hst]
    decide
  · intro j a a' hget hended hget'
    have hover : AuthzIs AuthzStatus.Ended j (run step s before).shared := by
      refine ⟨Table.get_lt hget, fun b hb => ?_⟩
      rw [hget] at hb
      cases hb
      exact hended
    have hst := (run_edits (fun _ _ => edit_ended) hinv hmid hover).2 a' hget'
    rcases hst with heq | heq | heq
    all_goals
      rw [heq]
      decide

theorem safe_issue {s : St} {o : ℕ × Act} (hs : Inv s) (h : InTime s o) : SafeIssue s o := by
  intro l hissue
  obtain ⟨hloc, env, site, draws, why, reply, s', hstore, -⟩ := hissue
  simp only [InTime, hstore, hloc] at h
  obtain ⟨ord, hget, hready⟩ := Option.map_eq_some_iff.1 h.1
  obtain ⟨acct, hacct, hvalid⟩ := Option.map_eq_some_iff.1 h.2
  rw [hget] at hacct
  exact ⟨ord, acct, hget, hacct, hvalid, hs.shared.ready _ ord hget hready⟩

/-- **ACME issuance is safe** in every run in which a challenge's success finds its authorization not ended and the order
it completes not gone on, and a finalization finds its order still ready and its account still valid. -/
theorem issuance_safe (d : Db) (ops : List (ℕ × Act)) (h : Along step InTime (start d) ops) :
    Along step SafeIssue (start d) ops ∧ NeverReopened (start d) ops :=
  ⟨along_of_inv inv_step (fun _ _ => safe_issue) (inv_start d) h, never_reopened (inv_start d) h⟩

end Runs

/-! ### Runs of one order -/

section Examples

def demoSite : Site :=
  ⟨false, fun _ => .ok "tp", fun _ => .error (.key "protected"), .ok, fun _ _ => .ok none, fun _ _ => .error "no route",
    fun _ => .error "no resolver", fun token _ => token⟩

def demoDraws (nonce : String) : Draws := ⟨nonce, fun _ => "token"⟩

/-- a request of account 1 -/
def demoRequest (path : String) (payload : Json) : Request :=
  ⟨path, .ok "nonce-0", .ok path, .kid (some 1), fun _ => .ok (), .ok payload, some "web-csr"⟩

def demoStore (nonce : String) : Act := .store demoEnv demoSite (demoDraws nonce) none

/-- an active app with one ACME account, and an issuing CA -/
def accountDb : Db :=
  { Db.empty with
    apps := Table.empty.insert (inserted demoState (demoApp "web"))
    acmeAccounts := Table.empty.insert ⟨"tp", .null, 1, .valid, .arr []⟩
    cas := Table.empty.insert
      ⟨"Issuing", none, "ca-pem", "ref", "file", false, 0, none, none, none, none, none, none, none, none, none, none⟩ }

/-- an order for one name, and the client asks for its challenge -/
def challengedOps : List (ℕ × Act) :=
  [(0, .load demoEnv demoSite (demoRequest "/acme/new-order" (.obj [("identifiers",
      .arr [.obj [("type", .str "dns"), ("value", .str "www.corp.example")]])])) .newOrder),
    (0, demoStore "nonce-1"),
    (0, .load demoEnv demoSite (demoRequest "/acme/chall/1/http-01" .null) (.challenge 1 "http-01"))]

/-- the challenge succeeds and the order is finalized -/
def issuedOps : List (ℕ × Act) :=
  challengedOps ++ [(0, demoStore "nonce-2"),
    (0, .load demoEnv demoSite (demoRequest "/acme/order/1/finalize" .null) (.finalize 1)), (0, demoStore "nonce-3")]

/-- a run in time that issues a certificate -/
theorem issued_safely :
    ((run step (start accountDb) issuedOps).shared.acmeOrders.get 1).map (·.certificateId) = some (some 1) ∧
      Along step SafeIssue (start accountDb) issuedOps ∧ NeverReopened (start accountDb) issuedOps :=
  ⟨by decide +kernel, issuance_safe accountDb issuedOps (by decide +kernel)⟩

/-- during the validation the client gives the authorization up -/
def givenUpOps : List (ℕ × Act) :=
  challengedOps ++
    [(1, .load demoEnv demoSite (demoRequest "/acme/authz/1" (.obj [("status", .str "deactivated")])) (.getAuthz 1)),
      (1, demoStore "nonce-2")]

/-- The challenge succeeds after its authorization was committed as deactivated: the authorization is valid again. -/
theorem deactivated_becomes_valid :
    ¬ (Along step SafeIssue (start accountDb) (givenUpOps ++ [(0, demoStore "nonce-3")]) ∧
      NeverReopened (start accountDb) (givenUpOps ++ [(0, demoStore "nonce-3")])) := by
  intro h
  have hbefore : ((run step (start accountDb) givenUpOps).shared.acmeAuthz.get 1).map (·.status) = some .deactivated := by
    decide +kernel
  have hafter : ((run step (start accountDb) (givenUpOps ++ [(0, demoStore "nonce-3")])).shared.acmeAuthz.get 1).map
      (·.status) = some .valid := by
    decide +kernel
  obtain ⟨a, ha, hdeactivated⟩ := Option.map_eq_some_iff.1 hbefore
  obtain ⟨a', ha', hvalid⟩ := Option.map_eq_some_iff.1 hafter
  have hsplit : givenUpOps ++ [(0, demoStore "nonce-3")] = givenUpOps ++ [(0, demoStore "nonce-3")] ++ [] :=
    (List.append_nil _).symm
  exact (h.2 givenUpOps [(0, demoStore "nonce-3")] [] hsplit).2 1 a a' ha (Or.inr (Or.inl hdeactivated)) ha' hvalid

end Examples

end Certadillo.Acme
