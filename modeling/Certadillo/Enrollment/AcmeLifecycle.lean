/-
The life of ACME orders and authorizations, as the single writes that change them.

`Edit` is one write: an order moves (`OrderMove`), an authorization moves (`AuthzMove`), rows are added, and rows are
dropped. An order only becomes ready over valid authorizations, and an authorization only ends while its order is not
ready.

- `edit_sound`: every authorization of a ready order is valid.
- `edit_over`, `edit_ended`, `edit_past`: what is invalid, deactivated or expired stays so until its row is dropped, and an
  order past ready never becomes ready.
- `calmAt_closeOrder`, `calmAt_endAuthz`, `calmAt_passAuthz`: when an UPDATE of a row loaded before is such a write.
-/
import Certadillo.Enrollment.Acme

namespace Certadillo

/-- it can no longer be used -/
def AuthzStatus.Ended (s : AuthzStatus) : Prop := s = .invalid ∨ s = .deactivated ∨ s = .expired

instance (s : AuthzStatus) : Decidable s.Ended := by
  unfold AuthzStatus.Ended
  infer_instance

namespace Acme

open Integrity Policy Py Platform Relation
open Tx (CalmAt DoesAt Calm Does)

/-! ## Moves -/

inductive OrderMove : OrderStatus → OrderStatus → Prop where
  | stay (s : OrderStatus) : OrderMove s s
  | close (s : OrderStatus) : OrderMove s .invalid
  | ready : OrderMove .pending .ready
  | take : OrderMove .ready .processing
  | issue (s : OrderStatus) (h : s = .ready ∨ s = .processing) : OrderMove s .valid

inductive AuthzMove : AuthzStatus → AuthzStatus → Prop where
  | stay (s : AuthzStatus) : AuthzMove s s
  | close (s s' : AuthzStatus) (h : s'.Ended) : AuthzMove s s'
  | pass (s : AuthzStatus) (h : ¬ s.Ended) : AuthzMove s .valid

/-- every authorization of the order is valid -/
def AllAuthzValid (d : Db) (orderId : ℕ) : Prop :=
  ∀ j a, d.acmeAuthz.get j = some a → a.orderId = orderId → a.status = .valid

def NotReady (d : Db) (orderId : ℕ) : Prop := ∀ o, d.acmeOrders.get orderId = some o → o.status ≠ .ready

inductive Edit : Db → Db → Prop where
  | frame (d d' : Db) (orders : d'.acmeOrders = d.acmeOrders) (authz : d'.acmeAuthz = d.acmeAuthz) : Edit d d'
  | addOrder (d : Db) (o : AcmeOrder) (h : o.status = .pending) :
      Edit d { d with acmeOrders := d.acmeOrders.insert o }
  | addAuthz (d : Db) (a : AcmeAuthz) (hid : a.orderId < d.acmeOrders.next) (h : NotReady d a.orderId) :
      Edit d { d with acmeAuthz := d.acmeAuthz.insert a }
  | setOrder (d : Db) (id : ℕ) (f : AcmeOrder → AcmeOrder)
      (hf : ∀ o, d.acmeOrders.get id = some o → OrderMove o.status (f o).status)
      (hready : ∀ o, d.acmeOrders.get id = some o → (f o).status = .ready → o.status = .ready ∨ AllAuthzValid d id) :
      Edit d { d with acmeOrders := d.acmeOrders.update id f }
  | setAuthz (d : Db) (id : ℕ) (f : AcmeAuthz → AcmeAuthz) (hid : ∀ a, (f a).orderId = a.orderId)
      (hf : ∀ a, d.acmeAuthz.get id = some a → AuthzMove a.status (f a).status)
      (hvalid : ∀ a, d.acmeAuthz.get id = some a → (f a).status = .valid ∨ (f a).status = a.status ∨ NotReady d a.orderId) :
      Edit d { d with acmeAuthz := d.acmeAuthz.update id f }
  | drop (d : Db) (p : ℕ → AcmeOrder → Bool) (q : ℕ → AcmeAuthz → Bool) (nonces : Table AcmeNonce) :
      Edit d { d with acmeOrders := d.acmeOrders.delete p, acmeAuthz := d.acmeAuthz.delete q, acmeNonces := nonces }

/-! ## What they keep -/

structure Sound (d : Db) : Prop where
  ready : ∀ i o, d.acmeOrders.get i = some o → o.status = .ready → AllAuthzValid d i
  owned : ∀ j a, d.acmeAuthz.get j = some a → a.orderId < d.acmeOrders.next

section Keeps

variable {d d' : Db}

theorem edit_sound (h : Edit d d') (hs : Sound d) : Sound d' := by
  cases h with
  | frame _ orders authz =>
    constructor
    · unfold AllAuthzValid
      rw [orders, authz]
      exact hs.ready
    · rw [orders, authz]
      exact hs.owned
  | addOrder o h =>
    constructor
    · intro i o' hget hready j a ha hid
      dsimp only at hget
      rw [Table.get_insert] at hget
      split at hget
      · cases hget
        rw [h] at hready
        cases hready
      · exact hs.ready i o' hget hready j a ha hid
    · intro j a ha
      have := hs.owned j a ha
      simp only [Table.next_insert]
      omega
  | addAuthz a hid hnot =>
    constructor
    · intro i o hget hready j b hb hown
      dsimp only at hb
      rw [Table.get_insert] at hb
      split at hb
      · cases hb
        subst hown
        exact absurd hready (hnot o hget)
      · exact hs.ready i o hget hready j b hb hown
    · intro j b hb
      dsimp only at hb
      rw [Table.get_insert] at hb
      split at hb
      · cases hb
        exact hid
      · exact hs.owned j b hb
  | setOrder id f hf hready =>
    constructor
    · intro i o hget hst
      dsimp only at hget
      by_cases hi : i = id
      · subst hi
        rw [Table.get_update_self, Option.map_eq_some_iff] at hget
        obtain ⟨o', ho', rfl⟩ := hget
        rcases hready o' ho' hst with hbefore | hall
        · exact hs.ready i o' ho' hbefore
        · exact hall
      · rw [Table.get_update_of_ne _ _ hi] at hget
        exact hs.ready i o hget hst
    · exact hs.owned
  | setAuthz id f hid hf hvalid =>
    constructor
    · intro i o hget hst j b hb hown
      dsimp only at hb
      by_cases hj : j = id
      · subst hj
        rw [Table.get_update_self, Option.map_eq_some_iff] at hb
        obtain ⟨a, ha, rfl⟩ := hb
        rw [hid] at hown
        rcases hvalid a ha with hval | hsame | hnot
        · exact hval
        · exact hsame.trans (hs.ready i o hget hst j a ha hown)
        · exact absurd hst (hnot o (hown ▸ hget))
      · rw [Table.get_update_of_ne _ _ hj] at hb
        exact hs.ready i o hget hst j b hb hown
    · intro j b hb
      dsimp only at hb
      by_cases hj : j = id
      · subst hj
        rw [Table.get_update_self, Option.map_eq_some_iff] at hb
        obtain ⟨a, ha, rfl⟩ := hb
        exact (hid a).symm ▸ hs.owned j a ha
      · rw [Table.get_update_of_ne _ _ hj] at hb
        exact hs.owned j b hb
  | drop p q nonces =>
    constructor
    · intro i o hget hst j b hb hown
      simp only [Table.get_delete, Option.filter_eq_some_iff] at hget hb
      exact hs.ready i o hget.1 hst j b hb.1 hown
    · intro j b hb
      simp only [Table.get_delete, Option.filter_eq_some_iff] at hb
      exact hs.owned j b hb.1

/-- what holds of an order from now on, if its moves keep it -/
def OrderIs (P : OrderStatus → Prop) (i : ℕ) (d : Db) : Prop :=
  i < d.acmeOrders.next ∧ ∀ o, d.acmeOrders.get i = some o → P o.status

/-- the same of an authorization -/
def AuthzIs (P : AuthzStatus → Prop) (j : ℕ) (d : Db) : Prop :=
  j < d.acmeAuthz.next ∧ ∀ a, d.acmeAuthz.get j = some a → P a.status

/-- an authorization belongs to one order -/
def Belongs (j i : ℕ) (d : Db) : Prop := j < d.acmeAuthz.next ∧ ∀ a, d.acmeAuthz.get j = some a → a.orderId = i

theorem edit_orderIs {P : OrderStatus → Prop} (hP : ∀ s s', OrderMove s s' → P s → P s') {i : ℕ} (h : Edit d d')
    (hi : OrderIs P i d) : OrderIs P i d' := by
  obtain ⟨hlt, hi⟩ := hi
  cases h with
  | frame _ orders authz => exact ⟨orders ▸ hlt, orders ▸ hi⟩
  | addOrder o _ =>
    refine ⟨Nat.lt_succ_of_lt hlt, ?_⟩
    intro o' hget
    dsimp only at hget
    rw [Table.get_insert, if_neg (by omega)] at hget
    exact hi o' hget
  | addAuthz a _ _ => exact ⟨hlt, hi⟩
  | setOrder id f hf _ =>
    refine ⟨hlt, ?_⟩
    intro o' hget
    dsimp only at hget
    by_cases heq : i = id
    · subst heq
      rw [Table.get_update_self, Option.map_eq_some_iff] at hget
      obtain ⟨o, ho, rfl⟩ := hget
      exact hP _ _ (hf o ho) (hi o ho)
    · rw [Table.get_update_of_ne _ _ heq] at hget
      exact hi o' hget
  | setAuthz id f _ _ _ => exact ⟨hlt, hi⟩
  | drop p q nonces =>
    refine ⟨hlt, ?_⟩
    intro o hget
    simp only [Table.get_delete, Option.filter_eq_some_iff] at hget
    exact hi o hget.1

/-- a property of authorizations that every assignment keeps -/
theorem edit_authz {P : AcmeAuthz → Prop} {j : ℕ}
    (hP : ∀ a a', a'.orderId = a.orderId → AuthzMove a.status a'.status → P a → P a') (h : Edit d d')
    (hj : j < d.acmeAuthz.next ∧ ∀ a, d.acmeAuthz.get j = some a → P a) :
    j < d'.acmeAuthz.next ∧ ∀ a, d'.acmeAuthz.get j = some a → P a := by
  obtain ⟨hlt, hj⟩ := hj
  cases h with
  | frame _ orders authz => exact ⟨authz ▸ hlt, authz ▸ hj⟩
  | addOrder o _ => exact ⟨hlt, hj⟩
  | addAuthz b _ _ =>
    refine ⟨Nat.lt_succ_of_lt hlt, ?_⟩
    intro a hget
    dsimp only at hget
    rw [Table.get_insert, if_neg (by omega)] at hget
    exact hj a hget
  | setOrder id f _ _ => exact ⟨hlt, hj⟩
  | setAuthz id f hid hf _ =>
    refine ⟨hlt, ?_⟩
    intro a' hget
    dsimp only at hget
    by_cases heq : j = id
    · subst heq
      rw [Table.get_update_self, Option.map_eq_some_iff] at hget
      obtain ⟨a, ha, rfl⟩ := hget
      exact hP a (f a) (hid a) (hf a ha) (hj a ha)
    · rw [Table.get_update_of_ne _ _ heq] at hget
      exact hj a' hget
  | drop p q nonces =>
    refine ⟨hlt, ?_⟩
    intro a hget
    simp only [Table.get_delete, Option.filter_eq_some_iff] at hget
    exact hj a hget.1

theorem edit_belongs {j i : ℕ} (h : Edit d d') (hb : Belongs j i d) : Belongs j i d' :=
  edit_authz (fun _ _ hid _ hold => hid.trans hold) h hb

theorem move_ended {s s' : AuthzStatus} (h : AuthzMove s s') (hs : s.Ended) : s'.Ended := by
  cases h with
  | stay => exact hs
  | close _ hend => exact hend
  | pass hnot => exact absurd hs hnot

/-- an authorization that has ended stays so -/
theorem edit_ended {j : ℕ} (h : Edit d d') (he : AuthzIs AuthzStatus.Ended j d) : AuthzIs AuthzStatus.Ended j d' :=
  edit_authz (fun _ _ _ hmove hold => move_ended hmove hold) h he

/-- the order is closed, or was dropped; its certificate may have been issued before -/
theorem edit_over {i : ℕ} (h : Edit d d') (ho : OrderIs (· = .invalid) i d) : OrderIs (· = .invalid) i d' := by
  refine edit_orderIs (fun s s' hmove hold => ?_) h ho
  subst hold
  cases hmove with
  | stay => rfl
  | close => rfl
  | issue _ hs => rcases hs with heq | heq <;> cases heq

/-- past ready -/
def Past (s : OrderStatus) : Prop := s ≠ .pending ∧ s ≠ .ready

theorem move_past {s s' : OrderStatus} (h : OrderMove s s') (hs : Past s) : Past s' := by
  unfold Past at hs ⊢
  cases h with
  | stay => exact hs
  | close => exact ⟨by decide, by decide⟩
  | ready => exact absurd rfl hs.1
  | take => exact absurd rfl hs.2
  | issue => exact ⟨by decide, by decide⟩

/-- an order past ready never becomes ready -/
theorem edit_past {i : ℕ} (h : Edit d d') (ho : OrderIs Past i d) : OrderIs Past i d' :=
  edit_orderIs (fun _ _ hmove hold => move_past hmove hold) h ho

end Keeps

/-! ## Saved rows -/

theorem written_eq {α : Type} [DecidableEq α] (loaded new stored : α) :
    written loaded new stored = new ∨ new = loaded ∧ written loaded new stored = stored := by
  unfold written
  split
  · next h => exact Or.inr ⟨h, rfl⟩
  · exact Or.inl rfl

section Save

variable {s s' : Session Db} {u : Unit}

section Generic

variable {α : Type} [DecidableEq α] {c : Col α} {assign : α → α → α → α} {id : ℕ} {loaded new : α}

theorem calmAt_saveRow {W : Db → Db → Prop}
    (h : W s.work (c.put s.work ((c.get s.work).update id (assign loaded new)))) :
    CalmAt W s (saveRow c assign id loaded new) := by
  unfold saveRow
  split
  · exact Tx.calm_pure _ s
  · refine Tx.calmAt_get_bind ?_
    split
    · exact Tx.calmAt_modify h
    · exact Tx.calm_throw _ s

/-- an UPDATE that returns found its row, if it had anything to write -/
theorem saveRow_ok (h : saveRow c assign id loaded new s = (.ok u, s')) :
    new = loaded ∧ s' = s ∨
      ((c.get s.work).get id).isSome ∧
        s' = { s with work := c.put s.work ((c.get s.work).update id (assign loaded new)) } := by
  unfold saveRow at h
  split at h
  · next heq =>
    cases h
    exact Or.inl ⟨heq, rfl⟩
  · rw [Tx.get_bind] at h
    split at h
    · next hsome =>
      cases h
      exact Or.inr ⟨hsome, rfl⟩
    · cases h

end Generic

section Order

variable {id : ℕ} {loaded new : AcmeOrder}

theorem calmAt_saveOrder
    (hmove : ∀ o, s.work.acmeOrders.get id = some o → OrderMove o.status (written loaded.status new.status o.status))
    (hready : ∀ o, s.work.acmeOrders.get id = some o → written loaded.status new.status o.status = .ready →
      o.status = .ready ∨ AllAuthzValid s.work id) : CalmAt Edit s (saveOrder id loaded new) :=
  calmAt_saveRow (.setOrder s.work id (assignOrder loaded new) hmove hready)

/-- an order can always be closed -/
theorem calmAt_closeOrder (h : new.status = .invalid ∨ new.status = loaded.status) :
    CalmAt Edit s (saveOrder id loaded new) := by
  have hwritten : ∀ st : OrderStatus, written loaded.status new.status st = st ∨
      written loaded.status new.status st = .invalid := by
    intro st
    unfold written
    split
    · exact Or.inl rfl
    · next hne => exact Or.inr (h.resolve_right hne)
  apply calmAt_saveOrder
  · intro o _
    rcases hwritten o.status with heq | heq
    · rw [heq]
      exact .stay _
    · rw [heq]
      exact .close _
  · intro o _ hready
    rcases hwritten o.status with heq | heq
    · exact Or.inl (heq.symm.trans hready)
    · rw [heq] at hready
      cases hready

theorem saveOrder_authz (h : saveOrder id loaded new s = (.ok u, s')) : s'.work.acmeAuthz = s.work.acmeAuthz := by
  rcases saveRow_ok h with ⟨-, rfl⟩ | ⟨-, rfl⟩
  · rfl
  · rfl

/-- an order after it was saved -/
theorem saveOrder_get (h : saveOrder id loaded new s = (.ok u, s')) {o' : AcmeOrder}
    (hget : s'.work.acmeOrders.get id = some o') :
    ∃ o, s.work.acmeOrders.get id = some o ∧ o'.status = written loaded.status new.status o.status := by
  rcases saveRow_ok h with ⟨heq, rfl⟩ | ⟨-, rfl⟩
  · refine ⟨o', hget, ?_⟩
    unfold written
    rw [if_pos (congrArg AcmeOrder.status heq)]
  · have hupd : (s.work.acmeOrders.update id (assignOrder loaded new)).get id = some o' := hget
    rw [Table.get_update_self, Option.map_eq_some_iff] at hupd
    obtain ⟨o, ho, rfl⟩ := hupd
    exact ⟨o, ho, rfl⟩

/-- an order that was loaded open and is closed, or was loaded past ready, is not ready -/
theorem saveOrder_notReady (h : saveOrder id loaded new s = (.ok u, s'))
    (hnew : (new.status = .invalid ∧ loaded.status ≠ .invalid) ∨ (new.status = loaded.status ∧ OrderIs Past id s.work)) :
    NotReady s'.work id := by
  intro o' hget
  obtain ⟨o, ho, hst⟩ := saveOrder_get h hget
  rw [hst]
  unfold written
  rcases hnew with ⟨hinv, hopen⟩ | ⟨hsame, hpast⟩
  · rw [hinv, if_neg (fun heq => hopen heq.symm)]
    decide
  · rw [if_pos hsame]
    exact (hpast.2 o ho).2

end Order

section Authz

variable {id : ℕ} {loaded new : AcmeAuthz}

theorem calmAt_saveAuthz (hid : new.orderId = loaded.orderId)
    (hmove : ∀ a, s.work.acmeAuthz.get id = some a → AuthzMove a.status (written loaded.status new.status a.status))
    (hvalid : ∀ a, s.work.acmeAuthz.get id = some a → written loaded.status new.status a.status = .valid ∨
      written loaded.status new.status a.status = a.status ∨ NotReady s.work a.orderId) :
    CalmAt Edit s (saveAuthz id loaded new) := by
  refine calmAt_saveRow (.setAuthz s.work id (assignAuthz loaded new) (fun a => ?_) hmove hvalid)
  show written loaded.orderId new.orderId a.orderId = a.orderId
  rw [written, if_pos hid]

/-- an authorization ends, while its order is not ready -/
theorem calmAt_endAuthz {i : ℕ} (hid : new.orderId = loaded.orderId) (hend : new.status.Ended)
    (hb : Belongs id i s.work) (hnot : NotReady s.work i) : CalmAt Edit s (saveAuthz id loaded new) := by
  apply calmAt_saveAuthz hid
  · intro a _
    rcases written_eq loaded.status new.status a.status with heq | ⟨-, heq⟩
    · rw [heq]
      exact .close _ _ hend
    · rw [heq]
      exact .stay _
  · intro a ha
    exact Or.inr (Or.inr (hb.2 a ha ▸ hnot))

/-- an authorization passes, unless it has ended by now -/
theorem calmAt_passAuthz (hid : new.orderId = loaded.orderId) (hnew : new.status = .valid)
    (hloaded : loaded.status ≠ .valid) (h : ∀ a, s.work.acmeAuthz.get id = some a → ¬ a.status.Ended) :
    CalmAt Edit s (saveAuthz id loaded new) := by
  have hwritten : ∀ st : AuthzStatus, written loaded.status new.status st = .valid := by
    intro st
    rw [written, hnew, if_neg (fun heq => hloaded heq.symm)]
  apply calmAt_saveAuthz hid
  · intro a ha
    rw [hwritten]
    exact .pass _ (h a ha)
  · intro a _
    exact Or.inl (hwritten _)

theorem saveAuthz_orders (h : saveAuthz id loaded new s = (.ok u, s')) : s'.work.acmeOrders = s.work.acmeOrders := by
  rcases saveRow_ok h with ⟨-, rfl⟩ | ⟨-, rfl⟩
  · rfl
  · rfl

/-- an authorization after it was saved -/
theorem saveAuthz_get (h : saveAuthz id loaded new s = (.ok u, s')) {a' : AcmeAuthz}
    (hget : s'.work.acmeAuthz.get id = some a') :
    ∃ a, s.work.acmeAuthz.get id = some a ∧ a'.status = written loaded.status new.status a.status := by
  rcases saveRow_ok h with ⟨heq, rfl⟩ | ⟨-, rfl⟩
  · refine ⟨a', hget, ?_⟩
    unfold written
    rw [if_pos (congrArg AcmeAuthz.status heq)]
  · have hupd : (s.work.acmeAuthz.update id (assignAuthz loaded new)).get id = some a' := hget
    rw [Table.get_update_self, Option.map_eq_some_iff] at hupd
    obtain ⟨a, ha, rfl⟩ := hupd
    exact ⟨a, ha, rfl⟩

theorem saveAuthz_other (h : saveAuthz id loaded new s = (.ok u, s')) {j : ℕ} (hj : j ≠ id) :
    s'.work.acmeAuthz.get j = s.work.acmeAuthz.get j := by
  rcases saveRow_ok h with ⟨-, rfl⟩ | ⟨-, rfl⟩
  · rfl
  · exact Table.get_update_of_ne s.work.acmeAuthz (assignAuthz loaded new) hj

end Authz

end Save

end Acme

end Certadillo
