/-
Who a request acts as, over whole runs of the operations on credentials.

- `actor_has_grounds`: whatever is written into the principals table from outside, if no seal is forged, an actor comes from
  a token the identity provider's keys verify, or was minted by the application under the key that is presented.
- `keys_refine`: without writes from outside, the table with its seals is a directory of credentials. A key works from the call
  that minted it to the call that deactivates its principal, and never again.

An attacker's writes may copy any seal that was ever stored; the digests are modelled symbolically.
-/
import Certadillo.Auth.Authenticators
import Certadillo.Lib.Run
import Certadillo.Lib.Upserts
import Certadillo.Services.Tampered

namespace Certadillo.Auth

open Integrity Policy Py Machine Platform Tx

/-! ## Operations on credentials -/

inductive Event where
  /-- the bootstrap, or an admin -/
  | create (env : Env) (actor : Option Actor) (name : String) (role : Role) (appId : Option ℕ) (rawKey : String)
  | mint (env : Env) (actor : Actor) (appId : ℕ) (rawKey : String)
  | deactivate (env : Env) (actor : Actor) (name : String)
  /-- any other operation, which leaves the principals alone -/
  | other (change : Db → Db)
  /-- a write from outside the application -/
  | sql (t : Table Principal)

def returned {α : Type} : Except Err α → Bool
  | .ok _ => true
  | .error _ => false

/-- the database after an event -/
def after (d : Db) : Event → Db
  | .create env actor name role appId rawKey => (Tx.transact (createPrincipal env actor name role appId rawKey) d).2
  | .mint env actor appId rawKey => (Tx.transact (mintAppCredential env actor appId rawKey) d).2
  | .deactivate env actor name => (Tx.transact (deactivatePrincipal env actor name) d).2
  | .other change => change d
  | .sql t => { d with principals := t }

/-- the rows under keys the sequence had not given out -/
def newRows (t t' : Table Principal) : List Principal := (t'.rows.filter fun q => t.next ≤ q.1).map Prod.snd

/-- the rows an event of the application adds -/
def minted (d : Db) (e : Event) : List Principal :=
  match e with
  | .create .. | .mint .. => newRows d.principals (after d e).principals
  | _ => []

/-- the principals an event deactivates -/
def deactivated (d : Db) : Event → List String
  | .deactivate env actor name => if returned (Tx.transact (deactivatePrincipal env actor name) d).1 then [name] else []
  | _ => []

/-- the database, and what came of it: the principals the application minted, the ones it deactivated, and every seal that
was ever stored -/
structure System where
  db : Db
  made : List Principal
  closed : List String
  seals : List Seal

def step (s : System) (e : Event) : System :=
  ⟨after s.db e, s.made ++ minted s.db e, s.closed ++ deactivated s.db e,
    s.seals ++ (after s.db e).principals.vals.filterMap (·.sealHex)⟩

/-- no credential yet -/
def fresh (d : Db) : System := ⟨{ d with principals := .empty }, [], [], []⟩

/-- a seal an attacker may write: made under no configured key, for another table, or copied -/
def Copied (st : SealState) (seals : List Seal) (x : Option Seal) : Prop :=
  Unforged st (fun b => b.kind = .principal → ∃ κ ∈ st.keys, .hmac κ b ∈ seals) x

/-- the process has one seal state, other operations leave the principals alone, and a write from outside forges no seal -/
def Fair (st : SealState) (s : System) : Event → Prop
  | .create env .. => env.st = st
  | .mint env .. => env.st = st
  | .deactivate env .. => env.st = st
  | .other change => (change s.db).principals = s.db.principals
  | .sql t => ∀ i p, t.get i = some p → Copied st s.seals p.sealHex

/-- the same, without writes from outside -/
def Inside (st : SealState) (s : System) : Event → Prop
  | .sql _ => False
  | e => Fair st s e

/-! ## What an event does -/

/-- nothing, or it adds an active principal under a name and a key of its own, or it deactivates one -/
inductive Outcome (st : SealState) (s s' : System) : Prop where
  | quiet (rows : s'.db.principals = s.db.principals) (made : s'.made = s.made) (closed : s'.closed = s.closed)
  | adds (p : Principal) (active : p.active = true)
    (rows : s'.db.principals = s.db.principals.insert (inserted st p))
    (own : ∀ i q, s.db.principals.get i = some q → q.name ≠ p.name ∧ q.keyHash ≠ p.keyHash)
    (made : s'.made = s.made ++ [inserted st p]) (closed : s'.closed = s.closed)
  | closes (i : ℕ) (p : Principal) (found : s.db.principals.get i = some p)
    (rows : s'.db.principals = s.db.principals.update i fun p => flushed st p { p with active := false })
    (made : s'.made = s.made) (closed : s'.closed = s.closed ++ [p.name])

section Operations

variable {env : Env} {d : Db}

theorem addRow_returned {α : Type} [Sealed α] {c : Col α} {clash : Table α → Option String} {a : α} {s s' : Session Db} {id : ℕ}
    (h : addRow env c clash a s = (.ok id, s')) :
    clash (c.get s.work) = none ∧ s'.work = c.put s.work ((c.get s.work).insert (inserted env.st a)) := by
  unfold addRow at h
  rw [Tx.get_bind] at h
  cases hclash : clash (c.get s.work) with
  | some u =>
    rw [hclash] at h
    cases h
  | none =>
    rw [hclash] at h
    cases h
    exact ⟨rfl, rfl⟩

/-- no row has this name, and none this key -/
def Own (t : Table Principal) (name hash : String) : Prop := ∀ i q, t.get i = some q → q.name ≠ name ∧ q.keyHash ≠ hash

theorem own_of_unclashed {name hash : String} {t : Table Principal} (h : (unique "principals.name" Principal.name name t).or
    (unique "principals.key_hash" Principal.keyHash hash t) = none) : Own t name hash := by
  intro i q hq
  obtain ⟨hname, hhash⟩ := Option.or_eq_none_iff.1 h
  refine ⟨fun hsame => ?_, fun hsame => ?_⟩
  · have hnone := Table.first_none.1 (unique_none.1 hname) i q hq
    simp [hsame] at hnone
  · have hnone := Table.first_none.1 (unique_none.1 hhash) i q hq
    simp [hsame] at hnone

/-- the row a call adds, and the names and keys it is not among -/
def AddsRow (env : Env) (d d' : Db) : Prop :=
  ∃ p : Principal, p.active = true ∧ d'.principals = d.principals.insert (inserted env.st p) ∧
    Own d.principals p.name p.keyHash

theorem adds_record {p : Principal} (hactive : p.active = true) {actor action target : String} {details : List (String × Json)}
    {u : Unit} {s' : Session Db}
    (h : (addRow env Col.principals (fun t => (unique "principals.name" Principal.name p.name t).or
        (unique "principals.key_hash" Principal.keyHash p.keyHash t)) p >>= fun _ =>
      record env actor action target details) ⟨d, d⟩ = (.ok u, s')) : AddsRow env d s'.work := by
  obtain ⟨id, s1, hadd, hrec⟩ := Tx.bind_returns.1 h
  obtain ⟨hclash, hwork⟩ := addRow_returned hadd
  cases hrec
  refine ⟨p, hactive, ?_, own_of_unclashed hclash⟩
  simp only [hwork]
  rfl

theorem createPrincipal_returned {actor : Option Actor} {name : String} {role : Role} {appId : Option ℕ} {rawKey : String}
    {u : Unit} {s' : Session Db} (h : createPrincipal env actor name role appId rawKey ⟨d, d⟩ = (.ok u, s')) :
    AddsRow env d s'.work := by
  unfold createPrincipal at h
  cases actor with
  | none =>
    cases role with
    | other text known => cases h
    | _ => exact adds_record (p := ⟨name, _, env.sha256 rawKey, appId, true, _, none⟩) rfl h
  | some a =>
    obtain ⟨r, s1, hreq, hr⟩ := Tx.bind_returns.1 h
    obtain ⟨-, rfl⟩ := Prod.mk.inj hreq
    cases role with
    | other text known => cases hr
    | _ => exact adds_record (p := ⟨name, _, env.sha256 rawKey, appId, true, _, none⟩) rfl hr

theorem mintAppCredential_returned {actor : Actor} {appId : ℕ} {rawKey : String} {u : Unit} {s' : Session Db}
    (h : mintAppCredential env actor appId rawKey ⟨d, d⟩ = (.ok u, s')) : AddsRow env d s'.work := by
  unfold mintAppCredential at h
  obtain ⟨r, s1, hreq, h⟩ := Tx.bind_returns.1 h
  obtain ⟨-, rfl⟩ := Prod.mk.inj hreq
  rw [Tx.get_bind] at h
  cases happ : d.apps.get appId with
  | none =>
    simp only [happ] at h
    cases h
  | some app =>
    simp only [happ] at h
    split at h
    · cases h
    · exact adds_record (p := ⟨_, .app, env.sha256 rawKey, some appId, true, actor.name, none⟩) rfl h

theorem deactivatePrincipal_returned {actor : Actor} {name : String} {u : Unit} {s' : Session Db}
    (h : deactivatePrincipal env actor name ⟨d, d⟩ = (.ok u, s')) :
    ∃ i p, d.principals.get i = some p ∧ p.name = name ∧
      s'.work.principals = d.principals.update i fun p => flushed env.st p { p with active := false } := by
  unfold deactivatePrincipal at h
  obtain ⟨r, s1, hreq, h⟩ := Tx.bind_returns.1 h
  obtain ⟨-, rfl⟩ := Prod.mk.inj hreq
  rw [Tx.get_bind] at h
  obtain ⟨found, s2, hfound, h⟩ := Tx.bind_returns.1 h
  obtain ⟨hone, rfl⟩ := Prod.mk.inj hfound
  cases found with
  | none => cases h
  | some x =>
    obtain ⟨i, p⟩ := x
    obtain ⟨hget, hname⟩ := oneOrNone_some hone
    cases h
    exact ⟨i, p, hget, by simpa using hname, rfl⟩

theorem calm_mintAppCredential (actor : Actor) (appId : ℕ) (rawKey : String) :
    Calm (Write env .full) (mintAppCredential env actor appId rawKey) := by
  unfold mintAppCredential
  refine calm_lift_bind fun _ _ => calm_get_bind fun d => ?_
  cases d.apps.get appId with
  | none => exact calm_raise _
  | some app =>
    refine calm_ite (fun _ => calm_raise _) fun _ => ?_
    refine calm_bind (calm_addRow (fun _ _ => ⟨rfl, rfl, rfl, rfl, rfl⟩) _ _) fun _ => ?_
    exact calm_record (by decide)

/-- a transaction that raises, of a calm program, leaves the database as it was -/
theorem transact_outcome {α : Type} {m : M α} {W : Db → Db → Prop} (hcalm : Calm W m) :
    (∃ a s', m ⟨d, d⟩ = (.ok a, s') ∧ Tx.transact m d = (.ok a, s'.work)) ∨
      returned (Tx.transact m d).1 = false ∧ (Tx.transact m d).2 = d := by
  rcases hm : m ⟨d, d⟩ with ⟨e | a, s'⟩
  · right
    have htx := Tx.transact_of_raises hm
    have hcommitted := (hcalm ⟨d, d⟩).1
    rw [hm] at hcommitted
    rw [htx]
    exact ⟨rfl, hcommitted⟩
  · exact Or.inl ⟨a, s', rfl, Tx.transact_of_returns hm⟩

end Operations

section Events

variable {st : SealState} {s : System}

theorem newRows_self (t : Table Principal) : newRows t t = [] := by
  unfold newRows
  rw [List.map_eq_nil_iff, List.filter_eq_nil_iff]
  intro q hq
  have hlt := t.below q.1 (List.mem_map_of_mem (f := Prod.fst) hq)
  simp [hlt]

theorem newRows_insert (t : Table Principal) (p : Principal) : newRows t (t.insert p) = [p] := by
  have hself := newRows_self t
  unfold newRows at hself ⊢
  rw [List.map_eq_nil_iff] at hself
  simp only [Table.insert]
  rw [List.filter_append, hself]
  simp

theorem outcome_adds {p : Principal} {e : Event} (hactive : p.active = true)
    (hrows : (after s.db e).principals = s.db.principals.insert (inserted st p))
    (hown : Own s.db.principals p.name p.keyHash) (hminted : minted s.db e = newRows s.db.principals (after s.db e).principals)
    (hclosed : deactivated s.db e = []) : Outcome st s (step s e) := by
  refine .adds p hactive hrows hown ?_ ?_
  · simp only [step]
    rw [hminted, hrows, newRows_insert]
  · simp only [step]
    rw [hclosed, List.append_nil]

theorem outcome_quiet {e : Event} (hrows : (after s.db e).principals = s.db.principals)
    (hminted : minted s.db e = newRows s.db.principals (after s.db e).principals ∨ minted s.db e = [])
    (hclosed : deactivated s.db e = []) : Outcome st s (step s e) := by
  refine .quiet hrows ?_ ?_
  · simp only [step]
    rcases hminted with hminted | hminted
    · rw [hminted, hrows, newRows_self, List.append_nil]
    · rw [hminted, List.append_nil]
  · simp only [step]
    rw [hclosed, List.append_nil]

/-- **What an event of the application does to the credentials.** -/
theorem step_outcome {e : Event} (h : Inside st s e) : Outcome st s (step s e) := by
  cases e with
  | create env actor name role appId rawKey =>
    obtain rfl : env.st = st := h
    have hcalm : Calm (Write env .full) (createPrincipal env actor name role appId rawKey) := calm_createPrincipal actor name role appId rawKey
    rcases transact_outcome (d := s.db) hcalm with
      ⟨u, s', hrun, htx⟩ | ⟨-, hsame⟩
    · obtain ⟨p, hactive, hrows, hown⟩ := createPrincipal_returned hrun
      refine outcome_adds hactive ?_ hown rfl rfl
      simp only [after, htx]
      exact hrows
    · exact outcome_quiet (congrArg Db.principals hsame) (Or.inl rfl) rfl
  | mint env actor appId rawKey =>
    obtain rfl : env.st = st := h
    have hcalm : Calm (Write env .full) (mintAppCredential env actor appId rawKey) := calm_mintAppCredential actor appId rawKey
    rcases transact_outcome (d := s.db) hcalm with
      ⟨u, s', hrun, htx⟩ | ⟨-, hsame⟩
    · obtain ⟨p, hactive, hrows, hown⟩ := mintAppCredential_returned hrun
      refine outcome_adds hactive ?_ hown rfl rfl
      simp only [after, htx]
      exact hrows
    · exact outcome_quiet (congrArg Db.principals hsame) (Or.inl rfl) rfl
  | deactivate env actor name =>
    obtain rfl : env.st = st := h
    have hcalm : Calm (Write env .full) (deactivatePrincipal env actor name) := calm_deactivatePrincipal actor name
    rcases transact_outcome (d := s.db) hcalm with
      ⟨u, s', hrun, htx⟩ | ⟨hraised, hsame⟩
    · obtain ⟨i, p, hget, rfl, hrows⟩ := deactivatePrincipal_returned hrun
      refine .closes i p hget ?_ (List.append_nil _) ?_
      · simp only [step, after, htx]
        exact hrows
      · simp [step, deactivated, htx, returned]
    · refine outcome_quiet (congrArg Db.principals hsame) (Or.inr rfl) ?_
      simp [deactivated, hraised]
  | other change => exact outcome_quiet h (Or.inr rfl) rfl
  | sql t => exact h.elim

end Events

/-! ## Grounds -/

/-- a seal of a principal was made of one the application minted, active or not -/
def VouchedSeal (st : SealState) (made : List Principal) (x : Seal) : Prop :=
  ∀ κ b, x = .hmac κ b → κ ∈ st.keys → b.kind = .principal →
    ∃ p ∈ made, ∃ active, b = canonical .principal (Sealed.getattr { p with active := active })

/-- the seals of the table were stored, and every stored seal is vouched for -/
structure Vouched (st : SealState) (s : System) : Prop where
  kept : ∀ i p x, s.db.principals.get i = some p → p.sealHex = some x → x ∈ s.seals
  seals : ∀ x ∈ s.seals, VouchedSeal st s.made x

section Grounds

variable {st : SealState} {s : System}

theorem VouchedSeal.mono {made made' : List Principal} {x : Seal} (h : VouchedSeal st made x) (hmade : ∀ p ∈ made, p ∈ made') :
    VouchedSeal st made' x := by
  intro κ b hx hκ hkind
  obtain ⟨p, hp, active, hb⟩ := h κ b hx hκ hkind
  exact ⟨p, hmade p hp, active, hb⟩

/-- the seal computed of a minted principal -/
theorem vouchedSeal_compute {made : List Principal} {p q : Principal} {x : Seal} (active : Bool) (hp : p ∈ made)
    (hsame : ∀ f ∈ FIELDS .principal, Sealed.getattr q f = Sealed.getattr { p with active := active } f)
    (hx : compute st .principal (Sealed.getattr q) = some x) : VouchedSeal st made x := by
  intro κ b hb hκ hkind
  obtain ⟨κ', -, rfl⟩ := Option.map_eq_some_iff.1 hx
  cases hb
  exact ⟨p, hp, active, canonical_congr hsame⟩

/-- the new rows' seals decide -/
theorem Vouched.of_rows {e : Event} (h : Vouched st s) (hrows : ∀ i q x, (after s.db e).principals.get i = some q →
    q.sealHex = some x → VouchedSeal st (step s e).made x) : Vouched st (step s e) := by
  refine ⟨fun i p x hget hx => ?_, fun x hx => ?_⟩
  · refine List.mem_append_right _ (List.mem_filterMap.2 ⟨p, ?_, hx⟩)
    exact List.mem_map.2 ⟨(i, p), Table.mem_rows.2 hget, rfl⟩
  · rcases List.mem_append.1 hx with hx | hx
    · exact (h.seals x hx).mono fun p hp => List.mem_append_left _ hp
    · obtain ⟨q, hq, hsealed⟩ := List.mem_filterMap.1 hx
      obtain ⟨⟨i, q⟩, hmem, rfl⟩ := List.mem_map.1 hq
      exact hrows i q x (Table.mem_rows.1 hmem) hsealed

/-- two principals that agree on the sealed columns agree when both are deactivated -/
theorem deactivated_congr {p q : Principal} {active : Bool}
    (h : canonical .principal (Sealed.getattr p) = canonical .principal (Sealed.getattr { q with active := active })) :
    ∀ f ∈ FIELDS .principal, Sealed.getattr { p with active := false } f = Sealed.getattr { q with active := false } f := by
  have hsame := (canonical_eq_iff.1 h).2
  intro f hf
  have hcol := hsame f hf
  cases f <;> first | exact hcol | rfl

/-- a row the application changed carries its old seal, or one over a principal that was vouched for -/
theorem vouchedSeal_flushed (he : st.enforce = true) (h : Vouched st s) {i : ℕ}
    {p : Principal} (hget : s.db.principals.get i = some p) {x : Seal}
    (hx : (flushed st p { p with active := false }).sealHex = some x) : VouchedSeal st s.made x := by
  unfold flushed at hx
  split at hx
  · exact h.seals x (h.kept i p x hget hx)
  · split at hx
    · next hmatch =>
      cases hseal : p.sealHex with
      | none =>
        have hbare : Sealed.sealHex p = none := hseal
        rw [hbare] at hmatch
        simp [matchesSeal, he] at hmatch
      | some y =>
        have hsome : Sealed.sealHex p = some y := hseal
        rw [hsome] at hmatch
        obtain ⟨κ', hκ, hy⟩ := matchesSeal_some.1 hmatch
        obtain ⟨q, hq, active, hb⟩ := h.seals y (h.kept i p y hget hseal) κ' _ hy hκ rfl
        exact vouchedSeal_compute false hq (deactivated_congr hb) hx
    · exact h.seals x (h.kept i p x hget hx)

theorem vouched_step {κ : Key} (hk : st.key = some κ) (he : st.enforce = true) {e : Event} (h : Vouched st s)
    (hfair : Fair st s e) : Vouched st (step s e) := by
  refine h.of_rows fun i q x hget hx => ?_
  have hmono : ∀ y, VouchedSeal st s.made y → VouchedSeal st (step s e).made y := fun y hy =>
    hy.mono fun p hp => List.mem_append_left _ hp
  have hold : ∀ j r, s.db.principals.get j = some r → r.sealHex = some x → VouchedSeal st (step s e).made x :=
    fun j r hr hsealed => hmono x (h.seals x (h.kept j r x hr hsealed))
  have hinside : Inside st s e → VouchedSeal st (step s e).made x := by
    intro hin
    cases step_outcome hin with
    | quiet hrows _ _ => exact hold i q (hrows ▸ hget) hx
    | adds p _ hrows _ hmade _ =>
      rw [show (after s.db e).principals = _ from hrows, Table.get_insert] at hget
      split at hget
      · obtain rfl := Option.some.inj hget
        have hins : inserted st p = { p with sealHex := compute st .principal (Sealed.getattr p) } := by
          simp only [inserted, hk, Option.isNone_some, Bool.false_eq_true, if_false]
          rfl
        refine vouchedSeal_compute (p := inserted st p) (q := p) p.active ?_ (fun f _ => ?_) ?_
        · rw [hmade]
          exact List.mem_append_right _ (List.mem_singleton_self _)
        · rw [hins]
          cases f <;> rfl
        · rw [hins] at hx
          exact hx
      · exact hold i q hget hx
    | closes j p hfound hrows _ _ =>
      rw [show (after s.db e).principals = _ from hrows] at hget
      obtain ⟨r, hr, rfl | rfl⟩ := Table.get_update_cases hget
      · exact hold i q hr hx
      · exact hmono x (vouchedSeal_flushed he h hr hx)
  cases e with
  | sql t =>
    intro κ' b hb hκ hkind
    obtain ⟨κ'', hκ'', hmem⟩ := hfair i q hget κ' b (hx.trans (congrArg some hb)) hκ hkind
    exact hmono _ (h.seals _ hmem) κ'' b rfl hκ'' hkind
  | _ => exact hinside hfair

/-- **Whatever is written from outside, every stored digest is one of a principal the application minted.** -/
theorem vouched_run {κ : Key} (hk : st.key = some κ) (he : st.enforce = true) {d : Db} {events : List Event}
    (h : Along step (Fair st) (fresh d) events) : Vouched st (run step (fresh d) events) := by
  have h0 : Vouched st (fresh d) := by
    constructor
    · intro i p x hget
      cases hget
    · intro x hx
      cases hx
  exact run_inv (I := fun a => Vouched st a) (fun _ _ hI hfair => vouched_step hk he hI hfair) h0 h

/-- the app of a credential is there, and active -/
def LiveApp (d : Db) (appId : Option ℕ) : Prop := ∀ id, appId = some id → id ≠ 0 → ∃ app, d.apps.get id = some app ∧ app.status = .active

/-- the key the request presents: by a header, or as a bearer credential of this application -/
def Presents (cred : Credential) (raw : String) : Prop :=
  raw ≠ "" ∧ (cred.apiKey = some raw ∨ cred.bearer = some raw ∧ startsWith raw.toList "cdl_".toList = true)

/-- the actor is a principal the application minted under the key that is presented -/
def KeyGrounds (env : Env) (s : System) (cred : Credential) (a : Actor) : Prop :=
  ∃ raw, Presents cred raw ∧ ∃ p ∈ s.made, p.keyHash = env.sha256 raw ∧ a = ⟨p.name, p.role, p.appId⟩ ∧ LiveApp s.db p.appId

/-- the actor has the most privileged role the claims of a verified token map to, and an app the claims name -/
structure ClaimGrounds (t : Tokens) (cfg : OidcConfig) (d : Db) (claims : Json) (a : Actor) : Prop where
  role : ∃ roles before after, mappedRoles cfg claims = .ok roles ∧ a.role.text ∈ roles ∧
    ROLE_PRIORITY = before ++ a.role :: after ∧ ∀ r ∈ before, r.text ∉ roles
  name : ∃ subject, username cfg claims = .ok subject ∧ a.name = "idp:" ++ subject
  app : if a.role = .app then ∃ ref id app, dget claims cfg.appClaim = .ok ref ∧ appOfClaim t d ref = .ok (some (id, app)) ∧
      app.status = .active ∧ a.appId = some id else a.appId = none

/-- the actor comes from a token the provider's keys verify -/
def TokenGrounds (t : Tokens) (cfg : Option OidcConfig) (d : Db) (cred : Credential) (a : Actor) : Prop :=
  ∃ c token claims, cfg = some c ∧ cred.bearer = some token ∧ t.decode c token = .ok claims ∧ ClaimGrounds t c d claims a

theorem text_injective {r r' : Role} (h : r.text = r'.text) : r = r' := by
  cases r <;> cases r' <;> simp only [Role.text] at h <;> first
    | rfl
    | exact absurd h (by decide)
    | (subst h; first | rfl | (rename_i hknown; simp at hknown))

theorem presents_of_orText {cred : Credential} {raw : String}
    (h : (orText cred.apiKey (cred.bearer.filter fun b => startsWith b.toList "cdl_".toList)).filter (· ≠ "") = some raw) :
    Presents cred raw := by
  obtain ⟨hor, hne⟩ := Option.filter_eq_some_iff.1 h
  refine ⟨by simpa using hne, ?_⟩
  rcases Option.or_eq_some_iff.1 hor with hkey | ⟨-, hbearer⟩
  · exact Or.inl (Option.filter_eq_some_iff.1 hkey).1
  · obtain ⟨hb, hp⟩ := Option.filter_eq_some_iff.1 hbearer
    exact Or.inr ⟨hb, hp⟩

theorem liveApp_of_appActive {d : Db} {appId : Option ℕ} (h : appActive d appId = true) : LiveApp d appId := by
  intro id hid hne
  subst hid
  have hfilter : (some id).filter (· ≠ 0) = some id := by simp [hne]
  unfold appActive at h
  rw [hfilter] at h
  cases hget : d.apps.get id with
  | none => simp [hget] at h
  | some app => exact ⟨app, rfl, by simpa [hget] using h⟩

theorem key_grounds {κ : Key} (hk : st.key = some κ) (he : st.enforce = true) (hv : Vouched st s) {env : Env}
    (henv : env.st = st) {cred : Credential} {a : Actor} (h : apiKeyAuthenticate env s.db cred = .ok (some a)) :
    KeyGrounds env s cred a := by
  unfold apiKeyAuthenticate authenticate at h
  split at h
  · cases h
  · next raw hraw =>
    obtain ⟨found, hfound, h⟩ := except_bind_ok.1 h
    cases found with
    | none => cases h
    | some x =>
      obtain ⟨i, p⟩ := x
      obtain ⟨hget, hp⟩ := oneOrNone_some hfound
      obtain ⟨hhash, -⟩ := Bool.and_eq_true_iff.1 hp
      dsimp only at h
      split at h
      · next hlive =>
        obtain ⟨hverify, happ⟩ := Bool.and_eq_true_iff.1 hlive
        obtain rfl : a = ⟨p.name, p.role, p.appId⟩ := (Option.some.inj (Except.ok.inj h)).symm
        rw [henv] at hverify
        have hmatch := (verifyRow_iff hk).1 hverify
        cases hseal : p.sealHex with
        | none =>
          have hbare : (Sealed.row p).sealHex = none := hseal
          rw [hbare] at hmatch
          simp [matchesSeal, he] at hmatch
        | some y =>
          have hsome : (Sealed.row p).sealHex = some y := hseal
          rw [hsome] at hmatch
          obtain ⟨κ', hκ, hy⟩ := matchesSeal_some.1 hmatch
          obtain ⟨q, hq, active, hb⟩ := hv.seals y (hv.kept i p y hget hseal) κ' _ hy hκ rfl
          have hcols := (canonical_eq_iff.1 hb).2
          have hname : p.name = q.name := Json.str.inj (hcols .name (by decide))
          have hrole : p.role = q.role := text_injective (Json.str.inj (hcols .role (by decide)))
          have hkey : p.keyHash = q.keyHash := Json.str.inj (hcols .keyHash (by decide))
          have happId : p.appId = q.appId := Json.ofNat?_injective (hcols .appId (by decide))
          refine ⟨raw, presents_of_orText hraw, q, hq, ?_, ?_, ?_⟩
          · rw [← hkey]
            simpa using hhash
          · rw [hname, hrole, happId]
          · rw [← happId]
            exact liveApp_of_appActive happ
      · cases h

theorem actorFromToken_some {t : Tokens} {d : Db} {subject : String} {role : Role} {ref : Json} {a : Actor}
    (h : actorFromToken t d subject role ref = .ok (some a)) : a.role = role ∧ a.name = "idp:" ++ subject ∧
      if role = .app then ∃ id app, appOfClaim t d ref = .ok (some (id, app)) ∧ app.status = .active ∧ a.appId = some id
      else a.appId = none := by
  unfold actorFromToken at h
  by_cases happ : role = .app
  · rw [if_neg (not_not.2 happ)] at h
    rw [if_pos happ]
    split at h
    · cases h
    · obtain ⟨found, hfound, h⟩ := except_bind_ok.1 h
      cases found with
      | none => cases h
      | some x =>
        obtain ⟨id, app⟩ := x
        obtain ⟨hactive, rfl⟩ : app.status = .active ∧ ⟨"idp:" ++ subject, .app, some id⟩ = a := by
          simpa [Option.ite_none_right_eq_some] using except_pure_ok.1 h
        exact ⟨happ.symm, rfl, id, app, hfound, hactive, rfl⟩
  · rw [if_pos happ] at h
    cases h
    rw [if_neg happ]
    exact ⟨rfl, rfl, rfl⟩

theorem claim_grounds {t : Tokens} {cfg : OidcConfig} {d : Db} {claims : Json} {a : Actor}
    (h : actorOfClaims t cfg d claims = .ok (some a)) : ClaimGrounds t cfg d claims a := by
  unfold actorOfClaims at h
  obtain ⟨role?, hrole, h⟩ := except_bind_ok.1 h
  cases role? with
  | none => cases h
  | some role =>
    obtain ⟨subject, hsubject, h⟩ := except_bind_ok.1 h
    obtain ⟨ref, href, h⟩ := except_bind_ok.1 h
    obtain ⟨rfl, hname, happ⟩ := actorFromToken_some h
    unfold roleFor at hrole
    obtain ⟨roles, hroles, hfind⟩ := except_bind_ok.1 hrole
    obtain ⟨hmapped, before, rest, hsplit, hbefore⟩ := List.find?_eq_some_iff_append.1 (except_pure_ok.1 hfind)
    refine ⟨⟨roles, before, rest, hroles, by simpa using hmapped, hsplit, fun r hr => by simpa using hbefore r hr⟩,
      ⟨subject, hsubject, hname⟩, ?_⟩
    split
    · next hrole =>
      rw [if_pos hrole] at happ
      obtain ⟨id, app, hfound, hactive, hid⟩ := happ
      exact ⟨ref, id, app, href, hfound, hactive, hid⟩
    · next hrole =>
      rw [if_neg hrole] at happ
      exact happ

theorem token_grounds {t : Tokens} {cfg : Option OidcConfig} {d : Db} {cred : Credential} {a : Actor}
    (h : tokenActor t cfg d cred = .ok (some a)) : TokenGrounds t cfg d cred a := by
  cases cfg with
  | none => cases h
  | some c =>
    unfold tokenActor oidcAuthenticate at h
    dsimp only at h
    split at h
    · cases h
    · next token htoken =>
      split at h
      · cases h
      · next claims hdecode =>
        exact ⟨c, token, claims, rfl, (Option.filter_eq_some_iff.1 htoken).1, hdecode, claim_grounds h⟩

/-- **Whatever is written into the principals from outside without forging a seal**, an actor comes from a verified token,
with the most privileged role its claims map to, or was minted by the application under the key that is presented. -/
theorem actor_has_grounds {κ : Key} (hk : st.key = some κ) (he : st.enforce = true) {d : Db} {events : List Event}
    (h : Along step (Fair st) (fresh d) events) {env : Env} (henv : env.st = st) {t : Tokens} {cfg : Option OidcConfig}
    {cred : Credential} {a : Actor}
    (ha : authenticateRequest t cfg env (run step (fresh d) events).db cred = .ok (some a)) :
    TokenGrounds t cfg (run step (fresh d) events).db cred a ∨ KeyGrounds env (run step (fresh d) events) cred a := by
  unfold authenticateRequest at ha
  obtain ⟨found, htoken, ha⟩ := except_bind_ok.1 ha
  cases found with
  | some b =>
    cases ha
    exact Or.inl (token_grounds htoken)
  | none => exact Or.inr (key_grounds hk he (vouched_run hk he h) henv ha)

end Grounds

/-! ## The directory -/

/-- what a key is good for: the principal minted under it, unless it was deactivated -/
def directory (env : Env) (s : System) (rawKey : Option String) : Option Actor :=
  (rawKey.filter (· ≠ "")).bind fun raw =>
    (s.made.find? fun p => p.keyHash = env.sha256 raw && decide (p.name ∉ s.closed) && appActive s.db p.appId).map fun p =>
      ⟨p.name, p.role, p.appId⟩

/-- who a principal is -/
def ident (p : Principal) : String × Role × String × Option ℕ := (p.name, p.role, p.keyHash, p.appId)

/-- the table holds what was minted, each under a name and a key of its own, and the active ones are those not deactivated -/
structure Directory (st : SealState) (s : System) : Prop where
  rows : s.db.principals.vals.map ident = s.made.map ident
  active : ∀ i p, s.db.principals.get i = some p → (p.active = true ↔ p.name ∉ s.closed)
  seals : ∀ i p, s.db.principals.get i = some p → verify st p = true
  names : s.db.principals.UniqueBy Principal.name
  keys : s.db.principals.UniqueBy Principal.keyHash
  closed : ∀ n ∈ s.closed, ∃ i p, s.db.principals.get i = some p ∧ p.name = n

section Directories

variable {st : SealState} {s s' : System}

theorem ident_inserted (p : Principal) : ident (inserted st p) = ident p := by
  rcases inserted_eq st p with h | ⟨x, h⟩
  · rw [h]
  · rw [h]
    rfl

theorem active_inserted (p : Principal) : (inserted st p).active = p.active := by
  rcases inserted_eq st p with h | ⟨x, h⟩
  · rw [h]
  · rw [h]
    rfl

theorem ident_flushed (p : Principal) : ident (flushed st p { p with active := false }) = ident p := by
  rcases flushed_eq st p { p with active := false } with h | ⟨x, h⟩
  · rw [h]
    rfl
  · rw [h]
    rfl

theorem active_flushed (p : Principal) : (flushed st p { p with active := false }).active = false := by
  rcases flushed_eq st p { p with active := false } with h | ⟨x, h⟩
  · rw [h]
  · rw [h]
    rfl

theorem name_of_ident {p q : Principal} (h : ident p = ident q) : p.name = q.name := congrArg Prod.fst h

theorem keyHash_of_ident {p q : Principal} (h : ident p = ident q) : p.keyHash = q.keyHash := congrArg (·.2.2.1) h

theorem verify_inserted_principal (p : Principal) : verify st (inserted st p) = true := by
  cases hk : st.key with
  | none => simp [verify, verifyRow, hk]
  | some κ => exact verify_inserted hk p

theorem verify_flushed_principal {p q : Principal} (h : verify st p = true) : verify st (flushed st p q) = true := by
  cases hk : st.key with
  | none => simp [verify, verifyRow, hk]
  | some κ => exact verify_flushed hk h

theorem Directory.adds (h : Directory st s) {p : Principal} (hactive : p.active = true)
    (hrows : s'.db.principals = s.db.principals.insert (inserted st p)) (hown : Own s.db.principals p.name p.keyHash)
    (hmade : s'.made = s.made ++ [inserted st p]) (hclosed : s'.closed = s.closed) : Directory st s' := by
  have hident : ident (inserted st p) = ident p := ident_inserted p
  have hfresh : p.name ∉ s.closed := by
    intro hmem
    obtain ⟨i, q, hq, hname⟩ := h.closed _ hmem
    exact (hown i q hq).1 hname
  constructor
  · rw [hrows, hmade]
    simp only [Table.vals, Table.insert]
    rw [List.map_append, List.map_append, List.map_append]
    exact congrArg (· ++ [ident (inserted st p)]) h.rows
  · intro i q hget
    rw [hrows, Table.get_insert] at hget
    rw [hclosed]
    split at hget
    · cases hget
      rw [active_inserted, name_of_ident hident]
      exact iff_of_true hactive hfresh
    · exact h.active i q hget
  · intro i q hget
    rw [hrows, Table.get_insert] at hget
    split at hget
    · cases hget
      exact verify_inserted_principal p
    · exact h.seals i q hget
  · rw [hrows]
    refine h.names.insert fun i q hq => ?_
    rw [name_of_ident hident]
    exact (hown i q hq).1
  · rw [hrows]
    refine h.keys.insert fun i q hq => ?_
    rw [keyHash_of_ident hident]
    exact (hown i q hq).2
  · intro n hn
    rw [hclosed] at hn
    obtain ⟨i, q, hq, hname⟩ := h.closed n hn
    refine ⟨i, q, ?_, hname⟩
    rw [hrows]
    exact Table.get_insert_of_some hq

theorem Directory.closes (h : Directory st s) {i : ℕ} {p : Principal} (hfound : s.db.principals.get i = some p)
    (hrows : s'.db.principals = s.db.principals.update i fun p => flushed st p { p with active := false })
    (hmade : s'.made = s.made) (hclosed : s'.closed = s.closed ++ [p.name]) : Directory st s' := by
  have hself : s'.db.principals.get i = some (flushed st p { p with active := false }) := by
    rw [hrows, Table.get_update_self, hfound]
    rfl
  have hother : ∀ j, j ≠ i → s'.db.principals.get j = s.db.principals.get j := by
    intro j hj
    rw [hrows, Table.get_update_of_ne _ _ hj]
  constructor
  · rw [hrows, hmade, ← h.rows]
    unfold Table.vals
    rw [List.map_map, List.map_map]
    exact Table.map_rows_update _ fun a => ident_flushed a
  · intro j q hget
    rw [hclosed]
    by_cases hj : j = i
    · subst hj
      rw [hself] at hget
      cases hget
      rw [active_flushed, name_of_ident (ident_flushed p)]
      simp
    · rw [hother j hj] at hget
      rw [h.active j q hget, List.mem_append, not_or]
      refine ⟨fun hn => ⟨hn, fun hsame => hj ?_⟩, fun hn => hn.1⟩
      exact h.names j i q p hget hfound (List.mem_singleton.1 hsame)
  · intro j q hget
    by_cases hj : j = i
    · subst hj
      rw [hself] at hget
      cases hget
      exact verify_flushed_principal (h.seals j p hfound)
    · rw [hother j hj] at hget
      exact h.seals j q hget
  · rw [hrows]
    exact h.names.update (fun a => name_of_ident (ident_flushed a)) i
  · rw [hrows]
    exact h.keys.update (fun a => keyHash_of_ident (ident_flushed a)) i
  · intro n hn
    rw [hclosed] at hn
    rcases List.mem_append.1 hn with hn | hn
    · obtain ⟨j, q, hq, hname⟩ := h.closed n hn
      by_cases hj : j = i
      · subst hj
        obtain rfl := Option.some.inj (hq.symm.trans hfound)
        exact ⟨j, _, hself, (name_of_ident (ident_flushed q)).trans hname⟩
      · exact ⟨j, q, (hother j hj).trans hq, hname⟩
    · obtain rfl := List.mem_singleton.1 hn
      exact ⟨i, _, hself, name_of_ident (ident_flushed p)⟩

theorem directory_step {e : Event} (h : Directory st s) (hin : Inside st s e) : Directory st (step s e) := by
  cases step_outcome hin with
  | quiet hrows hmade hclosed =>
    obtain ⟨rows, active, seals, names, keys, closed⟩ := h
    constructor
    · rw [hrows, hmade]
      exact rows
    · rw [hrows, hclosed]
      exact active
    · rw [hrows]
      exact seals
    · rw [hrows]
      exact names
    · rw [hrows]
      exact keys
    · rw [hrows, hclosed]
      exact closed
  | adds p hactive hrows hown hmade hclosed => exact h.adds hactive hrows hown hmade hclosed
  | closes i p hfound hrows hmade hclosed => exact h.closes hfound hrows hmade hclosed

theorem directory_run {d : Db} {events : List Event} (h : Along step (Inside st) (fresh d) events) :
    Directory st (run step (fresh d) events) := by
  have h0 : Directory st (fresh d) := by
    constructor
    · rfl
    · intro i p hget
      cases hget
    · intro i p hget
      cases hget
    · intro i j p q hp
      cases hp
    · intro i j p q hp
      cases hp
    · intro n hn
      cases hn
  exact run_inv (I := fun a => Directory st a) (fun _ _ hI hin => directory_step hI hin) h0 h

theorem Directory.row (h : Directory st s) {q : Principal} (hq : q ∈ s.made) :
    ∃ i p, s.db.principals.get i = some p ∧ ident p = ident q := by
  have hmem : ident q ∈ s.db.principals.vals.map ident := h.rows ▸ List.mem_map_of_mem hq
  obtain ⟨p, hp, hident⟩ := List.mem_map.1 hmem
  obtain ⟨⟨i, p⟩, hrow, rfl⟩ := List.mem_map.1 hp
  exact ⟨i, p, Table.mem_rows.1 hrow, hident⟩

theorem Directory.minted (h : Directory st s) {i : ℕ} {p : Principal} (hget : s.db.principals.get i = some p) :
    ∃ q ∈ s.made, ident q = ident p := by
  have hval : p ∈ s.db.principals.vals := List.mem_map.2 ⟨(i, p), Table.mem_rows.2 hget, rfl⟩
  exact List.mem_map.1 (h.rows ▸ List.mem_map_of_mem hval)

theorem oneOrNone_nothing {α : Type} {t : Table α} {p : α → Bool} (h : ∀ i a, t.get i = some a → p a = false) :
    oneOrNone t p = .ok none := by
  have hall : t.all p = [] := by
    refine List.eq_nil_iff_forall_not_mem.2 fun q hq => ?_
    obtain ⟨i, a⟩ := q
    obtain ⟨hget, hp⟩ := Table.mem_all.1 hq
    simp [h i a hget] at hp
  unfold oneOrNone
  rw [hall]

theorem Directory.authenticate (h : Directory st s) {env : Env} (henv : env.st = st) (rawKey : Option String) :
    Auth.authenticate env s.db rawKey = .ok (directory env s rawKey) := by
  unfold Auth.authenticate directory
  cases hraw : rawKey.filter (· ≠ "") with
  | none => rfl
  | some raw =>
    dsimp only [Option.bind_some]
    by_cases hrow : ∃ i p, s.db.principals.get i = some p ∧ (p.keyHash = env.sha256 raw ∧ p.active = true)
    · obtain ⟨i, p, hget, hhash, hactive⟩ := hrow
      have hsame : ∀ q ∈ s.made, q.keyHash = env.sha256 raw → ident q = ident p := by
        intro q hq hkey
        obtain ⟨j, r, hr, hident⟩ := h.row hq
        have hij : j = i := h.keys j i r p hr hget ((keyHash_of_ident hident).trans (hkey.trans hhash.symm))
        subst hij
        obtain rfl := Option.some.inj (hr.symm.trans hget)
        exact hident.symm
      have hone : oneOrNone s.db.principals (fun p => p.keyHash = env.sha256 raw && p.active) = .ok (some (i, p)) := by
        refine oneOrNone_unique hget (by simp [hhash, hactive]) fun j r hr hp => ?_
        obtain ⟨hkey, -⟩ := Bool.and_eq_true_iff.1 hp
        exact h.keys j i r p hr hget ((of_decide_eq_true hkey).trans hhash.symm)
      have hopen : p.name ∉ s.closed := (h.active i p hget).1 hactive
      obtain ⟨q, hq, hident⟩ := h.minted hget
      have happ : q.appId = p.appId := congrArg (·.2.2.2) hident
      rw [hone, except_ok_bind]
      dsimp only
      rw [henv, h.seals i p hget, Bool.true_and]
      cases hfind : s.made.find? fun p => p.keyHash = env.sha256 raw && decide (p.name ∉ s.closed) && appActive s.db p.appId with
      | some q' =>
        have hmatch := List.find?_some hfind
        simp only [Bool.and_eq_true, decide_eq_true_eq] at hmatch
        have hident' := hsame q' (List.mem_of_find?_eq_some hfind) hmatch.1.1
        have happ' : q'.appId = p.appId := congrArg (·.2.2.2) hident'
        have hrole : q'.role = p.role := congrArg (·.2.1) hident'
        rw [← happ', hmatch.2, ← name_of_ident hident', ← hrole]
        rfl
      | none =>
        have hnone := List.find?_eq_none.1 hfind q hq
        simp only [keyHash_of_ident hident, hhash, name_of_ident hident, hopen, happ, not_false_eq_true, decide_true,
          Bool.true_and, Bool.not_eq_true] at hnone
        rw [hnone]
        rfl
    · have hnone : ∀ q ∈ s.made, q.keyHash = env.sha256 raw → q.name ∈ s.closed := by
        intro q hq hkey
        obtain ⟨i, p, hget, hident⟩ := h.row hq
        by_contra hopen
        refine hrow ⟨i, p, hget, (keyHash_of_ident hident).trans hkey, (h.active i p hget).2 ?_⟩
        rw [name_of_ident hident]
        exact hopen
      rw [oneOrNone_nothing fun i p hget => ?_, List.find?_eq_none.2 fun q hq => ?_]
      · rfl
      · intro hmatch
        simp only [Bool.and_eq_true, decide_eq_true_eq] at hmatch
        exact hmatch.1.2 (hnone q hq hmatch.1.1)
      · by_contra hmatch
        simp only [Bool.not_eq_false, Bool.and_eq_true, decide_eq_true_eq] at hmatch
        exact hrow ⟨i, p, hget, hmatch⟩

/-- **Without writes from outside, the table with its seals is a directory**: an API key is good for the principal it was
minted for, from that call to the one that deactivates it, and for nobody after; and the check never fails. -/
theorem keys_refine {d : Db} {events : List Event} (h : Along step (Inside st) (fresh d) events) {env : Env}
    (henv : env.st = st) (rawKey : Option String) :
    Auth.authenticate env (run step (fresh d) events).db rawKey = .ok (directory env (run step (fresh d) events) rawKey) :=
  (directory_run h).authenticate henv rawKey

end Directories

/-! ### A small deployment -/

section Examples

def root : Actor := ⟨"root", .admin, none⟩

/-- the bootstrap admin, and an operator who leaves -/
def smallEvents : List Event :=
  [.create demoEnv none "root" .admin none "k1", .create demoEnv (some root) "olga" .operator none "k2",
    .deactivate demoEnv root "olga"]

theorem small_inside : Along step (Inside demoState) (fresh Db.empty) smallEvents :=
  (along_cons _ _ _).2 ⟨rfl, (along_cons _ _ _).2 ⟨rfl, (along_cons _ _ _).2 ⟨rfl, along_nil _⟩⟩⟩

/-- the key of the one who left is good for nothing -/
theorem small_keys :
    authenticate demoEnv (run step (fresh Db.empty) smallEvents).db (some "k2") = .ok none :=
  (@keys_refine demoState Db.empty smallEvents small_inside demoEnv rfl (some "k2")).trans
    (congrArg Except.ok (by decide))

/-- the table before the operator left -/
def before : System := run step (fresh Db.empty) (smallEvents.take 2)

/-- the operator's old row, written back from outside: its seal is one the application made, and the key works again -/
def replayed : List Event := smallEvents ++ [.sql before.db.principals]

theorem replayed_fair : Along step (Fair demoState) (fresh Db.empty) replayed := by
  refine (along_append _ _ _).2 ⟨?_, (along_cons _ _ _).2 ⟨?_, along_nil _⟩⟩
  · exact (along_cons _ _ _).2 ⟨rfl, (along_cons _ _ _).2 ⟨rfl, (along_cons _ _ _).2 ⟨rfl, along_nil _⟩⟩⟩
  · intro i p hget κ b hx hκ hkind
    have hfair : Along step (Fair demoState) (fresh Db.empty) (smallEvents.take 2) :=
      (along_cons _ _ _).2 ⟨rfl, (along_cons _ _ _).2 ⟨rfl, along_nil _⟩⟩
    have hkept := (@vouched_run demoState "key" rfl rfl Db.empty _ hfair).kept i p _ hget hx
    exact ⟨κ, hκ, List.mem_append_left _ hkept⟩

/-- no key is presented to a provider -/
def noTokens : Tokens := ⟨fun _ _ => .error "no provider", fun _ => none⟩

theorem replayed_grounds : TokenGrounds noTokens none (run step (fresh Db.empty) replayed).db ⟨some "k2", none⟩
      ⟨"olga", .operator, none⟩ ∨
    KeyGrounds demoEnv (run step (fresh Db.empty) replayed) ⟨some "k2", none⟩ ⟨"olga", .operator, none⟩ :=
  @actor_has_grounds demoState "key" rfl rfl Db.empty replayed replayed_fair demoEnv rfl noTokens none ⟨some "k2", none⟩
    ⟨"olga", .operator, none⟩ rfl

end Examples

end Certadillo.Auth
