/-
What an ACME issuer does to the outside, against any CA and any DNS provider.

- `sign_cleans_up`: however `sign` ends, it has removed every record it published, in order and each once, and removed nothing
  else; the records are under `_acme-challenge.`, and their values are made from the issuer's own account key.
- `nonces_spent_once`: in every run of calls on an issuer a request carries the nonce the CA handed out last, and no nonce is
  sent twice.
- `sign_ends`: `sign` comes to an end, where the clock goes on.

The log of the outside is kept by a world around the world (`World.logged`), the client is the same.
-/
import Certadillo.Issuers.AcmeClient
import Certadillo.Lib.Run

namespace Certadillo.AcmeClient

open Py Bytes Machine

/-! ## A log of the outside -/

inductive Event where
  | head (nonce : Option String)
  /-- a request with its nonce, and the nonce that came back -/
  | post (nonce : String) (next : Option String)
  | setTxt (fqdn value : String) (done : Bool)
  | clearTxt (fqdn value : String)
deriving DecidableEq

variable {σ Key Cert : Type}

def nonceOf : Except Err Response → Option String
  | .ok r => r.replayNonce
  | .error _ => none

def isOk {α : Type} : Except Err α → Bool
  | .ok _ => true
  | .error _ => false

/-- what an exchange leaves, and what it adds to the log -/
def logging {α : Type} (x : Except Err α × σ) (log es : List Event) : Except Err α × σ × List Event := (x.1, x.2, log ++ es)

/-- the same outside, with a log -/
def World.logged (w : World σ Key Cert) : World (σ × List Event) Key Cert where
  get url s := logging (w.get url s.1) s.2 []
  head url s := logging (w.head url s.1) s.2 [.head (nonceOf (w.head url s.1).1)]
  post url jws s := logging (w.post url jws s.1) s.2 [.post jws.header.nonce (nonceOf (w.post url jws s.1).1)]
  setTxt fqdn value s := logging (w.setTxt fqdn value s.1) s.2 [.setTxt fqdn value (isOk (w.setTxt fqdn value s.1).1)]
  clearTxt fqdn value s := logging (w.clearTxt fqdn value s.1) s.2 [.clearTxt fqdn value]
  keyFile s := w.keyFile s.1
  generateKey s := ((w.generateKey s.1).1, (w.generateKey s.1).2, s.2)
  writeKey k s := logging (w.writeKey k s.1) s.2 []
  monotonic s := w.monotonic s.1
  sleep d s := (w.sleep d s.1, s.2)
  publicNumbers := w.publicNumbers
  signature k data s := w.signature k data s.1
  sha256 := w.sha256
  hmacSha256 := w.hmacSha256
  dumps := w.dumps
  compact := w.compact
  format := w.format
  resolve ref s := w.resolve ref s.1
  loadCertificates := w.loadCertificates

/-- the nonce that may be sent next: the last one handed out, until it is sent -/
def unspent : Option String → List Event → Option String
  | h, [] => h
  | h, .head n :: es => unspent (n.or h) es
  | _, .post _ next :: es => unspent next es
  | h, .setTxt .. :: es => unspent h es
  | h, .clearTxt .. :: es => unspent h es

/-- every request carries the nonce that may be sent next -/
def Spends : Option String → List Event → Prop
  | _, [] => True
  | h, .head n :: es => Spends (n.or h) es
  | h, .post n next :: es => h = some n ∧ Spends next es
  | h, .setTxt .. :: es => Spends h es
  | h, .clearTxt .. :: es => Spends h es

theorem unspent_append (h : Option String) (a b : List Event) : unspent h (a ++ b) = unspent (unspent h a) b := by
  induction a generalizing h with
  | nil => rfl
  | cons e a ih => cases e <;> exact ih _

theorem spends_append {h : Option String} {a b : List Event} : Spends h (a ++ b) ↔ Spends h a ∧ Spends (unspent h a) b := by
  induction a generalizing h with
  | nil => simp [Spends, unspent]
  | cons e a ih =>
    cases e with
    | head n => exact ih
    | post n next => simp only [List.cons_append, Spends, unspent, ih, and_assoc]
    | setTxt f v d => exact ih
    | clearTxt f v => exact ih

/-- the DNS updates of a log -/
def dns (log : List Event) : List Event := log.filter fun
  | .setTxt .. | .clearTxt .. => true
  | _ => false

/-- a record asked for, and whether the provider took it -/
structure Publication where
  fqdn : String
  value : String
  done : Bool

def Publication.event (x : Publication) : Event := .setTxt x.fqdn x.value x.done

def Publication.record (x : Publication) : String × String := (x.fqdn, x.value)

def clearing (p : String × String) : Event := .clearTxt p.1 p.2

/-- the records that were taken -/
def taken (sets : List Publication) : List (String × String) := (sets.filter (·.done)).map Publication.record

/-- a challenge's record, made from this account key -/
def Proper (w : World σ Key Cert) (key : Option Key) (x : Publication) : Prop :=
  ∃ k token domain, key = some k ∧ x.fqdn = recordName domain ∧ x.value = recordValue w token (thumbprintOf w k)

/-! ## Invariants -/

/-- the issuer and the log, after these records, while these ones are removed again -/
structure Inv (w : World σ Key Cert) (base : List Event) (sets : List Publication) (cleared pub : List (String × String))
    (s : Issuer (σ × List Event) Key) : Prop where
  spends : Spends none s.outside.2
  nonce : ∀ n, s.nonce = some n → n ≠ "" → unspent none s.outside.2 = some n
  dns : dns s.outside.2 = base ++ sets.map Publication.event ++ cleared.map clearing
  published : s.published = pub
  proper : ∀ x ∈ sets, Proper w s.key x

/-- the issuer keeps no nonce; an empty one is none -/
def NoNonce (s : Issuer (σ × List Event) Key) : Prop := ∀ n, s.nonce = some n → n = ""

/-- the same, with a nonce in hand that may be sent -/
structure InHand (w : World σ Key Cert) (base : List Event) (sets : List Publication) (cleared pub : List (String × String))
    (n : String) (s : Issuer (σ × List Event) Key) : Prop where
  inv : Inv w base sets cleared pub s
  spent : NoNonce s
  hand : unspent none s.outside.2 = some n

/-- what an assertion must bear: exchanges that are not logged, and a first account key -/
structure Closed (P : Issuer (σ × List Event) Key → Prop) : Prop where
  quiet : ∀ s x, P s → P { s with outside := (x, s.outside.2) }
  key : ∀ s k, P s → s.key = none → P { s with key := some k }
  directory : ∀ s d, P s → P { s with directory := some d }

section Plumbing

variable {w : World σ Key Cert} {cfg : Config} {base : List Event} {sets : List Publication}
  {cleared pub : List (String × String)} {n : String} {P : Issuer (σ × List Event) Key → Prop}

theorem Proper.first {key : Option Key} {k : Key} {x : Publication} (h : Proper w key x) (hkey : key = none) :
    Proper w (some k) x := by
  obtain ⟨k', _, _, hk, -⟩ := h
  rw [hkey] at hk
  cases hk

theorem closed_inv : Closed (Inv w base sets cleared pub) where
  quiet _ _ h := ⟨h.spends, h.nonce, h.dns, h.published, h.proper⟩
  key _ _ h hkey := ⟨h.spends, h.nonce, h.dns, h.published, fun x hx => (h.proper x hx).first hkey⟩
  directory _ _ h := ⟨h.spends, h.nonce, h.dns, h.published, h.proper⟩

theorem closed_inHand : Closed (InHand w base sets cleared pub n) where
  quiet _ _ h := ⟨closed_inv.quiet _ _ h.inv, h.spent, h.hand⟩
  key _ _ h hkey := ⟨closed_inv.key _ _ h.inv hkey, h.spent, h.hand⟩
  directory _ _ h := ⟨closed_inv.directory _ _ h.inv, h.spent, h.hand⟩

theorem accountKey_keeps (hP : Closed P) :
    Prog.Holds P (accountKey w.logged) (fun k s => P s ∧ s.key = some k) fun _ => P := by
  unfold accountKey
  refine Prog.holds_get_bind fun d hd => ?_
  cases hkey : d.key with
  | some k =>
    refine Prog.holds_pure k fun s h => ?_
    obtain ⟨hs, rfl⟩ := h
    exact ⟨hs, hkey⟩
  | none =>
    dsimp only
    cases w.logged.keyFile d.outside with
    | unreadable e => exact Prog.holds_raise e fun s h => h.1
    | key k =>
      refine Prog.holds_bind (Q := fun _ s => P s ∧ s.key = some k) (Prog.holds_modify fun s h => ?_) fun _ =>
        Prog.holds_pure k fun s h => h
      obtain ⟨hs, rfl⟩ := h
      exact ⟨hP.key s k hs hkey, rfl⟩
    | missing =>
      refine Prog.holds_bind (Q := fun _ s => P s ∧ s.key = none) ?_ fun k => ?_
      · refine (Prog.holds_talk_state (R := fun s => P s ∧ s.key = none) fun s h => ?_).mono (fun _ h => h) (fun _ _ h => h)
          fun _ _ h => h.1
        obtain ⟨hs, rfl⟩ := h
        exact ⟨hP.quiet s _ hs, hkey⟩
      · refine Prog.holds_bind (Q := fun _ s => P s ∧ s.key = some k) (Prog.holds_modify fun s h => ⟨hP.key s k h.1 h.2, rfl⟩)
          fun _ => ?_
        refine Prog.holds_bind (Q := fun _ s => P s ∧ s.key = some k) ?_ fun _ => Prog.holds_pure k fun s h => h
        refine (Prog.holds_talk_state (R := fun s => P s ∧ s.key = some k) fun s h => ?_).mono (fun _ h => h) (fun _ _ h => h)
          fun _ _ h => h.1
        simp only [World.logged, logging, List.append_nil]
        exact ⟨hP.quiet s _ h.1, h.2⟩

theorem jwk_keeps (hP : Closed P) : Prog.Holds P (jwk w.logged) (fun _ => P) fun _ => P :=
  Prog.holds_bind (accountKey_keeps hP) fun _ => Prog.holds_pure _ fun _ h => h.1

theorem signJws_keeps (hP : Closed P) (header : Header) (payload : Option Json) :
    Prog.Holds P (signJws w.logged header payload) (fun jws s => P s ∧ jws.header = header) fun _ => P := by
  refine Prog.holds_bind ((accountKey_keeps hP).post fun _ _ h => h.1) fun k => ?_
  exact Prog.holds_get_bind fun d hd => Prog.holds_pure _ fun s h => ⟨h.1, rfl⟩

theorem directory_keeps (hP : Closed P) : Prog.Holds P (directory w.logged cfg) (fun _ => P) fun _ => P := by
  unfold directory
  refine Prog.holds_get_bind fun d hd => ?_
  cases d.directory with
  | some v => exact Prog.holds_pure v fun s h => h.1
  | none =>
    refine Prog.holds_bind (Q := fun _ => P) ((Prog.holds_talk_state fun s h => ?_).pre fun s h => h.1) fun r => ?_
    · simp only [World.logged, logging, List.append_nil]
      exact hP.quiet s _ h
    · split
      · exact Prog.holds_raise _ fun _ h => h
      · refine Prog.holds_keep_bind Prog.holds_ofExcept_keep fun v => Prog.holds_bind (Q := fun _ => P)
          (Prog.holds_modify fun s h => hP.directory s v h) fun _ => Prog.holds_pure v fun _ h => h

theorem resource_keeps (hP : Closed P) (name : String) :
    Prog.Holds P (resource w.logged cfg name) (fun _ => P) fun _ => P :=
  Prog.holds_keep_bind (directory_keeps hP) fun _ => Prog.holds_ofExcept_keep

theorem unspent_snoc (log : List Event) (e : Event) : unspent none (log ++ [e]) = unspent (unspent none log) [e] :=
  unspent_append none log [e]

theorem dns_snoc (log : List Event) (e : Event) : dns (log ++ [e]) = dns log ++ dns [e] := List.filter_append _ _

/-- a nonce that is asked for is in the log -/
theorem inv_head {s : Issuer (σ × List Event) Key} (h : Inv w base sets cleared pub s) (hno : NoNonce s) (x : σ)
    (m : Option String) : Inv w base sets cleared pub { s with outside := (x, s.outside.2 ++ [.head m]) } := by
  refine ⟨spends_append.2 ⟨h.spends, trivial⟩, fun n hn hne => absurd (hno n hn) hne, ?_, h.published, h.proper⟩
  rw [dns_snoc, h.dns]
  exact List.append_nil _

/-- a new nonce is in hand -/
theorem newNonce_hands :
    Prog.Holds (fun s => Inv w base sets cleared pub s ∧ NoNonce s) (newNonce w.logged cfg)
      (fun n s => InHand w base sets cleared pub n s) fun _ => Inv w base sets cleared pub := by
  have hclosed : Closed fun s : Issuer (σ × List Event) Key => Inv w base sets cleared pub s ∧ NoNonce s :=
    ⟨fun s x h => ⟨closed_inv.quiet s x h.1, h.2⟩, fun s k h hk => ⟨closed_inv.key s k h.1 hk, h.2⟩,
      fun s d h => ⟨closed_inv.directory s d h.1, h.2⟩⟩
  refine Prog.holds_bind ((resource_keeps hclosed "newNonce").mono (fun _ h => h) (fun _ _ h => h) fun _ _ h => h.1)
    fun url => ?_
  refine Prog.holds_bind (Q := fun r s => (Inv w base sets cleared pub s ∧ NoNonce s) ∧
    ∀ n, r.replayNonce = some n → unspent none s.outside.2 = some n) (Prog.holds_talk ?_ ?_) fun r => ?_
  · intro r s s' hrun h
    obtain ⟨hr, rfl⟩ := Prod.mk.inj hrun
    refine ⟨⟨inv_head h.1 h.2 _ _, h.2⟩, fun n hn => ?_⟩
    simp only [World.logged, logging] at hr ⊢
    rw [unspent_snoc, hr]
    simp [unspent, nonceOf, hn]
  · intro e s s' hrun h
    obtain ⟨-, rfl⟩ := Prod.mk.inj hrun
    exact inv_head h.1 h.2 _ _
  · refine Prog.holds_ofExcept (fun n s hn h => ?_) fun _ _ _ h => h.1.1
    cases hnonce : r.replayNonce with
    | none =>
      rw [hnonce] at hn
      cases hn
    | some m =>
      rw [hnonce] at hn
      cases hn
      exact ⟨h.1.1, h.1.2, h.2 n hnonce⟩

theorem takeNonce_hands :
    Prog.Holds (Inv w base sets cleared pub) (takeNonce w.logged cfg) (fun n s => InHand w base sets cleared pub n s)
      fun _ => Inv w base sets cleared pub := by
  refine Prog.holds_get_bind fun d hd => ?_
  refine Prog.holds_bind (Q := fun n s => Inv w base sets cleared pub s ∧ unspent none s.outside.2 = some n) ?_ fun n => ?_
  · unfold nonceOr
    cases hnonce : d.nonce.filter (· ≠ "") with
    | some n =>
      obtain ⟨hn, hne⟩ := Option.filter_eq_some_iff.1 hnonce
      refine Prog.holds_pure n fun s h => ⟨h.1, ?_⟩
      rw [h.2]
      exact hd.nonce n hn (by simpa using hne)
    | none =>
      have hno : NoNonce d := by
        intro n hn
        have h := Option.filter_eq_none_iff.1 hnonce n hn
        simpa using h
      refine newNonce_hands.mono (fun s h => ⟨h.1, ?_⟩) (fun n s h => ⟨h.inv, h.hand⟩) fun _ _ h => h
      rw [h.2]
      exact hno
  · refine Prog.holds_bind (Q := fun _ s => InHand w base sets cleared pub n s) (Prog.holds_modify fun s h => ?_) fun _ =>
      Prog.holds_pure n fun _ h => h
    obtain ⟨h, hhand⟩ := h
    have hno : ∀ m, (none : Option String) = some m → m = "" := fun m hm => by cases hm
    exact ⟨⟨h.spends, fun m hm => absurd (hno m hm), h.dns, h.published, h.proper⟩, hno, hhand⟩

/-- a request is sent with the nonce in hand, and the one that comes back is kept -/
theorem postOnce_keeps (url : String) (payload : Option Json) (useJwk : Bool) :
    Prog.Holds (Inv w base sets cleared pub) (postOnce w.logged cfg url payload useJwk) (fun _ => Inv w base sets cleared pub)
      fun _ => Inv w base sets cleared pub := by
  refine Prog.holds_bind takeNonce_hands fun nonce => ?_
  have hkey : Prog.Holds (InHand w base sets cleared pub nonce) (keyIdOf w.logged useJwk)
      (fun _ => InHand w base sets cleared pub nonce) fun _ => Inv w base sets cleared pub := by
    unfold keyIdOf
    split
    · refine Prog.holds_bind ((jwk_keeps closed_inHand).mono (fun _ h => h) (fun _ _ h => h) fun _ _ h => h.inv) fun v => ?_
      exact Prog.holds_pure _ fun _ h => h
    · exact Prog.holds_get_bind fun d hd => Prog.holds_pure _ fun _ h => h.1
  refine Prog.holds_bind hkey fun keyId => ?_
  refine Prog.holds_bind ((signJws_keeps closed_inHand ⟨nonce, url, keyId⟩ payload).mono (fun _ h => h) (fun _ _ h => h)
    fun _ _ h => h.inv) fun jws => ?_
  have hsent : ∀ (s : Issuer (σ × List Event) Key) (x : σ) (next : Option String), InHand w base sets cleared pub nonce s →
      jws.header = ⟨nonce, url, keyId⟩ →
      Inv w base sets cleared pub { s with outside := (x, s.outside.2 ++ [.post jws.header.nonce next]) } ∧
        unspent none (s.outside.2 ++ [.post jws.header.nonce next]) = next := by
    intro s x next h hheader
    rw [hheader]
    refine ⟨⟨?_, fun n hn hne => absurd (h.spent n hn) hne, ?_, h.inv.published, h.inv.proper⟩, ?_⟩
    · exact spends_append.2 ⟨h.inv.spends, h.hand, trivial⟩
    · rw [dns_snoc, h.inv.dns]
      exact List.append_nil _
    · rw [unspent_snoc]
      rfl
  refine Prog.holds_bind (Q := fun r s => Inv w base sets cleared pub s ∧ unspent none s.outside.2 = r.replayNonce)
    (Prog.holds_talk ?_ ?_) fun r => ?_
  · intro r s s' hrun h
    obtain ⟨hr, rfl⟩ := Prod.mk.inj hrun
    obtain ⟨hinv, hlast⟩ := hsent s (w.post url jws s.outside.1).2 (nonceOf (w.post url jws s.outside.1).1) h.1 h.2
    refine ⟨hinv, hlast.trans ?_⟩
    simp only [World.logged, logging] at hr
    rw [hr]
    rfl
  · intro e s s' hrun h
    obtain ⟨-, rfl⟩ := Prod.mk.inj hrun
    exact (hsent s _ _ h.1 h.2).1
  · refine Prog.holds_bind (Q := fun _ => Inv w base sets cleared pub) (Prog.holds_modify fun s h => ?_) fun _ =>
      Prog.holds_pure r fun _ h => h
    obtain ⟨h, hlast⟩ := h
    exact ⟨h.spends, fun n hn _ => hlast.trans hn, h.dns, h.published, h.proper⟩

theorem post_keeps (url : String) (payload : Option Json) (useJwk : Bool) :
    Prog.Holds (Inv w base sets cleared pub) (post w.logged cfg url payload useJwk) (fun _ => Inv w base sets cleared pub)
      fun _ => Inv w base sets cleared pub := by
  unfold post
  generalize 3 = times
  induction times with
  | zero => exact Prog.holds_raise _ fun _ h => h
  | succ times ih =>
    refine Prog.holds_keep_bind (postOnce_keeps url payload useJwk) fun r => ?_
    split
    · exact ih
    · exact Prog.holds_pure r fun _ h => h

theorem postOk_keeps (url : String) (payload : Option Json) (useJwk : Bool) (what : String) :
    Prog.Holds (Inv w base sets cleared pub) (postOk w.logged cfg url payload useJwk what)
      (fun _ => Inv w base sets cleared pub) fun _ => Inv w base sets cleared pub :=
  Prog.holds_keep_bind (post_keeps url payload useJwk) fun _ => Prog.holds_ofExcept_keep

theorem account_keeps :
    Prog.Holds (Inv w base sets cleared pub) (account w.logged cfg) (fun _ => Inv w base sets cleared pub)
      fun _ => Inv w base sets cleared pub := by
  have hbound : Prog.Holds (Inv w base sets cleared pub) (bindings w.logged cfg) (fun _ => Inv w base sets cleared pub)
      fun _ => Inv w base sets cleared pub := by
    unfold bindings
    cases cfg.eab with
    | none => exact Prog.holds_pure _ fun _ h => h
    | some eab =>
      refine Prog.holds_keep_bind ?_ fun b => Prog.holds_pure _ fun _ h => h
      refine Prog.holds_keep_bind (resource_keeps closed_inv _) fun url => ?_
      refine Prog.holds_keep_bind (jwk_keeps closed_inv) fun v => Prog.holds_get_bind fun d hd => ?_
      refine Prog.holds_bind (Q := fun _ => Inv w base sets cleared pub)
        (Prog.holds_ofExcept (fun _ _ _ h => h.1) fun _ _ _ h => h.1) fun ref => ?_
      split
      · exact Prog.holds_raise _ fun _ h => h
      · exact Prog.holds_pure _ fun _ h => h
  refine Prog.holds_get_bind fun d hd => ?_
  split
  · exact Prog.holds_pure _ fun _ h => h.1
  · refine Prog.Holds.pre (fun _ h => h.1) ?_
    refine Prog.holds_keep_bind hbound fun bound => Prog.holds_keep_bind (resource_keeps closed_inv _) fun url => ?_
    refine Prog.holds_keep_bind (postOk_keeps _ _ _ _) fun r => Prog.holds_keep_bind Prog.holds_ofExcept_keep fun kid => ?_
    exact Prog.holds_modify fun s h => ⟨h.spends, h.nonce, h.dns, h.published, h.proper⟩

theorem poll_keeps (fuel : ℕ) (url : String) (done failed : List String) (what : String) :
    Prog.Holds (Inv w base sets cleared pub) (poll w.logged cfg fuel url done failed what)
      (fun _ => Inv w base sets cleared pub) fun _ => Inv w base sets cleared pub := by
  refine Prog.holds_get_bind fun d hd => Prog.Holds.pre (fun _ h => h.1) (Prog.holds_loop ?_ fuel)
  refine Prog.holds_bind (postOk_keeps _ _ _ _) fun r => Prog.holds_bind Prog.holds_ofExcept_keep fun obj => ?_
  refine Prog.holds_bind Prog.holds_ofExcept_keep fun status => Prog.holds_bind Prog.holds_ofExcept_keep fun isDone => ?_
  split
  · exact Prog.holds_pure _ fun _ h => h
  · refine Prog.holds_bind Prog.holds_ofExcept_keep fun isFailed => ?_
    split
    · exact Prog.holds_bind Prog.holds_ofExcept_keep fun why => Prog.holds_raise _ fun _ h => h
    · refine Prog.holds_get_bind fun s hs => ?_
      split
      · exact Prog.holds_raise _ fun _ h => h.1
      · refine Prog.holds_bind (Q := fun _ => Inv w base sets cleared pub) (Prog.holds_modify fun s h => ?_) fun _ =>
          Prog.holds_pure none fun _ h => h
        exact closed_inv.quiet s _ h.1

end Plumbing

/-! ## Records -/

section Records

variable {w : World σ Key Cert} {cfg : Config} {base : List Event} {sets : List Publication}

/-- what was published so far is on the list -/
def Published (w : World σ Key Cert) (base : List Event) (s : Issuer (σ × List Event) Key) : Prop :=
  ∃ sets, Inv w base sets [] (taken sets) s

theorem taken_snoc (x : Publication) : taken (sets ++ [x]) = taken sets ++ if x.done then [x.record] else [] := by
  cases h : x.done <;> simp [taken, h]

/-- a record that was asked for is in the log -/
theorem inv_set {s : Issuer (σ × List Event) Key} (h : Inv w base sets [] (taken sets) s) {x : Publication}
    (hx : Proper w s.key x) (a : σ) :
    Inv w base (sets ++ [x]) [] (taken sets) { s with outside := (a, s.outside.2 ++ [x.event]) } := by
  refine ⟨spends_append.2 ⟨h.spends, trivial⟩, fun n hn hne => ?_, ?_, h.published, fun y hy => ?_⟩
  · rw [unspent_snoc]
    exact h.nonce n hn hne
  · have hbase := h.dns
    rw [List.map_nil, List.append_nil] at hbase
    rw [dns_snoc, hbase, List.map_append, List.map_nil, List.append_nil, ← List.append_assoc]
    rfl
  · rcases List.mem_append.1 hy with hy | hy
    · exact h.proper y hy
    · rwa [List.mem_singleton.1 hy]

/-- a record is on the list once the provider took it -/
theorem publish_keeps (authzUrl : String) (domain challenge : Json) :
    Prog.Holds (Published w base) (publish w.logged authzUrl domain challenge) (fun _ => Published w base)
      fun _ => Published w base := by
  refine Prog.holds_of_exists fun sets => ?_
  have hweaken : ∀ s, Inv w base sets [] (taken sets) s → Published w base s := fun s h => ⟨sets, h⟩
  refine Prog.holds_bind (Prog.holds_ofExcept (fun _ _ _ h => h) fun _ s _ h => hweaken s h) fun name => ?_
  refine Prog.holds_bind (Prog.holds_ofExcept (fun _ _ _ h => h) fun _ s _ h => hweaken s h) fun token => ?_
  refine Prog.holds_bind (Q := fun tp s => Inv w base sets [] (taken sets) s ∧ ∃ k, s.key = some k ∧ tp = thumbprintOf w k)
    ?_ fun tp => ?_
  · refine Prog.holds_bind ((accountKey_keeps closed_inv).mono (fun _ h => h) (fun _ _ h => h) fun _ s h => hweaken s h)
      fun k => Prog.holds_pure _ fun s h => ⟨h.1, k, h.2, rfl⟩
  dsimp only
  refine Prog.holds_bind (Q := fun _ s => ∃ x : Publication, x.done = true ∧ x.record =
    (recordName name, recordValue w.logged (shown w.logged token) tp) ∧ Inv w base (sets ++ [x]) [] (taken sets) s)
    (Prog.holds_talk ?_ ?_) fun _ => ?_
  · intro u s s' hrun h
    obtain ⟨hok, rfl⟩ := Prod.mk.inj hrun
    obtain ⟨h, k, hk, rfl⟩ := h
    refine ⟨⟨recordName name, recordValue w.logged (shown w.logged token) (thumbprintOf w k), true⟩, rfl, rfl, ?_⟩
    have hset := inv_set h (x := ⟨recordName name, recordValue w.logged (shown w.logged token) (thumbprintOf w k), true⟩)
      ⟨k, _, _, hk, rfl, rfl⟩ (w.setTxt (recordName name) (recordValue w.logged (shown w.logged token) (thumbprintOf w k))
        s.outside.1).2
    simp only [World.logged, logging] at hok ⊢
    rw [hok]
    exact hset
  · intro e s s' hrun h
    obtain ⟨herror, rfl⟩ := Prod.mk.inj hrun
    obtain ⟨h, k, hk, rfl⟩ := h
    have hset := inv_set h (x := ⟨recordName name, recordValue w.logged (shown w.logged token) (thumbprintOf w k), false⟩)
      ⟨k, _, _, hk, rfl, rfl⟩ (w.setTxt (recordName name) (recordValue w.logged (shown w.logged token) (thumbprintOf w k))
        s.outside.1).2
    refine ⟨sets ++ [⟨recordName name, recordValue w.logged (shown w.logged token) (thumbprintOf w k), false⟩], ?_⟩
    rw [taken_snoc, if_neg Bool.false_ne_true, List.append_nil]
    simp only [World.logged, logging] at herror ⊢
    rw [herror]
    exact hset
  · have hlisted : Prog.Holds (fun s => ∃ x : Publication, x.done = true ∧ x.record =
        (recordName name, recordValue w.logged (shown w.logged token) tp) ∧ Inv w base (sets ++ [x]) [] (taken sets) s)
        (Prog.modify fun s => { s with published := s.published ++
          [(recordName name, recordValue w.logged (shown w.logged token) tp)] } : Call (σ × List Event) Key Unit)
        (fun _ => Published w base) fun _ => Published w base := by
      refine Prog.holds_modify fun s h => ?_
      obtain ⟨x, hdone, hrecord, h⟩ := h
      refine ⟨sets ++ [x], h.spends, h.nonce, h.dns, ?_, h.proper⟩
      rw [taken_snoc, hdone, hrecord, h.published]
      rfl
    refine Prog.holds_bind hlisted fun _ => Prog.holds_keep_bind Prog.holds_ofExcept_keep fun url => ?_
    refine Prog.holds_modify fun s h => ?_
    obtain ⟨sets, h⟩ := h
    exact ⟨sets, h.spends, h.nonce, h.dns, h.published, h.proper⟩

theorem postOk_published (url : String) (payload : Option Json) (useJwk : Bool) (what : String) :
    Prog.Holds (Published w base) (postOk w.logged cfg url payload useJwk what) (fun _ => Published w base)
      fun _ => Published w base := Prog.holds_exists fun _ => postOk_keeps url payload useJwk what

theorem poll_published (fuel : ℕ) (url : String) (done failed : List String) (what : String) :
    Prog.Holds (Published w base) (poll w.logged cfg fuel url done failed what) (fun _ => Published w base)
      fun _ => Published w base := Prog.holds_exists fun _ => poll_keeps fuel url done failed what

theorem authorize_keeps (authzUrl : Json) :
    Prog.Holds (Published w base) (authorize w.logged cfg authzUrl) (fun _ => Published w base)
      fun _ => Published w base := by
  refine Prog.holds_keep_bind Prog.holds_ofExcept_keep fun url => Prog.holds_keep_bind (postOk_published _ _ _ _) fun r => ?_
  refine Prog.holds_keep_bind Prog.holds_ofExcept_keep fun authz => Prog.holds_keep_bind Prog.holds_ofExcept_keep fun st => ?_
  split
  · exact Prog.holds_pure _ fun _ h => h
  · refine Prog.holds_keep_bind Prog.holds_ofExcept_keep fun found => ?_
    refine Prog.holds_keep_bind Prog.holds_ofExcept_keep fun domain => ?_
    split
    · exact Prog.holds_raise _ fun _ h => h
    · exact publish_keeps _ _ _

theorem forEach_keeps {ι : Type} {I : Issuer (σ × List Event) Key → Prop} {f : ι → Call (σ × List Event) Key Unit}
    (h : ∀ i, Prog.Holds I (f i) (fun _ => I) fun _ => I) (xs : List ι) :
    Prog.Holds I (Prog.forEach f xs) (fun _ => I) fun _ => I :=
  Prog.holds_forEach (I := fun _ => I) fun _ x _ _ => h x

theorem fulfil_keeps (fuel : ℕ) (orderUrl : String) (order : Json) (csrDer : Octets) :
    Prog.Holds (Published w base) (fulfil w.logged cfg fuel orderUrl order csrDer) (fun _ => Published w base)
      fun _ => Published w base := by
  have hrespond : ∀ v : Json, Prog.Holds (Published w base) (respond w.logged cfg v) (fun _ => Published w base)
      fun _ => Published w base := fun v =>
    Prog.holds_keep_bind Prog.holds_ofExcept_keep fun url => Prog.holds_keep_bind (postOk_published _ _ _ _) fun _ =>
      Prog.holds_pure _ fun _ h => h
  have hawait : ∀ url : String, Prog.Holds (Published w base) (await w.logged cfg fuel url) (fun _ => Published w base)
      fun _ => Published w base := fun url =>
    Prog.holds_keep_bind (poll_published _ _ _ _ _) fun _ => Prog.holds_pure _ fun _ h => h
  refine Prog.holds_keep_bind Prog.holds_ofExcept_keep fun urls => ?_
  refine Prog.holds_keep_bind (forEach_keeps authorize_keeps urls) fun _ => ?_
  refine Prog.holds_keep_bind (Prog.holds_modify fun s h => ?_) fun _ => Prog.holds_get_bind fun d hd => ?_
  · obtain ⟨sets, h⟩ := h
    exact ⟨sets, closed_inv.quiet s _ h⟩
  refine Prog.Holds.pre (fun _ h => h.1) ?_
  refine Prog.holds_keep_bind (forEach_keeps hrespond _) fun _ => Prog.holds_keep_bind (forEach_keeps hawait _) fun _ => ?_
  refine Prog.holds_keep_bind Prog.holds_ofExcept_keep fun finalize => ?_
  refine Prog.holds_keep_bind (postOk_published _ _ _ _) fun _ => Prog.holds_keep_bind (poll_published _ _ _ _ _) fun order => ?_
  refine Prog.holds_keep_bind Prog.holds_ofExcept_keep fun certUrl => ?_
  exact Prog.holds_keep_bind (postOk_published _ _ _ _) fun r => Prog.holds_pure _ fun _ h => h

/-- everything that was published has been removed -/
def Cleaned (w : World σ Key Cert) (base : List Event) (s : Issuer (σ × List Event) Key) : Prop :=
  ∃ sets pub, Inv w base sets (taken sets) pub s

theorem inv_clear {cleared : List (String × String)} {pub : List (String × String)} {s : Issuer (σ × List Event) Key}
    (h : Inv w base sets cleared pub s) (p : String × String) (a : σ) :
    Inv w base sets (cleared ++ [p]) pub { s with outside := (a, s.outside.2 ++ [clearing p]) } := by
  refine ⟨spends_append.2 ⟨h.spends, trivial⟩, fun n hn hne => ?_, ?_, h.published, h.proper⟩
  · rw [unspent_snoc]
    exact h.nonce n hn hne
  · rw [dns_snoc, h.dns, List.map_append, ← List.append_assoc]
    rfl

/-- the `finally` removes what is on the list, one record after the other -/
theorem cleanup_cleans {E : Err → Issuer (σ × List Event) Key → Prop} :
    Prog.Holds (Published w base) (cleanup w.logged) (fun _ => Cleaned w base) E := by
  refine Prog.holds_get_bind fun d hd => ?_
  obtain ⟨sets, hd⟩ := hd
  rw [hd.published]
  have hclear : ∀ before x after, taken sets = before ++ x :: after →
      Prog.Holds (Inv w base sets before (taken sets)) (clear w.logged x) (fun _ => Inv w base sets (before ++ [x]) (taken sets))
        E := by
    intro before x after _
    refine Prog.holds_bind (Q := fun _ => Inv w base sets (before ++ [x]) (taken sets)) ?_ fun _ =>
      Prog.holds_pure _ fun _ h => h
    have htalk : Prog.Holds (Inv w base sets before (taken sets)) (talk (w.logged.clearTxt x.1 x.2))
        (fun _ => Inv w base sets (before ++ [x]) (taken sets)) fun _ => Inv w base sets (before ++ [x]) (taken sets) :=
      Prog.holds_talk_state fun s h => inv_clear h x _
    refine (Prog.holds_attempt htalk).post fun r s h => ?_
    cases r <;> exact h
  refine ((Prog.holds_forEach (I := fun before => Inv w base sets before (taken sets)) hclear).mono (fun s h => ?_)
    (fun _ s h => ⟨sets, _, h⟩) fun _ _ h => h)
  rw [h.2]
  exact hd

/-- between calls -/
def Steady (w : World σ Key Cert) (s : Issuer (σ × List Event) Key) : Prop :=
  ∃ pub, Inv w (dns s.outside.2) [] [] pub s

theorem Cleaned.steady {s : Issuer (σ × List Event) Key} (h : Cleaned w base s) : Steady w s := by
  obtain ⟨sets, pub, h⟩ := h
  exact ⟨pub, h.spends, h.nonce, by simp, h.published, fun _ hx => absurd hx List.not_mem_nil⟩

/-- `sign`, from a steady issuer -/
theorem sign_cleaned (fuel : ℕ) (order : Order) :
    Prog.Holds (fun s => ∃ pub, Inv w base [] [] pub s) (sign w.logged cfg fuel order) (fun _ => Cleaned w base)
      fun _ => Cleaned w base := by
  have hnothing : ∀ {pub} (s : Issuer (σ × List Event) Key), Inv w base [] [] pub s → Cleaned w base s :=
    fun s h => ⟨[], _, h⟩
  refine Prog.holds_of_exists fun pub => ?_
  unfold sign
  dsimp only
  split
  · exact Prog.holds_raise _ fun s h => hnothing s h
  · have hplumb : ∀ {α : Type} {m : Call (σ × List Event) Key α},
        Prog.Holds (Inv w base [] [] []) m (fun _ => Inv w base [] [] []) (fun _ => Inv w base [] [] []) →
        Prog.Holds (Inv w base [] [] []) m (fun _ => Inv w base [] [] []) (fun _ => Cleaned w base) :=
      fun hm => hm.mono (fun _ h => h) (fun _ _ h => h) fun _ s h => hnothing s h
    refine Prog.holds_bind (Q := fun _ => Inv w base [] [] []) (Prog.holds_modify fun s h => ?_) fun _ => ?_
    · exact ⟨h.spends, h.nonce, h.dns, rfl, fun x hx => absurd hx List.not_mem_nil⟩
    refine Prog.holds_bind (hplumb account_keeps) fun _ => Prog.holds_bind (hplumb (resource_keeps closed_inv _)) fun url => ?_
    refine Prog.holds_bind (hplumb (postOk_keeps _ _ _ _)) fun r => Prog.holds_bind (hplumb Prog.holds_ofExcept_keep)
      fun orderUrl => Prog.holds_bind (hplumb Prog.holds_ofExcept_keep) fun placed => ?_
    have htry : Prog.Holds (Inv w base [] [] [])
        (Prog.tryFinally (fulfil w.logged cfg fuel orderUrl placed order.csrDer) (cleanup w.logged))
        (fun _ => Cleaned w base) fun _ => Cleaned w base := by
      refine Prog.Holds.pre (fun s h => ⟨[], h⟩) (Prog.holds_tryFinally (fulfil_keeps fuel orderUrl placed order.csrDer) ?_ ?_)
      · exact fun _ => cleanup_cleans
      · exact fun _ => cleanup_cleans
    refine Prog.holds_bind htry fun issued => Prog.holds_bind Prog.holds_ofExcept_keep fun certs => ?_
    cases certs with
    | nil => exact Prog.holds_raise _ fun _ h => h
    | cons leaf chain => exact Prog.holds_pure _ fun _ h => h

theorem revoke_steady {pub : List (String × String)} (reason : String) (der : Option Octets) :
    Prog.Holds (Inv w base [] [] pub) (revoke w.logged cfg reason der) (fun _ => Inv w base [] [] pub)
      fun _ => Inv w base [] [] pub := by
  cases der with
  | none => exact Prog.holds_raise _ fun _ h => h
  | some der =>
    refine Prog.holds_keep_bind account_keeps fun _ => Prog.holds_keep_bind (resource_keeps closed_inv _) fun url => ?_
    exact Prog.holds_keep_bind (postOk_keeps _ _ _ _) fun _ => Prog.holds_pure _ fun _ h => h

end Records

/-! ## Runs -/

inductive Use (σ : Type) where
  | sign (fuel : ℕ) (order : Order)
  | revoke (reason : String) (der : Option Octets)
  /-- whatever else happens outside -/
  | outside (f : σ → σ)
  /-- the process starts again: the issuer forgets, the outside does not -/
  | restart

/-- what is left of a call: its end, and the issuer -/
def use (w : World σ Key Cert) (cfg : Config) (s : Issuer (σ × List Event) Key) : Use σ → Outcome Err Unit × Issuer (σ × List Event) Key
  | .sign fuel order => (sign w.logged cfg fuel order >>= fun _ => pure ()) s
  | .revoke reason der => revoke w.logged cfg reason der s
  | .outside f => (.returned (), { s with outside := (f s.outside.1, s.outside.2) })
  | .restart => (.returned (), ⟨none, none, none, none, [], [], s.outside⟩)

def step (w : World σ Key Cert) (cfg : Config) (s : Issuer (σ × List Event) Key) (u : Use σ) : Issuer (σ × List Event) Key :=
  (use w cfg s u).2

/-- the call came back -/
def Ended (w : World σ Key Cert) (cfg : Config) (s : Issuer (σ × List Event) Key) (u : Use σ) : Prop :=
  (use w cfg s u).1 ≠ .running

def fresh (x : σ) : Issuer (σ × List Event) Key := ⟨none, none, none, none, [], [], x, []⟩

/-- once, if the nonce is this one -/
def once (n : String) (h : Option String) : ℕ := if h = some n then 1 else 0

def Event.sends (n : String) : Event → ℕ
  | .post m _ => once n (some m)
  | _ => 0

def Event.hands (n : String) : Event → ℕ
  | .head m => once n m
  | .post _ next => once n next
  | _ => 0

/-- how often a nonce was sent -/
def sent (n : String) (es : List Event) : ℕ := (es.map (Event.sends n)).sum

/-- how often the CA handed it out -/
def handed (n : String) (es : List Event) : ℕ := (es.map (Event.hands n)).sum

section Runs

variable {w : World σ Key Cert} {cfg : Config}

theorem steady_fresh (x : σ) : Steady w (fresh x) :=
  ⟨[], trivial, fun n hn => (by cases hn), rfl, rfl, fun _ hx => absurd hx List.not_mem_nil⟩

/-- one call -/
theorem step_steady (s : Issuer (σ × List Event) Key) (u : Use σ) (hs : Steady w s) (hend : Ended w cfg s u) :
    Steady w (step w cfg s u) := by
  unfold Ended at hend
  unfold step
  cases u with
  | sign fuel order =>
    have hsign : Prog.Holds (fun s' => ∃ pub, Inv w (dns s.outside.2) [] [] pub s')
        (sign w.logged cfg fuel order >>= fun _ => pure ()) (fun _ => Cleaned w (dns s.outside.2))
        fun _ => Cleaned w (dns s.outside.2) :=
      Prog.holds_bind (sign_cleaned fuel order) fun _ => Prog.holds_pure () fun _ h => h
    have hpost := hsign s hs
    revert hend hpost
    unfold use
    dsimp only
    generalize (sign w.logged cfg fuel order >>= fun _ => pure ()) s = r
    obtain ⟨o, s'⟩ := r
    intro hend hpost
    cases o with
    | returned u => exact Cleaned.steady hpost
    | raised e => exact Cleaned.steady hpost
    | running => exact absurd rfl hend
  | revoke reason der =>
    obtain ⟨pub, hs⟩ := hs
    have hrevoke : Prog.Holds (Inv w (dns s.outside.2) [] [] pub) (revoke w.logged cfg reason der)
        (fun _ => Inv w (dns s.outside.2) [] [] pub) fun _ => Inv w (dns s.outside.2) [] [] pub := revoke_steady reason der
    have hpost := hrevoke s hs
    revert hend hpost
    unfold use
    dsimp only
    generalize revoke w.logged cfg reason der s = r
    obtain ⟨o, s'⟩ := r
    intro hend hpost
    have hsteady : Inv w (dns s.outside.2) [] [] pub s' → Steady w s' := fun h =>
      ⟨pub, h.spends, h.nonce, by simp, h.published, h.proper⟩
    cases o with
    | returned u => exact hsteady hpost
    | raised e => exact hsteady hpost
    | running => exact absurd rfl hend
  | outside f =>
    obtain ⟨pub, hs⟩ := hs
    exact ⟨pub, hs.spends, hs.nonce, hs.dns, hs.published, hs.proper⟩
  | restart =>
    obtain ⟨pub, hs⟩ := hs
    exact ⟨[], hs.spends, fun n hn => (by cases hn), hs.dns, rfl, fun _ hx => absurd hx List.not_mem_nil⟩

theorem run_steady (x : σ) {uses : List (Use σ)} (hback : Along (step w cfg) (Ended w cfg) (fresh x) uses) :
    Steady w (run (step w cfg) (fresh x) uses) := run_inv (fun s u => step_steady s u) (steady_fresh x) hback

theorem once_or (n : String) (m h : Option String) : once n (m.or h) ≤ once n m + once n h := by
  cases m with
  | none => exact Nat.le_add_left (once n h) _
  | some m => exact Nat.le_add_right (once n (some m)) _

/-- what is spent was handed out -/
theorem sent_le_handed (n : String) {h : Option String} {es : List Event} (hs : Spends h es) :
    sent n es ≤ handed n es + once n h := by
  induction es generalizing h with
  | nil => exact Nat.zero_le _
  | cons e es ih =>
    simp only [sent, handed, List.map_cons, List.sum_cons] at ih ⊢
    cases e with
    | head m =>
      have hrest := ih hs
      have hor := once_or n m h
      simp only [Event.sends, Event.hands]
      omega
    | post m next =>
      obtain ⟨rfl, hs⟩ := hs
      have hrest := ih hs
      simp only [Event.sends, Event.hands]
      omega
    | setTxt f v d =>
      have hrest : _ ≤ _ + once n h := ih hs
      simp only [Event.sends, Event.hands]
      omega
    | clearTxt f v =>
      have hrest : _ ≤ _ + once n h := ih hs
      simp only [Event.sends, Event.hands]
      omega

/-- **Every request carries the nonce that the CA handed out last, and spends it**; so a nonce is sent at most as often as the
CA handed it out, in every run of calls against any CA. -/
theorem nonces_spent_once (x : σ) (uses : List (Use σ)) (hback : Along (step w cfg) (Ended w cfg) (fresh x) uses) :
    Spends none (run (step w cfg) (fresh x) uses).outside.2 ∧
      ∀ n, sent n (run (step w cfg) (fresh x) uses).outside.2 ≤ handed n (run (step w cfg) (fresh x) uses).outside.2 := by
  obtain ⟨pub, h⟩ := run_steady x hback
  refine ⟨h.spends, fun n => ?_⟩
  have hle := sent_le_handed n h.spends
  rwa [once, if_neg (fun h => by cases h), Nat.add_zero] at hle

end Runs

/-! ## Coming to an end -/

/-- the clock is not turned back, and a sleep lasts -/
structure Ticks (w : World σ Key Cert) : Prop where
  get : ∀ url s, w.monotonic s ≤ w.monotonic (w.get url s).2
  head : ∀ url s, w.monotonic s ≤ w.monotonic (w.head url s).2
  post : ∀ url jws s, w.monotonic s ≤ w.monotonic (w.post url jws s).2
  generateKey : ∀ s, w.monotonic s ≤ w.monotonic (w.generateKey s).2
  writeKey : ∀ k s, w.monotonic s ≤ w.monotonic (w.writeKey k s).2
  sleep : ∀ d s, 0 ≤ d → w.monotonic s + d ≤ w.monotonic (w.sleep d s)

theorem Ticks.logged {w : World σ Key Cert} (h : Ticks w) : Ticks w.logged :=
  ⟨fun url s => h.get url s.1, fun url s => h.head url s.1, fun url jws s => h.post url jws s.1, fun s => h.generateKey s.1,
    fun k s => h.writeKey k s.1, fun d s => h.sleep d s.1⟩

section Ends

open Prog (Ends Moves ends_bind ends_pure ends_raise ends_get ends_modify ends_ofExcept ends_talk ends_attempt ends_forEach
  ends_tryFinally moves_bind moves_pure moves_raise moves_get moves_modify moves_ofExcept moves_talk)

variable {w : World σ Key Cert} {cfg : Config}

/-- time does not run backwards -/
def Forward (w : World σ Key Cert) (a b : Issuer σ Key) : Prop := w.monotonic a.outside ≤ w.monotonic b.outside

theorem moves_still {f : Issuer σ Key → Issuer σ Key} (h : ∀ s, (f s).outside = s.outside) :
    Moves (Forward w) (Prog.modify f : Call σ Key Unit) := moves_modify fun s => by
  unfold Forward
  rw [h]

theorem moves_forward {α : Type} {f : σ → Except Err α × σ} (h : ∀ s, w.monotonic s ≤ w.monotonic (f s).2) :
    Moves (Forward w) (talk f : Call σ Key α) := moves_talk fun s => h s.outside

theorem accountKey_forward (h : Ticks w) : Moves (Forward w) (accountKey w) := by
  refine moves_bind moves_get fun d => ?_
  cases d.key with
  | some k => exact moves_pure k
  | none =>
    dsimp only
    cases w.keyFile d.outside with
    | unreadable e => exact moves_raise e
    | key k => exact moves_bind (moves_still fun _ => rfl) fun _ => moves_pure k
    | missing =>
      refine moves_bind (moves_forward fun s => h.generateKey s) fun k => moves_bind (moves_still fun _ => rfl) fun _ => ?_
      exact moves_bind (moves_forward fun s => h.writeKey k s) fun _ => moves_pure k

theorem resource_forward (h : Ticks w) (name : String) : Moves (Forward w) (resource w cfg name) := by
  refine moves_bind ?_ fun d => moves_ofExcept _
  refine moves_bind moves_get fun d => ?_
  cases d.directory with
  | some v => exact moves_pure v
  | none =>
    refine moves_bind (moves_forward fun s => h.get _ s) fun r => ?_
    split
    · exact moves_raise _
    · exact moves_bind (moves_ofExcept _) fun v => moves_bind (moves_still fun _ => rfl) fun _ => moves_pure v

theorem postOnce_forward (h : Ticks w) (url : String) (payload : Option Json) (useJwk : Bool) :
    Moves (Forward w) (postOnce w cfg url payload useJwk) := by
  have hnonce : Moves (Forward w) (takeNonce w cfg) := by
    refine moves_bind moves_get fun d => moves_bind ?_ fun n => moves_bind (moves_still fun _ => rfl) fun _ => moves_pure n
    unfold nonceOr
    cases d.nonce.filter (· ≠ "") with
    | some n => exact moves_pure n
    | none =>
      refine moves_bind (resource_forward h _) fun url => moves_bind (moves_forward fun s => h.head url s) fun r => ?_
      exact moves_ofExcept _
  have hkey : Moves (Forward w) (keyIdOf w useJwk) := by
    unfold keyIdOf
    split
    · exact moves_bind (moves_bind (accountKey_forward h) fun _ => moves_pure _) fun _ => moves_pure _
    · exact moves_bind moves_get fun _ => moves_pure _
  refine moves_bind hnonce fun n => moves_bind hkey fun keyId => moves_bind ?_ fun jws => ?_
  · exact moves_bind (accountKey_forward h) fun _ => moves_bind moves_get fun _ => moves_pure _
  · exact moves_bind (moves_forward fun s => h.post url jws s) fun r => moves_bind (moves_still fun _ => rfl) fun _ => moves_pure r

theorem postOk_forward (h : Ticks w) (url : String) (payload : Option Json) (useJwk : Bool) (what : String) :
    Moves (Forward w) (postOk w cfg url payload useJwk what) := by
  refine moves_bind ?_ fun r => moves_ofExcept _
  unfold post
  generalize 3 = times
  induction times with
  | zero => exact moves_raise _
  | succ times ih =>
    refine moves_bind (postOnce_forward h url payload useJwk) fun r => ?_
    split
    · exact ih
    · exact moves_pure r

theorem ends_accountKey : Ends (accountKey w) := by
  refine ends_bind ends_get fun d => ?_
  cases d.key with
  | some k => exact ends_pure k
  | none =>
    dsimp only
    cases w.keyFile d.outside with
    | unreadable e => exact ends_raise e
    | key k => exact ends_bind (ends_modify _) fun _ => ends_pure k
    | missing =>
      refine ends_bind (ends_talk _) fun k => ends_bind (ends_modify _) fun _ => ?_
      exact ends_bind (ends_talk _) fun _ => ends_pure k

theorem ends_resource (name : String) : Ends (resource w cfg name) := by
  refine ends_bind (ends_bind ends_get fun d => ?_) fun d => ends_ofExcept _
  cases d.directory with
  | some v => exact ends_pure v
  | none =>
    refine ends_bind (ends_talk _) fun r => ?_
    split
    · exact ends_raise _
    · exact ends_bind (ends_ofExcept _) fun v => ends_bind (ends_modify _) fun _ => ends_pure v

theorem ends_postOk (url : String) (payload : Option Json) (useJwk : Bool) (what : String) :
    Ends (postOk w cfg url payload useJwk what) := by
  have hnonce : Ends (takeNonce w cfg) := by
    refine ends_bind ends_get fun d => ends_bind ?_ fun n => ends_bind (ends_modify _) fun _ => ends_pure n
    unfold nonceOr
    cases d.nonce.filter (· ≠ "") with
    | some n => exact ends_pure n
    | none => exact ends_bind (ends_resource _) fun url => ends_bind (ends_talk _) fun r => ends_ofExcept _
  have hkey : Ends (keyIdOf w useJwk) := by
    unfold keyIdOf
    split
    · exact ends_bind (ends_bind ends_accountKey fun _ => ends_pure _) fun _ => ends_pure _
    · exact ends_bind ends_get fun _ => ends_pure _
  have honce : Ends (postOnce w cfg url payload useJwk) := by
    refine ends_bind hnonce fun n => ends_bind hkey fun keyId => ends_bind ?_ fun jws => ?_
    · exact ends_bind ends_accountKey fun _ => ends_bind ends_get fun _ => ends_pure _
    · exact ends_bind (ends_talk _) fun r => ends_bind (ends_modify _) fun _ => ends_pure r
  refine ends_bind ?_ fun r => ends_ofExcept _
  unfold post
  generalize 3 = times
  induction times with
  | zero => exact ends_raise _
  | succ times ih =>
    refine ends_bind honce fun r => ?_
    split
    · exact ih
    · exact ends_pure r

/-- a round of a poll that gives nothing slept, and was not past the deadline before -/
theorem pollOnce_sleeps (h : Ticks w) (hd : 0 ≤ cfg.pollInterval) (url : String) (done failed : List String) (what : String)
    (deadline t : ℚ) :
    Prog.Holds (fun s => t ≤ w.monotonic s.outside) (pollOnce w cfg url done failed what deadline)
      (Prog.Round (fun _ _ => True) fun s => t ≤ deadline ∧ t + cfg.pollInterval ≤ w.monotonic s.outside) fun _ _ => True := by
  have hkeep : ∀ {α : Type} {m : Call σ Key α}, Moves (Forward w) m → Prog.Holds (fun s => t ≤ w.monotonic s.outside) m
      (fun _ s => t ≤ w.monotonic s.outside) fun _ _ => True := fun hm =>
    (hm.holds fun a b hab ha => le_trans ha hab).mono (fun _ h => h) (fun _ _ h => h) fun _ _ _ => trivial
  refine Prog.holds_bind (hkeep (postOk_forward h _ _ _ _)) fun r => Prog.holds_bind (hkeep (moves_ofExcept _)) fun obj => ?_
  refine Prog.holds_bind (hkeep (moves_ofExcept _)) fun status => Prog.holds_bind (hkeep (moves_ofExcept _)) fun isDone => ?_
  split
  · exact Prog.holds_pure _ fun _ _ => trivial
  · refine Prog.holds_bind (hkeep (moves_ofExcept _)) fun isFailed => ?_
    dsimp only
    split
    · exact Prog.holds_bind (hkeep (moves_ofExcept _)) fun why => Prog.holds_raise _ fun _ _ => trivial
    · refine Prog.holds_get_bind fun s hs => ?_
      split
      · exact Prog.holds_raise _ fun _ _ => trivial
      · next hlate =>
        refine Prog.holds_bind
          (Q := fun _ (s : Issuer σ Key) => t ≤ deadline ∧ t + cfg.pollInterval ≤ w.monotonic s.outside)
          (Prog.holds_modify fun s' hs' => ⟨hs.trans (not_lt.1 hlate), ?_⟩) fun _ => Prog.holds_pure none fun _ h => h
        exact (add_le_add_left hs'.1 _).trans (h.sleep _ _ hd)

theorem ends_pollOnce (url : String) (done failed : List String) (what : String) (deadline : ℚ) :
    Ends (pollOnce w cfg url done failed what deadline) := by
  refine ends_bind (ends_postOk _ _ _ _) fun r => ends_bind (ends_ofExcept _) fun obj => ?_
  refine ends_bind (ends_ofExcept _) fun status => ends_bind (ends_ofExcept _) fun isDone => ?_
  split
  · exact ends_pure _
  · refine ends_bind (ends_ofExcept _) fun isFailed => ?_
    dsimp only
    split
    · exact ends_bind (ends_ofExcept _) fun why => ends_raise _
    · refine ends_bind ends_get fun s => ?_
      split
      · exact ends_raise _
      · exact ends_bind (ends_modify _) fun _ => ends_pure none

/-- how many rounds are left before the deadline -/
def rounds (w : World σ Key Cert) (cfg : Config) (deadline : ℚ) (s : Issuer σ Key) : ℕ :=
  if w.monotonic s.outside ≤ deadline then ⌊(deadline - w.monotonic s.outside) / cfg.pollInterval⌋₊ + 1 else 0

theorem rounds_lt {deadline : ℚ} (hd : 0 < cfg.pollInterval) {s s' : Issuer σ Key} (hs : w.monotonic s.outside ≤ deadline)
    (hs' : w.monotonic s.outside + cfg.pollInterval ≤ w.monotonic s'.outside) :
    rounds w cfg deadline s' < rounds w cfg deadline s := by
  unfold rounds
  rw [if_pos hs]
  split
  · next hle =>
    have hstep : (deadline - w.monotonic s'.outside) / cfg.pollInterval ≤
        (deadline - w.monotonic s.outside) / cfg.pollInterval - 1 := by
      rw [div_sub_one hd.ne', div_le_div_iff_of_pos_right hd]
      linarith
    have hpos : 0 ≤ (deadline - w.monotonic s'.outside) / cfg.pollInterval := div_nonneg (by linarith) hd.le
    have hfloor := Nat.floor_le_floor hstep
    rw [Nat.floor_sub_one] at hfloor
    have hone : 1 ≤ ⌊(deadline - w.monotonic s.outside) / cfg.pollInterval⌋₊ := Nat.le_floor (by push_cast; linarith)
    omega
  · exact Nat.succ_pos _

theorem ends_poll (h : Ticks w) (hd : 0 < cfg.pollInterval) {fuel : ℕ}
    (hfuel : ⌊cfg.timeout / cfg.pollInterval⌋₊ + 1 < fuel) (url : String) (done failed : List String) (what : String) :
    Ends (poll w cfg fuel url done failed what) := by
  intro s
  refine Prog.loop_ends (ends_pollOnce _ _ _ _ _) (μ := rounds w cfg (w.monotonic s.outside + cfg.timeout)) ?_ ?_
  · intro a b hrun
    have hpost := pollOnce_sleeps h hd.le url done failed what (w.monotonic s.outside + cfg.timeout)
      (w.monotonic a.outside) a le_rfl
    rw [hrun] at hpost
    exact rounds_lt hd hpost.1 hpost.2
  · refine lt_of_le_of_lt ?_ hfuel
    unfold rounds
    split
    · rw [add_sub_cancel_left]
    · exact Nat.zero_le _

/-- **`sign` comes to an end**: it returns or raises, whatever the CA and the DNS provider answer, where the clock goes on and
there is fuel for as many looks at an object as fit before the deadline. -/
theorem sign_ends (h : Ticks w) (hd : 0 < cfg.pollInterval) {fuel : ℕ}
    (hfuel : ⌊cfg.timeout / cfg.pollInterval⌋₊ + 1 < fuel) (order : Order) : Ends (sign w cfg fuel order) := by
  have haccount : Ends (account w cfg) := by
    refine ends_bind ends_get fun d => ?_
    split
    · exact ends_pure _
    · have hbound : Ends (bindings w cfg) := by
        unfold bindings
        cases cfg.eab with
        | none => exact ends_pure _
        | some eab =>
          refine ends_bind ?_ fun b => ends_pure _
          refine ends_bind (ends_resource _) fun url => ends_bind (ends_bind ends_accountKey fun _ => ends_pure _) fun v => ?_
          refine ends_bind ends_get fun d => ends_bind (ends_ofExcept _) fun ref => ?_
          split
          · exact ends_raise _
          · exact ends_pure _
      refine ends_bind hbound fun bound => ends_bind (ends_resource _) fun url => ends_bind (ends_postOk _ _ _ _) fun r => ?_
      exact ends_bind (ends_ofExcept _) fun kid => ends_modify _
  have hpublish : ∀ url domain ch, Ends (publish w url domain ch) := by
    intro url domain ch
    refine ends_bind (ends_ofExcept _) fun name => ends_bind (ends_ofExcept _) fun token => ?_
    refine ends_bind (ends_bind ends_accountKey fun _ => ends_pure _) fun tp => ends_bind (ends_talk _) fun _ => ?_
    exact ends_bind (ends_modify _) fun _ => ends_bind (ends_ofExcept _) fun u => ends_modify _
  have hauthorize : ∀ url, Ends (authorize w cfg url) := by
    intro url
    refine ends_bind (ends_ofExcept _) fun u => ends_bind (ends_postOk _ _ _ _) fun r => ends_bind (ends_ofExcept _) fun a => ?_
    refine ends_bind (ends_ofExcept _) fun status => ?_
    split
    · exact ends_pure _
    · refine ends_bind (ends_ofExcept _) fun found => ends_bind (ends_ofExcept _) fun domain => ?_
      split
      · exact ends_raise _
      · exact hpublish _ _ _
  have hrespond : ∀ v, Ends (respond w cfg v) := fun v =>
    ends_bind (ends_ofExcept _) fun url => ends_bind (ends_postOk _ _ _ _) fun _ => ends_pure _
  have hawait : ∀ url, Ends (await w cfg fuel url) := fun url => ends_bind (ends_poll h hd hfuel _ _ _ _) fun _ => ends_pure _
  have hfulfil : ∀ orderUrl placed, Ends (fulfil w cfg fuel orderUrl placed order.csrDer) := by
    intro orderUrl placed
    refine ends_bind (ends_ofExcept _) fun urls => ends_bind (ends_forEach hauthorize _) fun _ => ?_
    refine ends_bind (ends_modify _) fun _ => ends_bind ends_get fun s => ends_bind (ends_forEach hrespond _) fun _ => ?_
    refine ends_bind (ends_forEach hawait _) fun _ => ends_bind (ends_ofExcept _) fun finalize => ?_
    refine ends_bind (ends_postOk _ _ _ _) fun _ => ends_bind (ends_poll h hd hfuel _ _ _ _) fun o => ?_
    exact ends_bind (ends_ofExcept _) fun certUrl => ends_bind (ends_postOk _ _ _ _) fun r => ends_pure _
  have hcleanup : Ends (cleanup w) := ends_bind ends_get fun s =>
    ends_forEach (fun p => ends_bind (ends_attempt (ends_talk _)) fun _ => ends_pure _) _
  unfold sign
  dsimp only
  split
  · exact ends_raise _
  · refine ends_bind (ends_modify _) fun _ => ends_bind haccount fun _ => ends_bind (ends_resource _) fun url => ?_
    refine ends_bind (ends_postOk _ _ _ _) fun r => ends_bind (ends_ofExcept _) fun orderUrl => ?_
    refine ends_bind (ends_ofExcept _) fun placed => ends_bind (ends_tryFinally (hfulfil _ _) hcleanup) fun issued => ?_
    refine ends_bind (ends_ofExcept _) fun certs => ?_
    split
    · exact ends_raise _
    · exact ends_pure _

end Ends

/-! ## A small CA -/

/-- the clock, and whether the challenge was answered -/
abbrev Small := ℚ × Bool

def reply (url : String) (s : Small) : Response :=
  let body : Json :=
    if url = "order" then .obj [("authorizations", .arr [.str "authz"]), ("finalize", .str "finalize"), ("status", .str "valid"),
      ("certificate", .str "cert")]
    else if url = "authz" then .obj [("status", .str (if s.2 then "valid" else "pending")),
      ("identifier", .obj [("value", .str "*.example.org")]),
      ("challenges", .arr [.obj [("type", .str "dns-01"), ("token", .str "token"), ("url", .str "challenge")]])]
    else .obj []
  ⟨200, "PEM", some body, some "again", some "order", "application/json"⟩

def smallWorld : World Small Unit Unit where
  get _ s := (.ok ⟨200, "", some (.obj [("newNonce", .str "nonce"), ("newAccount", .str "account"), ("newOrder", .str "order")]),
    none, none, "application/json"⟩, s)
  head _ s := (.ok ⟨200, "", none, some "first", none, ""⟩, s)
  post url _ s := (.ok (reply url s), s.1, s.2 || url = "challenge")
  setTxt _ _ s := (.ok (), s)
  clearTxt _ _ s := (.ok (), s)
  keyFile _ := .key ()
  generateKey s := ((), s)
  writeKey _ s := (.ok (), s)
  monotonic s := s.1
  sleep d s := (s.1 + d, s.2)
  publicNumbers _ := (1, 2)
  signature _ _ _ := (3, 4)
  sha256 data := data
  hmacSha256 _ data := data
  dumps _ := ""
  compact _ := "jwk"
  format _ := ""
  resolve _ _ := .ok ""
  loadCertificates _ := .ok [()]

theorem smallWorld_ticks : Ticks smallWorld :=
  ⟨fun _ s => le_refl s.1, fun _ s => le_refl s.1, fun _ _ s => le_refl s.1, fun s => le_refl s.1, fun _ s => le_refl s.1,
    fun d s _ => le_refl (s.1 + d)⟩

def smallConfig : Config := ⟨"https://ca/dir", "", none, 120, 1, 0⟩

def smallOrder : Order := ⟨[0x30], ["*.example.org"], [], [], []⟩

theorem small_fuel : ⌊smallConfig.timeout / smallConfig.pollInterval⌋₊ + 1 < 200 := by
  have hfloor : ⌊smallConfig.timeout / smallConfig.pollInterval⌋₊ = 120 := by simp [smallConfig]
  rw [hfloor]
  decide

theorem small_interval : 0 < smallConfig.pollInterval := by simp [smallConfig]

theorem small_sign_ends : Prog.Ends (sign smallWorld smallConfig 200 smallOrder) :=
  sign_ends smallWorld_ticks small_interval small_fuel smallOrder

theorem small_logged_ends : Prog.Ends (sign smallWorld.logged smallConfig 200 smallOrder) :=
  sign_ends smallWorld_ticks.logged small_interval small_fuel smallOrder

theorem small_ended (s : Issuer (Small × List Event) Unit) : Ended smallWorld smallConfig s (.sign 200 smallOrder) :=
  Prog.ends_bind small_logged_ends (fun _ => Prog.ends_pure ()) s

def returned : Outcome Err Unit × Issuer (Small × List Event) Unit → Bool
  | (.returned _, _) => true
  | _ => false

-- the record of the wildcard's base name is set and cleared
example : returned (use smallWorld smallConfig (fresh (0, false)) (.sign 200 smallOrder)) = true ∧
    (dns (step smallWorld smallConfig (fresh (0, false)) (.sign 200 smallOrder)).outside.2).length = 2 := by decide +kernel

theorem small_restarted (s : Issuer (Small × List Event) Unit) : Ended smallWorld smallConfig s .restart := fun h => by cases h

/-- two certificates, the second after a restart -/
def smallUses : List (Use Small) := [.sign 200 smallOrder, .restart, .sign 200 smallOrder]

theorem small_uses_ended : Along (step smallWorld smallConfig) (Ended smallWorld smallConfig) (fresh (0, false)) smallUses := by
  refine (along_cons _ _ _).2 ⟨small_ended _, (along_cons _ _ _).2 ⟨small_restarted _, ?_⟩⟩
  exact (along_cons _ _ _).2 ⟨small_ended _, along_nil _⟩

theorem small_nonces : Spends none (run (step smallWorld smallConfig) (fresh (0, false)) smallUses).outside.2 ∧
    ∀ n, sent n (run (step smallWorld smallConfig) (fresh (0, false)) smallUses).outside.2 ≤
      handed n (run (step smallWorld smallConfig) (fresh (0, false)) smallUses).outside.2 :=
  @nonces_spent_once _ _ _ smallWorld smallConfig (0, false) smallUses small_uses_ended

end Certadillo.AcmeClient
