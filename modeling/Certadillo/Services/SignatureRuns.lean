/-
Release signatures and what their approvers saw: signing requests, decisions and SQL writes to `signing_requests`, in any
order.

`request_signature` stores the digest in a row of `signing_requests` and shows it, with the key's name, in the payload of
an approval. The payload is sealed, the row is not, and `sign_now` signs what the row holds by then.

- `requestSignature_leaves`, `decide_apart`: what a call leaves of the requests, the keys and the approvals.
- `signNow_made`: a signature is over the digest of the request's row, and made with the key of that row.
- `shown_step`: what waiting approvals show stays what their requests are for, unless an SQL write changes that.
- `release_signatures_match`: with such SQL writes left out, a release key signs what the approver saw, at most once for
  each approval.
- `signed_unseen`: with one of them, it signs a digest no approver saw.
-/
import Certadillo.Services.MakerChecker
import Certadillo.Services.Requests

namespace Certadillo.CodeSign

open Integrity Policy Py Platform Relation Machine
open Tx (Calm Does calm_pure calm_bind calm_get_bind calm_ofExcept_bind calm_modify does_bind does_get_bind)

/-! ## What a call leaves -/

/-- no approval but those of `A` is changed, no request is added or changes its key or digest, and none but those of `P` is
signed -/
structure Apart (A P : ℕ → Prop) (a b : Db) : Prop where
  keys : ∀ i k, a.signingKeys.get i = some k → b.signingKeys.get i = some k
  approvals : ∀ i, ¬ A i → b.approvals.get i = a.approvals.get i
  next : b.signingRequests.next = a.signingRequests.next
  requests : ∀ i r', b.signingRequests.get i = some r' → ∃ r, a.signingRequests.get i = some r ∧ r'.keyId = r.keyId ∧
    r'.digestHex = r.digestHex ∧ (r'.status = .signed → r.status = .signed ∨ P i)

section Apart

variable {env : Env} {A P : ℕ → Prop} {a b c : Db}

theorem apart_of (hkeys : b.signingKeys = a.signingKeys) (happrovals : ∀ i, ¬ A i → b.approvals.get i = a.approvals.get i)
    (hrequests : b.signingRequests = a.signingRequests) : Apart A P a b where
  keys i k h := by rw [hkeys]; exact h
  approvals := happrovals
  next := by rw [hrequests]
  requests i r h := ⟨r, hrequests ▸ h, rfl, rfl, Or.inl⟩

theorem Apart.refl (A P : ℕ → Prop) (a : Db) : Apart A P a a := apart_of rfl (fun _ _ => rfl) rfl

theorem Apart.trans (hab : Apart A P a b) (hbc : Apart A P b c) : Apart A P a c where
  keys i k h := hbc.keys i k (hab.keys i k h)
  approvals i hi := (hbc.approvals i hi).trans (hab.approvals i hi)
  next := hbc.next.trans hab.next
  requests i r h := by
    obtain ⟨y, hy, hkey, hdigest, hsigned⟩ := hbc.requests i r h
    obtain ⟨x, hx, hkey', hdigest', hsigned'⟩ := hab.requests i y hy
    exact ⟨x, hx, hkey.trans hkey', hdigest.trans hdigest', fun hs => (hsigned hs).elim hsigned' Or.inr⟩

theorem apart_reaches (h : ReflTransGen (Apart A P) a b) : Apart A P a b :=
  Tx.reaches_inv (I := Apart A P a) (fun _ _ hw h => h.trans hw) h (.refl A P a)

theorem admits_apart : Admits (Apart A P) where
  apps _ _ := apart_of rfl (fun _ _ => rfl) rfl
  folders _ _ := apart_of rfl (fun _ _ => rfl) rfl
  setCa _ _ _ _ := apart_of rfl (fun _ _ => rfl) rfl
  addCa _ _ _ := apart_of rfl (fun _ _ => rfl) rfl
  anchors _ _ := apart_of rfl (fun _ _ => rfl) rfl
  jobs _ _ := apart_of rfl (fun _ _ => rfl) rfl
  event _ _ _ := apart_of rfl (fun _ _ => rfl) rfl

theorem enrols_apart : Enrols env (fun _ => True) (fun _ _ => True) (Apart A P) where
  toAdmits := admits_apart
  addCertificate _ _ _ := apart_of rfl (fun _ _ => rfl) rfl
  supersede _ _ _ _ := apart_of rfl (fun _ _ => rfl) rfl
  fill _ _ _ _ := apart_of rfl (fun _ _ => rfl) rfl

/-- a request that is assigned by `f` -/
theorem apart_request (id : ℕ) (f : SigningRequest → SigningRequest)
    (hf : ∀ r, (f r).keyId = r.keyId ∧ (f r).digestHex = r.digestHex ∧ ((f r).status = .signed → r.status = .signed ∨ P id))
    (d : Db) : Apart A P d { d with signingRequests := d.signingRequests.update id f } where
  keys _ _ h := h
  approvals _ _ := rfl
  next := rfl
  requests i r h := by
    replace h : (d.signingRequests.update id f).get i = some r := h
    rw [Table.get_update] at h
    split at h
    · next heq =>
      subst heq
      obtain ⟨x, hx, rfl⟩ := Option.map_eq_some_iff.1 h
      exact ⟨x, hx, hf x⟩
    · exact ⟨r, h, rfl, rfl, Or.inl⟩

/-! ### Certificates and keys -/

/-- a key that is created leaves the stored ones -/
theorem calm_apartCreateKey (requestedBy decidedBy : String) (a : KeyArgs) :
    Calm (Apart A P) (createKeyNow env requestedBy decidedBy a) :=
  calm_createKeyNow_of enrols_apart
    (fun _ _ => ⟨fun _ _ h => Table.get_insert_of_some h, fun _ _ => rfl, rfl, fun _ r h => ⟨r, h, rfl, rfl, Or.inl⟩⟩)
    (fun _ _ _ _ => trivial) requestedBy decidedBy

theorem calm_apartCampaign (actor : Actor) (campaignId : ℕ) (remaining : Bool) (changeRef : Option String) :
    Calm (Apart A P) (campaignRevokeNow env actor campaignId remaining changeRef) := by
  unfold campaignRevokeNow
  refine calm_get_bind fun d => ?_
  split
  · exact Tx.calm_throw _
  next camp _ =>
  refine calm_bind (calm_campaignLoop (fun _ _ => apart_of rfl (fun _ _ => rfl) rfl) (fun a _ => ?_) _ _) fun n => ?_
  · exact calm_revoke_of (W := Apart A P) (fun _ => apart_of rfl (fun _ _ => rfl) rfl)
      (fun _ _ _ => apart_of rfl (fun _ _ => rfl) rfl) (fun _ _ => apart_of rfl (fun _ _ => rfl) rfl)
      (fun _ _ => apart_of rfl (fun _ _ => rfl) rfl) _ _
  · refine calm_bind (admits_apart.record ?_) fun _ => calm_pure _
    cases remaining <;> decide

/-! ### Signing and rejecting -/

theorem calm_apartSignNow (requestId : ℕ) (hP : P requestId) (decidedBy : String) :
    Calm (Apart A P) (signNow env requestId decidedBy) := by
  unfold signNow
  refine calm_get_bind fun d => ?_
  split
  · exact Tx.calm_throw _
  split
  · exact Tx.calm_throw _
  refine Tx.calm_ite (fun _ => Tx.calm_throw _) fun _ => Tx.calm_ite (fun _ => Tx.calm_throw _) fun _ => ?_
  refine calm_ofExcept_bind fun rc _ => calm_ofExcept_bind fun _ _ => calm_ofExcept_bind fun signer _ => ?_
  refine calm_ofExcept_bind fun tsaCa _ => calm_bind (CAService.calm_ensureTsa_of admits_apart _ _) fun _ => ?_
  refine calm_ofExcept_bind fun der _ => ?_
  refine calm_bind (calm_modify ?_) fun _ => admits_apart.record (by decide)
  exact apart_request requestId _ fun r => ⟨rfl, rfl, fun _ => Or.inr hP⟩

theorem calm_apartReject (requestId : ℕ) (decidedBy : String) : Calm (Apart A P) (reject env requestId decidedBy) := by
  unfold reject
  refine calm_get_bind fun d => ?_
  split
  · exact calm_pure _
  refine Tx.calm_ite (fun _ => calm_pure _) fun _ => ?_
  refine calm_bind (calm_modify ?_) fun _ => admits_apart.record (by decide)
  exact apart_request requestId _ fun r => ⟨rfl, rfl, fun h => nomatch h⟩

end Apart

/-! ## Deciding -/

/-- the signing request an approval's payload names -/
def requestOf (req : ApprovalRequest) : Except Err ℕ := do toId (← item req.payload "request_id")

/-- the approval is for signing request `id` -/
def Names (req : ApprovalRequest) (id : ℕ) : Prop := req.action = .codeSign ∧ requestOf req = .ok id

section Decide

variable {env : Env} {d : Db} {approvalId : ℕ} {req : ApprovalRequest} {A P : ℕ → Prop}

theorem does_apartBranch (hP : ∀ id, Names req id → P id) (decidedBy : String) :
    Does (Apart A P) (executeBranch env approvalId req decidedBy) := by
  intro s
  refine executeBranch_doesAt_of admits_apart ?_ ?_ ?_ ?_
  · exact fun _ a => does_executeIssue_of enrols_apart (fun _ _ _ _ => trivial) _ fun _ _ => trivial
  · exact fun _ a => calm_apartCreateKey _ _ _
  · exact fun haction id hid => calm_apartSignNow id (hP id ⟨haction, hid⟩) _
  · exact fun _ actor campaignId changeRef _ => (calm_apartCampaign _ _ _ _).does s

theorem does_apartCarry (actor : Actor) {approve : Bool} (hP : approve = true → ∀ id, Names req id → P id)
    (comment : Option String) : Does (Apart (· = approvalId) P) (carry env actor approvalId req approve comment) := by
  intro s
  refine doesAt_carry_of admits_apart (fun d f => ?_) (fun happrove => ?_) fun _ id => calm_apartReject _ _
  · exact apart_of rfl (fun i hi => Table.get_update_of_ne _ _ hi) rfl
  · exact does_apartBranch (hP happrove) _ _

/-- what a decision leaves of the signing requests and of the other approvals -/
theorem decide_apart (d : Db) (actor : Actor) (approvalId : ℕ) (approve : Bool) (comment : Option String) :
    (Tx.transact (Platform.decide env actor approvalId approve comment) d).2 = d ∨
      ∃ req, decideChecks env d actor approvalId approve = .ok req ∧
        Apart (· = approvalId) (fun id => approve = true ∧ Names req id) d
          (Tx.transact (Platform.decide env actor approvalId approve comment) d).2 := by
  cases hchecks : decideChecks env d actor approvalId approve with
  | error e => exact Or.inl (by rw [decide_unchecked hchecks])
  | ok req =>
    refine Or.inr ⟨req, rfl, apart_reaches (Tx.transact_doesAt ?_)⟩
    unfold Platform.decide
    refine Tx.doesAt_get_bind (Tx.doesAt_ofExcept_bind fun req' hreq' => ?_)
    obtain rfl := Except.ok.inj (hchecks.symm.trans hreq')
    exact does_apartCarry actor (fun happrove id hid => ⟨happrove, hid⟩) comment _

end Decide

/-! ## One signature -/

section Sign

variable {env : Env} {s s' : Session Db} {id : ℕ} {who : String}

/-- row `r` of request `id` holds a signature made with the key, over its digest -/
structure MadeWith (env : Env) (key : SigningKey) (r : SigningRequest) : Prop where
  signed : r.status = .signed
  made : ∃ signer cert der, env.keystoreLoad key.keyRef = .ok signer ∧
    env.signedData signer cert r.digestAlg r.digestHex = .ok der ∧ r.signatureDer = some der

/-- **A signature is over the digest of the request's row, and made with the key of that row.** -/
theorem signNow_made (h : signNow env id who s = (.ok (), s')) :
    ∃ r r' key, s.work.signingRequests.get id = some r ∧ r.status = .pending ∧
      s.work.signingKeys.get r.keyId = some key ∧ s'.work.signingRequests.get id = some r' ∧ r'.keyId = r.keyId ∧
      r'.digestHex = r.digestHex ∧ MadeWith env key r' := by
  unfold signNow at h
  rw [Tx.get_bind] at h
  cases hreq : s.work.signingRequests.get id with
  | none =>
    rw [hreq] at h
    cases h
  | some r =>
    simp only [hreq] at h
    cases hkey : s.work.signingKeys.get r.keyId with
    | none =>
      rw [hkey] at h
      cases h
    | some key =>
      simp only [hkey] at h
      split at h
      · cases h
      next hpending =>
      split at h
      · cases h
      obtain ⟨rc, s1, h1, h⟩ := Tx.bind_returns.1 h
      obtain ⟨_, s2, h2, h⟩ := Tx.bind_returns.1 h
      obtain ⟨signer, s3, h3, h⟩ := Tx.bind_returns.1 h
      obtain ⟨tsaCa, s4, h4, h⟩ := Tx.bind_returns.1 h
      obtain ⟨_, s5, h5, h⟩ := Tx.bind_returns.1 h
      obtain ⟨der, s6, h6, h⟩ := Tx.bind_returns.1 h
      obtain ⟨-, rfl⟩ := Prod.mk.inj h1
      obtain ⟨-, rfl⟩ := Prod.mk.inj h2
      obtain ⟨hsigner, rfl⟩ := Prod.mk.inj h3
      obtain ⟨-, rfl⟩ := Prod.mk.inj h4
      obtain ⟨hder, rfl⟩ := Prod.mk.inj h6
      -- the timestamp authority's certificate is a column of its CA
      have htsa : s5.work.signingRequests = s.work.signingRequests := by
        have hkeeps : Calm (fun a b : Db => b.signingRequests = a.signingRequests) (CAService.ensureTsa env tsaCa.1 tsaCa.2) :=
          CAService.calm_ensureTsa_of ⟨fun _ _ => rfl, fun _ _ => rfl, fun _ _ _ _ => rfl, fun _ _ _ => rfl, fun _ _ => rfl,
            fun _ _ => rfl, fun _ _ _ => rfl⟩ _ _
        exact (hkeeps s).keeps (I := fun d : Db => d.signingRequests = s.work.signingRequests) (fun _ _ hw h => hw.trans h)
          rfl h5
      obtain ⟨-, rfl⟩ := Prod.mk.inj h
      refine ⟨r, { r with signatureDer := some der, status := .signed, signedAt := some env.now }, key, rfl,
        not_not.1 hpending, hkey, ?_, rfl, rfl, rfl, signer, rc.2, der, libCall_ok hsigner, libCall_ok hder, rfl⟩
      refine (Table.get_update_self _ _ _).trans ?_
      rw [show Col.signingRequests.get s5.work = s.work.signingRequests from htsa, hreq]
      rfl

/-- carrying out an approval of a signature is signing the request it names -/
theorem execute_signs {approvalId : ℕ} {req : ApprovalRequest} (haction : req.action = .codeSign)
    (h : execute env approvalId req who s = (.ok (), s')) : ∃ id, Names req id ∧ signNow env id who s = (.ok (), s') := by
  unfold execute at h
  cases hpayload : req.payload with
  | obj kvs =>
    rw [hpayload] at h
    obtain ⟨keys, mid, hbranch, hstore⟩ := Tx.bind_returns.1 h
    unfold executeBranch at hbranch
    rw [haction] at hbranch
    obtain ⟨id, mid', hlift, hbranch⟩ := Tx.bind_returns.1 hbranch
    obtain ⟨hid, rfl⟩ := Prod.mk.inj hlift
    obtain ⟨u, mid'', hsign, hnone⟩ := Tx.bind_returns.1 hbranch
    obtain ⟨hkeys, rfl⟩ := Prod.mk.inj hnone
    obtain rfl := Except.ok.inj hkeys
    obtain ⟨-, rfl⟩ := Prod.mk.inj hstore
    exact ⟨id, ⟨haction, hid⟩, hsign⟩
  | _ =>
    rw [hpayload] at h
    cases h

end Sign

/-! ## Requesting -/

/-- what a waiting approval shows of a request: the name of its key, and its digest -/
def ShownBy (d : Db) (req : ApprovalRequest) (r : SigningRequest) : Prop :=
  ∃ key, d.signingKeys.get r.keyId = some key ∧ item req.payload "key" = .ok (.str key.name) ∧
    item req.payload "digest" = .ok (.str r.digestHex)

/-- a request under a release key: its row, and the approval that shows it -/
structure Asked (r : SigningRequest) (req : ApprovalRequest) (d d' : Db) : Prop where
  keys : d'.signingKeys = d.signingKeys
  approvals : d'.approvals = d.approvals.insert req
  next : d'.signingRequests.next = d.signingRequests.next + 1
  row : d'.signingRequests.get d.signingRequests.next = some r
  others : ∀ i, i ≠ d.signingRequests.next → d'.signingRequests.get i = d.signingRequests.get i
  unsigned : r.status = .pending
  names : Names req d.signingRequests.next
  shows : ShownBy d req r

/-- what a request leaves: nothing, a row with an approval that shows it, or a row signed under a test key -/
inductive Requested (d d' : Db) : Prop where
  | refused (h : d' = d)
  | asked (r : SigningRequest) (req : ApprovalRequest) (h : Asked r req d d')
  | signed (r : SigningRequest) (key : SigningKey) (hkey : d.signingKeys.get r.keyId = some key)
      (htest : key.purpose ≠ "release") (hunsigned : r.status = .pending)
      (h : Apart (fun _ => False) (· = d.signingRequests.next) { d with signingRequests := d.signingRequests.insert r } d')

/-- the artifact's fields hide none of the payload's -/
theorem artifactFields_keys (artifact : List (String × String)) :
    ∀ p ∈ artifactFields artifact, p.1 ∈ ["name", "version", "commit", "pipeline"] := by
  intro p hp
  unfold artifactFields at hp
  obtain ⟨q, hq, rfl⟩ := List.mem_map.1 hp
  simpa using (List.mem_filter.1 hq).2

theorem item_updateItems (kvs : List (String × Json)) (artifact : List (String × String)) {key : String} {j : Json}
    (hkey : key ∉ ["name", "version", "commit", "pipeline"]) (h : kvs.lookup key = some j) :
    item (.obj (updateItems kvs (artifactFields artifact))) key = .ok j := by
  have hlookup : (updateItems kvs (artifactFields artifact)).lookup key = some j := by
    have hother : ∀ p ∈ artifactFields artifact, p.1 ≠ key := by
      intro p hp heq
      exact hkey (heq ▸ artifactFields_keys artifact p hp)
    exact (lookup_updateItems _ _ hother).trans h
  unfold item
  simp only [hlookup]

theorem requestSignature_leaves (env : Env) (d : Db) (actor : Actor) (keyName digestAlg digestHex : String)
    (artifact : List (String × String)) :
    Requested d (Tx.transact (requestSignature env actor keyName digestAlg digestHex artifact) d).2 := by
  rcases hrun : requestSignature env actor keyName digestAlg digestHex artifact ⟨d, d⟩ with ⟨e | id, s'⟩
  · refine .refused ?_
    rw [Tx.transact_snd_of_raises (by rintro ⟨a, s, h⟩; rw [hrun] at h; cases h)]
    exact (@calm_requestSignature env .full actor keyName digestAlg digestHex artifact ⟨d, d⟩).1
  rw [Tx.transact_snd_of_run hrun]
  unfold requestSignature at hrun
  rw [Tx.get_bind] at hrun
  obtain ⟨found, s1, hlift, hrun⟩ := Tx.bind_returns.1 hrun
  obtain ⟨hfound, rfl⟩ := Prod.mk.inj hlift
  cases found with
  | none => cases hrun
  | some p =>
    obtain ⟨keyId, key⟩ := p
    have hkey : d.signingKeys.get keyId = some key := (oneOrNone_some hfound).1
    dsimp only at hrun
    split at hrun
    · cases hrun
    obtain ⟨_, s2, hmay, hrun⟩ := Tx.bind_returns.1 hrun
    obtain ⟨-, rfl⟩ := Prod.mk.inj hmay
    cases hlen : DIGEST_LEN.lookup (String.ofList (env.lower digestAlg.toList)) with
    | none =>
      rw [hlen] at hrun
      cases hrun
    | some len =>
    simp only [hlen] at hrun
    split at hrun
    · cases hrun
    split at hrun
    · cases hrun
    obtain ⟨rowId, s3, hadd, hrun⟩ := Tx.bind_returns.1 hrun
    cases hadd
    obtain ⟨_, s4, hrecord, hrun⟩ := Tx.bind_returns.1 hrun
    cases hrecord
    split at hrun
    · next hrelease =>
      obtain ⟨approval, s5, happroval, hrun⟩ := Tx.bind_returns.1 hrun
      cases happroval
      cases hrun
      obtain ⟨x, hx⟩ := inserted_approval env.st ⟨.codeSign,
        .obj (updateItems [("request_id", .num d.signingRequests.next), ("key", .str key.name),
          ("digest", .str (String.ofList (env.lower digestHex.toList)))] (artifactFields artifact)),
        actor.name, .pending, none, none, none, none⟩
      have hitem := fun key' j => @item_updateItems [("request_id", .num d.signingRequests.next), ("key", .str key.name),
        ("digest", .str (String.ofList (env.lower digestHex.toList)))] artifact key' j
      refine .asked
        ⟨keyId, actor.name, String.ofList (env.lower digestAlg.toList), String.ofList (env.lower digestHex.toList),
          artifactFields artifact, .pending, some d.approvals.next, none, none⟩ _
        ⟨rfl, congrArg d.approvals.insert hx, rfl,
          (Table.get_update_self _ _ _).trans (congrArg _ (Table.get_insert_next _ _)), fun i hi => ?_, rfl, ⟨rfl, ?_⟩,
          key, hkey, ?_, ?_⟩
      · exact (Table.get_update_of_ne _ _ hi).trans ((Table.get_insert _ _ _).trans (if_neg hi))
      · exact except_bind_ok.2 ⟨_, hitem _ _ (by decide) rfl, rfl⟩
      · exact hitem _ _ (by decide) rfl
      · exact hitem _ _ (by decide) rfl
    · next htest =>
      obtain ⟨_, s5, hsign, hrun⟩ := Tx.bind_returns.1 hrun
      cases hrun
      refine .signed
        ⟨keyId, actor.name, String.ofList (env.lower digestAlg.toList), String.ofList (env.lower digestHex.toList),
          artifactFields artifact, .pending, none, none, none⟩ key hkey htest rfl ?_
      refine Tx.CalmAt.keeps (I := Apart _ _ _) ?_ (fun _ _ hw h => h.trans hw) ?_ hsign
      · exact @calm_apartSignNow env (fun _ => False) (· = d.signingRequests.next) _ rfl "policy:test-key" _
      · exact apart_of rfl (fun _ _ => rfl) rfl

/-! ## Runs -/

inductive Op where
  | request (env : Env) (actor : Actor) (keyName digestAlg digestHex : String) (artifact : List (String × String))
  /-- approving carries the approval out -/
  | decide (env : Env) (actor : Actor) (approvalId : ℕ) (approve : Bool) (comment : Option String)
  /-- any SQL write to `signing_requests` -/
  | sql (t : Table SigningRequest)

def step (d : Db) : Op → Db
  | .request env actor keyName digestAlg digestHex artifact =>
    (Tx.transact (requestSignature env actor keyName digestAlg digestHex artifact) d).2
  | .decide env actor approvalId approve comment => (Tx.transact (Platform.decide env actor approvalId approve comment) d).2
  | .sql t => { d with signingRequests := t }

/-- the call signs request `id`, and leaves row `r` -/
structure Signs (d : Db) (o : Op) (id : ℕ) (r : SigningRequest) : Prop where
  call : ∀ t, o ≠ .sql t
  before : ∀ r0, d.signingRequests.get id = some r0 → r0.status ≠ .signed
  after : (step d o).signingRequests.get id = some r
  signed : r.status = .signed

/-- the call signs, and it approves this approval -/
def Yields (approvalId : ℕ) (d : Db) (o : Op) : Prop :=
  (∃ id r, Signs d o id r) ∧ ∃ env actor comment, o = .decide env actor approvalId true comment

/-- the approval that authorises the signature in row `r`: its payload is sealed and shows the signature's digest and key, and
it is decided by another than its requester -/
structure Approves (d : Db) (o : Op) (id : ℕ) (r : SigningRequest) (key : SigningKey) (env : Env) (actor : Actor)
    (approvalId : ℕ) (comment : Option String) (req : ApprovalRequest) : Prop where
  op : o = .decide env actor approvalId true comment
  stored : d.approvals.get approvalId = some req
  intact : verify env.st req = true
  names : Names req id
  showsKey : item req.payload "key" = .ok (.str key.name)
  showsDigest : item req.payload "digest" = .ok (.str r.digestHex)
  another : req.requestedBy ≠ actor.name
  decided : ∃ req', (step d o).approvals.get approvalId = some req' ∧ req'.status = .approved ∧ req'.decidedBy = some actor.name
  made : MadeWith env key r

/-- every signature the call makes with a release key is authorised -/
def ReleaseAuthorised (d : Db) (o : Op) : Prop :=
  ∀ id r key, Signs d o id r → d.signingKeys.get r.keyId = some key → key.purpose = "release" →
    ∃ env actor approvalId comment req, Approves d o id r key env actor approvalId comment req

/-! ### What waiting approvals show -/

/-- the approval waits for a decision on signing request `id` -/
def WaitsFor (d : Db) (approvalId : ℕ) (req : ApprovalRequest) (id : ℕ) : Prop :=
  d.approvals.get approvalId = some req ∧ req.status = .pending ∧ Names req id

/-- a waiting approval names a request whose id is taken, and shows what that request is for -/
structure Shown (d : Db) : Prop where
  taken : ∀ a req id, WaitsFor d a req id → id < d.signingRequests.next
  shows : ∀ a req id r, WaitsFor d a req id → d.signingRequests.get id = some r → ShownBy d req r

/-- an SQL write keeps the key and the digest of the requests that approvals wait for, and their ids are not given out
again -/
def KeepsShown (d : Db) : Op → Prop
  | .sql t => ∀ a req id, WaitsFor d a req id → id < t.next ∧ ∀ r', t.get id = some r' →
      ∃ r, d.signingRequests.get id = some r ∧ r'.keyId = r.keyId ∧ r'.digestHex = r.digestHex
  | _ => True

section Runs

variable {d d' : Db} {o : Op}

theorem ShownBy.of_keys {req : ApprovalRequest} {r r' : SigningRequest} (h : ShownBy d req r)
    (hkeys : ∀ i k, d.signingKeys.get i = some k → d'.signingKeys.get i = some k) (hkey : r'.keyId = r.keyId)
    (hdigest : r'.digestHex = r.digestHex) : ShownBy d' req r' := by
  obtain ⟨key, hget, hname, hshown⟩ := h
  refine ⟨key, ?_, hname, ?_⟩
  · rw [hkey]
    exact hkeys _ _ hget
  · rw [hdigest]
    exact hshown

/-- approvals that waited before, for requests that are kept -/
theorem Shown.of_kept (h : Shown d) (hkeys : ∀ i k, d.signingKeys.get i = some k → d'.signingKeys.get i = some k)
    (hnext : ∀ a req id, WaitsFor d' a req id → WaitsFor d a req id ∧ id < d'.signingRequests.next)
    (hrows : ∀ a req id r', WaitsFor d a req id → d'.signingRequests.get id = some r' →
      ∃ r, d.signingRequests.get id = some r ∧ r'.keyId = r.keyId ∧ r'.digestHex = r.digestHex) : Shown d' where
  taken a req id hw := (hnext a req id hw).2
  shows a req id r' hw hget := by
    have hbefore := (hnext a req id hw).1
    obtain ⟨r, hr, hkey, hdigest⟩ := hrows a req id r' hbefore hget
    exact (h.shows a req id r hbefore hr).of_keys hkeys hkey hdigest

theorem shown_request (h : Shown d) (env : Env) (actor : Actor) (keyName digestAlg digestHex : String)
    (artifact : List (String × String)) : Shown (step d (.request env actor keyName digestAlg digestHex artifact)) := by
  have hleaves : Requested d (step d (.request env actor keyName digestAlg digestHex artifact)) :=
    requestSignature_leaves env d actor keyName digestAlg digestHex artifact
  generalize step d (.request env actor keyName digestAlg digestHex artifact) = d' at hleaves
  cases hleaves with
  | refused hsame => rwa [hsame]
  | asked r req hasked =>
    -- the approval that is added is the only new one, and the only one for the new row
    have hwaits : ∀ a req' id, WaitsFor d' a req' id →
        WaitsFor d a req' id ∨ (req' = req ∧ id = d.signingRequests.next) := by
      intro a req' id ⟨hget, hpending, hnames⟩
      rw [hasked.approvals, Table.get_insert] at hget
      split at hget
      · obtain rfl := Option.some.inj hget
        have hid := hnames.2.symm.trans hasked.names.2
        exact Or.inr ⟨rfl, Except.ok.inj hid⟩
      · exact Or.inl ⟨hget, hpending, hnames⟩
    refine ⟨fun a req' id hw => ?_, fun a req' id r' hw hget => ?_⟩
    · rw [hasked.next]
      rcases hwaits a req' id hw with hbefore | ⟨-, rfl⟩
      · exact Nat.lt_succ_of_lt (h.taken a req' id hbefore)
      · exact Nat.lt_succ_self _
    · have hkeys : ∀ i k, d.signingKeys.get i = some k → d'.signingKeys.get i = some k := by
        intro i k hk
        rw [hasked.keys]
        exact hk
      rcases hwaits a req' id hw with hbefore | ⟨rfl, rfl⟩
      · have hne : id ≠ d.signingRequests.next := Nat.ne_of_lt (h.taken a req' id hbefore)
        rw [hasked.others id hne] at hget
        exact (h.shows a req' id r' hbefore hget).of_keys hkeys rfl rfl
      · obtain rfl := Option.some.inj (hasked.row.symm.trans hget)
        exact hasked.shows.of_keys hkeys rfl rfl
  | signed r key hkey htest hunsigned hapart =>
    have hwaits : ∀ a req id, WaitsFor d' a req id → WaitsFor d a req id := by
      intro a req id ⟨hget, hpending, hnames⟩
      exact ⟨(hapart.approvals a not_false).symm.trans hget, hpending, hnames⟩
    refine h.of_kept hapart.keys (fun a req id hw => ⟨hwaits a req id hw, ?_⟩) fun a req id r' hw hget => ?_
    · rw [hapart.next]
      exact Nat.lt_succ_of_lt (h.taken a req id (hwaits a req id hw))
    · obtain ⟨x, hx, hkey', hdigest, -⟩ := hapart.requests id r' hget
      have hne : id ≠ d.signingRequests.next := Nat.ne_of_lt (h.taken a req id hw)
      exact ⟨x, ((Table.get_insert _ _ _).trans (if_neg hne)).symm.trans hx, hkey', hdigest⟩

theorem shown_decide (h : Shown d) (env : Env) (actor : Actor) (approvalId : ℕ) (approve : Bool) (comment : Option String) :
    Shown (step d (.decide env actor approvalId approve comment)) := by
  have hcases := decide_cases d approvalId actor env approve comment
  rcases decide_apart d actor approvalId approve comment with hsame | ⟨req, hchecks, hapart⟩
  · rw [show step d (.decide env actor approvalId approve comment) = d from hsame]
    exact h
  show Shown (Tx.transact (Platform.decide env actor approvalId approve comment) d).2
  generalize (Tx.transact (Platform.decide env actor approvalId approve comment) d).2 = d' at hcases hapart
  rcases hcases with rfl | ⟨-, decided, -, hdecided, hstatus, -⟩
  · exact h
  -- the approval that is decided does not wait any more
  have hwaits : ∀ a req id, WaitsFor d' a req id → WaitsFor d a req id := by
    intro a req id ⟨hget, hpending, hnames⟩
    have hne : a ≠ approvalId := by
      rintro rfl
      obtain rfl := Option.some.inj (hdecided.symm.trans hget)
      rw [hpending] at hstatus
      cases approve <;> cases hstatus
    exact ⟨(hapart.approvals a hne).symm.trans hget, hpending, hnames⟩
  refine h.of_kept hapart.keys (fun a req id hw => ⟨hwaits a req id hw, ?_⟩) fun a req id r' hw hget => ?_
  · rw [hapart.next]
    exact h.taken a req id (hwaits a req id hw)
  · obtain ⟨r, hr, hkey, hdigest, -⟩ := hapart.requests id r' hget
    exact ⟨r, hr, hkey, hdigest⟩

/-- **What waiting approvals show stays what their requests are for**, where SQL writes keep that. -/
theorem shown_step (h : Shown d) (hkeeps : KeepsShown d o) : Shown (step d o) := by
  cases o with
  | request env actor keyName digestAlg digestHex artifact => exact shown_request h env actor keyName digestAlg digestHex artifact
  | decide env actor approvalId approve comment => exact shown_decide h env actor approvalId approve comment
  | sql t =>
    refine h.of_kept (fun _ _ h => h) (fun a req id hw => ⟨hw, (hkeeps a req id hw).1⟩) fun a req id r' hw hget => ?_
    exact (hkeeps a req id hw).2 r' hget

/-! ### What signs -/

/-- a request by itself signs only with a key that needs no second person -/
theorem request_signs {env : Env} {actor : Actor} {keyName digestAlg digestHex : String} {artifact : List (String × String)}
    {id : ℕ} {r : SigningRequest} {key : SigningKey} (h : Signs d (.request env actor keyName digestAlg digestHex artifact) id r)
    (hkey : d.signingKeys.get r.keyId = some key) : key.purpose ≠ "release" := by
  have hafter : (Tx.transact (requestSignature env actor keyName digestAlg digestHex artifact) d).2.signingRequests.get id =
      some r := h.after
  have hleaves := requestSignature_leaves env d actor keyName digestAlg digestHex artifact
  generalize (Tx.transact (requestSignature env actor keyName digestAlg digestHex artifact) d).2 = d' at hleaves hafter
  cases hleaves with
  | refused hsame =>
    rw [hsame] at hafter
    exact absurd h.signed (h.before r hafter)
  | asked x req hasked =>
    by_cases hid : id = d.signingRequests.next
    · subst hid
      obtain rfl := Option.some.inj (hasked.row.symm.trans hafter)
      cases hasked.unsigned.symm.trans h.signed
    · rw [hasked.others id hid] at hafter
      exact absurd h.signed (h.before r hafter)
  | signed x key' hkey' htest hunsigned hapart =>
    obtain ⟨y, hy, hykey, -, hsigned⟩ := hapart.requests id r hafter
    have hy : (d.signingRequests.insert x).get id = some y := hy
    rw [Table.get_insert] at hy
    split at hy
    · obtain rfl := Option.some.inj hy
      rw [hykey, hkey'] at hkey
      obtain rfl := Option.some.inj hkey
      exact htest
    · next hid =>
      have hsame := (hsigned h.signed).resolve_right hid
      exact absurd hsame (h.before y hy)

/-- a decision signs the request its approval names, under the digest and the key of that request's row -/
theorem decide_signs {env : Env} {actor : Actor} {approvalId : ℕ} {approve : Bool} {comment : Option String} {id : ℕ}
    {r : SigningRequest} (h : Signs d (.decide env actor approvalId approve comment) id r) :
    approve = true ∧ ∃ req r0 key, decideChecks env d actor approvalId approve = .ok req ∧ Names req id ∧
      d.signingRequests.get id = some r0 ∧ d.signingKeys.get r0.keyId = some key ∧ r.keyId = r0.keyId ∧
      r.digestHex = r0.digestHex ∧ MadeWith env key r := by
  have hafter : (Tx.transact (Platform.decide env actor approvalId approve comment) d).2.signingRequests.get id = some r :=
    h.after
  rcases decide_apart d actor approvalId approve comment with hsame | ⟨req, hchecks, hapart⟩
  · rw [hsame] at hafter
    exact absurd h.signed (h.before r hafter)
  obtain ⟨r0, hr0, -, -, hsigned⟩ := hapart.requests id r hafter
  obtain ⟨rfl, hnames⟩ := (hsigned h.signed).resolve_left (h.before r0 hr0)
  refine ⟨rfl, req, ?_⟩
  have hrun := decide_checked hchecks comment
  rw [if_pos rfl] at hrun
  rcases hexecute : execute env approvalId req actor.name (noted env actor approvalId req true comment ⟨d, d⟩) with ⟨e | u, s'⟩
  · -- what raises leaves the database as it was
    have hnotIssue : ¬ RefusedRequest env (noted env actor approvalId req true comment ⟨d, d⟩).work req := by
      intro hrefused
      cases hnames.1.symm.trans hrefused.1
    have hcommitted := (@execute_calmAt env .full req _ (granted_full _ _) approvalId trivial actor.name hnotIssue).1
    rw [hexecute] at hcommitted
    rw [hexecute] at hrun
    rw [Tx.transact_snd_of_raises (by rintro ⟨a, s, hs⟩; rw [hrun] at hs; cases hs), hrun] at hafter
    have hafter : s'.committed.signingRequests.get id = some r := hafter
    rw [hcommitted] at hafter
    exact absurd h.signed (h.before r hafter)
  · rw [hexecute] at hrun
    rw [Tx.transact_snd_of_run hrun] at hafter
    obtain ⟨id', hnames', hsign⟩ := execute_signs hnames.1 hexecute
    obtain rfl : id' = id := Except.ok.inj (hnames'.2.symm.trans hnames.2)
    obtain ⟨x, y, key, hx, -, hkey, hy, hykey, hydigest, hmade⟩ := signNow_made hsign
    obtain rfl := Option.some.inj (hy.symm.trans hafter)
    exact ⟨x, key, hchecks, hnames, hx, hkey, hykey, hydigest, hmade⟩

/-- while waiting approvals show what their requests are for, release signatures are authorised -/
theorem shown_authorised (h : Shown d) (o : Op) : ReleaseAuthorised d o := by
  intro id r key hsigns hkey hrelease
  cases o with
  | request env actor keyName digestAlg digestHex artifact => exact absurd hrelease (request_signs hsigns hkey)
  | decide env actor approvalId approve comment =>
    obtain ⟨rfl, req, r0, key', hchecks, hnames, hr0, hkey', hsame, hdigest, hmade⟩ := decide_signs hsigns
    have hmay := decideChecks_ok hchecks
    rw [hsame, hkey'] at hkey
    obtain rfl := Option.some.inj hkey
    obtain ⟨key'', hkey'', hname, hshown⟩ := h.shows approvalId req id r0 ⟨hmay.stored, hmay.pending, hnames⟩ hr0
    obtain rfl := Option.some.inj (hkey'.symm.trans hkey'')
    refine ⟨env, actor, approvalId, comment, req, rfl, hmay.stored, hmay.intact, hnames, hname, ?_, hmay.other, ?_, hmade⟩
    · rw [hdigest]
      exact hshown
    · rcases decide_row hchecks comment with ⟨-, hsame⟩ | hrow
      · have hafter := hsigns.after
        rw [show step d (.decide env actor approvalId true comment) = d from hsame] at hafter
        exact absurd hsigns.signed (hsigns.before r hafter)
      · exact hrow
  | sql t => exact absurd rfl (hsigns.call t)

/-! ### One signature for each approval -/

theorem settled_step {approvalId : ℕ} {req : ApprovalRequest} (hget : d.approvals.get approvalId = some req)
    (hst : req.status ≠ .pending) (o : Op) : (step d o).approvals.get approvalId = some req := by
  cases o with
  | request env actor keyName digestAlg digestHex artifact =>
    exact step_settled (c := ⟨env, .requestSignature actor keyName digestAlg digestHex artifact⟩) hget hst
  | decide env actor i approve comment => exact step_settled (c := ⟨env, .decide actor i approve comment⟩) hget hst
  | sql t => exact hget

theorem yields_once (approvalId : ℕ) (d : Db) (ops : List Op) : AtMostOnce step (Yields approvalId) d ops := by
  refine atMostOnce_of_open (I := fun _ => True) (C := fun _ _ => True)
    (P := fun d => ∀ req, d.approvals.get approvalId = some req → req.status = .pending) (fun _ _ _ _ => trivial) ?_ ?_ trivial
    ((along_iff_split d ops).2 fun _ _ _ _ => trivial) ((along_iff_split d ops).2 fun before o after _ => ?_)
  · -- a signature leaves its approval approved
    rintro d o - - ⟨⟨id, r, hsigns⟩, env, actor, comment, rfl⟩ hpending
    obtain ⟨-, req, -, -, hchecks, -⟩ := decide_signs hsigns
    rcases decide_row hchecks comment with ⟨-, hsame⟩ | ⟨req', hget, hst, -⟩
    · have hafter := hsigns.after
      rw [show step d (.decide env actor approvalId true comment) = d from hsame] at hafter
      exact absurd hsigns.signed (hsigns.before r hafter)
    · cases (hpending req' hget).symm.trans hst
  · intro d o _ _ hclosed hpending
    refine hclosed fun req hget => ?_
    by_contra hst
    exact hst (hpending req (settled_step hget hst o))
  · rintro ⟨⟨id, r, hsigns⟩, env, actor, comment, rfl⟩ req hget
    obtain ⟨-, req', -, -, hchecks, -⟩ := decide_signs hsigns
    have hmay := decideChecks_ok hchecks
    obtain rfl := Option.some.inj (hget.symm.trans hmay.stored)
    exact hmay.pending

/-- **Release signatures match their approvals**, where SQL writes keep the key and the digest of the requests that approvals
wait for. -/
theorem release_signatures_match {d0 : Db} (hshown : Shown d0) {ops : List Op} (hsql : Along step KeepsShown d0 ops) :
    Along step ReleaseAuthorised d0 ops ∧ ∀ approvalId, AtMostOnce step (Yields approvalId) d0 ops := by
  refine ⟨?_, fun approvalId => yields_once approvalId d0 ops⟩
  exact along_of_inv (I := Shown) (fun d o h hkeeps => shown_step h hkeeps) (fun d o h _ => shown_authorised h o) hshown hsql

end Runs

/-! ### A request, an SQL write and an approval -/

section Examples

/-- an SQL UPDATE of columns other than the key and the digest keeps what approvals show -/
theorem keepsShown_update {d : Db} (h : Shown d) (id : ℕ) {f : SigningRequest → SigningRequest}
    (hf : ∀ r, (f r).keyId = r.keyId ∧ (f r).digestHex = r.digestHex) :
    KeepsShown d (.sql (d.signingRequests.update id f)) := by
  intro a req i hw
  refine ⟨h.taken a req i hw, fun r' hget => ?_⟩
  rw [Table.get_update] at hget
  split at hget
  · obtain ⟨r, hr, rfl⟩ := Option.map_eq_some_iff.1 hget
    exact ⟨r, hr, hf r⟩
  · exact ⟨r', hget, rfl, rfl⟩

/-- the issuing CA, a release key and its certificate -/
def releaseDb : Db :=
  { Db.empty with
    cas := Table.empty.insert
      ⟨"Issuing", none, "ca-pem", "ref", "file", false, 0, none, none, none, none, none, none, none, none, none, none⟩
    certificates := Table.empty.insert (inserted demoState (certRow demoEnv demoCaCert .issued (some 1)))
    signingKeys := Table.empty.insert ⟨"rel", 1, "release", "ec-p384", "file:rel", "file", some 1, "active", "olga"⟩ }

theorem releaseDb_shown : Shown releaseDb where
  taken a req id hw := by cases hw.1
  shows a req id r hw := by cases hw.1

def digestOf (c : Char) : String := String.ofList (List.replicate 64 c)

/-- the pipeline asks for a release signature over a digest of `a`s -/
def asks : Op := .request demoEnv ⟨"ci", .app, some 1⟩ "rel" "sha256" (digestOf 'a') [("name", "installer")]

def approves : Op := .decide demoEnv ⟨"ann", .approver, none⟩ 1 true none

/-- an SQL UPDATE of the request that waits -/
def updates (f : SigningRequest → SigningRequest) : Op := .sql ((step releaseDb asks).signingRequests.update 1 f)

def relabel (r : SigningRequest) : SigningRequest := { r with artifact := [] }

theorem relabelled_signed :
    (Along step ReleaseAuthorised releaseDb [asks, updates relabel, approves] ∧
      ∀ approvalId, AtMostOnce step (Yields approvalId) releaseDb [asks, updates relabel, approves]) ∧
      ((run step releaseDb [asks, updates relabel, approves]).signingRequests.get 1).map (·.status) = some .signed := by
  refine ⟨release_signatures_match releaseDb_shown ⟨trivial, ?_, trivial, trivial⟩, by decide +kernel⟩
  exact keepsShown_update (shown_step releaseDb_shown (o := asks) trivial) 1 fun _ => ⟨rfl, rfl⟩

/-- the digest is another one by the time it is signed -/
def swap (r : SigningRequest) : SigningRequest := { r with digestHex := digestOf 'b' }

def swappedDb : Db := run step releaseDb [asks, updates swap]

/-- The approver saw a digest of `a`s, and a digest of `b`s is signed. -/
theorem signed_unseen :
    ¬ ∀ (d0 : Db) (ops : List Op), Shown d0 →
      Along step ReleaseAuthorised d0 ops ∧ ∀ approvalId, AtMostOnce step (Yields approvalId) d0 ops := by
  intro h
  have hlaw : ReleaseAuthorised swappedDb approves :=
    (h releaseDb [asks, updates swap, approves] releaseDb_shown).1.2.2.1
  have hafter : ((step swappedDb approves).signingRequests.get 1).map (fun r => (r.status, r.keyId, r.digestHex)) =
      some (.signed, 1, digestOf 'b') := by decide +kernel
  have hbefore : (swappedDb.signingRequests.get 1).map (·.status) = some .pending := by decide +kernel
  have hkey : (swappedDb.signingKeys.get 1).map (·.purpose) = some "release" := by decide +kernel
  have hshown : (swappedDb.approvals.get 1).bind (fun req => (item req.payload "digest").toOption) =
      some (.str (digestOf 'a')) := by decide +kernel
  generalize swappedDb = d at hlaw hafter hbefore hkey hshown
  obtain ⟨r, hget, hr⟩ := Option.map_eq_some_iff.1 hafter
  obtain ⟨key, hkey, hpurpose⟩ := Option.map_eq_some_iff.1 hkey
  obtain ⟨hstatus, hid, hdigest⟩ : r.status = .signed ∧ r.keyId = 1 ∧ r.digestHex = digestOf 'b' := by
    obtain ⟨hstatus, hrest⟩ := Prod.mk.inj hr
    exact ⟨hstatus, Prod.mk.inj hrest⟩
  have hsigns : Signs d approves 1 r := by
    refine ⟨fun t => ?_, fun r0 hr0 => ?_, hget, hstatus⟩
    · intro hop
      cases hop
    · rw [hr0] at hbefore
      have hpending : r0.status = .pending := Option.some.inj hbefore
      rw [hpending]
      decide
  obtain ⟨env, actor, approvalId, comment, req, happroves⟩ := hlaw 1 r key hsigns (by rw [hid]; exact hkey) hpurpose
  obtain ⟨rfl, rfl, rfl, rfl⟩ : env = demoEnv ∧ actor = ⟨"ann", .approver, none⟩ ∧ approvalId = 1 ∧ comment = none := by
    have hop := happroves.op
    unfold approves at hop
    injection hop with henv hactor hid' _ hcomment
    exact ⟨henv.symm, hactor.symm, hid'.symm, hcomment.symm⟩
  have hdigest' := happroves.showsDigest
  rw [happroves.stored] at hshown
  have hshown : (item req.payload "digest").toOption = some (.str (digestOf 'a')) := hshown
  rw [hdigest', hdigest] at hshown
  have hne : digestOf 'b' ≠ digestOf 'a' := by decide
  exact hne (Json.str.inj (Option.some.inj hshown))

end Examples

end Certadillo.CodeSign
