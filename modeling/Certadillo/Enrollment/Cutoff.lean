/-
The cutoffs of renewal campaigns: what `campaign_revoke` revokes as replaced, and what `campaign_status` counts as remaining.

Both ask `replacement_for`, which follows `replaced_by` wherever it leads: to a certificate that is revoked, expired, or has
other names. And a campaign only knows the certificates whose one advice row is its own.

- `turn_cases`: one advice row of the loop; `campaignLoop_cons`: the loop is its turns.
- `careful_covered`, `covered_careful`: the loop against the rows the call finds.
- `counted_iff`: when a certificate is counted as remaining.
- `ownAdvice_step`: campaigns that match nothing in common each keep their advice rows.
- `replaced_breaks_nothing_iff`: exactly when both hold.
- `replaced_breaks`: a link to a revoked certificate, and a certificate two campaigns matched.
-/
import Certadillo.Enrollment.CampaignRuns
import Certadillo.Revocation.Lasting
import Certadillo.Services.Requests

namespace Certadillo.Cutoff

open Integrity Policy Py Platform Ari Machine Campaigns

/-! ## Replaced and covered -/

def names (c : Certificate) : List String := [c.commonName].filter (· ≠ "") ++ c.sans

/-- another certificate of the same application that has all its names is active and unexpired -/
def Covered (d : Db) (now : ℤ) (id : ℕ) (c : Certificate) : Prop :=
  ∃ i n, d.certificates.get i = some n ∧ i ≠ id ∧ n.appId.isSome ∧ n.appId = c.appId ∧ n.status = .active ∧ now < n.notAfter ∧
    ∀ x ∈ names c, x ∈ names n

/-- the link of the certificate leads to a stored one; without a link, the app has a newer active one with the same names -/
def Replaced (d : Db) (since : ℤ) (id : ℕ) (c : Certificate) : Prop :=
  (∃ r, c.replacedBy = some r ∧ r ≠ 0 ∧ ∃ n, d.certificates.get r = some n) ∨
    ((c.replacedBy = none ∨ c.replacedBy = some 0) ∧ ∃ i n, d.certificates.get i = some n ∧ i ≠ id ∧ n.appId.isSome ∧
      n.appId = c.appId ∧ n.status = .active ∧ n.source = .issued ∧ since ≤ n.createdAt ∧ sorted n.sans = sorted c.sans ∧
      n.commonName = c.commonName)

theorem replacementFor_isSome {d : Db} {id : ℕ} {c : Certificate} {since : ℤ} :
    (replacementFor d id c since).isSome = true ↔ Replaced d since id c := by
  unfold replacementFor Replaced
  cases hlink : c.replacedBy.filter (· ≠ 0) with
  | some r =>
    obtain ⟨hr, hzero⟩ := Option.mem_filter_iff.1 hlink
    have hr : c.replacedBy = some r := hr
    have hzero : r ≠ 0 := by simpa using hzero
    simp [hr, hzero, Option.isSome_iff_exists]
  | none =>
    have hnone : c.replacedBy = none ∨ c.replacedBy = some 0 := by
      cases hr : c.replacedBy with
      | none => exact Or.inl rfl
      | some r => simpa [hr, Option.filter] using hlink
    have hnolink : ¬ ∃ r, c.replacedBy = some r ∧ r ≠ 0 ∧ ∃ n, d.certificates.get r = some n := by
      rintro ⟨r, hr, hzero, -⟩
      rcases hnone with h | h
      · rw [h] at hr
        cases hr
      · rw [h] at hr
        exact hzero (Option.some.inj hr).symm
    rw [or_iff_right hnolink, and_iff_right hnone]
    cases happ : c.appId with
    | none =>
      refine iff_of_false (by simp) ?_
      rintro ⟨i, n, -, -, hsome, hnone, -⟩
      rw [hnone] at hsome
      cases hsome
    | some app =>
      simp only [Option.isSome_map, List.find?_isSome, Prod.exists, Table.mem_all]
      constructor
      · rintro ⟨i, n, ⟨hget, hn⟩, htwin⟩
        simp only [Bool.and_eq_true, decide_eq_true_eq] at hn htwin
        exact ⟨i, n, hget, htwin.1.1, by simp [hn.1.1.1], hn.1.1.1, hn.1.1.2, hn.1.2, hn.2, htwin.1.2, htwin.2⟩
      · rintro ⟨i, n, hget, hne, -, hn, hactive, hsource, hsince, hsans, hcn⟩
        exact ⟨i, n, ⟨hget, by simp [hn, hactive, hsource, hsince]⟩, by simp [hne, hsans, hcn]⟩

/-! ## What a revocation leaves -/

/-- a row without the columns of a revocation other than its status -/
def core (c : Certificate) : Certificate := { c with revokedAt := none, revocationReason := none, sealHex := none }

/-- the same certificates, but for those columns -/
def Same (d d' : Db) : Prop := ∀ i, (d.certificates.get i).map core = (d'.certificates.get i).map core

theorem Same.symm {d d' : Db} (h : Same d d') : Same d' d := fun i => (h i).symm

theorem Same.get {d d' : Db} (h : Same d d') {i : ℕ} {c : Certificate} (hget : d.certificates.get i = some c) :
    ∃ c', d'.certificates.get i = some c' ∧ core c' = core c := by
  have hi := h i
  rw [hget] at hi
  exact Option.map_eq_some_iff.1 hi.symm

theorem core_congr {β : Type} {c c' : Certificate} (f : Certificate → β) (hf : ∀ c, f c = f (core c)) (h : core c' = core c) :
    f c' = f c := by
  rw [hf c', hf c, h]

theorem Covered.congr {d d' : Db} (h : Same d d') {c c' : Certificate} (hc : core c' = core c) {now : ℤ} {id : ℕ}
    (hcovered : Covered d now id c) : Covered d' now id c' := by
  obtain ⟨i, n, hget, hne, happ, hsame, hactive, hexpires, hnames⟩ := hcovered
  obtain ⟨n', hget', hn⟩ := h.get hget
  have happ' : n'.appId = n.appId := core_congr Certificate.appId (fun _ => rfl) hn
  have happc : c'.appId = c.appId := core_congr Certificate.appId (fun _ => rfl) hc
  have hnamesn : names n' = names n := core_congr names (fun _ => rfl) hn
  have hnamesc : names c' = names c := core_congr names (fun _ => rfl) hc
  have hstatus : n'.status = n.status := core_congr Certificate.status (fun _ => rfl) hn
  have hexpiry : n'.notAfter = n.notAfter := core_congr Certificate.notAfter (fun _ => rfl) hn
  refine ⟨i, n', hget', hne, ?_⟩
  rw [happ', happc, hnamesn, hnamesc, hstatus, hexpiry]
  exact ⟨happ, hsame, hactive, hexpires, hnames⟩

theorem Replaced.congr {d d' : Db} (h : Same d d') {c c' : Certificate} (hc : core c' = core c) {since : ℤ} {id : ℕ}
    (hreplaced : Replaced d since id c) : Replaced d' since id c' := by
  have hlink : c'.replacedBy = c.replacedBy := core_congr Certificate.replacedBy (fun _ => rfl) hc
  unfold Replaced
  rw [hlink]
  rcases hreplaced with ⟨r, hr, hzero, n, hget⟩ | ⟨hnone, i, n, hget, hne, happ, hsame, hactive, hsource, hsince, hsans, hcn⟩
  · obtain ⟨n', hget', -⟩ := h.get hget
    exact Or.inl ⟨r, hr, hzero, n', hget'⟩
  · obtain ⟨n', hget', hn⟩ := h.get hget
    have happ' : n'.appId = n.appId := core_congr Certificate.appId (fun _ => rfl) hn
    have happc : c'.appId = c.appId := core_congr Certificate.appId (fun _ => rfl) hc
    have hsansn : n'.sans = n.sans := core_congr Certificate.sans (fun _ => rfl) hn
    have hsansc : c'.sans = c.sans := core_congr Certificate.sans (fun _ => rfl) hc
    have hcnn : n'.commonName = n.commonName := core_congr Certificate.commonName (fun _ => rfl) hn
    have hcnc : c'.commonName = c.commonName := core_congr Certificate.commonName (fun _ => rfl) hc
    have hcreated : n'.createdAt = n.createdAt := core_congr Certificate.createdAt (fun _ => rfl) hn
    have hsource' : n'.source = n.source := core_congr Certificate.source (fun _ => rfl) hn
    have hstatus : n'.status = n.status := core_congr Certificate.status (fun _ => rfl) hn
    refine Or.inr ⟨hnone, i, n', hget', hne, ?_⟩
    rw [happ', happc, hsansn, hsansc, hcnn, hcnc, hcreated, hsource', hstatus]
    exact ⟨happ, hsame, hactive, hsource, hsince, hsans, hcn⟩

/-- with one more certificate revoked -/
def marked (d : Db) (id : ℕ) : Db :=
  { d with certificates := d.certificates.update id fun c => { c with status := .revoked } }

/-- the columns that no revocation writes -/
def base (c : Certificate) : Certificate := { core c with status := .active }

/-- a revocation that returns only revokes its certificate -/
theorem revoke_same {env : Env} {actor : Actor} {id : ℕ} {reason : String} {changeRef : Option String} {s s' : Session Db} {u : Unit}
    (h : revoke env actor id reason changeRef s = (.ok u, s')) : Same (marked s.work id) s'.work := by
  have hcalm : Tx.Calm (fun a b : Db => (∀ i, (b.certificates.get i).map base = (a.certificates.get i).map base) ∧
      ∀ i ≠ id, b.certificates.get i = a.certificates.get i) (revoke env actor id reason changeRef) := by
    refine calm_revoke_of (fun d => ⟨fun i => ?_, fun i hi => Table.get_update_of_ne _ _ hi⟩)
      (fun d _ _ => ⟨fun _ => rfl, fun _ _ => rfl⟩) (fun d _ => ⟨fun _ => rfl, fun _ _ => rfl⟩)
      (fun d _ => ⟨fun _ => rfl, fun _ _ => rfl⟩) actor changeRef
    by_cases hi : i = id
    · subst hi
      show ((d.certificates.update i _).get i).map base = _
      rw [Table.get_update_self, Option.map_map]
      congr 1
      funext c
      obtain ⟨x, hx⟩ := flushed_certificate env.st c (markRevoked env reason c)
      show base (flushed env.st c (markRevoked env reason c)) = base c
      rw [hx]
      rfl
    · exact congrArg (Option.map base) (Table.get_update_of_ne _ _ hi)
  obtain ⟨row, hrevoked⟩ := Revocation.revoke_ok h
  have hreach := (hcalm s).2
  rw [h] at hreach
  obtain ⟨hbase, hothers⟩ := Tx.reaches_inv
    (I := fun b : Db => (∀ i, (b.certificates.get i).map base = (s.work.certificates.get i).map base) ∧
      ∀ i ≠ id, b.certificates.get i = s.work.certificates.get i)
    (fun a b hab ha => ⟨fun i => (hab.1 i).trans (ha.1 i), fun i hi => (hab.2 i hi).trans (ha.2 i hi)⟩) hreach
    ⟨fun _ => rfl, fun _ _ => rfl⟩
  intro i
  by_cases hi : i = id
  · subst hi
    obtain ⟨f, hcerts, -, -, hst⟩ := hrevoked.certificates
    have hrow := hbase i
    rw [hcerts, Table.get_update_self, hrevoked.stored] at hrow
    show ((s.work.certificates.update i _).get i).map core = _
    rw [Table.get_update_self, hcerts, Table.get_update_self, hrevoked.stored]
    have heq : base (f row) = base row := Option.some.inj hrow
    have hcore : core (f row) = core { row with status := .revoked } := calc
      core (f row) = { base (f row) with status := (f row).status } := rfl
      _ = { base row with status := .revoked } := by rw [heq, hst]
      _ = core { row with status := .revoked } := rfl
    exact congrArg some hcore.symm
  · show ((s.work.certificates.update id _).get i).map core = _
    rw [Table.get_update_of_ne _ _ hi, hothers i hi]

/-! ## The loop and its turns -/

section Loop

variable {env : Env} {actor : Actor} {campaignId : ℕ} {camp : RenewalCampaign} {changeRef : Option String}

/-- a loop is its first turn and the rest -/
theorem campaignLoop_cons (adv : RenewalAdvice) (rest : List RenewalAdvice) :
    campaignLoop env actor campaignId camp false changeRef (adv :: rest) = (do
      let n ← campaignLoop env actor campaignId camp false changeRef [adv]
      let m ← campaignLoop env actor campaignId camp false changeRef rest
      pure (m + n)) := by
  funext s
  conv_lhs => rw [campaignLoop]
  conv_rhs => rw [campaignLoop]
  rw [Tx.bind_assoc, Tx.get_bind, Tx.get_bind]
  cases s.work.certificates.get adv.certificateId with
  | none => rfl
  | some c =>
    dsimp only
    by_cases hskip : (decide (c.status = .revoked) ||
        decide ((replacementFor s.work adv.certificateId c camp.createdAt).isSome = false)) = true
    · rw [if_pos hskip, if_pos hskip]
      show _ = (campaignLoop env actor campaignId camp false changeRef rest >>= pure) s
      rw [Tx.bind_run]
      rcases campaignLoop env actor campaignId camp false changeRef rest s with ⟨e | m, s'⟩
      · rfl
      · rfl
    · rw [if_neg hskip, if_neg hskip, Tx.bind_assoc]
      rfl

/-- a turn raises, skips the certificate, or revokes it, having found a replacement -/
theorem turn_cases (adv : RenewalAdvice) (s : Session Db) :
    (∃ e s', campaignLoop env actor campaignId camp false changeRef [adv] s = (.error e, s')) ∨
      ∃ c, s.work.certificates.get adv.certificateId = some c ∧
        ((¬ (c.status ≠ .revoked ∧ Replaced s.work camp.createdAt adv.certificateId c) ∧
            campaignLoop env actor campaignId camp false changeRef [adv] s = (.ok 0, s)) ∨
          (c.status ≠ .revoked ∧ Replaced s.work camp.createdAt adv.certificateId c ∧ ∃ s',
            campaignLoop env actor campaignId camp false changeRef [adv] s = (.ok 1, s') ∧
              Same (marked s.work adv.certificateId) s'.work)) := by
  rw [campaignLoop, Tx.get_bind]
  cases hget : s.work.certificates.get adv.certificateId with
  | none => exact Or.inl ⟨_, _, rfl⟩
  | some c =>
    have hdecides : (decide (c.status = .revoked) ||
        decide ((replacementFor s.work adv.certificateId c camp.createdAt).isSome = false)) = true ↔
          ¬ (c.status ≠ .revoked ∧ Replaced s.work camp.createdAt adv.certificateId c) := by
      rw [Bool.or_eq_true, decide_eq_true_eq, decide_eq_true_eq, not_and_or, not_not, ← replacementFor_isSome,
        Bool.not_eq_true]
    by_cases hskip : (decide (c.status = .revoked) ||
        decide ((replacementFor s.work adv.certificateId c camp.createdAt).isSome = false)) = true
    · refine Or.inr ⟨c, rfl, Or.inl ⟨hdecides.1 hskip, ?_⟩⟩
      dsimp only
      rw [if_pos hskip]
      rfl
    · obtain ⟨hst, hreplaced⟩ := not_not.1 fun h => hskip (hdecides.2 h)
      dsimp only
      rw [if_neg hskip, Tx.bind_run]
      rcases hrevoke : revoke env actor adv.certificateId camp.revocationReason changeRef s with ⟨e | u, s'⟩
      · exact Or.inl ⟨e, s', rfl⟩
      · have hsame := revoke_same hrevoke
        exact Or.inr ⟨c, rfl, Or.inr ⟨hst, hreplaced, _, rfl, fun i => hsame i⟩⟩

/-- the turn finds the certificate unrevoked, and leaves it revoked -/
def Revokes (env : Env) (actor : Actor) (campaignId : ℕ) (camp : RenewalCampaign) (changeRef : Option String)
    (adv : RenewalAdvice) (s : Session Db) : Prop :=
  (∃ c, s.work.certificates.get adv.certificateId = some c ∧ c.status ≠ .revoked) ∧ ∃ n s' c,
    campaignLoop env actor campaignId camp false changeRef [adv] s = (.ok n, s') ∧
      s'.work.certificates.get adv.certificateId = some c ∧ c.status = .revoked

/-- whatever the loop revokes is covered at that moment -/
def LoopCovered (env : Env) (actor : Actor) (campaignId : ℕ) (camp : RenewalCampaign) (changeRef : Option String)
    (advice : List RenewalAdvice) (s : Session Db) : Prop :=
  ∀ pre adv post n s', advice = pre ++ adv :: post →
    campaignLoop env actor campaignId camp false changeRef pre s = (.ok n, s') →
      Revokes env actor campaignId camp changeRef adv s' →
        ∀ c, s'.work.certificates.get adv.certificateId = some c → Covered s'.work env.now adv.certificateId c

/-- row after row, every unrevoked and replaced certificate is covered, also by then: those before it are revoked -/
def Careful (now since : ℤ) : Db → List RenewalAdvice → Prop
  | _, [] => True
  | d, adv :: rest => ∀ c, d.certificates.get adv.certificateId = some c →
    (c.status ≠ .revoked ∧ Replaced d since adv.certificateId c →
      Covered d now adv.certificateId c ∧ Careful now since (marked d adv.certificateId) rest) ∧
    (¬ (c.status ≠ .revoked ∧ Replaced d since adv.certificateId c) → Careful now since d rest)

theorem marked_same {d d' : Db} (h : Same d d') (id : ℕ) : Same (marked d id) (marked d' id) := by
  intro i
  show ((d.certificates.update id _).get i).map core = ((d'.certificates.update id _).get i).map core
  by_cases hi : i = id
  · subst hi
    rw [Table.get_update_self, Table.get_update_self]
    cases hget : d.certificates.get i with
    | none =>
      have hnone := h i
      rw [hget] at hnone
      rw [Option.map_eq_none_iff.1 hnone.symm]
    | some c =>
      obtain ⟨c', hget', hc⟩ := h.get hget
      rw [hget']
      show some (core { c with status := .revoked }) = some (core { c' with status := .revoked })
      have hcore : ({ core c with status := .revoked } : Certificate) = { core c' with status := .revoked } := by rw [hc]
      exact congrArg some hcore
  · rw [Table.get_update_of_ne _ _ hi, Table.get_update_of_ne _ _ hi]
    exact h i

theorem Same.trans {a b c : Db} (hab : Same a b) (hbc : Same b c) : Same a c := fun i => (hab i).trans (hbc i)

/-- the row the turn finds, as the call found it but for earlier revocations -/
theorem acts_congr {d d' : Db} (h : Same d d') {c c' : Certificate} (hc : core c' = core c) {since : ℤ} {id : ℕ} :
    (c'.status ≠ .revoked ∧ Replaced d' since id c') ↔ (c.status ≠ .revoked ∧ Replaced d since id c) := by
  have hstatus : c'.status = c.status := core_congr Certificate.status (fun _ => rfl) hc
  rw [hstatus]
  exact and_congr_right fun _ => ⟨fun hr => hr.congr h.symm hc.symm, fun hr => hr.congr h hc⟩

/-- a careful call revokes covered certificates only -/
theorem careful_covered {advice : List RenewalAdvice} {s : Session Db} {d : Db} (hsame : Same d s.work)
    (h : Careful env.now camp.createdAt d advice) : LoopCovered env actor campaignId camp changeRef advice s := by
  induction advice generalizing s d with
  | nil =>
    intro pre adv post n s' hsplit
    simp at hsplit
  | cons first rest ih =>
    intro pre adv post n s' hsplit hpre hrevokes c' hget'
    cases pre with
    | nil =>
      obtain ⟨rfl, -⟩ := List.cons.inj hsplit
      cases hpre
      obtain ⟨c, hget, hc⟩ := hsame.symm.get hget'
      -- a turn that revokes has found a replacement
      have hacts : c'.status ≠ .revoked ∧ Replaced s.work camp.createdAt first.certificateId c' := by
        obtain ⟨⟨z, hz, hzst⟩, m, t, x, hturn, hx, hxst⟩ := hrevokes
        rcases @turn_cases env actor campaignId camp changeRef first s with
          ⟨e, t', hraises⟩ | ⟨y, hy, ⟨hskips, hret⟩ | ⟨hst, hreplaced, -⟩⟩
        · rw [hturn] at hraises
          cases hraises
        · obtain ⟨-, rfl⟩ := Prod.mk.inj (hturn.symm.trans hret)
          obtain rfl := Option.some.inj (hz.symm.trans hx)
          exact absurd hxst hzst
        · obtain rfl := Option.some.inj (hget'.symm.trans hy)
          exact ⟨hst, hreplaced⟩
      exact (((h c hget).1 ((acts_congr hsame.symm hc).2 hacts)).1).congr hsame hc.symm
    | cons q pre =>
      obtain ⟨rfl, hrests⟩ := List.cons.inj hsplit
      rw [campaignLoop_cons] at hpre
      obtain ⟨m, t, hturn, hthen⟩ := Tx.bind_returns.1 hpre
      obtain ⟨k, t', hloop, hk⟩ := Tx.bind_returns.1 hthen
      obtain ⟨-, rfl⟩ := Prod.mk.inj hk
      rcases @turn_cases env actor campaignId camp changeRef first s with
        ⟨e, u, hraises⟩ | ⟨x, hx, ⟨hskips, hret⟩ | ⟨hst, hreplaced, u, hret, hmarked⟩⟩
      · rw [hturn] at hraises
        cases hraises
      · obtain ⟨-, rfl⟩ := Prod.mk.inj (hturn.symm.trans hret)
        obtain ⟨y, hy, hyx⟩ := hsame.symm.get hx
        have hrest := (h y hy).2 fun hacts => hskips ((acts_congr hsame hyx.symm).2 hacts)
        exact ih hsame hrest pre adv post k t' hrests hloop hrevokes c' hget'
      · obtain ⟨-, rfl⟩ := Prod.mk.inj (hturn.symm.trans hret)
        obtain ⟨y, hy, hyx⟩ := hsame.symm.get hx
        have hrest := ((h y hy).1 ((acts_congr hsame hyx.symm).1 ⟨hst, hreplaced⟩)).2
        exact ih ((marked_same hsame _).trans hmarked) hrest pre adv post k t' hrests hloop hrevokes c' hget'

/-- a call that returns and revokes covered certificates only was careful -/
theorem covered_careful {advice : List RenewalAdvice} {s : Session Db} {d : Db} (hsame : Same d s.work)
    (hret : Tx.Returns (campaignLoop env actor campaignId camp false changeRef advice) s) (h : LoopCovered env actor campaignId camp changeRef advice s) : Careful env.now camp.createdAt d advice := by
  induction advice generalizing s d with
  | nil => trivial
  | cons first rest ih =>
    obtain ⟨n, s', hret⟩ := hret
    rw [campaignLoop_cons] at hret
    obtain ⟨m, t, hturn, hthen⟩ := Tx.bind_returns.1 hret
    obtain ⟨k, t', hloop, hk⟩ := Tx.bind_returns.1 hthen
    have hrest : Tx.Returns (campaignLoop env actor campaignId camp false changeRef rest) t := ⟨k, t', hloop⟩
    -- the rest of the loop revokes covered certificates only
    have hcovered : LoopCovered env actor campaignId camp changeRef rest t := by
      intro pre adv post i u hsplit hpre
      refine h (first :: pre) adv post (i + m) u (by rw [hsplit]; rfl) ?_
      rw [campaignLoop_cons]
      exact Tx.bind_returns.2 ⟨m, t, hturn, Tx.bind_returns.2 ⟨i, u, hpre, rfl⟩⟩
    intro c hget
    obtain ⟨c', hget', hc⟩ := hsame.get hget
    rcases @turn_cases env actor campaignId camp changeRef first s with
      ⟨e, u, hraises⟩ | ⟨x, hx, ⟨hskips, hreturns⟩ | ⟨hst, hreplaced, u, hreturns, hmarked⟩⟩
    · rw [hturn] at hraises
      cases hraises
    · obtain rfl := Option.some.inj (hget'.symm.trans hx)
      obtain ⟨-, rfl⟩ := Prod.mk.inj (hturn.symm.trans hreturns)
      exact ⟨fun hacts => absurd ((acts_congr hsame hc).2 hacts) hskips, fun _ => ih hsame hrest hcovered⟩
    · obtain rfl := Option.some.inj (hget'.symm.trans hx)
      obtain ⟨-, rfl⟩ := Prod.mk.inj (hturn.symm.trans hreturns)
      refine ⟨fun _ => ⟨?_, ih ((marked_same hsame _).trans hmarked) hrest hcovered⟩,
        fun hno => absurd ((acts_congr hsame hc).1 ⟨hst, hreplaced⟩) hno⟩
      have hrow : (marked s.work first.certificateId).certificates.get first.certificateId =
          some { c' with status := .revoked } := by
        show (s.work.certificates.update _ _).get _ = _
        rw [Table.get_update_self, hget']
        rfl
      obtain ⟨y, hy, hyx⟩ := hmarked.get hrow
      have hyst : y.status = .revoked := core_congr Certificate.status (fun _ => rfl) hyx
      exact (h [] first rest 0 s rfl rfl ⟨⟨c', hget', hst⟩, 1, t, y, hreturns, hy, hyst⟩ c' hget').congr hsame.symm hc.symm

end Loop

/-! ## What a campaign counts as remaining -/

/-- the campaign's status lists the certificate as remaining -/
def Counted (d : Db) (now : ℤ) (campaignId : ℕ) (camp : RenewalCampaign) (certId : ℕ) : Prop :=
  ∃ st, campaignStatus d now campaignId camp = .ok st ∧ ∃ item ∈ st.certificates, item.certificateId = certId ∧
    item.state = "remaining"

/-- the rows a campaign's status reads are stored -/
def Readable (d : Db) (campaignId : ℕ) : Prop :=
  ∀ a ∈ d.advice, a.campaignId = campaignId → ∃ row, d.certificates.get a.certificateId = some row ∧
    ∀ app, row.appId.bind d.apps.get = some app → ∃ team, d.teams.get app.teamId = some team

section Status

variable {d : Db} {camp : RenewalCampaign} {a : RenewalAdvice}

theorem teamName_returns {app : Option App} : (∃ team, teamName d app = .ok team) ↔
    ∀ x, app = some x → ∃ team, d.teams.get x.teamId = some team := by
  unfold teamName
  cases app with
  | none => simp
  | some app =>
    cases hteam : d.teams.get app.teamId with
    | none => simp [hteam]
    | some team => simp [hteam]

theorem statusItem_returns : (∃ item, statusItem d camp a = .ok item) ↔
    ∃ row, d.certificates.get a.certificateId = some row ∧
      ∀ app, row.appId.bind d.apps.get = some app → ∃ team, d.teams.get app.teamId = some team := by
  unfold statusItem
  cases d.certificates.get a.certificateId with
  | none => simp
  | some row =>
    constructor
    · rintro ⟨item, h⟩
      obtain ⟨team, hteam, -⟩ := except_bind_ok.1 h
      exact ⟨row, rfl, teamName_returns.1 ⟨team, hteam⟩⟩
    · rintro ⟨row', hrow, hteams⟩
      obtain rfl := Option.some.inj hrow
      obtain ⟨team, hteam⟩ := teamName_returns.2 hteams
      exact ⟨_, except_bind_ok.2 ⟨team, hteam, rfl⟩⟩

theorem itemState_remaining {c : Certificate} {successor : Option ℕ} :
    itemState c successor = "remaining" ↔ c.status ≠ .revoked ∧ successor.isSome = false := by
  unfold itemState
  split
  · next h => simp [h]
  · next h =>
    cases successor <;> simp [h]

theorem statusItem_ok {item : StatusItem} (h : statusItem d camp a = .ok item) :
    item.certificateId = a.certificateId ∧ ∃ row, d.certificates.get a.certificateId = some row ∧
      (item.state = "remaining" ↔ row.status ≠ .revoked ∧ ¬ Replaced d camp.createdAt a.certificateId row) := by
  unfold statusItem at h
  cases hget : d.certificates.get a.certificateId with
  | none =>
    rw [hget] at h
    cases h
  | some row =>
    rw [hget] at h
    obtain ⟨team, -, h⟩ := except_bind_ok.1 h
    cases h
    refine ⟨rfl, row, rfl, ?_⟩
    rw [← replacementFor_isSome, Bool.not_eq_true]
    exact itemState_remaining

/-- an unrevoked certificate is counted as remaining iff the rows are stored, its advice is the campaign's, and it is not
replaced -/
theorem counted_iff {now : ℤ} {campaignId certId : ℕ} {row : Certificate} (hget : d.certificates.get certId = some row)
    (hst : row.status ≠ .revoked) :
    Counted d now campaignId camp certId ↔ Readable d campaignId ∧
      (∃ a ∈ d.advice, a.certificateId = certId ∧ a.campaignId = campaignId) ∧ ¬ Replaced d camp.createdAt certId row := by
  have hown : ∀ {a}, a ∈ d.advice.filter (fun a => a.campaignId = campaignId) ↔ a ∈ d.advice ∧ a.campaignId = campaignId := by
    intro a
    rw [List.mem_filter, decide_eq_true_eq]
  have hreads : (∃ items, (d.advice.filter fun a => a.campaignId = campaignId).mapM (statusItem d camp) = .ok items) ↔
      Readable d campaignId := by
    rw [except_mapM_returns]
    constructor
    · intro h a ha hcampaign
      exact statusItem_returns.1 (h a (hown.2 ⟨ha, hcampaign⟩))
    · intro h a ha
      exact statusItem_returns.2 (h a (hown.1 ha).1 (hown.1 ha).2)
  constructor
  · rintro ⟨st, hstatus, item, hitem, hid, hstate⟩
    unfold campaignStatus at hstatus
    obtain ⟨items, hitems, hstatus⟩ := except_bind_ok.1 hstatus
    cases hstatus
    obtain ⟨a, ha, hread⟩ := (except_mapM_mem hitems).1 (List.mem_mergeSort.1 hitem)
    obtain ⟨hcert, row', hget', hremaining⟩ := statusItem_ok hread
    have hcertId : a.certificateId = certId := hcert.symm.trans hid
    rw [hcertId] at hget' hremaining
    obtain rfl := Option.some.inj (hget.symm.trans hget')
    exact ⟨hreads.1 ⟨items, hitems⟩, ⟨a, (hown.1 ha).1, hcertId, (hown.1 ha).2⟩, (hremaining.1 hstate).2⟩
  · rintro ⟨hreadable, ⟨a, ha, hcert, hcampaign⟩, hnot⟩
    obtain ⟨items, hitems⟩ := hreads.2 hreadable
    obtain ⟨item, hread⟩ := statusItem_returns.2 (hreadable a ha hcampaign)
    obtain ⟨hid, row', hget', hremaining⟩ := statusItem_ok hread
    rw [hcert] at hid hget' hremaining
    obtain rfl := Option.some.inj (hget.symm.trans hget')
    refine ⟨_, except_bind_ok.2 ⟨items, hitems, rfl⟩, item, ?_, hid, hremaining.2 ⟨hst, hnot⟩⟩
    exact List.mem_mergeSort.2 ((except_mapM_mem hitems).2 ⟨a, hown.2 ⟨ha, hcampaign⟩, hread⟩)

end Status

/-! ## Both laws -/

/-- what `campaign_revoke` of the replaced certificates revokes is covered at that moment -/
def RevokesCovered (env : Env) (actor : Actor) (campaignId : ℕ) (changeRef : Option String) (d : Db) : Prop :=
  ∀ camp, d.campaigns.get campaignId = some camp →
    LoopCovered env actor campaignId camp changeRef (d.advice.filter fun a => a.campaignId = campaignId) ⟨d, d⟩

/-- the rows are such that the call revokes covered certificates only -/
def RowsCovered (now : ℤ) (campaignId : ℕ) (d : Db) : Prop :=
  ∀ camp, d.campaigns.get campaignId = some camp →
    Careful now camp.createdAt d (d.advice.filter fun a => a.campaignId = campaignId)

/-- whatever a stored campaign matched, and is neither revoked nor covered -/
def Exposed (s : Campaigns.St) (now : ℤ) (P : ℕ → RenewalCampaign → ℕ → Certificate → Prop) : Prop :=
  ∀ o ∈ s.opened, ∀ camp, s.db.campaigns.get o.id = some camp → ∀ c ∈ o.matched, ∀ row, s.db.certificates.get c = some row →
    row.status ≠ .revoked → ¬ Covered s.db now c row → P o.id camp c row

/-- is counted as remaining -/
def RemainingCounted (s : Campaigns.St) (now : ℤ) : Prop := Exposed s now fun id camp c _ => Counted s.db now id camp c

/-- has its advice from that campaign, whose rows are stored, and neither a link to a stored certificate nor, without a link, a
newer active certificate with the same names -/
def RemainingTold (s : Campaigns.St) (now : ℤ) : Prop := Exposed s now fun id camp c row =>
  Readable s.db id ∧ (∃ a ∈ s.db.advice, a.certificateId = c ∧ a.campaignId = id) ∧ ¬ Replaced s.db camp.createdAt c row

theorem remaining_iff {s : Campaigns.St} {now : ℤ} : RemainingCounted s now ↔ RemainingTold s now := by
  constructor
  · intro h o ho camp hcamp c hc row hget hst hcovered
    exact (counted_iff hget hst).1 (h o ho camp hcamp c hc row hget hst hcovered)
  · intro h o ho camp hcamp c hc row hget hst hcovered
    exact (counted_iff hget hst).2 (h o ho camp hcamp c hc row hget hst hcovered)

/-! ## Campaigns apart -/

/-- a campaign is opened where nothing it matches has advice yet; the rest gives no advice away -/
def Apart (s : Campaigns.St) : Campaigns.Op → Prop
  | .create env _ _ _ criteria _ _ _ _ =>
    ∀ certs, matching env s.db criteria = .ok certs → ∀ c ∈ certs, adviceFor s.db.advice c.1 = none
  | .close _ _ _ => True
  | .other d => ∀ c, (adviceFor d.advice c).map (·.campaignId) = (adviceFor s.db.advice c).map (·.campaignId)

/-- every campaign has given the advice of what it matched -/
def OwnAdvice (s : Campaigns.St) : Prop :=
  ∀ o ∈ s.opened, ∀ c ∈ o.matched, ∃ a, adviceFor s.db.advice c = some a ∧ a.campaignId = o.id

theorem ownAdvice_step {s : Campaigns.St} (o : Campaigns.Op) (h : OwnAdvice s) (hapart : Apart s o) :
    OwnAdvice (Campaigns.step s o) := by
  cases o with
  | create env actor name reason criteria hours explanationUrl revocationReason immediate =>
    unfold Campaigns.step
    rcases createCampaign_cases env actor name reason criteria hours explanationUrl revocationReason immediate s.db with
      ⟨e, hraises⟩ | ⟨certs, d', hreturns, hopens⟩
    · simp only [hraises]
      exact h
    · have hmatched : matchedIds env s.db criteria = certs.map Prod.fst := by
        unfold matchedIds
        rw [hopens.matched]
      simp only [hreturns, hmatched]
      have hwindow : env.now + 300 ≤ env.now + hours * 3600 := by
        have hone := hopens.deadline
        omega
      have hspec := fun c => @advised_spec s.db.campaigns.next env.now (env.now + hours * 3600) immediate s.db.advice c hwindow certs
      rw [← hopens.advice] at hspec
      have hnone : ∀ c ∈ certs.map Prod.fst, adviceFor s.db.advice c = none := by
        intro c hc
        obtain ⟨p, hp, rfl⟩ := List.mem_map.1 hc
        exact hapart certs hopens.matched p hp
      intro o ho c hc
      rcases List.mem_append.1 ho with hold | hnew
      · obtain ⟨a, ha, hcampaign⟩ := h o hold c hc
        have hout : c ∉ certs.map Prod.fst := fun hin => absurd (ha.symm.trans (hnone c hin)) (by simp)
        exact ⟨a, ((hspec c).2 hout).trans ha, hcampaign⟩
      · obtain rfl := List.mem_singleton.1 hnew
        obtain ⟨a, ha, -, hkept | ⟨hcampaign, -⟩⟩ := (hspec c).1 hc
        · exact absurd (hkept.symm.trans (hnone c hc)) (by simp)
        · exact ⟨a, ha, hcampaign⟩
  | close env actor campaignId =>
    unfold Campaigns.step
    rcases closeCampaign_cases env actor campaignId s.db with ⟨e, hraises⟩ | ⟨audit, hreturns⟩
    · simp only [hraises]
      exact h
    · simp only [hreturns]
      exact h
  | other d =>
    intro o ho c hc
    obtain ⟨a, ha, hcampaign⟩ := h o ho c hc
    have hsame := hapart c
    rw [ha] at hsame
    obtain ⟨b, hb, hbcampaign⟩ := Option.map_eq_some_iff.1 hsame
    exact ⟨b, hb, hbcampaign.trans hcampaign⟩

/-! ## The call -/

section Calls

variable {env : Env} {actor : Actor} {campaignId : ℕ} {changeRef : Option String} {d : Db}

theorem campaignRevoke_returns (h : Tx.Returns (campaignRevoke env actor campaignId false changeRef) ⟨d, d⟩) :
    ∃ camp, d.campaigns.get campaignId = some camp ∧
      Tx.Returns (campaignLoop env actor campaignId camp false changeRef (d.advice.filter fun a => a.campaignId = campaignId))
        ⟨d, d⟩ := by
  obtain ⟨out, s, hrun⟩ := h
  unfold campaignRevoke at hrun
  obtain ⟨u, s1, hrole, hrun⟩ := Tx.bind_returns.1 hrun
  obtain ⟨-, rfl⟩ := Prod.mk.inj hrole
  rw [if_neg (by decide)] at hrun
  obtain ⟨n, s2, hnow, -⟩ := Tx.bind_returns.1 hrun
  unfold campaignRevokeNow at hnow
  rw [Tx.get_bind] at hnow
  cases hcamp : d.campaigns.get campaignId with
  | none =>
    simp only [hcamp] at hnow
    cases hnow
  | some camp =>
    simp only [hcamp] at hnow
    obtain ⟨m, s3, hloop, -⟩ := Tx.bind_returns.1 hnow
    exact ⟨camp, rfl, m, s3, hloop⟩

/-- **Revoking what was replaced breaks nothing** exactly where the replacements cover, and what is exposed is counted exactly
where its campaign knows it and it has no replacement. -/
theorem replaced_breaks_nothing_iff (env : Env) (actor : Actor) (campaignId : ℕ) (changeRef : Option String) (d d0 : Db)
    (ops : List Campaigns.Op) (now : ℤ) :
    (∀ e, (Tx.transact (campaignRevoke env actor campaignId false changeRef) d).1 = .error e →
      (Tx.transact (campaignRevoke env actor campaignId false changeRef) d).2 = d) ∧
    (Tx.Returns (campaignRevoke env actor campaignId false changeRef) ⟨d, d⟩ →
      (RevokesCovered env actor campaignId changeRef d ↔ RowsCovered env.now campaignId d)) ∧
    (RemainingCounted (run Campaigns.step ⟨d0, []⟩ ops) now ↔ RemainingTold (run Campaigns.step ⟨d0, []⟩ ops) now) ∧
    (Along Campaigns.step Apart ⟨d0, []⟩ ops → OwnAdvice (run Campaigns.step ⟨d0, []⟩ ops)) := by
  refine ⟨fun e hraises => ?_, fun hreturns => ?_, remaining_iff, fun hapart => ?_⟩
  · have hcalm := @calmAt_campaignRevoke env Grant.full ⟨d, d⟩ campaignId false (fun _ _ _ _ _ => trivial) actor changeRef
    exact Tx.transact_error hcalm.1 hraises
  · obtain ⟨camp, hcamp, hloop⟩ := campaignRevoke_returns hreturns
    constructor
    · intro h camp' hcamp'
      obtain rfl := Option.some.inj (hcamp.symm.trans hcamp')
      exact covered_careful (fun _ => rfl) hloop (h camp hcamp)
    · intro h camp' hcamp'
      exact careful_covered (fun _ => rfl) (h camp' hcamp')
  · exact run_inv (fun s o hs => ownAdvice_step o hs) (fun o ho => (List.not_mem_nil ho).elim) hapart

end Calls

/-! ### A revoked replacement, and an overlapping campaign -/

section Examples

def campaign : RenewalCampaign := ⟨"rotate", "", "superseded", none, .null, 1000, 87400, "active", "olga", 1000⟩

def ofApp (c : Certificate) : Certificate := { c with appId := some 1 }

def renewedRow : Certificate := inserted demoState { ofApp (Revocation.issuedRow 16) with replacedBy := some 2 }

def replacementRow (status : CertStatus) : Certificate :=
  inserted demoState { ofApp (Revocation.issuedRow 17) with status := status }

/-- a certificate that was renewed, its campaign, and what it was renewed with -/
def renewedDb (replacement : CertStatus) : Db :=
  { Revocation.answeringDb with
    certificates := (Table.empty.insert renewedRow).insert (replacementRow replacement)
    campaigns := Table.empty.insert campaign
    advice := [⟨1, 1, 1000, 87400, false⟩] }

theorem renewed_advice (replacement : CertStatus) :
    (renewedDb replacement).advice.filter (fun a => a.campaignId = 1) = [⟨1, 1, 1000, 87400, false⟩] := rfl

theorem renewed_get (replacement : CertStatus) (i : ℕ) : (renewedDb replacement).certificates.get i =
    if i = 2 then some (replacementRow replacement) else if i = 1 then some renewedRow else none := by
  show ((Table.empty.insert renewedRow).insert (replacementRow replacement)).get i = _
  rw [Table.get_insert, Table.get_insert]
  rfl

theorem renewed_returns : Tx.Returns (campaignRevoke demoEnv Revocation.olga 1 false none)
    ⟨renewedDb .active, renewedDb .active⟩ := by
  decide +kernel

/-- the certificate that replaced the campaign's is active -/
theorem replaced_covered : RevokesCovered demoEnv Revocation.olga 1 none (renewedDb .active) := by
  refine ((replaced_breaks_nothing_iff demoEnv Revocation.olga 1 none (renewedDb .active) Db.empty [] 0).2.1 renewed_returns).2 ?_
  intro camp hcamp
  rw [renewed_advice]
  intro c hget
  obtain rfl : renewedRow = c := Option.some.inj hget
  refine ⟨fun _ => ⟨⟨2, replacementRow .active, rfl, ?_⟩, trivial⟩, fun _ => trivial⟩
  decide +kernel

theorem revoked_returns : Tx.Returns (campaignRevoke demoEnv Revocation.olga 1 false none)
    ⟨renewedDb .revoked, renewedDb .revoked⟩ := by
  decide +kernel

/-- two campaigns that matched one certificate -/
def overlapRun : Campaigns.St := run Campaigns.step ⟨storedDb, []⟩ [opens 24, opens 48]

theorem overlapRun_eval : (overlapRun.opened.map fun o => (o.id, o.matched)) = [(1, [1]), (2, [1])] ∧
    (overlapRun.db.campaigns.get 2).isSome ∧
    (overlapRun.db.certificates.rows.map fun p => (p.1, decide (p.2.status = .active))) = [(1, true)] := by
  decide +kernel

/-- The replacement of a certificate that is revoked is revoked itself. And the second of two campaigns counts nothing. -/
theorem replaced_breaks :
    (¬ ∀ (env : Env) (actor : Actor) (campaignId : ℕ) (changeRef : Option String) (d : Db),
      Tx.Returns (campaignRevoke env actor campaignId false changeRef) ⟨d, d⟩ →
        RevokesCovered env actor campaignId changeRef d) ∧
    ¬ ∀ (d0 : Db) (ops : List Campaigns.Op) (now : ℤ), (∀ c a, adviceFor d0.advice c ≠ some a) →
      (∀ o ∈ ops, ∀ d', o ≠ .other d') → RemainingCounted (run Campaigns.step ⟨d0, []⟩ ops) now := by
  constructor
  · intro h
    have hcovered := h demoEnv Revocation.olga 1 none (renewedDb .revoked) revoked_returns
    obtain ⟨camp, hcamp, hloop⟩ := campaignRevoke_returns revoked_returns
    have hrows := covered_careful (fun _ => rfl) hloop (hcovered camp hcamp)
    rw [renewed_advice] at hrows
    have hacts : renewedRow.status ≠ .revoked ∧ Replaced (renewedDb .revoked) camp.createdAt 1 renewedRow :=
      ⟨by decide, Or.inl ⟨2, rfl, by decide, replacementRow .revoked, rfl⟩⟩
    obtain ⟨i, n, hget, hne, -, -, hactive, -⟩ := ((hrows renewedRow rfl).1 hacts).1
    have hrow := (renewed_get .revoked i).symm.trans hget
    rw [if_neg (show ¬ i = 1 from hne)] at hrow
    by_cases hi : i = 2
    · rw [if_pos hi] at hrow
      obtain rfl := Option.some.inj hrow
      exact absurd hactive (by decide)
    · rw [if_neg hi] at hrow
      cases hrow
  · intro h
    have hcounted : RemainingCounted overlapRun 0 :=
      h storedDb [opens 24, opens 48] 0 (fun c a ha => nomatch ha) (by simp [opens])
    obtain ⟨hopened, hcamp, hcerts⟩ := overlapRun_eval
    have hadvice : (overlapRun.db.advice.map fun a => (a.certificateId, a.campaignId)) = [(1, 1)] := overlap_run
    generalize overlapRun = s at hcounted hopened hcamp hcerts hadvice
    obtain ⟨o, ho, heq⟩ := List.mem_map.1 (show (2, [1]) ∈ s.opened.map fun o => (o.id, o.matched) by rw [hopened]; simp)
    obtain ⟨hid, hmatched⟩ := Prod.mk.inj heq
    obtain ⟨camp, hcamp⟩ := Option.isSome_iff_exists.1 hcamp
    obtain ⟨p, hp, hrow⟩ := List.mem_map.1 (show (1, true) ∈ s.db.certificates.rows.map fun p => (p.1, decide (p.2.status = .active)) by
      rw [hcerts]; simp)
    obtain ⟨hone, hactive⟩ := Prod.mk.inj hrow
    have hget : s.db.certificates.get 1 = some p.2 := Table.mem_rows.1 (by rw [← hone]; exact hp)
    have hst : p.2.status ≠ .revoked := by simp [of_decide_eq_true hactive]
    have hcovered : ¬ Covered s.db 0 1 p.2 := by
      rintro ⟨i, n, hgeti, hne, -⟩
      have hmem := List.mem_map_of_mem (f := fun p : ℕ × Certificate => (p.1, decide (p.2.status = .active)))
        (Table.mem_rows.2 hgeti)
      rw [hcerts] at hmem
      exact hne (Prod.mk.inj (List.mem_singleton.1 hmem)).1
    have hcount := hcounted o ho camp (by rw [hid]; exact hcamp) 1 (by rw [hmatched]; simp) p.2 hget hst hcovered
    obtain ⟨-, ⟨a, ha, -, hcampaign⟩, -⟩ := (counted_iff hget hst).1 hcount
    have hmem := List.mem_map_of_mem (f := fun a : RenewalAdvice => (a.certificateId, a.campaignId)) ha
    rw [hadvice] at hmem
    have hfirst : a.campaignId = 1 := (Prod.mk.inj (List.mem_singleton.1 hmem)).2
    omega

end Examples

end Certadillo.Cutoff
