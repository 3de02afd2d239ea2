/-
Renewal campaigns opened and closed over time, on one advice row per certificate.

A campaign promises that the certificates it matched renew by its deadline; an immediate one, that their window is over. A
campaign that is opened keeps the advice a certificate already has, if that ends by its own deadline, whoever gave it; one
that is closed leaves its advice behind. `suggested_window` does not follow the advice of a closed campaign, `due` does.

- `end_le_default`, `end_le_advice`, `end_cases`: where a suggested window ends.
- `advised_spec`: the advice a matched certificate has once a campaign is open.
- `inv_opened`, `inv_closed`, `inv_other`: what one step keeps of the promises.
- `campaigns_pull_forward`: in every run whose campaigns keep no advice of closed ones and leave no advice that another one
  relies on, every promise is kept, and `due` follows open campaigns only.
- `closed_advice_fails`: a campaign keeps the advice of a closed one, and an installation follows it.
-/
import Certadillo.Lib.Run
import Certadillo.Services.Provisioning

namespace Certadillo.Campaigns

open Integrity Policy Py Platform Ari Machine

/-! ## Suggested windows -/

/-- the campaign is stored and not closed -/
def IsOpen (d : Db) (campaignId : ℕ) : Prop := ∃ camp, d.campaigns.get campaignId = some camp ∧ camp.status = "active"

/-- where the window suggested for a certificate ends -/
def suggestedEnd (d : Db) (certId : ℕ) (row : Certificate) (now : ℤ) : ℚ := (suggestedWindow d certId row now).2.1

/-- where its own window ends -/
def defaultEnd (row : Certificate) : ℚ := (defaultWindow row.notBefore row.notAfter).2

section Windows

variable {d : Db} {certId : ℕ} {row : Certificate}

/-- the window suggested for an unrevoked certificate is its own, or that of an open campaign's advice -/
theorem end_cases (hst : row.status ≠ .revoked) (now : ℤ) :
    suggestedEnd d certId row now = defaultEnd row ∨ ∃ a, adviceFor d.advice certId = some a ∧ IsOpen d a.campaignId ∧
      (a.windowEnd : ℚ) < defaultEnd row ∧ suggestedEnd d certId row now = a.windowEnd := by
  unfold suggestedEnd suggestedWindow defaultEnd
  rw [if_neg hst]
  cases hadvice : adviceFor d.advice certId with
  | none => exact Or.inl rfl
  | some a =>
    cases hcamp : d.campaigns.get a.campaignId with
    | none => exact Or.inl (by simp only [hcamp])
    | some camp =>
      simp only [hcamp]
      split
      · next h => exact Or.inr ⟨a, rfl, ⟨camp, hcamp, h.1⟩, h.2, rfl⟩
      · exact Or.inl rfl

theorem end_le_default (hst : row.status ≠ .revoked) (now : ℤ) : suggestedEnd d certId row now ≤ defaultEnd row := by
  rcases end_cases hst now with h | ⟨a, -, -, hlt, h⟩
  · exact le_of_eq h
  · rw [h]
    exact le_of_lt hlt

theorem end_le_advice (hst : row.status ≠ .revoked) (now : ℤ) {a : RenewalAdvice} (ha : adviceFor d.advice certId = some a)
    (hopen : IsOpen d a.campaignId) : suggestedEnd d certId row now ≤ a.windowEnd := by
  obtain ⟨camp, hcamp, hactive⟩ := hopen
  unfold suggestedEnd suggestedWindow
  simp only [if_neg hst, ha, hcamp, hactive, true_and]
  split
  · exact le_refl _
  · next h => exact not_lt.1 h

/-- the same advice from the same campaigns suggests the same -/
theorem end_congr {d' : Db} {row' : Certificate} (hst : row.status ≠ .revoked) (hst' : row'.status ≠ .revoked)
    (hadvice : (adviceFor d'.advice certId).map (fun a => (a.campaignId, a.windowEnd)) =
      (adviceFor d.advice certId).map fun a => (a.campaignId, a.windowEnd))
    (hcampaigns : d'.campaigns = d.campaigns) (hdefault : defaultEnd row' = defaultEnd row) (now now' : ℤ) :
    suggestedEnd d' certId row' now ≤ suggestedEnd d certId row now' := by
  rcases end_cases (d := d) hst now' with h | ⟨a, ha, hopen, -, h⟩
  · rw [h, ← hdefault]
    exact end_le_default hst' now
  · rw [ha] at hadvice
    obtain ⟨a', ha', heq⟩ := Option.map_eq_some_iff.1 hadvice
    obtain ⟨hcampaign, hend⟩ := Prod.mk.inj heq
    rw [h, ← hend]
    refine end_le_advice hst' now ha' ?_
    rw [hcampaign]
    unfold IsOpen
    rw [hcampaigns]
    exact hopen

end Windows

/-! ## Opening a campaign -/

section Advising

variable {campaignId : ℕ} {now windowEnd : ℤ} {immediate : Bool} {advice : List RenewalAdvice} {certId : ℕ}

theorem adviceFor_append (advice : List RenewalAdvice) (row : RenewalAdvice) (certId : ℕ) :
    adviceFor (advice ++ [row]) certId =
      (adviceFor advice certId).or (if row.certificateId = certId then some row else none) := by
  unfold adviceFor
  rw [List.find?_append]
  congr 1
  by_cases h : row.certificateId = certId
  · simp [h]
  · simp [h]

theorem adviceFor_filter_self (advice : List RenewalAdvice) (certId : ℕ) :
    adviceFor (advice.filter fun a => a.certificateId ≠ certId) certId = none := by
  unfold adviceFor
  rw [List.find?_eq_none]
  intro a ha
  simpa using (List.mem_filter.1 ha).2

theorem adviceFor_filter_of_ne (advice : List RenewalAdvice) {certId other : ℕ} (h : certId ≠ other) :
    adviceFor (advice.filter fun a => a.certificateId ≠ other) certId = adviceFor advice certId := by
  unfold adviceFor
  rw [List.find?_filter]
  congr 1
  funext a
  by_cases ha : a.certificateId = certId
  · simp [ha, h]
  · simp [ha]

/-- the row a campaign adds for a certificate -/
def newAdvice (campaignId : ℕ) (now windowEnd : ℤ) (immediate : Bool) (c : ℕ × Certificate) : RenewalAdvice :=
  ⟨c.1, campaignId, (advised now windowEnd immediate c.2.notAfter).1, (advised now windowEnd immediate c.2.notAfter).2, false⟩

/-- a certificate's advice after one matched certificate: its own is kept if it ends by the deadline -/
theorem adviceFor_advise (c : ℕ × Certificate) :
    adviceFor (advise campaignId now windowEnd immediate advice c) certId =
      if certId = c.1 then
        if (adviceFor advice certId).any fun a => a.windowEnd ≤ windowEnd then adviceFor advice certId
        else some (newAdvice campaignId now windowEnd immediate c)
      else adviceFor advice certId := by
  unfold advise
  by_cases hc : certId = c.1
  · subst hc
    rw [if_pos rfl]
    cases hadvice : adviceFor advice c.1 with
    | none => simp [hadvice, adviceFor_append, newAdvice]
    | some a =>
      by_cases hend : a.windowEnd ≤ windowEnd
      · simp [hadvice, hend]
      · simp only [hend, if_false, adviceFor_append]
        rw [adviceFor_filter_self]
        simp [hend, newAdvice]
  · rw [if_neg hc]
    have hne : ¬ c.1 = certId := fun h => hc h.symm
    cases hadvice : adviceFor advice c.1 with
    | none => simp [adviceFor_append, hne]
    | some a =>
      by_cases hend : a.windowEnd ≤ windowEnd
      · simp [hend]
      · simp only [hend, if_false, adviceFor_append]
        rw [adviceFor_filter_of_ne _ hc]
        simp [hne]

/-- what a campaign advises ends by its deadline, and before now if it is immediate -/
theorem advised_le (hwindow : now + 300 ≤ windowEnd) (notAfter : ℤ) :
    (advised now windowEnd immediate notAfter).2 ≤ windowEnd ∧
      (immediate = true → (advised now windowEnd immediate notAfter).2 < now) := by
  unfold advised
  cases immediate with
  | true => exact ⟨by simp only [if_true]; omega, fun _ => by simp only [if_true]; omega⟩
  | false => exact ⟨by simp only [Bool.false_eq_true, if_false]; omega, fun h => nomatch h⟩

/-- a certificate's advice once a campaign that matched it is open: kept, or the campaign's own -/
def Advised (campaignId : ℕ) (now windowEnd : ℤ) (immediate : Bool) (before after : Option RenewalAdvice) : Prop :=
  ∃ a, after = some a ∧ a.windowEnd ≤ windowEnd ∧ (before = some a ∨
    (a.campaignId = campaignId ∧ (immediate = true → a.windowEnd < now) ∧ ∀ b, before = some b → windowEnd < b.windowEnd))

theorem advised_advise {before : Option RenewalAdvice} (c : ℕ × Certificate)
    (h : Advised campaignId now windowEnd immediate before (adviceFor advice certId)) :
    Advised campaignId now windowEnd immediate before
      (adviceFor (advise campaignId now windowEnd immediate advice c) certId) := by
  obtain ⟨a, ha, hend, hfrom⟩ := h
  refine ⟨a, ?_, hend, hfrom⟩
  rw [adviceFor_advise, ha]
  simp [hend]

/-- **Every matched certificate has advice that ends by the deadline**: its own, or new advice in place of a later one. -/
theorem advised_spec (hwindow : now + 300 ≤ windowEnd) (certs : List (ℕ × Certificate)) :
    (certId ∈ certs.map Prod.fst → Advised campaignId now windowEnd immediate (adviceFor advice certId)
      (adviceFor (certs.foldl (advise campaignId now windowEnd immediate) advice) certId)) ∧
    (certId ∉ certs.map Prod.fst →
      adviceFor (certs.foldl (advise campaignId now windowEnd immediate) advice) certId = adviceFor advice certId) := by
  have hkeeps : ∀ (certs : List (ℕ × Certificate)) (advice : List RenewalAdvice) {before : Option RenewalAdvice},
      Advised campaignId now windowEnd immediate before (adviceFor advice certId) →
        Advised campaignId now windowEnd immediate before
          (adviceFor (certs.foldl (advise campaignId now windowEnd immediate) advice) certId) := by
    intro certs
    induction certs with
    | nil => exact fun advice _ h => h
    | cons c certs ih => exact fun advice _ h => ih _ (advised_advise c h)
  induction certs generalizing advice with
  | nil => exact ⟨fun h => absurd h List.not_mem_nil, fun _ => rfl⟩
  | cons c certs ih =>
    rw [List.map_cons, List.foldl_cons]
    by_cases hc : certId = c.1
    · refine ⟨fun _ => hkeeps certs _ ?_, fun h => absurd (hc ▸ List.mem_cons_self) h⟩
      rw [adviceFor_advise, if_pos hc]
      split
      · next hkept =>
        cases hbefore : adviceFor advice certId with
        | none =>
          rw [hbefore] at hkept
          cases hkept
        | some a =>
          rw [hbefore] at hkept
          exact ⟨a, rfl, by simpa using hkept, Or.inl rfl⟩
      · next hkept =>
        obtain ⟨hend, hover⟩ := @advised_le now windowEnd immediate hwindow c.2.notAfter
        refine ⟨_, rfl, hend, Or.inr ⟨rfl, hover, fun b hb => ?_⟩⟩
        rw [hb] at hkept
        simpa using hkept
    · have hsame : adviceFor (advise campaignId now windowEnd immediate advice c) certId = adviceFor advice certId := by
        rw [adviceFor_advise, if_neg hc]
      obtain ⟨hin, hout⟩ := @ih (advise campaignId now windowEnd immediate advice c)
      rw [hsame] at hin hout
      refine ⟨fun h => hin ?_, fun h => hout fun hmem => h (List.mem_cons_of_mem _ hmem)⟩
      exact (List.mem_cons.1 h).resolve_left hc

end Advising

/-- the rows after a campaign is opened -/
structure Opens (env : Env) (criteria : Criteria) (hours : ℤ) (immediate : Bool) (certs : List (ℕ × Certificate))
    (d d' : Db) : Prop where
  matched : matching env d criteria = .ok certs
  deadline : 1 ≤ hours
  campaigns : ∃ camp, d'.campaigns = d.campaigns.insert camp ∧ camp.status = "active"
  advice : d'.advice = certs.foldl (advise d.campaigns.next env.now (env.now + hours * 3600) immediate) d.advice
  certificates : d'.certificates = d.certificates
  installations : d'.installations = d.installations

/-- opening raises and writes nothing, or adds the campaign and its advice -/
theorem createCampaign_cases (env : Env) (actor : Actor) (name reason : String) (criteria : Criteria) (hours : ℤ)
    (explanationUrl : Option String) (revocationReason : String) (immediate : Bool) (d : Db) :
    (∃ e, Tx.transact (Platform.createCampaign env actor name reason criteria hours explanationUrl revocationReason immediate) d =
      (.error e, d)) ∨ ∃ certs d',
      Tx.transact (Platform.createCampaign env actor name reason criteria hours explanationUrl revocationReason immediate) d =
        (.ok d.campaigns.next, d') ∧ Opens env criteria hours immediate certs d d' := by
  unfold Platform.createCampaign
  cases actor.require [.admin, .operator] with
  | error e => exact Or.inl ⟨e, rfl⟩
  | ok u =>
    by_cases hreason : (!REASONS.contains revocationReason) = true
    · exact Or.inl ⟨_, by rw [if_pos hreason]; rfl⟩
    rw [if_neg hreason]
    unfold Ari.createCampaign
    by_cases hunknown : (!criteria.unknown.isEmpty) = true
    · exact Or.inl ⟨_, by rw [if_pos hunknown]; rfl⟩
    by_cases hnone : criteria.none = true
    · exact Or.inl ⟨_, by rw [if_neg hunknown, if_pos hnone]; rfl⟩
    by_cases hhours : (decide (hours < 1) || decide (24 * 30 < hours)) = true
    · exact Or.inl ⟨_, by rw [if_neg hunknown, if_neg hnone, if_pos hhours]; rfl⟩
    rw [if_neg hunknown, if_neg hnone, if_neg hhours]
    have hone : 1 ≤ hours := by
      simp only [Bool.or_eq_true, decide_eq_true_eq, not_or, not_lt] at hhours
      exact hhours.1
    unfold Tx.transact
    rw [lift_ok_bind, Tx.get_bind]
    cases hmatching : matching env d criteria with
    | error e => exact Or.inl ⟨e, rfl⟩
    | ok certs => exact Or.inr ⟨certs, _, rfl, hmatching, hone, ⟨_, rfl, rfl⟩, rfl, rfl, rfl⟩

/-- closing raises and writes nothing, or only marks the campaign -/
theorem closeCampaign_cases (env : Env) (actor : Actor) (campaignId : ℕ) (d : Db) :
    (∃ e, Tx.transact (closeCampaign env actor campaignId) d = (.error e, d)) ∨ ∃ audit,
      Tx.transact (closeCampaign env actor campaignId) d = (.ok (),
        { d with
          campaigns := d.campaigns.update campaignId fun c => { c with status := "closed" }
          audit := audit }) := by
  unfold Tx.transact closeCampaign
  cases actor.require [.admin, .operator] with
  | error e => exact Or.inl ⟨e, rfl⟩
  | ok u =>
    rw [lift_ok_bind, Tx.get_bind]
    cases d.campaigns.get campaignId with
    | none => exact Or.inl ⟨_, rfl⟩
    | some camp => exact Or.inr ⟨_, rfl⟩

/-! ## Runs -/

/-- a campaign opened in the run, with the certificates it matched -/
structure Opened where
  id : ℕ
  matched : List ℕ
  openedAt : ℤ
  deadline : ℤ
  immediate : Bool

structure St where
  db : Db
  opened : List Opened

inductive Op where
  | create (env : Env) (actor : Actor) (name reason : String) (criteria : Criteria) (renewWithinHours : ℤ)
      (explanationUrl : Option String) (revocationReason : String) (immediate : Bool)
  | close (env : Env) (actor : Actor) (campaignId : ℕ)
  /-- whatever else the platform does in between -/
  | other (d : Db)

def matchedIds (env : Env) (d : Db) (criteria : Criteria) : List ℕ :=
  match matching env d criteria with
  | .ok certs => certs.map Prod.fst
  | .error _ => []

def step (s : St) : Op → St
  | .create env actor name reason criteria renewWithinHours explanationUrl revocationReason immediate =>
    match Tx.transact (Platform.createCampaign env actor name reason criteria renewWithinHours explanationUrl revocationReason
        immediate) s.db with
    | (.ok id, d) =>
      ⟨d, s.opened ++ [⟨id, matchedIds env s.db criteria, env.now, env.now + renewWithinHours * 3600, immediate⟩]⟩
    | (.error _, d) => ⟨d, s.opened⟩
  | .close env actor campaignId => ⟨(Tx.transact (closeCampaign env actor campaignId) s.db).2, s.opened⟩
  | .other d => ⟨d, s.opened⟩

/-- a window that ends there keeps the campaign's promise -/
def Opened.Keeps (o : Opened) (stop : ℚ) : Prop := if o.immediate then stop < o.openedAt else stop ≤ o.deadline

theorem Opened.Keeps.mono {o : Opened} {x y : ℚ} (h : o.Keeps y) (hle : x ≤ y) : o.Keeps x := by
  unfold Opened.Keeps at h ⊢
  split
  · next himmediate =>
    rw [if_pos himmediate] at h
    exact lt_of_le_of_lt hle h
  · next himmediate =>
    rw [if_neg himmediate] at h
    exact le_trans hle h

/-- every window suggested for an unrevoked certificate keeps the promise of every open campaign that matched it -/
def PullsForward (s : St) : Prop :=
  ∀ o ∈ s.opened, IsOpen s.db o.id → ∀ c ∈ o.matched, ∀ row, s.db.certificates.get c = some row → row.status ≠ .revoked →
    ∀ now, o.Keeps (suggestedEnd s.db c row now)

/-- the advice of the certificate, if it has any, is an open campaign's -/
def AdviceOpen (d : Db) (certId : ℕ) : Prop := ∀ a, adviceFor d.advice certId = some a → IsOpen d a.campaignId

/-- an installation is due because of advice only while the campaign that gave it is open -/
def DueWhileOpen (d : Db) : Prop :=
  ∀ settings now, ∀ p ∈ Provisioning.due d settings now, Provisioning.dueReason d settings now p.2 = some .advised →
    ∀ certId, p.2.certificateId = some certId → AdviceOpen d certId

/-- an installation that renews by itself holds the certificate, and that is active -/
def Installed (d : Db) (certId : ℕ) : Prop :=
  (∃ i inst, d.installations.get i = some inst ∧ inst.autoRenew = true ∧ inst.certificateId = some certId) ∧
    ∃ row, d.certificates.get certId = some row ∧ row.status = .active

/-- an installed certificate has no advice of a closed campaign -/
def InstalledOpen (d : Db) : Prop := ∀ c, Installed d c → AdviceOpen d c

/-- the call returns -/
def Succeeds (d : Db) : Op → Prop
  | .create env actor name reason criteria renewWithinHours explanationUrl revocationReason immediate =>
    ∃ id, (Tx.transact (Platform.createCampaign env actor name reason criteria renewWithinHours explanationUrl
      revocationReason immediate) d).1 = .ok id
  | .close env actor campaignId => (Tx.transact (closeCampaign env actor campaignId) d).1 = .ok ()
  | .other _ => True

/-- A campaign is opened where the advice it keeps is an open campaign's (and over by then, if it is immediate) or is not
needed. One is closed where nothing is installed with its advice and no other open campaign relies on it. The rest leaves
the campaigns, the advice and the validity of matched certificates, and installs no advice of a closed campaign. -/
def Careful (s : St) : Op → Prop
  | .create env _ _ _ criteria renewWithinHours _ _ immediate =>
    ∀ certs, matching env s.db criteria = .ok certs → ∀ c ∈ certs, ∀ a, adviceFor s.db.advice c.1 = some a →
      a.windowEnd ≤ env.now + renewWithinHours * 3600 →
      (IsOpen s.db a.campaignId ∧ (immediate = true → a.windowEnd < env.now)) ∨
        Opened.Keeps ⟨0, [], env.now, env.now + renewWithinHours * 3600, immediate⟩ (defaultEnd c.2)
  | .close _ _ campaignId =>
    ∀ c a, adviceFor s.db.advice c = some a → a.campaignId = campaignId → ¬ Installed s.db c ∧
      ∀ o ∈ s.opened, o.id ≠ campaignId → IsOpen s.db o.id → c ∈ o.matched → ∀ row, s.db.certificates.get c = some row →
        o.Keeps (defaultEnd row)
  | .other d =>
    d.campaigns = s.db.campaigns ∧
      (∀ c, (adviceFor d.advice c).map (fun a => (a.campaignId, a.windowEnd)) =
        (adviceFor s.db.advice c).map fun a => (a.campaignId, a.windowEnd)) ∧
      (∀ o ∈ s.opened, ∀ c ∈ o.matched, ∀ row', d.certificates.get c = some row' → ∃ row, s.db.certificates.get c = some row ∧
        defaultEnd row' = defaultEnd row) ∧
      ∀ c, Installed d c → Installed s.db c ∨ AdviceOpen d c

/-- the promises, also to a certificate that is revoked now, what is installed, and which campaigns there are -/
structure Inv (s : St) : Prop where
  pulls : ∀ o ∈ s.opened, IsOpen s.db o.id → ∀ c ∈ o.matched, ∀ row, s.db.certificates.get c = some row →
    ∀ st, st ≠ .revoked → ∀ now, o.Keeps (suggestedEnd s.db c { row with status := st } now)
  installed : InstalledOpen s.db
  stored : ∀ o ∈ s.opened, o.id < s.db.campaigns.next

section Steps

variable {s : St}

theorem isOpen_insert {d d' : Db} {camp : RenewalCampaign} (h : d'.campaigns = d.campaigns.insert camp) {i : ℕ}
    (hopen : IsOpen d i) : IsOpen d' i := by
  obtain ⟨c, hget, hactive⟩ := hopen
  exact ⟨c, by rw [h]; exact Table.get_insert_of_some hget, hactive⟩

theorem isOpen_next {d d' : Db} {camp : RenewalCampaign} (h : d'.campaigns = d.campaigns.insert camp)
    (hactive : camp.status = "active") : IsOpen d' d.campaigns.next :=
  ⟨camp, by rw [h]; exact Table.get_insert_next _ _, hactive⟩

theorem isOpen_before {d d' : Db} {camp : RenewalCampaign} (h : d'.campaigns = d.campaigns.insert camp) {i : ℕ}
    (hi : i < d.campaigns.next) (hopen : IsOpen d' i) : IsOpen d i := by
  obtain ⟨c, hget, hactive⟩ := hopen
  rw [h, Table.get_insert, if_neg (Nat.ne_of_lt hi)] at hget
  exact ⟨c, hget, hactive⟩

theorem isOpen_close {d d' : Db} {campaignId : ℕ}
    (h : d'.campaigns = d.campaigns.update campaignId fun c => { c with status := "closed" }) (i : ℕ) :
    IsOpen d' i ↔ IsOpen d i ∧ i ≠ campaignId := by
  unfold IsOpen
  rw [h]
  by_cases hi : i = campaignId
  · subst hi
    simp [Table.get_update_self]
  · rw [Table.get_update_of_ne _ _ hi]
    simp [hi]

theorem mem_matching {env : Env} {d : Db} {criteria : Criteria} {certs : List (ℕ × Certificate)}
    (h : matching env d criteria = .ok certs) {c : ℕ × Certificate} (hc : c ∈ certs) : d.certificates.get c.1 = some c.2 := by
  unfold matching at h
  obtain ⟨ca, -, h⟩ := except_bind_ok.1 h
  obtain ⟨before, -, h⟩ := except_bind_ok.1 h
  obtain ⟨after, -, h⟩ := except_bind_ok.1 h
  obtain rfl := except_pure_ok.1 h
  exact (Table.mem_all.1 (List.mem_of_mem_filter hc)).1

/-- opening a campaign keeps the promises of the others, and its own -/
theorem inv_opened {env : Env} {criteria : Criteria} {hours : ℤ} {immediate : Bool} {certs : List (ℕ × Certificate)} {d' : Db}
    (h : Inv s) (hopens : Opens env criteria hours immediate certs s.db d')
    (hcareful : ∀ c ∈ certs, ∀ a, adviceFor s.db.advice c.1 = some a → a.windowEnd ≤ env.now + hours * 3600 →
      (IsOpen s.db a.campaignId ∧ (immediate = true → a.windowEnd < env.now)) ∨
        Opened.Keeps ⟨0, [], env.now, env.now + hours * 3600, immediate⟩ (defaultEnd c.2)) :
    Inv ⟨d', s.opened ++ [⟨s.db.campaigns.next, certs.map Prod.fst, env.now, env.now + hours * 3600, immediate⟩]⟩ := by
  obtain ⟨camp, hcampaigns, hactive⟩ := hopens.campaigns
  have hwindow : env.now + 300 ≤ env.now + hours * 3600 := by
    have hone := hopens.deadline
    omega
  have hspec := fun c => @advised_spec s.db.campaigns.next env.now (env.now + hours * 3600) immediate s.db.advice c hwindow certs
  rw [← hopens.advice] at hspec
  constructor
  · intro o ho hopen c hc row hget st hst now
    have hget : s.db.certificates.get c = some row := hopens.certificates ▸ hget
    rcases List.mem_append.1 ho with hold | hnew
    · -- an older campaign: the window only moves forward
      have hopen := isOpen_before hcampaigns (h.stored o hold) hopen
      refine (h.pulls o hold hopen c hc row hget st hst now).mono ?_
      rcases @end_cases s.db c { row with status := st } hst now with hdefault | ⟨a, ha, haopen, -, hend⟩
      · rw [hdefault]
        exact end_le_default hst now
      · rw [hend]
        by_cases hmatched : c ∈ certs.map Prod.fst
        · obtain ⟨a', ha', hend', hkept | ⟨hid, -, hlater⟩⟩ := (hspec c).1 hmatched
          · obtain rfl := Option.some.inj (ha.symm.trans hkept)
            exact end_le_advice hst now ha' (isOpen_insert hcampaigns haopen)
          · have hnext : IsOpen d' a'.campaignId := hid ▸ isOpen_next hcampaigns hactive
            have hlt : a'.windowEnd < a.windowEnd := lt_of_le_of_lt hend' (hlater a ha)
            exact (end_le_advice hst now ha' hnext).trans (by exact_mod_cast hlt.le)
        · exact end_le_advice hst now (((hspec c).2 hmatched).trans ha) (isOpen_insert hcampaigns haopen)
    · -- its own: the advice it keeps ends in time, and so does what it advises
      obtain rfl := List.mem_singleton.1 hnew
      obtain ⟨p, hp, rfl⟩ := List.mem_map.1 hc
      obtain rfl : row = p.2 := Option.some.inj (hget.symm.trans (mem_matching hopens.matched hp))
      have hkeeps : ∀ x : ℤ, x ≤ env.now + hours * 3600 → (immediate = true → x < env.now) →
          Opened.Keeps ⟨s.db.campaigns.next, certs.map Prod.fst, env.now, env.now + hours * 3600, immediate⟩ x := by
        intro x hle hover
        unfold Opened.Keeps
        split
        · next himmediate => exact_mod_cast hover himmediate
        · exact_mod_cast hle
      obtain ⟨a, ha, hend, hkept | ⟨hid, hover, -⟩⟩ := (hspec p.1).1 hc
      · rcases hcareful p hp a hkept hend with ⟨haopen, hover⟩ | hdefault
        · exact (hkeeps a.windowEnd hend hover).mono (end_le_advice hst now ha (isOpen_insert hcampaigns haopen))
        · exact Opened.Keeps.mono (y := defaultEnd p.2) hdefault (end_le_default hst now)
      · have hnext : IsOpen d' a.campaignId := hid ▸ isOpen_next hcampaigns hactive
        exact (hkeeps a.windowEnd hend hover).mono (end_le_advice hst now ha hnext)
  · intro c hinstalled a ha
    have hinstalled : Installed s.db c := by
      unfold Installed at hinstalled ⊢
      rw [← hopens.certificates, ← hopens.installations]
      exact hinstalled
    by_cases hmatched : c ∈ certs.map Prod.fst
    · obtain ⟨a', ha', -, hkept | ⟨hid, -⟩⟩ := (hspec c).1 hmatched
      · obtain rfl := Option.some.inj (ha'.symm.trans ha)
        exact isOpen_insert hcampaigns (h.installed c hinstalled a' hkept)
      · obtain rfl := Option.some.inj (ha'.symm.trans ha)
        rw [hid]
        exact isOpen_next hcampaigns hactive
    · exact isOpen_insert hcampaigns (h.installed c hinstalled a (((hspec c).2 hmatched).symm.trans ha))
  · intro o ho
    have hnext : d'.campaigns.next = s.db.campaigns.next + 1 := by rw [hcampaigns]; rfl
    show o.id < d'.campaigns.next
    rw [hnext]
    rcases List.mem_append.1 ho with hold | hnew
    · exact Nat.lt_succ_of_lt (h.stored o hold)
    · rw [List.mem_singleton.1 hnew]
      exact Nat.lt_succ_self _

/-- closing a campaign keeps the promises of the others, where they do not rely on its advice -/
theorem inv_closed {campaignId : ℕ} {d' : Db} (h : Inv s)
    (hcampaigns : d'.campaigns = s.db.campaigns.update campaignId fun c => { c with status := "closed" })
    (hadvice : d'.advice = s.db.advice) (hcertificates : d'.certificates = s.db.certificates)
    (hinstallations : d'.installations = s.db.installations)
    (hcareful : ∀ c a, adviceFor s.db.advice c = some a → a.campaignId = campaignId → ¬ Installed s.db c ∧
      ∀ o ∈ s.opened, o.id ≠ campaignId → IsOpen s.db o.id → c ∈ o.matched → ∀ row, s.db.certificates.get c = some row →
        o.Keeps (defaultEnd row)) : Inv ⟨d', s.opened⟩ := by
  constructor
  · intro o ho hopen c hc row hget st hst now
    replace hget : s.db.certificates.get c = some row := hcertificates ▸ hget
    obtain ⟨hopen, hother⟩ := (isOpen_close hcampaigns o.id).1 hopen
    have hkeeps := h.pulls o ho hopen c hc row hget st hst now
    rcases @end_cases s.db c { row with status := st } hst now with hdefault | ⟨a, ha, haopen, -, hend⟩
    · rw [hdefault] at hkeeps
      exact hkeeps.mono (end_le_default hst now)
    · by_cases hclosed : a.campaignId = campaignId
      · -- its advice is lost, and was not needed
        have hdefault := (hcareful c a ha hclosed).2 o ho hother hopen hc row hget
        exact Opened.Keeps.mono (y := defaultEnd row) hdefault (end_le_default hst now)
      · rw [hend] at hkeeps
        have ha' : adviceFor d'.advice c = some a := hadvice ▸ ha
        exact hkeeps.mono (end_le_advice hst now ha' ((isOpen_close hcampaigns a.campaignId).2 ⟨haopen, hclosed⟩))
  · intro c hinstalled a ha
    have hinstalled : Installed s.db c := by
      unfold Installed at hinstalled ⊢
      rw [← hcertificates, ← hinstallations]
      exact hinstalled
    replace ha : adviceFor s.db.advice c = some a := hadvice ▸ ha
    refine (isOpen_close hcampaigns a.campaignId).2 ⟨h.installed c hinstalled a ha, fun hclosed => ?_⟩
    exact (hcareful c a ha hclosed).1 hinstalled
  · intro o ho
    show o.id < d'.campaigns.next
    rw [hcampaigns]
    exact h.stored o ho

theorem isOpen_congr {d d' : Db} (h : d'.campaigns = d.campaigns) (i : ℕ) : IsOpen d' i ↔ IsOpen d i := by
  unfold IsOpen
  rw [h]

/-- the rest of the platform keeps the promises -/
theorem inv_other {d : Db} (h : Inv s) (hcareful : Careful s (.other d)) : Inv ⟨d, s.opened⟩ := by
  obtain ⟨hcampaigns, hadvice, hrows, hinstalls⟩ := hcareful
  constructor
  · intro o ho hopen c hc row' hget st hst now
    obtain ⟨row, hrow, hdefault⟩ := hrows o ho c hc row' hget
    have hkeeps := h.pulls o ho ((isOpen_congr hcampaigns o.id).1 hopen) c hc row hrow st hst now
    exact hkeeps.mono (@end_congr s.db c { row with status := st } d { row' with status := st } hst hst (hadvice c)
      hcampaigns hdefault now now)
  · intro c hinstalled
    rcases hinstalls c hinstalled with hbefore | hafter
    · intro a ha
      have hsame := hadvice c
      replace ha : adviceFor d.advice c = some a := ha
      rw [ha] at hsame
      obtain ⟨b, hb, heq⟩ := Option.map_eq_some_iff.1 hsame.symm
      have hopen := h.installed c hbefore b hb
      rw [(Prod.mk.inj heq).1] at hopen
      exact (isOpen_congr hcampaigns a.campaignId).2 hopen
    · exact hafter
  · intro o ho
    show o.id < d.campaigns.next
    rw [hcampaigns]
    exact h.stored o ho

/-- a step that takes effect is careful -/
def Allowed (s : St) (o : Op) : Prop := Succeeds s.db o → Careful s o

theorem inv_step (o : Op) (h : Inv s) (hallowed : Allowed s o) : Inv (step s o) := by
  cases o with
  | create env actor name reason criteria hours explanationUrl revocationReason immediate =>
    unfold step
    rcases createCampaign_cases env actor name reason criteria hours explanationUrl revocationReason immediate s.db with
      ⟨e, hraises⟩ | ⟨certs, d', hreturns, hopens⟩
    · simp only [hraises]
      exact h
    · have hcareful := hallowed ⟨s.db.campaigns.next, by rw [hreturns]⟩ certs hopens.matched
      have hmatched : matchedIds env s.db criteria = certs.map Prod.fst := by
        unfold matchedIds
        rw [hopens.matched]
      simp only [hreturns, hmatched]
      exact inv_opened h hopens hcareful
  | close env actor campaignId =>
    unfold step
    rcases closeCampaign_cases env actor campaignId s.db with ⟨e, hraises⟩ | ⟨audit, hreturns⟩
    · simp only [hraises]
      exact h
    · have hcareful := hallowed (show (Tx.transact (closeCampaign env actor campaignId) s.db).1 = .ok () by rw [hreturns])
      simp only [hreturns]
      exact inv_closed h rfl rfl rfl rfl hcareful
  | other d => exact inv_other h (hallowed trivial)

theorem Inv.pullsForward (h : Inv s) : PullsForward s := fun o ho hopen c hc row hget hst =>
  h.pulls o ho hopen c hc row hget row.status hst

end Steps

/-- an installation that is due because of advice renews by itself and holds an active certificate -/
theorem dueReason_advised {d : Db} {settings : Provisioning.ExpirySettings} {now : ℤ} {p : ℕ × Installation}
    (hp : p ∈ Provisioning.due d settings now) (hreason : Provisioning.dueReason d settings now p.2 = some .advised) {certId : ℕ}
    (hcert : p.2.certificateId = some certId) : Installed d certId := by
  unfold Provisioning.due at hp
  obtain ⟨hget, hauto⟩ := Table.mem_all.1 (List.mem_of_mem_filter (List.mem_of_mem_take hp))
  refine ⟨⟨p.1, p.2, hget, hauto, hcert⟩, ?_⟩
  unfold Provisioning.dueReason at hreason
  rw [hcert] at hreason
  split at hreason
  · cases hreason
  · split at hreason
    · cases hreason
    · next hfound =>
      split at hreason
      · cases hreason
      · next hactive =>
        obtain ⟨id, hid, hmap⟩ := Option.bind_eq_some_iff.1 hfound
        obtain ⟨row, hrow, heq⟩ := Option.map_eq_some_iff.1 hmap
        obtain ⟨rfl, rfl⟩ := Prod.mk.inj heq
        have hcertId : certId = id := by simpa using (Option.mem_filter_iff.1 hid).1
        subst hcertId
        simp only [Bool.or_eq_true, decide_eq_true_eq, not_or, not_not] at hactive
        exact ⟨row, hrow, hactive.2⟩

theorem InstalledOpen.dueWhileOpen {d : Db} (h : InstalledOpen d) : DueWhileOpen d :=
  fun _ _ _ hp hreason certId hcert => h certId (dueReason_advised hp hreason hcert)

/-- **Campaigns pull what they matched forward, and provisioning follows open ones only**, where none keeps the advice of a
closed campaign and none that closes is relied on. -/
theorem campaigns_pull_forward {d : Db} {ops : List Op} (hstart : InstalledOpen d) (h : Along step Allowed ⟨d, []⟩ ops) :
    PullsForward (run step ⟨d, []⟩ ops) ∧ DueWhileOpen (run step ⟨d, []⟩ ops).db := by
  have hinv : Inv ⟨d, []⟩ := ⟨fun o ho => (List.not_mem_nil ho).elim, hstart, fun o ho => (List.not_mem_nil ho).elim⟩
  have hrun : Inv (run step ⟨d, []⟩ ops) := run_inv (fun s o hs => inv_step o hs) hinv h
  exact ⟨hrun.pullsForward, hrun.installed.dueWhileOpen⟩

/-! ### An open campaign's advice, and a closed one's -/

section Examples

/-- a certificate whose own window ends at 600000000 -/
def storedDb : Db :=
  { Db.empty with certificates := Table.empty.insert (inserted demoState (certRow demoEnv demoCaCert .issued (some 1))) }

def byId : Criteria := ⟨[1], [], [], [], [], "", none, none, [], [], .null⟩

def opens (hours : ℤ) : Op := .create demoEnv ⟨"ann", .operator, none⟩ "rotate" "" byId hours none "superseded" false

def closes (campaignId : ℕ) : Op := .close demoEnv ⟨"ann", .operator, none⟩ campaignId

def firstRun : St := step ⟨storedDb, []⟩ (opens 24)

theorem first_run : (firstRun.db.advice.map fun a => (a.certificateId, a.campaignId)) = [(1, 1)] ∧
    (firstRun.db.campaigns.get 1).map (·.status) = some "active" := by
  decide +kernel

theorem overlap_run : ((step firstRun (opens 48)).db.advice.map fun a => (a.certificateId, a.campaignId)) = [(1, 1)] := by
  decide +kernel

theorem advice_of {advice : List RenewalAdvice} (h : advice.map (fun a => (a.certificateId, a.campaignId)) = [(1, 1)]) {c : ℕ}
    {a : RenewalAdvice} (ha : adviceFor advice c = some a) : a.campaignId = 1 := by
  have hmem := List.mem_map_of_mem (f := fun a : RenewalAdvice => (a.certificateId, a.campaignId)) (List.mem_of_find?_eq_some ha)
  rw [h] at hmem
  exact (Prod.mk.inj (List.mem_singleton.1 hmem)).2

theorem campaigns_pull_forward_overlap :
    PullsForward (run step ⟨storedDb, []⟩ [opens 24, opens 48, closes 2]) ∧
      DueWhileOpen (run step ⟨storedDb, []⟩ [opens 24, opens 48, closes 2]).db := by
  refine campaigns_pull_forward (fun c _ a h => nomatch h) ⟨fun _ => ?_, fun _ => ?_, fun _ => ?_, trivial⟩
  · intro certs _ c _ a h
    cases h
  · -- the second campaign keeps the advice of the first, which is open
    intro certs _ c _ a ha _
    obtain ⟨hadvice, hactive⟩ := first_run
    have hfirst := advice_of hadvice ha
    obtain ⟨camp, hcamp, hstatus⟩ := Option.map_eq_some_iff.1 hactive
    exact Or.inl ⟨⟨camp, by rw [hfirst]; exact hcamp, hstatus⟩, fun himmediate => nomatch himmediate⟩
  · -- nothing is advised by the second campaign
    intro c a ha hsecond
    have hfirst := advice_of overlap_run ha
    omega

def keptRun : St := run step ⟨storedDb, []⟩ [opens 24, closes 1, opens 48]

theorem kept_run :
    (keptRun.opened.map fun o => (o.id, o.matched, o.deadline, o.immediate)) =
      [(1, [1], 87400, false), (2, [1], 173800, false)] ∧
    (keptRun.db.campaigns.get 2).map (·.status) = some "active" ∧
    (keptRun.db.certificates.get 1).map (fun row => (decide (row.status = .active), suggestedEnd keptRun.db 1 row 1000)) =
      some (true, 600000000) := by
  decide +kernel

/-- the certificate is installed, and the campaign that advises to renew it is closed -/
def installedDb : Db :=
  { storedDb with
    installations := Table.empty.insert ⟨1, 1, "www.corp.example", [], "ec-p256", "central", .obj [], none, true, some 1,
      "installed", none, 0, none, none⟩ }

def followedRun : St := run step ⟨installedDb, []⟩ [opens 24, closes 1]

theorem followed_run :
    ((Provisioning.due followedRun.db ⟨7, 30⟩ 1000).map fun p =>
      (p.2.certificateId, Provisioning.dueReason followedRun.db ⟨7, 30⟩ 1000 p.2)) = [(some 1, some .advised)] ∧
    (adviceFor followedRun.db.advice 1).map (·.campaignId) = some 1 ∧
    (followedRun.db.campaigns.get 1).map (·.status) = some "closed" := by
  decide +kernel

/-- The certificate a second campaign matched is told to renew by 600000000, its deadline is 173800. And an installation is due
because of the advice of a closed campaign. -/
theorem closed_advice_fails :
    (¬ ∀ (d : Db) (ops : List Op), (∀ c a, adviceFor d.advice c ≠ some a) → (∀ o ∈ ops, ∀ d', o ≠ .other d') →
      PullsForward (run step ⟨d, []⟩ ops)) ∧
    ¬ ∀ (d : Db) (ops : List Op), (∀ c a, adviceFor d.advice c ≠ some a) → (∀ o ∈ ops, ∀ d', o ≠ .other d') →
      DueWhileOpen (run step ⟨d, []⟩ ops).db := by
  constructor
  · intro h
    have hpulls : PullsForward keptRun :=
      h storedDb [opens 24, closes 1, opens 48] (fun c a ha => nomatch ha) (by simp [opens, closes])
    obtain ⟨hopened, hactive, hend⟩ := kept_run
    generalize keptRun = s at hpulls hopened hactive hend
    obtain ⟨o, ho, heq⟩ := List.mem_map.1 (show (2, [1], (173800 : ℤ), false) ∈
      s.opened.map fun o => (o.id, o.matched, o.deadline, o.immediate) by rw [hopened]; simp)
    obtain ⟨camp, hcamp, hstatus⟩ := Option.map_eq_some_iff.1 hactive
    obtain ⟨row, hrow, heval⟩ := Option.map_eq_some_iff.1 hend
    simp only [Prod.mk.injEq, decide_eq_true_eq] at heq heval
    obtain ⟨hid, hmatched, hdeadline, himmediate⟩ := heq
    have hkeeps := hpulls o ho (hid ▸ ⟨camp, hcamp, hstatus⟩) 1 (by simp [hmatched]) row hrow (by simp [heval.1]) 1000
    unfold Opened.Keeps at hkeeps
    rw [heval.2, hdeadline, himmediate] at hkeeps
    norm_num at hkeeps
  · intro h
    have hwhile : DueWhileOpen followedRun.db :=
      h installedDb [opens 24, closes 1] (fun c a ha => nomatch ha) (by simp [opens, closes])
    obtain ⟨hdue, hadvice, hclosed⟩ := followed_run
    generalize followedRun.db = d at hwhile hdue hadvice hclosed
    obtain ⟨p, hp, heq⟩ := List.mem_map.1 (show (some 1, some Provisioning.DueReason.advised) ∈ (Provisioning.due d ⟨7, 30⟩ 1000).map
      fun p => (p.2.certificateId, Provisioning.dueReason d ⟨7, 30⟩ 1000 p.2) by rw [hdue]; simp)
    obtain ⟨hcert, hreason⟩ := Prod.mk.inj heq
    obtain ⟨a, ha, hfirst⟩ := Option.map_eq_some_iff.1 hadvice
    obtain ⟨camp, hcamp, hactive⟩ := hwhile ⟨7, 30⟩ 1000 p hp hreason 1 hcert a ha
    rw [hfirst] at hcamp
    rw [hcamp, Option.map_some, hactive] at hclosed
    exact absurd hclosed (by decide)

end Examples

end Certadillo.Campaigns
