/-
Renewal information and renewal campaigns (`enrollment/ari.py`): the window a certificate is told to renew in, the campaigns
that pull it forward, and their progress.

A certificate has one advice row, however many campaigns matched it. Times are whole seconds, but half of a lifetime and
three fifths of it need not be.
-/
import Certadillo.Services.Issuance

namespace Certadillo.Ari

open Integrity Policy Py Platform

/-! ## Windows -/

/-- Renew between 50% and 60% of the lifetime. -/
def defaultWindow (notBefore notAfter : ℤ) : ℚ × ℚ :=
  let life : ℚ := notAfter - notBefore
  (notBefore + life / 2, notBefore + life * 3 / 5)

/-- the advice row of a certificate -/
def adviceFor (advice : List RenewalAdvice) (certId : ℕ) : Option RenewalAdvice :=
  advice.find? fun a => a.certificateId = certId

/-- (start, end, explanationURL) for a certificate -/
def suggestedWindow (d : Db) (certId : ℕ) (row : Certificate) (now : ℤ) : ℚ × ℚ × Option String :=
  -- a revoked certificate gets a window in the past, meaning renew now
  if row.status = .revoked then ((now - 7200 : ℤ), (now - 3600 : ℤ), none)
  else
    let (start, stop) := defaultWindow row.notBefore row.notAfter
    match adviceFor d.advice certId with
    | none => (start, stop, none)
    | some advice =>
      match d.campaigns.get advice.campaignId with
      | none => (start, stop, none)
      | some camp =>
        if camp.status = "active" ∧ (advice.windowEnd : ℚ) < stop then
          (advice.windowStart, advice.windowEnd, camp.explanationUrl)
        else (start, stop, none)

/-! ## Campaigns -/

/-- what a campaign selects by: empty where a criterion is not given, times as `fromisoformat` reads them -/
structure Criteria where
  certIds : List ℕ
  serials : List String
  appIds : List ℕ
  profiles : List String
  protocols : List String
  ca : String
  issuedBefore : Option (Except String ℤ)
  issuedAfter : Option (Except String ℤ)
  keyTypes : List String
  /-- keys that are no criteria -/
  unknown : List String
  /-- as it was sent -/
  json : Json

/-- no criterion is given -/
def Criteria.none (c : Criteria) : Bool :=
  c.certIds.isEmpty && c.serials.isEmpty && c.appIds.isEmpty && c.profiles.isEmpty && c.protocols.isEmpty && c.ca = "" &&
    c.issuedBefore.isNone && c.issuedAfter.isNone && c.keyTypes.isEmpty

/-- a serial as it is stored: lower case, without colons and leading zeros -/
def serialText (env : Env) (s : String) : String :=
  String.ofList (lstrip (· = '0') ((env.lower s.toList).filter (· ≠ ':')))

/-- `x IN (...)`, where no list selects everything -/
def selects {α : Type} [BEq α] (xs : List α) (x : Option α) : Bool := xs.isEmpty || (x.map xs.contains).getD false

/-- the CA a campaign is restricted to -/
def criterionCa (d : Db) (name : String) : Except Err (Option ℕ) :=
  if name = "" then .ok none
  else do
    match ← oneOrNone d.cas fun ca => ca.name = name with
    | none => throw (.lookup s!"CA {name} not found")
    | some (id, _) => pure (some id)

def criterionTime (t : Option (Except String ℤ)) : Except Err (Option ℤ) :=
  match t with
  | none => .ok none
  | some t => (libCall .value t).map some

/-- `_matching`: active certificates issued here -/
def matching (env : Env) (d : Db) (c : Criteria) : Except Err (List (ℕ × Certificate)) := do
  let ca ← criterionCa d c.ca
  let before ← criterionTime c.issuedBefore
  let after ← criterionTime c.issuedAfter
  let rows := d.certificates.all fun r =>
    r.status = .active && r.source = .issued && selects (c.serials.map (serialText env)) (some r.serialHex) &&
      selects c.appIds r.appId && selects c.profiles r.profile && selects c.protocols r.protocol &&
      selects ca.toList r.caId && ((before.map fun t => decide (r.notBefore < t)).getD true) &&
      ((after.map fun t => decide (t ≤ r.notBefore)).getD true) && selects c.keyTypes (some r.keyType)
  pure (rows.filter fun p => selects c.certIds (some p.1))

/-- the window a campaign advises: never one that ends after the certificate does -/
def advised (now windowEnd : ℤ) (immediate : Bool) (notAfter : ℤ) : ℤ × ℤ :=
  if immediate then (now - 7200, now - 3600) else (now, max (min windowEnd (notAfter - 300)) (now + 300))

/-- the advice rows after one matched certificate -/
def advise (campaignId : ℕ) (now windowEnd : ℤ) (immediate : Bool) (advice : List RenewalAdvice) (c : ℕ × Certificate) :
    List RenewalAdvice :=
  let (start, stop) := advised now windowEnd immediate c.2.notAfter
  let row : RenewalAdvice := ⟨c.1, campaignId, start, stop, false⟩
  match adviceFor advice c.1 with
  | none => advice ++ [row]
  | some existing =>
    -- keep the earliest deadline if two campaigns overlap
    if existing.windowEnd ≤ windowEnd then advice else (advice.filter fun a => a.certificateId ≠ c.1) ++ [row]

def createCampaign (env : Env) (actorName name reason : String) (criteria : Criteria) (renewWithinHours : ℤ)
    (explanationUrl : Option String) (revocationReason : String) (immediate : Bool) : M ℕ := do
  if !criteria.unknown.isEmpty then
    let unknown := join ", " (sorted criteria.unknown)
    raise (.value s!"unknown criteria: {unknown}")
  else if criteria.none then
    raise (.value "a campaign needs at least one selection criterion; it will not select every certificate")
  else if renewWithinHours < 1 || 24 * 30 < renewWithinHours then
    raise (.value "renew_within_hours must be between 1 and 720")
  else
    let now := env.now
    let d ← Tx.get
    let certs ← lift (matching env d criteria)
    let windowEnd := now + renewWithinHours * 3600
    let id ← addPlain Col.campaigns noClash
      ⟨name, reason, revocationReason, explanationUrl, criteria.json, now, windowEnd, "active", actorName, now⟩
    Tx.modify fun d => { d with advice := certs.foldl (advise id now windowEnd immediate) d.advice }
    record env actorName "renewal_campaign.create" s!"campaign:{id}"
      [("name", .str name), ("reason", .str reason), ("criteria", criteria.json), ("certificates", .num certs.length),
        ("window_end", .num windowEnd), ("immediate", .bool immediate)]
    pure id

/-! ## Progress -/

/-- one certificate of a campaign -/
structure StatusItem where
  certificateId : ℕ
  serial : String
  commonName : String
  state : String
  replacedBy : Option ℕ
  protocol : Option String
  app : Option String
  team : Option String
  notAfter : ℤ
deriving DecidableEq

structure CampaignStatus where
  campaign : RenewalCampaign
  overdue : Bool
  total : ℕ
  replaced : ℕ
  revoked : ℕ
  remaining : ℕ
  certificates : List StatusItem

/-- the team of the item's app, which must be stored -/
def teamName (d : Db) (app : Option App) : Except Err (Option String) :=
  match app with
  | none => .ok none
  | some app =>
    match d.teams.get app.teamId with
    | none => .error (.key (toString app.teamId))
    | some team => .ok (some team)

def itemState (c : Certificate) (successor : Option ℕ) : String :=
  if c.status = .revoked then "revoked" else if successor.isSome then "replaced" else "remaining"

def statusItem (d : Db) (camp : RenewalCampaign) (advice : RenewalAdvice) : Except Err StatusItem :=
  match d.certificates.get advice.certificateId with
  | none => .error (.attribute "'NoneType' object has no attribute 'replaced_by'")
  | some c => do
    let successor := replacementFor d advice.certificateId c camp.createdAt
    let app := c.appId.bind d.apps.get
    let team ← teamName d app
    pure ⟨advice.certificateId, c.serialHex, c.commonName, itemState c successor, successor, c.protocol, app.map (·.name), team,
      c.notAfter⟩

/-- the order of the items: by state, then by name -/
def itemLe (a b : StatusItem) : Bool := a.state < b.state || (a.state = b.state && decide (a.commonName ≤ b.commonName))

/-- `campaign_status` -/
def campaignStatus (d : Db) (now : ℤ) (campaignId : ℕ) (camp : RenewalCampaign) : Except Err CampaignStatus := do
  let items ← (d.advice.filter fun a => a.campaignId = campaignId).mapM (statusItem d camp)
  let count (state : String) := (items.filter fun i => i.state = state).length
  let remaining := count "remaining"
  let overdue := camp.status = "active" ∧ camp.windowEnd < now ∧ 0 < remaining
  pure ⟨camp, overdue, items.length, count "replaced", count "revoked", remaining, items.mergeSort itemLe⟩

end Certadillo.Ari

namespace Certadillo

/-! ## Service and API -/

namespace Platform

open Py

/-- `Platform.create_campaign` -/
def createCampaign (env : Env) (actor : Actor) (name reason : String) (criteria : Ari.Criteria) (renewWithinHours : ℤ)
    (explanationUrl : Option String) (revocationReason : String) (immediate : Bool) : M ℕ := do
  lift (actor.require [.admin, .operator])
  if !REASONS.contains revocationReason then
    raise (.value s!"unknown revocation reason {revocationReason}")
  else
    Ari.createCampaign env actor.name name reason criteria renewWithinHours explanationUrl revocationReason immediate

/-- `POST /api/v1/renewal-campaigns/{campaign_id}/close` -/
def closeCampaign (env : Env) (actor : Actor) (campaignId : ℕ) : M Unit := do
  lift (actor.require [.admin, .operator])
  let d ← Tx.get
  match d.campaigns.get campaignId with
  | none => raise (.notFound "campaign not found")
  | some _ =>
    setPlain Col.campaigns campaignId fun c => { c with status := "closed" }
    record env actor.name "renewal_campaign.close" s!"campaign:{campaignId}" []

end Platform

end Certadillo
