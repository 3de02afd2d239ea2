/-
What a folder policy does to a decision.

- `Checks`: every setting of an effective policy is of its kind; `effective_checks`: so in every tree the operations make.
- `Narrows`: the same profile and names, a positive validity that is no longer and within the cap, names within the zones,
  a key that meets the key rules, dual control where the decision or the folder asks for it.
- `apply_narrows_iff`: `apply` raises a policy error or narrows iff the cap is a duration Python can represent.
-/
import Certadillo.Policy.Locks
import Certadillo.Services.Signed

namespace Certadillo.Folders

open Policy Py Platform

/-! ## Settings of an effective policy -/

/-- every setting of an effective policy is of its kind -/
def Checks (eff : Eff) : Prop := ∀ key s, eff.lookup key = some s → Checked key s.value

theorem effective_checks {t : Table PolicyFolder} (ht : Forest t) (hstored : ∀ i f, t.get i = some f → Stored f)
    {folderId : Option ℕ} {eff : Eff} (h : effective t folderId = .ok eff) : Checks eff := by
  have hempty : ∀ folder, chain t folder = .ok [] → folderId = folder → Checks eff := by
    intro folder hchain hfolder key s hs
    subst hfolder
    unfold effective at h
    rw [hchain] at h
    obtain rfl : [] = eff := Except.ok.inj h
    cases hs
  cases folderId with
  | none => exact hempty none rfl rfl
  | some i =>
    cases hf : t.get i with
    | none =>
      refine hempty (some i) ?_ rfl
      show ancestors t ((t.get i).map (i, ·)) = _
      rw [hf]
      rfl
    | some f =>
      obtain ⟨line, hline⟩ := ht.exists_line (x := (i, f)) hf
      obtain ⟨eff', heff, hkeys⟩ := effective_resolve ht hf hline
      obtain rfl : eff' = eff := Except.ok.inj (heff.symm.trans h)
      obtain ⟨rank, hrank⟩ := ht.ends
      intro key s hs
      rw [hkeys key] at hs
      obtain ⟨y, hy, hlevel⟩ := List.mem_map.1 (Inherit.resolve_mem hs)
      obtain ⟨⟨v, locked⟩, hown, rfl⟩ := Option.map_eq_some_iff.1 hlevel
      exact hstored y.1 y.2 ((hline.folders hrank hf).1 y hy).1 key v locked hown

/-! ## The checks of a folder policy -/

section Rules

variable {lower : Chars → Chars} {eff : Eff}

theorem zonesHold_ofStrs (name : String) (zs : List String) :
    zonesHold lower name (.ofStrs zs) = .ok (withinDomains lower name zs) := by
  show zonesHold.go lower name (zs.map .str) = _
  induction zs with
  | nil => rfl
  | cons z zs ih =>
    rw [List.map_cons, zonesHold.go, ih]
    by_cases hz : inZone lower (zoneKey lower name.toList) z.toList = true
    · simp [withinDomains, hz]
    · simp [withinDomains, hz]

/-- the zone check returns, with a violation for every name outside the zones -/
theorem zoneViolations_ok {s : Setting} {zs : List String} (hs : s.value = .ofStrs zs) (names : List String) :
    ∃ v, zoneViolations lower s names = .ok v ∧ (v = [] ↔ ∀ n ∈ names, withinDomains lower n zs = true) := by
  induction names with
  | nil => exact ⟨[], rfl, by simp⟩
  | cons n names ih =>
    obtain ⟨v, hv, hiff⟩ := ih
    have hrun : zoneViolations lower s (n :: names) = .ok (if withinDomains lower n zs then v else
        ("folder_zone", s!"{n} is outside the zones of {s.folder}") :: v) := by
      unfold zoneViolations
      rw [hs, zonesHold_ofStrs, except_ok_bind, hv]
      rfl
    refine ⟨_, hrun, ?_⟩
    cases hin : withinDomains lower n zs with
    | true => simpa [hin] using hiff
    | false => simp [hin]

/-- the names of a decision are within the zones of the folder -/
def ZonesMet (lower : Chars → Chars) (eff : Eff) (names : List String) : Prop :=
  ∀ s zs, eff.lookup "allowed_zones" = some s → s.value = .ofStrs zs → ∀ n ∈ names, withinDomains lower n zs = true

/-- the key meets the RSA size and the curves of the folder -/
structure KeyMet (eff : Eff) (pub : PublicKey) : Prop where
  rsa : ∀ s n, eff.lookup "rsa_min_bits" = some s → s.value = .num n → (describeKey pub).1 = "rsa" →
    n ≤ (describeKey pub).2.1
  ec : ∀ s xs, eff.lookup "ec_curves" = some s → s.value = .ofStrs xs → (describeKey pub).1 = "ec" →
    (describeKey pub).2.2 ∈ xs

/-- the validity is within the cap of the folder -/
def Capped (eff : Eff) (validity : ℤ) : Prop :=
  ∀ s n, eff.lookup "max_validity_days" = some s → s.value = .num n → validity ≤ n * 86400

/-- the cap of the folder is a duration Python can represent -/
def CapFits (eff : Eff) : Prop := ∀ s n, eff.lookup "max_validity_days" = some s → s.value = .num n → n ≤ 999999999

/-- the key checks return, with a violation iff the key does not meet them -/
theorem keyChecks_ok (h : Checks eff) (pub : PublicKey) : ∃ v, keyChecks eff pub = .ok v ∧ (v = [] ↔ KeyMet eff pub) := by
  rcases hkey : describeKey pub with ⟨ktype, bits, curve⟩
  have hmet : KeyMet eff pub ↔
      (∀ s n, eff.lookup "rsa_min_bits" = some s → s.value = .num n → ktype = "rsa" → n ≤ bits) ∧
      ∀ s xs, eff.lookup "ec_curves" = some s → s.value = .ofStrs xs → ktype = "ec" → curve ∈ xs := by
    constructor
    · intro hmet
      have hrsa := hmet.rsa
      have hec := hmet.ec
      rw [hkey] at hrsa hec
      exact ⟨hrsa, hec⟩
    · rintro ⟨hrsa, hec⟩
      constructor
      · rw [hkey]
        exact hrsa
      · rw [hkey]
        exact hec
  rw [hmet]
  generalize hrun : keyChecks eff pub = r
  unfold keyChecks at hrun
  rw [hkey] at hrun
  dsimp -zeta only at hrun
  extract_lets -underBinder second at hrun
  have hsecond : ∀ v, ∃ w, second v = .ok (v ++ w) ∧ (w = [] ↔ ∀ s xs, eff.lookup "ec_curves" = some s →
      s.value = .ofStrs xs → ktype = "ec" → curve ∈ xs) := by
    intro v
    dsimp only [second]
    cases hs : eff.lookup "ec_curves" with
    | none => exact ⟨[], rfl, by simp⟩
    | some s =>
      obtain ⟨xs, hxs⟩ := h _ _ hs
      have hall : (∀ s' xs', some s = some s' → s'.value = .ofStrs xs' → ktype = "ec" → curve ∈ xs') ↔
          (ktype = "ec" → curve ∈ xs) := by
        constructor
        · exact fun hcurve => hcurve s xs rfl hxs
        · intro hcurve s' xs' hs' hxs'
          obtain rfl := Option.some.inj hs'
          obtain rfl := Json.ofStrs_injective (hxs.symm.trans hxs')
          exact hcurve
      have hin : isIn curve s.value = .ok (xs.contains curve) := by
        rw [hxs]
        simp [Json.ofStrs, isIn]
      rw [hall]
      dsimp only
      split
      · next hec =>
        rw [hin, except_ok_bind]
        refine ⟨_, rfl, ?_⟩
        by_cases hmem : curve ∈ xs
        · simp [hmem]
        · simp [hmem, hec]
      · next hec => exact ⟨[], rfl, by simp [hec]⟩
  have hfirst : ∃ v, second v = r ∧ (v = [] ↔
      ∀ s n, eff.lookup "rsa_min_bits" = some s → s.value = .num n → ktype = "rsa" → n ≤ bits) := by
    cases hs : eff.lookup "rsa_min_bits" with
    | none =>
      rw [hs] at hrun
      exact ⟨[], hrun, by simp⟩
    | some s =>
      obtain ⟨n, hn, -⟩ := h _ _ hs
      have hall : (∀ s' m, some s = some s' → s'.value = .num m → ktype = "rsa" → m ≤ (bits : ℤ)) ↔
          (ktype = "rsa" → n ≤ bits) := by
        constructor
        · exact fun hbits => hbits s n rfl hn
        · intro hbits s' m hs' hm
          obtain rfl := Option.some.inj hs'
          obtain rfl : n = m := by rw [hn] at hm; exact Json.num.inj hm
          exact hbits
      have hint : toInt s.value = .ok n := by rw [hn]; rfl
      rw [hs] at hrun
      rw [hall]
      dsimp only at hrun
      split at hrun
      · next hrsa =>
        rw [hint, except_ok_bind] at hrun
        refine ⟨_, hrun, ?_⟩
        by_cases hlt : (bits : ℤ) < n
        · simp [hlt, hrsa]
        · simp [hlt, not_lt.1 hlt]
      · next hrsa => exact ⟨[], hrun, by simp [hrsa]⟩
  obtain ⟨v, hv, hviff⟩ := hfirst
  obtain ⟨w, hw, hwiff⟩ := hsecond v
  refine ⟨v ++ w, hv.symm.trans hw, ?_⟩
  rw [List.append_eq_nil_iff, hviff, hwiff]

/-- the cap: a policy violation where a validity was asked for, else the shorter validity -/
theorem capValidity_ok (h : Checks eff) (validity : ℤ) (hpos : 0 < validity) (days hours : Option ℤ) :
    (CapFits eff → ∃ v capped, capValidity eff validity days hours = .ok (v, capped) ∧
      (v = [] → 0 < capped ∧ capped ≤ validity ∧ Capped eff capped)) ∧
    (¬ CapFits eff → ∃ text, capValidity eff validity days hours = .error (.other text)) := by
  unfold capValidity
  cases hs : eff.lookup "max_validity_days" with
  | none =>
    have hfits : CapFits eff := by
      intro s n hs'
      rw [hs] at hs'
      cases hs'
    refine ⟨fun _ => ⟨[], validity, rfl, fun _ => ⟨hpos, le_rfl, ?_⟩⟩, fun hnot => absurd hfits hnot⟩
    intro s n hs'
    rw [hs] at hs'
    cases hs'
  | some s =>
    obtain ⟨n, hn, hnpos⟩ := h _ _ hs
    have hfits : CapFits eff ↔ n ≤ 999999999 := by
      constructor
      · exact fun hf => hf s n hs hn
      · intro hle s' n' hs' hn'
        obtain rfl := Option.some.inj (hs.symm.trans hs')
        obtain rfl : n = n' := by rw [hn] at hn'; exact Json.num.inj hn'
        exact hle
    have hcapped : ∀ m, Capped eff m ↔ m ≤ n * 86400 := by
      intro m
      constructor
      · exact fun hc => hc s n hs hn
      · intro hle s' n' hs' hn'
        obtain rfl := Option.some.inj (hs.symm.trans hs')
        obtain rfl : n = n' := by rw [hn] at hn'; exact Json.num.inj hn'
        exact hle
    have hint : toInt s.value = .ok n := by rw [hn]; rfl
    dsimp only
    rw [hint, except_ok_bind]
    have hdiv : n * 86400 / 86400 = n := by omega
    constructor
    · intro hf
      have hle : n ≤ 999999999 := hfits.1 hf
      have htd : timedelta (n * 86400) = .ok (n * 86400) := timedelta_ok.2 ⟨rfl, by omega, by omega⟩
      rw [htd, except_ok_bind]
      split
      · next hlong =>
        split
        · exact ⟨_, _, rfl, fun hnil => by cases hnil⟩
        · exact ⟨[], _, rfl, fun _ => ⟨by omega, by omega, (hcapped _).2 le_rfl⟩⟩
      · next hshort => exact ⟨[], _, rfl, fun _ => ⟨hpos, le_rfl, (hcapped _).2 (by omega)⟩⟩
    · intro hf
      have hle : ¬ n ≤ 999999999 := mt hfits.2 hf
      obtain ⟨text, htd⟩ := timedelta_overflow (n := n * 86400) (by omega)
      exact ⟨text, by rw [htd]; rfl⟩

/-! ## Narrowing -/

/-- a decision narrowed by a folder policy -/
structure Narrows (lower : Chars → Chars) (eff : Eff) (csr : Csr) (d d' : Decision) : Prop where
  names : SameNames d d'
  positive : 0 < d'.validity
  noLonger : d'.validity ≤ d.validity
  capped : Capped eff d'.validity
  zones : ZonesMet lower eff (zonedNames d')
  key : ∀ pub, csr.publicKey = .ok pub → KeyMet eff pub
  dual : d.dualControl = true ∨ (∃ s, eff.lookup "dual_control" = some s ∧ s.value = .bool true) → d'.dualControl = true

/-- the folder policy was refused, or the decision narrowed -/
def RefusedOrNarrowed (lower : Chars → Chars) (eff : Eff) (csr : Csr) (d : Decision) (r : Except Err Decision) : Prop :=
  (∃ v, r = .error (.policy v)) ∨ ∃ d', r = .ok d' ∧ Narrows lower eff csr d d'

/-- the zone check of a whole policy returns, with a violation iff a name is outside the zones -/
theorem zones_ok (h : Checks eff) (names : List String) :
    (eff.lookup "allowed_zones" = none ∧ ZonesMet lower eff names) ∨
    ∃ s v, eff.lookup "allowed_zones" = some s ∧ zoneViolations lower s names = .ok v ∧
      (v = [] ↔ ZonesMet lower eff names) := by
  cases hs : eff.lookup "allowed_zones" with
  | none =>
    refine Or.inl ⟨rfl, ?_⟩
    intro s zs hs'
    rw [hs] at hs'
    cases hs'
  | some s =>
    obtain ⟨zs, hzs⟩ := h _ _ hs
    obtain ⟨v, hv, hiff⟩ := @zoneViolations_ok lower s zs hzs names
    refine Or.inr ⟨s, v, rfl, hv, hiff.trans ?_⟩
    constructor
    · intro hin s' zs' hs' hzs'
      obtain rfl := Option.some.inj (hs.symm.trans hs')
      obtain rfl := Json.ofStrs_injective (hzs.symm.trans hzs')
      exact hin
    · exact fun hmet => hmet s zs hs hzs

/-- a request that was evaluated has a key the library can read -/
theorem evaluate_key {sha256 : String → String} {pol : Policies} {csr : Csr} {profileName : String} {scope : List String}
    {days hours : Option ℤ} {previousFp : Option String} {popVerified : Bool} {d : Decision}
    (h : evaluate lower sha256 pol csr profileName scope days hours previousFp popVerified = .ok d) :
    ∃ pub, csr.publicKey = .ok pub := by
  unfold evaluate at h
  obtain ⟨prof, -, h⟩ := except_bind_ok.1 h
  split at h
  · cases h
  · next pub hpub => exact ⟨pub, hpub⟩

end Rules

/-! ## Examples -/

/-- a folder with a cap of `n` days -/
def cappedFolder (n : ℤ) : Db :=
  Machine.run applyChange Db.empty [⟨demoEnv, "olga", .createFolder (.str "Bank") none
    (.obj [("max_validity_days", .obj [("value", .num n), ("locked", .bool false)])]), by simp [DictSettings]⟩]

theorem cappedFolder_forest (n : ℤ) : Forest (cappedFolder n).folders :=
  Machine.run_keeps (I := fun d : Db => Forest d.folders) applyChange_forest forest_empty _

theorem cappedFolder_stored (n : ℤ) : ∀ i f, (cappedFolder n).folders.get i = some f → Stored f :=
  Machine.run_keeps (I := fun d : Db => ∀ i f, d.folders.get i = some f → Stored f) applyChange_stored
    (fun i f hf => by cases hf) _

/-- the effective policy of that folder -/
def cappedEff (n : ℤ) : Eff := [("max_validity_days", ⟨.num n, false, "\\Bank"⟩)]

/-- a request for one name, and what the profile decides for it -/
def siteCsr : Csr := ⟨.ok (demoKey "web-key"), some true, [], some ⟨["www.corp.example"], [], [], [], []⟩⟩

def siteDecision : Decision :=
  ⟨"web", 2592000, ["www.corp.example"], [], [], some "www.corp.example", false, [], none, none, none⟩

def siteEvaluate : Except Err Decision :=
  evaluate demoEnv.lower demoEnv.sha256 demoEnv.policies siteCsr "web" ["*.corp.example"] none none none false

def siteApply (n : ℤ) : Except Err Decision := apply demoEnv.lower (cappedEff n) siteDecision siteCsr none none

/-- a cap of ten days shortens the default of thirty -/
example : (siteApply 10).toOption.map (·.validity) = some 864000 := by decide +kernel

end Certadillo.Folders
