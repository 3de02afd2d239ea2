/-
The policy tree (`policy/folders.py`): folders hold settings, apps sit in folders, and the effective policy of an app is
its profile narrowed by the merged settings of its folder and every folder above it.

`ancestors` walks parent links with the ids seen so far; the fuel bounds the walk by the number of folders, and
`ancestorsFrom_fuel` shows that more fuel changes nothing.
-/
import Certadillo.Store

namespace Certadillo.Folders

open Policy Py

/-! ## The tree -/

/-- `s.get(PolicyFolder, folder.parent_id) if folder.parent_id else None` -/
def parentOf (t : Table PolicyFolder) (f : PolicyFolder) : Option (ℕ × PolicyFolder) :=
  match f.parentId with
  | none => none
  | some p => if p = 0 then none else (t.get p).map (p, ·)

def cycleError : Err := .value "the policy tree has a cycle"

/-- the loop of `ancestors`, root first -/
def ancestorsFrom (t : Table PolicyFolder) :
    ℕ → List ℕ → Option (ℕ × PolicyFolder) → Except Err (List (ℕ × PolicyFolder))
  | _, _, none => .ok []
  | 0, _, some _ => .error cycleError
  | n + 1, seen, some (i, f) =>
    if i ∈ seen then .error cycleError
    else do
      let up ← ancestorsFrom t n (i :: seen) (parentOf t f)
      pure (up ++ [(i, f)])

/-- Root first, ending with folder itself. -/
def ancestors (t : Table PolicyFolder) (folder : Option (ℕ × PolicyFolder)) :
    Except Err (List (ℕ × PolicyFolder)) :=
  ancestorsFrom t (t.rows.length + 1) [] folder

def path (t : Table PolicyFolder) : Option (ℕ × PolicyFolder) → Except Err String
  | none => .ok "\\"
  | some f => do
    let chain ← ancestors t (some f)
    pure ("\\" ++ join "\\" (chain.map (·.2.name)))

/-- `s.get(PolicyFolder, folder_id)` with its key -/
def getFolder (t : Table PolicyFolder) (i : ℕ) : Option (ℕ × PolicyFolder) := (t.get i).map (i, ·)

theorem parentOf_get {t : Table PolicyFolder} {f : PolicyFolder} {j : ℕ} {g : PolicyFolder}
    (h : parentOf t f = some (j, g)) : t.get j = some g := by
  unfold parentOf at h
  cases hp : f.parentId with
  | none => simp [hp] at h
  | some p =>
    simp only [hp] at h
    split_ifs at h with h0
    obtain ⟨a, ha, he⟩ := Option.map_eq_some_iff.1 h
    obtain ⟨rfl, rfl⟩ := Prod.mk.inj he
    exact ha

/-- the walk visits distinct folders of the table, so fuel beyond their number changes nothing -/
theorem ancestorsFrom_fuel (t : Table PolicyFolder) (n : ℕ) :
    ∀ (seen : List ℕ) (x : Option (ℕ × PolicyFolder)), seen.Nodup → (∀ i ∈ seen, i ∈ t.rows.map Prod.fst) →
      (∀ i f, x = some (i, f) → t.get i = some f) → t.rows.length + 1 ≤ n + seen.length →
      ancestorsFrom t (n + 1) seen x = ancestorsFrom t n seen x := by
  induction n with
  | zero =>
    intro seen x hnd hsub _ hlen
    have h1 : seen.length ≤ (t.rows.map Prod.fst).length := hnd.subperm hsub |>.length_le
    rw [List.length_map] at h1
    omega
  | succ n ih =>
    intro seen x hnd hsub hx hlen
    rcases x with _ | ⟨i, f⟩
    · rfl
    · by_cases hi : i ∈ seen
      · simp [ancestorsFrom, hi]
      · have hmem : i ∈ t.rows.map Prod.fst :=
          List.mem_map_of_mem (f := Prod.fst) (Table.mem_rows.2 (hx i f rfl))
        have hstep := ih (i :: seen) (parentOf t f) (List.nodup_cons.2 ⟨hi, hnd⟩)
          (fun j hj => (List.mem_cons.1 hj).elim (fun e => e ▸ hmem) (hsub j))
          (fun j g h => parentOf_get h) (by simp only [List.length_cons]; omega)
        rw [ancestorsFrom, ancestorsFrom, if_neg hi, if_neg hi, hstep]

/-! ## The effective policy -/

/-- a merged setting: its value, whether it is locked, and the path of the folder that set it -/
structure Setting where
  value : Json
  locked : Bool
  folder : String
deriving DecidableEq

/-- setting name to setting, in the order they were first set -/
abbrev Eff := List (String × Setting)

/-- the items of one folder's settings, merged over `out` -/
def mergeItems (folder : Except Err String) : List (String × Json) → Eff → Except Err Eff
  | [], out => .ok out
  | (key, spec) :: rest, out => do
    if ((out.lookup key).map (·.locked)).getD false then mergeItems folder rest out
    else
      let value ← item spec "value"
      let locked ← dget spec "locked"
      let where_ ← folder
      mergeItems folder rest (setItem out key ⟨value, truthy locked, where_⟩)

/-- the items of `f.settings or {}` -/
def settingItems (settings : Json) : Except Err (List (String × Json)) :=
  match settings with
  | .obj kvs => .ok kvs
  | j => if truthy j then .error (.attribute "object has no attribute 'items'") else .ok []

def mergeFolders (t : Table PolicyFolder) : List (ℕ × PolicyFolder) → Eff → Except Err Eff
  | [], out => .ok out
  | f :: rest, out => do
    let items ← settingItems f.2.settings
    let out ← mergeItems (path t (some f)) items out
    mergeFolders t rest out

/-- the folders whose settings apply to an app in `folderId`, root first -/
def chain (t : Table PolicyFolder) : Option ℕ → Except Err (List (ℕ × PolicyFolder))
  | none => .ok []
  | some i => ancestors t (getFolder t i)

/-- setting to (value, folder, locked) -/
def effective (t : Table PolicyFolder) (folderId : Option ℕ) : Except Err Eff := do
  let fs ← chain t folderId
  mergeFolders t fs []

/-! ## Settings of a folder -/

def CURVES : List String := ["secp256r1", "secp384r1", "secp521r1"]

def listOfStr (v : Json) : Except Err (List String) :=
  let bad : Except Err (List String) := .error (.value "must be a list of strings")
  match v with
  | .arr xs => xs.mapM fun
    | .str s => if s = "" then .error (.value "must be a list of strings") else .ok s
    | _ => .error (.value "must be a list of strings")
  | _ => bad

def posInt : Json → Except Err Json
  | .num n => if n ≤ 0 then .error (.value "must be a positive integer") else .ok (.num n)
  | _ => .error (.value "must be a positive integer")

def boolOnly : Json → Except Err Json
  | .bool b => .ok (.bool b)
  | _ => .error (.value "must be true or false")

def curves (v : Json) : Except Err Json := do
  let xs ← listOfStr v
  let bad := sorted (xs.dedup.filter fun c => !CURVES.contains c)
  let unknown := listRepr bad
  let known := listRepr CURVES
  if bad.isEmpty then pure v else throw (.value s!"unknown curves {unknown}; use {known}")

def caName : Json → Except Err Json
  | .str s => if s = "" then .error (.value "must be a CA name") else .ok (.str s)
  | _ => .error (.value "must be a CA name")

def zones (lower : Chars → Chars) (v : Json) : Except Err Json := do
  let xs ← listOfStr v
  let _ ← validateScope lower (xs.map fun z => String.ofList (lstrip (fun c => c = '*' || c = '.') z.toList))
  pure (.ofStrs (xs.map fun z =>
    String.ofList (rstrip (· = '.') (lstrip (fun c => c = '*' || c = '.') (lower z.toList)))))

/-- the schema of SETTINGS -/
def settingSchema (lower : Chars → Chars) : List (String × (Json → Except Err Json)) :=
  [("allowed_profiles", fun v => do let _ ← listOfStr v; pure v), ("allowed_zones", zones lower),
    ("rsa_min_bits", posInt), ("ec_curves", curves), ("max_validity_days", posInt), ("issuing_ca", caName),
    ("dual_control", boolOnly), ("issuer", caName)]

/-- a validator's ValueError is reported under its setting -/
def under (key : String) : Except Err Json → Except Err Json
  | .error (.value exc) => .error (.value s!"{key}: {exc}")
  | x => x

/-- the setting names an upstream issuer that is configured, or local -/
def checkIssuer (env : Env) (value : String) : Except Err Unit :=
  if value ≠ "local" && ((env.getBackend value).isNone || value = "adcs") then
    .error (.value s!"issuer: {value} is not a configured upstream issuer")
  else .ok ()

def checkIssuingCa (d : Db) (value : String) : Except Err Unit := do
  match ← oneOrNone d.cas fun ca => ca.name = value with
  | some (_, ca) => if ca.isRoot then throw (.value s!"issuing_ca: {value} is not an issuing CA here")
  | none => throw (.value s!"issuing_ca: {value} is not an issuing CA here")

/-- one setting of `check_settings` -/
def checkSetting (env : Env) (d : Db) (inherited : Eff) (key : String) (spec : Json) : Except Err Json := do
  match (settingSchema env.lower).lookup key with
  | none =>
    let known := listRepr (sorted ((settingSchema env.lower).map Prod.fst))
    let shown := pyRepr key
    throw (.value s!"unknown setting {shown}; one of {known}")
  | some check =>
    let valueOf := match spec with
      | .obj kvs => kvs.lookup "value"
      | _ => none
    match valueOf with
    | none =>
      let give := "give \x7b\"value\": ..., \"locked\": true|false\x7d"
      throw (.value s!"{key}: {give}")
    | some raw =>
      match (inherited.lookup key).filter (·.locked) with
      | some lock =>
        let where_ := lock.folder
        throw (.value s!"{key} is locked at {where_}")
      | none =>
        let value ← under key (check raw)
        let name := match value with
          | .str s => s
          | _ => ""
        if key = "issuer" then checkIssuer env name
        if key = "issuing_ca" then checkIssuingCa d name
        let locked ← dget spec "locked"
        pure (.obj [("value", value), ("locked", .bool (truthy locked))])

/-- Validate a folder's own settings against the schema and its parents' locks. -/
def checkSettings (env : Env) (d : Db) (parentId : Option ℕ) (settings : Json) : Except Err Json :=
  match settings with
  | .obj kvs => do
    let inherited ← effective d.folders parentId
    let out ← kvs.mapM fun p => do pure (p.1, ← checkSetting env d inherited p.1 p.2)
    pure (.obj out)
  | _ => .error (.value "settings must be an object")

/-- `NAME` -/
def nameOk (s : Chars) : Bool :=
  let cls (c : Char) : Bool := c.isAlphanum || c = ' ' || c = '.' || c = '_' || c = '-'
  matchLine cls 120 s && (s.head?.map Char.isAlphanum).getD false

def checkName (name : Json) : Except Err String :=
  match name with
  | .str s =>
    if nameOk s.toList then .ok s
    else .error (.value "folder names use letters, digits, spaces, '.', '_' and '-'")
  | _ => .error (.value "folder names use letters, digits, spaces, '.', '_' and '-'")

/-! ## Enforcement -/

/-- `within_domains` over a stored list of zones, which may hold anything -/
def zonesHold (lower : Chars → Chars) (name : String) : Json → Except Err Bool
  | .arr zs => go zs
  | .str s => go (s.toList.map fun c => .str (String.ofList [c]))
  | _ => .error (.type "object is not iterable")
where
  go : List Json → Except Err Bool
    | [] => .ok false
    | .str z :: rest => if inZone lower (zoneKey lower name.toList) z.toList then .ok true else go rest
    | _ :: _ => .error (.attribute "object has no attribute 'lower'")

/-- the entries outside the zones of a setting -/
def zoneViolations (lower : Chars → Chars) (zones : Setting) : List String → Except Err Violations
  | [] => .ok []
  | n :: rest => do
    let inside ← zonesHold lower n zones.value
    let more ← zoneViolations lower zones rest
    let where_ := zones.folder
    pure (if inside then more else ("folder_zone", s!"{n} is outside the zones of {where_}") :: more)

/-- At onboarding and when an app moves: the profile and scope must fit the folder. -/
def checkApp (lower : Chars → Chars) (eff : Eff) (profile : String) (scope : List String) : Except Err Unit := do
  let v ← match eff.lookup "allowed_profiles" with
    | none => pure []
    | some s => do
      let listed ← isIn profile s.value
      let where_ := s.folder
      pure (if listed then [] else [("folder_profile", s!"profile {profile} is not allowed in {where_}")])
  let w ← match eff.lookup "allowed_zones" with
    | none => pure []
    | some s => zoneViolations lower s scope
  if (v ++ w).isEmpty then pure () else throw (.policy (v ++ w))

/-- the names of a decision the zones apply to -/
def zonedNames (d : Decision) : List String :=
  d.dnsNames ++ d.emails.map (fun e => String.ofList (lastPart '@' e.toList)) ++
    d.upns.map (fun u => String.ofList (lastPart '@' u.toList)) ++ d.uris

/-- the checks of the request's key -/
def keyChecks (eff : Eff) (pub : PublicKey) : Except Err Violations := do
  let (ktype, bits, curve) := describeKey pub
  let v ← match eff.lookup "rsa_min_bits" with
    | some s =>
      if ktype = "rsa" then do
        let least ← toInt s.value
        let where_ := s.folder
        pure (if bits < least then
          [("folder_key_strength", s!"RSA {bits} below {least} required by {where_}")] else [])
      else pure []
    | none => pure []
  let w ← match eff.lookup "ec_curves" with
    | some s =>
      if ktype = "ec" then do
        let listed ← isIn curve s.value
        let where_ := s.folder
        pure (if listed then [] else [("folder_key_curve", s!"curve {curve} not allowed by {where_}")])
      else pure []
    | none => pure []
  pure (v ++ w)

/-- the validity cap: a violation if a validity was requested, else the capped validity -/
def capValidity (eff : Eff) (validity : ℤ) (requestedDays requestedHours : Option ℤ) :
    Except Err (Violations × ℤ) :=
  match eff.lookup "max_validity_days" with
  | none => .ok ([], validity)
  | some s => do
    let days ← toInt s.value
    let cap ← timedelta (days * 86400)
    let where_ := s.folder
    if validity > cap then
      if (requestedDays.getD 0 ≠ 0) || (requestedHours.getD 0 ≠ 0) then
        let has := validity / 86400
        pure ([("folder_validity", s!"{has}d exceeds {days}d set by {where_}")], validity)
      else pure ([], cap)
    else pure ([], validity)

/-- a name set by a folder; the code that reads it takes any false value for none -/
def nameSet (v : Json) : Except Err (Option String) :=
  match v with
  | .str s => .ok (some s)
  | v => if truthy v then .error (.type "not a name") else .ok none

/-- Narrow a profile decision with the folder policy. -/
def apply (lower : Chars → Chars) (eff : Eff) (decision : Decision) (csr : Csr)
    (requestedDays requestedHours : Option ℤ) : Except Err Decision := do
  if eff.isEmpty then pure decision
  else
    let v ← match eff.lookup "allowed_zones" with
      | none => pure []
      | some s => zoneViolations lower s (zonedNames decision)
    let k ← match csr.publicKey with
      | .ok pub => keyChecks eff pub
      | .error exc => throw (.value exc)
    let (c, validity) ← capValidity eff decision.validity requestedDays requestedHours
    if !(v ++ k ++ c).isEmpty then throw (.policy (v ++ k ++ c))
    else
      let ca ← match eff.lookup "issuing_ca" with
        | some s => nameSet s.value
        | none => pure decision.ca
      let issuer ← match eff.lookup "issuer" with
        | some s => nameSet s.value
        | none => pure decision.issuer
      let dual := ((eff.lookup "dual_control").map fun s => truthy s.value).getD false
      pure { decision with
        validity := validity
        ca := ca
        issuer := issuer
        dualControl := decision.dualControl || dual }

end Certadillo.Folders
