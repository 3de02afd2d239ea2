/-
The DNS names of a decision.

DNS names reach a decision as subjectAltNames and as a common name folded in, under one of two rules: profiles that
require a DNS name check the common name with the others, the rule for TLS key usages compares it with the scope only.

- `evaluate_decided`: what a decision says of the request it was made for; `decided_names`: its DNS names.
- `names_ok_iff`: every DNS name of a decision is made of labels and lies in the scope iff no requested name holds a
  newline and a folded common name is made of labels.
-/
import Certadillo.Policy.Patterns

namespace Certadillo.Policy

open Py

/-! ## What a decision says of its request -/

section Decided

variable {lower : Chars → Chars} {sha256 : String → String} {pol : Policies} {csr : Csr} {profileName : String}
  {prof : Profile} {scope : List String} {days hours : Option ℤ} {previousFp : Option String} {popVerified : Bool}
  {d : Decision}

/-- the requested names, with the common name where a DNS name is required -/
def requestedDns (prof : Profile) (csr : Csr) : List String :=
  let san := csr.san.getD .none
  match csr.commonNames.head? with
  | some cn => if cn ≠ "" && prof.requireDnsSan && !san.dns.contains cn then cn :: san.dns else san.dns
  | none => san.dns

/-- a SPIFFE profile takes no common name -/
def subjectCn (prof : Profile) (csr : Csr) : Option String :=
  if prof.requireSpiffeId then none else csr.commonNames.head?

/-- the common name of a decision -/
def decidedCn (cn : Option String) (dns emails : List String) : Option String :=
  match cn with
  | some cn => if cn ≠ "" then some cn else dns.head?.or emails.head?
  | none => dns.head?.or emails.head?

/-- what a decision under a profile that is not for Windows logon was checked for, and what it says -/
structure Decided (lower : Chars → Chars) (pol : Policies) (prof : Profile) (csr : Csr) (scope : List String)
    (d : Decision) : Prop where
  dns : dnsViolations lower prof scope (requestedDns prof csr) (csr.san.getD .none).ips = []
  spiffe : prof.requireSpiffeId = true → spiffeViolations lower pol scope (csr.san.getD .none).uris = []
  noUris : prof.requireSpiffeId = false → (csr.san.getD .none).uris = []
  email : prof.requireEmailSan = true → emailViolations lower scope (csr.san.getD .none).emails = []
  noEmails : prof.requireEmailSan = false → (csr.san.getD .none).emails = []
  cn : (foldCn lower prof scope (subjectCn prof csr) (requestedDns prof csr)).1 = []
  dnsNames : d.dnsNames = (foldCn lower prof scope (subjectCn prof csr) (requestedDns prof csr)).2
  uris : d.uris = (csr.san.getD .none).uris
  emails : d.emails = (csr.san.getD .none).emails
  upns : d.upns = []
  commonName : d.commonName = decidedCn (subjectCn prof csr) d.dnsNames d.emails

/-- the same under a Windows logon profile -/
structure DecidedLogon (csr : Csr) (d : Decision) : Prop where
  none : (csr.san.getD .none).dns = [] ∧ (csr.san.getD .none).emails = [] ∧ (csr.san.getD .none).ips = [] ∧
    (csr.san.getD .none).uris = []
  empty : d.dnsNames = [] ∧ d.uris = [] ∧ d.emails = []
  upn : ∃ upn, d.upns = [upn] ∧ d.commonName = some upn

/-- a check that returns has passed -/
theorem pure_of_check {α : Type} {c : Prop} [Decidable c] {a b : α} {e : Err}
    (h : (if c then pure a else throw e : Except Err α) = .ok b) : c ∧ a = b := by
  split at h
  · next hc => exact ⟨hc, Except.ok.inj h⟩
  · cases h

/-- the same for a check before more work -/
theorem of_check {α : Type} {c : Prop} [Decidable c] {x : Except Err α} {b : α} {e : Err}
    (h : (if c then x else throw e) = .ok b) : c ∧ x = .ok b := by
  split at h
  · next hc => exact ⟨hc, h⟩
  · cases h

theorem evaluateWindowsLogon_decided {v : Violations}
    (h : evaluateWindowsLogon lower csr profileName prof scope days v = .ok d) : DecidedLogon csr d := by
  unfold evaluateWindowsLogon at h
  obtain ⟨upns, -, h⟩ := except_bind_ok.1 h
  extract_lets -underBinder san others v' at h
  obtain ⟨n, -, h⟩ := except_bind_ok.1 h
  obtain ⟨most, -, h⟩ := except_bind_ok.1 h
  extract_lets -underBinder v'' at h
  obtain ⟨hv, h⟩ := of_check h
  obtain ⟨validity, -, h⟩ := except_bind_ok.1 h
  obtain rfl := except_pure_ok.1 h
  have hv' : v' = [] := by
    have hnil := List.isEmpty_iff.1 hv
    exact (List.append_eq_nil_iff.1 hnil).1
  simp only [v', List.append_eq_nil_iff] at hv'
  obtain ⟨⟨⟨-, hothers⟩, hone⟩, -⟩ := hv'
  have hothers : others = [] := by
    by_contra hne
    rw [if_neg (by simpa using hne)] at hothers
    cases hothers
  simp only [others, List.append_eq_nil_iff] at hothers
  have hone : upns.length = 1 := by
    by_contra hne
    rw [if_pos hne] at hone
    cases hone
  obtain ⟨upn, rfl⟩ := List.length_eq_one_iff.1 hone
  exact ⟨⟨hothers.1.1.1, hothers.1.1.2, hothers.1.2, hothers.2⟩, ⟨rfl, rfl, rfl⟩, upn, rfl, rfl⟩

theorem evaluate_decided (hprof : pol.profiles.lookup profileName = some prof)
    (h : evaluate lower sha256 pol csr profileName scope days hours previousFp popVerified = .ok d) :
    if prof.windowsLogon then DecidedLogon csr d else Decided lower pol prof csr scope d := by
  unfold evaluate at h
  obtain ⟨prof', hlookup, h⟩ := except_bind_ok.1 h
  obtain rfl : prof' = prof := by
    unfold profile at hlookup
    rw [hprof] at hlookup
    exact (Except.ok.inj hlookup).symm
  cases hkey : csr.publicKey with
  | error exc =>
    rw [hkey] at h
    cases h
  | ok pub =>
    rw [hkey] at h
    dsimp only at h
    split at h
    · next hw =>
      rw [if_pos hw]
      exact evaluateWindowsLogon_decided h
    · next hw =>
      rw [if_neg hw]
      obtain ⟨⟨vval, validity⟩, -, h⟩ := except_bind_ok.1 h
      obtain ⟨hv, rfl⟩ := pure_of_check h
      have hnil := List.isEmpty_iff.1 hv
      simp only [List.append_eq_nil_iff] at hnil
      obtain ⟨⟨⟨⟨⟨-, hdns⟩, huris⟩, hemails⟩, hcn⟩, -⟩ := hnil
      refine ⟨hdns, fun hs => ?_, fun hs => ?_, fun hm => ?_, fun hm => ?_, hcn, rfl, rfl, rfl, rfl, rfl⟩
      · rwa [if_pos hs] at huris
      · simpa [hs] using huris
      · rwa [if_pos hm] at hemails
      · simpa [hm] using hemails

end Decided

/-! ## The names of a decision -/

/-- a name without the wildcard it may start with -/
def afterWild (name : Chars) : Chars := if startsWith name "*.".toList then name.drop 2 else name

/-- the common name a profile makes a DNS name of -/
def foldedName (prof : Profile) (csr : Csr) : Option String :=
  let ekus := prof.extendedKeyUsage.getD []
  csr.commonNames.head?.filter fun cn => cn ≠ "" && !(csr.san.getD .none).dns.contains cn && !prof.windowsLogon &&
    (prof.requireDnsSan || (!prof.requireSpiffeId && (ekus.contains "server_auth" || ekus.contains "client_auth")))

/-- a name of labels, with a wildcard only where the profile allows one, that the scope holds -/
structure NameOk (prof : Profile) (scope : List String) (name : String) : Prop where
  wild : startsWith name.toList "*.".toList = true → prof.allowWildcard = true
  labels : ∀ l ∈ split '.' (afterWild name.toList), IsLabel l
  scope : name ∈ scope ∨ ∃ entry ∈ scope, ∃ body t, entry.toList = "*.".toList ++ body ∧ t ≠ [] ∧
    name.toList = t ++ '.' :: body

/-- no requested name holds a newline, and a folded common name is made of labels -/
def NamesPlain (prof : Profile) (csr : Csr) : Prop :=
  (∀ name ∈ (csr.san.getD .none).dns, '\n' ∉ name.toList) ∧
    ∀ cn, foldedName prof csr = some cn → '\n' ∉ cn.toList ∧ (split '.' (afterWild cn.toList)).all label = true

section Names

variable {lower : Chars → Chars} {pol : Policies} {csr : Csr} {prof : Profile} {scope : List String} {d : Decision}
  {name : String}

theorem afterWild_eq (name : Chars) : name = afterWild name ∨ name = "*.".toList ++ afterWild name := by
  unfold afterWild
  split
  · next h =>
    obtain ⟨t, rfl⟩ := startsWith_iff.1 h
    exact Or.inr rfl
  · exact Or.inl rfl

/-- without a newline the label expression accepts labels only -/
theorem labels_iff {s : Chars} (h : '\n' ∉ s) : (split '.' s).all label = true ↔ ∀ l ∈ split '.' s, IsLabel l := by
  rw [List.all_eq_true]
  refine forall₂_congr fun l hl => ?_
  rw [label_iff]
  constructor
  · rintro ⟨l', hl', rfl | rfl⟩
    · exact hl'
    · exact absurd (mem_split hl (List.mem_append_right _ (List.mem_singleton_self _))) h
  · exact fun hl' => ⟨l, hl', Or.inl rfl⟩

theorem labels_newline {s : Chars} (h : ∀ l ∈ split '.' s, IsLabel l) : '\n' ∉ s := by
  intro hmem
  rcases exists_split '.' hmem with hdot | ⟨l, hl, hc⟩
  · exact absurd hdot (by decide)
  · exact absurd ((h l hl).chars _ hc) (by decide)

theorem newline_afterWild {s : Chars} : '\n' ∈ s ↔ '\n' ∈ afterWild s := by
  rcases afterWild_eq s with h | h
  · rw [← h]
  · conv_lhs => rw [h]
    simp

/-- the characters of a name of labels -/
theorem labels_mem {s : Chars} {c : Char} (h : ∀ l ∈ split '.' (afterWild s), IsLabel l) (hc : c ∈ s) :
    labelChar c = true ∨ c = '.' ∨ c = '*' := by
  have hbody : ∀ c ∈ afterWild s, labelChar c = true ∨ c = '.' := by
    intro c hc
    rcases exists_split '.' hc with hdot | ⟨l, hl, hcl⟩
    · exact Or.inr hdot
    · exact Or.inl ((h l hl).chars _ hcl)
  rcases afterWild_eq s with hs | hs
  · rw [hs] at hc
    rcases hbody c hc with h | h
    · exact Or.inl h
    · exact Or.inr (Or.inl h)
  · rw [hs] at hc
    rcases List.mem_append.1 hc with hc | hc
    · have hstar : ∀ c ∈ "*.".toList, c = '.' ∨ c = '*' := by simp
      exact Or.inr (hstar c hc)
    · rcases hbody c hc with h | h
      · exact Or.inl h
      · exact Or.inr (Or.inl h)

/-- a name of labels is compared as it is -/
theorem folded_labels (hl : LowerAscii lower) {s : Chars} (h : ∀ l ∈ split '.' (afterWild s), IsLabel l) :
    folded lower s = s := by
  have hdots := labels_dot ((labels_iff (labels_newline h)).2 h)
  have hne : afterWild s ≠ [] := by
    intro hnil
    rw [hnil] at h
    exact (h [] List.mem_cons_self).nonempty rfl
  refine folded_plain hl (fun c hc => ?_) ?_
  · rcases labels_mem h hc with h | rfl | rfl
    · exact (labelChar_plain h).1
    · decide
    · decide
  · rcases afterWild_eq s with hs | hs
    · rw [hs]
      exact hdots.2
    · rw [hs, List.getLast?_append_of_ne_nil _ hne]
      exact hdots.2

/-- a name of labels that the scope allows is an exact entry or below a wildcard entry -/
theorem scope_of_labels (hl : LowerAscii lower) {patterns : List String} (hscope : validateScope lower patterns = .ok scope)
    (h : ∀ l ∈ split '.' (afterWild name.toList), IsLabel l) (hallowed : domainAllowed lower name.toList scope = true) :
    name ∈ scope ∨ ∃ entry ∈ scope, ∃ body t, entry.toList = "*.".toList ++ body ∧ t ≠ [] ∧
      name.toList = t ++ '.' :: body := by
  obtain ⟨entry, hentry, hmatch⟩ := domainAllowed_iff.1 hallowed
  have hcase := validateScope_entry hscope hentry
  have hself : folded lower name.toList = name.toList := folded_labels hl h
  -- no character of a SPIFFE entry's scheme is one of a label
  have hcolon : ':' ∉ name.toList := fun hc => by
    rcases labels_mem h hc with hc | hc | hc
    · exact absurd hc (by decide)
    · exact absurd hc (by decide)
    · exact absurd hc (by decide)
  generalize hp : entry.toList = p at hcase hmatch
  cases hcase with
  | exact _ hok hw =>
    rw [matches_exact hl hok hw, hself, ← hp, String.toList_inj] at hmatch
    exact Or.inl (hmatch ▸ hentry)
  | suffix body hok =>
    rw [matches_suffix hl hok, hself] at hmatch
    obtain ⟨t, ht⟩ := hmatch
    refine Or.inr ⟨entry, hentry, body, t, hp, ?_, ht⟩
    rintro rfl
    have hafter : afterWild name.toList = '.' :: body := by
      rw [ht]
      rfl
    have hdots := labels_dot ((labels_iff (labels_newline h)).2 h)
    exact hdots.1 (by rw [hafter]; rfl)
  | spiffe _ hok =>
    rw [matches_spiffe hl hok, hself] at hmatch
    have hmem : ':' ∈ folded lower p := mem_rstrip_of_not (colon_mem_lower hl hok) (by decide)
    exact absurd (hmatch ▸ hmem) hcolon
  | below base hok =>
    rw [matches_below hl hok, hself] at hmatch
    obtain ⟨t, ht⟩ := hmatch
    exact absurd (ht ▸ List.mem_append_left _ (colon_mem_lower hl hok)) hcolon

/-- a name that passed the checks of the requested names -/
structure Checked (lower : Chars → Chars) (prof : Profile) (scope : List String) (name : String) : Prop where
  wild : startsWith name.toList "*.".toList = true → prof.allowWildcard = true
  allowed : domainAllowed lower name.toList scope = true

theorem dnsViolations_checked {dns ips : List String} (h : dnsViolations lower prof scope dns ips = []) (hname : name ∈ dns) :
    dnsLabelsOk (afterWild name.toList) = true ∧ Checked lower prof scope name := by
  unfold dnsViolations at h
  obtain ⟨⟨-, h⟩, -⟩ := (List.append_eq_nil_iff.1 h).imp List.append_eq_nil_iff.1 id
  have hone : (if (!dnsLabelsOk (afterWild name.toList)) = true then _ else _) = [] :=
    List.flatMap_eq_nil_iff.1 h name hname
  split at hone
  · cases hone
  next hlabels =>
  rw [Bool.not_eq_true', Bool.not_eq_false] at hlabels
  obtain ⟨hwild, hallowed⟩ := List.append_eq_nil_iff.1 hone
  refine ⟨hlabels, fun hw => ?_, ?_⟩
  · by_contra hno
    rw [hw, Bool.eq_false_iff.2 hno] at hwild
    cases hwild
  · by_contra hno
    rw [if_neg hno] at hallowed
    cases hallowed

/-- the second rule: the names that have a TLS key usage -/
def foldsTls (prof : Profile) (dns : List String) (cn : String) : Bool :=
  let ekus := prof.extendedKeyUsage.getD []
  cn ≠ "" && !prof.requireSpiffeId && (ekus.contains "server_auth" || ekus.contains "client_auth") && !dns.contains cn

/-- it folds a common name that the scope holds, and changes nothing else -/
theorem foldCn_ok {cn : Option String} {dns : List String} (h : (foldCn lower prof scope cn dns).1 = []) :
    (foldCn lower prof scope cn dns).2 = (cn.filter (foldsTls prof dns)).toList ++ dns ∧
      ∀ name ∈ cn.filter (foldsTls prof dns), Checked lower prof scope name := by
  cases cn with
  | none => exact ⟨rfl, nofun⟩
  | some cn =>
    have hfold : foldCn lower prof scope (some cn) dns = if foldsTls prof dns cn = true then
        (if (!domainAllowed lower cn.toList scope) = true then
          ([("cn_scope", s!"CN {cn} is outside the app's approved domains")], dns)
        else if (startsWith cn.toList "*.".toList && !prof.allowWildcard) = true then
          ([("wildcard", s!"wildcard {cn} not allowed")], dns)
        else ([], cn :: dns)) else ([], dns) := rfl
    rw [hfold] at h ⊢
    split at h
    · next hf =>
      split at h
      · cases h
      next hallowed =>
      split at h
      · cases h
      next hwild =>
      rw [if_pos hf, if_neg hallowed, if_neg hwild, Option.filter_some_pos hf]
      refine ⟨rfl, fun name hname => ?_⟩
      obtain rfl := Option.some.inj hname
      refine ⟨fun hw => ?_, by simpa using hallowed⟩
      rw [hw] at hwild
      simpa using hwild
    · next hf =>
      rw [if_neg hf, Option.filter_some_neg (Bool.eq_false_iff.2 hf)]
      exact ⟨rfl, nofun⟩

/-- **The DNS names of a decision**: those requested, and the common name its profile folds in. -/
theorem decided_names (hw : prof.windowsLogon = false) (h : Decided lower pol prof csr scope d) :
    d.dnsNames = (foldedName prof csr).toList ++ (csr.san.getD .none).dns := by
  rw [h.dnsNames, (foldCn_ok h.cn).1]
  unfold subjectCn requestedDns foldedName
  cases csr.commonNames.head? with
  | none => simp
  | some cn =>
    have hspiffe : ∀ dns, (if prof.requireSpiffeId then none else some cn).filter (foldsTls prof dns) =
        (some cn).filter (foldsTls prof dns) := by
      intro dns
      cases hs : prof.requireSpiffeId with
      | false => rfl
      | true => simp [foldsTls, hs, Option.filter_some]
    dsimp only
    rw [hspiffe, Option.filter_some, Option.filter_some]
    by_cases hne : cn = ""
    · simp [foldsTls, hne]
    by_cases hmem : cn ∈ (csr.san.getD .none).dns
    · simp [foldsTls, hmem]
    cases hr : prof.requireDnsSan with
    | true => simp [foldsTls, hne, hmem, hw]
    | false => simp [foldsTls, hne, hmem, hw]

/-- every DNS name of a decision passed the checks of the scope; one that is requested, or folded in where a DNS name is
required, is made of labels and newlines -/
theorem decided_checked (h : Decided lower pol prof csr scope d) (hname : name ∈ d.dnsNames) : Checked lower prof scope name := by
  rw [h.dnsNames, (foldCn_ok h.cn).1] at hname
  rcases List.mem_append.1 hname with hfolded | hrequested
  · exact (foldCn_ok h.cn).2 name (Option.mem_toList.1 hfolded)
  · exact (dnsViolations_checked h.dns hrequested).2

theorem requested_labels (h : Decided lower pol prof csr scope d) (hname : name ∈ (csr.san.getD .none).dns) :
    dnsLabelsOk (afterWild name.toList) = true := by
  refine (dnsViolations_checked h.dns ?_).1
  unfold requestedDns
  dsimp only
  split
  · split
    · exact List.mem_cons_of_mem _ hname
    · exact hname
  · exact hname

end Names

/-- **The DNS names of a decision are valid names of the scope** iff no requested name holds a newline and a common name
folded in is made of labels. -/
theorem names_ok_iff {lower : Chars → Chars} (hl : LowerAscii lower) {sha256 : String → String} {pol : Policies} {csr : Csr}
    {profileName : String} {prof : Profile} {patterns scope : List String} {days hours : Option ℤ}
    {previousFp : Option String} {popVerified : Bool} {d : Decision}
    (hscope : validateScope lower patterns = .ok scope) (hprof : pol.profiles.lookup profileName = some prof)
    (h : evaluate lower sha256 pol csr profileName scope days hours previousFp popVerified = .ok d) :
    (∀ name ∈ d.dnsNames, NameOk prof scope name) ↔ NamesPlain prof csr := by
  have hdecided := evaluate_decided hprof h
  cases hw : prof.windowsLogon with
  | true =>
    -- such a certificate carries no DNS name
    rw [hw, if_pos rfl] at hdecided
    have hfold : foldedName prof csr = none := by simp [foldedName, hw]
    refine iff_of_true (fun name hname => ?_) ⟨fun name hname => ?_, fun cn hcn => ?_⟩
    · rw [hdecided.empty.1] at hname
      cases hname
    · rw [hdecided.none.1] at hname
      cases hname
    · rw [hfold] at hcn
      cases hcn
  | false =>
    rw [hw, if_neg Bool.false_ne_true] at hdecided
    have hnames := decided_names hw hdecided
    constructor
    · intro hok
      have hplain : ∀ name ∈ d.dnsNames, '\n' ∉ name.toList := fun name hname hmem =>
        labels_newline (hok name hname).labels (newline_afterWild.1 hmem)
      refine ⟨fun name hname => hplain name ?_, fun cn hcn => ?_⟩
      · rw [hnames]
        exact List.mem_append_right _ hname
      · have hmem : cn ∈ d.dnsNames := by
          rw [hnames, hcn]
          exact List.mem_cons_self
        have hlabels := (hok cn hmem).labels
        exact ⟨hplain cn hmem, (labels_iff (labels_newline hlabels)).2 hlabels⟩
    · intro hplain name hname
      have hchecked := decided_checked hdecided hname
      have hlabels : '\n' ∉ name.toList ∧ (split '.' (afterWild name.toList)).all label = true := by
        rw [hnames] at hname
        rcases List.mem_append.1 hname with hfolded | hrequested
        · exact hplain.2 name (Option.mem_toList.1 hfolded)
        · have hok := requested_labels hdecided hrequested
          simp only [dnsLabelsOk, Bool.and_eq_true] at hok
          exact ⟨hplain.1 name hrequested, hok.2⟩
      have hok := (labels_iff fun hmem => hlabels.1 (newline_afterWild.2 hmem)).1 hlabels.2
      exact ⟨hchecked.wild, hok, scope_of_labels hl hscope hok hchecked.allowed⟩

/-! ### A name with a newline -/

section Examples

theorem lowerAscii_toLower : LowerAscii (List.map Char.toLower) := fun _ _ => rfl

/-- a TLS profile -/
def webProfile : Profile :=
  ⟨some ["server_auth"], some 30, some 90, none, none, true, false, some 2048, some ["secp256r1"], false, false, false,
    false, false, none, none, none⟩

def webPolicies : Policies := ⟨[("web", webProfile)], "corp.example", []⟩

/-- a request for one name, and the decision on it -/
def webRequest (name : String) : Csr :=
  ⟨.ok ⟨.ec "secp256r1" 256, "key"⟩, some true, [], some ⟨[name], [], [], [], []⟩⟩

def webDecision (name : String) : Decision :=
  ⟨"web", 2592000, [name], [], [], some name, false, [], none, none, none⟩

def webEvaluate (name : String) : Except Err Decision :=
  evaluate (List.map Char.toLower) id webPolicies (webRequest name) "web" ["*.corp.example"]
    none none none false

theorem webScope_ok : validateScope (List.map Char.toLower) ["*.Corp.Example."] = .ok ["*.corp.example"] := by decide

theorem plain_name_ok : NameOk webProfile ["*.corp.example"] "www.corp.example" := by
  have hok := names_ok_iff lowerAscii_toLower webScope_ok (show webPolicies.profiles.lookup "web" = some webProfile from rfl)
    (show webEvaluate "www.corp.example" = .ok (webDecision "www.corp.example") by decide)
  refine hok.2 ⟨by decide, ?_⟩ _ List.mem_cons_self
  intro cn hcn
  cases hcn

/-- A requested name keeps the newline after its first label. -/
theorem newline_in_name :
    ¬ ∀ (lower : Chars → Chars) (sha256 : String → String) (pol : Policies) (csr : Csr) (profileName : String) (prof : Profile)
      (patterns scope : List String) (days hours : Option ℤ) (previousFp : Option String) (popVerified : Bool)
      (d : Decision), LowerAscii lower → validateScope lower patterns = .ok scope →
        pol.profiles.lookup profileName = some prof →
        evaluate lower sha256 pol csr profileName scope days hours previousFp popVerified = .ok d →
        ∀ name ∈ d.dnsNames, NameOk prof scope name := by
  intro h
  have hok := h (List.map Char.toLower) id webPolicies (webRequest "www\n.corp.example")
    "web" webProfile ["*.Corp.Example."] ["*.corp.example"] none none none false (webDecision "www\n.corp.example")
    lowerAscii_toLower webScope_ok rfl
    (show webEvaluate "www\n.corp.example" = .ok (webDecision "www\n.corp.example") by decide)
    "www\n.corp.example" List.mem_cons_self
  exact labels_newline hok.labels (by decide)

end Examples

end Certadillo.Policy
