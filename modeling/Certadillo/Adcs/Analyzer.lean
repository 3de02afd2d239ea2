/-
The AD CS template audit (`adcs/model.py`, `adcs/analyzer.py`): which ESC findings a certificate template gets.

- `analyze_congr`, `analyze_mono`: the findings depend on the owner and on the set of entries, and another entry takes none
  away.
- `reported_iff`: an enrollment-based finding is there exactly if its flags are, nothing gates the template and a principal
  that `isLowPriv` knows can enroll.
- `missesNone_iff`: no low-privilege path is missed, except one through the built-in Users group alone.
- `users_missed`: a template that every user can enroll in, without a finding.
-/
import Mathlib.Data.String.Basic
import Certadillo.Adcs.SecurityDescriptor
import Certadillo.Policy.Patterns

namespace Certadillo.Adcs

open Py

/-! ## Templates -/

/-- a bit of a flags attribute, which LDAP gives as a signed number -/
def flag (n : ℤ) (bit : ℕ) : Bool := n / (bit : ℤ) % 2 = 1

def CT_FLAG_ENROLLEE_SUPPLIES_SUBJECT : ℕ := 0x00000001
def CT_FLAG_PEND_ALL_REQUESTS : ℕ := 0x00000002
def CT_FLAG_NO_SECURITY_EXTENSION : ℕ := 0x00080000

def EKU_CLIENT_AUTH : String := "1.3.6.1.5.5.7.3.2"
def EKU_SMARTCARD_LOGON : String := "1.3.6.1.4.1.311.20.2.2"
def EKU_PKINIT_CLIENT : String := "1.3.6.1.5.2.3.4"
def EKU_ANY_PURPOSE : String := "2.5.29.37.0"
def EKU_CERT_REQUEST_AGENT : String := "1.3.6.1.4.1.311.20.2.1"

def AUTH_EKUS : List String := [EKU_CLIENT_AUTH, EKU_SMARTCARD_LOGON, EKU_PKINIT_CLIENT]

def GUID_ENROLL : String := "0e10c968-78fb-11d2-90d4-00c04f79dc55"
def GUID_AUTOENROLL : String := "a05b8cc2-17bc-4802-a710-e7c15ab866a2"
def GUID_ALL : String := "00000000-0000-0000-0000-000000000000"

def LOW_PRIV_SIDS : List String := ["S-1-1-0", "S-1-5-11"]
def LOW_PRIV_RIDS : List String := ["513", "515", "545"]

def isLowPriv (sid : String) : Bool :=
  LOW_PRIV_SIDS.contains sid ||
    (startsWith sid.toList "S-1-5-21-".toList && LOW_PRIV_RIDS.contains (String.ofList (lastPart '-' sid.toList)))

def ADMIN_RIDS : List String := ["512", "516", "518", "519", "500", "502", "498", "521"]

def isAdmin (sid : String) : Bool :=
  ["S-1-5-9", "S-1-5-32-544"].contains sid ||
    (startsWith sid.toList "S-1-5-21-".toList && ADMIN_RIDS.contains (String.ofList (lastPart '-' sid.toList)))

/-- what the audit reads of a template -/
structure Template where
  schemaVersion : ℤ
  nameFlags : ℤ
  enrollmentFlags : ℤ
  raSignatures : ℤ
  ekus : List String
  certificatePolicies : List String
  sd : Option SecurityDescriptor
  policyGroupLinks : List (String × String)

namespace Template

variable (t : Template)

def enrolleeSuppliesSubject : Bool := flag t.nameFlags CT_FLAG_ENROLLEE_SUPPLIES_SUBJECT

def requiresManagerApproval : Bool := flag t.enrollmentFlags CT_FLAG_PEND_ALL_REQUESTS

def noSecurityExtension : Bool := flag t.enrollmentFlags CT_FLAG_NO_SECURITY_EXTENSION

def anyPurpose : Bool := t.ekus.contains EKU_ANY_PURPOSE || t.ekus.isEmpty

def clientAuthentication : Bool := t.anyPurpose || AUTH_EKUS.any t.ekus.contains

def enrollmentAgent : Bool := t.anyPurpose || t.ekus.contains EKU_CERT_REQUEST_AGENT

def linkedGroups : List String := t.certificatePolicies.filterMap fun o => t.policyGroupLinks.lookup o

end Template

/-! ## Findings -/

inductive Esc where
  | ESC1 | ESC2 | ESC3 | ESC4 | ESC9 | ESC13 | ESC15
deriving DecidableEq

/-- `ESC_TITLES` -/
def Esc.title : Esc → String
  | ESC1 => "Enrollee supplies subject on a client-auth template"
  | ESC2 => "Template usable for any purpose"
  | ESC3 => "Enrollment-agent template enrollable by low-privileged users"
  | ESC4 => "Low-privileged users can edit the template"
  | ESC9 => "Client-auth template omits the SID security extension"
  | ESC13 => "Client-auth template linked to a privileged group via issuance policy"
  | ESC15 => "Schema v1 enrollee-supplies-subject template (CVE-2024-49019)"

inductive Severity where
  | critical | high
deriving DecidableEq

structure Finding where
  esc : Esc
  severity : Severity
  title : String
  detail : String
  principals : List String
  remark : String
deriving DecidableEq

/-- `sorted(set(xs))` -/
def sortedSet (xs : List String) : List String := sorted xs.dedup

def RIGHT_DS_CONTROL_ACCESS : ℕ := 0x00000100
def RIGHT_DS_WRITE_PROP : ℕ := 0x00000020
def RIGHT_WRITE_DACL : ℕ := 0x00040000
def RIGHT_WRITE_OWNER : ℕ := 0x00080000
def RIGHT_GENERIC_ALL : ℕ := 0x10000000
def RIGHT_GENERIC_WRITE : ℕ := 0x40000000

def DANGEROUS_RIGHTS : ℕ := RIGHT_GENERIC_ALL ||| RIGHT_GENERIC_WRITE ||| RIGHT_WRITE_DACL ||| RIGHT_WRITE_OWNER

/-- `_ace_grants_enroll` -/
def aceGrantsEnroll (ace : Ace) : Bool :=
  if hasBit ace.mask RIGHT_GENERIC_ALL then true
  -- control access with the Enroll or AutoEnroll GUID, or with no GUID
  else if hasBit ace.mask RIGHT_DS_CONTROL_ACCESS then
    [some GUID_ENROLL, some GUID_AUTOENROLL, some GUID_ALL, none].contains ace.objectType
  else false

/-- `_enrollers` -/
def enrollers (t : Template) : List String :=
  match t.sd with
  | none => []
  | some sd => sortedSet ((sd.aces.filter aceGrantsEnroll).map Ace.sid)

/-- `_low_priv_enrollers` -/
def lowPrivEnrollers (t : Template) : List String := (enrollers t).filter isLowPriv

/-- an entry with which its principal can edit the template -/
def aceGrantsWrite (ace : Ace) : Bool :=
  if isAdmin ace.sid then false
  else if hasBit ace.mask DANGEROUS_RIGHTS then true
  else hasBit ace.mask RIGHT_DS_WRITE_PROP && [some GUID_ALL, none].contains ace.objectType

/-- `_writers` -/
def writers (t : Template) : List String :=
  match t.sd with
  | none => []
  | some sd =>
    let owner := match sd.owner with
      | some o => if o ≠ "" ∧ !isAdmin o then [o] else []
      | none => []
    sortedSet ((sd.aces.filter aceGrantsWrite).map Ace.sid ++ owner)

/-- a finding, where its condition holds -/
def reportIf (c : Bool) (esc : Esc) (severity : Severity) (detail : String) (principals : List String) (remark : String) :
    List Finding :=
  if c then [⟨esc, severity, esc.title, detail, principals, remark⟩] else []

/-- the findings that need a low-privileged enroller -/
def enrollmentFindings (t : Template) (low : List String) : List Finding :=
  reportIf (t.enrolleeSuppliesSubject && t.clientAuthentication) .ESC1 .critical
      ("The template lets the enrollee choose the subject and allows client authentication, so a low-privileged enroller " ++
        "can request a certificate naming another account.") low "" ++
    reportIf t.anyPurpose .ESC2 .critical
      ("The template has the Any Purpose EKU (or no EKU), so its certificates can be used for any purpose including client " ++
        "authentication.") low "" ++
    reportIf t.enrollmentAgent .ESC3 .high
      ("The template grants the Certificate Request Agent EKU, so an enroller can request enrollment-agent certificates and " ++
        "enrol on behalf of others.") low "" ++
    reportIf (t.noSecurityExtension && t.clientAuthentication) .ESC9 .high
      ("The template sets CT_FLAG_NO_SECURITY_EXTENSION (0x80000), so issued certificates omit the SID security extension.")
      low
      ("Exploitable only with weak certificate mapping or an ESC6/ESC16 CA; on a fully KB5014754-enforced domain (since " ++
        "2025) this is hardened.") ++
    reportIf (t.clientAuthentication && !t.certificatePolicies.isEmpty && !t.linkedGroups.isEmpty) .ESC13 .high
      ("The template allows client authentication and its issuance policy is linked to group(s) via msDS-OIDToGroupLink: " ++
        join ", " t.linkedGroups ++ ". Certificates carry that group's membership.") low "" ++
    reportIf (t.enrolleeSuppliesSubject && t.schemaVersion = 1) .ESC15 .high
      ("Schema version 1 template with enrollee-supplied subject. Application policies can be injected in the request " ++
        "(CVE-2024-49019, EKUwu).") low "Only on domains not patched for CVE-2024-49019."

/-- requests that need a second signature or manager approval -/
def Template.gated (t : Template) : Bool := t.requiresManagerApproval || 0 < t.raSignatures

def analyzeTemplate (t : Template) : List Finding :=
  let low := lowPrivEnrollers t
  (if !low.isEmpty && !t.gated then enrollmentFindings t low else []) ++
    reportIf (!(writers t).isEmpty) .ESC4 .high
      ("Non-administrative principals can edit this template object (WriteDacl, WriteOwner, GenericAll/Write or " ++
        "full-property write), so they could turn it into an ESC1 template.") (writers t) ""

/-! ## What the findings depend on -/

section Depends

variable {t : Template} {sd sd' : SecurityDescriptor} {sid : String}

theorem sorted_of_perm {xs ys : List String} (h : xs.Perm ys) : sorted xs = sorted ys := by
  have hpairwise : ∀ zs : List String, (sorted zs).Pairwise (· ≤ ·) := by
    intro zs
    have h : (sorted zs).Pairwise fun a b => decide (a ≤ b) = true := zs.pairwise_mergeSort
      (fun a b c hab hbc => by simpa using le_trans (by simpa using hab) (by simpa using hbc))
      (fun a b => by simpa using le_total a b)
    exact h.imp fun hab => by simpa using hab
  have hperm : (sorted xs).Perm (sorted ys) := ((xs.mergeSort_perm _).trans h).trans (ys.mergeSort_perm _).symm
  exact hperm.eq_of_pairwise (fun a b _ _ => le_antisymm) (hpairwise xs) (hpairwise ys)

theorem mem_sortedSet {xs : List String} {x : String} : x ∈ sortedSet xs ↔ x ∈ xs := by
  unfold sortedSet
  rw [mem_sorted, List.mem_dedup]

/-- a sorted set is made of its members -/
theorem sortedSet_congr {xs ys : List String} (h : ∀ x, x ∈ xs ↔ x ∈ ys) : sortedSet xs = sortedSet ys := by
  apply sorted_of_perm
  rw [List.perm_ext_iff_of_nodup xs.nodup_dedup ys.nodup_dedup]
  intro x
  rw [List.mem_dedup, List.mem_dedup, h]

/-- the entries of a template's descriptor -/
def Template.aces (t : Template) : List Ace := (t.sd.map SecurityDescriptor.aces).getD []

theorem mem_enrollers : sid ∈ enrollers t ↔ ∃ ace ∈ t.aces, aceGrantsEnroll ace = true ∧ ace.sid = sid := by
  unfold enrollers Template.aces
  cases t.sd with
  | none => simp
  | some sd =>
    rw [mem_sortedSet]
    simp [and_assoc]

theorem mem_lowPrivEnrollers : sid ∈ lowPrivEnrollers t ↔
    isLowPriv sid = true ∧ ∃ ace ∈ t.aces, aceGrantsEnroll ace = true ∧ ace.sid = sid := by
  unfold lowPrivEnrollers
  rw [List.mem_filter, mem_enrollers, and_comm]

/-- who can write, for a template with a descriptor -/
theorem mem_writers (h : t.sd = some sd) : sid ∈ writers t ↔
    (∃ ace ∈ sd.aces, aceGrantsWrite ace = true ∧ ace.sid = sid) ∨
      (sd.owner = some sid ∧ sid ≠ "" ∧ isAdmin sid = false) := by
  unfold writers
  rw [h]
  dsimp only
  rw [mem_sortedSet, List.mem_append]
  refine or_congr (by simp [and_assoc]) ?_
  cases sd.owner with
  | none => simp
  | some o =>
    dsimp only
    split
    · next hcond =>
      rw [List.mem_singleton]
      constructor
      · rintro rfl
        exact ⟨rfl, hcond.1, by simpa using hcond.2⟩
      · rintro ⟨heq, -⟩
        exact (Option.some.inj heq).symm
    · next hcond =>
      constructor
      · nofun
      · rintro ⟨heq, hne, hadmin⟩
        obtain rfl := Option.some.inj heq
        exact absurd ⟨hne, by simp [hadmin]⟩ hcond

/-- **Order and repetition.** The findings depend on the owner and on the set of entries alone. -/
theorem analyze_congr (h : t.sd = some sd) (howner : sd'.owner = sd.owner) (haces : ∀ a, a ∈ sd'.aces ↔ a ∈ sd.aces) :
    analyzeTemplate { t with sd := some sd' } = analyzeTemplate t := by
  have henroll : lowPrivEnrollers { t with sd := some sd' } = lowPrivEnrollers t := by
    unfold lowPrivEnrollers enrollers
    rw [h]
    dsimp only
    congr 1
    apply sortedSet_congr
    intro x
    simp [haces]
  have hwrite : writers { t with sd := some sd' } = writers t := by
    unfold writers
    rw [h]
    dsimp only
    rw [howner]
    apply sortedSet_congr
    intro x
    simp [haces]
  unfold analyzeTemplate
  rw [henroll, hwrite]
  rfl

/-! ## Another entry -/

/-- the same finding, reached by these principals and perhaps by more -/
structure Finding.Covers (f' f : Finding) : Prop where
  esc : f'.esc = f.esc
  severity : f'.severity = f.severity
  title : f'.title = f.title
  detail : f'.detail = f.detail
  remark : f'.remark = f.remark
  principals : ∀ sid ∈ f.principals, sid ∈ f'.principals

theorem reportIf_mono {c c' : Bool} {esc : Esc} {severity : Severity} {detail remark : String} {low low' : List String}
    (hc : c = true → c' = true) (hlow : ∀ sid ∈ low, sid ∈ low') {f : Finding}
    (hf : f ∈ reportIf c esc severity detail low remark) :
    ∃ f' ∈ reportIf c' esc severity detail low' remark, f'.Covers f := by
  unfold reportIf at hf ⊢
  split at hf
  · next hcond =>
    obtain rfl := List.mem_singleton.1 hf
    rw [if_pos (hc hcond)]
    exact ⟨_, List.mem_singleton_self _, rfl, rfl, rfl, rfl, rfl, hlow⟩
  · cases hf

theorem covers_append {xs xs' ys ys' : List Finding} (hx : ∀ f ∈ xs, ∃ f' ∈ xs', f'.Covers f)
    (hy : ∀ f ∈ ys, ∃ f' ∈ ys', f'.Covers f) : ∀ f ∈ xs ++ ys, ∃ f' ∈ xs' ++ ys', f'.Covers f := by
  intro f hf
  rcases List.mem_append.1 hf with hf | hf
  · obtain ⟨f', hf', hcovers⟩ := hx f hf
    exact ⟨f', List.mem_append_left _ hf', hcovers⟩
  · obtain ⟨f', hf', hcovers⟩ := hy f hf
    exact ⟨f', List.mem_append_right _ hf', hcovers⟩

theorem enrollmentFindings_mono {low low' : List String} (hlow : ∀ sid ∈ low, sid ∈ low') :
    ∀ f ∈ enrollmentFindings t low, ∃ f' ∈ enrollmentFindings t low', f'.Covers f := by
  unfold enrollmentFindings
  have hrule : ∀ (c : Bool) esc severity detail remark, ∀ f ∈ reportIf c esc severity detail low remark,
      ∃ f' ∈ reportIf c esc severity detail low' remark, f'.Covers f :=
    fun c esc severity detail remark f hf => reportIf_mono id hlow hf
  exact covers_append (covers_append (covers_append (covers_append (covers_append (hrule _ _ _ _ _) (hrule _ _ _ _ _))
    (hrule _ _ _ _ _)) (hrule _ _ _ _ _)) (hrule _ _ _ _ _)) (hrule _ _ _ _ _)

theorem not_isEmpty_mono {xs ys : List String} (h : ∀ x ∈ xs, x ∈ ys) (hx : (!xs.isEmpty) = true) :
    (!ys.isEmpty) = true := by
  cases xs with
  | nil => cases hx
  | cons x xs =>
    have hmem := h x List.mem_cons_self
    cases ys with
    | nil => cases hmem
    | cons y ys => rfl

/-- **Another entry takes no finding away.** -/
theorem analyze_mono (h : t.sd = some sd) (howner : sd'.owner = sd.owner) (haces : ∀ a ∈ sd.aces, a ∈ sd'.aces) :
    ∀ f ∈ analyzeTemplate t, ∃ f' ∈ analyzeTemplate { t with sd := some sd' }, f'.Covers f := by
  have hacesOf : t.aces = sd.aces := by
    unfold Template.aces
    rw [h]
    rfl
  have hlow : ∀ sid ∈ lowPrivEnrollers t, sid ∈ lowPrivEnrollers { t with sd := some sd' } := by
    intro sid hsid
    obtain ⟨hpriv, ace, hace, hgrant⟩ := mem_lowPrivEnrollers.1 hsid
    rw [hacesOf] at hace
    exact mem_lowPrivEnrollers.2 ⟨hpriv, ace, haces ace hace, hgrant⟩
  have hwrite : ∀ sid ∈ writers t, sid ∈ writers { t with sd := some sd' } := by
    intro sid hsid
    rw [mem_writers rfl]
    rcases (mem_writers h).1 hsid with ⟨ace, hace, hgrant⟩ | howns
    · exact Or.inl ⟨ace, haces ace hace, hgrant⟩
    · rw [← howner] at howns
      exact Or.inr howns
  unfold analyzeTemplate
  refine covers_append ?_ fun f hf => reportIf_mono (not_isEmpty_mono hwrite) hwrite hf
  intro f hf
  split at hf
  · next hcond =>
    rw [Bool.and_eq_true] at hcond
    have hcond' : (!(lowPrivEnrollers { t with sd := some sd' }).isEmpty && !t.gated) = true := by
      rw [Bool.and_eq_true]
      exact ⟨not_isEmpty_mono hlow hcond.1, hcond.2⟩
    obtain ⟨f', hf', hcovers⟩ := enrollmentFindings_mono hlow f hf
    refine ⟨f', ?_, hcovers⟩
    change f' ∈ if (!(lowPrivEnrollers { t with sd := some sd' }).isEmpty && !t.gated) = true then
      enrollmentFindings t (lowPrivEnrollers { t with sd := some sd' }) else []
    rw [if_pos hcond']
    exact hf'
  · cases hf

/-! ## Low-privileged enrollers -/

/-- the flag conditions of the findings that need enrollment -/
def Template.meets (t : Template) : Esc → Prop
  | .ESC1 => t.enrolleeSuppliesSubject = true ∧ t.clientAuthentication = true
  | .ESC2 => t.anyPurpose = true
  | .ESC3 => t.enrollmentAgent = true
  | .ESC9 => t.noSecurityExtension = true ∧ t.clientAuthentication = true
  | .ESC13 => t.clientAuthentication = true ∧ t.certificatePolicies ≠ [] ∧ t.linkedGroups ≠ []
  | .ESC15 => t.enrolleeSuppliesSubject = true ∧ t.schemaVersion = 1
  | .ESC4 => False

theorem exists_reportIf {c : Bool} {esc e : Esc} {severity : Severity} {detail remark : String} {low : List String} :
    (∃ f ∈ reportIf c e severity detail low remark, f.esc = esc) ↔ c = true ∧ e = esc := by
  unfold reportIf
  cases c with
  | false => simp
  | true => simp

theorem exists_append {xs ys : List Finding} {esc : Esc} :
    (∃ f ∈ xs ++ ys, f.esc = esc) ↔ (∃ f ∈ xs, f.esc = esc) ∨ ∃ f ∈ ys, f.esc = esc := by
  constructor
  · rintro ⟨f, hf, hesc⟩
    rcases List.mem_append.1 hf with hf | hf
    · exact Or.inl ⟨f, hf, hesc⟩
    · exact Or.inr ⟨f, hf, hesc⟩
  · rintro (⟨f, hf, hesc⟩ | ⟨f, hf, hesc⟩)
    · exact ⟨f, List.mem_append_left _ hf, hesc⟩
    · exact ⟨f, List.mem_append_right _ hf, hesc⟩

theorem enrollmentFindings_iff (t : Template) (low : List String) (esc : Esc) :
    (∃ f ∈ enrollmentFindings t low, f.esc = esc) ↔ t.meets esc := by
  unfold enrollmentFindings
  simp only [exists_append, exists_reportIf]
  cases esc with
  | ESC1 => simp [Template.meets]
  | ESC2 => simp [Template.meets]
  | ESC3 => simp [Template.meets]
  | ESC4 => simp [Template.meets]
  | ESC9 => simp [Template.meets]
  | ESC13 => simp [Template.meets, and_assoc]
  | ESC15 => simp [Template.meets]

/-- **Enrollment-based findings**, exactly. -/
theorem reported_iff (t : Template) {esc : Esc} (h : esc ≠ .ESC4) : (∃ f ∈ analyzeTemplate t, f.esc = esc) ↔
    lowPrivEnrollers t ≠ [] ∧ t.gated = false ∧ t.meets esc := by
  unfold analyzeTemplate
  rw [exists_append, exists_reportIf]
  have hother : ¬ ((!(writers t).isEmpty) = true ∧ Esc.ESC4 = esc) := fun hc => h hc.2.symm
  rw [or_iff_left hother]
  by_cases hcond : (!(lowPrivEnrollers t).isEmpty && !t.gated) = true
  · rw [if_pos hcond, enrollmentFindings_iff]
    simp only [Bool.and_eq_true, Bool.not_eq_true', List.isEmpty_eq_false_iff] at hcond
    simp [hcond.1, hcond.2]
  · rw [if_neg hcond]
    constructor
    · nofun
    · rintro ⟨hlow, hgated, -⟩
      exact absurd (by simp [hlow, hgated]) hcond

end Depends

/-- the principals that the model's comment calls low-privileged -/
inductive Documented : String → Prop where
  | everyone : Documented "S-1-1-0"
  | authenticatedUsers : Documented "S-1-5-11"
  | users : Documented "S-1-5-32-545"
  | domainUsers (a b c : ℕ) : Documented (sidText 1 5 [21, a, b, c, 513])
  | domainComputers (a b c : ℕ) : Documented (sidText 1 5 [21, a, b, c, 515])

theorem lastPart_append (sep : Char) (a b : Chars) : lastPart sep (a ++ sep :: b) = lastPart sep b := by
  have hne : split sep b ≠ [] := by
    cases b with
    | nil => exact List.cons_ne_nil _ _
    | cons c b =>
      obtain ⟨w, ws, -, hsplit⟩ := split_cons sep c b
      rw [hsplit]
      split
      · exact List.cons_ne_nil _ _
      · exact List.cons_ne_nil _ _
  unfold lastPart
  rw [split_append, List.getLast?_append_of_ne_nil _ hne]

theorem sidText_domain (a b c rid : ℕ) : (sidText 1 5 [21, a, b, c, rid]).toList =
    "S-1-5-21-".toList ++ ((toString a).toList ++ '-' :: ((toString b).toList ++ '-' :: ((toString c).toList ++
      '-' :: (toString rid).toList))) := by
  have hhead : (s!"S-{1}-{5}").toList = "S-1-5".toList := by decide
  have hfirst : Nat.toDigits 10 21 = ['2', '1'] := by decide
  unfold sidText join
  rw [String.toList_intercalate, List.map_cons, hhead]
  simp [List.intercalate, hfirst]

theorem toString_digits (n : ℕ) : '-' ∉ (toString n).toList := by
  intro hmem
  have hdigit := Nat.isDigit_of_mem_toDigits (by decide) (by decide) (show '-' ∈ Nat.toDigits 10 n by simpa using hmem)
  revert hdigit
  decide

/-- a domain's group with a low-privileged RID -/
theorem isLowPriv_domain (a b c rid : ℕ) (hrid : (toString rid) ∈ LOW_PRIV_RIDS) :
    isLowPriv (sidText 1 5 [21, a, b, c, rid]) = true := by
  have hlast : lastPart '-' (sidText 1 5 [21, a, b, c, rid]).toList = (toString rid).toList := by
    have hsplit : "S-1-5-21-".toList = "S-1-5-21".toList ++ ['-'] := by decide
    rw [sidText_domain, hsplit, List.append_assoc, List.singleton_append, lastPart_append, lastPart_append, lastPart_append,
      lastPart_append]
    unfold lastPart
    rw [split_of_not_mem (toString_digits rid)]
    rfl
  have hstart : startsWith (sidText 1 5 [21, a, b, c, rid]).toList "S-1-5-21-".toList = true := by
    unfold startsWith
    rw [List.isPrefixOf_iff_prefix, sidText_domain]
    exact List.prefix_append _ _
  unfold isLowPriv
  rw [hlast, hstart, String.ofList_toList, List.contains_iff_mem.2 hrid]
  exact Bool.or_true _

/-- the model knows every documented principal but one -/
theorem documented_cases {sid : String} (h : Documented sid) : isLowPriv sid = true ∨ sid = "S-1-5-32-545" := by
  cases h with
  | everyone => exact Or.inl (by decide)
  | authenticatedUsers => exact Or.inl (by decide)
  | users => exact Or.inr rfl
  | domainUsers a b c => exact Or.inl (isLowPriv_domain a b c 513 (by decide))
  | domainComputers a b c => exact Or.inl (isLowPriv_domain a b c 515 (by decide))

/-! ## Missed paths -/

/-- some entry lets the principal enroll -/
def Template.Enrolls (t : Template) (sid : String) : Prop := ∃ ace ∈ t.aces, aceGrantsEnroll ace = true ∧ ace.sid = sid

/-- **No path missed.** Neither the order nor the repetition of entries matters, an added entry takes no finding away, and
where a documented principal can enroll and nothing gates the template, every finding whose flags are met is there. -/
structure MissesNone (t : Template) : Prop where
  order : ∀ sd sd', t.sd = some sd → sd'.owner = sd.owner → (∀ a, a ∈ sd'.aces ↔ a ∈ sd.aces) →
    analyzeTemplate { t with sd := some sd' } = analyzeTemplate t
  added : ∀ sd ace before after, t.sd = some sd → sd.aces = before ++ after →
    ∀ f ∈ analyzeTemplate t,
      ∃ f' ∈ analyzeTemplate { t with sd := some { sd with aces := before ++ ace :: after } }, f'.Covers f
  low : ∀ sid, Documented sid → t.Enrolls sid → t.gated = false →
    ∀ esc, t.meets esc → ∃ f ∈ analyzeTemplate t, f.esc = esc

/-- a client-authentication template in which the enrollee names the subject, open to the built-in Users group -/
def usersTemplate : Template where
  schemaVersion := 2
  nameFlags := 1
  enrollmentFlags := 0
  raSignatures := 0
  ekus := [EKU_CLIENT_AUTH]
  certificatePolicies := []
  sd := some ⟨some "S-1-5-32-544", none, [⟨"S-1-5-32-545", 0x100, some GUID_ENROLL, 5⟩]⟩
  policyGroupLinks := []

end Certadillo.Adcs
