/-
The account of a Windows logon certificate (`adcs/directory.py`): from a UPN, by one LDAP search, to a SID.

The directory server, the client library's connection and its reading of attributes are parameters; `Serves` says that the
server answers a filter text with the entries that the filter matches.

- `parse_filterText`: whatever characters a UPN has, the filter sent for it is the conjunction of two equalities, with that UPN.
- `resolves_exactly`: the resolver finds an account iff exactly one user has the UPN, and it has the SID and flags of that user.
- `logon_certificate_sid`: a certificate signed for a Windows logon, at once or after approval, pins the SID of that user.
-/
import Certadillo.Adcs.SecurityDescriptor
import Certadillo.Lib.LdapFilter
import Certadillo.PyText
import Certadillo.Services.Tampered

namespace Certadillo.Directory

open Integrity Policy Py Bytes Adcs Platform

/-! ## The search -/

/-- `str.replace` of one character -/
def replace (ch : Char) (rep : Chars) (value : Chars) : Chars := value.flatMap fun c => if c = ch then rep else [c]

/-- the characters a filter value may not hold as they are, and how each is written -/
def ESCAPES : List (Char × Chars) :=
  [('\\', "\\5c".toList), ('*', "\\2a".toList), ('(', "\\28".toList), (')', "\\29".toList), (Char.ofNat 0, "\\00".toList)]

/-- `_escape`: one replacement after the other -/
def escape (value : Chars) : Chars := ESCAPES.foldl (fun v p => replace p.1 p.2 v) value

/-- the text of the search for a UPN -/
def filterText (upn : String) : Chars :=
  "(&(objectClass=user)(userPrincipalName=".toList ++ (escape upn.toList ++ "))".toList)

/-! ## Attributes -/

/-- a value as the client library hands it over -/
inductive Atom where
  | str (s : String)
  | bytes (b : Octets)
  | int (n : ℤ)
deriving DecidableEq

inductive Attr where
  | one (a : Atom)
  | many (as : List Atom)
deriving DecidableEq

/-- an entry of an answer: `entry_attributes_as_dict` -/
abbrev Found := String → Option Attr

/-- `_first` -/
def first : Option Attr → Option Atom
  | none => none
  | some (.one a) => some a
  | some (.many as) => as.head?

/-- `sid_bytes_to_string` -/
def sidBytesToString (data : Octets) : Except Exn String := do
  let revision ← index data 0
  let count ← index data 1
  let authority := ofBE ((data.drop 2).take 6)
  let subs ← subsFrom data count 8
  pure (sidText revision authority subs)

/-- `bytes(a)` -/
def toBytes : Atom → Except Err Octets
  | .str _ => .error (.type "string argument without an encoding")
  | .bytes b => .ok b
  | .int n => if n < 0 then .error (.value "negative count") else .ok (List.replicate n.toNat 0)

def ofExn : Exn → Err
  | .index msg => .lookup msg
  | .struct msg => .other msg
  | .value msg => .value msg

/-- the SID of an `objectSid`: already in text, or as octets -/
def sidOf : Atom → Except Err String
  | .str s =>
    if startsWith s.toList "S-".toList then .ok s
    else do (sidBytesToString (← toBytes (.str s))).mapError ofExn
  | a => do (sidBytesToString (← toBytes a)).mapError ofExn

/-- ASCII digits in octets, for `int` -/
def intOfBytes (b : Octets) : Option ℤ :=
  if b.all fun x => x.toNat < 128 && !(28 ≤ x.toNat && x.toNat ≤ 31) then intOf (b.map fun x => Char.ofNat x.toNat) else none

/-- `int(a or 0)` -/
def intOr0 : Option Atom → Except Err ℤ
  | none => .ok 0
  | some (.int n) => .ok n
  | some (.str s) => if s = "" then .ok 0 else intOfJson (.str s)
  | some (.bytes b) =>
    if b = [] then .ok 0
    else
      match intOfBytes b with
      | some n => .ok n
      | none => .error (.value "invalid literal for int() with base 10")

def UF_ACCOUNTDISABLE : ℤ := 0x0002

/-- a bit of a number, negative ones included -/
def hasFlag (n bit : ℤ) : Bool := n / bit % 2 = 1

/-! ## The resolver -/

/-- a `DirectoryError`, or any other exception -/
inductive Failure where
  | directory (text : String)
  | raised (e : Err)
deriving DecidableEq

/-- what the resolver reads of the account it found -/
def accountOf (upn : String) (e : Found) : Except Failure Account :=
  match first (e "objectSid") with
  | none =>
    let shown := pyRepr upn
    .error (.directory s!"account for {shown} has no objectSid")
  | some raw => do
    let sid ← (sidOf raw).mapError .raised
    let uac ← (intOr0 (first (e "userAccountControl"))).mapError .raised
    let admin ← (intOr0 (first (e "adminCount"))).mapError .raised
    pure ⟨sid, !hasFlag uac UF_ACCOUNTDISABLE, admin = 1⟩

/-- `_account_from` -/
def accountFrom (upn : String) (entries : List Found) : Except Failure Account :=
  match entries with
  | [e] => accountOf upn e
  | _ =>
    let shown := pyRepr upn
    let n := entries.length
    .error (.directory s!"UPN {shown} matched {n} accounts; a logon certificate needs exactly one")

/-- the connection the client library opens, and the search below the base -/
structure Server where
  openConnection : Except String Unit
  search : Chars → Except Err (List Found)

/-- `resolve_upn` -/
def resolveUpn (l : Server) (upn : String) : Except Failure Account :=
  match l.openConnection with
  | .error exc => .error (.directory s!"directory connection failed: {exc}")
  | .ok _ => do
    let entries ← (l.search (filterText upn)).mapError .raised
    accountFrom upn entries

/-! ## The filter -/

theorem replace_append (ch : Char) (rep a b : Chars) : replace ch rep (a ++ b) = replace ch rep a ++ replace ch rep b := by
  simp [replace]

theorem escape_append (a b : Chars) : escape (a ++ b) = escape a ++ escape b := by
  unfold escape ESCAPES
  simp only [List.foldl_cons, List.foldl_nil, replace_append]

theorem escape_singleton (c : Char) : escape [c] = Ldap.escapeChar c := by
  unfold Ldap.escapeChar
  split_ifs with hback hstar hopen hclose hnul
  · subst hback
    decide
  · subst hstar
    decide
  · subst hopen
    decide
  · subst hclose
    decide
  · subst hnul
    decide
  · unfold escape ESCAPES replace
    simp [hback, hstar, hopen, hclose, hnul]

/-- the replacements, one after the other, escape each character once -/
theorem escape_eq (value : Chars) : escape value = Ldap.escape value := by
  induction value with
  | nil => rfl
  | cons c value ih =>
    have hcons : c :: value = [c] ++ value := rfl
    rw [hcons, escape_append, escape_singleton, ih]
    rfl

/-- the filter a search for a UPN means -/
def userFilter (upn : String) : Ldap.Filter :=
  .and [.equality "objectClass".toList (Ldap.utf8 "user".toList), .equality "userPrincipalName".toList (Ldap.utf8 upn.toList)]

/-- **A UPN cannot change the search**: whatever characters it has, the filter text for it is read as the conjunction of two
equalities, the second with the octets of that UPN. -/
theorem parse_filterText (upn : String) : Ldap.parse (filterText upn) = some (userFilter upn) := by
  have hvalue : Ldap.parts (escape upn.toList) = some [Ldap.utf8 upn.toList] := by
    rw [escape_eq]
    exact Ldap.parts_escape _
  have hclose : ')' ∉ escape upn.toList := by
    rw [escape_eq]
    exact Ldap.close_notMem_escape _
  have hbegins : "(&(objectClass=user)(userPrincipalName=".toList =
      '(' :: '&' :: (Ldap.itemText "objectClass".toList "user".toList ++ '(' :: ("userPrincipalName".toList ++ ['='])) := by
    decide
  have hsuffix : "))".toList = [')', ')'] := by decide
  have htext : filterText upn = '(' :: '&' :: (Ldap.itemText "objectClass".toList "user".toList ++
      (Ldap.itemText "userPrincipalName".toList (escape upn.toList) ++ [')'])) := by
    unfold filterText
    rw [hbegins, hsuffix]
    generalize "userPrincipalName".toList = attr
    generalize Ldap.itemText "objectClass".toList "user".toList = item
    simp [Ldap.itemText]
  obtain ⟨n, hn⟩ : ∃ n, (filterText upn).length + 1 = n + 4 := by
    refine ⟨(filterText upn).length - 3, ?_⟩
    have hlen : 3 ≤ (filterText upn).length := by
      rw [htext]
      simp only [List.length_cons, List.length_append]
      omega
    omega
  refine Ldap.parse_of_read ?_
  rw [hn, htext]
  have hname : "userPrincipalName".toList.all Ldap.attrChar = true := by decide
  have hclass : "objectClass".toList.all Ldap.attrChar = true := by decide
  have hsecond := Ldap.readList_item "userPrincipalName".toList n (by decide) (List.all_eq_true.1 hname) hclose hvalue
    (Ldap.readList_close n [])
  have huser : ')' ∉ "user".toList := by decide
  have hfirst := Ldap.readList_item "objectClass".toList (n + 1) (by decide) (List.all_eq_true.1 hclass) huser rfl hsecond
  exact Ldap.readFilter_and hfirst

/-! ## SIDs -/

/-- what the parser of security descriptors reads of a SID, the resolver reads too -/
theorem sidBytesToString_of_sidToString {data : Octets} {text : String} {n : ℕ} (h : sidToString data 0 = .ok (text, n)) :
    sidBytesToString data = .ok text := by
  unfold sidToString at h
  obtain ⟨revision, hrevision, h⟩ := except_bind_ok.1 h
  obtain ⟨count, hcount, h⟩ := except_bind_ok.1 h
  dsimp only at h
  split at h
  · cases h
  obtain ⟨subs, hsubs, h⟩ := except_bind_ok.1 h
  obtain ⟨htext, -⟩ := Prod.mk.inj (except_pure_ok.1 h)
  unfold sidBytesToString
  refine except_bind_ok.2 ⟨revision, hrevision, except_bind_ok.2 ⟨count, hcount, except_bind_ok.2 ⟨subs, hsubs, ?_⟩⟩⟩
  rw [← htext]
  rfl

theorem sidBytesToString_octets (s : Sid) : sidBytesToString s.octets = .ok s.text :=
  sidBytesToString_of_sidToString (sidToString_at s (List.prefix_refl _))

theorem sidText_chars (revision authority : ℕ) (subs : List ℕ) :
    ∃ rest, (sidText revision authority subs).toList = 'S' :: '-' :: rest := by
  have hhead : ∃ more, (s!"S-{revision}-{authority}").toList = 'S' :: '-' :: more :=
    ⟨(toString revision ++ "-" ++ toString authority).toList, by simp [String.toList_append]; rfl⟩
  obtain ⟨more, hmore⟩ := hhead
  unfold sidText join
  rw [String.toList_intercalate, List.map_cons, hmore, List.intercalate_cons_cons_left, List.intercalate_cons_cons_left]
  exact ⟨_, rfl⟩

theorem sidOf_text (s : Sid) : sidOf (.str s.text) = .ok s.text := by
  obtain ⟨rest, hrest⟩ := sidText_chars s.revision.toNat s.authority (s.subs.map UInt32.toNat)
  have hstart : startsWith s.text.toList "S-".toList = true := by
    unfold Sid.text
    rw [hrest]
    simp [startsWith]
  unfold sidOf
  dsimp only
  rw [if_pos hstart]

theorem sidOf_octets (s : Sid) : sidOf (.bytes s.octets) = .ok s.text := by
  unfold sidOf toBytes
  dsimp only
  rw [except_ok_bind, sidBytesToString_octets]
  rfl

/-- how the library hands an entry's SID over: as octets, or formatted -/
def HoldsSid (e : Found) (s : Sid) : Prop :=
  first (e "objectSid") = some (.bytes s.octets) ∨ first (e "objectSid") = some (.str s.text)

/-- the account that is read of an entry has the entry's SID, and is enabled unless its flag says otherwise -/
theorem accountOf_ok {upn : String} {e : Found} {a : Account} (h : accountOf upn e = .ok a) :
    (∀ s, HoldsSid e s → a.sid = s.text) ∧ ∃ uac admin, intOr0 (first (e "userAccountControl")) = .ok uac ∧
      intOr0 (first (e "adminCount")) = .ok admin ∧ a.enabled = !hasFlag uac UF_ACCOUNTDISABLE ∧ a.adminCount = decide (admin = 1) := by
  unfold accountOf at h
  split at h
  · cases h
  · next raw hraw =>
    obtain ⟨sid, hsid, h⟩ := except_bind_ok.1 h
    obtain ⟨uac, huac, h⟩ := except_bind_ok.1 h
    obtain ⟨admin, hadmin, h⟩ := except_bind_ok.1 h
    cases h
    have hok : ∀ {α : Type} {x : Except Err α} {y : α}, x.mapError Failure.raised = .ok y → x = .ok y := by
      intro α x y hx
      cases x with
      | error e => cases hx
      | ok z =>
        cases hx
        rfl
    refine ⟨fun s hs => ?_, uac, admin, hok huac, hok hadmin, rfl, rfl⟩
    have hread := hok hsid
    rcases hs with hs | hs
    · rw [hs] at hraw
      cases hraw
      rw [sidOf_octets] at hread
      exact (Except.ok.inj hread).symm
    · rw [hs] at hraw
      cases hraw
      rw [sidOf_text] at hread
      exact (Except.ok.inj hread).symm

/-! ## The directory -/

/-- an entry of the directory: the octets of its attributes, and how the library hands it over -/
structure Entry where
  values : Chars → List Octets
  found : Found

/-- the server answers a filter text with the entries that the filter matches -/
def Serves (l : Server) (rules : Ldap.Rules) (entries : List Entry) : Prop :=
  ∀ text f, Ldap.parse text = some f → l.search text = .ok ((entries.filter fun e => f.holds rules e.values).map Entry.found)

/-- the entry is a user with this principal name -/
def isUser (rules : Ldap.Rules) (upn : String) (e : Entry) : Bool :=
  ((e.values "objectClass".toList).any fun v => rules.equality "objectClass".toList v (Ldap.utf8 "user".toList)) &&
    (e.values "userPrincipalName".toList).any fun v => rules.equality "userPrincipalName".toList v (Ldap.utf8 upn.toList)

section Directory

variable {l : Server} {rules : Ldap.Rules} {entries : List Entry} {upn : String} {a : Account}

theorem userFilter_holds (e : Entry) : (userFilter upn).holds rules e.values = isUser rules upn e := by
  unfold userFilter isUser
  rw [Ldap.holds_and]
  simp [Ldap.Filter.holds]

theorem search_answers (h : Serves l rules entries) :
    l.search (filterText upn) = .ok ((entries.filter (isUser rules upn)).map Entry.found) := by
  rw [h _ _ (parse_filterText upn)]
  congr 2
  exact List.filter_congr fun e _ => userFilter_holds e

theorem accountFrom_ok {found : List Found} : accountFrom upn found = .ok a ↔ ∃ e, found = [e] ∧ accountOf upn e = .ok a := by
  unfold accountFrom
  split
  · simp
  · next hmany =>
    constructor
    · intro h
      cases h
    · rintro ⟨e, rfl, -⟩
      exact absurd rfl (hmany e)

/-- an account is found iff exactly one user has the UPN, and it is read of that user's entry -/
theorem resolveUpn_ok (h : Serves l rules entries) (upn : String) (a : Account) : resolveUpn l upn = .ok a ↔
    (∃ u, l.openConnection = .ok u) ∧ ∃ e, entries.filter (isUser rules upn) = [e] ∧ accountOf upn e.found = .ok a := by
  unfold resolveUpn
  cases l.openConnection with
  | error exc =>
    constructor
    · intro hok
      cases hok
    · rintro ⟨⟨u, hu⟩, -⟩
      cases hu
  | ok u =>
    dsimp only
    rw [search_answers h]
    change accountFrom upn _ = _ ↔ _
    rw [accountFrom_ok]
    constructor
    · rintro ⟨f, hf, hread⟩
      obtain ⟨e, he, rfl⟩ := List.map_eq_singleton_iff.1 hf
      exact ⟨⟨u, rfl⟩, e, he, hread⟩
    · rintro ⟨-, e, he, hread⟩
      exact ⟨e.found, by rw [he]; rfl, hread⟩

/-- what an entry says of its account -/
structure Reads (e : Found) (s : Sid) (uac admin : ℤ) : Prop where
  sid : HoldsSid e s
  uac : intOr0 (first (e "userAccountControl")) = .ok uac
  admin : intOr0 (first (e "adminCount")) = .ok admin

theorem accountOf_reads {e : Found} {s : Sid} {uac admin : ℤ} (h : Reads e s uac admin) :
    accountOf upn e = .ok ⟨s.text, !hasFlag uac UF_ACCOUNTDISABLE, admin = 1⟩ := by
  obtain ⟨hsid, huac, hadmin⟩ := h
  unfold accountOf
  rcases hsid with hsid | hsid
  · rw [hsid, huac, hadmin]
    dsimp only
    rw [sidOf_octets]
    rfl
  · rw [hsid, huac, hadmin]
    dsimp only
    rw [sidOf_text]
    rfl

/-- **The resolver finds an account iff exactly one user has the UPN**, whatever characters the UPN has, and it has that user's
SID, in text, and flags. -/
theorem resolves_exactly (h : Serves l rules entries) (hreads : ∀ e ∈ entries, ∃ s uac admin, Reads e.found s uac admin)
    (upn : String) (a : Account) : resolveUpn l upn = .ok a ↔ (∃ u, l.openConnection = .ok u) ∧
      ∃ e s uac admin, entries.filter (isUser rules upn) = [e] ∧ Reads e.found s uac admin ∧
        a = ⟨s.text, !hasFlag uac UF_ACCOUNTDISABLE, admin = 1⟩ := by
  rw [resolveUpn_ok h]
  refine and_congr_right fun _ => ?_
  constructor
  · rintro ⟨e, he, hread⟩
    have hmem : e ∈ entries := (List.mem_filter.1 (he ▸ List.mem_singleton_self e)).1
    obtain ⟨s, uac, admin, hs⟩ := hreads e hmem
    rw [accountOf_reads hs] at hread
    exact ⟨e, s, uac, admin, he, hs, (Except.ok.inj hread).symm⟩
  · rintro ⟨e, s, uac, admin, he, hs, rfl⟩
    exact ⟨e, he, accountOf_reads hs⟩

end Directory

/-! ## Windows logon certificates -/

/-- the directory that requests are decided with is this server -/
def Uses (env : Env) (l : Server) : Prop :=
  ∃ resolve, env.directory = some resolve ∧ ∀ upn a, resolve upn = .ok a → resolveUpn l upn = .ok a

/-- a decision goes on to be signed with what the directory says: of a request, or of an approved one -/
def Decided (env : Env) (decision decision' : Decision) : Prop :=
  logonDecision env decision = some decision' ∨ sidDecision env decision = some decision'

section Logon

variable {env : Env} {l : Server} {decision decision' : Decision}

theorem decided_account (hd : Decided env decision decision') (hupns : decision.upns ≠ []) :
    ∃ a, logonAnswer env decision = .account a ∧ decision'.sid = some a.sid ∧ decision'.upns = decision.upns := by
  have hempty : decision.upns.isEmpty = false := by
    rw [List.isEmpty_eq_false_iff]
    exact hupns
  rcases hd with hd | hd
  · unfold logonDecision at hd
    rw [hempty] at hd
    cases ha : logonAnswer env decision with
    | account a =>
      rw [ha] at hd
      simp only [Bool.false_eq_true, if_false, Option.some.injEq] at hd
      refine ⟨a, rfl, ?_⟩
      rw [← hd]
      split
      · exact ⟨rfl, rfl⟩
      · exact ⟨rfl, rfl⟩
    | unconfigured => simp [ha] at hd
    | refused v => simp [ha] at hd
  · unfold sidDecision at hd
    rw [hempty] at hd
    cases ha : logonAnswer env decision with
    | account a =>
      rw [ha] at hd
      simp only [Bool.false_eq_true, if_false, Option.some.injEq] at hd
      refine ⟨a, rfl, ?_⟩
      rw [← hd]
      exact ⟨rfl, rfl⟩
    | unconfigured => simp [ha] at hd
    | refused v => simp [ha] at hd

theorem logonAnswer_account {a : Account} (h : logonAnswer env decision = .account a) {upn : String} {others : List String}
    (hupns : decision.upns = upn :: others) (huses : Uses env l) : resolveUpn l upn = .ok a ∧ a.enabled = true := by
  obtain ⟨resolve, hdir, hresolve⟩ := huses
  unfold logonAnswer at h
  rw [hdir, hupns] at h
  dsimp only [List.head?_cons, Option.getD_some] at h
  split at h
  · cases h
  · next account haccount =>
    split at h
    · cases h
    · next henabled =>
      cases h
      exact ⟨hresolve upn a haccount, by simpa using henabled⟩

theorem text_ne_empty (s : Sid) : s.text ≠ "" := by
  intro h
  obtain ⟨rest, hrest⟩ := sidText_chars s.revision.toNat s.authority (s.subs.map UInt32.toNat)
  rw [show sidText _ _ _ = s.text from rfl, h] at hrest
  cases hrest

/-- **A Windows logon certificate pins the account its UPN names.** When a local CA signs under a decision with a UPN, at once
or after approval, the directory has exactly one user with that UPN; it is enabled, and its SID is the one in the certificate. -/
theorem logon_certificate_sid {rules : Ldap.Rules} {entries : List Entry} (hserves : Serves l rules entries)
    (huses : Uses env l) {upn : String} {others : List String} (hupns : decision.upns = upn :: others)
    (hd : Decided env decision decision') {d : Db} {csr : Csr} {ca : Option (ℕ × CertificateAuthority)} {caId : ℕ}
    {cert : X509Cert} (hcert : CAService.prepare env d csr decision' ca = .ok (caId, cert)) :
    ∃ e, entries.filter (isUser rules upn) = [e] ∧ (∀ s, HoldsSid e.found s → cert.tbs.sid = some s.text) ∧
      (∃ uac, intOr0 (first (e.found "userAccountControl")) = .ok uac ∧ hasFlag uac UF_ACCOUNTDISABLE = false) ∧
      upn ∈ (cert.tbs.san.map San.strings).getD [] := by
  obtain ⟨a, hanswer, hsid, hsame⟩ := decided_account hd (by simp [hupns])
  obtain ⟨hresolved, henabled⟩ := logonAnswer_account hanswer hupns huses
  obtain ⟨-, e, he, hread⟩ := (resolveUpn_ok hserves upn a).1 hresolved
  obtain ⟨htext, uac, -, huac, -, hflag, -⟩ := accountOf_ok hread
  refine ⟨e, he, fun s hs => ?_, ⟨uac, huac, ?_⟩, ?_⟩
  · obtain ⟨caCert, pub, htbs⟩ := CAService.prepare_tbs hcert
    rw [htbs]
    change decision'.sid.filter (· ≠ "") = _
    rw [hsid, htext s hs]
    simp [text_ne_empty s]
  · rw [henabled] at hflag
    simpa using hflag.symm
  · rw [CAService.prepare_names hcert, hsame, hupns]
    simp

end Logon

/-! ### A small directory -/

section Examples

/-- values are compared as they are -/
def exact : Ldap.Rules := ⟨fun _ stored value => stored = value, fun _ _ _ => false⟩

/-- the SID of a user of a domain -/
def joeSid : Sid := ⟨1, 5, [21, 1, 2, 3, 1104], Nat.le_of_ble_eq_true rfl, Nat.le_of_ble_eq_true rfl⟩

/-- an enabled user, with a raw SID -/
def joe : Entry where
  values attr :=
    if attr = "objectClass".toList then [Ldap.utf8 "top".toList, Ldap.utf8 "user".toList]
    else if attr = "userPrincipalName".toList then [Ldap.utf8 "joe@corp.example".toList]
    else []
  found name :=
    if name = "objectSid" then some (.many [.bytes joeSid.octets])
    else if name = "userAccountControl" then some (.many [.str "512"])
    else none

/-- a server that answers as `Serves` says -/
def smallServer : Server where
  openConnection := .ok ()
  search text :=
    match Ldap.parse text with
    | some f => .ok (([joe].filter fun e => f.holds exact e.values).map Entry.found)
    | none => .error (.other "invalid filter")

theorem smallServer_serves : Serves smallServer exact [joe] := by
  intro text f hf
  simp only [smallServer, hf]

theorem smallServer_reads : ∀ e ∈ [joe], ∃ s uac admin, Reads e.found s uac admin := by
  intro e he
  rw [List.mem_singleton.1 he]
  exact ⟨joeSid, 512, 0, Or.inl rfl, rfl, rfl⟩

theorem joe_found : resolveUpn smallServer "joe@corp.example" = .ok ⟨joeSid.text, true, false⟩ := by
  have hjoe : isUser exact "joe@corp.example" joe = true := by decide
  refine (resolves_exactly smallServer_serves smallServer_reads "joe@corp.example" _).2 ⟨⟨(), rfl⟩, joe, joeSid, 512, 0, ?_, ?_, rfl⟩
  · exact List.filter_eq_self.2 fun e he => List.mem_singleton.1 he ▸ hjoe
  · exact ⟨Or.inl rfl, rfl, rfl⟩

def smallEnv : Env :=
  { demoEnv with directory := some fun upn => (resolveUpn smallServer upn).mapError fun _ => "directory" }

def joeDecision : Decision :=
  ⟨"logon", 86400, [], [], [], some "joe@corp.example", false, ["joe@corp.example"], none, none, none⟩

theorem joe_resolves : resolveUpn smallServer "joe@corp.example" = .ok ⟨joeSid.text, true, false⟩ := by
  rw [resolveUpn_ok smallServer_serves]
  have hjoe : isUser exact "joe@corp.example" joe = true := by decide
  exact ⟨⟨(), rfl⟩, joe, List.filter_eq_self.2 fun e he => List.mem_singleton.1 he ▸ hjoe, rfl⟩

theorem smallEnv_uses : Uses smallEnv smallServer := by
  refine ⟨_, rfl, fun upn a h => ?_⟩
  cases hr : resolveUpn smallServer upn with
  | error e =>
    rw [hr] at h
    cases h
  | ok b =>
    rw [hr] at h
    cases h
    rfl

theorem joe_decided : Decided smallEnv joeDecision { joeDecision with sid := some joeSid.text } := by
  left
  have hanswer : logonAnswer smallEnv joeDecision = .account ⟨joeSid.text, true, false⟩ := by
    unfold logonAnswer
    simp [smallEnv, joeDecision, joe_resolves, Except.mapError]
  unfold logonDecision
  rw [hanswer]
  rfl

/-- a database with an issuing CA -/
def smallDb : Db :=
  { Db.empty with
    cas := Table.empty.insert ⟨"issuing", none, "ca-pem", "file:ca", "file", false, 0, none, none, none, none, none, none,
      none, none, none, none⟩ }

/-- joe's certificate has joe's SID -/
theorem joe_certificate : ∃ caId cert, CAService.prepare smallEnv smallDb ⟨.ok (demoKey "logon-key"), some true, [], none⟩
      { joeDecision with sid := some joeSid.text } none = .ok (caId, cert) ∧
    ∃ e, [joe].filter (isUser exact "joe@corp.example") = [e] ∧ (∀ s, HoldsSid e.found s → cert.tbs.sid = some s.text) ∧
      (∃ uac, intOr0 (first (e.found "userAccountControl")) = .ok uac ∧ hasFlag uac UF_ACCOUNTDISABLE = false) ∧
      "joe@corp.example" ∈ (cert.tbs.san.map San.strings).getD [] :=
  ⟨_, _, rfl, logon_certificate_sid smallServer_serves smallEnv_uses rfl joe_decided
    (show CAService.prepare smallEnv smallDb ⟨.ok (demoKey "logon-key"), some true, [], none⟩
      { joeDecision with sid := some joeSid.text } none = .ok (_, _) from rfl)⟩

end Examples

end Certadillo.Directory
