/-
Shipped audit records: `to_record` and `verify_records` of `audit/shipping.py`.

A record is a JSON object. The library calls are parameters: `fromisoformat`, `base64.b64decode`, the public key's `verify`,
and the equality of a float with another number. The platform ships the rows of its trail as it reads them, under one
`instance`.

- `toRecord_passes`: a record shipped passes every check.
- `verified_run`: if a list of records is reported valid with the public key, the records without repetitions are records of
  consecutive events of the trail.
- `verified_signed_iff`: all of its records then have the content signed iff each repetition has the signed fields of the
  record it repeats. A repetition is skipped unchecked: `edited_accepted`.

Premise: a signature that verifies is of a record of the trail.
-/
import Certadillo.Audit.Anchors

namespace Certadillo.Audit

open JsonText Datetime

abbrev Bytes := List UInt8

/-- the library calls of `verify_records`, and the checks it is asked for -/
structure Verifier where
  sha256 : Text → String
  hmac : Option (Text → String)
  checkMac : Bool
  publicKey : Option (Bytes → Text → Bool)
  b64decode : Value → Except Err Bytes
  fromisoformat : Value → Except Err DateTime
  floatEq : JsonText.Float → Value → Bool

/-! ## Records -/

/-- `_canonical` -/
def canonicalRecord (rec : Object) : Except Err Text := do
  let body ← rec.pick recordKeys
  pure (dumps (.obj body))

/-- the signed fields of a record -/
def recordBody (site : String) (ev : Event) : Object :=
  [("id", .int ev.id), ("ts", .str (String.ofList (asUtc ev.ts).isoformat)), ("actor", .str ev.actor),
    ("action", .str ev.action), ("target", .str ev.target), ("details", ev.details), ("prev_hash", .str ev.prevHash),
    ("hash", .str ev.hash), ("instance", .str site)]

/-- a signing key: its id, and a signature in base64 -/
structure Signer where
  kid : String
  sign : Text → String

/-- `to_record` -/
def toRecord (hmac : Option (Text → String)) (key : Option Signer) (site : String) (ev : Event) : Except Err Object := do
  let record := recordBody site ev
  let body ← canonicalRecord record
  pure (record ++ [("mac", macHex hmac body)] ++ match key with
    | none => []
    | some k => [("kid", .str k.kid), ("sig", .str (k.sign body))])

/-! ## Verification -/

/-- a bool as the number it is -/
def number : Value → Option ℤ
  | .bool b => some (if b then 1 else 0)
  | .int n => some n
  | _ => none

/-- `a == b` for values that hash -/
def pyEq (floatEq : JsonText.Float → Value → Bool) (a b : Value) : Bool :=
  match a, b with
  | .null, .null => true
  | .str s, .str t => s = t
  | .float f, .float g => floatEq f (.float g)
  | .float f, .bool c => floatEq f (.bool c)
  | .float f, .int n => floatEq f (.int n)
  | .bool c, .float f => floatEq f (.bool c)
  | .int n, .float f => floatEq f (.int n)
  | a, b => (number a).isSome && number a = number b

/-- `v in seen`, for a set -/
def isSeen (floatEq : JsonText.Float → Value → Bool) (seen : List Value) (v : Value) : Except Err Bool :=
  match v with
  | .arr _ => .error (.type "unhashable type: 'list'")
  | .obj _ => .error (.type "unhashable type: 'dict'")
  | v => .ok (seen.any (pyEq floatEq v))

/-- `_sig_ok` -/
def sigOk (p : Verifier) (verify : Bytes → Text → Bool) (rec : Object) : Except Err Bool :=
  let sig := rec.get "sig"
  match p.b64decode (if truthy sig then sig else .str "") with
  | .error (.value _) => .ok false
  | .error e => .error e
  | .ok signature => do
    let text ← canonicalRecord rec
    pure (verify signature text)

/-- the previous hash `_digest` appends to -/
def concatStr : Value → Except Err String
  | .str s => .ok s
  | _ => .error (.type "unsupported operand type(s) for +")

/-- `hmac.compare_digest` of a text in ASCII with a value -/
def compareDigest (s : String) : Value → Except Err Bool
  | .str t => if t.toList.all (fun c => c.toNat < 128) then .ok (s = t)
      else .error (.type "comparing strings with non-ASCII characters is not supported")
  | _ => .error (.type "unsupported operand types(s) or combination of types")

/-- an entry of `problems` -/
structure Problem where
  id : Value
  problem : String

/-- the check of the hash -/
def hashProblems (p : Verifier) (rec : Object) : Except Err (List Problem) := do
  let ts ← p.fromisoformat (← rec.field "ts")
  let prevHash ← rec.field "prev_hash"
  let actor ← rec.field "actor"
  let action ← rec.field "action"
  let target ← rec.field "target"
  let details ← rec.field "details"
  let prevHash ← concatStr prevHash
  let hash ← rec.field "hash"
  pure (if isStr hash (digest p.sha256 prevHash ts actor action target details) then []
    else [⟨rec.get "id", "record was changed (hash does not recompute)"⟩])

/-- the check of the link -/
def linkProblems (prev : Value) (rec : Object) : Except Err (List Problem) :=
  match prev with
  | .null => .ok []
  | prev => do
    let prevHash ← concatStr (← rec.field "prev_hash")
    pure (if isStr prev prevHash then [] else [⟨rec.get "id", "gap or reordering: prev_hash does not match"⟩])

/-- the check of the MAC -/
def macProblems (p : Verifier) (rec : Object) : Except Err (List Problem) :=
  match p.hmac with
  | none => .ok []
  | some f =>
    if !p.checkMac then .ok []
    else if !truthy (rec.get "mac") then .ok [⟨rec.get "id", "MAC does not verify (not from this Certadillo)"⟩]
    else do
      let text ← canonicalRecord rec
      let same ← compareDigest (f text) (rec.get "mac")
      pure (if same then [] else [⟨rec.get "id", "MAC does not verify (not from this Certadillo)"⟩])

/-- the check of the signature -/
def sigProblems (p : Verifier) (rec : Object) : Except Err (List Problem) :=
  match p.publicKey with
  | none => .ok []
  | some verify => do
    let ok ← sigOk p verify rec
    pure (if ok then [] else [⟨rec.get "id", "signature does not verify (not from this Certadillo)"⟩])

/-- the body of the loop of `verify_records`, for a record not seen before -/
def checkRecord (p : Verifier) (prev : Value) (rec : Object) : Except Err (List Problem) := do
  let hash ← hashProblems p rec
  let link ← linkProblems prev rec
  let mac ← macProblems p rec
  let sig ← sigProblems p rec
  pure (hash ++ link ++ mac ++ sig)

/-- the loop of `verify_records`: how many records were checked, and the problems found -/
def verifyLoop (p : Verifier) (seen : List Value) (prev : Value) : List Object → Except Err (ℕ × List Problem)
  | [] => .ok (0, [])
  | rec :: recs => do
    if ← isSeen p.floatEq seen (rec.get "hash") then verifyLoop p seen prev recs
    else do
      let hash ← rec.field "hash"
      let found ← checkRecord p prev rec
      let (n, problems) ← verifyLoop p (hash :: seen) hash recs
      pure (n + 1, found ++ problems)

/-- what `verify_records` returns -/
structure RecordsReport where
  valid : Bool
  records : ℕ
  problems : List Problem
  firstId : Option Value
  lastId : Option Value
  fromGenesis : Bool
  signaturesChecked : Bool
  macsChecked : Bool

/-- `rec[key]` of a record at an end of the list, None without records -/
def endField (rec : Option Object) (key : String) : Except Err (Option Value) :=
  match rec with
  | none => .ok none
  | some r => (r.field key).map some

/-- `verify_records` -/
def verifyRecords (p : Verifier) (records : List Object) : Except Err RecordsReport := do
  let (n, problems) ← verifyLoop p [] .null records
  let prevHash ← endField records.head? "prev_hash"
  let firstId ← endField records.head? "id"
  let lastId ← endField records.getLast? "id"
  pure {
    valid := problems.isEmpty
    records := n
    problems := problems.take 50
    firstId := firstId
    lastId := lastId
    fromGenesis := isStr (prevHash.getD .null) GENESIS
    signaturesChecked := p.publicKey.isSome
    macsChecked := p.checkMac && p.hmac.isSome }

/-! ## What a record that passes says -/

/-- the records checked: those whose hash was not seen before -/
def firsts (floatEq : JsonText.Float → Value → Bool) (seen : List Value) : List Object → List Object
  | [] => []
  | rec :: recs =>
    if seen.any (pyEq floatEq (rec.get "hash")) then firsts floatEq seen recs
    else rec :: firsts floatEq (rec.get "hash" :: seen) recs

/-- the same fields under the keys of the signed text, up to the order of keys inside them -/
def SameSigned (rec rec' : Object) : Prop :=
  ∀ k ∈ recordKeys, (rec.lookup k).map canon = (rec'.lookup k).map canon

/-- a record that passes with a public key -/
structure Passed (p : Verifier) (verify : Bytes → Text → Bool) (before : Value) (rec : Object) (prevHash hash : String) :
    Prop where
  prevOk : rec.lookup "prev_hash" = some (.str prevHash)
  hashOk : rec.lookup "hash" = some (.str hash)
  linkOk : before = .null ∨ before = .str prevHash
  textOk : ∃ text, canonicalRecord rec = .ok text
  signed : sigOk p verify rec = .ok true

theorem hashProblems_nil {p : Verifier} {rec : Object} (h : hashProblems p rec = .ok []) :
    ∃ prevHash hash, rec.lookup "prev_hash" = some (.str prevHash) ∧ rec.lookup "hash" = some (.str hash) := by
  obtain ⟨_, -, h⟩ := except_bind_ok.1 h
  obtain ⟨_, -, h⟩ := except_bind_ok.1 h
  obtain ⟨prev, hprev, h⟩ := except_bind_ok.1 h
  obtain ⟨_, -, h⟩ := except_bind_ok.1 h
  obtain ⟨_, -, h⟩ := except_bind_ok.1 h
  obtain ⟨_, -, h⟩ := except_bind_ok.1 h
  obtain ⟨_, -, h⟩ := except_bind_ok.1 h
  obtain ⟨prevHash, hconcat, h⟩ := except_bind_ok.1 h
  obtain ⟨hash, hhash, h⟩ := except_bind_ok.1 h
  split at h
  · next hstr =>
    have hprevStr : prev = .str prevHash := by
      cases prev with
      | str s => exact congrArg _ (Except.ok.inj hconcat)
      | _ => cases hconcat
    exact ⟨prevHash, _, by rw [field_ok.1 hprev, hprevStr], by rw [field_ok.1 hhash, isStr_iff.1 hstr]⟩
  · cases h

theorem linkProblems_nil {before : Value} {rec : Object} {prevHash : String}
    (hprev : rec.lookup "prev_hash" = some (.str prevHash)) (h : linkProblems before rec = .ok []) :
    before = .null ∨ before = .str prevHash := by
  unfold linkProblems at h
  split at h
  · exact Or.inl rfl
  · rw [field_ok.2 hprev, except_ok_bind] at h
    obtain ⟨s, hs, h⟩ := except_bind_ok.1 h
    cases hs
    split at h
    · next hstr => exact Or.inr (isStr_iff.1 hstr)
    · cases h

theorem sigOk_text {p : Verifier} {verify : Bytes → Text → Bool} {rec : Object} (h : sigOk p verify rec = .ok true) :
    ∃ text, canonicalRecord rec = .ok text := by
  unfold sigOk at h
  dsimp only at h
  split at h
  · cases h
  · cases h
  · obtain ⟨text, htext, -⟩ := except_bind_ok.1 h
    exact ⟨text, htext⟩

theorem sigProblems_nil {p : Verifier} {verify : Bytes → Text → Bool} {rec : Object} (hkey : p.publicKey = some verify)
    (h : sigProblems p rec = .ok []) : sigOk p verify rec = .ok true := by
  unfold sigProblems at h
  rw [hkey] at h
  obtain ⟨ok, hok, h⟩ := except_bind_ok.1 h
  cases ok with
  | false => cases h
  | true => exact hok

theorem checkRecord_nil {p : Verifier} {verify : Bytes → Text → Bool} {before : Value} {rec : Object}
    (hkey : p.publicKey = some verify) (h : checkRecord p before rec = .ok []) :
    ∃ prevHash hash, Passed p verify before rec prevHash hash := by
  obtain ⟨ps, hhash, h⟩ := except_bind_ok.1 h
  obtain ⟨qs, hlink, h⟩ := except_bind_ok.1 h
  obtain ⟨rs, -, h⟩ := except_bind_ok.1 h
  obtain ⟨ss, hsig, h⟩ := except_bind_ok.1 h
  have hall : ps ++ qs ++ rs ++ ss = [] := Except.ok.inj h
  simp only [List.append_eq_nil_iff] at hall
  obtain ⟨⟨⟨rfl, rfl⟩, -⟩, rfl⟩ := hall
  obtain ⟨prevHash, hash, hprev, hhash'⟩ := hashProblems_nil hhash
  have hsigned := sigProblems_nil hkey hsig
  exact ⟨prevHash, hash, hprev, hhash', linkProblems_nil hprev hlink, sigOk_text hsigned, hsigned⟩

/-- records that pass one after the other -/
def PassedAll (p : Verifier) (verify : Bytes → Text → Bool) : Value → List Object → Prop
  | _, [] => True
  | before, rec :: recs =>
    ∃ prevHash hash, Passed p verify before rec prevHash hash ∧ PassedAll p verify (.str hash) recs

theorem isSeen_ok {floatEq : JsonText.Float → Value → Bool} {seen : List Value} {v : Value} {b : Bool}
    (h : isSeen floatEq seen v = .ok b) : b = seen.any (pyEq floatEq v) := by
  unfold isSeen at h
  split at h
  · cases h
  · cases h
  · exact (Except.ok.inj h).symm

/-- when no problem is found, every record checked passes -/
theorem verifyLoop_nil {p : Verifier} {verify : Bytes → Text → Bool} (hkey : p.publicKey = some verify)
    {seen : List Value} {before : Value} {recs : List Object} {n : ℕ} (h : verifyLoop p seen before recs = .ok (n, [])) :
    PassedAll p verify before (firsts p.floatEq seen recs) := by
  induction recs generalizing seen before n with
  | nil => trivial
  | cons rec recs ih =>
    obtain ⟨b, hseen, h⟩ := except_bind_ok.1 h
    rw [isSeen_ok hseen] at h
    unfold firsts
    split at h
    · next hb =>
      rw [if_pos hb]
      exact ih h
    · next hb =>
      rw [if_neg hb]
      obtain ⟨hash, hhash, h⟩ := except_bind_ok.1 h
      obtain ⟨found, hfound, h⟩ := except_bind_ok.1 h
      obtain ⟨⟨m, problems⟩, hrest, h⟩ := except_bind_ok.1 h
      simp only [except_pure_ok, Prod.mk.injEq, List.append_eq_nil_iff] at h
      obtain ⟨-, rfl, rfl⟩ := h
      obtain ⟨prevHash, s, hpassed⟩ := checkRecord_nil hkey hfound
      have hget : rec.get "hash" = hash := by rw [Object.get, field_ok.1 hhash]; rfl
      have hstr : hash = .str s := Option.some.inj ((field_ok.1 hhash).symm.trans hpassed.hashOk)
      subst hstr
      rw [hget]
      exact ⟨prevHash, s, hpassed, ih hrest⟩

theorem verifyRecords_valid {p : Verifier} {records : List Object}
    (h : ∃ rep, verifyRecords p records = .ok rep ∧ rep.valid = true) :
    ∃ n, verifyLoop p [] .null records = .ok (n, []) := by
  obtain ⟨rep, h, hv⟩ := h
  obtain ⟨⟨n, problems⟩, hloop, h⟩ := except_bind_ok.1 h
  obtain ⟨_, -, h⟩ := except_bind_ok.1 h
  obtain ⟨_, -, h⟩ := except_bind_ok.1 h
  obtain ⟨_, -, h⟩ := except_bind_ok.1 h
  cases h
  obtain rfl : problems = [] := List.isEmpty_iff.1 hv
  exact ⟨n, hloop⟩

/-! ## Records that were shipped -/

/-- what a verifier does with the signatures of a key and with MACs -/
structure Accepts (p : Verifier) (verify : Bytes → Text → Bool) (k : Signer) : Prop where
  key : p.publicKey = some verify
  decode : ∀ text, ∃ sig, p.b64decode (.str (k.sign text)) = .ok sig ∧ verify sig text = true
  nonempty : ∀ text, k.sign text ≠ ""
  mac : ∀ f, p.hmac = some f → ∀ text, f text ≠ "" ∧ (f text).toList.all (fun c => c.toNat < 128) = true

/-- the records of a key pass the checks a verifier is asked for -/
structure Genuine (p : Verifier) (k : Signer) : Prop where
  decode : ∀ verify, p.publicKey = some verify → ∀ text, ∃ sig,
    p.b64decode (.str (k.sign text)) = .ok sig ∧ verify sig text = true
  nonempty : ∀ text, k.sign text ≠ ""
  mac : ∀ f, p.hmac = some f → ∀ text, f text ≠ "" ∧ (f text).toList.all (fun c => c.toNat < 128) = true

theorem Accepts.genuine {p : Verifier} {verify : Bytes → Text → Bool} {k : Signer} (h : Accepts p verify k) :
    Genuine p k where
  decode verify' hkey := by
    obtain rfl : verify = verify' := Option.some.inj (h.key.symm.trans hkey)
    exact h.decode
  nonempty := h.nonempty
  mac := h.mac

/-- the text of a record shipped -/
def recordText (site : String) (ev : Event) : Text := dumps (.obj (recordBody site ev))

/-- a record as it is shipped with a signing key -/
def shipped (hmac : Option (Text → String)) (k : Signer) (site : String) (ev : Event) : Object :=
  recordBody site ev ++ [("mac", macHex hmac (recordText site ev)), ("kid", .str k.kid),
    ("sig", .str (k.sign (recordText site ev)))]

theorem toRecord_shipped (hmac : Option (Text → String)) (k : Signer) (site : String) (ev : Event) :
    toRecord hmac (some k) site ev = .ok (shipped hmac k site ev) := rfl

theorem canonical_shipped (hmac : Option (Text → String)) (k : Signer) (site : String) (ev : Event) :
    canonicalRecord (shipped hmac k site ev) = .ok (recordText site ev) := rfl

theorem asUtc_idem (t : DateTime) : asUtc (asUtc t) = asUtc t := by
  unfold asUtc
  cases htz : t.tz with
  | none => rfl
  | some off =>
    dsimp only
    rw [htz]

/-- **A record shipped passes every check** after the record of the event before it. -/
theorem toRecord_passes {p : Verifier} {k : Signer} (ha : Genuine p k) (site : String) {ev : Event} {before : Value}
    (hiso : p.fromisoformat (.str (String.ofList (asUtc ev.ts).isoformat)) = .ok (asUtc ev.ts))
    (hhash : ev.hash = dig p.sha256 ev.prevHash ev.body) (hlink : before = .null ∨ before = .str ev.prevHash) :
    checkRecord p before (shipped p.hmac k site ev) = .ok [] := by
  have hdigest : ev.hash = digest p.sha256 ev.prevHash (asUtc ev.ts) (.str ev.actor) (.str ev.action) (.str ev.target)
      ev.details := by
    rw [hhash, dig, digest, bodyText, asUtc_idem]
    rfl
  have hhashes : hashProblems p (shipped p.hmac k site ev) = .ok [] := by
    unfold hashProblems
    simp only [Object.field, shipped, recordBody, List.cons_append, List.lookup_cons, except_ok_bind, concatStr, hiso,
      String.reduceBEq]
    rw [isStr_iff.2 (congrArg Value.str hdigest)]
    rfl
  have hlinks : linkProblems before (shipped p.hmac k site ev) = .ok [] := by
    rcases hlink with rfl | rfl
    · rfl
    · unfold linkProblems
      simp only [Object.field, shipped, recordBody, List.cons_append, List.lookup_cons, except_ok_bind, concatStr,
        String.reduceBEq]
      rw [isStr_iff.2 rfl]
      rfl
  have hmacs : macProblems p (shipped p.hmac k site ev) = .ok [] := by
    unfold macProblems
    split
    · rfl
    · next f hf =>
      obtain ⟨hne, hascii⟩ := ha.mac f hf (recordText site ev)
      have hget : (shipped (some f) k site ev).get "mac" = .str (f (recordText site ev)) := rfl
      split
      · rfl
      · rw [hf, hget, canonical_shipped, except_ok_bind]
        simp only [truthy, hne, ne_eq, not_false_eq_true, decide_true, Bool.not_true, Bool.false_eq_true, if_false,
          compareDigest, hascii, if_true, except_ok_bind]
        rfl
  have hsigs : sigProblems p (shipped p.hmac k site ev) = .ok [] := by
    have hget : (shipped p.hmac k site ev).get "sig" = .str (k.sign (recordText site ev)) := rfl
    have hne := ha.nonempty (recordText site ev)
    unfold sigProblems sigOk
    split
    · rfl
    next verify hkey =>
    obtain ⟨sig, hdecode, hverify⟩ := ha.decode verify hkey (recordText site ev)
    simp only [hget, truthy, hne, ne_eq, not_false_eq_true, decide_true, if_true, hdecode, canonical_shipped,
      except_ok_bind, hverify]
    rfl
  unfold checkRecord
  rw [hhashes, hlinks, hmacs, hsigs]
  rfl

/-! ## The records of a trail -/

/-- the platform's trail as its database returns it -/
structure Platform where
  sha256 : Text → String
  calls : List Call
  trail : Trail
  read : ReadBack (history sha256 calls) trail
  site : String

/-- the record has the signed fields of an event -/
def IsRecordOf (site : String) (rec : Object) (ev : Event) : Prop := SameSigned rec (recordBody site ev)

theorem follows_read {sha256 : Text → String} {p : String} {stored read : List Event}
    (h : List.Forall₂ SameRow stored read) (hlinked : HashChain.Linked (dig sha256) p (stored.map Event.link)) :
    HashChain.Follows Event.prevHash Event.hash p read ∧
      read.map Event.hash = (stored.map Event.link).map HashChain.Link.hash := by
  induction h generalizing p with
  | nil => exact ⟨trivial, rfl⟩
  | cons hrow _ ih =>
    obtain ⟨hfollows, hhashes⟩ := ih hlinked.2.2
    refine ⟨⟨hrow.prevHash.trans hlinked.1, ?_⟩, ?_⟩
    · rw [hrow.hash]
      exact hfollows
    · rw [List.map_cons, hhashes, hrow.hash]
      rfl

/-- the trail's rows hold each other's hashes, all different -/
theorem trail_chain (P : Platform) (hs : IdealHash P.sha256) :
    HashChain.Follows Event.prevHash Event.hash GENESIS P.trail.rows ∧ (P.trail.rows.map Event.hash).Nodup ∧
      GENESIS ∉ P.trail.rows.map Event.hash := by
  have hlinked := history_linked P.sha256 P.calls
  obtain ⟨hfollows, hhashes⟩ := follows_read P.read hlinked
  rw [hhashes]
  exact ⟨hfollows, HashChain.hashes_nodup hs.sound hlinked⟩

theorem SameSigned.symm {rec rec' : Object} (h : SameSigned rec rec') : SameSigned rec' rec :=
  fun k hk => (h k hk).symm

theorem SameSigned.trans {rec rec' rec'' : Object} (h : SameSigned rec rec') (h' : SameSigned rec' rec'') :
    SameSigned rec rec'' :=
  fun k hk => (h k hk).trans (h' k hk)

/-- records of one text have the same signed fields -/
theorem sameSigned_of_text {rec rec' : Object} {text : Text} (h : canonicalRecord rec = .ok text)
    (h' : canonicalRecord rec' = .ok text) : SameSigned rec rec' := by
  obtain ⟨body, hbody, h⟩ := except_bind_ok.1 h
  obtain ⟨body', hbody', h'⟩ := except_bind_ok.1 h'
  have htext : dumps (.obj body) = dumps (.obj body') := (Except.ok.inj h).trans (Except.ok.inj h').symm
  intro k hk
  rw [(pick_ok hbody).2 k hk, (pick_ok hbody').2 k hk]
  exact canon_lookup (dumps_eq_iff.1 htext) k

/-- a text under a signed key is the event's -/
theorem record_str {site : String} {rec : Object} {ev : Event} (h : IsRecordOf site rec ev) {k s : String}
    (hk : k ∈ recordKeys) (hbody : (recordBody site ev).lookup k = some (.str s)) : rec.lookup k = some (.str s) := by
  have hkey := h k hk
  rw [hbody, Option.map_some, Option.map_eq_some_iff] at hkey
  obtain ⟨v, hv, hcanon⟩ := hkey
  rw [hv, plain_canon (w := .str s) trivial hcanon]

theorem forall₂_left {α β : Type} {R : α → β → Prop} {xs : List α} {ys : List β} (h : List.Forall₂ R xs ys) {x : α}
    (hx : x ∈ xs) : ∃ y ∈ ys, R x y := by
  induction h with
  | nil => exact absurd hx List.not_mem_nil
  | cons hxy _ ih =>
    rcases List.mem_cons.1 hx with rfl | hx
    · exact ⟨_, List.mem_cons_self, hxy⟩
    · obtain ⟨y, hy, hR⟩ := ih hx
      exact ⟨y, List.mem_cons_of_mem _ hy, hR⟩

/-- **Records that pass are records of consecutive events.** -/
theorem passed_run (P : Platform) {p : Verifier} {verify : Bytes → Text → Bool} {recs : List Object}
    (hforge : ∀ rec ∈ recs, ∀ text, canonicalRecord rec = .ok text → sigOk p verify rec = .ok true →
      ∃ ev ∈ P.trail.rows, canonicalRecord (recordBody P.site ev) = .ok text)
    {before : Value} (h : PassedAll p verify before recs) :
    ∃ run, List.Forall₂ (IsRecordOf P.site) recs run ∧ (∀ ev ∈ run, ev ∈ P.trail.rows) ∧
      ∃ prev, HashChain.Follows Event.prevHash Event.hash prev run ∧
        (before = .null ∨ before = .str prev ∨ run = []) := by
  induction recs generalizing before with
  | nil => exact ⟨[], List.Forall₂.nil, fun ev hev => absurd hev List.not_mem_nil, "", trivial, Or.inr (Or.inr rfl)⟩
  | cons rec recs ih =>
    obtain ⟨prevHash, hash, hpassed, hrest⟩ := h
    obtain ⟨text, htext⟩ := hpassed.textOk
    obtain ⟨ev, hev, hevText⟩ := hforge rec List.mem_cons_self text htext hpassed.signed
    have hof : IsRecordOf P.site rec ev := sameSigned_of_text htext hevText
    obtain ⟨run, hrun, hmem, prev, hfollows, hlink⟩ := ih (fun r hr => hforge r (List.mem_cons_of_mem _ hr)) hrest
    -- the event's hashes are the record's
    have hevPrev : ev.prevHash = prevHash := by
      have hkey := record_str hof (k := "prev_hash") (by decide) rfl
      rw [hpassed.prevOk] at hkey
      simpa using hkey.symm
    have hevHash : ev.hash = hash := by
      have hkey := record_str hof (k := "hash") (by decide) rfl
      rw [hpassed.hashOk] at hkey
      simpa using hkey.symm
    refine ⟨ev :: run, List.Forall₂.cons hof hrun, List.forall_mem_cons.2 ⟨hev, hmem⟩, prevHash, ⟨hevPrev, ?_⟩, ?_⟩
    · rcases hlink with hlink | hlink | rfl
      · cases hlink
      · cases hlink
        rw [hevHash]
        exact hfollows
      · trivial
    · rcases hpassed.linkOk with hlink | hlink
      · exact Or.inl hlink
      · exact Or.inr (Or.inl hlink)

theorem firsts_subset {floatEq : JsonText.Float → Value → Bool} {seen : List Value} {recs : List Object} {rec : Object}
    (h : rec ∈ firsts floatEq seen recs) : rec ∈ recs := by
  induction recs generalizing seen with
  | nil => exact h
  | cons r recs ih =>
    unfold firsts at h
    split at h
    · exact List.mem_cons_of_mem _ (ih h)
    · rcases List.mem_cons.1 h with rfl | h
      · exact List.mem_cons_self
      · exact List.mem_cons_of_mem _ (ih h)

/-- a record is checked, or one with an equal hash was -/
theorem firsts_cover {floatEq : JsonText.Float → Value → Bool} {seen : List Value} {recs : List Object} {rec : Object}
    (h : rec ∈ recs) : (∃ v ∈ seen, pyEq floatEq (rec.get "hash") v = true) ∨
      ∃ first ∈ firsts floatEq seen recs, rec = first ∨ pyEq floatEq (rec.get "hash") (first.get "hash") = true := by
  induction recs generalizing seen with
  | nil => exact absurd h List.not_mem_nil
  | cons r recs ih =>
    unfold firsts
    split
    · next hseen =>
      rcases List.mem_cons.1 h with rfl | h
      · exact Or.inl (List.any_eq_true.1 hseen)
      · exact ih h
    · rcases List.mem_cons.1 h with rfl | h
      · exact Or.inr ⟨rec, List.mem_cons_self, Or.inl rfl⟩
      · rcases @ih (r.get "hash" :: seen) h with ⟨v, hv, heq⟩ | ⟨first, hfirst, heq⟩
        · rcases List.mem_cons.1 hv with rfl | hv
          · exact Or.inr ⟨r, List.mem_cons_self, Or.inr heq⟩
          · exact Or.inl ⟨v, hv, heq⟩
        · exact Or.inr ⟨first, List.mem_cons_of_mem _ hfirst, heq⟩

theorem pyEq_str {floatEq : JsonText.Float → Value → Bool} {v : Value} {s : String}
    (h : pyEq floatEq v (.str s) = true) : v = .str s := by
  cases v <;> simp_all [pyEq, number]

theorem passedAll_hash {p : Verifier} {verify : Bytes → Text → Bool} {before : Value} {recs : List Object}
    (h : PassedAll p verify before recs) : ∀ rec ∈ recs, ∃ hash, rec.get "hash" = .str hash := by
  induction recs generalizing before with
  | nil => exact fun rec hrec => absurd hrec List.not_mem_nil
  | cons r recs ih =>
    obtain ⟨prevHash, hash, hpassed, hrest⟩ := h
    intro rec hrec
    rcases List.mem_cons.1 hrec with rfl | hrec
    · exact ⟨hash, by rw [Object.get, hpassed.hashOk]; rfl⟩
    · exact ih hrest rec hrec

theorem record_hash {site : String} {rec : Object} {ev : Event} (h : IsRecordOf site rec ev) :
    rec.get "hash" = .str ev.hash := by
  rw [Object.get, record_str h (k := "hash") (by decide) rfl]
  rfl

/-- **What a valid report says.** The records without repetitions are records of consecutive events of the trail; and
every record has the content signed iff each repetition has the signed fields of the record it repeats. -/
theorem verified_records_iff (P : Platform) (hs : IdealHash P.sha256) (p : Verifier) (verify : Bytes → Text → Bool)
    (hkey : p.publicKey = some verify) (records : List Object)
    (hforge : ∀ rec ∈ records, ∀ text, canonicalRecord rec = .ok text → sigOk p verify rec = .ok true →
      ∃ ev ∈ P.trail.rows, canonicalRecord (recordBody P.site ev) = .ok text)
    (h : ∃ rep, verifyRecords p records = .ok rep ∧ rep.valid = true) :
    (∃ run, run <:+: P.trail.rows ∧ List.Forall₂ (IsRecordOf P.site) (firsts p.floatEq [] records) run) ∧
      ((∀ rec ∈ records, ∃ ev ∈ P.trail.rows, IsRecordOf P.site rec ev) ↔
        ∀ rec ∈ records, ∀ first ∈ firsts p.floatEq [] records, first.get "hash" = rec.get "hash" →
          SameSigned rec first) := by
  obtain ⟨n, hloop⟩ := verifyRecords_valid h
  have hpassed := verifyLoop_nil hkey hloop
  obtain ⟨run, hrun, hmem, prev, hfollows, -⟩ :=
    passed_run P (fun rec hrec => hforge rec (firsts_subset hrec)) hpassed
  obtain ⟨hall, hnodup, hfresh⟩ := trail_chain P hs
  have hfirst : ∀ first ∈ firsts p.floatEq [] records, ∃ ev ∈ P.trail.rows, IsRecordOf P.site first ev := by
    intro first hfirst
    obtain ⟨ev, hev, hof⟩ := forall₂_left hrun hfirst
    exact ⟨ev, hmem ev hev, hof⟩
  refine ⟨⟨run, HashChain.follows_infix hall hnodup hfresh hmem hfollows, hrun⟩, ?_, ?_⟩
  · intro hsigned rec hrec first hfirst' hhash
    obtain ⟨ev, hev, hof⟩ := hsigned rec hrec
    obtain ⟨ev', hev', hof'⟩ := hfirst first hfirst'
    rw [record_hash hof, record_hash hof', Value.str.injEq] at hhash
    -- one hash, one event
    obtain rfl := List.inj_on_of_nodup_map hnodup hev' hev hhash
    exact hof.trans hof'.symm
  · intro hsame rec hrec
    rcases @firsts_cover p.floatEq [] records rec hrec with ⟨v, hv, -⟩ | ⟨first, hfirst', heq⟩
    · exact absurd hv List.not_mem_nil
    · obtain ⟨ev, hev, hof⟩ := hfirst first hfirst'
      obtain ⟨hash, hhash⟩ := passedAll_hash hpassed first hfirst'
      have hget : first.get "hash" = rec.get "hash" := by
        rcases heq with rfl | heq
        · rfl
        · rw [hhash] at heq ⊢
          exact (pyEq_str heq).symm
      exact ⟨ev, hev, (hsame rec hrec first hfirst' hget).trans hof⟩

/-- signatures for examples: the hash of the text -/
def hexBytes (s : String) : Bytes := s.toList.map fun c => c.toNat.toUInt8

def hexSigner : Signer := ⟨"0123456789abcdef", hexHash⟩

def hexVerify (sig : Bytes) (text : Text) : Bool := sig = hexBytes (hexHash text)

/-- a verifier that knows the time of `noon` -/
def hexVerifier : Verifier where
  sha256 := hexHash
  hmac := none
  checkMac := true
  publicKey := some hexVerify
  b64decode := fun
    | .str s => .ok (hexBytes s)
    | _ => .error (.type "argument should be a bytes-like object or ASCII string")
  fromisoformat := fun _ => .ok noon
  floatEq := fun _ _ => false

theorem hexVerifier_accepts : Accepts hexVerifier hexVerify hexSigner where
  key := rfl
  decode text := ⟨hexBytes (hexHash text), rfl, by unfold hexVerify; exact decide_eq_true rfl⟩
  nonempty := hexHash_ne_empty
  mac f hf := by cases hf

/-- a platform with one event -/
def startPlatform : Platform := ⟨hexHash, [startCall], startTrail, startTrail_read rfl, "https://pki.example"⟩

theorem hexVerify_text {text text' : Text} (h : hexVerify (hexBytes (hexHash text)) text' = true) : text = text' := by
  have hback : ∀ text, (hexBytes (hexHash text)).map (fun u => Char.ofNat u.toNat) = (hexHash text).toList := by
    intro text
    have hdigit : ∀ c ∈ hexdigits, Char.ofNat c.toNat.toUInt8.toNat = c := List.forall_iff_forall_mem.1 (by decide)
    unfold hexBytes
    rw [List.map_map]
    exact (List.map_congr_left fun c hc => hdigit c (hexHash_ideal.hex text c hc)).trans (List.map_id _)
  have hbytes : hexBytes (hexHash text) = hexBytes (hexHash text') := of_decide_eq_true h
  apply hexHash_ideal.injective
  apply String.toList_injective
  rw [← hback text, ← hback text', hbytes]

/-- a record that passes and a second one under its hash are reported valid -/
theorem repeat_valid {p : Verifier} {r r' : Object} {hash prevHash : String} {id id' : Value}
    (hcheck : checkRecord p .null r = .ok []) (hhash : r.lookup "hash" = some (.str hash))
    (hhash' : r'.lookup "hash" = some (.str hash)) (hprev : r.lookup "prev_hash" = some (.str prevHash))
    (hid : r.lookup "id" = some id) (hid' : r'.lookup "id" = some id') :
    ∃ rep, verifyRecords p [r, r'] = .ok rep ∧ rep.valid = true := by
  have hget : r.get "hash" = .str hash := by rw [Object.get, hhash]; rfl
  have hget' : r'.get "hash" = .str hash := by rw [Object.get, hhash']; rfl
  have hseen : isSeen p.floatEq [.str hash] (.str hash) = .ok true := by simp [isSeen, pyEq]
  have hfirst : isSeen p.floatEq [] (.str hash) = .ok false := rfl
  have hrest : verifyLoop p [.str hash] (.str hash) [r'] = .ok (0, []) := by
    unfold verifyLoop
    rw [hget', hseen, except_ok_bind, if_pos rfl]
    rfl
  have hloop : verifyLoop p [] .null [r, r'] = .ok (1, []) := by
    unfold verifyLoop
    rw [hget, hfirst, except_ok_bind, if_neg Bool.false_ne_true, field_ok.2 hhash, except_ok_bind, hcheck, except_ok_bind,
      hrest]
    rfl
  unfold verifyRecords
  rw [hloop, except_ok_bind]
  simp only [endField, List.head?_cons, List.getLast?_cons_cons, List.getLast?_singleton, field_ok.2 hprev,
    field_ok.2 hid, field_ok.2 hid', Except.map, except_ok_bind]
  exact ⟨_, rfl, rfl⟩

def startEvent : Event := newEvent hexHash Trail.empty startCall

def startRecord : Object := shipped none hexSigner "https://pki.example" startEvent

/-- the record with its details emptied -/
def editedRecord : Object := startRecord.map fun e => if e.1 = "details" then ("details", .obj []) else e

theorem startRecord_passes : checkRecord hexVerifier .null startRecord = .ok [] :=
  toRecord_passes hexVerifier_accepts.genuine "https://pki.example" rfl rfl (Or.inl rfl)

/-- the premise holds of the record and of its edited copy: both carry the signature of the one text signed -/
theorem start_unforged {rec : Object} (hsig : rec.get "sig" = .str (hexHash (recordText "https://pki.example" startEvent)))
    {text : Text} (htext : canonicalRecord rec = .ok text) (h : sigOk hexVerifier hexVerify rec = .ok true) :
    ∃ ev ∈ startPlatform.trail.rows, canonicalRecord (recordBody startPlatform.site ev) = .ok text := by
  refine ⟨startEvent, List.mem_singleton_self _, ?_⟩
  have hne := hexHash_ne_empty (recordText "https://pki.example" startEvent)
  unfold sigOk at h
  simp only [hsig, truthy, hne, ne_eq, not_false_eq_true, decide_true, if_true, hexVerifier, htext, except_ok_bind] at h
  have hsame := hexVerify_text (Except.ok.inj h)
  rw [← hsame]
  rfl

/-- a record delivered twice -/
theorem startRecord_twice :
    (∃ run, run <:+: startTrail.rows ∧ List.Forall₂ (IsRecordOf "https://pki.example")
      (firsts (fun _ _ => false) [] [startRecord, startRecord]) run) ∧
      ((∀ rec ∈ [startRecord, startRecord], ∃ ev ∈ startTrail.rows, IsRecordOf "https://pki.example" rec ev) ↔
        ∀ rec ∈ [startRecord, startRecord], ∀ first ∈ firsts (fun _ _ => false) [] [startRecord, startRecord],
          first.get "hash" = rec.get "hash" → SameSigned rec first) := by
  refine verified_records_iff startPlatform hexHash_ideal hexVerifier hexVerify rfl [startRecord, startRecord] ?_
    (repeat_valid startRecord_passes rfl rfl rfl rfl rfl)
  intro rec hrec text htext hsigned
  simp only [List.mem_cons, List.not_mem_nil, or_false, or_self] at hrec
  subst hrec
  exact start_unforged rfl htext hsigned

/-- an edited copy of a record is accepted with it -/
theorem edited_accepted :
    (∀ rec ∈ [startRecord, editedRecord], ∀ text, canonicalRecord rec = .ok text →
      sigOk hexVerifier hexVerify rec = .ok true →
      ∃ ev ∈ startTrail.rows, canonicalRecord (recordBody "https://pki.example" ev) = .ok text) ∧
    (∃ rep, verifyRecords hexVerifier [startRecord, editedRecord] = .ok rep ∧ rep.valid = true) ∧
    ¬ ∀ rec ∈ [startRecord, editedRecord], ∃ ev ∈ startTrail.rows, IsRecordOf "https://pki.example" rec ev := by
  refine ⟨?_, repeat_valid startRecord_passes rfl rfl rfl rfl rfl, ?_⟩
  · intro rec hrec text htext hsigned
    simp only [List.mem_cons, List.not_mem_nil, or_false] at hrec
    rcases hrec with rfl | rfl
    · exact start_unforged rfl htext hsigned
    · exact start_unforged rfl htext hsigned
  · intro h
    obtain ⟨ev, hev, hof⟩ := h editedRecord (by simp)
    obtain rfl : ev = startEvent := List.mem_singleton.1 hev
    have hdetails := hof "details" (by decide)
    have hedited : editedRecord.lookup "details" = some (.obj []) := rfl
    have hsigned : (recordBody "https://pki.example" startEvent).lookup "details" = some (.obj [("1", .bool true)]) := rfl
    rw [hedited, hsigned] at hdetails
    simp [canon, canonFields, sortKeys] at hdetails

end Certadillo.Audit
