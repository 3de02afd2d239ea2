/-
The audit trail with its hashes: `audit/log.py`, the part on the chain.

`sha256` is a parameter: the hexadecimal digest of a text in UTF-8. Times are to the microsecond, details are any JSON. A
trail is the rows of the table in the order of their ids. `ReadBack` is what a database may return: the same rows, times naive or under
any offset, the keys of details in any order.

- `history_linked`: after any calls of `record` the rows are a chain from `GENESIS`.
- `verifyChain_valid_iff`: `verify_chain` reports a chain valid iff it is one.
- `read_back_valid_iff`: the rows read back are reported valid iff every time read is naive or has offset zero.
- `IdealHash`: an injective hash of hexadecimal digits that never yields `GENESIS`; `sound`: chains under it determine
  their rows (`same_content`).
-/
import Certadillo.Lib.HashChain
import Certadillo.Lib.JsonText
import Certadillo.Lib.Datetime

namespace Certadillo.Audit

open JsonText Datetime

/-! ## Details -/

/-- what a Python dict in `details` may have as a key -/
inductive PyKey where
  | str (s : String)
  | int (n : ℤ)
  | float (f : JsonText.Float)
  | bool (b : Bool)
  | none

/-- what `details` may hold; `other` is an object `json` writes by `str` -/
inductive PyVal where
  | none
  | bool (b : Bool)
  | int (n : ℤ)
  | float (f : JsonText.Float)
  | str (s : String)
  | list (xs : List PyVal)
  | dict (kvs : List (PyKey × PyVal))
  | other (str : String)

/-- a key as `json.dumps` writes it -/
def PyKey.text : PyKey → String
  | .str s => s
  | .int n => String.ofList (intText n)
  | .float f => String.ofList f.text
  | .bool true => "true"
  | .bool false => "false"
  | .none => "null"

/-- one entry of a dict: a key keeps its place and takes the last value -/
def setKey (kvs : List (String × Value)) (k : String) (v : Value) : List (String × Value) :=
  if k ∈ kvs.map Prod.fst then kvs.map fun p => if p.1 = k then (k, v) else p else kvs ++ [(k, v)]

mutual

/-- `json.loads(json.dumps(details, default=str))` -/
def normalize : PyVal → Value
  | .none => .null
  | .bool b => .bool b
  | .int n => .int n
  | .float f => .float f
  | .str s => .str s
  | .list xs => .arr (normalizeList xs)
  | .dict kvs => .obj (normalizeDict [] kvs)
  | .other s => .str s

def normalizeList : List PyVal → List Value
  | [] => []
  | x :: xs => normalize x :: normalizeList xs

def normalizeDict (acc : List (String × Value)) : List (PyKey × PyVal) → List (String × Value)
  | [] => acc
  | (k, v) :: kvs => normalizeDict (setKey acc k.text (normalize v)) kvs

end

/-! ## The chain -/

/-- `db.as_utc`: only a naive datetime is changed -/
def asUtc (t : DateTime) : DateTime :=
  match t.tz with
  | some _ => t
  | none => { t with tz := some Offset.utc }

@[irreducible] def GENESIS : String := String.ofList (List.replicate 64 '0')

theorem genesis_toList : GENESIS.toList = List.replicate 64 '0' := by
  unfold GENESIS
  exact String.toList_ofList

/-- a row of `audit_events` -/
structure Event where
  id : ℤ
  ts : DateTime
  actor : String
  action : String
  target : String
  details : Value
  prevHash : String
  hash : String

/-- the rows of the table, ordered by id -/
structure Trail where
  rows : List Event
  sorted : (rows.map Event.id).Pairwise (· < ·)

def Trail.empty : Trail := ⟨[], List.Pairwise.nil⟩

/-- the JSON text of `_digest` -/
def bodyText (ts : DateTime) (actor action target details : Value) : Text :=
  dumps (.obj [("ts", .str (String.ofList (asUtc ts).isoformat)), ("actor", actor), ("action", action),
    ("target", target), ("details", details)])

/-- `_digest` -/
def digest (sha256 : Text → String) (prev : String) (ts : DateTime) (actor action target details : Value) : String :=
  sha256 (prev.toList ++ bodyText ts actor action target details)

/-- a call of `record`: the ids drawn before it by transactions that rolled back, the clock, and its arguments -/
structure Call where
  gap : ℕ
  now : DateTime
  utc : now.tz = some Offset.utc
  actor : String
  action : String
  target : String
  details : Option (List (PyKey × PyVal))

/-- the hash `record` chains to -/
def Trail.lastHash (t : Trail) : String := (t.rows.getLast?.map Event.hash).getD GENESIS

/-- the id of a new row -/
def Trail.newId (t : Trail) (gap : ℕ) : ℤ := (t.rows.getLast?.map Event.id).getD 0 + 1 + gap

/-- the row `record` adds -/
def newEvent (sha256 : Text → String) (t : Trail) (c : Call) : Event :=
  let details := normalize (.dict (c.details.getD []))
  { id := t.newId c.gap
    ts := c.now
    actor := c.actor
    action := c.action
    target := c.target
    details := details
    prevHash := t.lastHash
    hash := digest sha256 t.lastHash c.now (.str c.actor) (.str c.action) (.str c.target) details }

theorem Trail.newId_gt (t : Trail) (gap : ℕ) : ∀ i ∈ t.rows.map Event.id, i < t.newId gap := by
  obtain ⟨rows, hsorted⟩ := t
  induction rows using List.reverseRecOn with
  | nil => exact fun i hi => absurd hi List.not_mem_nil
  | append_singleton rows e _ =>
    intro i hi
    have hid : (Trail.mk (rows ++ [e]) hsorted).newId gap = e.id + 1 + gap := by simp [Trail.newId]
    rw [hid]
    rw [List.map_append, List.map_singleton, List.pairwise_append] at hsorted
    rw [List.map_append, List.map_singleton, List.mem_append, List.mem_singleton] at hi
    rcases hi with hi | rfl
    · have hlt := hsorted.2.2 i hi e.id (List.mem_singleton_self _)
      omega
    · omega

/-- `record` -/
def record (sha256 : Text → String) (t : Trail) (c : Call) : Trail where
  rows := t.rows ++ [newEvent sha256 t c]
  sorted := by
    rw [List.map_append, List.map_singleton, List.pairwise_append]
    refine ⟨t.sorted, List.pairwise_singleton _ _, ?_⟩
    intro i hi j hj
    rw [List.mem_singleton] at hj
    subst hj
    exact t.newId_gt c.gap i hi

/-- the rows after some calls of `record` -/
def history (sha256 : Text → String) (calls : List Call) : Trail := calls.foldl (record sha256) Trail.empty

/-- what `verify_chain` returns -/
inductive ChainReport where
  | valid (events : ℕ) (head : String) (headId : Option ℤ)
  | broken (events : ℕ) (brokenAt : ℤ)
deriving DecidableEq, Repr

def ChainReport.isValid : ChainReport → Bool
  | .valid _ _ _ => true
  | .broken _ _ => false

/-- the loop of `verify_chain` -/
def verifyFrom (sha256 : Text → String) (prev : String) (n : ℕ) (lastId : Option ℤ) : List Event → ChainReport
  | [] => .valid n prev lastId
  | ev :: evs =>
    if ev.prevHash ≠ prev ∨
        ev.hash ≠ digest sha256 prev ev.ts (.str ev.actor) (.str ev.action) (.str ev.target) ev.details then
      .broken (n + 1) ev.id
    else verifyFrom sha256 ev.hash (n + 1) (some ev.id) evs

/-- `verify_chain` -/
def verifyChain (sha256 : Text → String) (t : Trail) : ChainReport := verifyFrom sha256 GENESIS 0 none t.rows

/-! ## Content -/

/-- the texts `_digest` appends to a hash -/
abbrev Body := { t : Text // ∃ u, t = '{' :: u }

theorem print_obj_brace (kvs : List (String × Value)) : ∃ u, print (.obj kvs) = '{' :: u := by
  cases kvs with
  | nil => exact ⟨_, rfl⟩
  | cons p kvs =>
    obtain ⟨k, v⟩ := p
    exact ⟨_, rfl⟩

theorem dumps_obj_brace (kvs : List (String × Value)) : ∃ u, dumps (.obj kvs) = '{' :: u := by
  unfold dumps canon
  exact print_obj_brace _

def Event.body (e : Event) : Body :=
  ⟨bodyText e.ts (.str e.actor) (.str e.action) (.str e.target) e.details, dumps_obj_brace _⟩

def Event.link (e : Event) : HashChain.Link String Body := ⟨e.prevHash, e.hash, e.body⟩

/-- the hash of a link -/
def dig (sha256 : Text → String) (p : String) (b : Body) : String := sha256 (p.toList ++ b.val)

/-- the same time, actor, action and target, and the same details up to the order of keys -/
structure SameContent (e e' : Event) : Prop where
  ts : asUtc e.ts = asUtc e'.ts
  actor : e.actor = e'.actor
  action : e.action = e'.action
  target : e.target = e'.target
  details : canon e.details = canon e'.details

/-- objects with the same entries up to the order of keys have one text -/
theorem dumps_congr {kvs kvs' : List (String × Value)} (h : canonFields kvs = canonFields kvs') :
    dumps (.obj kvs) = dumps (.obj kvs') := by
  rw [dumps_eq_iff, canon, canon, h]

/-- **The text that is hashed determines the content.** -/
theorem body_eq_iff {e e' : Event} : e.body = e'.body ↔ SameContent e e' := by
  constructor
  · intro h
    have htext : dumps _ = dumps _ := Subtype.ext_iff.1 h
    rw [dumps_eq_iff] at htext
    have hts := canon_lookup htext "ts"
    have hactor := canon_lookup htext "actor"
    have haction := canon_lookup htext "action"
    have htarget := canon_lookup htext "target"
    have hdetails := canon_lookup htext "details"
    simp [List.lookup_cons, canon] at hts hactor haction htarget hdetails
    exact ⟨isoformat_inj (String.ofList_injective hts), hactor, haction, htarget, hdetails⟩
  · rintro ⟨hts, hactor, haction, htarget, hdetails⟩
    apply Subtype.ext
    apply dumps_congr
    simp only [canonFields, canon, hts, hactor, haction, htarget, hdetails]

/-! ## Chains -/

/-- **A chain is reported valid iff it is one.** -/
theorem verifyFrom_linked {sha256 : Text → String} {p : String} {n : ℕ} {lastId : Option ℤ} {rows : List Event} :
    (verifyFrom sha256 p n lastId rows).isValid = true ↔ HashChain.Linked (dig sha256) p (rows.map Event.link) := by
  induction rows generalizing p n lastId with
  | nil => simp [verifyFrom, ChainReport.isValid, HashChain.Linked]
  | cons e rows ih =>
    simp only [verifyFrom, List.map_cons, HashChain.Linked]
    split
    · next hbad =>
      simp only [ChainReport.isValid, Bool.false_eq_true, false_iff]
      rintro ⟨hprev, hhash, -⟩
      rcases hbad with hbad | hbad
      · exact hbad hprev
      · exact hbad hhash
    · next hgood =>
      push Not at hgood
      rw [ih]
      constructor
      · exact fun h => ⟨hgood.1, hgood.2, h⟩
      · exact fun h => h.2.2

theorem verifyChain_valid_iff {sha256 : Text → String} {t : Trail} :
    (verifyChain sha256 t).isValid = true ↔ HashChain.Linked (dig sha256) GENESIS (t.rows.map Event.link) :=
  verifyFrom_linked

/-- what a valid report says of the head -/
theorem verifyFrom_valid {sha256 : Text → String} {p head : String} {n m : ℕ} {lastId headId : Option ℤ}
    {rows : List Event} (h : verifyFrom sha256 p n lastId rows = .valid m head headId) :
    m = n + rows.length ∧ head = HashChain.head p (rows.map Event.link) ∧
      headId = (rows.getLast?.map Event.id).or lastId := by
  induction rows generalizing p n lastId with
  | nil =>
    simp only [verifyFrom, ChainReport.valid.injEq] at h
    obtain ⟨rfl, rfl, rfl⟩ := h
    exact ⟨rfl, rfl, rfl⟩
  | cons e rows ih =>
    simp only [verifyFrom] at h
    split at h
    · cases h
    · obtain ⟨hm, hhead, hid⟩ := ih h
      refine ⟨by rw [List.length_cons]; omega, hhead, ?_⟩
      rw [hid]
      cases rows with
      | nil => rfl
      | cons e' rows => rw [List.getLast?_cons_cons, List.getLast?_cons]; rfl

/-- the hash a chain of rows ends with -/
theorem head_rows (g : String) (rows : List Event) :
    HashChain.head g (rows.map Event.link) = (rows.getLast?.map Event.hash).getD g := by
  rcases List.eq_nil_or_concat rows with hnil | ⟨rows, e, hrows⟩
  · rw [hnil]
    rfl
  · rw [hrows, List.concat_eq_append, List.getLast?_concat, List.map_append, List.map_singleton, HashChain.head_snoc]
    rfl

/-- one call continues the chain -/
theorem record_linked {sha256 : Text → String} {t : Trail} (c : Call)
    (h : HashChain.Linked (dig sha256) GENESIS (t.rows.map Event.link)) :
    HashChain.Linked (dig sha256) GENESIS ((record sha256 t c).rows.map Event.link) := by
  have hhead : t.lastHash = HashChain.head GENESIS (t.rows.map Event.link) := (head_rows GENESIS t.rows).symm
  simp only [record, List.map_append, List.map_singleton]
  rw [HashChain.linked_snoc]
  refine ⟨h, hhead, ?_⟩
  rw [← hhead]
  rfl

/-- **The rows `record` wrote are a chain.** -/
theorem history_linked (sha256 : Text → String) (calls : List Call) :
    HashChain.Linked (dig sha256) GENESIS ((history sha256 calls).rows.map Event.link) := by
  unfold history
  induction calls using List.reverseRecOn with
  | nil => trivial
  | append_singleton calls c ih =>
    rw [List.foldl_append, List.foldl_cons, List.foldl_nil]
    exact record_linked c ih

theorem history_utc (sha256 : Text → String) (calls : List Call) :
    ∀ e ∈ (history sha256 calls).rows, e.ts.tz = some Offset.utc := by
  unfold history
  induction calls using List.reverseRecOn with
  | nil => exact fun e he => absurd he List.not_mem_nil
  | append_singleton calls c ih =>
    rw [List.foldl_append, List.foldl_cons, List.foldl_nil]
    intro e he
    rcases List.mem_append.1 he with he | he
    · exact ih e he
    · rw [List.mem_singleton.1 he]
      exact c.utc

/-- later calls add rows at the end -/
theorem history_append (sha256 : Text → String) (calls more : List Call) :
    ∃ rows, (history sha256 (calls ++ more)).rows = (history sha256 calls).rows ++ rows := by
  induction more using List.reverseRecOn with
  | nil => exact ⟨[], by rw [List.append_nil, List.append_nil]⟩
  | append_singleton more c ih =>
    obtain ⟨rows, hrows⟩ := ih
    refine ⟨rows ++ [newEvent sha256 (history sha256 (calls ++ more)) c], ?_⟩
    rw [← List.append_assoc, ← List.append_assoc, ← hrows]
    unfold history
    rw [List.foldl_append, List.foldl_cons, List.foldl_nil]
    rfl

theorem history_ids (sha256 : Text → String) (calls : List Call) : ∀ e ∈ (history sha256 calls).rows, 0 < e.id := by
  induction calls using List.reverseRecOn with
  | nil => exact fun e he => absurd he List.not_mem_nil
  | append_singleton calls c ih =>
    unfold history at ih ⊢
    rw [List.foldl_append, List.foldl_cons, List.foldl_nil]
    intro e he
    rcases List.mem_append.1 he with he | he
    · exact ih e he
    · rw [List.mem_singleton.1 he]
      show 0 < Trail.newId _ _
      unfold Trail.newId
      cases hlast : (List.foldl (record sha256) Trail.empty calls).rows.getLast? with
      | none =>
        simp only [Option.map_none, Option.getD_none]
        omega
      | some last =>
        have hpos := ih last (List.mem_of_getLast? hlast)
        simp only [Option.map_some, Option.getD_some]
        omega

/-! ## An ideal hash -/

def hexdigits : List Char := "0123456789abcdef".toList

/-- what the chain rests on: digests are hexadecimal, no two texts share one, and none has the genesis value -/
structure IdealHash (sha256 : Text → String) : Prop where
  hex : ∀ t, ∀ c ∈ (sha256 t).toList, c ∈ hexdigits
  injective : Function.Injective sha256
  notGenesis : ∀ t, sha256 t ≠ GENESIS

/-- the hash before a body ends where the body's brace stands -/
theorem prev_cut {p q u v : Text} (hp : '{' ∉ p) (hq : '{' ∉ q) (h : p ++ '{' :: u = q ++ '{' :: v) : p = q ∧ u = v := by
  induction p generalizing q with
  | nil =>
    cases q with
    | nil => exact ⟨rfl, (List.cons.inj h).2⟩
    | cons d q => exact absurd ((List.cons.inj h).1 ▸ List.mem_cons_self) hq
  | cons c p ih =>
    cases q with
    | nil => exact absurd ((List.cons.inj h).1 ▸ List.mem_cons_self) hp
    | cons d q =>
      obtain ⟨rfl, hrest⟩ := List.cons.inj h
      obtain ⟨rfl, huv⟩ := ih (fun hmem => hp (List.mem_cons_of_mem _ hmem)) (fun hmem => hq (List.mem_cons_of_mem _ hmem))
        hrest
      exact ⟨rfl, huv⟩

/-- a hash in a chain has no brace -/
theorem made_no_brace {sha256 : Text → String} (hs : IdealHash sha256) {p : String}
    (hp : HashChain.Made (dig sha256) GENESIS p) : '{' ∉ p.toList := by
  rcases hp with hp | ⟨q, b, hp⟩
  · rw [hp, genesis_toList]
    exact fun hmem => absurd (List.eq_of_mem_replicate hmem) (by decide)
  · rw [hp]
    intro hmem
    exact absurd (hs.hex _ _ hmem) (by decide)

theorem IdealHash.sound {sha256 : Text → String} (hs : IdealHash sha256) : HashChain.Sound (dig sha256) GENESIS where
  fresh p b := hs.notGenesis _
  inj p q a b hp hq h := by
    obtain ⟨a, u, rfl⟩ := a
    obtain ⟨b, v, rfl⟩ := b
    obtain ⟨hpq, huv⟩ := prev_cut (made_no_brace hs hp) (made_no_brace hs hq) (hs.injective h)
    exact ⟨String.toList_injective hpq, Subtype.ext (by rw [huv])⟩

/-- rows with one link have one content -/
theorem link_content {e e' : Event} (h : e.link = e'.link) : SameContent e e' :=
  body_eq_iff.1 (congrArg HashChain.Link.body h)

/-- **Two chains with one head have the same rows**, in number, order and content. -/
theorem same_content {sha256 : Text → String} (hs : IdealHash sha256) {rows rows' : List Event}
    (h : HashChain.Linked (dig sha256) GENESIS (rows.map Event.link))
    (h' : HashChain.Linked (dig sha256) GENESIS (rows'.map Event.link))
    (hhead : HashChain.head GENESIS (rows.map Event.link) = HashChain.head GENESIS (rows'.map Event.link)) :
    List.Forall₂ SameContent rows rows' := by
  have hlinks := HashChain.same_head hs.sound h h' hhead
  have heq : List.Forall₂ (fun e e' => Event.link e = Event.link e') rows rows' := by
    rw [← List.forall₂_map_right_iff (f := Event.link), ← List.forall₂_map_left_iff (f := Event.link), hlinks]
    exact List.forall₂_same.2 fun _ _ => rfl
  exact heq.imp fun _ _ => link_content

/-- a hash for examples: a one, and eight hexadecimal digits a character -/
def hexHash (t : Text) : String :=
  String.ofList ('1' :: t.flatMap fun c => hex4 (c.toNat / 65536) ++ hex4 (c.toNat % 65536))

theorem hexHash_ideal : IdealHash hexHash where
  hex t c hc := by
    have hdigit : ∀ n < 16, hexDigit n ∈ hexdigits := by decide
    have hmod : ∀ n, hexDigit (n % 16) ∈ hexdigits := fun n => hdigit _ (Nat.mod_lt _ (by decide))
    unfold hexHash at hc
    rw [String.toList_ofList, List.mem_cons, List.mem_flatMap] at hc
    rcases hc with rfl | ⟨d, -, hc⟩
    · exact hdigit 1 (by decide)
    simp only [hex4, List.mem_append, List.mem_cons, List.not_mem_nil, or_false] at hc
    rcases hc with (rfl | rfl | rfl | rfl) | (rfl | rfl | rfl | rfl) <;> exact hmod _
  injective := by
    intro t u h
    replace h := (List.cons.inj (String.ofList_injective h)).2
    induction t generalizing u with
    | nil =>
      cases u with
      | nil => rfl
      | cons d u => cases h
    | cons c t ih =>
      cases u with
      | nil => cases h
      | cons d u =>
        rw [List.flatMap_cons, List.flatMap_cons, List.append_assoc, List.append_assoc] at h
        obtain ⟨hhigh, h⟩ := List.append_inj h (by simp)
        obtain ⟨hlow, h⟩ := List.append_inj h (by simp)
        have hc := not_surrogate c
        have hd := not_surrogate d
        have ehigh := hex4_inj (by omega) (by omega) hhigh
        have elow := hex4_inj (by omega) (by omega) hlow
        rw [Char.toNat_inj.1 (by omega : c.toNat = d.toNat), ih h]
  notGenesis t := by
    intro h
    have hlist : (hexHash t).toList = List.replicate 64 '0' := by rw [h, genesis_toList]
    rw [hexHash, String.toList_ofList, List.replicate_succ] at hlist
    exact absurd (List.cons.inj hlist).1 (by decide)

/-! ## Reading back -/

/-- a row as a database may return it -/
structure SameRow (stored read : Event) : Prop where
  id : read.id = stored.id
  instant : read.ts.instant = stored.ts.instant
  actor : read.actor = stored.actor
  action : read.action = stored.action
  target : read.target = stored.target
  details : canon read.details = canon stored.details
  prevHash : read.prevHash = stored.prevHash
  hash : read.hash = stored.hash

def ReadBack (stored read : Trail) : Prop := List.Forall₂ SameRow stored.rows read.rows

/-- the rows with their times read by `f` -/
def Trail.readAs (t : Trail) (f : DateTime → DateTime) : Trail where
  rows := t.rows.map fun e => { e with ts := f e.ts }
  sorted := by
    rw [List.map_map]
    exact t.sorted

theorem readAs_readBack {t : Trail} {f : DateTime → DateTime} (h : ∀ e ∈ t.rows, (f e.ts).instant = e.ts.instant) :
    ReadBack t (t.readAs f) := by
  unfold ReadBack Trail.readAs
  rw [List.forall₂_map_right_iff, List.forall₂_same]
  exact fun e he => ⟨rfl, h e he, rfl, rfl, rfl, rfl, rfl, rfl⟩

/-- a time read naive or with offset zero -/
def UtcRead (e : Event) : Prop := e.ts.tz = none ∨ e.ts.tz = some Offset.utc

instance (e : Event) : Decidable (UtcRead e) := inferInstanceAs (Decidable (_ ∨ _))

theorem asUtc_instant (t : DateTime) : (asUtc t).instant = t.instant := by
  unfold asUtc
  split
  · rfl
  · next h =>
    unfold DateTime.instant
    rw [h]
    rfl

/-- `as_utc` gives back the time stored iff the time read is naive or has offset zero -/
theorem asUtc_eq_iff {stored read : Event} (h : SameRow stored read) (hutc : stored.ts.tz = some Offset.utc) :
    asUtc read.ts = asUtc stored.ts ↔ UtcRead read := by
  have hstored : asUtc stored.ts = stored.ts := by
    unfold asUtc
    rw [hutc]
  rw [hstored]
  constructor
  · intro heq
    cases htz : read.ts.tz with
    | none => exact Or.inl htz
    | some off =>
      refine Or.inr (htz.trans ?_)
      have hread : asUtc read.ts = read.ts := by
        unfold asUtc
        rw [htz]
      rw [← htz, ← hread, heq, hutc]
  · intro hread
    refine instant_inj (by rw [asUtc_instant, h.instant]) ?_
    rw [hutc]
    unfold asUtc
    rcases hread with hread | hread
    · rw [hread]
    · rw [hread]
      exact hread

/-- the content read is the content stored iff the time read is naive or has offset zero -/
theorem sameContent_iff {stored read : Event} (h : SameRow stored read) (hutc : stored.ts.tz = some Offset.utc) :
    SameContent read stored ↔ UtcRead read := by
  rw [← asUtc_eq_iff h hutc]
  exact ⟨SameContent.ts, fun hts => ⟨hts, h.actor, h.action, h.target, h.details⟩⟩

theorem linked_read {sha256 : Text → String} {p : String} {stored read : List Event}
    (h : List.Forall₂ SameRow stored read) (hutc : ∀ e ∈ stored, e.ts.tz = some Offset.utc)
    (hlinked : HashChain.Linked (dig sha256) p (stored.map Event.link)) :
    ((∀ e ∈ read, UtcRead e) → HashChain.Linked (dig sha256) p (read.map Event.link)) ∧
      (Function.Injective sha256 → HashChain.Linked (dig sha256) p (read.map Event.link) →
        ∀ e ∈ read, UtcRead e) := by
  induction h generalizing p with
  | nil => exact ⟨fun _ => trivial, fun _ _ e he => absurd he List.not_mem_nil⟩
  | @cons e e' stored read hrow hrows ih =>
    have hcontent := sameContent_iff hrow (hutc e List.mem_cons_self)
    obtain ⟨hprev, hhash, hrest⟩ := hlinked
    obtain ⟨hto, hfrom⟩ := ih (fun e he => hutc e (List.mem_cons_of_mem _ he)) hrest
    have hlink : e'.link.hash = e.link.hash := hrow.hash
    constructor
    · intro hread
      have hbody : e'.body = e.body := body_eq_iff.2 (hcontent.2 (hread e' List.mem_cons_self))
      refine ⟨hrow.prevHash.trans hprev, ?_, ?_⟩
      · rw [hlink, hhash]
        exact congrArg _ hbody.symm
      · rw [hlink]
        exact hto fun e he => hread e (List.mem_cons_of_mem _ he)
    · rintro hinj ⟨-, hhash', hrest'⟩
      rw [hlink] at hhash' hrest'
      -- one hash, and so one text
      have htext : p.toList ++ e'.body.val = p.toList ++ e.body.val := hinj (hhash'.symm.trans hhash)
      have hbody : e'.body = e.body := Subtype.ext (List.append_cancel_left htext)
      intro f hf
      rcases List.mem_cons.1 hf with rfl | hf
      · exact hcontent.1 (body_eq_iff.1 hbody)
      · exact hfrom hinj hrest' f hf

/-- **The chain read back is valid iff every time read is naive or has offset zero**; the condition is enough under any
hash. -/
theorem read_back_valid_iff (sha256 : Text → String) (calls : List Call) (read : Trail)
    (h : ReadBack (history sha256 calls) read) :
    ((∀ e ∈ read.rows, UtcRead e) → (verifyChain sha256 read).isValid = true) ∧
      (Function.Injective sha256 → (verifyChain sha256 read).isValid = true → ∀ e ∈ read.rows, UtcRead e) := by
  rw [verifyChain_valid_iff]
  exact linked_read h (history_utc sha256 calls) (history_linked sha256 calls)

/-- noon on January 1, 2024 -/
def noon : DateTime :=
  ⟨2024, 1, 1, 12, 0, 0, 0, some Offset.utc, by decide, by decide, by decide, by decide, by decide, by decide, by decide⟩

/-- the same instant, two hours east -/
def noonEast : DateTime :=
  ⟨2024, 1, 1, 14, 0, 0, 0, some ⟨7200000000, by decide⟩, by decide, by decide, by decide, by decide, by decide,
    by decide, by decide⟩

example : noonEast.instant = noon.instant := by decide

/-- one call, with a number as a key -/
def startCall : Call := ⟨0, noon, rfl, "system", "ca.create", "CA 1", some [(.int 1, .bool true)]⟩

def startTrail : Trail := history hexHash [startCall]

theorem mem_startTrail {e : Event} (h : e ∈ startTrail.rows) : e.ts = noon := by
  have heq : e = newEvent hexHash Trail.empty startCall := List.mem_singleton.1 h
  rw [heq]
  rfl

theorem startTrail_read {t : DateTime} (h : t.instant = noon.instant) :
    ReadBack startTrail (startTrail.readAs fun _ => t) :=
  readAs_readBack fun e he => by rw [mem_startTrail he, h]

/-- a naive time verifies -/
theorem naive_valid : (verifyChain hexHash (startTrail.readAs fun _ => { noon with tz := none })).isValid = true := by
  refine (read_back_valid_iff hexHash [startCall] _ (startTrail_read (by decide))).1 fun e he => ?_
  obtain ⟨f, -, rfl⟩ := List.mem_map.1 he
  exact Or.inl rfl

/-- a chain of one event, valid when written, is reported broken in a session two hours east -/
theorem east_broken : ReadBack startTrail (startTrail.readAs fun _ => noonEast) ∧
    (verifyChain hexHash startTrail).isValid = true ∧
    (verifyChain hexHash (startTrail.readAs fun _ => noonEast)).isValid = false := by
  refine ⟨startTrail_read (by decide), verifyChain_valid_iff.2 (history_linked _ _), ?_⟩
  rw [Bool.eq_false_iff, ne_eq, verifyChain_valid_iff]
  intro hlinked
  have hread := (linked_read (startTrail_read (by decide)) (history_utc _ _) (history_linked _ _)).2
    hexHash_ideal.injective hlinked
  have hmem : { newEvent hexHash Trail.empty startCall with ts := noonEast } ∈
    (startTrail.readAs fun _ => noonEast).rows := List.mem_singleton_self _
  exact absurd (hread _ hmem) (by decide)

end Certadillo.Audit
