/-
Rounds of `ship` (`audit/shipping.py`): batches, a sink that may accept a part of one and fail, and the cursor.

Between rounds events are recorded; a round reads the rows of the trail as its database returns them then. What a sink does
with each batch is any (`SendResult`). A cursor covers the first rows of the trail, and the received log continues them:
records already there may come again, a new one is of the next row (`Continues`).

- `pass_covers`: one pass over a sink keeps that, wherever it fails.
- `continues_verified`: `verify_records` accepts a log of that form.
- `shipped_without_gaps`: in every run of rounds the cursor never moves back, everything up to it was received, the log is
  accepted, and a round that did not fail and had batches left is at the last event.

Premises: an ideal hash, `fromisoformat` reads what `isoformat` wrote, and signatures and MACs under the same keys verify.
-/
import Certadillo.Audit.Shipping
import Certadillo.Lib.AtLeastOnce
import Certadillo.Lib.Run

namespace Certadillo.Audit

open JsonText Datetime Machine

/-! ## Model -/

def BATCH : ℕ := 500

/-- a row of `audit_ship_cursors` -/
structure Cursor where
  sink : String
  lastEventId : ℤ
  lastHash : Option String
  failures : ℕ
  lastError : Option String
  updatedAt : Option DateTime

/-- `AuditShipCursor(sink=spec, last_event_id=0)` -/
def Cursor.new (spec : String) : Cursor := ⟨spec, 0, none, 0, none, none⟩

/-- what a sink does with a batch: the records it accepts, and the exception as text -/
structure SendResult where
  accepted : ℕ
  error : Option String

/-- the platform's side of shipping; every sink's specification has passed `check_config` -/
structure Shipper where
  hmac : Option (Text → String)
  key : Signer
  site : String
  specs : List String
  /-- `f"{type(exc).__name__}: {exc}"` -/
  errorText : Err → String

/-- one sink while batches are sent: its cursor, its log, the events and the batches sent so far -/
structure Sending where
  cursor : Cursor
  received : List Object
  sent : ℕ
  batches : ℕ

/-- the events a cursor has not seen, up to a batch -/
def nextBatch (rows : List Event) (c : Cursor) : List Event :=
  (rows.filter fun ev => c.lastEventId < ev.id).take BATCH

/-- the cursor after a batch that ends with `ev` -/
def Cursor.advance (c : Cursor) (ev : Event) : Cursor := { c with lastEventId := ev.id, lastHash := some ev.hash }

/-- the database no longer continues the chain that was shipped -/
def Cursor.breaks (c : Cursor) (ev : Event) : Bool := c.lastHash.any fun h => h ≠ ev.prevHash

/-- the loop over batches, and the exception that ends it -/
def shipBatches (S : Shipper) (rows : List Event) (send : ℕ → SendResult) : ℕ → Sending → Sending × Option String
  | 0, s => (s, none)
  | n + 1, s =>
    match nextBatch rows s.cursor with
    | [] => (s, none)
    | ev :: evs =>
      let after := s.cursor.lastEventId
      if s.cursor.breaks ev then
        (s, some (s!"RuntimeError: chain break after event {after}: the history was changed " ++ "after it was shipped"))
      else
        match (ev :: evs).mapM (toRecord S.hmac (some S.key) S.site) with
        | .error e => (s, some (S.errorText e))
        | .ok records =>
          let result := send s.batches
          match result.error with
          | some text =>
            ({ s with received := s.received ++ records.take result.accepted, batches := s.batches + 1 }, some text)
          | none =>
            shipBatches S rows send n
              { cursor := s.cursor.advance ((ev :: evs).getLast (List.cons_ne_nil _ _))
                received := s.received ++ records
                sent := s.sent + (ev :: evs).length
                batches := s.batches + 1 }

/-- what `ship` returns for a sink, and the batches it sent -/
structure Pass where
  spec : String
  sent : ℕ
  error : Option String
  batches : ℕ

/-- the trail as it was recorded, and for each sink its cursor and the log it received -/
structure ShipSt where
  calls : List Call
  cursors : String → Option Cursor
  received : String → List Object

def ShipSt.start : ShipSt := ⟨[], fun _ => none, fun _ => []⟩

/-- one round: what was recorded before it, the rows its session reads, and what the sinks do -/
structure Round where
  calls : List Call
  read : Trail
  maxBatches : ℕ
  send : String → ℕ → SendResult
  now : DateTime

/-- the cursor after a pass -/
def Cursor.close (c : Cursor) (now : DateTime) (error : Option String) : Cursor :=
  { c with failures := if error.isSome then c.failures + 1 else 0, lastError := error, updatedAt := some now }

def ShipSt.cursor (s : ShipSt) (spec : String) : Cursor := (s.cursors spec).getD (Cursor.new spec)

/-- the pass of `ship` over one sink -/
def shipTo (S : Shipper) (r : Round) (s : ShipSt) (spec : String) : ShipSt × Pass :=
  let result := shipBatches S r.read.rows (r.send spec) r.maxBatches ⟨s.cursor spec, s.received spec, 0, 0⟩
  let error := result.2.map fun text => String.ofList (text.toList.take 500)
  ({ s with
      cursors := Function.update s.cursors spec (some (result.1.cursor.close r.now error))
      received := Function.update s.received spec result.1.received },
    ⟨spec, result.1.sent, error, result.1.batches⟩)

def shipAll (S : Shipper) (r : Round) (s : ShipSt) : List String → ShipSt × List Pass
  | [] => (s, [])
  | spec :: specs =>
    let first := shipTo S r s spec
    let rest := shipAll S r first.1 specs
    (rest.1, first.2 :: rest.2)

/-- `ship`, after what was recorded since the last round -/
def ship (S : Shipper) (s : ShipSt) (r : Round) : ShipSt × List Pass :=
  shipAll S r { s with calls := s.calls ++ r.calls } S.specs

def shipStep (S : Shipper) (s : ShipSt) (r : Round) : ShipSt := (ship S s r).1

/-! ## Properties -/

/-- the round reads the recorded rows, their times naive or with offset zero -/
def ReadsUtc (sha256 : Text → String) (s : ShipSt) (r : Round) : Prop :=
  ReadBack (history sha256 (s.calls ++ r.calls)) r.read ∧ ∀ ev ∈ r.read.rows, UtcRead ev

/-- everything up to the cursor was received, and the log is accepted -/
structure NoGaps (p : Verifier) (site spec : String) (s : ShipSt) : Prop where
  received : ∀ ev ∈ (history p.sha256 s.calls).rows, ev.id ≤ (s.cursor spec).lastEventId →
    ∃ rec ∈ s.received spec, IsRecordOf site rec ev
  accepted : ∃ rep, verifyRecords p (s.received spec) = .ok rep ∧ rep.valid = true

/-- a pass that did not fail and had batches left leaves the cursor at the last event -/
def CaughtUp (S : Shipper) (s : ShipSt) (r : Round) : Prop :=
  ∀ pass ∈ (ship S s r).2, pass.error = none → pass.batches < r.maxBatches →
    ((shipStep S s r).cursor pass.spec).lastEventId = (r.read.rows.getLast?.map Event.id).getD 0

/-! ## Records -/

section Records

variable {p : Verifier} {k : Signer} {site : String} {ev : Event} {rec : Object}

/-- a record of a stored event, as some session read it -/
def IsShipped (p : Verifier) (k : Signer) (site : String) (ev : Event) (rec : Object) : Prop :=
  ∃ read, SameRow ev read ∧ UtcRead read ∧ rec = shipped p.hmac k site read

/-- a row `record` wrote -/
structure Recorded (sha256 : Text → String) (ev : Event) : Prop where
  utc : ev.ts.tz = some Offset.utc
  hashed : ev.hash = dig sha256 ev.prevHash ev.body

theorem isShipped_record (hev : Recorded p.sha256 ev) (h : IsShipped p k site ev rec) : IsRecordOf site rec ev := by
  obtain ⟨read, hrow, hread, rfl⟩ := h
  have hsame := (sameContent_iff hrow hev.utc).2 hread
  intro key hkey
  have hrec : (shipped p.hmac k site read).lookup key = (recordBody site read).lookup key := by
    simp only [recordKeys, List.mem_cons, List.not_mem_nil, or_false] at hkey
    rcases hkey with rfl | rfl | rfl | rfl | rfl | rfl | rfl | rfl | rfl <;> rfl
  rw [hrec]
  simp only [recordKeys, List.mem_cons, List.not_mem_nil, or_false] at hkey
  rcases hkey with rfl | rfl | rfl | rfl | rfl | rfl | rfl | rfl | rfl <;>
    simp [recordBody, List.lookup_cons, canon, hrow.id, hsame.ts, hrow.actor, hrow.action, hrow.target, hsame.details,
      hrow.prevHash, hrow.hash]

theorem isShipped_hash (h : IsShipped p k site ev rec) : rec.lookup "hash" = some (.str ev.hash) := by
  obtain ⟨read, hrow, -, rfl⟩ := h
  rw [← hrow.hash]
  rfl

/-- a record shipped passes after the record of the event before it -/
theorem isShipped_passes (hk : Genuine p k) (hev : Recorded p.sha256 ev)
    (hiso : p.fromisoformat (.str (String.ofList (asUtc ev.ts).isoformat)) = .ok (asUtc ev.ts)) {before : Value}
    (hlink : before = .null ∨ before = .str ev.prevHash) (h : IsShipped p k site ev rec) :
    checkRecord p before rec = .ok [] := by
  obtain ⟨read, hrow, hread, rfl⟩ := h
  have hts := (asUtc_eq_iff hrow hev.utc).2 hread
  have hbody : read.body = ev.body := body_eq_iff.2 ((sameContent_iff hrow hev.utc).2 hread)
  refine toRecord_passes hk site (hts ▸ hiso) ?_ (hrow.prevHash ▸ hlink)
  rw [hrow.hash, hrow.prevHash, hbody]
  exact hev.hashed

end Records

/-! ## The received log -/

section Log

variable {p : Verifier} {k : Signer} {site : String} {rows : List Event}

/-- rows of a history, in its order -/
structure Stored (p : Verifier) (rows : List Event) : Prop where
  recorded : ∀ ev ∈ rows, Recorded p.sha256 ev
  linked : HashChain.Linked (dig p.sha256) GENESIS (rows.map Event.link)
  nodup : (rows.map Event.hash).Nodup
  times : ∀ ev ∈ rows, p.fromisoformat (.str (String.ofList (asUtc ev.ts).isoformat)) = .ok (asUtc ev.ts)

/-- the hash of the last record checked -/
def lastValue (rows : List Event) : Value :=
  match rows.getLast? with
  | none => .null
  | some ev => .str ev.hash

theorem mem_linked {sha256 : Text → String} {g : String} (h : HashChain.Linked (dig sha256) g (rows.map Event.link)) :
    ∀ ev ∈ rows, ev.hash = dig sha256 ev.prevHash ev.body := by
  induction rows generalizing g with
  | nil => exact fun ev hev => absurd hev List.not_mem_nil
  | cons e rows ih =>
    obtain ⟨hprev, hhash, hrest⟩ := h
    intro ev hev
    rcases List.mem_cons.1 hev with rfl | hev
    · rw [show ev.prevHash = g from hprev]
      exact hhash
    · exact ih hrest ev hev

/-- each row holds the hash of the one before it -/
theorem linked_last {sha256 : Text → String} (h : HashChain.Linked (dig sha256) GENESIS (rows.map Event.link)) {n : ℕ}
    {ev : Event} (hev : rows[n]? = some ev) :
    lastValue (rows.take n) = .null ∨ lastValue (rows.take n) = .str ev.prevHash := by
  have hsplit : rows.take n ++ ev :: rows.drop (n + 1) = rows := by
    obtain ⟨hn, hget⟩ := List.getElem?_eq_some_iff.1 hev
    rw [← hget, List.getElem_cons_drop hn, List.take_append_drop]
  rw [← hsplit, List.map_append, HashChain.linked_append, head_rows] at h
  obtain ⟨-, hprev, -⟩ := h
  unfold lastValue
  cases hlast : (rows.take n).getLast? with
  | none => exact Or.inl rfl
  | some last =>
    rw [hlast] at hprev
    exact Or.inr (congrArg Value.str hprev.symm)

theorem isSeen_str {floatEq : JsonText.Float → Value → Bool} {seen : List Value} {s : String}
    (h : ∀ v ∈ seen, ∃ t, v = .str t) : ∃ b, isSeen floatEq seen (.str s) = .ok b ∧ (b = true ↔ Value.str s ∈ seen) := by
  refine ⟨_, rfl, ?_⟩
  rw [List.any_eq_true]
  constructor
  · rintro ⟨v, hv, heq⟩
    obtain ⟨t, rfl⟩ := h v hv
    have hst : s = t := by simpa [pyEq] using heq
    rw [hst]
    exact hv
  · exact fun hmem => ⟨_, hmem, by simp [pyEq]⟩

/-- **The loop of `verify_records` finds no problem** in a log that continues what it has seen. -/
theorem continues_verified (hk : Genuine p k) (hs : Stored p rows) {n m : ℕ} {recs : List Object}
    (h : AtLeastOnce.Log (IsShipped p k site) rows n recs m) {seen : List Value}
    (hseen : ∀ v, v ∈ seen ↔ ∃ ev ∈ rows.take n, v = .str ev.hash) :
    ∃ count, verifyLoop p seen (lastValue (rows.take n)) recs = .ok (count, []) := by
  have hstr : ∀ {n : ℕ} {seen : List Value}, (∀ v, v ∈ seen ↔ ∃ ev ∈ rows.take n, v = .str ev.hash) →
      ∀ v ∈ seen, ∃ t, v = .str t := by
    intro n seen hseen v hv
    obtain ⟨ev, -, rfl⟩ := (hseen v).1 hv
    exact ⟨ev.hash, rfl⟩
  induction h generalizing seen with
  | nil n => exact ⟨0, rfl⟩
  | @again n m i ev rec recs hi hev hrec _ ih =>
    have hget : rec.get "hash" = .str ev.hash := by rw [Object.get, isShipped_hash hrec]; rfl
    have hmem : Value.str ev.hash ∈ seen := by
      refine (hseen _).2 ⟨ev, ?_, rfl⟩
      have htake : (rows.take n)[i]? = some ev := by rw [List.getElem?_take_of_lt hi, hev]
      exact List.mem_of_getElem? htake
    obtain ⟨b, hb, hiff⟩ := @isSeen_str p.floatEq seen ev.hash (hstr hseen)
    obtain ⟨count, hcount⟩ := ih hseen
    refine ⟨count, ?_⟩
    unfold verifyLoop
    rw [hget, hb, except_ok_bind, if_pos (hiff.2 hmem)]
    exact hcount
  | @next n m ev rec recs hev hrec _ ih =>
    have hget : rec.get "hash" = .str ev.hash := by rw [Object.get, isShipped_hash hrec]; rfl
    have hrow : ev ∈ rows := List.mem_of_getElem? hev
    have htake : rows.take (n + 1) = rows.take n ++ [ev] := by rw [List.take_add_one, hev]; rfl
    have hnew : Value.str ev.hash ∉ seen := by
      intro hmem
      obtain ⟨ev', hev', heq⟩ := (hseen _).1 hmem
      have hnodup : ((rows.take (n + 1)).map Event.hash).Nodup :=
        hs.nodup.sublist ((List.take_sublist _ _).map _)
      rw [htake, List.map_append, List.nodup_append] at hnodup
      exact hnodup.2.2 _ (List.mem_map_of_mem hev') _ (List.mem_singleton_self _) (Value.str.inj heq).symm
    have hcheck := isShipped_passes hk (hs.recorded ev hrow) (hs.times ev hrow) (linked_last hs.linked hev) hrec
    have hlast : lastValue (rows.take (n + 1)) = .str ev.hash := by
      unfold lastValue
      rw [htake, List.getLast?_concat]
    obtain ⟨count, hcount⟩ := @ih (.str ev.hash :: seen) fun v => by
      rw [List.mem_cons, hseen v, htake]
      constructor
      · rintro (rfl | ⟨ev', hev', rfl⟩)
        · exact ⟨ev, by simp, rfl⟩
        · exact ⟨ev', List.mem_append_left _ hev', rfl⟩
      · rintro ⟨ev', hev', rfl⟩
        rcases List.mem_append.1 hev' with hev' | hev'
        · exact Or.inr ⟨ev', hev', rfl⟩
        · exact Or.inl (by rw [List.mem_singleton.1 hev'])
    rw [hlast] at hcount
    obtain ⟨b, hb, hiff⟩ := @isSeen_str p.floatEq seen ev.hash (hstr hseen)
    refine ⟨count + 1, ?_⟩
    unfold verifyLoop
    rw [hget, hb, except_ok_bind, if_neg fun hb => hnew (hiff.1 hb), field_ok.2 (isShipped_hash hrec), except_ok_bind,
      hcheck, except_ok_bind, hcount]
    rfl

/-- **`verify_records` accepts the log.** -/
theorem log_accepted (hk : Genuine p k) (hs : Stored p rows) {m : ℕ} {recs : List Object}
    (h : AtLeastOnce.Log (IsShipped p k site) rows 0 recs m) :
    ∃ rep, verifyRecords p recs = .ok rep ∧ rep.valid = true := by
  have hstart : ∀ v, v ∈ ([] : List Value) ↔ ∃ ev ∈ rows.take 0, v = .str ev.hash := by simp
  obtain ⟨count, hloop⟩ := continues_verified hk hs h hstart
  have hfields : ∀ rec ∈ recs, ∃ prevHash id, rec.field "prev_hash" = .ok prevHash ∧ rec.field "id" = .ok id := by
    intro rec hrec
    obtain ⟨ev, -, read, -, -, rfl⟩ := h.entry hrec
    exact ⟨_, _, rfl, rfl⟩
  have hend : ∀ rec : Option Object, (∀ r, rec = some r → r ∈ recs) →
      ∃ prevHash id, endField rec "prev_hash" = .ok prevHash ∧ endField rec "id" = .ok id := by
    intro rec hrec
    cases rec with
    | none => exact ⟨none, none, rfl, rfl⟩
    | some r =>
      obtain ⟨prevHash, id, hprev, hid⟩ := hfields r (hrec r rfl)
      exact ⟨some prevHash, some id, by rw [endField, hprev]; rfl, by rw [endField, hid]; rfl⟩
  obtain ⟨prevHash, firstId, hprev, hfirst⟩ := hend recs.head? fun r hr => List.mem_of_head? hr
  obtain ⟨-, lastId, -, hlast⟩ := hend recs.getLast? fun r hr => List.mem_of_getLast? hr
  unfold verifyRecords
  have hnull : lastValue (rows.take 0) = .null := rfl
  rw [hnull] at hloop
  rw [hloop, except_ok_bind]
  dsimp only
  rw [hprev, except_ok_bind, hfirst, except_ok_bind, hlast, except_ok_bind]
  exact ⟨_, rfl, rfl⟩

end Log

/-! ## Batches -/

section Batches

variable {p : Verifier} {S : Shipper} {rows read : List Event}

/-- the cursor is after these rows -/
structure Covers (done : List Event) (c : Cursor) : Prop where
  id : c.lastEventId = (done.getLast?.map Event.id).getD 0
  hash : c.lastHash = done.getLast?.map Event.hash

/-- the cursor is after some rows, and the log received these and perhaps more -/
def Delivering (p : Verifier) (S : Shipper) (rows read : List Event) (c : Cursor) (received : List Object) : Prop :=
  ∃ done rest m, read = done ++ rest ∧ Covers done c ∧ done.length ≤ m ∧
    AtLeastOnce.Log (IsShipped p S.key S.site) rows 0 received m

/-- the rows a session reads -/
structure Reads (p : Verifier) (S : Shipper) (rows read : List Event) : Prop where
  same : List.Forall₂ (fun ev read => SameRow ev read ∧ UtcRead read) rows read
  sorted : (read.map Event.id).Pairwise (· < ·)
  positive : ∀ ev ∈ read, 0 < ev.id
  follows : HashChain.Follows Event.prevHash Event.hash GENESIS read
  hmac : S.hmac = p.hmac

section Covers

variable {done rest : List Event} {c : Cursor} (hc : Covers done c) (hsorted : ((done ++ rest).map Event.id).Pairwise (· < ·))
  (hpositive : ∀ ev ∈ done ++ rest, 0 < ev.id)

include hc hsorted

theorem covers_behind : ∀ ev ∈ done, ev.id ≤ c.lastEventId := by
  intro ev hev
  obtain ⟨init, last, rfl⟩ := (List.eq_nil_or_concat done).resolve_left (List.ne_nil_of_mem hev)
  rw [List.concat_eq_append] at hev hsorted hc
  rw [hc.id, List.getLast?_concat, Option.map_some, Option.getD_some]
  rw [List.map_append, List.pairwise_append, List.map_append, List.pairwise_append] at hsorted
  rcases List.mem_append.1 hev with hev | hev
  · exact le_of_lt (hsorted.1.2.2 _ (List.mem_map_of_mem hev) last.id (by simp))
  · rw [List.mem_singleton.1 hev]

include hpositive

theorem covers_ahead : ∀ ev ∈ rest, c.lastEventId < ev.id := by
  intro ev hev
  rw [List.map_append, List.pairwise_append] at hsorted
  rw [hc.id]
  cases hlast : done.getLast? with
  | none => exact hpositive ev (List.mem_append_right _ hev)
  | some last => exact hsorted.2.2 _ (List.mem_map_of_mem (List.mem_of_getLast? hlast)) _ (List.mem_map_of_mem hev)

/-- a cursor is not past the last row -/
theorem covers_le : c.lastEventId ≤ ((done ++ rest).getLast?.map Event.id).getD 0 := by
  rcases List.eq_nil_or_concat rest with rfl | ⟨init, last, rfl⟩
  · rw [List.append_nil, ← hc.id]
  · have hlast := covers_ahead hc hsorted hpositive last (by simp)
    rw [List.concat_eq_append, ← List.append_assoc, List.getLast?_concat]
    exact le_of_lt hlast

/-- the events the cursor has not seen are those after it -/
theorem nextBatch_covers : nextBatch (done ++ rest) c = rest.take BATCH := by
  have hbehind := covers_behind hc hsorted
  have hahead := covers_ahead hc hsorted hpositive
  unfold nextBatch
  rw [List.filter_append, List.filter_eq_nil_iff.2 (by simpa using hbehind), List.nil_append,
    List.filter_eq_self.2 (by simpa using hahead)]

end Covers

/-- the chain goes on after the cursor -/
theorem covers_continues {done rest : List Event} {ev : Event} {c : Cursor}
    (h : HashChain.Follows Event.prevHash Event.hash GENESIS (done ++ ev :: rest)) (hc : Covers done c) :
    c.breaks ev = false := by
  unfold Cursor.breaks
  rw [hc.hash]
  rcases List.eq_nil_or_concat done with rfl | ⟨init, last, rfl⟩
  · rfl
  · rw [List.concat_eq_append, List.append_assoc, List.singleton_append] at h
    rw [List.concat_eq_append, List.getLast?_concat, Option.map_some, Option.any_some, HashChain.follows_snoc h]
    simp

theorem covers_advance {done batch : List Event} {c : Cursor} (hne : batch ≠ []) :
    Covers (done ++ batch) (c.advance (batch.getLast hne)) := by
  have hlast : (done ++ batch).getLast? = some (batch.getLast hne) := by
    rw [List.getLast?_append, List.getLast?_eq_some_getLast hne]
    rfl
  constructor
  · rw [hlast]
    rfl
  · rw [hlast]
    rfl

theorem records_shipped (hmac : Option (Text → String)) (k : Signer) (site : String) (evs : List Event) :
    evs.mapM (toRecord hmac (some k) site) = .ok (evs.map (shipped hmac k site)) := by
  induction evs with
  | nil => rfl
  | cons ev evs ih =>
    rw [List.mapM_cons, toRecord_shipped, except_ok_bind, ih]
    rfl

/-- records of a part of the rows read, received from the cursor on -/
theorem log_batch {done rest batch : List Event} {received : List Object} {m : ℕ}
    (h : Reads p S rows (done ++ rest)) (hbatch : batch <+: rest) (hm : done.length ≤ m)
    (hlog : AtLeastOnce.Log (IsShipped p S.key S.site) rows 0 received m) :
    AtLeastOnce.Log (IsShipped p S.key S.site) rows 0 (received ++ batch.map (shipped S.hmac S.key S.site))
      (max m (done.length + batch.length)) := by
  obtain ⟨more, rfl⟩ := hbatch
  -- the stored rows of the batch
  have hstored := List.forall₂_take_append _ _ _ (List.forall₂_drop_append _ _ _ h.same)
  have hshipped : List.Forall₂ (IsShipped p S.key S.site) ((rows.drop done.length).take batch.length)
      (batch.map (shipped S.hmac S.key S.site)) := by
    rw [List.forall₂_map_right_iff]
    refine hstored.imp fun ev read hrow => ⟨read, hrow.1, hrow.2, ?_⟩
    rw [h.hmac]
  have hlen : ((rows.drop done.length).take batch.length).length = batch.length := hstored.length_eq
  rw [← hlen]
  exact hlog.append (AtLeastOnce.log_redelivered hm (List.take_prefix _ _) hshipped)

/-- **A loop over batches keeps what was received in order**, wherever it fails; without failure, and with batches left, it
ends at the last row. -/
theorem shipBatches_covers (send : ℕ → SendResult) (fuel : ℕ) {s : Sending} (h : Reads p S rows read)
    (hs : Delivering p S rows read s.cursor s.received) :
    Delivering p S rows read (shipBatches S read send fuel s).1.cursor (shipBatches S read send fuel s).1.received ∧
      s.cursor.lastEventId ≤ (shipBatches S read send fuel s).1.cursor.lastEventId ∧
      ((shipBatches S read send fuel s).2 = none → (shipBatches S read send fuel s).1.batches < s.batches + fuel →
        Covers read (shipBatches S read send fuel s).1.cursor) := by
  induction fuel generalizing s with
  | zero => exact ⟨hs, le_rfl, fun _ hlt => absurd hlt (lt_irrefl _)⟩
  | succ fuel ih =>
    obtain ⟨done, rest, m, rfl, hc, hm, hlog⟩ := hs
    have hnext := nextBatch_covers hc h.sorted h.positive
    have hkept : Delivering p S rows (done ++ rest) s.cursor s.received := ⟨done, rest, m, rfl, hc, hm, hlog⟩
    unfold shipBatches
    split
    · next hnil =>
      refine ⟨hkept, le_rfl, fun _ _ => ?_⟩
      rw [hnext, List.take_eq_nil_iff] at hnil
      obtain rfl := hnil.resolve_left (by decide)
      rwa [List.append_nil]
    next ev evs hbatch =>
    rw [hnext] at hbatch
    obtain ⟨more, hmore⟩ : (ev :: evs) <+: rest := hbatch ▸ List.take_prefix _ _
    have hbreaks : s.cursor.breaks ev = false := by
      rw [← hmore, List.cons_append] at h
      exact covers_continues h.follows hc
    have hahead : s.cursor.lastEventId < ((ev :: evs).getLast (List.cons_ne_nil _ _)).id := by
      have hmem : (ev :: evs).getLast (List.cons_ne_nil _ _) ∈ nextBatch (done ++ rest) s.cursor := by
        rw [hnext, hbatch]
        exact List.getLast_mem _
      unfold nextBatch at hmem
      simpa using (List.mem_filter.1 (List.mem_of_mem_take hmem)).2
    dsimp only
    rw [hbreaks, if_neg Bool.false_ne_true, records_shipped]
    dsimp only
    split
    · next text herror =>
      refine ⟨?_, le_rfl, fun hnone => by cases hnone⟩
      have hpart : (ev :: evs).take (send s.batches).accepted <+: rest := (List.take_prefix _ _).trans ⟨more, hmore⟩
      rw [← List.map_take]
      exact ⟨done, rest, _, rfl, hc, le_trans hm (le_max_left _ _), log_batch h hpart hm hlog⟩
    · have hnew : Delivering p S rows (done ++ rest) (s.cursor.advance ((ev :: evs).getLast (List.cons_ne_nil _ _)))
          (s.received ++ (ev :: evs).map (shipped S.hmac S.key S.site)) := by
        refine ⟨done ++ ev :: evs, more, _, ?_, covers_advance _, ?_, log_batch h ⟨more, hmore⟩ hm hlog⟩
        · rw [← hmore, List.append_assoc]
        · rw [List.length_append]
          exact le_max_right _ _
      obtain ⟨hkept', hle, hlast⟩ := @ih ⟨_, _, _, _⟩ hnew
      have hbudget : s.batches + (fuel + 1) = s.batches + 1 + fuel := by omega
      rw [hbudget]
      exact ⟨hkept', le_trans (le_of_lt hahead) hle, hlast⟩

end Batches

/-! ## Rounds -/

section Rounds

variable {p : Verifier} {S : Shipper} {rows read : List Event} {s : ShipSt} {r : Round}

/-- every sink's log is in order -/
def InOrder (p : Verifier) (S : Shipper) (rows read : List Event) (s : ShipSt) : Prop :=
  ∀ spec, Delivering p S rows read (s.cursor spec) (s.received spec)

theorem shipTo_cursor (spec spec' : String) :
    ((shipTo S r s spec).1.cursor spec').lastEventId =
      if spec' = spec then (shipBatches S r.read.rows (r.send spec) r.maxBatches
        ⟨s.cursor spec, s.received spec, 0, 0⟩).1.cursor.lastEventId
      else (s.cursor spec').lastEventId := by
  unfold shipTo ShipSt.cursor
  by_cases hspec : spec' = spec
  · subst hspec
    simp [Cursor.close]
  · simp [hspec]

/-- one pass keeps every sink's log in order and moves no cursor back -/
theorem shipTo_inOrder (h : Reads p S rows r.read.rows) (hs : InOrder p S rows r.read.rows s) (spec : String) :
    InOrder p S rows r.read.rows (shipTo S r s spec).1 ∧
      ∀ spec', (s.cursor spec').lastEventId ≤ ((shipTo S r s spec).1.cursor spec').lastEventId := by
  have hloop := shipBatches_covers (r.send spec) r.maxBatches (s := ⟨s.cursor spec, s.received spec, 0, 0⟩) h (hs spec)
  obtain ⟨⟨done, rest, m, hread, hc, hm, hlog⟩, hle, -⟩ := hloop
  constructor
  · intro spec'
    by_cases hspec : spec' = spec
    · subst hspec
      refine ⟨done, rest, m, hread, ?_, hm, ?_⟩
      · constructor
        · simpa [shipTo, ShipSt.cursor, Cursor.close] using hc.id
        · simpa [shipTo, ShipSt.cursor, Cursor.close] using hc.hash
      · simpa [shipTo] using hlog
    · have hother := hs spec'
      simpa [shipTo, ShipSt.cursor, hspec] using hother
  · intro spec'
    rw [shipTo_cursor]
    split
    · next hspec =>
      subst hspec
      exact hle
    · exact le_rfl

/-- the passes of a round, one sink after the other -/
theorem shipAll_inOrder (h : Reads p S rows r.read.rows) (hs : InOrder p S rows r.read.rows s) (specs : List String) :
    InOrder p S rows r.read.rows (shipAll S r s specs).1 ∧
      (∀ spec, (s.cursor spec).lastEventId ≤ ((shipAll S r s specs).1.cursor spec).lastEventId) ∧
      ∀ pass ∈ (shipAll S r s specs).2, pass.error = none → pass.batches < r.maxBatches →
        ((shipAll S r s specs).1.cursor pass.spec).lastEventId = (r.read.rows.getLast?.map Event.id).getD 0 := by
  induction specs generalizing s with
  | nil => exact ⟨hs, fun _ => le_rfl, fun pass hpass => absurd hpass List.not_mem_nil⟩
  | cons spec specs ih =>
    obtain ⟨hfirst, hle⟩ := shipTo_inOrder h hs spec
    obtain ⟨hrest, hle', hcaught⟩ := ih hfirst
    refine ⟨hrest, fun spec' => le_trans (hle spec') (hle' spec'), fun pass hpass => ?_⟩
    rcases List.mem_cons.1 hpass with rfl | hpass
    · intro herror hlt
      -- at the last row after this pass, and no pass moves a cursor back or past it
      have hloop := shipBatches_covers (r.send spec) r.maxBatches (s := ⟨s.cursor spec, s.received spec, 0, 0⟩) h (hs spec)
      have hlast := hloop.2.2 (by simpa [shipTo] using herror) (by simpa [shipTo] using hlt)
      have hat : ((shipTo S r s spec).1.cursor spec).lastEventId = (r.read.rows.getLast?.map Event.id).getD 0 := by
        rw [shipTo_cursor, if_pos rfl]
        exact hlast.id
      obtain ⟨done, rest, m, hread, hc, -, -⟩ := hrest spec
      have hsorted := h.sorted
      have hpositive := h.positive
      rw [hread] at hsorted hpositive
      have hbound := covers_le hc hsorted hpositive
      rw [← hread] at hbound
      exact le_antisymm hbound (hat ▸ hle' spec)
    · exact hcaught pass hpass

/-- rows with the ids and hashes of others -/
theorem delivering_read {rows read read' : List Event} {c : Cursor} {received : List Object}
    (hid : read'.map Event.id = read.map Event.id) (hhash : read'.map Event.hash = read.map Event.hash)
    (h : Delivering p S rows read c received) : Delivering p S rows read' c received := by
  obtain ⟨done, rest, m, rfl, hc, hm, hlog⟩ := h
  have hlen : done.length ≤ read'.length := by
    have hlen := congrArg List.length hid
    simp only [List.length_map, List.length_append] at hlen
    omega
  refine ⟨read'.take done.length, read'.drop done.length, m, (List.take_append_drop _ _).symm, ?_, ?_, hlog⟩
  · constructor
    · rw [hc.id, ← List.getLast?_map, ← List.getLast?_map, List.map_take, hid, List.map_append]
      congr 2
      rw [List.take_append_of_le_length (by simp), List.take_of_length_le (by simp)]
    · rw [hc.hash, ← List.getLast?_map, ← List.getLast?_map, List.map_take, hhash, List.map_append]
      congr 1
      rw [List.take_append_of_le_length (by simp), List.take_of_length_le (by simp)]
  · rw [List.length_take]
    omega

/-- rows recorded later come after the cursor -/
theorem delivering_extend {rows : List Event} {c : Cursor} {received : List Object} (more : List Event)
    (h : Delivering p S rows rows c received) : Delivering p S (rows ++ more) (rows ++ more) c received := by
  obtain ⟨done, rest, m, hrows, hc, hm, hlog⟩ := h
  refine ⟨done, rest ++ more, m, ?_, hc, hm, hlog.extend more⟩
  rw [hrows, List.append_assoc]

theorem forall₂_map_eq {α β : Type} {R : α → α → Prop} {f : α → β} {xs ys : List α} (h : List.Forall₂ R xs ys)
    (hR : ∀ x y, R x y → f y = f x) : ys.map f = xs.map f := by
  induction h with
  | nil => rfl
  | cons hxy _ ih => rw [List.map_cons, List.map_cons, hR _ _ hxy, ih]

theorem shipTo_calls (spec : String) : (shipTo S r s spec).1.calls = s.calls := rfl

theorem shipAll_calls (specs : List String) : (shipAll S r s specs).1.calls = s.calls := by
  induction specs generalizing s with
  | nil => rfl
  | cons spec specs ih => exact ih.trans (shipTo_calls spec)

theorem shipStep_calls : (shipStep S s r).calls = s.calls ++ r.calls := shipAll_calls _

/-- the invariant of runs: every sink's log is in the order of the history -/
def Kept (p : Verifier) (S : Shipper) (s : ShipSt) : Prop :=
  InOrder p S (history p.sha256 s.calls).rows (history p.sha256 s.calls).rows s

theorem kept_start : Kept p S ShipSt.start := by
  intro spec
  refine ⟨[], [], 0, rfl, ?_, le_rfl, AtLeastOnce.Log.nil 0⟩
  constructor
  · rfl
  · rfl

/-- **One round**: the logs stay in order, no cursor moves back, and a pass that did not fail is at the last event. -/
theorem round_kept (hmac : S.hmac = p.hmac) (hs : Kept p S s) (hr : ReadsUtc p.sha256 s r) :
    Kept p S (shipStep S s r) ∧
      (∀ spec, (s.cursor spec).lastEventId ≤ ((shipStep S s r).cursor spec).lastEventId) ∧ CaughtUp S s r := by
  obtain ⟨hback, hutc⟩ := hr
  obtain ⟨more, hmore⟩ := history_append p.sha256 s.calls r.calls
  have hid := forall₂_map_eq hback (f := Event.id) fun _ _ hrow => hrow.id
  have hhash := forall₂_map_eq hback (f := Event.hash) fun _ _ hrow => hrow.hash
  have hreads : Reads p S (history p.sha256 (s.calls ++ r.calls)).rows r.read.rows := by
    refine ⟨?_, r.read.sorted, ?_, (follows_read hback (history_linked _ _)).1, hmac⟩
    · have hboth := (List.forall₂_and_left _ _).2 ⟨hutc, hback.flip⟩
      exact hboth.flip.imp fun ev read hrow => ⟨hrow.2, hrow.1⟩
    · intro ev hev
      have hmem : ev.id ∈ (history p.sha256 (s.calls ++ r.calls)).rows.map Event.id := hid ▸ List.mem_map_of_mem hev
      obtain ⟨stored, hstored, heq⟩ := List.mem_map.1 hmem
      rw [← heq]
      exact history_ids _ _ stored hstored
  have hbefore : InOrder p S (history p.sha256 (s.calls ++ r.calls)).rows r.read.rows
      { s with calls := s.calls ++ r.calls } := by
    intro spec
    have hextended := delivering_extend more (hs spec)
    rw [← hmore] at hextended
    exact delivering_read hid hhash hextended
  obtain ⟨hafter, hle, hcaught⟩ := shipAll_inOrder hreads hbefore S.specs
  refine ⟨fun spec => ?_, hle, hcaught⟩
  rw [shipStep_calls]
  exact delivering_read hid.symm hhash.symm (hafter spec)

/-- a log in order has no gaps -/
theorem kept_noGaps (hs : IdealHash p.sha256) (hk : Genuine p S.key) (h : Kept p S s)
    (hiso : ∀ ev ∈ (history p.sha256 s.calls).rows,
      p.fromisoformat (.str (String.ofList (asUtc ev.ts).isoformat)) = .ok (asUtc ev.ts)) (spec : String) :
    NoGaps p S.site spec s := by
  have hlinked := history_linked p.sha256 s.calls
  have hsorted := (history p.sha256 s.calls).sorted
  have hpositive := history_ids p.sha256 s.calls
  have hrecorded : ∀ ev ∈ (history p.sha256 s.calls).rows, Recorded p.sha256 ev := fun ev hev =>
    ⟨history_utc p.sha256 s.calls ev hev, mem_linked hlinked ev hev⟩
  have hnodup : ((history p.sha256 s.calls).rows.map Event.hash).Nodup := by
    have hhashes := (HashChain.hashes_nodup hs.sound hlinked).1
    rwa [List.map_map] at hhashes
  obtain ⟨done, rest, m, hrows, hc, hm, hlog⟩ := h spec
  constructor
  · intro ev hev hle
    rw [hrows] at hev hsorted hpositive
    have hdone : ev ∈ done := by
      rcases List.mem_append.1 hev with hdone | hrest
      · exact hdone
      · have hlt := covers_ahead hc hsorted hpositive ev hrest
        omega
    obtain ⟨i, hi, hget⟩ := List.getElem_of_mem hdone
    have hrow : (history p.sha256 s.calls).rows[i]? = some ev := by
      rw [hrows, List.getElem?_append_left hi, List.getElem?_eq_getElem hi, hget]
    obtain ⟨rec, hrec, hshipped⟩ := hlog.received (Nat.zero_le i) (by omega) hrow
    exact ⟨rec, hrec, isShipped_record (hrecorded ev (List.mem_of_getElem? hrow)) hshipped⟩
  · exact log_accepted hk ⟨hrecorded, hlinked, hnodup, hiso⟩ hlog

theorem kept_step (hmac : S.hmac = p.hmac) (s : ShipSt) (r : Round) (hs : Kept p S s) (hr : ReadsUtc p.sha256 s r) :
    Kept p S (shipStep S s r) := (round_kept hmac hs hr).1

theorem kept_run (hmac : S.hmac = p.hmac) {rounds : List Round} (hs : Kept p S s)
    (h : Along (shipStep S) (ReadsUtc p.sha256) s rounds) : Kept p S (run (shipStep S) s rounds) :=
  run_inv (kept_step hmac) hs h

/-- a run moves no cursor back -/
theorem cursor_run (hmac : S.hmac = p.hmac) {rounds : List Round} (hs : Kept p S s)
    (h : Along (shipStep S) (ReadsUtc p.sha256) s rounds) (spec : String) :
    (s.cursor spec).lastEventId ≤ ((run (shipStep S) s rounds).cursor spec).lastEventId := by
  induction rounds generalizing s with
  | nil => exact le_rfl
  | cons r rounds ih =>
    obtain ⟨hkept, hle, -⟩ := round_kept hmac hs h.1
    exact le_trans (hle spec) (ih hkept h.2)

/-- **Shipping leaves no gap**, in every run of rounds: no cursor moves back, every event up to a cursor was received, the
received log is accepted, and a pass that did not fail and had batches left ends at the last event. -/
theorem shipped_without_gaps (p : Verifier) (S : Shipper) (hs : IdealHash p.sha256) (hk : Genuine p S.key)
    (hmac : S.hmac = p.hmac) (rounds : List Round)
    (hread : Along (shipStep S) (ReadsUtc p.sha256) ShipSt.start rounds)
    (hiso : ∀ ev ∈ (history p.sha256 (run (shipStep S) ShipSt.start rounds).calls).rows,
      p.fromisoformat (.str (String.ofList (asUtc ev.ts).isoformat)) = .ok (asUtc ev.ts)) :
    (∀ before after, rounds = before ++ after → ∀ spec, ((run (shipStep S) ShipSt.start before).cursor spec).lastEventId ≤
      ((run (shipStep S) ShipSt.start rounds).cursor spec).lastEventId) ∧
      (∀ spec, NoGaps p S.site spec (run (shipStep S) ShipSt.start rounds)) ∧
      Along (shipStep S) (CaughtUp S) ShipSt.start rounds := by
  refine ⟨fun before after hrounds spec => ?_, kept_noGaps hs hk (kept_run hmac kept_start hread) hiso, ?_⟩
  · subst hrounds
    obtain ⟨hbefore, hafter⟩ := (along_append _ _ _).1 hread
    rw [run_append]
    exact cursor_run hmac (kept_run hmac kept_start hbefore) hafter spec
  · have hcaught : ∀ s r, Kept p S s → ReadsUtc p.sha256 s r → CaughtUp S s r := fun s r hs hr =>
      (round_kept hmac hs hr).2.2
    exact along_of_inv (kept_step hmac) hcaught kept_start hread

end Rounds

/-! ### A round that fails in the middle of a batch -/

section Examples

def demoShipper : Shipper := ⟨none, hexSigner, "https://pki.example", ["file:/audit.jsonl"], fun _ => "Exception: "⟩

/-- two events; the sink takes the first and fails, and takes both in the next round -/
def failedOnce : List Round :=
  [⟨[startCall, startCall], history hexHash [startCall, startCall], 20, fun _ _ => ⟨1, some "OSError: disk full"⟩, noon⟩,
    ⟨[], history hexHash [startCall, startCall], 20, fun _ _ => ⟨2, none⟩, noon⟩]

theorem readBack_same (t : Trail) : ReadBack t t := List.forall₂_same.2 fun _ _ => ⟨rfl, rfl, rfl, rfl, rfl, rfl, rfl, rfl⟩

theorem history_noon {calls : List Call} (h : ∀ c ∈ calls, c.now = noon) :
    ∀ ev ∈ (history hexHash calls).rows, ev.ts = noon := by
  unfold history
  induction calls using List.reverseRecOn with
  | nil => exact fun ev hev => absurd hev List.not_mem_nil
  | append_singleton calls c ih =>
    rw [List.foldl_append, List.foldl_cons, List.foldl_nil]
    intro ev hev
    rcases List.mem_append.1 hev with hev | hev
    · exact ih (fun c hc => h c (List.mem_append_left _ hc)) ev hev
    · rw [List.mem_singleton.1 hev]
      exact h c (by simp)

/-- the first event is received twice, and the log of three records is accepted -/
theorem redelivered_without_gaps :
    ((run (shipStep demoShipper) ShipSt.start failedOnce).received "file:/audit.jsonl").length = 3 ∧
      (∀ before after, failedOnce = before ++ after → ∀ spec,
        ((run (shipStep demoShipper) ShipSt.start before).cursor spec).lastEventId ≤
          ((run (shipStep demoShipper) ShipSt.start failedOnce).cursor spec).lastEventId) ∧
      (∀ spec, NoGaps hexVerifier "https://pki.example" spec (run (shipStep demoShipper) ShipSt.start failedOnce)) ∧
      Along (shipStep demoShipper) (CaughtUp demoShipper) ShipSt.start failedOnce := by
  have hcalls : ∀ c ∈ [startCall, startCall], c.now = noon := by simp [startCall]
  have hutc : ∀ ev ∈ (history hexHash [startCall, startCall]).rows, UtcRead ev := fun ev hev =>
    Or.inr (by rw [history_noon hcalls ev hev]; rfl)
  refine ⟨by decide +kernel, shipped_without_gaps hexVerifier demoShipper hexHash_ideal hexVerifier_accepts.genuine rfl
    failedOnce ⟨⟨readBack_same _, hutc⟩, ⟨readBack_same _, hutc⟩, trivial⟩ fun ev hev => ?_⟩
  have hnoon : ev.ts = noon := history_noon hcalls ev hev
  rw [hnoon]
  rfl

end Examples

end Certadillo.Audit
