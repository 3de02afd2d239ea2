/-
Anchors of the audit chain: `make_anchor` and `verify_against_anchors` of `audit/log.py`.

An anchor is a JSON object. `hmac` is `mac_hex` under the seal key, `none` without one; `other` is what `session.get` gives
for an `event_id` that is no integer.

- `makeAnchor_verifies`: an anchor verifies against the trail it was made from.
- `anchored_unchanged`: what anchors cover cannot be rewritten. If a trail of any content is accepted with anchors taken
  from a history, its rows up to each anchored event are those of the history.
- `anchors_authentic_iff`: the anchors of an accepted list are all genuine iff each has a MAC and no key of its own.
  An anchor without a MAC is never checked: `invented_accepted`.

Premise of `anchors_authentic_iff`: a MAC that verifies is of a text the platform took the MAC of (`Maced`).
-/
import Certadillo.Audit.Log
import Certadillo.Py
import Certadillo.Lib.Tx

namespace Certadillo.Audit

open JsonText Datetime

/-! ## Objects -/

abbrev Object := List (String × Value)

/-- `a[k]` -/
def Object.field (a : Object) (k : String) : Except Err Value :=
  match a.lookup k with
  | some v => .ok v
  | none => .error (.key k)

/-- `a.get(k)` -/
def Object.get (a : Object) (k : String) : Value := (a.lookup k).getD .null

/-- `{k: a[k] for k in keys}` -/
def Object.pick (a : Object) : List String → Except Err Object
  | [] => .ok []
  | k :: ks => do
    let v ← a.field k
    let rest ← Object.pick a ks
    pure ((k, v) :: rest)

/-- `bool(v)` -/
def truthy : Value → Bool
  | .null => false
  | .bool b => b
  | .int n => n ≠ 0
  | .float f => f.text ≠ "0.0".toList && f.text ≠ "-0.0".toList
  | .str s => s ≠ ""
  | .arr xs => !xs.isEmpty
  | .obj kvs => !kvs.isEmpty

/-- `v == s` for a text `s` -/
def isStr (v : Value) (s : String) : Bool :=
  match v with
  | .str t => t = s
  | _ => false

/-! ## Anchors -/

/-- the keys of `_canonical_anchor` -/
def anchorKeys : List String := ["event_id", "hash", "events", "anchored_at", "instance"]

/-- `_canonical_anchor` -/
def canonicalAnchor (a : Object) : Except Err Text := do
  let body ← a.pick anchorKeys
  pure (dumps (.obj body))

/-- `integrity.mac_hex` -/
def macHex (hmac : Option (Text → String)) (data : Text) : Value :=
  match hmac with
  | none => .null
  | some f => .str (f data)

def headIdValue : Option ℤ → Value
  | none => .null
  | some n => .int n

/-- `make_anchor`; `anchoredAt` is the clock's text -/
def makeAnchor (sha256 : Text → String) (hmac : Option (Text → String)) (anchoredAt site : String) (t : Trail) :
    Except Err (Option Object) :=
  match verifyChain sha256 t with
  | .broken _ _ => .ok none
  | .valid events head headId =>
    if events = 0 then .ok none
    else do
      let anchor : Object := [("event_id", headIdValue headId), ("hash", .str head), ("events", .int events),
        ("anchored_at", .str anchoredAt), ("instance", .str site)]
      let text ← canonicalAnchor anchor
      pure (some (anchor ++ [("mac", macHex hmac text)]))

/-- `session.get(AuditEvent, event_id)` -/
def sessionGet (other : Value → Except Err (Option Event)) (t : Trail) : Value → Except Err (Option Event)
  | .int n => .ok (t.rows.find? fun e => e.id = n)
  | v => other v

/-- an entry of `mismatches`: `event_id` and `problem` -/
structure Mismatch where
  eventId : Value
  problem : String

/-- the check of an anchor's MAC; an anchor without one is let through -/
def macForged (hmac : Option (Text → String)) (checkMac : Bool) (a : Object) : Except Err Bool :=
  if checkMac && truthy (a.get "mac") then do
    let text ← canonicalAnchor a
    let mac ← a.field "mac"
    -- without a key `mac_hex` gives None, which no truthy MAC equals
    match hmac with
    | none => pure true
    | some f => pure !(isStr mac (f text))
  else pure false

/-- the loop of `verify_against_anchors` -/
def checkAnchor (hmac : Option (Text → String)) (other : Value → Except Err (Option Event)) (t : Trail) (checkMac : Bool)
    (a : Object) : Except Err (Option Mismatch) := do
  if ← macForged hmac checkMac a then pure (some ⟨a.get "event_id", "anchor MAC does not verify"⟩)
  else do
    let eventId ← a.field "event_id"
    match ← sessionGet other t eventId with
    | none => pure (some ⟨eventId, "anchored event no longer exists"⟩)
    | some ev => do
      let hash ← a.field "hash"
      pure (if isStr hash ev.hash then none else some ⟨eventId, "event hash differs from the anchor"⟩)

/-- what `verify_against_anchors` returns -/
structure AnchorReport where
  valid : Bool
  chainValid : Bool
  anchorsChecked : ℕ
  mismatches : List Mismatch

/-- `verify_against_anchors` -/
def verifyAgainstAnchors (sha256 : Text → String) (hmac : Option (Text → String))
    (other : Value → Except Err (Option Event)) (t : Trail) (anchors : List Object) (checkMac : Bool) :
    Except Err AnchorReport := do
  let chain := verifyChain sha256 t
  let checked ← anchors.mapM (checkAnchor hmac other t checkMac)
  let mismatches := checked.filterMap id
  pure ⟨chain.isValid && mismatches.isEmpty, chain.isValid, anchors.length, mismatches⟩

/-! ## What the functions say -/

theorem isStr_iff {v : Value} {s : String} : isStr v s = true ↔ v = .str s := by
  cases v <;> simp [isStr]

theorem field_ok {a : Object} {k : String} {v : Value} : a.field k = .ok v ↔ a.lookup k = some v := by
  unfold Object.field
  cases a.lookup k <;> simp

/-- **A trail is accepted iff it is a chain and every anchor passes.** -/
theorem verify_valid_iff {sha256 : Text → String} {hmac : Option (Text → String)}
    {other : Value → Except Err (Option Event)} {t : Trail} {anchors : List Object} {checkMac : Bool} :
    (∃ rep, verifyAgainstAnchors sha256 hmac other t anchors checkMac = .ok rep ∧ rep.valid = true) ↔
      (verifyChain sha256 t).isValid = true ∧ ∀ a ∈ anchors, checkAnchor hmac other t checkMac a = .ok none := by
  constructor
  · rintro ⟨rep, h, hv⟩
    obtain ⟨checked, hchecked, h⟩ := except_bind_ok.1 h
    cases h
    simp only [Bool.and_eq_true, List.isEmpty_iff, List.filterMap_eq_nil_iff, id_eq] at hv
    refine ⟨hv.1, fun a ha => ?_⟩
    obtain ⟨found, hfound⟩ := except_mapM_returns.1 ⟨checked, hchecked⟩ a ha
    rw [hfound, hv.2 found ((except_mapM_mem hchecked).2 ⟨a, ha, hfound⟩)]
  · rintro ⟨hchain, hpass⟩
    obtain ⟨checked, hchecked⟩ := except_mapM_returns.2 fun a ha => ⟨none, hpass a ha⟩
    refine ⟨_, except_bind_ok.2 ⟨checked, hchecked, rfl⟩, ?_⟩
    simp only [Bool.and_eq_true, List.isEmpty_iff, List.filterMap_eq_nil_iff, id_eq]
    refine ⟨hchain, fun found hfound => ?_⟩
    obtain ⟨a, ha, hcheck⟩ := (except_mapM_mem hchecked).1 hfound
    rw [hpass a ha] at hcheck
    exact (Except.ok.inj hcheck).symm

/-- an anchor that passes names a row and its hash -/
theorem checkAnchor_none {hmac : Option (Text → String)} {other : Value → Except Err (Option Event)} {t : Trail}
    {checkMac : Bool} {a : Object} (h : checkAnchor hmac other t checkMac a = .ok none) :
    ∃ eventId ev, a.lookup "event_id" = some eventId ∧ sessionGet other t eventId = .ok (some ev) ∧
      a.lookup "hash" = some (.str ev.hash) := by
  obtain ⟨forged, -, h⟩ := except_bind_ok.1 h
  split at h
  · cases h
  · obtain ⟨eventId, hid, h⟩ := except_bind_ok.1 h
    obtain ⟨found, hget, h⟩ := except_bind_ok.1 h
    cases found with
    | none => cases h
    | some ev =>
      obtain ⟨hash, hhash, h⟩ := except_bind_ok.1 h
      refine ⟨eventId, ev, field_ok.1 hid, hget, ?_⟩
      split at h
      · next hstr => rw [field_ok.1 hhash, isStr_iff.1 hstr]
      · cases h

/-- an anchor that passes with a MAC has the MAC of its text -/
theorem checkAnchor_mac {hmac : Text → String} {other : Value → Except Err (Option Event)} {t : Trail} {a : Object}
    (h : checkAnchor (some hmac) other t true a = .ok none) (hmacked : truthy (a.get "mac") = true) :
    ∃ text, canonicalAnchor a = .ok text ∧ a.lookup "mac" = some (.str (hmac text)) := by
  obtain ⟨forged, hforged, h⟩ := except_bind_ok.1 h
  unfold macForged at hforged
  rw [hmacked] at hforged
  obtain ⟨text, htext, hforged⟩ := except_bind_ok.1 hforged
  obtain ⟨mac, hmac', hforged⟩ := except_bind_ok.1 hforged
  cases hforged
  refine ⟨text, htext, ?_⟩
  split at h
  · cases h
  · next hstr =>
    simp only [Bool.not_eq_true', Bool.not_eq_false] at hstr
    rw [field_ok.1 hmac', isStr_iff.1 hstr]

/-- an anchor's entries: the last row of a valid chain, and the MAC of their text -/
structure MadeFrom (sha256 : Text → String) (hmac : Option (Text → String)) (t : Trail) (rows : List Event) (ev : Event)
    (a : Object) : Prop where
  rows : t.rows = rows ++ [ev]
  valid : (verifyChain sha256 t).isValid = true
  entries : ∃ anchoredAt site text, canonicalAnchor a = .ok text ∧
    a = [("event_id", .int ev.id), ("hash", .str ev.hash), ("events", .int t.rows.length), ("anchored_at", .str anchoredAt),
      ("instance", .str site), ("mac", macHex hmac text)]

theorem canonicalAnchor_six {v₁ v₂ v₃ v₄ v₅ : Value} (rest : Object) :
    canonicalAnchor ([("event_id", v₁), ("hash", v₂), ("events", v₃), ("anchored_at", v₄), ("instance", v₅)] ++ rest) =
      .ok (dumps (.obj [("event_id", v₁), ("hash", v₂), ("events", v₃), ("anchored_at", v₄), ("instance", v₅)])) := rfl

/-- a valid chain with an event has an anchor -/
theorem makeAnchor_chain (sha256 : Text → String) (hmac : Option (Text → String)) (anchoredAt site : String) {t : Trail}
    (h : (verifyChain sha256 t).isValid = true) (hne : t.rows ≠ []) :
    ∃ a, makeAnchor sha256 hmac anchoredAt site t = .ok (some a) := by
  unfold makeAnchor
  split
  · next hbroken =>
    rw [hbroken] at h
    cases h
  · next events head headId hvalid =>
    obtain ⟨hevents, -, -⟩ := verifyFrom_valid hvalid
    have hpos := List.length_pos_iff.2 hne
    rw [if_neg (by omega)]
    exact ⟨_, rfl⟩

theorem makeAnchor_some {sha256 : Text → String} {hmac : Option (Text → String)} {anchoredAt site : String} {t : Trail}
    {a : Object} (h : makeAnchor sha256 hmac anchoredAt site t = .ok (some a)) :
    ∃ rows ev, MadeFrom sha256 hmac t rows ev a := by
  unfold makeAnchor at h
  split at h
  · cases h
  · next events head headId hvalid =>
    obtain ⟨hevents, hhead, hid⟩ := verifyFrom_valid hvalid
    have hisValid : (verifyChain sha256 t).isValid = true := by rw [hvalid]; rfl
    split at h
    · cases h
    · next hne =>
      rcases List.eq_nil_or_concat t.rows with hnil | ⟨rows, ev, hrows⟩
      · rw [hnil, List.length_nil] at hevents
        exact absurd hevents hne
      · rw [List.concat_eq_append] at hrows
        rw [hrows, List.map_append, List.map_singleton, HashChain.head_snoc] at hhead
        rw [hrows, List.getLast?_concat] at hid
        cases h
        refine ⟨rows, ev, hrows, hisValid, anchoredAt, site, _, canonicalAnchor_six _, ?_⟩
        subst hhead hid
        rw [hevents]
        simp [headIdValue, Event.link]

/-- the row under an id -/
theorem find_id {t : Trail} {rows rest : List Event} {e : Event} (h : t.rows = rows ++ e :: rest) :
    (t.rows.find? fun f => f.id = e.id) = some e := by
  have hsorted := t.sorted
  rw [h, List.map_append, List.pairwise_append] at hsorted
  rw [h, List.find?_append, List.find?_eq_none.2, Option.none_or, List.find?_cons_of_pos (by simp)]
  intro f hf
  have hlt := hsorted.2.2 f.id (List.mem_map_of_mem hf) e.id (by simp)
  simp only [decide_eq_true_eq]
  omega

/-- **An anchor verifies against the trail it was made from.** -/
theorem makeAnchor_verifies {sha256 : Text → String} {hmac : Option (Text → String)} {t : Trail} {rows : List Event}
    {ev : Event} {a : Object} (other : Value → Except Err (Option Event)) (checkMac : Bool)
    (h : MadeFrom sha256 hmac t rows ev a) : checkAnchor hmac other t checkMac a = .ok none := by
  obtain ⟨hrows, -, anchoredAt, site, text, htext, ha⟩ := h
  have hmacField : a.field "mac" = .ok (macHex hmac text) := field_ok.2 (by rw [ha]; rfl)
  have hmac' : macForged hmac checkMac a = .ok false := by
    unfold macForged
    split
    · next hcheck =>
      rw [htext, except_ok_bind, hmacField, except_ok_bind]
      cases hmac with
      | none =>
        rw [ha] at hcheck
        simp [Object.get, List.lookup_cons, macHex, truthy] at hcheck
      | some f => simp [macHex, isStr]
    · rfl
  have hid : a.field "event_id" = .ok (.int ev.id) := field_ok.2 (by rw [ha]; rfl)
  have hhash : a.field "hash" = .ok (.str ev.hash) := field_ok.2 (by rw [ha]; rfl)
  have hget : sessionGet other t (.int ev.id) = .ok (some ev) := congrArg _ (find_id hrows)
  unfold checkAnchor
  rw [hmac', except_ok_bind, hid]
  simp only [Bool.false_eq_true, if_false, except_ok_bind, hget, hhash]
  rw [isStr_iff.2 rfl]
  rfl

/-! ## Anchored history -/

/-- the rows up to an id -/
def Trail.upTo (t : Trail) (n : ℤ) : List Event := t.rows.filter fun e => e.id ≤ n

theorem upTo_cut {t : Trail} {rows rest : List Event} {e : Event} (h : t.rows = rows ++ e :: rest) :
    t.upTo e.id = rows ++ [e] := by
  have hsorted := t.sorted
  rw [h, List.map_append, List.pairwise_append, List.map_cons, List.pairwise_cons] at hsorted
  obtain ⟨-, ⟨hafter, -⟩, hbefore⟩ := hsorted
  unfold Trail.upTo
  rw [h, List.filter_append, List.filter_cons_of_pos (by simp), List.filter_eq_self.2, List.filter_eq_nil_iff.2]
  · intro f hf
    have hlt := hafter f.id (List.mem_map_of_mem hf)
    simp only [decide_eq_true_eq]
    omega
  · intro f hf
    have hlt := hbefore f.id (List.mem_map_of_mem hf) e.id (by simp)
    simp only [decide_eq_true_eq]
    omega

/-- later calls only add rows -/
theorem history_take (sha256 : Text → String) (calls : List Call) (k : ℕ) :
    (history sha256 (calls.take k)).rows <+: (history sha256 calls).rows := by
  have hfold : ∀ (calls : List Call) (t : Trail), t.rows <+: (calls.foldl (record sha256) t).rows := by
    intro calls
    induction calls with
    | nil => exact fun t => List.prefix_refl _
    | cons c calls ih => exact fun t => (List.prefix_append _ _).trans (ih (record sha256 t c))
  have hcalls : history sha256 calls = (calls.drop k).foldl (record sha256) (history sha256 (calls.take k)) := by
    unfold history
    rw [← List.foldl_append, List.take_append_drop]
  rw [hcalls]
  exact hfold _ _

/-- an anchor made, at some point of a history, from the rows as they were read then -/
def Taken (sha256 : Text → String) (calls : List Call) (a : Object) : Prop :=
  ∃ k read hmac anchoredAt site, ReadBack (history sha256 (calls.take k)) read ∧
    makeAnchor sha256 hmac anchoredAt site read = .ok (some a)

theorem SameContent.symm {e e' : Event} (h : SameContent e e') : SameContent e' e :=
  ⟨h.ts.symm, h.actor.symm, h.action.symm, h.target.symm, h.details.symm⟩

theorem SameContent.trans {e e' e'' : Event} (h : SameContent e e') (h' : SameContent e' e'') : SameContent e e'' :=
  ⟨h.ts.trans h'.ts, h.actor.trans h'.actor, h.action.trans h'.action, h.target.trans h'.target,
    h.details.trans h'.details⟩

theorem sameContent_trans {xs ys zs : List Event} (h : List.Forall₂ SameContent xs ys)
    (h' : List.Forall₂ SameContent ys zs) : List.Forall₂ SameContent xs zs := by
  induction h generalizing zs with
  | nil => exact h'
  | cons hx _ ih =>
    cases h' with
    | cons hy hys => exact List.Forall₂.cons (hx.trans hy) (ih hys)

theorem forall₂_snoc {α β : Type} {R : α → β → Prop} {xs : List α} {ys : List β} {y : β}
    (h : List.Forall₂ R xs (ys ++ [y])) : ∃ xs' x, xs = xs' ++ [x] ∧ List.Forall₂ R xs' ys ∧ R x y := by
  induction ys generalizing xs with
  | nil =>
    cases h with
    | cons hx hxs =>
      cases hxs
      exact ⟨[], _, rfl, List.Forall₂.nil, hx⟩
  | cons z ys ih =>
    cases h with
    | cons hx hxs =>
      obtain ⟨xs', x, rfl, hxs', hlast⟩ := ih hxs
      exact ⟨_ :: xs', x, rfl, List.Forall₂.cons hx hxs', hlast⟩

/-- rows read back with their times have the content of the rows stored -/
theorem content_of_read {stored read : List Event} (h : List.Forall₂ SameRow stored read)
    (hutc : ∀ e ∈ stored, e.ts.tz = some Offset.utc) (hread : ∀ e ∈ read, UtcRead e) :
    List.Forall₂ SameContent stored read := by
  induction h with
  | nil => exact List.Forall₂.nil
  | @cons e e' stored read hrow _ ih =>
    have hcontent := (sameContent_iff hrow (hutc e List.mem_cons_self)).2 (hread e' List.mem_cons_self)
    exact List.Forall₂.cons hcontent.symm (ih (fun f hf => hutc f (List.mem_cons_of_mem _ hf))
      fun f hf => hread f (List.mem_cons_of_mem _ hf))

/-- what an anchor taken from a history names: a row of it, by the id and the hash the row had -/
theorem taken_row {sha256 : Text → String} (hs : IdealHash sha256) {calls : List Call} {a : Object}
    (h : Taken sha256 calls a) : ∃ rows ev, a.lookup "event_id" = some (.int ev.id) ∧
      a.lookup "hash" = some (.str ev.hash) ∧
      HashChain.Linked (dig sha256) GENESIS ((rows ++ [ev]).map Event.link) ∧
      List.Forall₂ SameContent ((history sha256 calls).upTo ev.id) (rows ++ [ev]) := by
  obtain ⟨k, read, hmac, anchoredAt, site, hread, hmake⟩ := h
  obtain ⟨rows, ev, hrows, hvalid, _, _, _, -, ha⟩ := makeAnchor_some hmake
  rw [verifyChain_valid_iff] at hvalid
  have hutc := history_utc sha256 (calls.take k)
  have htimes := (linked_read hread hutc (history_linked sha256 (calls.take k))).2 hs.injective hvalid
  have hcontent := content_of_read hread hutc htimes
  -- the row stored under the anchor's id is the last of the first `k` calls
  rw [ReadBack, hrows] at hread
  obtain ⟨stored, last, hstored, -, hlast⟩ := forall₂_snoc hread
  obtain ⟨rest, hrest⟩ := history_take sha256 calls k
  rw [hstored, List.append_assoc, List.singleton_append] at hrest
  have hcut := upTo_cut hrest.symm
  rw [hrows] at hvalid hcontent
  rw [hstored] at hcontent
  refine ⟨rows, ev, by rw [ha]; rfl, by rw [ha]; rfl, hvalid, ?_⟩
  rw [hlast.id, hcut]
  exact hcontent

/-- **Anchored history cannot be rewritten.** Whatever a trail holds, if it is accepted with anchors taken from a history,
its rows up to each anchored event are those of the history in number, order and content. -/
theorem anchored_unchanged {sha256 : Text → String} (hs : IdealHash sha256) (calls : List Call) (t : Trail)
    (anchors : List Object) (hmac : Option (Text → String)) (other : Value → Except Err (Option Event)) (checkMac : Bool)
    (htaken : ∀ a ∈ anchors, Taken sha256 calls a)
    (h : ∃ rep, verifyAgainstAnchors sha256 hmac other t anchors checkMac = .ok rep ∧ rep.valid = true) :
    ∀ a ∈ anchors, ∃ n, a.lookup "event_id" = some (.int n) ∧
      List.Forall₂ SameContent ((history sha256 calls).upTo n) (t.upTo n) := by
  obtain ⟨hchain, hpass⟩ := verify_valid_iff.1 h
  rw [verifyChain_valid_iff] at hchain
  intro a ha
  obtain ⟨rows, ev, hid, hhash, hlinked, hcontent⟩ := taken_row hs (htaken a ha)
  obtain ⟨eventId, found, hid', hget, hhash'⟩ := checkAnchor_none (hpass a ha)
  rw [hid] at hid'
  obtain rfl := Option.some.inj hid'
  -- the trail's row under that id has the anchored hash
  have hfind : (t.rows.find? fun e => e.id = ev.id) = some found := Except.ok.inj hget
  have hfoundId : found.id = ev.id := by simpa using List.find?_some hfind
  obtain ⟨before, after, hcut⟩ := List.append_of_mem (List.mem_of_find?_eq_some hfind)
  have hfoundHash : ev.hash = found.hash := by
    rw [hhash] at hhash'
    simpa using hhash'
  have hlinked' : HashChain.Linked (dig sha256) GENESIS ((before ++ [found]).map Event.link) := by
    rw [hcut, ← List.singleton_append, ← List.append_assoc, List.map_append] at hchain
    exact (HashChain.linked_append.1 hchain).1
  have hsame := same_content hs hlinked hlinked' (by
    rw [List.map_append, List.map_append, List.map_singleton, List.map_singleton, HashChain.head_snoc,
      HashChain.head_snoc]
    exact hfoundHash)
  refine ⟨ev.id, hid, ?_⟩
  have hupTo := upTo_cut hcut
  rw [hfoundId] at hupTo
  rw [hupTo]
  exact sameContent_trans hcontent hsame

/-- a trail of one event, accepted with the anchor taken from it -/
theorem startTrail_anchored : ∃ a, Taken hexHash [startCall] a ∧ ∃ n, a.lookup "event_id" = some (.int n) ∧
    List.Forall₂ SameContent (startTrail.upTo n) (startTrail.upTo n) := by
  obtain ⟨a, ha⟩ := makeAnchor_chain hexHash (some hexHash) "2024-01-01T12:00:00+00:00" "https://pki.example"
    (verifyChain_valid_iff.2 (history_linked hexHash [startCall])) (List.cons_ne_nil _ _)
  obtain ⟨rows, ev, hmade⟩ := makeAnchor_some ha
  have htaken : Taken hexHash [startCall] a := ⟨1, startTrail, _, _, _, startTrail_read rfl, ha⟩
  have haccepted := verify_valid_iff.2 ⟨hmade.valid, fun b (hb : b ∈ [a]) =>
    List.mem_singleton.1 hb ▸ makeAnchor_verifies (fun _ => .ok none) true hmade⟩
  exact ⟨a, htaken, anchored_unchanged hexHash_ideal [startCall] startTrail [a] _ _ true
    (fun b hb => List.mem_singleton.1 hb ▸ htaken) haccepted a (List.mem_singleton_self a)⟩

/-! ## Genuine anchors -/

/-- an anchor `make_anchor` gave under the key -/
def Made (sha256 hmac : Text → String) (a : Object) : Prop :=
  ∃ anchoredAt site t, makeAnchor sha256 (some hmac) anchoredAt site t = .ok (some a)

/-- the keys of a shipped record's text -/
def recordKeys : List String := ["id", "ts", "actor", "action", "target", "details", "prev_hash", "hash", "instance"]

/-- the texts the platform takes a MAC of: its anchors, the records it ships, the rows it seals (under `k`, their kind),
and the empty text -/
inductive Maced (made : Object → Prop) : Text → Prop
  | anchor (a : Object) (text : Text) (h : made a) (htext : canonicalAnchor a = .ok text) : Maced made text
  | record (kvs : Object) (h : kvs.map Prod.fst = recordKeys) : Maced made (dumps (.obj kvs))
  | row (kvs : Object) (h : "k" ∈ kvs.map Prod.fst) : Maced made (dumps (.obj kvs))
  | probe : Maced made []

theorem lookup_none {kvs : Object} {k : String} : kvs.lookup k = none ↔ k ∉ kvs.map Prod.fst := by
  rw [List.lookup_eq_none_iff]
  simp only [List.mem_map, not_exists, not_and, bne_iff_ne, ne_eq]
  exact ⟨fun h p hp e => h p hp e.symm, fun h p hp e => h p hp e.symm⟩

/-- objects of one text have the same keys -/
theorem dumps_keys {kvs kvs' : Object} (h : dumps (.obj kvs) = dumps (.obj kvs')) {k : String} :
    k ∈ kvs.map Prod.fst ↔ k ∈ kvs'.map Prod.fst := by
  have hlookup := canon_lookup (dumps_eq_iff.1 h) k
  rw [← not_iff_not, ← lookup_none, ← lookup_none, ← Option.map_eq_none_iff, hlookup, Option.map_eq_none_iff]

/-- the entries picked are those of the object -/
theorem pick_ok {a : Object} {ks : List String} {body : Object} (h : a.pick ks = .ok body) :
    body.map Prod.fst = ks ∧ ∀ k ∈ ks, a.lookup k = body.lookup k := by
  induction ks generalizing body with
  | nil =>
    cases h
    exact ⟨rfl, fun k hk => absurd hk List.not_mem_nil⟩
  | cons k ks ih =>
    obtain ⟨v, hv, h⟩ := except_bind_ok.1 h
    obtain ⟨rest, hrest, h⟩ := except_bind_ok.1 h
    cases h
    obtain ⟨hkeys, hlookup⟩ := ih hrest
    refine ⟨by rw [List.map_cons, hkeys], fun j hj => ?_⟩
    rw [List.lookup_cons]
    by_cases hjk : j = k
    · subst hjk
      rw [beq_self_eq_true]
      exact field_ok.1 hv
    · rw [beq_eq_false_iff_ne.2 hjk]
      exact hlookup j (List.mem_of_ne_of_mem hjk hj)

theorem canonicalAnchor_ok {a : Object} {text : Text} (h : canonicalAnchor a = .ok text) :
    ∃ body, text = dumps (.obj body) ∧ body.map Prod.fst = anchorKeys ∧ ∀ k ∈ anchorKeys, a.lookup k = body.lookup k := by
  obtain ⟨body, hbody, h⟩ := except_bind_ok.1 h
  cases h
  exact ⟨body, rfl, pick_ok hbody⟩

/-- no other text the platform takes a MAC of is that of an anchor -/
theorem maced_anchor {made : Object → Prop} {a : Object} {text : Text} (h : canonicalAnchor a = .ok text)
    (hmaced : Maced made text) : ∃ x, made x ∧ canonicalAnchor x = .ok text := by
  obtain ⟨body, hbody, hkeys, -⟩ := canonicalAnchor_ok h
  cases hmaced with
  | anchor x _ hx htext => exact ⟨x, hx, htext⟩
  | record kvs hkvs =>
    have hkey := dumps_keys hbody (k := "prev_hash")
    rw [hkvs, hkeys] at hkey
    exact absurd (hkey.1 (by decide)) (by decide)
  | row kvs hkvs =>
    have hkey := (dumps_keys hbody).1 hkvs
    rw [hkeys] at hkey
    exact absurd hkey (by decide)
  | probe =>
    obtain ⟨u, hu⟩ := dumps_obj_brace body
    rw [hu] at hbody
    cases hbody

/-- anchors of one text have the same five entries, up to the order of keys inside them -/
theorem anchors_entries {a x : Object} {text : Text} (ha : canonicalAnchor a = .ok text) (hx : canonicalAnchor x = .ok text)
    {k : String} (hk : k ∈ anchorKeys) : (a.lookup k).map canon = (x.lookup k).map canon := by
  obtain ⟨body, hbody, -, hlookup⟩ := canonicalAnchor_ok ha
  obtain ⟨body', hbody', -, hlookup'⟩ := canonicalAnchor_ok hx
  rw [hlookup k hk, hlookup' k hk]
  exact canon_lookup (dumps_eq_iff.1 (hbody.symm.trans hbody')) k

/-- a number or a text -/
def Plain : Value → Prop
  | .int _ => True
  | .str _ => True
  | _ => False

theorem plain_canon {v w : Value} (hw : Plain w) (h : canon v = canon w) : v = w := by
  cases w with
  | int n => cases v <;> simp_all [canon]
  | str s => cases v <;> simp_all [canon]
  | _ => exact hw.elim

/-- what `make_anchor` gives: numbers and texts under the six keys -/
theorem made_entries {sha256 hmac : Text → String} {x : Object} (h : Made sha256 hmac x) :
    ∃ text, canonicalAnchor x = .ok text ∧ x.lookup "mac" = some (.str (hmac text)) ∧
      x.map Prod.fst = anchorKeys ++ ["mac"] ∧ ∀ k v, x.lookup k = some v → Plain v := by
  obtain ⟨anchoredAt, site, t, hmake⟩ := h
  obtain ⟨rows, ev, -, -, _, _, text, htext, hx⟩ := makeAnchor_some hmake
  refine ⟨text, htext, by rw [hx]; rfl, by rw [hx]; rfl, ?_⟩
  have hall : ∀ p ∈ x, Plain p.2 := by
    rw [hx]
    simp [Plain, macHex]
  intro k v hk
  obtain ⟨l, l', hl, -⟩ := List.lookup_eq_some_iff.1 hk
  exact hall (k, v) (by rw [hl]; simp)

/-- **The anchors of an accepted list are all genuine iff each has a MAC and no key of its own.** -/
theorem anchors_authentic_iff (sha256 hmac : Text → String) (hne : ∀ text, hmac text ≠ "") (made : Object → Prop)
    (hmade : ∀ a, made a → Made sha256 hmac a) (other : Value → Except Err (Option Event)) (t : Trail)
    (anchors : List Object)
    (hforge : ∀ a ∈ anchors, ∀ text, canonicalAnchor a = .ok text → a.lookup "mac" = some (.str (hmac text)) →
      Maced made text)
    (h : ∃ rep, verifyAgainstAnchors sha256 (some hmac) other t anchors true = .ok rep ∧ rep.valid = true) :
    (∀ a ∈ anchors, ∃ x, made x ∧ ∀ k, a.lookup k = x.lookup k) ↔
      ∀ a ∈ anchors, truthy (a.get "mac") = true ∧ ∀ k ∈ a.map Prod.fst, k ∈ anchorKeys ++ ["mac"] := by
  obtain ⟨-, hpass⟩ := verify_valid_iff.1 h
  constructor
  · intro hgenuine a ha
    obtain ⟨x, hx, hlookup⟩ := hgenuine a ha
    obtain ⟨text, -, hmac', hkeys, -⟩ := made_entries (hmade x hx)
    constructor
    · rw [Object.get, hlookup, hmac']
      simpa [truthy] using hne text
    · intro k hk
      rw [← hkeys]
      by_contra hnone
      rw [← lookup_none, ← hlookup, lookup_none] at hnone
      exact hnone hk
  · intro hcond a ha
    obtain ⟨hmacked, hkeys⟩ := hcond a ha
    obtain ⟨text, htext, hmac'⟩ := checkAnchor_mac (hpass a ha) hmacked
    obtain ⟨x, hx, htext'⟩ := maced_anchor htext (hforge a ha text htext hmac')
    obtain ⟨text', htext'', hmac'', hkeys', hplain⟩ := made_entries (hmade x hx)
    have hsame : text' = text := Except.ok.inj (htext''.symm.trans htext')
    rw [hsame] at hmac''
    refine ⟨x, hx, fun k => ?_⟩
    by_cases hk : k ∈ anchorKeys ++ ["mac"]
    · rcases List.mem_append.1 hk with hk | hk
      · have hcanon := anchors_entries htext htext' hk
        have hkx : k ∈ x.map Prod.fst := by rw [hkeys']; exact List.mem_append_left _ hk
        obtain ⟨w, hw⟩ := Option.ne_none_iff_exists'.1 fun hnone => lookup_none.1 hnone hkx
        rw [hw, Option.map_some, Option.map_eq_some_iff] at hcanon
        obtain ⟨v, hv, hvw⟩ := hcanon
        rw [hv, hw, plain_canon (hplain k w hw) hvw]
      · rw [List.mem_singleton.1 hk, hmac', hmac'']
    · have hka : a.lookup k = none := lookup_none.2 fun hka => hk (hkeys k hka)
      have hkx : x.lookup k = none := lookup_none.2 (by rw [hkeys']; exact hk)
      rw [hka, hkx]

theorem hexHash_ne_empty (text : Text) : hexHash text ≠ "" := by
  intro h
  have hlist : (hexHash text).toList = [] := by rw [h]; rfl
  rw [hexHash, String.toList_ofList] at hlist
  cases hlist

/-- the anchor of a trail of one event is genuine: it has a MAC and its six keys -/
theorem startAnchor_authentic : ∃ a, Made hexHash hexHash a ∧
    ((∀ b ∈ [a], ∃ x, x = a ∧ ∀ k, b.lookup k = x.lookup k) ↔
      ∀ b ∈ [a], truthy (b.get "mac") = true ∧ ∀ k ∈ b.map Prod.fst, k ∈ anchorKeys ++ ["mac"]) := by
  obtain ⟨a, ha⟩ := makeAnchor_chain hexHash (some hexHash) "2024-01-01T12:00:00+00:00" "https://pki.example"
    (verifyChain_valid_iff.2 (history_linked hexHash [startCall])) (List.cons_ne_nil _ _)
  obtain ⟨rows, ev, hentries⟩ := makeAnchor_some ha
  have hmade : Made hexHash hexHash a := ⟨_, _, startTrail, ha⟩
  have haccepted := verify_valid_iff.2 ⟨hentries.valid, fun b (hb : b ∈ [a]) =>
    List.mem_singleton.1 hb ▸ makeAnchor_verifies (fun _ => .ok none) true hentries⟩
  have hforge : ∀ b ∈ [a], ∀ text, canonicalAnchor b = .ok text → b.lookup "mac" = some (.str (hexHash text)) →
      Maced (· = a) text := by
    intro b hb text htext _
    exact Maced.anchor b text (List.mem_singleton.1 hb) htext
  exact ⟨a, hmade, anchors_authentic_iff hexHash hexHash hexHash_ne_empty (· = a) (fun b hb => hb ▸ hmade) _ startTrail
    [a] hforge haccepted⟩

/-- an anchor without a MAC, for the one row of `startTrail` -/
def invented : Object := [("event_id", .int 1), ("hash", .str (newEvent hexHash Trail.empty startCall).hash)]

/-- an invented anchor is accepted; `make_anchor` never gave it -/
theorem invented_accepted : invented.lookup "mac" = none ∧
    (∃ rep, verifyAgainstAnchors hexHash (some hexHash) (fun _ => .ok none) startTrail [invented] true = .ok rep ∧
      rep.valid = true) ∧
    ¬ ∃ x, Made hexHash hexHash x ∧ ∀ k, invented.lookup k = x.lookup k := by
  refine ⟨rfl, verify_valid_iff.2 ⟨verifyChain_valid_iff.2 (history_linked hexHash [startCall]), ?_⟩, ?_⟩
  · intro a ha
    rw [List.mem_singleton.1 ha]
    have hget : sessionGet (fun _ => .ok none) startTrail (.int 1) = .ok (some (newEvent hexHash Trail.empty startCall)) := by
      have hrows : startTrail.rows = [] ++ newEvent hexHash Trail.empty startCall :: [] := rfl
      exact congrArg Except.ok (find_id hrows)
    have hid : invented.field "event_id" = .ok (.int 1) := rfl
    have hhash : invented.field "hash" = .ok (.str (newEvent hexHash Trail.empty startCall).hash) := rfl
    unfold checkAnchor
    rw [show macForged (some hexHash) true invented = .ok false from rfl, except_ok_bind, hid]
    simp only [Bool.false_eq_true, if_false, except_ok_bind, hget, hhash]
    rw [isStr_iff.2 rfl]
    rfl
  · rintro ⟨x, hx, hlookup⟩
    obtain ⟨text, -, hmac', -, -⟩ := made_entries hx
    rw [← hlookup] at hmac'
    cases hmac'

end Certadillo.Audit
