/-
Rotation of the seal key (`reseal_all`) and the sealing of existing rows at the start (`backfill`).

Both loop over every sealed table and assign `obj.seal`; the flush that writes the rows runs the hook on each of them.
The hook refuses to reseal a tampered row, but what it leaves alone then is the seal the loop has just assigned. Only
`reseal_all` checks a row before it assigns. `hmac.compare_digest` raises on a seal that is not ASCII, and its callers
roll back.

- `start_enforces`: a process that has started enforces seals, whatever its marker file held.
- `reseal_forall`, `reseal_again`: what a rotation does to each row, and that the next one changes nothing.
- `never_launders_iff`: rotation and start treat every row as they should exactly where no row of a kind the marker
  does not record carries a broken seal, and no seal that is not ASCII stands in the way of a rotation.
- `lost_marker_launders`: a role changed in SQL, resealed by the start after the marker file was lost.
-/
import Certadillo.Flush
import Certadillo.Lib.Tx
import Certadillo.Py

namespace Certadillo.Integrity

open Py

/-! ## The sealed tables and the marker file -/

/-- the tables of FIELDS, in its order -/
def kinds : List Kind := [.principal, .approval, .certificate, .provisioningTarget, .installation, .app, .policyFolder]

def KIND : Kind → String
  | .principal => "principal"
  | .approval => "approval"
  | .certificate => "certificate"
  | .provisioningTarget => "provisioning_target"
  | .installation => "installation"
  | .app => "app"
  | .policyFolder => "policy_folder"

/-- Kinds sealed before the marker file recorded kinds. -/
def LEGACY_KINDS : List String := ["principal", "approval", "certificate"]

/-- a row of a sealed table -/
structure SealedRow where
  kind : Kind
  id : ℕ
  row : Row

/-- the rows of the sealed tables -/
abbrev SealedDb := List SealedRow

/-- the marker file's lines, if it exists -/
abbrev Marker := Option (List String)

/-- `_sealed_kinds` -/
def sealedKinds (lines : List String) : List String :=
  match lines.find? fun line => startsWith line.toList "kinds:".toList with
  | some line => ((split ',' (line.toList.drop 6)).map fun k => String.ofList (strip k)).filter (· ≠ "")
  | none => LEGACY_KINDS

/-- the kinds the marker says are sealed -/
def recorded : Marker → List String
  | some lines => sealedKinds lines
  | none => []

/-! ## Seals that are not ASCII -/

/-- a hex digest is ASCII -/
def Seal.ascii : Seal → Bool
  | .hmac _ _ => true
  | .raw text => text.toList.all fun c => c.toNat < 128

/-- `_matches`, with what `hmac.compare_digest` raises -/
def checkSeal (st : SealState) (k : Kind) (values : Values) : Option Seal → Except String Bool
  | none => .ok (matchesSeal st k values none)
  | some s =>
    if !s.ascii && !st.keys.isEmpty then .error "comparing strings with non-ASCII characters is not supported"
    else .ok (matchesSeal st k values (some s))

/-! ## One row -/

/-- an object loaded in full, after `obj.seal = compute(obj)`; a new seal counts as a modification -/
def assignSeal (st : SealState) (k : Kind) (r : Row) : Obj :=
  ⟨fun f => .fresh (r.vals f), (Attr.fresh r.sealHex).set (compute st k r.vals), compute st k r.vals ≠ r.sealHex⟩

/-- the flush of an object, with what the hook's check raises -/
def flushChecked (st : SealState) (k : Kind) (o : Obj) (stored : Row) : Except String Row := do
  if st.key.isSome && o.isModified k then
    let _ ← checkSeal st k (original o stored) (committed o.sealHex stored.sealHex)
    pure (flushRow st k o stored)
  else
    pure (flushRow st k o stored)

/-- the body of `reseal_all`'s loop: the row after the flush, and whether it was resealed -/
def resealRow (st : SealState) (r : SealedRow) : Except String (SealedRow × Bool) := do
  if ← checkSeal st r.kind r.row.vals r.row.sealHex then
    let row ← flushChecked st r.kind (assignSeal st r.kind r.row) r.row
    pure ({ r with row := row }, true)
  else
    pure (r, false)

/-- the body of `backfill`'s loop -/
def backfillRow (st : SealState) (r : SealedRow) : Except String SealedRow := do
  let row ← flushChecked st r.kind (assignSeal st r.kind r.row) r.row
  pure { r with row := row }

/-! ## Rotation and start -/

/-- `reseal_all`: After rotating the seal key: rows valid under the current or previous key are resealed with the current
key; broken rows are left broken. With the counts of both. -/
def resealAll (st : SealState) (rows : SealedDb) : Except String (SealedDb × ℕ × ℕ) := do
  let out ← rows.mapM (resealRow st)
  pure (out.map Prod.fst, out.countP Prod.snd, out.countP fun p => !p.2)

/-- what `backfill` leaves: the rows, the process state, the marker file and the number of rows sealed -/
structure Backfilled where
  rows : SealedDb
  state : SealState
  marker : Marker
  count : ℕ

/-- the kinds a start is to seal -/
def todo (marker : Marker) : List Kind := kinds.filter fun k => !(recorded marker).contains (KIND k)

/-- `backfill`: Seal every existing row of each kind once, then enforce. -/
def backfill (st : SealState) (now : String) (marker : Marker) (rows : SealedDb) : Except String Backfilled := do
  if todo marker = [] then pure ⟨rows, { st with enforce := true }, marker, 0⟩
  else
    -- rows of the new kinds have no seal yet
    let rows' ← rows.mapM fun r =>
      if (todo marker).contains r.kind then backfillRow { st with enforce := false } r else pure r
    pure ⟨rows', { st with enforce := true }, some [now, "kinds: " ++ join "," (sorted (kinds.map KIND))],
      rows.countP fun r => (todo marker).contains r.kind⟩

/-- `configure` -/
def configure (key : Key) (previous : Option Key) (marker : Marker) : SealState := ⟨some key, previous, marker.isSome⟩

/-- the seal keys of a process -/
structure Keys where
  current : Key
  previous : Option Key

/-- the seal state of a process that has started -/
def Keys.started (κ : Keys) : SealState := ⟨some κ.current, κ.previous, true⟩

/-- `init_runtime` as far as seals go -/
def start (κ : Keys) (now : String) (marker : Marker) (rows : SealedDb) : Except String Backfilled :=
  backfill (configure κ.current κ.previous marker) now marker rows

/-- the rows after a start; a start that fails is rolled back -/
def afterStart (κ : Keys) (now : String) (marker : Marker) (rows : SealedDb) : SealedDb :=
  match start κ now marker rows with
  | .ok out => out.rows
  | .error _ => rows

/-- the rows after `reseal_all` in a started process; a rotation that fails is rolled back -/
def afterReseal (κ : Keys) (rows : SealedDb) : SealedDb :=
  match resealAll κ.started rows with
  | .ok out => out.1
  | .error _ => rows

/-- **A started process enforces seals**, whatever the marker file held -/
theorem start_enforces {κ : Keys} {now : String} {marker : Marker} {rows : SealedDb} {out : Backfilled}
    (h : start κ now marker rows = .ok out) : out.state = κ.started := by
  unfold start backfill at h
  split at h
  · obtain rfl := Except.ok.inj h
    rfl
  · obtain ⟨rows', -, h⟩ := except_bind_ok.1 h
    obtain rfl := Except.ok.inj h
    rfl

/-! ## What is asked of them -/

/-- the row verifies in a started process -/
def Verifies (κ : Keys) (r : SealedRow) : Prop := verifyRow κ.started r.kind r.row = true

instance (κ : Keys) (r : SealedRow) : Decidable (Verifies κ r) := by unfold Verifies; infer_instance

/-- the keys once the previous one is taken out -/
def Keys.alone (κ : Keys) : Keys := ⟨κ.current, none⟩

/-- a rotation makes a row that verified valid under the current key alone, and leaves any other failing -/
structure Rotated (κ : Keys) (r r' : SealedRow) : Prop where
  same : ∃ s, r' = { r with row := { r.row with sealHex := s } }
  valid : Verifies κ.alone r' ↔ Verifies κ r
  failing : ¬ Verifies κ r → ¬ Verifies κ r'

/-- a start leaves a row failing that carries a seal under neither key -/
def NotLaundered (κ : Keys) (r r' : SealedRow) : Prop := r.row.sealHex.isSome → ¬ Verifies κ r → ¬ Verifies κ r'

/-- neither rotation nor start launders -/
structure NeverLaunders (κ : Keys) (now : String) (marker : Marker) (rows : SealedDb) : Prop where
  rotates : List.Forall₂ (Rotated κ) rows (afterReseal κ rows)
  again : afterReseal κ (afterReseal κ rows) = afterReseal κ rows
  starts : List.Forall₂ (NotLaundered κ) rows (afterStart κ now marker rows)

/-- the row's seal, if it has one, is ASCII -/
def Ascii (r : SealedRow) : Prop := ∀ s ∈ r.row.sealHex, s.ascii = true

instance (r : SealedRow) : Decidable (Ascii r) := by unfold Ascii; infer_instance

/-- nothing stands in the way of a rotation, or there is nothing to rotate -/
def CleanRotation (κ : Keys) (rows : SealedDb) : Prop :=
  (∀ r ∈ rows, Ascii r) ∨ ∀ r ∈ rows, Verifies κ r → Verifies κ.alone r

/-- the rows a start is to seal carry no broken seal, or one that stops it -/
def CleanStart (κ : Keys) (marker : Marker) (rows : SealedDb) : Prop :=
  (∀ r ∈ rows, r.kind ∈ todo marker → r.row.sealHex.isSome → Verifies κ r) ∨
    ∃ r ∈ rows, r.kind ∈ todo marker ∧ ¬ Ascii r

instance (κ : Keys) (marker : Marker) (rows : SealedDb) : Decidable (CleanStart κ marker rows) := by
  unfold CleanStart
  infer_instance

/-! ## One row -/

section Rows

variable {κ : Keys} {st : SealState} {r : SealedRow}

/-- a row verifies when its seal is the digest of its values under a key of the process -/
theorem verifies_iff : Verifies κ r ↔ ∃ k ∈ κ.started.keys, r.row.sealHex = some (mac k r.kind r.row.vals) := by
  unfold Verifies
  rw [verifyRow_iff (show κ.started.key = some κ.current from rfl)]
  cases hs : r.row.sealHex with
  | none => simp [matchesSeal, Keys.started]
  | some s => rw [matchesSeal_some]; simp

theorem verifies_alone_iff : Verifies κ.alone r ↔ r.row.sealHex = some (mac κ.current r.kind r.row.vals) := by
  rw [verifies_iff]
  simp [SealState.keys, Keys.started, Keys.alone]

/-- valid under the current key alone is valid -/
theorem Verifies.of_alone (h : Verifies κ.alone r) : Verifies κ r :=
  verifies_iff.2 ⟨κ.current, SealState.mem_keys.2 (.inl rfl), verifies_alone_iff.1 h⟩

/-- the row with the seal the current key gives it -/
def SealedRow.resealed (κ : Keys) (r : SealedRow) : SealedRow :=
  { r with row := { r.row with sealHex := some (mac κ.current r.kind r.row.vals) } }

theorem verifies_resealed : Verifies κ.alone (r.resealed κ) := verifies_alone_iff.2 rfl

theorem isModified_assignSeal (k : Kind) (row : Row) :
    (assignSeal st k row).isModified k = true ↔ compute st k row.vals ≠ row.sealHex := by
  have hfields : ∀ v : Json, (Attr.fresh v).modified = false := fun v => by simp [Attr.fresh, Attr.modified, Attr.history]
  simp [Obj.isModified, hfields, assignSeal]

theorem original_assignSeal (k : Kind) (row : Row) :
    original (assignSeal st k row) row = row.vals ∧ committed (assignSeal st k row).sealHex row.sealHex = row.sealHex := by
  refine ⟨funext fun f => by simp [original, committed, assignSeal, Attr.fresh, Attr.history], ?_⟩
  by_cases h : compute st k row.vals = row.sealHex <;> simp [committed, assignSeal, Attr.fresh, Attr.set, Attr.history, h]

/-- what the hook leaves of an assigned seal: whether it reseals the row or refuses to, the assigned one -/
theorem flush_assignSeal {key : Key} (hk : st.key = some key) (k : Kind) (row : Row) :
    flushRow st k (assignSeal st k row) row = { row with sealHex := compute st k row.vals } := by
  have hkey : st.key.isNone = false := by simp [hk]
  have hload : (assignSeal st k row).load row = assignSeal st k row := by simp [Obj.load, assignSeal, Attr.load, Attr.fresh, Attr.set]
  have hvals : (assignSeal st k row).values row = row.vals := by
    funext f
    simp [Obj.values, assignSeal, Attr.get, Attr.fresh]
  have hreseal : reseal st k (assignSeal st k row) row = assignSeal st k row := by
    unfold reseal
    simp only [hkey, hload, hvals, Bool.false_eq_true, if_false]
    split
    · rfl
    split
    · rfl
    · rfl
  unfold flushRow update
  rw [hreseal]
  by_cases h : compute st k row.vals = row.sealHex
  · simp [assignSeal, Attr.set, Attr.write, Attr.modified, Attr.history, Attr.fresh, h]
  · simp [assignSeal, Attr.set, Attr.write, Attr.modified, Attr.history, Attr.fresh, Attr.get, h]

/-- the check of a row raises if its seal is not ASCII -/
theorem checkSeal_ascii {key : Key} (hk : st.key = some key) (k : Kind) (vals : Values) (s : Option Seal) :
    checkSeal st k vals s = if ∀ x ∈ s, x.ascii = true then .ok (matchesSeal st k vals s)
      else .error "comparing strings with non-ASCII characters is not supported" := by
  have hkeys : st.keys.isEmpty = false := by simp [SealState.keys, hk]
  cases s with
  | none => simp [checkSeal]
  | some s => cases h : s.ascii <;> simp [checkSeal, hkeys, h]

theorem flushChecked_assignSeal {key : Key} (hk : st.key = some key) (k : Kind) (row : Row) :
    flushChecked st k (assignSeal st k row) row = if ∀ x ∈ row.sealHex, x.ascii = true then
      .ok { row with sealHex := some (mac key k row.vals) }
      else .error "comparing strings with non-ASCII characters is not supported" := by
  have hcompute : compute st k row.vals = some (mac key k row.vals) := by simp [compute, hk]
  have hflush := flush_assignSeal hk k row
  rw [hcompute] at hflush
  unfold flushChecked
  rw [(original_assignSeal k row).1, (original_assignSeal k row).2, checkSeal_ascii hk, hflush]
  by_cases hascii : ∀ x ∈ row.sealHex, x.ascii = true
  · simp only [if_pos hascii]
    split
    · rfl
    · rfl
  · have hmod : (assignSeal st k row).isModified k = true := by
      rw [isModified_assignSeal, hcompute]
      intro heq
      refine hascii fun x hx => ?_
      rw [← heq] at hx
      obtain rfl := Option.some.inj hx
      rfl
    simp only [if_neg hascii, hk, hmod]
    rfl

theorem resealRow_eq : resealRow κ.started r = if Ascii r then
    .ok (if Verifies κ r then (r.resealed κ, true) else (r, false))
    else .error "comparing strings with non-ASCII characters is not supported" := by
  unfold resealRow
  rw [checkSeal_ascii rfl, @flushChecked_assignSeal κ.started κ.current rfl]
  by_cases hascii : ∀ x ∈ r.row.sealHex, x.ascii = true
  · have hmatches : matchesSeal κ.started r.kind r.row.vals r.row.sealHex = true ↔ Verifies κ r :=
      (verifyRow_iff (show κ.started.key = some κ.current from rfl)).symm
    rw [if_pos (show Ascii r from hascii), if_pos hascii, if_pos hascii, except_ok_bind]
    by_cases hv : Verifies κ r
    · rw [if_pos (hmatches.2 hv), if_pos hv]
      rfl
    · rw [if_neg (mt hmatches.1 hv), if_neg hv]
      rfl
  · rw [if_neg (show ¬ Ascii r from hascii), if_neg hascii]
    rfl

theorem backfillRow_eq (enforce : Bool) : backfillRow ⟨some κ.current, κ.previous, enforce⟩ r = if Ascii r then
    .ok (r.resealed κ) else .error "comparing strings with non-ASCII characters is not supported" := by
  unfold backfillRow
  rw [@flushChecked_assignSeal ⟨some κ.current, κ.previous, enforce⟩ κ.current rfl]
  by_cases hascii : ∀ x ∈ r.row.sealHex, x.ascii = true
  · rw [if_pos (show Ascii r from hascii), if_pos hascii]
    rfl
  · rw [if_neg (show ¬ Ascii r from hascii), if_neg hascii]
    rfl

end Rows

/-! ## Rotation -/

section Rotation

variable {κ : Keys} {rows : SealedDb}

/-- what a rotation that no seal stops leaves of a row -/
def rotatedRow (κ : Keys) (r : SealedRow) : SealedRow := if Verifies κ r then r.resealed κ else r

theorem afterReseal_ascii (h : ∀ r ∈ rows, Ascii r) : afterReseal κ rows = rows.map (rotatedRow κ) := by
  have hrow : ∀ r ∈ rows, resealRow κ.started r = .ok (if Verifies κ r then (r.resealed κ, true) else (r, false)) := by
    intro r hr
    rw [resealRow_eq, if_pos (h r hr)]
  unfold afterReseal resealAll
  rw [except_mapM_map hrow, except_ok_bind]
  refine (List.map_map ..).trans (List.map_congr_left fun r _ => ?_)
  unfold rotatedRow
  by_cases hv : Verifies κ r
  · simp [hv]
  · simp [hv]

theorem afterReseal_stopped (h : ¬ ∀ r ∈ rows, Ascii r) : afterReseal κ rows = rows := by
  unfold afterReseal
  cases hres : resealAll κ.started rows with
  | error _ => rfl
  | ok out =>
    refine absurd (fun r hr => ?_) h
    obtain ⟨ys, hys, -⟩ := except_bind_ok.1 hres
    obtain ⟨y, hy⟩ := except_mapM_returns.1 ⟨ys, hys⟩ r hr
    by_contra hascii
    rw [resealRow_eq, if_neg hascii] at hy
    cases hy

theorem verifies_rotatedRow {r : SealedRow} : Verifies κ.alone (rotatedRow κ r) ↔ Verifies κ r := by
  unfold rotatedRow
  by_cases hv : Verifies κ r
  · simp [hv, verifies_resealed]
  · simpa [hv] using mt Verifies.of_alone hv

theorem rotated_rotatedRow (r : SealedRow) : Rotated κ r (rotatedRow κ r) where
  same := by
    unfold rotatedRow
    split
    · exact ⟨_, rfl⟩
    · exact ⟨r.row.sealHex, rfl⟩
  valid := verifies_rotatedRow
  failing := fun hv => by rwa [rotatedRow, if_neg hv]

/-- **A rotation treats every row as it should** unless a seal stops it while there is a row to rotate -/
theorem reseal_forall : List.Forall₂ (Rotated κ) rows (afterReseal κ rows) ↔ CleanRotation κ rows := by
  by_cases hascii : ∀ r ∈ rows, Ascii r
  · rw [afterReseal_ascii hascii, List.forall₂_map_right_iff, List.forall₂_same]
    exact iff_of_true (fun r _ => rotated_rotatedRow r) (.inl hascii)
  · rw [afterReseal_stopped hascii, List.forall₂_same]
    constructor
    · intro h
      exact .inr fun r hr hv => (h r hr).valid.2 hv
    · intro h
      have hcurrent := h.resolve_left hascii
      exact fun r hr => ⟨⟨_, rfl⟩, ⟨Verifies.of_alone, hcurrent r hr⟩, id⟩

theorem rotatedRow_rotatedRow (r : SealedRow) : rotatedRow κ (rotatedRow κ r) = rotatedRow κ r := by
  by_cases hv : Verifies κ r
  · simp [rotatedRow, hv, SealedRow.resealed]
  · simp [rotatedRow, hv]

theorem ascii_rotatedRow {r : SealedRow} (h : Ascii r) : Ascii (rotatedRow κ r) := by
  unfold rotatedRow
  split
  · intro s hs
    obtain rfl := Option.some.inj hs
    rfl
  · exact h

/-- **Running the rotation again changes nothing** -/
theorem reseal_again : afterReseal κ (afterReseal κ rows) = afterReseal κ rows := by
  by_cases hascii : ∀ r ∈ rows, Ascii r
  · have hrotated : ∀ r ∈ rows.map (rotatedRow κ), Ascii r := by
      intro r' hr'
      obtain ⟨r, hr, rfl⟩ := List.mem_map.1 hr'
      exact ascii_rotatedRow (hascii r hr)
    rw [afterReseal_ascii hascii, afterReseal_ascii hrotated, List.map_map]
    exact List.map_congr_left fun r _ => rotatedRow_rotatedRow r
  · rw [afterReseal_stopped hascii, afterReseal_stopped hascii]

end Rotation

/-! ## Start -/

section Start

variable {κ : Keys} {now : String} {marker : Marker} {rows : SealedDb}

/-- what a start that no seal stops leaves of a row -/
def startedRow (κ : Keys) (marker : Marker) (r : SealedRow) : SealedRow :=
  if r.kind ∈ todo marker then r.resealed κ else r

theorem afterStart_ascii (h : ∀ r ∈ rows, r.kind ∈ todo marker → Ascii r) :
    afterStart κ now marker rows = rows.map (startedRow κ marker) := by
  unfold afterStart start backfill
  by_cases htodo : todo marker = []
  · rw [if_pos htodo]
    refine Eq.symm ((List.map_congr_left fun r _ => ?_).trans (List.map_id rows))
    simp [startedRow, htodo]
  · rw [if_neg htodo]
    have hrow : ∀ r ∈ rows, (if (todo marker).contains r.kind then
        backfillRow { configure κ.current κ.previous marker with enforce := false } r else pure r) =
        .ok (startedRow κ marker r) := by
      intro r hr
      unfold startedRow
      by_cases hk : r.kind ∈ todo marker
      · rw [if_pos (List.contains_iff_mem.2 hk), if_pos hk]
        exact (backfillRow_eq false).trans (if_pos (h r hr hk))
      · rw [if_neg (mt List.contains_iff_mem.1 hk), if_neg hk]
        rfl
    rw [except_mapM_map hrow]
    rfl

theorem afterStart_stopped (h : ∃ r ∈ rows, r.kind ∈ todo marker ∧ ¬ Ascii r) : afterStart κ now marker rows = rows := by
  obtain ⟨r, hr, hk, hascii⟩ := h
  unfold afterStart
  cases hstart : start κ now marker rows with
  | error _ => rfl
  | ok out =>
    exfalso
    unfold start backfill at hstart
    rw [if_neg (List.ne_nil_of_mem hk)] at hstart
    obtain ⟨ys, hys, -⟩ := except_bind_ok.1 hstart
    obtain ⟨y, hy⟩ := except_mapM_returns.1 ⟨ys, hys⟩ r hr
    rw [if_pos (List.contains_iff_mem.2 hk)] at hy
    have hraises := (@backfillRow_eq κ r false).trans (if_neg hascii)
    cases hraises.symm.trans hy

/-- **A start launders nothing** exactly when the rows it seals carry no broken seal, or one that stops it -/
theorem start_forall : List.Forall₂ (NotLaundered κ) rows (afterStart κ now marker rows) ↔ CleanStart κ marker rows := by
  by_cases hstopped : ∃ r ∈ rows, r.kind ∈ todo marker ∧ ¬ Ascii r
  · rw [afterStart_stopped hstopped, List.forall₂_same]
    exact iff_of_true (fun r _ _ hv => hv) (.inr hstopped)
  · have hascii : ∀ r ∈ rows, r.kind ∈ todo marker → Ascii r := by
      intro r hr hk
      by_contra h
      exact hstopped ⟨r, hr, hk, h⟩
    rw [afterStart_ascii hascii, List.forall₂_map_right_iff, List.forall₂_same]
    constructor
    · intro h
      refine .inl fun r hr hk hs => ?_
      by_contra hv
      refine h r hr hs hv ?_
      rw [startedRow, if_pos hk]
      exact verifies_resealed.of_alone
    · intro h r hr hs hv
      have hk : r.kind ∉ todo marker := fun hk => hv (h.resolve_right hstopped r hr hk hs)
      rwa [startedRow, if_neg hk]

end Start

/-- **Rotation and start never launder** exactly in the states where no row of a kind the marker does not record carries
a seal under neither key, and where no seal that is not ASCII stops a rotation that has rows to rotate. -/
theorem never_launders_iff (κ : Keys) (now : String) (marker : Marker) (rows : SealedDb) :
    NeverLaunders κ now marker rows ↔ CleanRotation κ rows ∧ CleanStart κ marker rows := by
  constructor
  · intro h
    exact ⟨reseal_forall.1 h.rotates, start_forall.1 h.starts⟩
  · intro h
    exact ⟨reseal_forall.2 h.1, reseal_again, start_forall.2 h.2⟩

/-! ### A lost marker file -/

section Examples

def keysOnly : Keys := ⟨"key", none⟩

def roleVals (role : String) : Values := fun f => if f = .role then .str role else .null

/-- an operator, made an admin in SQL -/
def promoted : SealedRow := ⟨.principal, 1, ⟨roleVals "admin", compute keysOnly.started .principal (roleVals "operator")⟩⟩

/-- the marker of a deployment that sealed all kinds keeps the row broken -/
example : CleanStart keysOnly (some ["2026-09-24T00:00:00+00:00"]) [promoted] := by decide

/-- The marker file is lost: the next start makes the admin a valid one. -/
theorem lost_marker_launders : ¬ ∀ (κ : Keys) (now : String) (marker : Marker) (rows : SealedDb),
    NeverLaunders κ now marker rows := by
  intro h
  have hstart : CleanStart keysOnly none [promoted] := start_forall.1 (h keysOnly "" none [promoted]).starts
  exact absurd hstart (by decide)

/-- One seal that is not ASCII, and the row under the previous key is not rotated. -/
example :
    let old : SealedRow := ⟨.principal, 1, ⟨roleVals "operator", some (mac "old" .principal (roleVals "operator"))⟩⟩
    let odd : SealedRow := ⟨.principal, 2, ⟨roleVals "auditor", some (.raw "é")⟩⟩
    Verifies ⟨"key", some "old"⟩ old ∧ ¬ Ascii odd ∧ ¬ Verifies ⟨"key", none⟩ old := by decide

end Examples

end Certadillo.Integrity
