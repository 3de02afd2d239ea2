/-
Which values a seal vouches for, over runs of application flushes and SQL writes.

Rows of every sealed table by primary key, with a log of the values the application stored in each row (an INSERT, or an
UPDATE of a row whose seal the hook renewed). SQL writes replace or delete any row. Seals under a configured key are
unforgeable: an SQL write can only copy one the application made.

Sealing is enforced throughout: `backfill` sets `enforce` when the process starts and nothing unsets it.

- `verified_stored`: if no SQL write puts into a row a seal made for another row of its table, a row that verifies holds
  values the application stored in that row.
- `swapped_folders_verify`: FIELDS names no primary key, so two folders whose contents are exchanged both verify.
-/
import Certadillo.Flush

namespace Certadillo.Integrity

/-! ## Rows and the log of what was stored -/

/-- the application stored `vals` in row `id` of table `kind` -/
structure Stored where
  kind : Kind
  id : ℕ
  vals : Values

structure Tables where
  rows : Kind → ℕ → Option Row
  log : List Stored

inductive TableOp where
  | insert (k : Kind) (id : ℕ) (v : Values)
  | update (k : Kind) (id : ℕ) (v : Values) (other : Bool)
  | sql (k : Kind) (id : ℕ) (row : Option Row)

namespace Tables

def empty : Tables := ⟨fun _ _ => none, []⟩

def put (t : Tables) (k : Kind) (id : ℕ) (r : Option Row) : Tables :=
  { t with rows := fun k' id' => if k' = k ∧ id' = id then r else t.rows k' id' }

def note (t : Tables) (k : Kind) (id : ℕ) (v : Values) : Tables := { t with log := ⟨k, id, v⟩ :: t.log }

/-- an update is logged if the hook renews the seal; of a tampered row it keeps the broken one -/
def step (st : SealState) (t : Tables) : TableOp → Tables
  | .insert k id v =>
    match t.rows k id with
    | some _ => t
    | none => (t.put k id (some ⟨v, compute st k v⟩)).note k id v
  | .update k id v other =>
    match t.rows k id with
    | none => t
    | some r =>
      let t' := t.put k id (some (flushRow st k (.edit r v other) r))
      if verifyRow st k r then t'.note k id v else t'
  | .sql k id row => t.put k id row

/-- the application once stored these sealed values in row `id` -/
def Once (t : Tables) (k : Kind) (id : ℕ) (v : Values) : Prop :=
  ∃ e ∈ t.log, e.kind = k ∧ e.id = id ∧ ∀ f ∈ FIELDS k, v f = e.vals f

instance (t : Tables) (k : Kind) (id : ℕ) (v : Values) : Decidable (t.Once k id v) := by unfold Once; infer_instance

/-- every row that verifies holds values the application once stored in it -/
def Bound (st : SealState) (t : Tables) : Prop :=
  ∀ k id r, t.rows k id = some r → verifyRow st k r = true → t.Once k id r.vals

/-- the seal was made for values stored in this row, or in a row of another table, or under no configured key -/
def OwnSeal (st : SealState) (t : Tables) (k : Kind) (id : ℕ) (s : Option Seal) : Prop :=
  ∀ κ b, s = some (.hmac κ b) → κ ∈ st.keys → b.kind = k → ∃ e ∈ t.log, e.kind = k ∧ e.id = id ∧ b = canonical k e.vals

/-- no SQL write copies into a row a seal made only for other rows of its table -/
def RowBound (st : SealState) (t : Tables) : TableOp → Prop
  | .sql k id (some r) => t.OwnSeal st k id r.sealHex
  | _ => True

/-! ## The invariant -/

/-- every stored seal was made for values stored in its row -/
def SealsOwn (st : SealState) (t : Tables) : Prop := ∀ k id r, t.rows k id = some r → t.OwnSeal st k id r.sealHex

theorem OwnSeal.note {st : SealState} {t : Tables} {k k' : Kind} {id id' : ℕ} {v : Values} {s : Option Seal}
    (h : t.OwnSeal st k id s) : (t.note k' id' v).OwnSeal st k id s := by
  intro κ b hs hκ hb
  obtain ⟨e, he, h⟩ := h κ b hs hκ hb
  exact ⟨e, List.mem_cons_of_mem _ he, h⟩

theorem ownSeal_compute (st : SealState) (t : Tables) (k : Kind) (id : ℕ) (v : Values) :
    (t.note k id v).OwnSeal st k id (compute st k v) := by
  intro κ b hs _ _
  simp only [compute, Option.map_eq_some_iff, mac] at hs
  obtain ⟨κ', -, hs⟩ := hs
  cases hs
  exact ⟨_, List.mem_cons_self, rfl, rfl, rfl⟩

/-- writing one row: its seal is its own, the others are untouched -/
theorem SealsOwn.put {st : SealState} {t t' : Tables} {k : Kind} {id : ℕ} {o : Option Row} (h : t.SealsOwn st)
    (hrows : t'.rows = (t.put k id o).rows) (hlog : ∀ e ∈ t.log, e ∈ t'.log)
    (ho : ∀ r, o = some r → t'.OwnSeal st k id r.sealHex) : t'.SealsOwn st := by
  intro k' id' r hr
  rw [hrows] at hr
  simp only [Tables.put] at hr
  split_ifs at hr with hk
  · obtain ⟨rfl, rfl⟩ := hk
    exact ho r hr
  · intro κ b hs hκ hb
    obtain ⟨e, he, h⟩ := h k' id' r hr κ b hs hκ hb
    exact ⟨e, hlog e he, h⟩

/-- an update renews the seal over the values it logs, or keeps it -/
theorem flushRow_edit_seal {st : SealState} {κ : Key} (hk : st.key = some κ) (k : Kind) (r : Row) (v : Values)
    (other : Bool) :
    (flushRow st k (.edit r v other) r).sealHex = r.sealHex ∨
      verifyRow st k r = true ∧ (flushRow st k (.edit r v other) r).sealHex = compute st k v := by
  by_cases hm : (Obj.edit r v other).isModified k = true
  · have hs := flush_fresh_seal hk hm (by simp [Obj.edit, Attr.fresh, Attr.modified, Attr.history])
      (fresh_edit k r v other)
    by_cases hc : matchesSeal st k r.vals r.sealHex = true
    · refine Or.inr ⟨(verifyRow_iff hk).2 hc, ?_⟩
      rw [hs, if_pos hc]
      rfl
    · exact Or.inl (by rw [hs, if_neg hc])
  · left
    have hm' : (Obj.edit r v other).isModified k = false := by simpa using hm
    rw [flushRow_unmodified hm']
    exact (update_unmodified hm' (by simp [Obj.edit, Attr.fresh, Attr.modified, Attr.history]) r).1

theorem step_sealsOwn {st : SealState} {κ : Key} (hk : st.key = some κ) {t : Tables} {o : TableOp} (h : t.SealsOwn st)
    (ho : t.RowBound st o) : (t.step st o).SealsOwn st := by
  cases o with
  | insert k id v =>
    simp only [step]
    cases t.rows k id with
    | some _ => exact h
    | none =>
      refine h.put (o := some ⟨v, compute st k v⟩) rfl (fun e he => List.mem_cons_of_mem _ he) ?_
      rintro r ⟨⟩
      exact ownSeal_compute st (t.put k id _) k id v
  | update k id v other =>
    simp only [step]
    cases hr : t.rows k id with
    | none => exact h
    | some r =>
      dsimp only
      have hlog : ∀ e ∈ t.log, e ∈ (if verifyRow st k r then (t.put k id
          (some (flushRow st k (.edit r v other) r))).note k id v else t.put k id
          (some (flushRow st k (.edit r v other) r))).log := by
        intro e he
        split_ifs
        · exact List.mem_cons_of_mem _ he
        · exact he
      refine h.put (o := some (flushRow st k (.edit r v other) r)) (by split_ifs <;> rfl) hlog ?_
      rintro r' ⟨⟩
      rcases flushRow_edit_seal hk k r v other with he | ⟨hv, he⟩
      · rw [he]
        intro κ b hs hκ hb
        obtain ⟨e, he, h⟩ := h k id r hr κ b hs hκ hb
        exact ⟨e, hlog e he, h⟩
      · rw [he, if_pos hv]
        exact ownSeal_compute st (t.put k id _) k id v
  | sql k id row =>
    refine h.put (o := row) rfl (fun e he => he) ?_
    rintro r rfl
    exact ho

/-- a row that verifies carries a seal under a configured key over its own values -/
theorem SealsOwn.bound {st : SealState} {κ : Key} (hk : st.key = some κ) (he : st.enforce = true) {t : Tables}
    (h : t.SealsOwn st) : t.Bound st := by
  intro k id r hr hv
  have hm := (verifyRow_iff hk).1 hv
  cases hs : r.sealHex with
  | none => simp [matchesSeal, hs, he] at hm
  | some s =>
    obtain ⟨κ', hκ, hmac⟩ := matchesSeal_some.1 (hs ▸ hm)
    obtain ⟨e, hlog, hek, hid, hb⟩ := h k id r hr κ' (canonical k r.vals) (by rw [hs, hmac]; rfl) hκ rfl
    exact ⟨e, hlog, hek, hid, (canonical_eq_iff.1 hb).2⟩

/-- **Over every run of application flushes and SQL writes** in which no SQL write copies a seal from another row of its
table: in every state reached, a row that verifies holds values the application once stored in that row. -/
theorem verified_stored {st : SealState} {κ : Key} (hk : st.key = some κ) (he : st.enforce = true) (ops : List TableOp)
    (h : Machine.Along (step st) (RowBound st) .empty ops) : (Machine.run (step st) .empty ops).Bound st := by
  have h0 : Tables.empty.SealsOwn st := fun _ _ _ hr => by simp [empty] at hr
  exact (Machine.run_inv (fun _ _ hI ho => step_sealsOwn hk hI ho) h0 h).bound hk he

/-! ### Two policy folders -/

section Examples

def folderVals (name : String) (maxDays : ℤ) : Values
  | .name => .str name
  | .settings => .obj [("max_validity_days", .obj [("value", .num maxDays), ("locked", .bool true)])]
  | _ => .null

def folderRow (name : String) (maxDays : ℤ) : Row :=
  ⟨folderVals name maxDays, compute demoState .policyFolder (folderVals name maxDays)⟩

/-- an outside write that deletes a row and restores its own content is no copy from another row -/
theorem verified_stored_restored :
    (Machine.run (step demoState) .empty
      [.insert .policyFolder 1 (folderVals "payments" 30), .sql .policyFolder 1 none,
        .sql .policyFolder 1 (some (folderRow "payments" 30))]).Bound demoState :=
  verified_stored (show demoState.key = some "key" from rfl) rfl _ <| by
    refine ⟨trivial, trivial, ?_, trivial⟩
    rintro κ b hs - -
    simp only [folderRow, compute, demoState, Option.map_some, mac, Option.some.injEq, Seal.hmac.injEq] at hs
    exact ⟨⟨.policyFolder, 1, folderVals "payments" 30⟩, List.mem_cons_self, rfl, rfl, hs.2.symm⟩

/-- the contents of two folders, seals included, exchanged in SQL -/
def swapped : List TableOp :=
  [.insert .policyFolder 1 (folderVals "payments" 7), .insert .policyFolder 2 (folderVals "lab" 365),
    .sql .policyFolder 1 (some (folderRow "lab" 365)), .sql .policyFolder 2 (some (folderRow "payments" 7))]

/-- **FIELDS names no primary key**: after the exchange both folders verify, and row 1 holds values the application never
stored there. The writes copy seals, they forge none. -/
theorem swapped_folders_verify :
    Machine.Along (step demoState) (fun t o => match o with
      | .sql k _ (some r) => Unforged demoState (fun b => ∃ e ∈ t.log, b = canonical k e.vals) r.sealHex
      | _ => True) .empty swapped ∧
    verifyRow demoState .policyFolder (folderRow "lab" 365) = true ∧
    ¬ (Machine.run (step demoState) .empty swapped).Bound demoState := by
  refine ⟨⟨trivial, trivial, ?_, ?_, trivial⟩, by decide, fun h => ?_⟩
  · rintro κ b hs -
    simp only [folderRow, compute, demoState, Option.map_some, mac, Option.some.injEq, Seal.hmac.injEq] at hs
    exact ⟨⟨.policyFolder, 2, folderVals "lab" 365⟩, List.mem_cons_self, hs.2.symm⟩
  · rintro κ b hs -
    simp only [folderRow, compute, demoState, Option.map_some, mac, Option.some.injEq, Seal.hmac.injEq] at hs
    exact ⟨⟨.policyFolder, 1, folderVals "payments" 7⟩, List.mem_cons_of_mem _ List.mem_cons_self, hs.2.symm⟩
  · exact absurd (h .policyFolder 1 (folderRow "lab" 365) rfl (by decide)) (by decide)

end Examples

end Tables

end Certadillo.Integrity
