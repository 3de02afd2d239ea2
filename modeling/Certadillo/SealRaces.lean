/-
Concurrent application transactions on one sealed row, under READ COMMITTED.

Each transaction loads the row, assigns columns and commits, any number of them in any interleaving, with no outside
writes. The hook seals the values of the transaction's own object; the UPDATE writes the changed columns and waits for
the row lock only while another UPDATE is uncommitted, so it runs at once with its commit on the row last committed.

- `commit_verifies_iff`: a commit leaves the row verifying iff, when it writes a seal, every sealed column it did not
  change is still at the value it loaded.
- `races_verify_iff`: the row verifies after every commit of a run iff every commit of the run meets that.
- `revoke_races_renew`: two honest transactions leave a row that is treated as tampered.
-/
import Certadillo.Flush
import Certadillo.Lib.Threads

namespace Certadillo.Integrity

/-! ## Transactions on the row -/

inductive TxnOp where
  | load
  | assign (f : Field) (v : Json)
  | touch
  | commit
  | rollback
deriving DecidableEq

/-- one transaction's step on the committed row and its own object -/
def txn (st : SealState) (k : Kind) (_ : ℕ) (d : Row) (l : Option Obj) : TxnOp → Row × Option Obj
  | .load => (d, some (.edit d d.vals false))
  | .assign f v => (d, l.map (·.assign f v))
  | .touch => (d, l.map fun o => { o with other := true })
  | .commit =>
    match l with
    | none => (d, none)
    | some o => (flushRow st k o d, some (flushObj st k o d))
  | .rollback => (d, none)

/-- no transaction has loaded the row -/
def raceStart (r : Row) : Threads.St Row (Option Obj) := ⟨r, fun _ => none⟩

abbrev raceStep (st : SealState) (k : Kind) := Threads.step (txn st k)

/-- `P` of the committed row before, the committing object and the row after, at every commit -/
def AtCommit (st : SealState) (k : Kind) (P : Row → Obj → Row → Prop) (s : Threads.St Row (Option Obj))
    (o : ℕ × TxnOp) : Prop :=
  o.2 = .commit → ∀ x ∈ s.loc o.1, P s.shared x (flushRow st k x s.shared)

instance (st : SealState) (k : Kind) (P : Row → Obj → Row → Prop) [∀ d o d', Decidable (P d o d')]
    (s : Threads.St Row (Option Obj)) (o : ℕ × TxnOp) : Decidable (AtCommit st k P s o) := by
  unfold AtCommit; infer_instance

/-- the flush of this object writes the seal column: something is modified, and the seal of its values is not the one it
loaded -/
def WritesSeal (st : SealState) (k : Kind) (o : Obj) (d : Row) : Prop :=
  o.isModified k = true ∧ o.sealHex.loaded ≠ some (compute st k (o.values d))

/-- every sealed column the object leaves alone is still at the value it loaded -/
def Unmoved (k : Kind) (o : Obj) (d : Row) : Prop :=
  ∀ f ∈ FIELDS k, (o.attrs f).modified = false → (o.attrs f).loaded = some (d.vals f)

instance (st : SealState) (k : Kind) (o : Obj) (d : Row) : Decidable (WritesSeal st k o d) := by
  unfold WritesSeal; infer_instance

instance (k : Kind) (o : Obj) (d : Row) : Decidable (Unmoved k o d) := by unfold Unmoved; infer_instance

/-! ## Objects of honest transactions -/

/-- a transaction's object was loaded in full from a row that verified -/
def Honest (st : SealState) (k : Kind) (l : Option Obj) : Prop :=
  ∀ o, l = some o → ∃ r v b, o = .edit r v b ∧ verifyRow st k r = true

theorem edit_assign (r : Row) (v : Values) (b : Bool) (f : Field) (x : Json) :
    (Obj.edit r v b).assign f x = .edit r (fun g => if g = f then x else v g) b := by
  simp only [Obj.assign, Obj.edit, Obj.mk.injEq, and_true]
  funext g
  by_cases h : g = f <;> simp [h, Attr.set]

section OneCommit

variable {st : SealState} {κ : Key} (hk : st.key = some κ) {k : Kind} {r : Row} {v : Values} {b : Bool}
include hk

/-- the hook's own check passes: the object holds the values and the seal of a row that verified -/
theorem reseal_edit (hr : verifyRow st k r = true) (hm : (Obj.edit r v b).isModified k = true) (d : Row) :
    reseal st k (.edit r v b) d =
      { Obj.edit r v b with sealHex := (Attr.fresh r.sealHex).set (compute st k v) } := by
  have hkey : st.key.isNone = false := by simp [hk]
  have hload : (Obj.edit r v b).load d = .edit r v b := by simp [Obj.load, Obj.edit, Attr.load, Attr.fresh]
  have horig : ∀ f, original (.edit r v b) d f = r.vals f := by
    intro f
    by_cases h : v f = r.vals f <;> simp [original, committed, Obj.edit, Attr.history, h]
  have hcheck : matchesSeal st k (original (.edit r v b) d) (committed (Obj.edit r v b).sealHex d.sealHex) = true := by
    rw [matchesSeal_congr st _ (fun f _ => horig f)]
    simpa [Obj.edit, committed, Attr.fresh, Attr.history] using (verifyRow_iff hk).1 hr
  have hvals : (Obj.edit r v b).values d = v := by funext f; simp [Obj.values, Obj.edit, Attr.get]
  simp only [reseal, hkey, hm, hcheck, hload, hvals, Bool.false_eq_true, Bool.not_true, if_false, if_true]
  rfl

/-- the row a commit leaves, column by column -/
theorem commit_row (hr : verifyRow st k r = true) (hm : (Obj.edit r v b).isModified k = true) (d : Row) :
    flushRow st k (.edit r v b) d =
      ⟨fun f => if v f = r.vals f then d.vals f else v f,
        if compute st k v = r.sealHex then d.sealHex else compute st k v⟩ := by
  simp only [flushRow, reseal_edit hk hr hm d, update, Row.mk.injEq]
  refine ⟨funext fun f => ?_, ?_⟩
  · rw [Attr.write_of_loaded _ _ (r.vals f) rfl]
    by_cases h : v f = r.vals f <;> simp [Obj.edit, h]
  · rw [Attr.write_of_loaded _ _ r.sealHex rfl]
    by_cases h : compute st k v = r.sealHex <;> simp [Attr.set, h]

/-- **One commit**: it leaves a row that verifies iff, when it writes a seal, every sealed column it did not change is
still at the value it loaded. -/
theorem commit_verifies_iff (hr : verifyRow st k r = true) {d : Row} (hd : verifyRow st k d = true) :
    verifyRow st k (flushRow st k (.edit r v b) d) = true ↔
      (WritesSeal st k (.edit r v b) d → Unmoved k (.edit r v b) d) := by
  have hvals : (Obj.edit r v b).values d = v := by funext f; simp [Obj.values, Obj.edit, Attr.get]
  by_cases hm : (Obj.edit r v b).isModified k = true
  swap
  · have hm' : (Obj.edit r v b).isModified k = false := by simpa using hm
    refine iff_of_true ?_ fun h => absurd h.1 hm
    exact (flush_unmodified hm' (by simp [Obj.edit, Attr.fresh, Attr.modified, Attr.history]) d).1 hd
  have hrow := commit_row hk hr hm d
  by_cases hs : compute st k v = r.sealHex
  · -- the seal column keeps its value, so the object holds the sealed values it loaded
    have hsame : ∀ f ∈ FIELDS k, r.vals f = v f := by
      have h1 := (verifyRow_iff hk).1 hr
      have h2 := matches_compute hk k v
      rw [hs] at h2
      cases hseal : r.sealHex with
      | none => simp [compute, hk, hseal] at hs
      | some x => exact matchesSeal_unique (hseal ▸ h1) (hseal ▸ h2)
    refine iff_of_true ?_ fun h => absurd (by rw [hvals, hs]; rfl) h.2
    rw [hrow, if_pos hs, ← hd]
    exact verifyRow_congr rfl fun f hf => by simp [hsame f hf]
  · have hw : WritesSeal st k (.edit r v b) d :=
      ⟨hm, by rw [hvals]; exact fun h => hs (Option.some.inj h).symm⟩
    rw [hrow, if_neg hs, verifyRow_iff hk]
    have hmod : ∀ f, ((Obj.edit r v b).attrs f).modified = false ↔ v f = r.vals f := fun f => by
      rw [Bool.eq_false_iff, ne_eq, Attr.modified_iff]
      simp [Obj.edit, eq_comm]
    simp only [hw, true_imp_iff, Unmoved, hmod]
    constructor
    · intro h f hf hv
      have := matchesSeal_hmac.1 (show matchesSeal st k _ (some (.hmac κ (canonical k v))) = true by
        simpa [compute, hk, mac] using h)
      have hcols := (canonical_eq_iff.1 this.2).2 f hf
      simp only [hv, if_true] at hcols
      simp [Obj.edit, hcols]
    · intro h
      refine (matchesSeal_congr st _ fun f hf => ?_).trans (matches_compute hk k v)
      by_cases hv : v f = r.vals f
      · have := h f hf hv
        simp only [Obj.edit, Option.some.injEq] at this
        simp [hv, this]
      · simp [hv]

/-- after its commit the transaction's object is again one loaded from a row that verified -/
theorem honest_flushObj (hr : verifyRow st k r = true) (d : Row) :
    ∃ r' v' b', flushObj st k (.edit r v b) d = .edit r' v' b' ∧ verifyRow st k r' = true := by
  by_cases hm : (Obj.edit r v b).isModified k = true
  · refine ⟨⟨v, compute st k v⟩, v, false, ?_, (verifyRow_iff hk).2 (matches_compute hk k v)⟩
    simp only [flushObj, reseal_edit hk hr hm d]
    simp [Obj.settle, Obj.edit, Attr.settle, Attr.set, Attr.fresh]
  · have hm' : (Obj.edit r v b).isModified k = false := by simpa using hm
    refine ⟨⟨v, r.sealHex⟩, v, false, ?_, ?_⟩
    · rw [flushObj, show reseal st k (.edit r v b) d = .edit r v b by simp [reseal, hm']]
      simp [Obj.settle, Obj.edit, Attr.settle, Attr.fresh]
    · rw [← hr]
      refine verifyRow_congr rfl fun f hf => ?_
      by_contra hne
      exact hm ((edit_modified k r v b).2 (Or.inr ⟨f, hf, hne⟩))

end OneCommit

/-! ## Every interleaving -/

/-- a commit that writes a seal overwrites no concurrent change -/
def CommitClean (st : SealState) (k : Kind) (d : Row) (o : Obj) (_ : Row) : Prop := WritesSeal st k o d → Unmoved k o d

instance (st : SealState) (k : Kind) (d : Row) (o : Obj) (d' : Row) : Decidable (CommitClean st k d o d') := by
  unfold CommitClean; infer_instance

/-- the row a commit leaves verifies -/
def CommitVerifies (st : SealState) (k : Kind) (_ : Row) (_ : Obj) (d' : Row) : Prop := verifyRow st k d' = true

instance (st : SealState) (k : Kind) (d : Row) (o : Obj) (d' : Row) : Decidable (CommitVerifies st k d o d') := by
  unfold CommitVerifies; infer_instance

/-- the committed row verifies and every object is honest -/
abbrev RaceInv (st : SealState) (k : Kind) : Threads.St Row (Option Obj) → Prop :=
  Threads.Inv (fun d => verifyRow st k d = true) fun _ _ l => Honest st k l

section Races

variable {st : SealState} {κ : Key} (hk : st.key = some κ) (k : Kind)
include hk

theorem race_step {s : Threads.St Row (Option Obj)} {o : ℕ × TxnOp} (hs : RaceInv st k s)
    (hc : AtCommit st k (CommitVerifies st k) s o) : RaceInv st k (raceStep st k s o) := by
  refine Threads.rely_step (R := fun _ _ _ => True)
    (C := fun _ d l a => a = .commit → ∀ x, l = some x → verifyRow st k (flushRow st k x d) = true)
    ?_ (fun _ _ _ _ _ _ _ => trivial) (fun _ _ _ _ _ _ _ _ h => h) hs ?_
  · intro t d l a hd hl ha
    cases a with
    | load =>
      refine ⟨hd, fun o ho => ?_⟩
      obtain rfl := Option.some.inj ho
      exact ⟨d, d.vals, false, rfl, hd⟩
    | assign f v =>
      refine ⟨hd, fun o ho => ?_⟩
      obtain ⟨x, rfl, rfl⟩ := Option.map_eq_some_iff.1 ho
      obtain ⟨r, w, b, rfl, hr⟩ := hl x rfl
      exact ⟨r, _, b, edit_assign r w b f v, hr⟩
    | touch =>
      refine ⟨hd, fun o ho => ?_⟩
      obtain ⟨x, rfl, rfl⟩ := Option.map_eq_some_iff.1 ho
      obtain ⟨r, w, b, rfl, hr⟩ := hl x rfl
      exact ⟨r, w, true, rfl, hr⟩
    | commit =>
      cases l with
      | none => exact ⟨hd, fun o ho => by simp [txn] at ho⟩
      | some x =>
        refine ⟨ha rfl x rfl, fun o ho => ?_⟩
        obtain rfl := Option.some.inj ho
        obtain ⟨r, w, b, rfl, hr⟩ := hl x rfl
        exact honest_flushObj hk hr d
    | rollback => exact ⟨hd, fun o ho => by simp [txn] at ho⟩
  · obtain ⟨t, a⟩ := o
    exact fun ha x hx => hc ha x hx

/-- **Over every interleaving**: the row verifies after every commit iff every commit that writes a seal finds the sealed
columns it did not change at the values it loaded. -/
theorem races_verify_iff {r : Row} (hr : verifyRow st k r = true) (ops : List (ℕ × TxnOp)) :
    Machine.Along (raceStep st k) (AtCommit st k (CommitVerifies st k)) (raceStart r) ops ↔
      Machine.Along (raceStep st k) (AtCommit st k (CommitClean st k)) (raceStart r) ops := by
  have agree : ∀ s o, RaceInv st k s →
      (AtCommit st k (CommitVerifies st k) s o ↔ AtCommit st k (CommitClean st k) s o) := by
    intro s o hs
    refine forall_congr' fun _ => forall₂_congr fun x hx => ?_
    obtain ⟨r, v, b, rfl, hr⟩ := hs.loc o.1 x hx
    exact commit_verifies_iff hk hr hs.shared
  refine Machine.along_congr_inv (I := RaceInv st k) (fun s o hs hc => race_step hk k hs ((agree s o hs).2 hc))
    agree ⟨hr, fun _ o ho => ?_⟩
  simp [raceStart] at ho

end Races

/-! ### Revocation and renewal of one certificate -/

section Examples

/-- a certificate row with the columns the two transactions write -/
def certVals (status : String) (reason : Option String) : Values
  | .status => .str status
  | .revocationReason => .ofStr? reason
  | _ => .null

def certRow (status : String) (reason : Option String) : Row :=
  ⟨certVals status reason, compute demoState .certificate (certVals status reason)⟩

theorem races_verify_iff_serial :
    Machine.Along (raceStep demoState .certificate) (AtCommit demoState .certificate
      (CommitVerifies demoState .certificate)) (raceStart (certRow "active" none))
      [(0, .load), (0, .assign .status (.str "superseded")), (0, .commit), (1, .load),
        (1, .assign .status (.str "revoked")), (1, .commit)] :=
  (races_verify_iff (show demoState.key = some "key" from rfl) .certificate (by decide) _).2 (by decide)

/-- A revocation writes `status` and `revocation_reason`, a renewal of the same certificate `status` only. Both loaded
the active row; after both commits the reason is the revocation's and the seal covers the renewal's row. -/
theorem revoke_races_renew :
    ¬ Machine.Along (raceStep demoState .certificate) (AtCommit demoState .certificate
      (CommitVerifies demoState .certificate)) (raceStart (certRow "active" none))
      [(0, .load), (1, .load), (0, .assign .status (.str "revoked")),
        (0, .assign .revocationReason (.str "key_compromise")), (0, .commit),
        (1, .assign .status (.str "superseded")), (1, .commit)] := by
  decide

end Examples

end Certadillo.Integrity
