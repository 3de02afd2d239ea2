/-
The before_flush hook (`_reseal`) over SQLAlchemy's attribute history, and what one flush does to the validity of a
row's seal.

An object of a sealed class carries, for each column, the value it loaded (`Attr.loaded`, absent when the attribute is
expired or was never loaded) and the value in its instance dict (`Attr.cur`). The history of an attribute holds the old
value only if it was loaded; a rollback expires every attribute; an UPDATE writes the modified columns only.

Machine: one session works on one row (`load`, `assign`, `touch` an unsealed column, `flush`, `commit`, `rollback`),
with SQL writes by others whenever the session holds no uncommitted UPDATE of the row.

Results:
- `flush_fresh`: if the values the hook rebuilds from the history are the stored ones (`Fresh`), the flush keeps a valid
  seal valid and leaves the seal of an invalid row alone.
- `run_preserves`: so does every flush of a run whose flushes are all fresh.
- `expired_assignment_breaks`: an attribute assigned after a rollback, before it is loaded again, breaks the seal of an
  intact row. A row changed in SQL after it was loaded gets a new seal from the next flush (the last example).
-/
import Certadillo.Lib.Run
import Certadillo.Seal

namespace Certadillo.Integrity

/-! ## Attribute history -/

/-- one column attribute of an object: the value loaded from the database and the value in the instance dict -/
structure Attr (α : Type) where
  loaded : Option α
  cur : Option α
deriving DecidableEq, Repr

/-- `AttributeState.history`: each list has at most one element -/
structure History (α : Type) where
  added : Option α
  unchanged : Option α
  deleted : Option α

namespace Attr

variable {α : Type} [DecidableEq α]

def expired : Attr α := ⟨none, none⟩

def fresh (v : α) : Attr α := ⟨some v, some v⟩

/-- the old value is in the history only if the attribute was loaded -/
def history (a : Attr α) : History α :=
  match a.cur, a.loaded with
  | none, _ => ⟨none, none, none⟩
  | some v, none => ⟨some v, none, none⟩
  | some v, some w => if v = w then ⟨none, some v, none⟩ else ⟨some v, none, some w⟩

/-- the attribute has a net change -/
def modified (a : Attr α) : Bool := a.history.added.isSome || a.history.deleted.isSome

/-- `getattr` of an expired attribute reads the stored value -/
def get (a : Attr α) (stored : α) : α := a.cur.getD stored

/-- reading an expired attribute loads it -/
def load (a : Attr α) (stored : α) : Attr α :=
  match a.cur with
  | none => fresh stored
  | some _ => a

def set (a : Attr α) (v : α) : Attr α := ⟨a.loaded, some v⟩

/-- what an UPDATE leaves in the column -/
def write (a : Attr α) (stored : α) : α := if a.modified then a.get stored else stored

/-- after the UPDATE the written value is the committed one -/
def settle (a : Attr α) : Attr α :=
  match a.cur with
  | none => a
  | some v => fresh v

end Attr

/-- `_committed`: the value before the pending change, as the hook rebuilds it from the history -/
def committed {α : Type} [DecidableEq α] (a : Attr α) (stored : α) : α :=
  match a.history.deleted, a.history.unchanged with
  | some w, _ => w
  | none, some v => v
  | none, none => a.get stored

/-- an object of a sealed class in a session; `other` says that an unsealed column was modified. The application never
assigns the seal: only the hook does. -/
structure Obj where
  attrs : Field → Attr Json
  sealHex : Attr (Option Seal)
  other : Bool

namespace Obj

def expired : Obj := ⟨fun _ => .expired, .expired, false⟩

/-- `session.is_modified` -/
def isModified (k : Kind) (o : Obj) : Bool := o.other || (FIELDS k).any fun f => (o.attrs f).modified

/-- SQLAlchemy loads every expired attribute of the instance at once -/
def load (o : Obj) (stored : Row) : Obj :=
  ⟨fun f => (o.attrs f).load (stored.vals f), o.sealHex.load stored.sealHex, o.other⟩

def assign (o : Obj) (f : Field) (v : Json) : Obj :=
  { o with attrs := fun g => if g = f then (o.attrs f).set v else o.attrs g }

/-- the values `getattr` gives -/
def values (o : Obj) (stored : Row) : Values := fun f => (o.attrs f).get (stored.vals f)

def settle (o : Obj) : Obj := ⟨fun f => (o.attrs f).settle, o.sealHex.settle, false⟩

end Obj

/-! ## The hook and the UPDATE -/

/-- the committed values of the sealed fields, as the hook rebuilds them -/
def original (o : Obj) (stored : Row) : Values := fun f => committed (o.attrs f) (stored.vals f)

/-- `_reseal` for an object of session.dirty -/
def reseal (st : SealState) (k : Kind) (o : Obj) (stored : Row) : Obj :=
  if st.key.isNone then o
  else if !o.isModified k then o
  else
    let o' := o.load stored
    if matchesSeal st k (original o stored) (committed o.sealHex stored.sealHex) then
      { o' with sealHex := o'.sealHex.set (compute st k (o.values stored)) }
    else
      -- The stored row was already tampered with. Keep the broken seal so it stays visible.
      o'

/-- the row after the UPDATE of an object's modified columns -/
def update (o : Obj) (stored : Row) : Row :=
  ⟨fun f => (o.attrs f).write (stored.vals f), o.sealHex.write stored.sealHex⟩

def flushRow (st : SealState) (k : Kind) (o : Obj) (stored : Row) : Row := update (reseal st k o stored) stored

def flushObj (st : SealState) (k : Kind) (o : Obj) (stored : Row) : Obj := (reseal st k o stored).settle

/-! ### Attribute lemmas -/

section AttrLemmas

variable {α : Type} [DecidableEq α] (a : Attr α) (v w : α)

theorem Attr.modified_iff : a.modified = true ↔ a.cur.isSome ∧ a.loaded ≠ a.cur := by
  obtain ⟨l, c⟩ := a
  cases c <;> cases l <;> simp [Attr.modified, Attr.history]
  split <;> simp_all [eq_comm]

theorem Attr.write_load : (a.load v).write v = a.write v := by
  obtain ⟨l, c⟩ := a
  cases c <;> simp [Attr.load, Attr.write, Attr.modified, Attr.history, Attr.fresh]

theorem Attr.write_of_loaded (h : a.loaded = some w) : a.write v = if a.cur.getD w = w then v else a.cur.getD w := by
  obtain ⟨l, c⟩ := a
  simp only at h
  subst h
  cases c with
  | none => simp [Attr.write, Attr.modified, Attr.history]
  | some x =>
    by_cases hx : x = w <;> simp [Attr.write, Attr.modified, Attr.history, Attr.get, hx]

/-- if the rebuilt value is the stored one, the UPDATE leaves the in-memory value in the column -/
theorem Attr.write_of_committed (h : committed a v = v) : a.write v = a.get v := by
  obtain ⟨l, c⟩ := a
  cases c with
  | none => simp [Attr.write, Attr.modified, Attr.history, Attr.get]
  | some x =>
    cases l with
    | none => simp [Attr.write, Attr.modified, Attr.history, Attr.get]
    | some y =>
      by_cases hxy : x = y
      · simp only [committed, Attr.history, hxy, if_true] at h
        simp [Attr.write, Attr.modified, Attr.history, Attr.get, hxy, h]
      · simp [Attr.write, Attr.modified, Attr.history, Attr.get, hxy]

/-- an unmodified attribute whose rebuilt value is the stored one is loaded with it -/
theorem Attr.loaded_load (hm : a.modified = false) (h : committed a v = v) : (a.load v).loaded = some v := by
  obtain ⟨l, c⟩ := a
  cases c with
  | none => simp [Attr.load, Attr.fresh]
  | some x =>
    cases l with
    | none => simp [Attr.modified, Attr.history] at hm
    | some y =>
      by_cases hxy : x = y
      · simp only [committed, Attr.history, hxy, if_true] at h
        simp [Attr.load, h]
      · simp [Attr.modified, Attr.history, hxy] at hm

theorem committed_load : committed (a.load v) v = committed a v := by
  obtain ⟨l, c⟩ := a
  cases c <;> simp [committed, Attr.load, Attr.history, Attr.fresh, Attr.get]

end AttrLemmas

theorem update_load (o : Obj) (stored : Row) : update (o.load stored) stored = update o stored := by
  simp only [update, Obj.load, Attr.write_load]

/-! ## One flush -/

/-- The claim about one flush: a valid seal stays valid, and the stored seal of an invalid row does not change. -/
def Preserves (st : SealState) (k : Kind) (o : Obj) (stored : Row) : Prop :=
  (verifyRow st k stored = true → verifyRow st k (flushRow st k o stored) = true) ∧
  (verifyRow st k stored = false → (flushRow st k o stored).sealHex = stored.sealHex)

instance (st : SealState) (k : Kind) (o : Obj) (stored : Row) : Decidable (Preserves st k o stored) := by
  unfold Preserves; infer_instance

/-- the values the hook rebuilds are the stored ones: every loaded sealed attribute still has its loaded value in the
database, and one assigned without being loaded is assigned the value stored -/
def Fresh (k : Kind) (o : Obj) (stored : Row) : Prop :=
  (∀ f ∈ FIELDS k, original o stored f = stored.vals f) ∧ committed o.sealHex stored.sealHex = stored.sealHex

/-- nothing modified, nothing written -/
theorem update_unmodified {k : Kind} {o : Obj} (h : o.isModified k = false) (hs : o.sealHex.modified = false)
    (stored : Row) :
    (update o stored).sealHex = stored.sealHex ∧ ∀ f ∈ FIELDS k, (update o stored).vals f = stored.vals f := by
  simp only [Obj.isModified, Bool.or_eq_false_iff, List.any_eq_false] at h
  refine ⟨by simp [update, Attr.write, hs], fun f hf => ?_⟩
  have := h.2 f hf
  simp only [Bool.not_eq_true] at this
  simp [update, Attr.write, this]

theorem verifyRow_congr {st : SealState} {k : Kind} {r r' : Row} (hs : r.sealHex = r'.sealHex)
    (hv : ∀ f ∈ FIELDS k, r.vals f = r'.vals f) : verifyRow st k r = verifyRow st k r' := by
  simp only [verifyRow, hs, matchesSeal_congr st _ hv]

theorem flushRow_unmodified {k : Kind} {o : Obj} (h : o.isModified k = false) (st : SealState) (stored : Row) :
    flushRow st k o stored = update o stored := by
  simp [flushRow, reseal, h]

theorem flush_unmodified {st : SealState} {k : Kind} {o : Obj} (h : o.isModified k = false)
    (hs : o.sealHex.modified = false) (stored : Row) : Preserves st k o stored := by
  have hr := flushRow_unmodified h st stored
  have hu := update_unmodified h hs stored
  refine ⟨fun hv => ?_, fun _ => by rw [hr]; exact hu.1⟩
  rw [hr, verifyRow_congr hu.1 hu.2]
  exact hv

section FreshFlush

variable {st : SealState} {κ : Key} (hk : st.key = some κ) {k : Kind} {o : Obj} {stored : Row}
include hk

/-- a fresh flush of a modified object leaves the in-memory values in the sealed columns -/
theorem flush_fresh_vals (hm : o.isModified k = true) (h : Fresh k o stored) :
    ∀ f ∈ FIELDS k, (flushRow st k o stored).vals f = o.values stored f := by
  have hkey : st.key.isNone = false := by simp [hk]
  intro f hf
  have : (flushRow st k o stored).vals f = (o.attrs f).write (stored.vals f) := by
    simp only [flushRow, reseal, hkey, hm, Bool.false_eq_true, Bool.not_true, if_false]
    split <;> simp [update, Obj.load, Attr.write_load]
  rw [this]
  exact Attr.write_of_committed _ _ (h.1 f hf)

/-- and in the seal column the seal of these values, if the stored row matched its seal, else the stored seal -/
theorem flush_fresh_seal (hm : o.isModified k = true) (hs : o.sealHex.modified = false) (h : Fresh k o stored) :
    (flushRow st k o stored).sealHex =
      if matchesSeal st k stored.vals stored.sealHex then compute st k (o.values stored) else stored.sealHex := by
  have hkey : st.key.isNone = false := by simp [hk]
  have hcheck : matchesSeal st k (original o stored) (committed o.sealHex stored.sealHex) =
      matchesSeal st k stored.vals stored.sealHex := by
    rw [h.2, matchesSeal_congr st _ h.1]
  simp only [flushRow, reseal, hkey, hm, Bool.false_eq_true, Bool.not_true, if_false, hcheck]
  by_cases hc : matchesSeal st k stored.vals stored.sealHex = true
  · have hl : (o.load stored).sealHex.loaded = some stored.sealHex := Attr.loaded_load _ _ hs h.2
    simp only [hc, if_true, update]
    rw [Attr.write_of_loaded _ _ _ (by simpa [Attr.set] using hl)]
    simp only [Attr.set, Option.getD_some]
    by_cases he : compute st k (o.values stored) = stored.sealHex <;> simp [he]
  · rw [if_neg hc, if_neg hc, update_load]
    simp [update, Attr.write, hs]

/-- **A fresh flush preserves exactly the validity of the seal.** -/
theorem flush_fresh (hs : o.sealHex.modified = false) (h : Fresh k o stored) : Preserves st k o stored := by
  by_cases hm : o.isModified k
  swap
  · exact flush_unmodified (by simpa using hm) hs stored
  have hseal := flush_fresh_seal hk hm hs h
  refine ⟨fun hv => ?_, fun hv => ?_⟩
  · rw [if_pos ((verifyRow_iff hk).1 hv)] at hseal
    rw [verifyRow_iff hk, hseal, matchesSeal_congr st _ (flush_fresh_vals hk hm h)]
    exact matches_compute hk k _
  · have hc : matchesSeal st k stored.vals stored.sealHex = false := by
      simpa [verifyRow, hk] using hv
    rw [hseal, if_neg (by simp [hc])]

end FreshFlush

/-- an object loaded in full from the stored row, with the sealed columns assigned; `other` as in `Obj` -/
def Obj.edit (stored : Row) (new : Values) (other : Bool) : Obj :=
  ⟨fun f => ⟨some (stored.vals f), some (new f)⟩, .fresh stored.sealHex, other⟩

theorem fresh_edit (k : Kind) (stored : Row) (new : Values) (other : Bool) : Fresh k (.edit stored new other) stored := by
  refine ⟨fun f _ => ?_, by simp [Obj.edit, committed, Attr.fresh, Attr.history]⟩
  by_cases h : new f = stored.vals f <;> simp [original, committed, Obj.edit, Attr.history, h]

theorem edit_modified (k : Kind) (stored : Row) (new : Values) (other : Bool) :
    (Obj.edit stored new other).isModified k = true ↔ other = true ∨ ∃ f ∈ FIELDS k, new f ≠ stored.vals f := by
  have h1 : ∀ f, ((Obj.edit stored new other).attrs f).modified = true ↔ new f ≠ stored.vals f := fun f => by
    simp [Attr.modified_iff, Obj.edit, ne_comm]
  simp only [Obj.isModified, Bool.or_eq_true, List.any_eq_true, h1]
  rfl

/-! ## One session and one row -/

/-- a row as the session sees it and as committed, whether the session holds an uncommitted UPDATE of it, and the
session's object -/
structure Orm where
  stored : Row
  committed : Row
  held : Bool
  obj : Obj

/-- `load` reads the attributes, `touch` modifies an unsealed column, `sql` replaces the row from outside -/
inductive OrmOp where
  | load
  | assign (f : Field) (v : Json)
  | touch
  | flush
  | commit
  | rollback
  | sql (row : Row)

namespace Orm

def init (r : Row) : Orm := ⟨r, r, false, .expired⟩

/-- `session.flush()` -/
def flush (st : SealState) (k : Kind) (s : Orm) : Orm :=
  { s with
    stored := flushRow st k s.obj s.stored
    held := s.held || s.obj.isModified k
    obj := flushObj st k s.obj s.stored }

def step (st : SealState) (k : Kind) (s : Orm) : OrmOp → Orm
  | .load => { s with obj := s.obj.load s.stored }
  | .assign f v => { s with obj := s.obj.assign f v }
  | .touch => { s with obj := { s.obj with other := true } }
  | .flush => s.flush st k
  -- expire_on_commit=False: the object keeps its attributes
  | .commit => let s' := s.flush st k; { s' with committed := s'.stored, held := false }
  | .rollback => { s with stored := s.committed, held := false, obj := .expired }
  -- an outside write waits for the row lock of an uncommitted UPDATE
  | .sql r => if s.held then s else { s with stored := r, committed := r }

/-- `P` of the object and the stored row whenever a flush begins (a commit flushes first) -/
def AtFlush (P : Obj → Row → Prop) (s : Orm) : OrmOp → Prop
  | .flush | .commit => P s.obj s.stored
  | _ => True

instance (P : Obj → Row → Prop) [∀ o r, Decidable (P o r)] (s : Orm) : ∀ o, Decidable (AtFlush P s o)
  | .flush | .commit => inferInstanceAs (Decidable (P s.obj s.stored))
  | .load | .assign _ _ | .touch | .rollback | .sql _ => inferInstanceAs (Decidable True)

/-- what every operation keeps: the application never assigns the seal column -/
def SealUntouched (s : Orm) : Prop := s.obj.sealHex.modified = false

end Orm

theorem Attr.modified_load {α : Type} [DecidableEq α] (a : Attr α) (v : α) (h : a.modified = false) :
    (a.load v).modified = false := by
  obtain ⟨l, c⟩ := a
  cases c <;> simp_all [Attr.load, Attr.fresh, Attr.modified, Attr.history]

theorem Attr.modified_settle {α : Type} [DecidableEq α] (a : Attr α) : a.settle.modified = false := by
  obtain ⟨l, c⟩ := a
  cases c <;> simp [Attr.settle, Attr.fresh, Attr.modified, Attr.history]

theorem Orm.step_sealUntouched (st : SealState) (k : Kind) (s : Orm) (o : OrmOp) (h : s.SealUntouched) :
    (s.step st k o).SealUntouched := by
  unfold Orm.SealUntouched at h ⊢
  cases o with
  | load => exact Attr.modified_load _ _ h
  | assign f v => exact h
  | touch => exact h
  | flush => exact Attr.modified_settle _
  | commit => exact Attr.modified_settle _
  | rollback => rfl
  | sql r => simp only [Orm.step]; split_ifs <;> exact h

/-- the values the hook rebuilds are the stored ones, or there is nothing to flush -/
def Current (k : Kind) (o : Obj) (stored : Row) : Prop := o.isModified k = false ∨ Fresh k o stored

instance (k : Kind) (o : Obj) (stored : Row) : Decidable (Current k o stored) := by
  unfold Current Fresh; infer_instance

/-- **Over every run of one session and outside writes**: if every flush that writes rebuilds the stored values, every
flush keeps a valid row valid and leaves the seal of an invalid row alone. -/
theorem run_preserves {st : SealState} {κ : Key} (hk : st.key = some κ) (k : Kind) (r : Row) (ops : List OrmOp)
    (h : Machine.Along (Orm.step st k) (Orm.AtFlush (Current k)) (.init r) ops) :
    Machine.Along (Orm.step st k) (Orm.AtFlush (Preserves st k)) (.init r) ops := by
  have one : ∀ s : Orm, s.SealUntouched → Current k s.obj s.stored → Preserves st k s.obj s.stored := by
    rintro s hs (hm | hf)
    · exact flush_unmodified hm hs _
    · exact flush_fresh hk hs hf
  refine Machine.along_of_inv (I := Orm.SealUntouched) (fun s o hs _ => s.step_sealUntouched st k o hs) ?_ rfl h
  intro s o hs hc
  cases o with
  | flush => exact one s hs hc
  | commit => exact one s hs hc
  | load | assign | touch | rollback | sql => trivial

/-! ### Runs on one row -/

section Examples

/-- a configured key and enforced seals -/
def demoState : SealState := ⟨some "key", none, true⟩

/-- an app row with every sealed column null but its status -/
def demoVals (status : String) : Values := fun f => if f = .status then .str status else .null

/-- the row the application stored -/
def demoRow : Row := ⟨demoVals "pending_approval", compute demoState .app (demoVals "pending_approval")⟩

/-- a session that loads, assigns and commits, twice, around an outside write of the intact row -/
theorem run_preserves_loaded :
    Machine.Along (Orm.step demoState .app) (Orm.AtFlush (Preserves demoState .app)) (.init demoRow)
      [.load, .assign .status (.str "active"), .commit, .sql demoRow, .rollback, .load,
        .assign .status (.str "rejected"), .commit] :=
  run_preserves (show demoState.key = some "key" from rfl) .app demoRow _ (by decide)

/-- An attribute assigned after a rollback, before it is loaded again: the hook takes the new value for the committed
one, finds the seal broken, keeps it, and the UPDATE breaks an intact row. -/
theorem expired_assignment_breaks :
    ¬ Machine.Along (Orm.step demoState .app) (Orm.AtFlush (Preserves demoState .app)) (.init demoRow)
      [.load, .rollback, .assign .status (.str "active"), .flush] := by
  decide

/-- A row changed in SQL after it was loaded: the hook checks the values it loaded and gives the row a new seal. -/
example :
    ¬ Machine.Along (Orm.step demoState .app) (Orm.AtFlush (Preserves demoState .app)) (.init demoRow)
      [.load, .sql ⟨fun f => if f = .allowedDomains then .ofStrs ["*.bank.internal"] else demoRow.vals f,
        demoRow.sealHex⟩, .assign .status (.str "active"), .flush] := by
  decide

end Examples

end Certadillo.Integrity
