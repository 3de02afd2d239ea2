/-
Programs over one database session: a committed state, a working state, exceptions, and commits and rollbacks in the
middle.

A program either returns or raises; what it wrote before a raise stays in the working state until someone commits or
rolls back. `transact` is the usual context manager around a session: commit on return, rollback on a raise.

Effects are stated over a relation `W` of single writes, for every path through a program, returning or raising:
- `Calm W m`: `m` never commits or rolls back, and only makes writes of `W`.
- `Onward W m`: `m` only makes writes of `W`, and may commit, but never rolls back.
- `Does W m`: what holds of the committed and the working state and every write of `W` keeps, still does after `m`.
- `CalmAt`, `DoesAt`: the same from one session; `calmAt_bind`, `doesAt_bind` give the second part what the first returned.
- `Returns m s`: `m` returns; `returns_bind`, `returns_get_bind`, ... compute when.
- `transact_does`, `transact_error`: what a transaction does to the database; a calm one that raises does nothing.
-/
import Mathlib.Tactic

/-! ## Pure computations that may raise -/

section Raising

universe u v

variable {ε : Type u} {α β : Type v}

/-- a bind returns iff both parts do -/
theorem except_bind_ok {x : Except ε α} {f : α → Except ε β} {b : β} :
    x >>= f = .ok b ↔ ∃ a, x = .ok a ∧ f a = .ok b := by
  cases x with
  | error e =>
    constructor
    · intro h
      cases h
    · rintro ⟨_, h, -⟩
      cases h
  | ok a =>
    constructor
    · exact fun h => ⟨a, rfl, h⟩
    · rintro ⟨_, ⟨⟩, h⟩
      exact h

theorem except_map_ok {x : Except ε α} {f : α → β} {b : β} : x.map f = .ok b ↔ ∃ a, x = .ok a ∧ f a = b := by
  cases x with
  | error e => simp [Except.map]
  | ok a => simp [Except.map]

theorem except_ok_bind (a : α) (f : α → Except ε β) : (Except.ok a >>= f) = f a := rfl

theorem except_error_bind (e : ε) (f : α → Except ε β) : (Except.error e >>= f) = .error e := rfl

@[simp] theorem except_pure_ok {a b : α} : (pure a : Except ε α) = .ok b ↔ a = b := by
  constructor
  · intro h
    cases h
    rfl
  · exact congrArg _

@[simp] theorem except_throw_ok {e : ε} {b : α} : (throw e : Except ε α) = .ok b ↔ False :=
  ⟨(nomatch ·), False.elim⟩

/-- a traversal returns iff it returns at every element -/
theorem except_mapM_returns {f : α → Except ε β} {xs : List α} :
    (∃ ys, xs.mapM f = .ok ys) ↔ ∀ x ∈ xs, ∃ y, f x = .ok y := by
  induction xs with
  | nil => simp
  | cons x xs ih =>
    simp only [List.mapM_cons, List.forall_mem_cons, ← ih]
    constructor
    · rintro ⟨_, h⟩
      obtain ⟨y, hy, h⟩ := except_bind_ok.1 h
      obtain ⟨ys, hys, -⟩ := except_bind_ok.1 h
      exact ⟨⟨y, hy⟩, ys, hys⟩
    · rintro ⟨⟨y, hy⟩, ys, hys⟩
      exact ⟨y :: ys, except_bind_ok.2 ⟨y, hy, except_bind_ok.2 ⟨ys, hys, rfl⟩⟩⟩

/-- what a traversal returns is what the elements give -/
theorem except_mapM_mem {f : α → Except ε β} {xs : List α} {ys : List β} (h : xs.mapM f = .ok ys) {y : β} :
    y ∈ ys ↔ ∃ x ∈ xs, f x = .ok y := by
  induction xs generalizing ys with
  | nil =>
    cases h
    simp
  | cons x xs ih =>
    rw [List.mapM_cons] at h
    obtain ⟨y', hy', h⟩ := except_bind_ok.1 h
    obtain ⟨ys', hys', h⟩ := except_bind_ok.1 h
    cases h
    simp [ih hys', hy', eq_comm]

/-- a traversal that returns at every element is a map -/
theorem except_mapM_map {f : α → Except ε β} {g : α → β} {xs : List α} (h : ∀ x ∈ xs, f x = .ok (g x)) :
    xs.mapM f = .ok (xs.map g) := by
  induction xs with
  | nil => rfl
  | cons x xs ih =>
    rw [List.mapM_cons, h x List.mem_cons_self, ih fun y hy => h y (List.mem_cons_of_mem _ hy)]
    rfl

end Raising

/-! ## Sessions -/

/-- the state other sessions see, and the one this session sees -/
structure Session (σ : Type*) where
  committed : σ
  work : σ

/-- a program that returns an `α` or raises an `ε` -/
def Tx (ε σ α : Type) := Session σ → Except ε α × Session σ

namespace Tx

variable {ε σ α β : Type}

protected def pure (a : α) : Tx ε σ α := fun s => (.ok a, s)

protected def bind (m : Tx ε σ α) (f : α → Tx ε σ β) : Tx ε σ β := fun s =>
  match m s with
  | (.ok a, s') => f a s'
  | (.error e, s') => (.error e, s')

instance : Monad (Tx ε σ) where
  pure := Tx.pure
  bind := Tx.bind

def throw (e : ε) : Tx ε σ α := fun s => (.error e, s)

/-- the session's view of the database -/
def get : Tx ε σ σ := fun s => (.ok s.work, s)

def modify (f : σ → σ) : Tx ε σ Unit := fun s => (.ok (), { s with work := f s.work })

def commit : Tx ε σ Unit := fun s => (.ok (), ⟨s.work, s.work⟩)

def rollback : Tx ε σ Unit := fun s => (.ok (), ⟨s.committed, s.committed⟩)

/-- a pure computation that may raise -/
def ofExcept (x : Except ε α) : Tx ε σ α := fun s => (x, s)

/-- `try`: the outcome as a value; nothing is rolled back -/
def attempt (m : Tx ε σ α) : Tx ε σ (Except ε α) := fun s => (.ok (m s).1, (m s).2)

/-- run in a session of its own: commit when it returns, roll back when it raises -/
def transact (m : Tx ε σ α) (d : σ) : Except ε α × σ :=
  match m ⟨d, d⟩ with
  | (.ok a, s) => (.ok a, s.work)
  | (.error e, s) => (.error e, s.committed)

/-! ## Running -/

@[simp] theorem pure_run (a : α) (s : Session σ) : (pure a : Tx ε σ α) s = (.ok a, s) := rfl

@[simp] theorem throw_run (e : ε) (s : Session σ) : (throw e : Tx ε σ α) s = (.error e, s) := rfl

@[simp] theorem get_run (s : Session σ) : (get : Tx ε σ σ) s = (.ok s.work, s) := rfl

@[simp] theorem modify_run (f : σ → σ) (s : Session σ) :
    (modify f : Tx ε σ Unit) s = (.ok (), { s with work := f s.work }) := rfl

@[simp] theorem commit_run (s : Session σ) : (commit : Tx ε σ Unit) s = (.ok (), ⟨s.work, s.work⟩) := rfl

@[simp] theorem rollback_run (s : Session σ) :
    (rollback : Tx ε σ Unit) s = (.ok (), ⟨s.committed, s.committed⟩) := rfl

@[simp] theorem ofExcept_run (x : Except ε α) (s : Session σ) : (ofExcept x : Tx ε σ α) s = (x, s) := rfl

@[simp] theorem attempt_run (m : Tx ε σ α) (s : Session σ) : attempt m s = (.ok (m s).1, (m s).2) := rfl

theorem bind_run (m : Tx ε σ α) (f : α → Tx ε σ β) (s : Session σ) :
    (m >>= f) s = match m s with
      | (.ok a, s') => f a s'
      | (.error e, s') => (.error e, s') := rfl

theorem bind_ok {m : Tx ε σ α} {f : α → Tx ε σ β} {s s' : Session σ} {a : α} (h : m s = (.ok a, s')) :
    (m >>= f) s = f a s' := by
  rw [bind_run, h]

theorem bind_error {m : Tx ε σ α} {f : α → Tx ε σ β} {s s' : Session σ} {e : ε} (h : m s = (.error e, s')) :
    (m >>= f) s = (.error e, s') := by
  rw [bind_run, h]

theorem get_bind (f : σ → Tx ε σ β) (s : Session σ) : (get >>= f) s = f s.work s := rfl

theorem modify_bind (g : σ → σ) (f : Unit → Tx ε σ β) (s : Session σ) :
    (modify g >>= f) s = f () { s with work := g s.work } := rfl

theorem bind_assoc {γ : Type} (m : Tx ε σ α) (f : α → Tx ε σ β) (g : β → Tx ε σ γ) :
    (m >>= f) >>= g = m >>= fun a => f a >>= g := by
  funext s
  rw [bind_run, bind_run, bind_run]
  rcases m s with ⟨e | a, s'⟩
  · rfl
  · rfl

/-- a bind returns iff both parts do -/
theorem bind_returns {m : Tx ε σ α} {f : α → Tx ε σ β} {s s'' : Session σ} {b : β} :
    (m >>= f) s = (.ok b, s'') ↔ ∃ a s', m s = (.ok a, s') ∧ f a s' = (.ok b, s'') := by
  rw [bind_run]
  rcases hm : m s with ⟨_ | a, s'⟩
  · simp
  · simp

/-! ## Returning -/

/-- from `s`, `m` returns -/
def Returns (m : Tx ε σ α) (s : Session σ) : Prop := ∃ a s', m s = (.ok a, s')

section Returns

variable {s : Session σ}

theorem returns_of_run {m : Tx ε σ α} {a : α} {s' : Session σ} (h : m s = (.ok a, s')) : Returns m s := ⟨a, s', h⟩

instance (m : Tx ε σ α) (s : Session σ) : Decidable (Returns m s) :=
  match h : m s with
  | (.ok a, s') => .isTrue ⟨a, s', h⟩
  | (.error _, _) => .isFalse fun ⟨_, _, h'⟩ => nomatch h.symm.trans h'

theorem returns_throw (e : ε) : ¬ Returns (throw e : Tx ε σ α) s := fun ⟨_, _, h⟩ => nomatch h

theorem returns_bind {m : Tx ε σ α} {f : α → Tx ε σ β} :
    Returns (m >>= f) s ↔ ∃ a s', m s = (.ok a, s') ∧ Returns (f a) s' := by
  constructor
  · rintro ⟨b, s'', h⟩
    obtain ⟨a, s', hm, hf⟩ := bind_returns.1 h
    exact ⟨a, s', hm, b, s'', hf⟩
  · rintro ⟨a, s', hm, b, s'', hf⟩
    exact ⟨b, s'', bind_returns.2 ⟨a, s', hm, hf⟩⟩

/-- a second part that always returns -/
theorem returns_bind_total {m : Tx ε σ α} {f : α → Tx ε σ β} (hf : ∀ a s', Returns (f a) s') :
    Returns (m >>= f) s ↔ Returns m s := by
  rw [returns_bind]
  constructor
  · rintro ⟨a, s', h, -⟩
    exact ⟨a, s', h⟩
  · rintro ⟨a, s', h⟩
    exact ⟨a, s', h, hf a s'⟩

theorem returns_get_bind {f : σ → Tx ε σ β} : Returns (get >>= f) s ↔ Returns (f s.work) s := Iff.rfl

theorem returns_ofExcept_bind {x : Except ε α} {f : α → Tx ε σ β} :
    Returns (ofExcept x >>= f) s ↔ ∃ a, x = .ok a ∧ Returns (f a) s := by
  cases x with
  | error e =>
    constructor
    · rintro ⟨_, _, h⟩
      cases h
    · rintro ⟨_, h, -⟩
      cases h
  | ok a =>
    constructor
    · exact fun h => ⟨a, rfl, h⟩
    · rintro ⟨_, ⟨⟩, h⟩
      exact h

/-- a transaction raises iff its program does not return -/
theorem transact_raises {m : Tx ε σ α} {d : σ} : (∃ e, (transact m d).1 = .error e) ↔ ¬ Returns m ⟨d, d⟩ := by
  unfold transact Returns
  rcases hm : m ⟨d, d⟩ with ⟨e | a, s'⟩
  · simp
  · simp

end Returns

/-! ## Effects -/

open Relation

section Effects

variable {W W' : σ → σ → Prop} {s : Session σ}

/-- from `s`, `m` never commits and only makes writes of `W` -/
def CalmAt (W : σ → σ → Prop) (s : Session σ) (m : Tx ε σ α) : Prop :=
  (m s).2.committed = s.committed ∧ ReflTransGen W s.work (m s).2.work

/-- from `s`, `m` only makes writes of `W` and never rolls back -/
structure OnwardAt (W : σ → σ → Prop) (s : Session σ) (m : Tx ε σ α) : Prop where
  work : ReflTransGen W s.work (m s).2.work
  committed : (m s).2.committed = s.committed ∨ ReflTransGen W s.work (m s).2.committed

/-- from `s`, what holds of both states and every write of `W` keeps, still does -/
def DoesAt (W : σ → σ → Prop) (s : Session σ) (m : Tx ε σ α) : Prop :=
  ∀ I : σ → Prop, (∀ a b, W a b → I a → I b) → I s.committed → I s.work → I (m s).2.committed ∧ I (m s).2.work

abbrev Calm (W : σ → σ → Prop) (m : Tx ε σ α) : Prop := ∀ s, CalmAt W s m

abbrev Onward (W : σ → σ → Prop) (m : Tx ε σ α) : Prop := ∀ s, OnwardAt W s m

abbrev Does (W : σ → σ → Prop) (m : Tx ε σ α) : Prop := ∀ s, DoesAt W s m

/-- what holds of a state and is kept by every write of `W` holds of every state reached -/
theorem reaches_inv {I : σ → Prop} (hI : ∀ a b, W a b → I a → I b) {a b : σ} (h : ReflTransGen W a b) (ha : I a) :
    I b := by
  induction h with
  | refl => exact ha
  | tail _ hw ih => exact hI _ _ hw ih

theorem CalmAt.onward {m : Tx ε σ α} (h : CalmAt W s m) : OnwardAt W s m := ⟨h.2, Or.inl h.1⟩

theorem Calm.onward {m : Tx ε σ α} (h : Calm W m) : Onward W m := fun s => (h s).onward

theorem OnwardAt.does {m : Tx ε σ α} (h : OnwardAt W s m) : DoesAt W s m := by
  intro I hI hc hw
  refine ⟨?_, reaches_inv hI h.work hw⟩
  rcases h.committed with hsame | hreach
  · rwa [hsame]
  · exact reaches_inv hI hreach hw

theorem Onward.does {m : Tx ε σ α} (h : Onward W m) : Does W m := fun s => (h s).does

/-- what every write keeps holds of the working state an onward program leaves -/
theorem OnwardAt.keeps {m : Tx ε σ α} {I : σ → Prop} (h : OnwardAt W s m) (hI : ∀ a b, W a b → I a → I b) (hs : I s.work)
    {r : Except ε α} {s' : Session σ} (hrun : m s = (r, s')) : I s'.work := by
  have hreach := reaches_inv hI h.work hs
  rwa [hrun] at hreach

theorem CalmAt.does {m : Tx ε σ α} (h : CalmAt W s m) : DoesAt W s m := h.onward.does

theorem DoesAt.mono {m : Tx ε σ α} (hW : ∀ a b, W a b → W' a b) (h : DoesAt W s m) : DoesAt W' s m :=
  fun I hI => h I fun a b hab => hI a b (hW a b hab)

theorem Calm.does {m : Tx ε σ α} (h : Calm W m) : Does W m := fun s => (h s).does

/-- what every write keeps holds of the working state a calm program leaves -/
theorem CalmAt.keeps {m : Tx ε σ α} {I : σ → Prop} (h : CalmAt W s m) (hI : ∀ a b, W a b → I a → I b) (hs : I s.work)
    {r : Except ε α} {s' : Session σ} (hrun : m s = (r, s')) : I s'.work := by
  have hreach := reaches_inv hI h.2 hs
  rwa [hrun] at hreach

theorem CalmAt.mono {m : Tx ε σ α} (hW : ∀ a b, W a b → W' a b) (h : CalmAt W s m) : CalmAt W' s m :=
  ⟨h.1, ReflTransGen.mono hW _ _ h.2⟩

/-! ### Calm programs -/

theorem calm_pure (a : α) : Calm W (pure a : Tx ε σ α) := fun _ => ⟨rfl, .refl⟩

theorem calm_throw (e : ε) : Calm W (throw e : Tx ε σ α) := fun _ => ⟨rfl, .refl⟩

theorem calm_get : Calm W (get : Tx ε σ σ) := fun _ => ⟨rfl, .refl⟩

theorem calm_ofExcept (x : Except ε α) : Calm W (ofExcept x : Tx ε σ α) := fun _ => ⟨rfl, .refl⟩

theorem calmAt_modify {f : σ → σ} (h : W s.work (f s.work)) : CalmAt W s (modify f : Tx ε σ Unit) :=
  ⟨rfl, .single h⟩

theorem calm_modify {f : σ → σ} (h : ∀ d, W d (f d)) : Calm W (modify f : Tx ε σ Unit) := fun s =>
  calmAt_modify (h s.work)

/-- where the first part raises it has done its own writes; where it returns, the second part starts from there -/
theorem calmAt_bind {m : Tx ε σ α} {f : α → Tx ε σ β} (hm : CalmAt W s m)
    (hf : ∀ a s', m s = (.ok a, s') → CalmAt W s' (f a)) : CalmAt W s (m >>= f) := by
  have hb := bind_run m f s
  unfold CalmAt
  rcases hms : m s with ⟨e | a, s'⟩
  · have hm' := hm
    rw [CalmAt, hms] at hm'
    rw [hb, hms]
    exact hm'
  · have hm' := hm
    rw [CalmAt, hms] at hm'
    rw [hb, hms]
    have h := hf a s' hms
    exact ⟨h.1.trans hm'.1, hm'.2.trans h.2⟩

theorem calmAt_get_bind {f : σ → Tx ε σ β} (hf : CalmAt W s (f s.work)) : CalmAt W s (get >>= f) :=
  calmAt_bind (calm_get s) fun _ _ h => by
    cases h
    exact hf

theorem calmAt_ofExcept_bind {x : Except ε α} {f : α → Tx ε σ β} (hf : ∀ a, x = .ok a → CalmAt W s (f a)) :
    CalmAt W s (ofExcept x >>= f) := by
  refine calmAt_bind (calm_ofExcept x s) fun a s' h => ?_
  rw [ofExcept_run, Prod.mk.injEq] at h
  exact h.2 ▸ hf a h.1

theorem calm_bind {m : Tx ε σ α} {f : α → Tx ε σ β} (hm : Calm W m) (hf : ∀ a, Calm W (f a)) : Calm W (m >>= f) :=
  fun s => calmAt_bind (hm s) fun a s' _ => hf a s'

theorem calm_get_bind {f : σ → Tx ε σ β} (hf : ∀ d, Calm W (f d)) : Calm W (get >>= f) := calm_bind calm_get hf

theorem calm_ofExcept_bind {x : Except ε α} {f : α → Tx ε σ β} (hf : ∀ a, x = .ok a → Calm W (f a)) :
    Calm W (ofExcept x >>= f) := fun s => calmAt_ofExcept_bind fun a h => hf a h s

theorem calm_ite {c : Prop} [Decidable c] {m n : Tx ε σ α} (hm : c → Calm W m) (hn : ¬ c → Calm W n) :
    Calm W (if c then m else n) := by
  by_cases h : c
  · rw [if_pos h]
    exact hm h
  · rw [if_neg h]
    exact hn h

/-! ### Programs that commit -/

theorem OnwardAt.mono {m : Tx ε σ α} (hW : ∀ a b, W a b → W' a b) (h : OnwardAt W s m) : OnwardAt W' s m :=
  ⟨ReflTransGen.mono hW _ _ h.work, h.committed.imp_right (ReflTransGen.mono hW _ _)⟩

theorem onward_commit : Onward W (commit : Tx ε σ Unit) := fun _ => ⟨.refl, Or.inr .refl⟩

theorem onward_attempt {m : Tx ε σ α} (h : Onward W m) : Onward W (attempt m) := fun s => ⟨(h s).work, (h s).committed⟩

theorem onwardAt_bind {m : Tx ε σ α} {f : α → Tx ε σ β} (hm : OnwardAt W s m)
    (hf : ∀ a s', m s = (.ok a, s') → OnwardAt W s' (f a)) : OnwardAt W s (m >>= f) := by
  have hb := bind_run m f s
  rcases hms : m s with ⟨e | a, s'⟩
  · rw [hms] at hb
    obtain ⟨hwork, hcommitted⟩ := hm
    rw [hms] at hwork hcommitted
    constructor
    · rw [hb]
      exact hwork
    · rw [hb]
      exact hcommitted
  · rw [hms] at hb
    obtain ⟨hwork, hcommitted⟩ := hm
    rw [hms] at hwork hcommitted
    have h := hf a s' hms
    constructor
    · rw [hb]
      exact hwork.trans h.work
    · rw [hb]
      rcases h.committed with hsame | hreach
      · rw [hsame]
        exact hcommitted
      · exact Or.inr (hwork.trans hreach)

theorem onward_bind {m : Tx ε σ α} {f : α → Tx ε σ β} (hm : Onward W m) (hf : ∀ a, Onward W (f a)) :
    Onward W (m >>= f) := fun s => onwardAt_bind (hm s) fun a s' _ => hf a s'

theorem onward_get_bind {f : σ → Tx ε σ β} (hf : ∀ d, Onward W (f d)) : Onward W (get >>= f) :=
  onward_bind calm_get.onward hf

theorem onward_ofExcept_bind {x : Except ε α} {f : α → Tx ε σ β} (hf : ∀ a, x = .ok a → Onward W (f a)) :
    Onward W (ofExcept x >>= f) := by
  refine fun s => onwardAt_bind (calm_ofExcept x s).onward fun a s' h => ?_
  rw [ofExcept_run, Prod.mk.injEq] at h
  exact h.2 ▸ hf a h.1 s

/-! ### Programs that may roll back -/

theorem does_commit : Does W (commit : Tx ε σ Unit) := fun _ _ _ _ hw => ⟨hw, hw⟩

theorem does_rollback : Does W (rollback : Tx ε σ Unit) := fun _ _ _ hc _ => ⟨hc, hc⟩

theorem does_attempt {m : Tx ε σ α} (h : Does W m) : Does W (attempt m) := h

theorem doesAt_bind {m : Tx ε σ α} {f : α → Tx ε σ β} (hm : DoesAt W s m)
    (hf : ∀ a s', m s = (.ok a, s') → DoesAt W s' (f a)) : DoesAt W s (m >>= f) := by
  intro I hI hc hw
  have h := hm I hI hc hw
  rw [bind_run]
  rcases hms : m s with ⟨e | a, s'⟩
  · simpa [hms] using h
  · rw [hms] at h
    exact hf a s' hms I hI h.1 h.2

theorem does_bind {m : Tx ε σ α} {f : α → Tx ε σ β} (hm : Does W m) (hf : ∀ a, Does W (f a)) : Does W (m >>= f) :=
  fun s => doesAt_bind (hm s) fun a s' _ => hf a s'

theorem does_get_bind {f : σ → Tx ε σ β} (hf : ∀ d, Does W (f d)) : Does W (get >>= f) := does_bind calm_get.does hf

theorem doesAt_get_bind {f : σ → Tx ε σ β} (hf : DoesAt W s (f s.work)) : DoesAt W s (get >>= f) :=
  doesAt_bind (calm_get s).does fun _ _ h => by
    cases h
    exact hf

theorem doesAt_ofExcept_bind {x : Except ε α} {f : α → Tx ε σ β} (hf : ∀ a, x = .ok a → DoesAt W s (f a)) :
    DoesAt W s (ofExcept x >>= f) := by
  refine doesAt_bind (calm_ofExcept x s).does fun a s' h => ?_
  rw [ofExcept_run, Prod.mk.injEq] at h
  exact h.2 ▸ hf a h.1

theorem does_ofExcept_bind {x : Except ε α} {f : α → Tx ε σ β} (hf : ∀ a, x = .ok a → Does W (f a)) :
    Does W (ofExcept x >>= f) := fun s => doesAt_ofExcept_bind fun a h => hf a h s

/-! ### Transactions -/

/-- the database a transaction leaves comes from the one it found by writes of `W` -/
theorem transact_doesAt {m : Tx ε σ α} {d : σ} (h : DoesAt W ⟨d, d⟩ m) : ReflTransGen W d (transact m d).2 := by
  have hd := h (ReflTransGen W d) (fun _ _ hab ha => ha.tail hab) .refl .refl
  unfold transact
  rcases hm : m ⟨d, d⟩ with ⟨e | a, s⟩
  · exact (by simpa [hm] using hd.1 : ReflTransGen W d s.committed)
  · exact (by simpa [hm] using hd.2 : ReflTransGen W d s.work)

/-- what a program commits: a postcondition of its second part, if its first part stays in `P` -/
theorem bind_post {P Q : Session σ → Prop} {m : Tx ε σ α} {f : α → Tx ε σ β} (hm : P (m s).2) (hPQ : ∀ s, P s → Q s)
    (hf : ∀ a s', m s = (.ok a, s') → P s' → Q (f a s').2) : Q ((m >>= f) s).2 := by
  rw [bind_run]
  rcases hms : m s with ⟨e | a, s'⟩
  · exact hPQ s' (by simpa [hms] using hm)
  · exact hf a s' hms (by simpa [hms] using hm)

theorem transact_does {m : Tx ε σ α} (h : Does W m) (d : σ) : ReflTransGen W d (transact m d).2 :=
  transact_doesAt (h ⟨d, d⟩)

theorem transact_of_returns {m : Tx ε σ α} {d : σ} {a : α} {s : Session σ} (h : m ⟨d, d⟩ = (.ok a, s)) :
    transact m d = (.ok a, s.work) := by
  unfold transact
  rw [h]

theorem transact_of_raises {m : Tx ε σ α} {d : σ} {e : ε} {s : Session σ} (h : m ⟨d, d⟩ = (.error e, s)) :
    transact m d = (.error e, s.committed) := by
  unfold transact
  rw [h]

/-- a transaction that returns leaves its working state -/
theorem transact_snd_of_run {m : Tx ε σ α} {d : σ} {a : α} {s : Session σ} (h : m ⟨d, d⟩ = (.ok a, s)) :
    (transact m d).2 = s.work :=
  congrArg Prod.snd (transact_of_returns h)

/-- a transaction that raises leaves what its program committed -/
theorem transact_snd_of_raises {m : Tx ε σ α} {d : σ} (h : ¬ Returns m ⟨d, d⟩) :
    (transact m d).2 = (m ⟨d, d⟩).2.committed := by
  unfold transact
  rcases hm : m ⟨d, d⟩ with ⟨e | a, s'⟩
  · rfl
  · exact absurd (returns_of_run hm) h

/-- a transaction that raises leaves the database as it was, if the program committed nothing -/
theorem transact_error {m : Tx ε σ α} {d : σ} (h : (m ⟨d, d⟩).2.committed = d) {e : ε}
    (he : (transact m d).1 = .error e) : (transact m d).2 = d := by
  unfold transact at he ⊢
  rcases hm : m ⟨d, d⟩ with ⟨e' | a, s⟩
  · simpa [hm] using h
  · simp [hm] at he

end Effects

end Tx
