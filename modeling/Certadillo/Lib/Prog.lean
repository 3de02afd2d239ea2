/-
Programs that talk to an outside world, over arbitrary states, values and exceptions.

A program returns, raises or is still running (a loop without a bound of its own gets fuel), and leaves the state it reached.

- `Holds P m Q E`: from `P`, what `m` returns meets `Q` and what it raises meets `E`; a rule for each way to build a
  program (`holds_bind`, `holds_attempt`, `holds_tryFinally`, `holds_forEach`, `holds_loop`).
- `Moves W m`: whatever the outcome, `m` only makes steps of `W`; `Moves.keeps`: so what every step of `W` keeps, `m` keeps.
- `Ends m`: `m` returns or raises, from every state; `loop_ends`: a loop does, with as much fuel as its rounds count down.
-/
import Mathlib.Tactic

/-- what became of a program -/
inductive Outcome (ε α : Type) where
  | returned (a : α)
  | raised (e : ε)
  /-- the fuel of a loop ran out -/
  | running

def Outcome.ofExcept {ε α : Type} : Except ε α → Outcome ε α
  | .ok a => .returned a
  | .error e => .raised e

/-- a program over a state: its outcome, and the state it reached -/
def Prog (ε σ α : Type) := σ → Outcome ε α × σ

namespace Prog

variable {ε σ α β : Type}

/-! ## Programs -/

protected def pure (a : α) : Prog ε σ α := fun s => (.returned a, s)

protected def bind (m : Prog ε σ α) (f : α → Prog ε σ β) : Prog ε σ β := fun s =>
  match m s with
  | (.returned a, s') => f a s'
  | (.raised e, s') => (.raised e, s')
  | (.running, s') => (.running, s')

instance : Monad (Prog ε σ) where
  pure := Prog.pure
  bind := Prog.bind

def raise (e : ε) : Prog ε σ α := fun s => (.raised e, s)

def get : Prog ε σ σ := fun s => (.returned s, s)

def modify (f : σ → σ) : Prog ε σ Unit := fun s => (.returned (), f s)

/-- a pure computation that may raise -/
def ofExcept (x : Except ε α) : Prog ε σ α := fun s => (Outcome.ofExcept x, s)

/-- one exchange with the outside -/
def talk (f : σ → Except ε α × σ) : Prog ε σ α := fun s => (Outcome.ofExcept (f s).1, (f s).2)

/-- `try` with an `except` that catches everything: what was raised becomes a value -/
def attempt (m : Prog ε σ α) : Prog ε σ (Except ε α) := fun s =>
  match m s with
  | (.returned a, s') => (.returned (.ok a), s')
  | (.raised e, s') => (.returned (.error e), s')
  | (.running, s') => (.running, s')

/-- `try` with a `finally`: the cleanup runs on a return and on a raise, and what it raises replaces the outcome -/
def tryFinally (m : Prog ε σ α) (cleanup : Prog ε σ Unit) : Prog ε σ α := fun s =>
  match m s with
  | (.returned a, s') => (cleanup >>= fun _ => Prog.pure a) s'
  | (.raised e, s') => (cleanup >>= fun _ => raise e) s'
  | (.running, s') => (.running, s')

/-- `for x in xs` -/
def forEach (f : α → Prog ε σ Unit) : List α → Prog ε σ Unit
  | [] => Prog.pure ()
  | x :: xs => f x >>= fun _ => forEach f xs

/-- `while True`, until a round gives a value -/
def loop (round : Prog ε σ (Option α)) : ℕ → Prog ε σ α
  | 0 => fun s => (.running, s)
  | fuel + 1 => round >>= fun
    | some a => Prog.pure a
    | none => loop round fuel

/-! ## Pre- and postconditions -/

/-- `Q` of what is returned, `E` of what is raised -/
def Post (Q : α → σ → Prop) (E : ε → σ → Prop) : Outcome ε α × σ → Prop
  | (.returned a, s) => Q a s
  | (.raised e, s) => E e s
  | (.running, _) => True

/-- `Q` of a value, `E` of an exception that was caught -/
def Caught (Q : α → σ → Prop) (E : ε → σ → Prop) : Except ε α → σ → Prop
  | .ok a, s => Q a s
  | .error e, s => E e s

/-- `Q` of the value a round gives, `P` where it gives none -/
def Round (Q : α → σ → Prop) (P : σ → Prop) : Option α → σ → Prop
  | some a, s => Q a s
  | none, s => P s

/-- from a state that meets `P` -/
def Holds (P : σ → Prop) (m : Prog ε σ α) (Q : α → σ → Prop) (E : ε → σ → Prop) : Prop := ∀ s, P s → Post Q E (m s)

section Rules

variable {P P' : σ → Prop} {Q Q' : α → σ → Prop} {R : β → σ → Prop} {E E' : ε → σ → Prop} {m : Prog ε σ α}

theorem Post.mono (hQ : ∀ a s, Q a s → Q' a s) (hE : ∀ e s, E e s → E' e s) {r : Outcome ε α × σ} (h : Post Q E r) :
    Post Q' E' r := by
  obtain ⟨o, s⟩ := r
  cases o with
  | returned a => exact hQ a s h
  | raised e => exact hE e s h
  | running => trivial

theorem Holds.mono (hP : ∀ s, P' s → P s) (hQ : ∀ a s, Q a s → Q' a s) (hE : ∀ e s, E e s → E' e s)
    (h : Holds P m Q E) : Holds P' m Q' E' := fun s hs => (h s (hP s hs)).mono hQ hE

theorem Holds.pre (hP : ∀ s, P' s → P s) (h : Holds P m Q E) : Holds P' m Q E := fun s hs => h s (hP s hs)

theorem Holds.post (hQ : ∀ a s, Q a s → Q' a s) (h : Holds P m Q E) : Holds P m Q' E := h.mono (fun _ hs => hs) hQ fun _ _ => id

theorem holds_pure (a : α) (h : ∀ s, P s → Q a s) : Holds P (pure a : Prog ε σ α) Q E := h

theorem holds_raise (e : ε) (h : ∀ s, P s → E e s) : Holds P (raise e : Prog ε σ α) Q E := h

theorem holds_modify {f : σ → σ} {Q : Unit → σ → Prop} (h : ∀ s, P s → Q () (f s)) : Holds P (modify f) Q E := h

theorem holds_ofExcept {x : Except ε α} (hok : ∀ a s, x = .ok a → P s → Q a s)
    (herror : ∀ e s, x = .error e → P s → E e s) : Holds P (ofExcept x) Q E := by
  intro s hs
  cases x with
  | ok a => exact hok a s rfl hs
  | error e => exact herror e s rfl hs

theorem holds_talk {f : σ → Except ε α × σ} (hok : ∀ a s s', f s = (.ok a, s') → P s → Q a s')
    (herror : ∀ e s s', f s = (.error e, s') → P s → E e s') : Holds P (talk f) Q E := by
  intro s hs
  unfold talk
  cases hx : (f s).1 with
  | ok a => exact hok a s _ (Prod.ext hx rfl) hs
  | error e => exact herror e s _ (Prod.ext hx rfl) hs

/-- an exchange of which only the state it leaves matters -/
theorem holds_talk_state {f : σ → Except ε α × σ} {R : σ → Prop} (h : ∀ s, P s → R (f s).2) :
    Holds P (talk f) (fun _ => R) (fun _ => R) := by
  intro s hs
  have h := h s hs
  unfold talk
  cases (f s).1 <;> exact h

theorem holds_bind {f : α → Prog ε σ β} (hm : Holds P m Q E) (hf : ∀ a, Holds (Q a) (f a) R E) :
    Holds P (m >>= f) R E := by
  intro s hs
  have h := hm s hs
  change Post R E (Prog.bind m f s)
  unfold Prog.bind
  revert h
  generalize m s = r
  obtain ⟨o, s'⟩ := r
  intro h
  cases o with
  | returned a => exact hf a s' h
  | raised e => exact h
  | running => trivial

/-- what a bind does where the first part returns -/
theorem bind_returned {f : α → Prog ε σ β} {s s' : σ} {a : α} (h : m s = (.returned a, s')) : (m >>= f) s = f a s' := by
  change Prog.bind m f s = _
  unfold Prog.bind
  rw [h]

/-- a bind returns iff both parts do -/
theorem bind_returns {f : α → Prog ε σ β} {s s'' : σ} {b : β} :
    (m >>= f) s = (.returned b, s'') ↔ ∃ a s', m s = (.returned a, s') ∧ f a s' = (.returned b, s'') := by
  change Prog.bind m f s = _ ↔ _
  unfold Prog.bind
  generalize m s = r
  obtain ⟨o, s'⟩ := r
  cases o with
  | returned a => simp
  | raised e => simp
  | running => simp

theorem holds_get_bind {f : σ → Prog ε σ β} (hf : ∀ d, P d → Holds (fun s => P s ∧ s = d) (f d) R E) :
    Holds P (get >>= f) R E := fun s hs => hf s hs s ⟨hs, rfl⟩

/-- a part that keeps an assertion, whatever it returns -/
theorem holds_keep_bind {I : σ → Prop} {f : α → Prog ε σ β} (hm : Holds I m (fun _ => I) fun _ => I)
    (hf : ∀ a, Holds I (f a) R fun _ => I) : Holds I (m >>= f) R fun _ => I := holds_bind hm hf

theorem holds_ofExcept_keep {x : Except ε α} {I : σ → Prop} : Holds I (ofExcept x) (fun _ => I) fun _ => I :=
  holds_ofExcept (fun _ _ _ h => h) fun _ _ _ h => h

theorem holds_of_exists {ι : Type} {P : ι → σ → Prop} (h : ∀ i, Holds (P i) m Q E) : Holds (fun s => ∃ i, P i s) m Q E := by
  rintro s ⟨i, hs⟩
  exact h i s hs

theorem holds_exists {ι : Type} {P : ι → σ → Prop} {Q : ι → α → σ → Prop} {E : ι → ε → σ → Prop}
    (h : ∀ i, Holds (P i) m (Q i) (E i)) :
    Holds (fun s => ∃ i, P i s) m (fun a s => ∃ i, Q i a s) fun e s => ∃ i, E i e s :=
  holds_of_exists fun i => (h i).mono (fun _ h => h) (fun _ _ hq => ⟨i, hq⟩) fun _ _ he => ⟨i, he⟩

theorem holds_attempt (h : Holds P m Q E) :
    Holds P (attempt m) (Caught Q E) E' := by
  intro s hs
  have h := h s hs
  unfold attempt
  revert h
  generalize m s = r
  obtain ⟨o, s'⟩ := r
  intro h
  cases o with
  | returned a => exact h
  | raised e => exact h
  | running => trivial

/-- the cleanup runs from where the body returned and from where it raised -/
theorem holds_tryFinally {cleanup : Prog ε σ Unit} {Q₁ : α → σ → Prop} {E₁ : ε → σ → Prop} (hm : Holds P m Q₁ E₁)
    (hreturn : ∀ a, Holds (Q₁ a) cleanup (fun _ => Q a) E) (hraise : ∀ e, Holds (E₁ e) cleanup (fun _ => E e) E) :
    Holds P (tryFinally m cleanup) Q E := by
  intro s hs
  have h := hm s hs
  unfold tryFinally
  revert h
  generalize m s = r
  obtain ⟨o, s'⟩ := r
  intro h
  cases o with
  | returned a => exact holds_bind (hreturn a) (fun _ => holds_pure a fun _ h => h) s' h
  | raised e => exact holds_bind (hraise e) (fun _ => holds_raise e fun _ h => h) s' h
  | running => trivial

/-- a `for`, by an invariant of what has been gone through -/
theorem holds_forEach {f : α → Prog ε σ Unit} {I : List α → σ → Prop} {xs : List α}
    (hf : ∀ before x after, xs = before ++ x :: after → Holds (I before) (f x) (fun _ => I (before ++ [x])) E) :
    Holds (I []) (forEach f xs) (fun _ => I xs) E := by
  suffices h : ∀ before after, xs = before ++ after → Holds (I before) (forEach f after) (fun _ => I xs) E from h [] xs rfl
  intro before after hxs
  induction after generalizing before with
  | nil =>
    rw [List.append_nil] at hxs
    subst hxs
    exact holds_pure () fun _ h => h
  | cons x after ih =>
    refine holds_bind (hf before x after hxs) fun _ => ih (before ++ [x]) ?_
    rw [hxs, List.append_assoc]
    rfl

/-- a loop, by an invariant of its rounds -/
theorem holds_loop {round : Prog ε σ (Option α)} (h : Holds P round (Round Q P) E) (fuel : ℕ) :
    Holds P (loop round fuel) Q E := by
  induction fuel with
  | zero => exact fun _ _ => trivial
  | succ fuel ih =>
    refine holds_bind h fun r => ?_
    cases r with
    | some a => exact holds_pure a fun _ h => h
    | none => exact ih

end Rules

/-! ## Steps -/

section Steps

open Relation (ReflTransGen)

variable {W : σ → σ → Prop} {m : Prog ε σ α}

/-- only steps of `W`, whatever the outcome -/
def Moves (W : σ → σ → Prop) (m : Prog ε σ α) : Prop := ∀ s, ReflTransGen W s (m s).2

/-- what every step keeps -/
theorem Moves.keeps {I : σ → Prop} (h : Moves W m) (hI : ∀ a b, W a b → I a → I b) {s : σ} (hs : I s) : I (m s).2 := by
  have hrun := h s
  generalize (m s).2 = s' at hrun
  induction hrun with
  | refl => exact hs
  | tail _ hstep ih => exact hI _ _ hstep ih

theorem Moves.holds {I : σ → Prop} (h : Moves W m) (hI : ∀ a b, W a b → I a → I b) :
    Holds I m (fun _ => I) fun _ => I := by
  intro s hs
  have hkeep := h.keeps hI hs
  revert hkeep
  generalize m s = r
  obtain ⟨o, s'⟩ := r
  intro hkeep
  cases o with
  | returned a => exact hkeep
  | raised e => exact hkeep
  | running => trivial

theorem moves_pure (a : α) : Moves W (pure a : Prog ε σ α) := fun _ => .refl

theorem moves_raise (e : ε) : Moves W (raise e : Prog ε σ α) := fun _ => .refl

theorem moves_get : Moves W (get : Prog ε σ σ) := fun _ => .refl

theorem moves_ofExcept (x : Except ε α) : Moves W (ofExcept x : Prog ε σ α) := fun _ => .refl

theorem moves_modify {f : σ → σ} (h : ∀ s, W s (f s)) : Moves W (modify f : Prog ε σ Unit) := fun s => .single (h s)

theorem moves_talk {f : σ → Except ε α × σ} (h : ∀ s, W s (f s).2) : Moves W (talk f) := fun s => .single (h s)

theorem moves_bind {f : α → Prog ε σ β} (hm : Moves W m) (hf : ∀ a, Moves W (f a)) : Moves W (m >>= f) := by
  intro s
  have h := hm s
  change ReflTransGen W s (Prog.bind m f s).2
  unfold Prog.bind
  revert h
  generalize m s = r
  obtain ⟨o, s'⟩ := r
  intro h
  cases o with
  | returned a => exact h.trans (hf a s')
  | raised e => exact h
  | running => exact h

theorem moves_attempt (h : Moves W m) : Moves W (attempt m) := by
  intro s
  have h := h s
  unfold attempt
  revert h
  generalize m s = r
  obtain ⟨o, s'⟩ := r
  intro h
  cases o <;> exact h

theorem moves_tryFinally {cleanup : Prog ε σ Unit} (hm : Moves W m) (hc : Moves W cleanup) :
    Moves W (tryFinally m cleanup) := by
  intro s
  have h := hm s
  unfold tryFinally
  revert h
  generalize m s = r
  obtain ⟨o, s'⟩ := r
  intro h
  cases o with
  | returned a => exact h.trans (moves_bind hc (fun _ => moves_pure a) s')
  | raised e => exact h.trans (moves_bind hc (fun _ => moves_raise e) s')
  | running => exact h

theorem moves_forEach {f : α → Prog ε σ Unit} {xs : List α} (h : ∀ x ∈ xs, Moves W (f x)) : Moves W (forEach f xs) := by
  induction xs with
  | nil => exact moves_pure ()
  | cons x xs ih => exact moves_bind (h x List.mem_cons_self) fun _ => ih fun y hy => h y (List.mem_cons_of_mem x hy)

theorem moves_loop {round : Prog ε σ (Option α)} (h : Moves W round) (fuel : ℕ) : Moves W (loop round fuel) := by
  induction fuel with
  | zero => exact fun _ => .refl
  | succ fuel ih =>
    refine moves_bind h fun r => ?_
    cases r with
    | some a => exact moves_pure a
    | none => exact ih

end Steps

/-! ## Coming to an end -/

section Ends

variable {m : Prog ε σ α}

/-- the program returns or raises -/
def Ends (m : Prog ε σ α) : Prop := ∀ s, (m s).1 ≠ .running

theorem ends_pure (a : α) : Ends (pure a : Prog ε σ α) := fun _ h => by cases h

theorem ends_raise (e : ε) : Ends (raise e : Prog ε σ α) := fun _ h => by cases h

theorem ends_get : Ends (get : Prog ε σ σ) := fun _ h => by cases h

theorem ends_modify (f : σ → σ) : Ends (modify f : Prog ε σ Unit) := fun _ h => by cases h

theorem ends_ofExcept (x : Except ε α) : Ends (ofExcept x : Prog ε σ α) := by
  intro s h
  cases x <;> cases h

theorem ends_talk (f : σ → Except ε α × σ) : Ends (talk f) := by
  intro s h
  unfold talk at h
  revert h
  cases (f s).1 <;> exact fun h => by cases h

theorem ends_bind {f : α → Prog ε σ β} (hm : Ends m) (hf : ∀ a, Ends (f a)) : Ends (m >>= f) := by
  intro s
  have h := hm s
  change (Prog.bind m f s).1 ≠ .running
  unfold Prog.bind
  revert h
  generalize m s = r
  obtain ⟨o, s'⟩ := r
  intro h
  cases o with
  | returned a => exact hf a s'
  | raised e => exact fun h => by cases h
  | running => exact absurd rfl h

theorem ends_attempt (hm : Ends m) : Ends (attempt m) := by
  intro s
  have h := hm s
  unfold attempt
  revert h
  generalize m s = r
  obtain ⟨o, s'⟩ := r
  intro h
  cases o with
  | returned a => exact fun h => by cases h
  | raised e => exact fun h => by cases h
  | running => exact absurd rfl h

theorem ends_tryFinally {cleanup : Prog ε σ Unit} (hm : Ends m) (hc : Ends cleanup) : Ends (tryFinally m cleanup) := by
  intro s
  have h := hm s
  unfold tryFinally
  revert h
  generalize m s = r
  obtain ⟨o, s'⟩ := r
  intro h
  cases o with
  | returned a => exact ends_bind hc (fun _ => ends_pure a) s'
  | raised e => exact ends_bind hc (fun _ => ends_raise e) s'
  | running => exact absurd rfl h

theorem ends_forEach {f : α → Prog ε σ Unit} (h : ∀ a, Ends (f a)) (xs : List α) : Ends (forEach f xs) := by
  induction xs with
  | nil => exact ends_pure ()
  | cons x xs ih => exact ends_bind (h x) fun _ => ih

/-- a loop whose rounds come to an end and count down has done with as much fuel as there is to count -/
theorem loop_ends {round : Prog ε σ (Option α)} (hround : Ends round) {μ : σ → ℕ}
    (hcount : ∀ s s', round s = (.returned none, s') → μ s' < μ s) {fuel : ℕ} {s : σ} (hfuel : μ s < fuel) :
    (loop round fuel s).1 ≠ .running := by
  induction fuel generalizing s with
  | zero => exact absurd hfuel (Nat.not_lt_zero _)
  | succ fuel ih =>
    have h := hround s
    have hnone := hcount s
    unfold loop
    change (Prog.bind round _ s).1 ≠ _
    unfold Prog.bind
    revert h hnone
    generalize round s = r
    obtain ⟨o, s'⟩ := r
    intro h hnone
    cases o with
    | raised e => exact fun h => by cases h
    | running => exact absurd rfl h
    | returned a =>
      cases a with
      | some a => exact ends_pure a s'
      | none => exact ih ((hnone s' rfl).trans_le (Nat.le_of_lt_succ hfuel))

/-- where every outcome leaves the same kind of state -/
theorem Holds.state {P R : σ → Prop} (h : Holds P m (fun _ => R) fun _ => R) (hends : Ends m) {s : σ} (hs : P s) :
    R (m s).2 := by
  have h := h s hs
  have hends := hends s
  revert h hends
  generalize m s = r
  obtain ⟨o, s'⟩ := r
  intro h hends
  cases o with
  | returned a => exact h
  | raised e => exact h
  | running => exact absurd rfl hends

end Ends

end Prog
