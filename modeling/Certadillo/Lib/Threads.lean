/-
Threads over a shared state, one action of one thread at a time, in any order.

`act t d l a` is thread `t`'s action `a` on the shared state `d` and its own local state `l`. `rely_run` is the
rely-guarantee rule: if every action keeps the shared invariant and its own thread's assertion and only changes the
shared state within the guarantee, and every assertion is stable under the guarantee, then the shared invariant and all
assertions hold after every interleaving. `free_step` is the rule it rests on: no action interferes with the assertion of
another thread, where what an action may do depends on all local states.
-/
import Certadillo.Lib.Run

namespace Threads

variable {σ κ α : Type*}

structure St (σ κ : Type*) where
  shared : σ
  loc : ℕ → κ

/-- thread `o.1` performs action `o.2` -/
def step (act : ℕ → σ → κ → α → σ × κ) (s : St σ κ) (o : ℕ × α) : St σ κ :=
  let r := act o.1 s.shared (s.loc o.1) o.2
  ⟨r.1, Function.update s.loc o.1 r.2⟩

variable {act : ℕ → σ → κ → α → σ × κ}

@[simp] theorem step_shared (s : St σ κ) (o : ℕ × α) :
    (step act s o).shared = (act o.1 s.shared (s.loc o.1) o.2).1 := rfl

@[simp] theorem step_loc_self (s : St σ κ) (t : ℕ) (a : α) :
    (step act s (t, a)).loc t = (act t s.shared (s.loc t) a).2 := by
  simp [step]

@[simp] theorem step_loc_other (s : St σ κ) {t u : ℕ} (a : α) (h : u ≠ t) : (step act s (t, a)).loc u = s.loc u := by
  simp [step, h]

/-- the shared invariant `G` and the assertion `L` of every thread -/
structure Inv (G : σ → Prop) (L : ℕ → σ → κ → Prop) (s : St σ κ) : Prop where
  shared : G s.shared
  loc : ∀ t, L t s.shared (s.loc t)

/-- one action that interferes with no other thread's assertion -/
theorem free_step {G : σ → Prop} {L : ℕ → σ → κ → Prop} {C : St σ κ → ℕ × α → Prop}
    (own : ∀ s t a, Inv G L s → C s (t, a) →
      G (act t s.shared (s.loc t) a).1 ∧ L t (act t s.shared (s.loc t) a).1 (act t s.shared (s.loc t) a).2)
    (free : ∀ s t u a, u ≠ t → Inv G L s → C s (t, a) → L u (act t s.shared (s.loc t) a).1 (s.loc u)) {s : St σ κ}
    {o : ℕ × α} (hs : Inv G L s) (hC : C s o) : Inv G L (step act s o) := by
  obtain ⟨t, a⟩ := o
  have h := own s t a hs hC
  refine ⟨h.1, fun u => ?_⟩
  by_cases hu : u = t
  · subst hu
    simpa using h.2
  · simpa [hu] using free s t u a hu hs hC

/-- one action under the rely-guarantee rule -/
theorem rely_step {G : σ → Prop} {L : ℕ → σ → κ → Prop} {R : ℕ → σ → σ → Prop} {C : ℕ → σ → κ → α → Prop}
    (own : ∀ t d l a, G d → L t d l → C t d l a → G (act t d l a).1 ∧ L t (act t d l a).1 (act t d l a).2)
    (guar : ∀ t d l a, G d → L t d l → C t d l a → R t d (act t d l a).1)
    (stable : ∀ t u d d' l, u ≠ t → G d → R t d d' → L u d l → L u d' l) {s : St σ κ} {o : ℕ × α} (hs : Inv G L s)
    (hC : C o.1 s.shared (s.loc o.1) o.2) : Inv G L (step act s o) := by
  refine free_step (C := fun s o => C o.1 s.shared (s.loc o.1) o.2) (fun s t a hs hC => ?_) (fun s t u a hu hs hC => ?_) hs hC
  · exact own t _ _ a hs.shared (hs.loc t) hC
  · exact stable t u _ _ _ hu hs.shared (guar t _ _ a hs.shared (hs.loc t) hC) (hs.loc u)

/-- every interleaving whose actions all meet `C` keeps the invariant and all assertions -/
theorem rely_run {G : σ → Prop} {L : ℕ → σ → κ → Prop} {R : ℕ → σ → σ → Prop} {C : ℕ → σ → κ → α → Prop}
    (own : ∀ t d l a, G d → L t d l → C t d l a → G (act t d l a).1 ∧ L t (act t d l a).1 (act t d l a).2)
    (guar : ∀ t d l a, G d → L t d l → C t d l a → R t d (act t d l a).1)
    (stable : ∀ t u d d' l, u ≠ t → G d → R t d d' → L u d l → L u d' l) {s : St σ κ} {ops : List (ℕ × α)}
    (hs : Inv G L s) (hC : Machine.Along (step act) (fun s o => C o.1 s.shared (s.loc o.1) o.2) s ops) :
    Inv G L (Machine.run (step act) s ops) :=
  Machine.run_inv (fun _ _ h hC => rely_step own guar stable h hC) hs hC

end Threads
