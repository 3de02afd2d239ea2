/-
Runs of a state machine given by a total step function, over arbitrary states and operations.

- `run step s ops`: the state reached from `s` by the operations `ops`, in order.
- `Along step P s ops`: `P` holds at every step of that run, of the state before the step and the operation.
- `run_inv`, `run_rel`: what one step preserves, and what one step relates, a whole run does.
- `along_of_inv`: from a condition met at every step to a property of every step, under an invariant.
- `AtMostOnce step E s ops`: no two steps of the run are an `E`; `atMostOnce_of_open`, `atMostOnce_iff`: for events that
  close something open, that is so if, and iff, every one of them finds it open; `atMostOnce_iff_along`: in runs whose steps
  all meet a condition.
- `Reach`: the states some run of legal operations reaches.
-/
import Mathlib.Tactic

namespace Machine

variable {σ ι : Type*} {step : σ → ι → σ} {P Q C : σ → ι → Prop} {I : σ → Prop}

/-! ## Runs -/

def run (step : σ → ι → σ) (s : σ) (ops : List ι) : σ := ops.foldl step s

@[simp] theorem run_nil (s : σ) : run step s [] = s := rfl

@[simp] theorem run_cons (s : σ) (o : ι) (ops : List ι) : run step s (o :: ops) = run step (step s o) ops := rfl

theorem run_append (s : σ) (a b : List ι) : run step s (a ++ b) = run step (run step s a) b := by
  simp [run, List.foldl_append]

theorem run_snoc (s : σ) (l : List ι) (o : ι) : run step s (l ++ [o]) = step (run step s l) o := by
  rw [run_append]; rfl

/-- `P` holds at every step of the run -/
def Along (step : σ → ι → σ) (P : σ → ι → Prop) : σ → List ι → Prop
  | _, [] => True
  | s, o :: ops => P s o ∧ Along step P (step s o) ops

instance decidableAlong [∀ s o, Decidable (P s o)] : ∀ s ops, Decidable (Along step P s ops)
  | _, [] => .isTrue trivial
  | s, o :: ops => @instDecidableAnd _ _ inferInstance (decidableAlong (step s o) ops)

@[simp] theorem along_nil (s : σ) : Along step P s [] := trivial

@[simp] theorem along_cons (s : σ) (o : ι) (ops : List ι) :
    Along step P s (o :: ops) ↔ P s o ∧ Along step P (step s o) ops := Iff.rfl

theorem along_append (s : σ) (a b : List ι) :
    Along step P s (a ++ b) ↔ Along step P s a ∧ Along step P (run step s a) b := by
  induction a generalizing s with
  | nil => simp
  | cons o a ih => simp [ih, and_assoc]

/-- `P` at every step is `P` at the step after every prefix -/
theorem along_iff_split (s : σ) (ops : List ι) :
    Along step P s ops ↔ ∀ pre o post, ops = pre ++ o :: post → P (run step s pre) o := by
  induction ops generalizing s with
  | nil => simp
  | cons o ops ih =>
    constructor
    · rintro ⟨h, hs⟩ pre o' post e
      cases pre with
      | nil => obtain ⟨rfl, rfl⟩ := List.cons.inj e; exact h
      | cons p pre =>
        simp only [List.cons_append, List.cons.injEq] at e
        obtain ⟨rfl, e⟩ := e
        exact (ih _).1 hs pre o' post e
    · intro h
      exact ⟨h [] o ops rfl, (ih _).2 fun pre o' post e => h (o :: pre) o' post (by rw [e]; rfl)⟩

theorem Along.mono (hPQ : ∀ s o, P s o → Q s o) {s : σ} {ops : List ι} (h : Along step P s ops) :
    Along step Q s ops := by
  induction ops generalizing s with
  | nil => trivial
  | cons o ops ih => exact ⟨hPQ s o h.1, ih h.2⟩

/-- two positions in one list of operations: the same, or one after the other -/
theorem split_cases {a b as bs : List ι} {x y : ι} (h : a ++ x :: as = b ++ y :: bs) :
    b = a ∨ (∃ mid, b = a ++ x :: mid) ∨ ∃ mid, a = b ++ y :: mid := by
  rcases List.append_eq_append_iff.1 h with ⟨mid, rfl, hmid⟩ | ⟨mid, rfl, hmid⟩
  · cases mid with
    | nil => exact Or.inl (List.append_nil a)
    | cons z mid =>
      obtain ⟨rfl, -⟩ := List.cons.inj hmid
      exact Or.inr (Or.inl ⟨mid, rfl⟩)
  · cases mid with
    | nil => exact Or.inl (List.append_nil b).symm
    | cons z mid =>
      obtain ⟨rfl, -⟩ := List.cons.inj hmid
      exact Or.inr (Or.inr ⟨mid, rfl⟩)

/-! ## Invariants -/

/-- what one step meeting `C` preserves, a run whose steps all meet `C` does -/
theorem run_inv (hI : ∀ s o, I s → C s o → I (step s o)) {s : σ} {ops : List ι} (hs : I s)
    (hC : Along step C s ops) : I (run step s ops) := by
  induction ops generalizing s with
  | nil => exact hs
  | cons o ops ih => exact ih (hI s o hs hC.1) hC.2

/-- what every step preserves, every run does -/
theorem run_keeps (hI : ∀ s o, I s → I (step s o)) {s : σ} (hs : I s) (ops : List ι) : I (run step s ops) := by
  induction ops generalizing s with
  | nil => exact hs
  | cons o ops ih => exact ih (hI s o hs)

/-- from a condition at every step to a property of every step, under an invariant -/
theorem along_of_inv (hI : ∀ s o, I s → C s o → I (step s o)) (hP : ∀ s o, I s → C s o → P s o) {s : σ}
    {ops : List ι} (hs : I s) (hC : Along step C s ops) : Along step P s ops := by
  induction ops generalizing s with
  | nil => trivial
  | cons o ops ih => exact ⟨hP s o hs hC.1, ih (hI s o hs hC.1) hC.2⟩

/-- two properties that agree at every step under an invariant the second one keeps hold along the same runs -/
theorem along_congr_inv (hI : ∀ s o, I s → C s o → I (step s o)) (hP : ∀ s o, I s → (P s o ↔ C s o)) {s : σ}
    {ops : List ι} (hs : I s) : Along step P s ops ↔ Along step C s ops := by
  induction ops generalizing s with
  | nil => exact Iff.rfl
  | cons o ops ih =>
    constructor
    · rintro ⟨h, h'⟩
      have hC := (hP s o hs).1 h
      exact ⟨hC, (ih (hI s o hs hC)).1 h'⟩
    · rintro ⟨h, h'⟩
      exact ⟨(hP s o hs).2 h, (ih (hI s o hs h)).2 h'⟩

/-- what one step meeting `C` relates, a run whose steps all meet `C` does -/
theorem run_rel {R : σ → σ → Prop} (refl : ∀ s, R s s) (trans : ∀ {a b c}, R a b → R b c → R a c)
    (hR : ∀ s o, C s o → R s (step s o)) {s : σ} {ops : List ι} (hC : Along step C s ops) :
    R s (run step s ops) := by
  induction ops generalizing s with
  | nil => exact refl s
  | cons o ops ih => exact trans (hR s o hC.1) (ih hC.2)

/-! ## Events that happen once -/

/-- no two steps of the run are an `E` -/
def AtMostOnce (step : σ → ι → σ) (E : σ → ι → Prop) (s : σ) (ops : List ι) : Prop :=
  ∀ before o after before' o' after', ops = before ++ o :: after → ops = before' ++ o' :: after' →
    E (run step s before) o → E (run step s before') o' → before' = before

/-- it is enough that no `E` follows another -/
theorem atMostOnce_of_later {E : σ → ι → Prop} {s : σ} {ops : List ι}
    (h : ∀ before o mid o' after, ops = before ++ o :: (mid ++ o' :: after) → E (run step s before) o →
      ¬ E (run step s (before ++ o :: mid)) o') : AtMostOnce step E s ops := by
  intro before o after before' o' after' hops hops' hE hE'
  rcases split_cases (hops.symm.trans hops') with heq | ⟨mid, rfl⟩ | ⟨mid, rfl⟩
  · exact heq
  · exact absurd hE' (h before o mid o' after' (by rw [hops', List.append_assoc]; rfl) hE)
  · exact absurd hE (h before' o' mid o after (by rw [hops, List.append_assoc]; rfl) hE')

/-- An `E` closes what `P` says is open, and nothing opens it again: where every `E` finds it open, it happens once. -/
theorem atMostOnce_of_open {E : σ → ι → Prop} {P : σ → Prop} (hI : ∀ s o, I s → C s o → I (step s o))
    (closes : ∀ s o, I s → C s o → E s o → ¬ P (step s o)) (stays : ∀ s o, I s → C s o → ¬ P s → ¬ P (step s o)) {s : σ}
    {ops : List ι} (hs : I s) (hC : Along step C s ops) (hopen : Along step (fun s o => E s o → P s) s ops) :
    AtMostOnce step E s ops := by
  apply atMostOnce_of_later
  intro before o mid o' after hops hE hE'
  have hfirst := (along_iff_split s ops).1 hopen (before ++ o :: mid) o' after (by rw [hops, List.append_assoc]; rfl) hE'
  rw [hops, along_append, along_cons, along_append] at hC
  obtain ⟨hbefore, ho, hmid, -⟩ := hC
  have hIb : I (run step s before) := run_inv hI hs hbefore
  have hclosed : I (run step (step (run step s before) o) mid) ∧ ¬ P (run step (step (run step s before) o) mid) :=
    run_inv (I := fun s => I s ∧ ¬ P s) (fun s o h hC => ⟨hI s o h.1 hC, stays s o h.1 hC h.2⟩)
      ⟨hI _ o hIb ho, closes _ o hIb ho hE⟩ hmid
  rw [run_append, run_cons] at hfirst
  exact hclosed.2 hfirst

/-- An `E` closes what `P` says is open, and nothing opens it again; until the first `E`, `J` holds and what an `E` needs is
open. Then `E` happens at most once in a run whose steps all meet `C`, iff every `E` finds it open. -/
theorem atMostOnce_iff_along {E : σ → ι → Prop} {P J : σ → Prop} (hI : ∀ s o, I s → C s o → I (step s o))
    (closes : ∀ s o, I s → C s o → E s o → P s → ¬ P (step s o)) (stays : ∀ s o, I s → C s o → ¬ P s → ¬ P (step s o))
    (hJ : ∀ s o, J s → C s o → ¬ E s o → J (step s o)) (first : ∀ s o, J s → E s o → P s) {s : σ} {ops : List ι} (hs : I s)
    (hJs : J s) (hC : Along step C s ops) : AtMostOnce step E s ops ↔ Along step (fun s o => E s o → P s) s ops := by
  constructor
  · intro honce
    rw [along_iff_split]
    intro before o after hops hE
    have hbefore : Along step C s before := by
      rw [hops, along_append] at hC
      exact hC.1
    refine first _ o ?_ hE
    refine run_inv (C := fun s o => C s o ∧ ¬ E s o) (fun s o hs h => hJ s o hs h.1 h.2) hJs ?_
    rw [along_iff_split]
    intro start o' mid hsplit
    refine ⟨(along_iff_split s before).1 hbefore start o' mid hsplit, fun hE' => ?_⟩
    -- an `E` at an earlier step would be the same one
    have hops' : ops = start ++ o' :: (mid ++ o :: after) := by rw [hops, hsplit, List.append_assoc]; rfl
    have hlen := congrArg List.length (honce before o after start o' _ hops hops' hE hE')
    rw [hsplit, List.length_append, List.length_cons] at hlen
    omega
  · intro hopen
    have hboth : Along step (fun s o => C s o ∧ (E s o → P s)) s ops := by
      rw [along_iff_split] at hC hopen ⊢
      exact fun before o after hops => ⟨hC before o after hops, hopen before o after hops⟩
    refine atMostOnce_of_open (C := fun s o => C s o ∧ (E s o → P s)) ?_ ?_ ?_ hs hboth hopen
    · exact fun s o h hC => hI s o h hC.1
    · exact fun s o h hC hE => closes s o h hC.1 hE (hC.2 hE)
    · exact fun s o h hC hP => stays s o h hC.1 hP

/-- the same where every step is allowed -/
theorem atMostOnce_iff {E : σ → ι → Prop} {P J : σ → Prop} (hI : ∀ s o, I s → I (step s o))
    (closes : ∀ s o, I s → E s o → P s → ¬ P (step s o)) (stays : ∀ s o, I s → ¬ P s → ¬ P (step s o))
    (hJ : ∀ s o, J s → ¬ E s o → J (step s o)) (first : ∀ s o, J s → E s o → P s) {s : σ} (hs : I s) (hJs : J s)
    (ops : List ι) : AtMostOnce step E s ops ↔ Along step (fun s o => E s o → P s) s ops :=
  atMostOnce_iff_along (C := fun _ _ => True) (fun s o h _ => hI s o h) (fun s o h _ => closes s o h)
    (fun s o h _ => stays s o h) (fun s o h _ => hJ s o h) first hs hJs
    ((along_iff_split s ops).2 fun _ _ _ _ => trivial)

/-! ## Reachable states -/

/-- some run of legal operations from `s0` reaches `s` -/
def Reach (step : σ → ι → σ) (C : σ → ι → Prop) (s0 s : σ) : Prop :=
  ∃ ops, Along step C s0 ops ∧ run step s0 ops = s

theorem reach_inv (hI : ∀ s o, I s → C s o → I (step s o)) {s0 s : σ} (h0 : I s0) (h : Reach step C s0 s) : I s := by
  obtain ⟨ops, hC, rfl⟩ := h
  exact run_inv hI h0 hC

end Machine
