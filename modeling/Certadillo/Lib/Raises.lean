/-
Which exceptions a computation may raise, as conditions on its inputs.

`OnlyRaises P x` says of every exception `x` can raise that it is a `P`; `IfReturns x Q` is what holds of the value where `x`
returns. The rules turn `OnlyRaises` of a program into conditions on its parts, each under what the parts before it return:
`onlyRaises_bind`, `onlyRaises_ite`, `ifReturns_bind`.
-/
import Mathlib.Tactic

section Raises

universe u v

variable {ε : Type u} {α β : Type v} {P : ε → Prop}

/-- every exception it raises is a `P` -/
def OnlyRaises (P : ε → Prop) (x : Except ε α) : Prop := ∀ e, x = .error e → P e

/-- if it returns, then a value with `Q` -/
def IfReturns (x : Except ε α) (Q : α → Prop) : Prop := ∀ a, x = .ok a → Q a

@[simp] theorem onlyRaises_ok (a : α) : OnlyRaises P (.ok a : Except ε α) := nofun

@[simp] theorem onlyRaises_pure (a : α) : OnlyRaises P (pure a : Except ε α) := nofun

@[simp] theorem onlyRaises_error (e : ε) : OnlyRaises P (.error e : Except ε α) ↔ P e := by
  constructor
  · exact fun h => h e rfl
  · rintro h e' ⟨⟩
    exact h

@[simp] theorem onlyRaises_throw (e : ε) : OnlyRaises P (throw e : Except ε α) ↔ P e := onlyRaises_error e

@[simp] theorem ifReturns_ok (a : α) (Q : α → Prop) : IfReturns (.ok a : Except ε α) Q ↔ Q a := by
  constructor
  · exact fun h => h a rfl
  · rintro h a' ⟨⟩
    exact h

@[simp] theorem ifReturns_pure (a : α) (Q : α → Prop) : IfReturns (pure a : Except ε α) Q ↔ Q a := ifReturns_ok a Q

@[simp] theorem ifReturns_error (e : ε) (Q : α → Prop) : IfReturns (.error e : Except ε α) Q ↔ True :=
  iff_of_true nofun trivial

@[simp] theorem ifReturns_throw (e : ε) (Q : α → Prop) : IfReturns (throw e : Except ε α) Q ↔ True := ifReturns_error e Q

/-- a bind raises only `P` iff its first part does and, if that returns, its second -/
theorem onlyRaises_bind {x : Except ε α} {f : α → Except ε β} :
    OnlyRaises P (x >>= f) ↔ OnlyRaises P x ∧ IfReturns x fun a => OnlyRaises P (f a) := by
  cases x with
  | error e =>
    show OnlyRaises P (.error e) ↔ _
    simp
  | ok a =>
    show OnlyRaises P (f a) ↔ _
    simp

theorem ifReturns_bind {x : Except ε α} {f : α → Except ε β} {Q : β → Prop} :
    IfReturns (x >>= f) Q ↔ IfReturns x fun a => IfReturns (f a) Q := by
  cases x with
  | error e =>
    show IfReturns (.error e) Q ↔ _
    simp
  | ok a =>
    show IfReturns (f a) Q ↔ _
    simp

theorem onlyRaises_ite {c : Prop} [Decidable c] {x y : Except ε α} :
    OnlyRaises P (if c then x else y) ↔ (c → OnlyRaises P x) ∧ (¬ c → OnlyRaises P y) := by
  by_cases h : c <;> simp [h]

theorem ifReturns_congr {x : Except ε α} {Q R : α → Prop} (h : ∀ a, x = .ok a → (Q a ↔ R a)) :
    IfReturns x Q ↔ IfReturns x R :=
  forall_congr' fun a => forall_congr' fun ha => h a ha

/-- what raises nothing but `P` raises nothing but a weaker `Q` -/
theorem OnlyRaises.mono {Q : ε → Prop} {x : Except ε α} (h : OnlyRaises P x) (hPQ : ∀ e, P e → Q e) : OnlyRaises Q x :=
  fun e he => hPQ e (h e he)

end Raises
