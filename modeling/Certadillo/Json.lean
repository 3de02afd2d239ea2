/-
JSON values, as Python's `json` module reads and writes them and as the JSON columns of the database hold them. Numbers
are integers: no column, payload or policy setting of the modelled code holds a fraction.
-/
import Mathlib.Tactic

namespace Certadillo

inductive Json where
  | null
  | bool (b : Bool)
  | num (n : ℤ)
  | str (s : String)
  | arr (xs : List Json)
  | obj (kvs : List (String × Json))
deriving Repr

namespace Json

instance : Inhabited Json := ⟨null⟩

/-! ## Equality -/

mutual

def beq : Json → Json → Bool
  | null, null => true
  | bool a, bool b => a == b
  | num a, num b => a == b
  | str a, str b => a == b
  | arr a, arr b => beqList a b
  | obj a, obj b => beqObj a b
  | _, _ => false

def beqList : List Json → List Json → Bool
  | [], [] => true
  | a :: as, b :: bs => beq a b && beqList as bs
  | _, _ => false

def beqObj : List (String × Json) → List (String × Json) → Bool
  | [], [] => true
  | (k, a) :: as, (l, b) :: bs => k == l && beq a b && beqObj as bs
  | _, _ => false

end

mutual

theorem beq_iff : ∀ a b : Json, beq a b = true ↔ a = b
  | null, b => by cases b <;> simp [beq]
  | bool x, b => by cases b <;> simp [beq]
  | num x, b => by cases b <;> simp [beq]
  | str x, b => by cases b <;> simp [beq]
  | arr xs, b => by
    cases b with
    | arr ys => simpa [beq] using beqList_iff xs ys
    | _ => simp [beq]
  | obj xs, b => by
    cases b with
    | obj ys => simpa [beq] using beqObj_iff xs ys
    | _ => simp [beq]

theorem beqList_iff : ∀ a b : List Json, beqList a b = true ↔ a = b
  | [], b => by cases b <;> simp [beqList]
  | x :: xs, b => by
    cases b with
    | nil => simp [beqList]
    | cons y ys => simp [beqList, beq_iff x y, beqList_iff xs ys]

theorem beqObj_iff : ∀ a b : List (String × Json), beqObj a b = true ↔ a = b
  | [], b => by cases b <;> simp [beqObj]
  | (k, x) :: xs, b => by
    cases b with
    | nil => simp [beqObj]
    | cons y ys => obtain ⟨l, y⟩ := y; simp [beqObj, beq_iff x y, beqObj_iff xs ys]

end

instance : DecidableEq Json := fun a b => decidable_of_iff _ (beq_iff a b)

/-! ## Column values -/

/-- a nullable integer column -/
def ofNat? : Option ℕ → Json
  | none => null
  | some n => num n

/-- a nullable string column -/
def ofStr? : Option String → Json
  | none => null
  | some s => str s

/-- a list[str] column -/
def ofStrs (xs : List String) : Json := arr (xs.map str)

theorem ofNat?_injective : Function.Injective ofNat? := by
  intro a b h
  cases a <;> cases b <;> simp_all [ofNat?]

theorem ofStr?_injective : Function.Injective ofStr? := by
  intro a b h
  cases a <;> cases b <;> simp_all [ofStr?]

theorem ofStrs_injective : Function.Injective ofStrs := by
  intro a b h
  have hs : Function.Injective str := fun _ _ h => by simpa using h
  simpa [ofStrs, hs.eq_iff, List.map_inj_right (fun _ _ h => hs h)] using h

end Json

end Certadillo
