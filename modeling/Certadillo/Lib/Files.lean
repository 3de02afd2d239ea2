/-
A file system with symbolic links, as far as a client that opens, writes and renames files sees it.

A name is a link to another name or a directory entry of a file; several names can be entries of one file (hard links).
`create` follows links and truncates what it finds, a handle goes on naming its file whatever becomes of the names, and
`rename` moves the entry itself, a link as a link.

- `leads` is the file that a name leads to; `visits` lists the names on the way, its own first.
- A step leaves a name alone if it neither truncates nor writes the file that the name leads to, and moves and replaces
  no name on the way (`create_keeps`, `write_keeps`, `rename_keeps`).
- `create_leads`, `write_data`, `rename_leads`: what a step does to the name that it is about.
-/
import Mathlib.Tactic

namespace Files

variable {Name β : Type*}

inductive Entry (Name : Type*) where
  | file (inode : ℕ)
  | link (target : Name)
deriving DecidableEq

/-- inodes from `next` on are free -/
structure Fs (Name β : Type*) where
  entry : Name → Option (Entry Name)
  data : ℕ → List β
  next : ℕ
  below : ∀ n i, entry n = some (.file i) → i < next

namespace Fs

/-! ## Names -/

/-- links are followed this far -/
def hops : ℕ := 40

/-- the name at the end of a name's links, and its file if there is one -/
def resolve (fs : Fs Name β) : ℕ → Name → Option (Name × Option ℕ)
  | 0, n =>
    match fs.entry n with
    | none => some (n, none)
    | some (.file i) => some (n, some i)
    | some (.link _) => none
  | k + 1, n =>
    match fs.entry n with
    | none => some (n, none)
    | some (.file i) => some (n, some i)
    | some (.link t) => fs.resolve k t

/-- the names on the way to a name's file -/
def visits (fs : Fs Name β) : ℕ → Name → List Name
  | 0, n => [n]
  | k + 1, n =>
    match fs.entry n with
    | some (.link t) => n :: fs.visits k t
    | _ => [n]

/-- the file that a name leads to -/
def leads (fs : Fs Name β) (n : Name) : Option ℕ := (fs.resolve hops n).bind Prod.snd

def read (fs : Fs Name β) (n : Name) : Option (List β) := (fs.leads n).map fs.data

variable {fs fs' : Fs Name β} {a b n m p t : Name} {i h k : ℕ} {o : Option ℕ}

theorem mem_visits_self : n ∈ fs.visits k n := by
  cases k with
  | zero => exact List.mem_singleton_self n
  | succ k =>
    unfold visits
    split
    · exact List.mem_cons_self
    · exact List.mem_singleton_self n

theorem resolve_last (hr : fs.resolve k n = some (m, o)) : m ∈ fs.visits k n ∧ fs.entry m = o.map .file := by
  induction k generalizing n with
  | zero =>
    unfold resolve at hr
    split at hr
    · next he =>
      cases hr
      exact ⟨mem_visits_self, he⟩
    · next he =>
      cases hr
      exact ⟨mem_visits_self, he⟩
    · cases hr
  | succ k ih =>
    unfold resolve at hr
    split at hr
    · next he =>
      cases hr
      exact ⟨mem_visits_self, he⟩
    · next he =>
      cases hr
      exact ⟨mem_visits_self, he⟩
    · next t he =>
      obtain ⟨hm, hentry⟩ := ih hr
      refine ⟨?_, hentry⟩
      rw [visits, he]
      exact List.mem_cons_of_mem _ hm

/-- what a name leads to depends on the names on the way only -/
theorem resolve_congr (he : ∀ m ∈ fs.visits k n, fs'.entry m = fs.entry m) :
    fs'.resolve k n = fs.resolve k n ∧ fs'.visits k n = fs.visits k n := by
  induction k generalizing n with
  | zero =>
    have hn := he n mem_visits_self
    exact ⟨by simp only [resolve, hn], rfl⟩
  | succ k ih =>
    have hn := he n mem_visits_self
    cases hentry : fs.entry n with
    | none => simp only [resolve, visits, hn, hentry, and_self]
    | some e =>
      cases e with
      | file i => simp only [resolve, visits, hn, hentry, and_self]
      | link t =>
        have hrest : ∀ m ∈ fs.visits k t, fs'.entry m = fs.entry m := by
          intro m hm
          apply he
          rw [visits, hentry]
          exact List.mem_cons_of_mem _ hm
        obtain ⟨h1, h2⟩ := ih hrest
        simp only [resolve, visits, hn, hentry, h1, h2, and_self]

/-- every name on the way to a file is there -/
theorem entry_of_mem_visits (hr : fs.resolve k n = some (m, some i)) (hp : p ∈ fs.visits k n) : fs.entry p ≠ none := by
  induction k generalizing n with
  | zero =>
    have hpn : p = n := List.mem_singleton.1 hp
    intro hnone
    rw [resolve, ← hpn, hnone] at hr
    cases hr
  | succ k ih =>
    intro hnone
    cases hentry : fs.entry n with
    | none =>
      rw [resolve, hentry] at hr
      cases hr
    | some e =>
      cases e with
      | file j =>
        rw [visits, hentry] at hp
        rw [List.mem_singleton.1 hp, hentry] at hnone
        cases hnone
      | link t =>
        rw [resolve, hentry] at hr
        rw [visits, hentry] at hp
        rcases List.mem_cons.1 hp with rfl | hp
        · rw [hentry] at hnone
          cases hnone
        · exact ih hr hp hnone

/-- more links than needed change nothing -/
theorem resolve_succ (hr : fs.resolve k n = some (m, o)) :
    fs.resolve (k + 1) n = some (m, o) ∧ fs.visits (k + 1) n = fs.visits k n := by
  induction k generalizing n with
  | zero =>
    cases hentry : fs.entry n with
    | none => simpa [resolve, visits, hentry] using hr
    | some e =>
      cases e with
      | file i => simpa [resolve, visits, hentry] using hr
      | link t =>
        rw [resolve, hentry] at hr
        cases hr
  | succ k ih =>
    cases hentry : fs.entry n with
    | none => simpa [resolve, visits, hentry] using hr
    | some e =>
      cases e with
      | file i => simpa [resolve, visits, hentry] using hr
      | link t =>
        rw [resolve, hentry] at hr
        obtain ⟨h1, h2⟩ := ih hr
        constructor
        · rw [resolve, hentry]
          exact h1
        · rw [visits, hentry, visits, hentry]
          exact congrArg (n :: ·) h2

theorem resolve_le {k' : ℕ} (hle : k ≤ k') (hr : fs.resolve k n = some (m, o)) :
    fs.resolve k' n = some (m, o) ∧ fs.visits k' n = fs.visits k n := by
  induction k', hle using Nat.le_induction with
  | base => exact ⟨hr, rfl⟩
  | succ k' _ ih =>
    obtain ⟨h1, h2⟩ := resolve_succ ih.1
    exact ⟨h1, h2.trans ih.2⟩

/-- a name on the way leads to the same end -/
theorem resolve_of_mem_visits (hr : fs.resolve k n = some (m, o)) (hp : p ∈ fs.visits k n) :
    ∃ k' ≤ k, fs.resolve k' p = some (m, o) := by
  induction k generalizing n with
  | zero => exact ⟨0, le_rfl, by rwa [List.mem_singleton.1 hp]⟩
  | succ k ih =>
    by_cases hpn : p = n
    · exact ⟨k + 1, le_rfl, hpn ▸ hr⟩
    · cases hentry : fs.entry n with
      | none =>
        rw [visits, hentry] at hp
        exact absurd (List.mem_singleton.1 hp) hpn
      | some e =>
        cases e with
        | file j =>
          rw [visits, hentry] at hp
          exact absurd (List.mem_singleton.1 hp) hpn
        | link t =>
          rw [resolve, hentry] at hr
          rw [visits, hentry] at hp
          obtain ⟨k', hle, hk'⟩ := ih hr ((List.mem_cons.1 hp).resolve_left hpn)
          exact ⟨k', hle.trans (Nat.le_succ k), hk'⟩

/-- links that end do not come back -/
theorem not_mem_visits_link (ha : fs.entry a = some (.link t)) (hr : fs.resolve (k + 1) a = some (m, o)) :
    a ∉ fs.visits k t := by
  induction k using Nat.strong_induction_on with
  | _ k ih =>
    intro hmem
    have ht : fs.resolve k t = some (m, o) := by rwa [resolve, ha] at hr
    obtain ⟨k', hle, hk'⟩ := resolve_of_mem_visits ht hmem
    cases k' with
    | zero =>
      rw [resolve, ha] at hk'
      cases hk'
    | succ j =>
      have hj : fs.resolve j t = some (m, o) := by rwa [resolve, ha] at hk'
      refine ih j hle hk' ?_
      rwa [← (resolve_le (Nat.le_of_succ_le hle) hj).2]

theorem leads_eq_some : fs.leads n = some i ↔ ∃ m, fs.resolve hops n = some (m, some i) := by
  unfold leads
  cases fs.resolve hops n with
  | none => simp
  | some r => simp [Prod.ext_iff]

/-! ## Operations -/

variable [DecidableEq Name]

theorem below_made (fs : Fs Name β) (m : Name) (n : Name) (i : ℕ)
    (he : Function.update fs.entry m (some (.file fs.next)) n = some (.file i)) : i < fs.next + 1 := by
  rw [Function.update_apply] at he
  split_ifs at he
  · cases he
    exact Nat.lt_succ_self _
  · exact Nat.lt_succ_of_lt (fs.below n i he)

theorem below_moved (fs : Fs Name β) (a b : Name) (n : Name) (i : ℕ)
    (he : Function.update (Function.update fs.entry a none) b (fs.entry a) n = some (.file i)) : i < fs.next := by
  rw [Function.update_apply, Function.update_apply] at he
  split_ifs at he
  · exact fs.below a i he
  · exact fs.below n i he

/-- a new file, at a name that has none -/
def make (fs : Fs Name β) (m : Name) : Fs Name β where
  entry := Function.update fs.entry m (some (.file fs.next))
  data := Function.update fs.data fs.next []
  next := fs.next + 1
  below := below_made fs m

/-- an entry under another name -/
def move (fs : Fs Name β) (a b : Name) : Fs Name β :=
  { fs with
    entry := Function.update (Function.update fs.entry a none) b (fs.entry a)
    below := below_moved fs a b }

/-- `open(n, "wb")`: the file is truncated or made; its handle -/
def create (fs : Fs Name β) (n : Name) : Option (Fs Name β × ℕ) :=
  match fs.resolve hops n with
  | none => none
  | some (_, some i) => some ({ fs with data := Function.update fs.data i [] }, i)
  | some (m, none) => some (fs.make m, fs.next)

/-- `write(h, d)` from the beginning of the file -/
def write (fs : Fs Name β) (h : ℕ) (d : List β) : Fs Name β :=
  { fs with data := Function.update fs.data h (d ++ (fs.data h).drop d.length) }

/-- the two names are one, or entries of one file -/
def same (fs : Fs Name β) (a b : Name) : Bool :=
  a = b || match fs.entry a, fs.entry b with
    | some (.file i), some (.file j) => i = j
    | _, _ => false

/-- `rename(a, b)`: two entries of one file stay as they are -/
def rename (fs : Fs Name β) (a b : Name) : Option (Fs Name β) :=
  if fs.entry a = none then none else if fs.same a b then some fs else some (fs.move a b)

/-! ### What a step leaves alone -/

omit [DecidableEq Name] in
theorem leads_congr (he : ∀ m ∈ fs.visits hops p, fs'.entry m = fs.entry m) : fs'.leads p = fs.leads p := by
  unfold leads
  rw [(resolve_congr he).1]

omit [DecidableEq Name] in
theorem below_of_leads (hp : fs.leads p = some i) : i < fs.next := by
  obtain ⟨m, hm⟩ := leads_eq_some.1 hp
  exact fs.below m i (resolve_last hm).2

/-- opening a file leaves alone every name that leads to another -/
theorem create_keeps (h : fs.create n = some (fs', k)) (hp : fs.leads p = some i) (hn : fs.leads n ≠ some i) :
    fs'.leads p = some i ∧ fs'.data i = fs.data i := by
  unfold create at h
  split at h
  · cases h
  · next m j hres =>
    cases h
    have hne : i ≠ k := by
      rintro rfl
      exact hn (leads_eq_some.2 ⟨m, hres⟩)
    exact ⟨hp, Function.update_of_ne hne _ _⟩
  · next m hres =>
    cases h
    obtain ⟨q, hq⟩ := leads_eq_some.1 hp
    have hsame : ∀ x ∈ fs.visits hops p, (fs.make m).entry x = fs.entry x := by
      intro x hx
      have hxm : x ≠ m := by
        rintro rfl
        exact entry_of_mem_visits hq hx (resolve_last hres).2
      exact Function.update_of_ne hxm _ _
    exact ⟨(leads_congr hsame).trans hp, Function.update_of_ne (below_of_leads hp).ne _ _⟩

omit [DecidableEq Name] in
/-- writing leaves alone every name that leads to another file -/
theorem write_keeps {d : List β} (hp : fs.leads p = some i) (hh : k ≠ i) :
    (fs.write k d).leads p = some i ∧ (fs.write k d).data i = fs.data i := by
  refine ⟨?_, Function.update_of_ne hh.symm _ _⟩
  exact (leads_congr fun _ _ => rfl).trans hp

/-- renaming leaves alone every name whose way does not pass the two names -/
theorem rename_keeps (h : fs.rename a b = some fs') (ha : a ∉ fs.visits hops p) (hb : b ∉ fs.visits hops p) :
    fs'.leads p = fs.leads p ∧ fs'.data = fs.data := by
  unfold rename at h
  split_ifs at h
  · cases h
    exact ⟨rfl, rfl⟩
  · cases h
    refine ⟨leads_congr fun x hx => ?_, rfl⟩
    have hxa : x ≠ a := fun heq => ha (heq ▸ hx)
    have hxb : x ≠ b := fun heq => hb (heq ▸ hx)
    exact (Function.update_of_ne hxb _ _).trans (Function.update_of_ne hxa _ _)

/-! ### What a step does to its own name -/

/-- a name whose links end at `m` leads to the file made there -/
theorem resolve_make (hr : fs.resolve k n = some (m, none)) : (fs.make m).resolve k n = some (m, some fs.next) := by
  have hm : fs.entry m = none := (resolve_last hr).2
  have hmade : (fs.make m).entry m = some (.file fs.next) := Function.update_self _ _ _
  have hother : ∀ x, x ≠ m → (fs.make m).entry x = fs.entry x := fun x hx => Function.update_of_ne hx _ _
  induction k generalizing n with
  | zero =>
    by_cases hn : n = m
    · rw [hn, resolve, hmade]
    · cases hentry : fs.entry n with
      | none =>
        rw [resolve, hentry] at hr
        cases hr
        exact absurd rfl hn
      | some e =>
        cases e with
        | file i =>
          rw [resolve, hentry] at hr
          cases hr
        | link t =>
          rw [resolve, hentry] at hr
          cases hr
  | succ k ih =>
    by_cases hn : n = m
    · rw [hn, resolve, hmade]
    · cases hentry : fs.entry n with
      | none =>
        rw [resolve, hentry] at hr
        cases hr
        exact absurd rfl hn
      | some e =>
        cases e with
        | file i =>
          rw [resolve, hentry] at hr
          cases hr
        | link t =>
          rw [resolve, hentry] at hr
          rw [resolve, hother n hn, hentry]
          exact ih hr

/-- the name leads to the file of the handle, which is empty -/
theorem create_leads (h : fs.create n = some (fs', k)) : fs'.leads n = some k ∧ fs'.data k = [] := by
  unfold create at h
  split at h
  · cases h
  · next m j hres =>
    cases h
    refine ⟨?_, Function.update_self _ _ _⟩
    exact (leads_congr fun _ _ => rfl).trans (leads_eq_some.2 ⟨m, hres⟩)
  · next m hres =>
    cases h
    exact ⟨leads_eq_some.2 ⟨m, resolve_make hres⟩, Function.update_self _ _ _⟩

omit [DecidableEq Name] in
/-- a file that was just opened holds what is written -/
theorem write_data {d : List β} (hempty : fs.data k = []) : (fs.write k d).data k = d := by
  show Function.update fs.data k _ k = d
  rw [Function.update_self, hempty, List.drop_nil, List.append_nil]

theorem same_cases (h : fs.same a b = true) :
    a = b ∨ ∃ i, fs.entry a = some (.file i) ∧ fs.entry b = some (.file i) := by
  unfold same at h
  rw [Bool.or_eq_true, decide_eq_true_iff] at h
  refine h.imp_right fun h => ?_
  split at h
  · next i j ha hb =>
    rw [decide_eq_true_iff] at h
    exact ⟨i, ha, h ▸ hb⟩
  · cases h

/-- an entry that is moved leads to where it led -/
theorem leads_move (hl : fs.leads a = some i) (hb : b ∉ fs.visits hops a) : (fs.move a b).leads b = some i := by
  obtain ⟨m, hm⟩ := leads_eq_some.1 hl
  have hentry : (fs.move a b).entry b = fs.entry a := Function.update_self _ _ _
  cases ha : fs.entry a with
  | none => exact absurd ha (entry_of_mem_visits hm mem_visits_self)
  | some e =>
    rw [ha] at hentry
    rw [leads_eq_some]
    cases e with
    | file j =>
      rw [hops, resolve, ha] at hm
      cases hm
      exact ⟨b, by rw [hops, resolve, hentry]⟩
    | link t =>
      have hback := not_mem_visits_link (k := 39) ha hm
      rw [hops, resolve, ha] at hm
      rw [hops, visits, ha] at hb
      refine ⟨m, ?_⟩
      rw [hops, resolve, hentry, ← hm]
      apply (resolve_congr fun x hx => ?_).1
      have hxa : x ≠ a := fun heq => hback (heq ▸ hx)
      have hxb : x ≠ b := fun heq => hb (heq ▸ List.mem_cons_of_mem _ hx)
      exact (Function.update_of_ne hxb _ _).trans (Function.update_of_ne hxa _ _)

/-- the new name leads to where the old one led -/
theorem rename_leads (h : fs.rename a b = some fs') (hl : fs.leads a = some i) (hb : a = b ∨ b ∉ fs.visits hops a) :
    fs'.leads b = some i ∧ fs'.data = fs.data := by
  unfold rename at h
  split_ifs at h with hnone hsame
  · cases h
    refine ⟨?_, rfl⟩
    rcases same_cases hsame with rfl | ⟨j, ha, hb⟩
    · exact hl
    · obtain ⟨m, hm⟩ := leads_eq_some.1 hl
      rw [hops, resolve, ha] at hm
      cases hm
      exact leads_eq_some.2 ⟨b, by rw [hops, resolve, hb]⟩
  · cases h
    refine ⟨leads_move hl (hb.resolve_left ?_), rfl⟩
    rintro rfl
    simp [same] at hsame

end Fs

end Files
