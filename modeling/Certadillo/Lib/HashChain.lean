/-
Hash chains: each link holds the hash before it and the hash of that and its own body.

- `same_head`: two chains from the genesis value with one head are one list.
- `linked_append`: a chain is cut at any point.
- `hashes_nodup`: the hashes of a chain are all different.
- `follows_infix`: elements of one chain, each holding the hash of the one before it, stand together in it.
-/
import Mathlib.Tactic

namespace HashChain

structure Link (η α : Type) where
  prev : η
  hash : η
  body : α

section

variable {η α : Type} (dig : η → α → η) (g : η)

/-- the hash a chain ends with -/
def head (p : η) : List (Link η α) → η
  | [] => p
  | l :: ls => head l.hash ls

/-- the links continue a chain that ends with `p` -/
def Linked : η → List (Link η α) → Prop
  | _, [] => True
  | p, l :: ls => l.prev = p ∧ l.hash = dig p l.body ∧ Linked l.hash ls

/-- a hash a link may hold as the one before it -/
def Made (h : η) : Prop := h = g ∨ ∃ p a, h = dig p a

/-- no two links have one hash, and none has the genesis value -/
structure Sound : Prop where
  fresh : ∀ p a, dig p a ≠ g
  inj : ∀ p q a b, Made dig g p → Made dig g q → dig p a = dig q b → p = q ∧ a = b

end

variable {η α : Type} {dig : η → α → η} {g : η}

theorem head_append (p : η) (ls ms : List (Link η α)) : head p (ls ++ ms) = head (head p ls) ms := by
  induction ls generalizing p with
  | nil => rfl
  | cons l ls ih => exact ih l.hash

theorem linked_append {p : η} {ls ms : List (Link η α)} :
    Linked dig p (ls ++ ms) ↔ Linked dig p ls ∧ Linked dig (head p ls) ms := by
  induction ls generalizing p with
  | nil => simp [Linked, head]
  | cons l ls ih =>
    simp only [List.cons_append, Linked, head, ih]
    tauto

theorem linked_snoc {p : η} {ls : List (Link η α)} {l : Link η α} :
    Linked dig p (ls ++ [l]) ↔ Linked dig p ls ∧ l.prev = head p ls ∧ l.hash = dig (head p ls) l.body := by
  rw [linked_append]
  simp [Linked]

theorem head_snoc (p : η) (ls : List (Link η α)) (l : Link η α) : head p (ls ++ [l]) = l.hash := by
  rw [head_append]
  rfl

/-- a chain ends with its start or with a hash -/
theorem made_head {p : η} {ls : List (Link η α)} (hp : Made dig g p) (h : Linked dig p ls) :
    Made dig g (head p ls) := by
  induction ls generalizing p with
  | nil => exact hp
  | cons l ls ih => exact ih (Or.inr ⟨p, l.body, h.2.1⟩) h.2.2

/-- **Chains with one head are one chain.** -/
theorem same_head (hs : Sound dig g) {ls ms : List (Link η α)} (hl : Linked dig g ls) (hm : Linked dig g ms)
    (h : head g ls = head g ms) : ls = ms := by
  -- from the head back to the genesis value
  induction ls using List.reverseRecOn generalizing ms with
  | nil =>
    induction ms using List.reverseRecOn with
    | nil => rfl
    | append_singleton ms m _ =>
      rw [head_snoc, (linked_snoc.1 hm).2.2] at h
      exact absurd h.symm (hs.fresh _ _)
  | append_singleton ls l ih =>
    obtain ⟨hl, hprev, hhash⟩ := linked_snoc.1 hl
    induction ms using List.reverseRecOn with
    | nil =>
      rw [head_snoc, hhash] at h
      exact absurd h (hs.fresh _ _)
    | append_singleton ms m _ =>
      obtain ⟨hm, hprev', hhash'⟩ := linked_snoc.1 hm
      rw [head_snoc, head_snoc] at h
      have hdig : dig (head g ls) l.body = dig (head g ms) m.body := by rw [← hhash, ← hhash', h]
      obtain ⟨hheads, hbody⟩ := hs.inj _ _ _ _ (made_head (Or.inl rfl) hl) (made_head (Or.inl rfl) hm) hdig
      obtain rfl := ih hl hm hheads
      have hlink : l = m := by
        cases l
        cases m
        simp_all
      rw [hlink]

/-- the hashes of a chain are all different, and none is the genesis value -/
theorem hashes_nodup (hs : Sound dig g) {ls : List (Link η α)} (h : Linked dig g ls) :
    (ls.map Link.hash).Nodup ∧ g ∉ ls.map Link.hash := by
  induction ls using List.reverseRecOn with
  | nil => exact ⟨List.nodup_nil, List.not_mem_nil⟩
  | append_singleton ls l ih =>
    obtain ⟨hls, hprev, hhash⟩ := linked_snoc.1 h
    obtain ⟨hnodup, hfresh⟩ := ih hls
    rw [List.map_append, List.map_singleton, List.nodup_append, List.mem_append, List.mem_singleton]
    constructor
    · refine ⟨hnodup, List.nodup_singleton _, ?_⟩
      intro a ha b hb heq
      rw [List.mem_singleton] at hb
      subst hb heq
      -- an earlier link with that hash ends the same chain
      obtain ⟨m, hm, hmhash⟩ := List.mem_map.1 ha
      obtain ⟨ms, ms', hcut⟩ := List.append_of_mem hm
      have hms : Linked dig g (ms ++ [m]) := by
        rw [hcut, ← List.singleton_append, ← List.append_assoc] at hls
        exact (linked_append.1 hls).1
      have hsame := same_head hs hms h (by rw [head_snoc, head_snoc, hmhash])
      have hlen := congrArg List.length hsame
      rw [hcut] at hlen
      simp only [List.length_append, List.length_cons, List.length_nil] at hlen
      omega
    · rintro (hmem | heq)
      · exact hfresh hmem
      · rw [hhash] at heq
        exact hs.fresh _ _ heq.symm

/-! ## Runs -/

section

variable {β : Type} (prev hash : β → η)

/-- each element holds the hash of the one before it, the first one `p` -/
def Follows : η → List β → Prop
  | _, [] => True
  | p, b :: bs => prev b = p ∧ Follows (hash b) bs

end

variable {β : Type} {prev hash : β → η}

theorem follows_links {p : η} {ls : List (Link η α)} (h : Linked dig p ls) : Follows Link.prev Link.hash p ls := by
  induction ls generalizing p with
  | nil => trivial
  | cons l ls ih => exact ⟨h.1, ih h.2.2⟩

theorem follows_snoc {p : η} {bs bs' : List β} {b c : β} (h : Follows prev hash p (bs ++ b :: c :: bs')) :
    prev c = hash b := by
  induction bs generalizing p with
  | nil => exact h.2.1
  | cons a bs ih => exact ih h.2

/-- a hash stands at one place -/
theorem nodup_cut {bs bs' cs cs' : List β} {b c : β} (hnodup : ((bs ++ b :: bs').map hash).Nodup)
    (h : bs ++ b :: bs' = cs ++ c :: cs') (hbc : hash b = hash c) : bs = cs ∧ b = c ∧ bs' = cs' := by
  induction bs generalizing cs with
  | nil =>
    cases cs with
    | nil =>
      obtain ⟨hb, hbs⟩ := List.cons.inj h
      exact ⟨rfl, hb, hbs⟩
    | cons a cs =>
      obtain ⟨-, hbs⟩ := List.cons.inj h
      rw [List.nil_append, List.map_cons, List.nodup_cons, hbs, hbc] at hnodup
      exact absurd (List.mem_map_of_mem (List.mem_append_right cs List.mem_cons_self)) hnodup.1
  | cons a bs ih =>
    rw [List.cons_append, List.map_cons, List.nodup_cons] at hnodup
    cases cs with
    | nil =>
      obtain ⟨hac, -⟩ := List.cons.inj h
      rw [hac, ← hbc] at hnodup
      exact absurd (List.mem_map_of_mem (List.mem_append_right bs List.mem_cons_self)) hnodup.1
    | cons d cs =>
      obtain ⟨rfl, hrest⟩ := List.cons.inj h
      obtain ⟨rfl, rfl, rfl⟩ := ih hnodup.2 hrest
      exact ⟨rfl, rfl, rfl⟩

/-- in a chain, the element that holds another's hash comes right after it -/
theorem next_of_prev {all bs bs' : List β} {b c : β} (hall : Follows prev hash g all)
    (hnodup : (all.map hash).Nodup) (hfresh : g ∉ all.map hash) (hb : all = bs ++ b :: bs') (hc : c ∈ all)
    (h : prev c = hash b) : ∃ bs'', bs' = c :: bs'' := by
  obtain ⟨cs, cs', hcut⟩ := List.append_of_mem hc
  rcases List.eq_nil_or_concat cs with rfl | ⟨cs, d, rfl⟩
  · rw [hcut] at hall
    have hgenesis : hash b = g := h.symm.trans hall.1
    rw [hb, ← hgenesis] at hfresh
    exact absurd (List.mem_map_of_mem (List.mem_append_right bs List.mem_cons_self)) hfresh
  · rw [List.concat_eq_append, List.append_assoc, List.singleton_append] at hcut
    rw [hcut] at hall
    have hd : hash b = hash d := h.symm.trans (follows_snoc hall)
    rw [hb] at hnodup
    obtain ⟨-, -, hrest⟩ := nodup_cut hnodup (hb.symm.trans hcut) hd
    exact ⟨cs', hrest⟩

/-- **Elements of a chain that hold each other's hashes stand together in it.** -/
theorem follows_infix {all run : List β} {p : η} (hall : Follows prev hash g all) (hnodup : (all.map hash).Nodup)
    (hfresh : g ∉ all.map hash) (hmem : ∀ b ∈ run, b ∈ all) (hrun : Follows prev hash p run) : run <:+: all := by
  cases run with
  | nil => exact List.nil_infix
  | cons b run =>
    obtain ⟨bs, bs', hb⟩ := List.append_of_mem (hmem b List.mem_cons_self)
    -- what follows `b` in the chain starts with the rest of the run
    have hprefix : ∀ (run : List β) (b : β) (bs bs' : List β), all = bs ++ b :: bs' → (∀ c ∈ run, c ∈ all) →
        Follows prev hash (hash b) run → run <+: bs' := by
      intro run
      induction run with
      | nil => exact fun _ _ _ _ _ _ => List.nil_prefix
      | cons c run ih =>
        intro b bs bs' hb hmem hrun
        obtain ⟨hprev, hrun⟩ := hrun
        obtain ⟨bs'', rfl⟩ := next_of_prev hall hnodup hfresh hb (hmem c List.mem_cons_self) hprev
        have hc : all = (bs ++ [b]) ++ c :: bs'' := by rw [hb, List.append_assoc, List.singleton_append]
        obtain ⟨rest, hrest⟩ := ih c (bs ++ [b]) bs'' hc (fun d hd => hmem d (List.mem_cons_of_mem _ hd)) hrun
        exact ⟨rest, by rw [List.cons_append, hrest]⟩
    obtain ⟨rest, hrest⟩ := hprefix run b bs bs' hb (fun c hc => hmem c (List.mem_cons_of_mem _ hc)) hrun.2
    exact ⟨bs, rest, by rw [hb, ← hrest, List.append_assoc, List.cons_append]⟩

end HashChain
