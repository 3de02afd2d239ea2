/-
SSH findings against the hosts' latest reports.

The inventory keeps one row for each host, path and fingerprint, with the columns of the last line that had them, and a
finding is known by the first 255 characters of its kind, host, path and fingerprint. So an earlier line's options are lost,
and two places can share a finding.

- `ingested_inventory`: the rows after a report are the last lines of the hosts' latest reports.
- `refresh_run`: the findings after a report, by key.
- `exact_iff`: after a refresh the findings name what the latest reports are flagged for exactly where these are `Faithful`.
- `findings_exact_iff`: the same after every report of a run.
- `restricted_line_hides`: an unrestricted root key whose second line is restricted.
-/
import Certadillo.Discovery.Isolation
import Certadillo.Lib.Dicts

namespace Certadillo.Discovery

open Integrity Policy Py Machine SshKeys

/-! ## Reports and what they flag -/

/-- an SSH part of a report that was accepted: its time, host and lines -/
structure SshReport where
  now : ℤ
  host : String
  lines : List Entry
deriving DecidableEq

/-- newest first -/
abbrev History := List SshReport

def atPlace (path fp : String) (e : Entry) : Bool := e.path = path && e.fingerprint = fp

/-- the last line with this path and fingerprint -/
def lastLine (path fp : String) : List Entry → Option Entry
  | [] => none
  | e :: rest => (lastLine path fp rest).or (if atPlace path fp e then some e else none)

/-- the lines of a host's latest report -/
def latest (hist : History) (host : String) : List Entry := ((hist.find? fun r => r.host = host).map (·.lines)).getD []

/-- when a key was first reported at a place -/
def firstReported (host path fp : String) : History → Option ℤ
  | [] => none
  | r :: rest => (firstReported host path fp rest).or
      (if r.host = host ∧ (lastLine path fp r.lines).isSome then some r.now else none)

/-- what a rule flags: a key at a place, or a key that is shared -/
inductive Cause where
  | place (rule : SshRule) (host path fp : String)
  | shared (fp : String)
deriving DecidableEq

/-- the key of its finding -/
def Cause.key : Cause → String
  | .place rule host path fp => findingKey rule (placeKey host path fp)
  | .shared fp => findingKey .sharedKey fp

def Cause.rule : Cause → SshRule
  | .place rule _ _ _ => rule
  | .shared _ => .sharedKey

section Flags

variable (cfg : Settings) (env : Env) (hist : History)

/-- a rule flags this line -/
def LineFlagged (rule : SshRule) (host : String) (e : Entry) : Prop :=
  rule ∈ flags cfg env e ((firstReported host e.path e.fingerprint hist).getD env.now)

/-- a rule flags a line of the latest reports -/
def Flagged : Cause → Prop
  | .place rule host path fp => ∃ e ∈ latest hist host, e.path = path ∧ e.fingerprint = fp ∧ LineFlagged cfg env hist rule host e
  | .shared fp => ∃ h e h' e', e ∈ latest hist h ∧ e' ∈ latest hist h' ∧ e.kind = .authorized ∧ e'.kind = .authorized ∧
      e.fingerprint = fp ∧ e'.fingerprint = fp ∧ (h, e.account) ≠ (h', e'.account)

/-- a line of the latest reports that no later line of its report has the path and fingerprint of -/
def LastIn (host : String) (e : Entry) : Prop := lastLine e.path e.fingerprint (latest hist host) = some e

/-- a rule flags such a line -/
def FlaggedLast : Cause → Prop
  | .place rule host path fp => ∃ e, LastIn hist host e ∧ e.path = path ∧ e.fingerprint = fp ∧ LineFlagged cfg env hist rule host e
  | .shared fp => ∃ h e h' e', LastIn hist h e ∧ LastIn hist h' e' ∧ e.kind = .authorized ∧ e'.kind = .authorized ∧
      e.fingerprint = fp ∧ e'.fingerprint = fp ∧ (h, e.account) ≠ (h', e'.account)

end Flags

/-! ### Last lines -/

section Lines

variable {path fp host : String} {e : Entry} {es : List Entry} {hist : History}

theorem lastLine_mem (h : lastLine path fp es = some e) : e ∈ es ∧ e.path = path ∧ e.fingerprint = fp := by
  induction es with
  | nil => cases h
  | cons x rest ih =>
    unfold lastLine at h
    rcases Option.or_eq_some_iff.1 h with hrest | ⟨-, hx⟩
    · obtain ⟨hmem, hplace⟩ := ih hrest
      exact ⟨List.mem_cons_of_mem _ hmem, hplace⟩
    · split at hx
      · next hat =>
        obtain rfl := Option.some.inj hx
        simp only [atPlace, Bool.and_eq_true, decide_eq_true_eq] at hat
        exact ⟨List.mem_cons_self, hat⟩
      · cases hx

theorem lastLine_isSome (h : e ∈ es) : ∃ e', lastLine e.path e.fingerprint es = some e' := by
  induction es with
  | nil => cases h
  | cons x rest ih =>
    unfold lastLine
    rcases List.mem_cons.1 h with rfl | hmem
    · cases hrest : lastLine e.path e.fingerprint rest with
      | some e' => exact ⟨e', rfl⟩
      | none => exact ⟨e, by simp [atPlace]⟩
    · obtain ⟨e', he'⟩ := ih hmem
      exact ⟨e', by rw [he']; rfl⟩

theorem LastIn.mem (h : LastIn hist host e) : e ∈ latest hist host := (lastLine_mem h).1

/-- what is flagged for a last line is flagged -/
theorem FlaggedLast.flagged {cfg : Settings} {env : Env} {c : Cause} (h : FlaggedLast cfg env hist c) : Flagged cfg env hist c := by
  cases c with
  | place rule host path fp =>
    obtain ⟨e, hlast, hplace⟩ := h
    exact ⟨e, hlast.mem, hplace⟩
  | shared fp =>
    obtain ⟨h, e, h', e', hlast, hlast', hrest⟩ := h
    exact ⟨h, e, h', e', hlast.mem, hlast'.mem, hrest⟩

theorem latest_cons (r : SshReport) (hist : History) (host : String) :
    latest (r :: hist) host = if r.host = host then r.lines else latest hist host := by
  unfold latest
  by_cases h : r.host = host
  · simp [h]
  · simp [h]

end Lines

/-! ## The inventory -/

def AtPlace (host path fp : String) (k : SshKey) : Prop := k.host = host ∧ k.path = path ∧ k.fingerprint = fp

/-- one row for each place -/
def PlacesUnique (t : Table SshKey) : Prop :=
  ∀ i j a b, t.get i = some a → t.get j = some b → AtPlace b.host b.path b.fingerprint a → i = j

/-- the rows against the reports: every place that was reported has a row with the time it was first, and the row is present,
with the columns of the last line, exactly if it is in its host's latest report -/
structure Inventory (hist : History) (t : Table SshKey) : Prop where
  unique : PlacesUnique t
  first : ∀ i k, t.get i = some k → firstReported k.host k.path k.fingerprint hist = some k.firstSeen
  reported : ∀ host path fp now, firstReported host path fp hist = some now → ∃ i k, t.get i = some k ∧ AtPlace host path fp k
  present : ∀ i k, t.get i = some k → k.status = .present → lastLine k.path k.fingerprint (latest hist k.host) = some k.toEntry
  removed : ∀ i k, t.get i = some k → k.status = .removed → lastLine k.path k.fingerprint (latest hist k.host) = none

section Ingest

variable {env : Env} {host : String} {s s' : Session Store}

/-- the rows after the lines of one host's report, from those before -/
structure Ingested (now : ℤ) (host : String) (es : List Entry) (ids : List ℕ) (t t' : Table SshKey) : Prop where
  unique : PlacesUnique t'
  old : ∀ i k, t.get i = some k → ∃ k', t'.get i = some k' ∧ AtPlace k.host k.path k.fingerprint k' ∧
    k'.firstSeen = k.firstSeen ∧
    ((k.host = host ∧ lastLine k.path k.fingerprint es = some k'.toEntry ∧ k'.status = .present) ∨
      ((k.host = host → lastLine k.path k.fingerprint es = none) ∧ k' = k))
  new : ∀ i k', t.get i = none → t'.get i = some k' → k'.host = host ∧ k'.firstSeen = now ∧ k'.status = .present ∧
    lastLine k'.path k'.fingerprint es = some k'.toEntry
  seen : ∀ i, i ∈ ids ↔ ∃ k', t'.get i = some k' ∧ k'.host = host ∧ (lastLine k'.path k'.fingerprint es).isSome
  covered : ∀ e ∈ es, ∃ i k', t'.get i = some k' ∧ AtPlace host e.path e.fingerprint k'

theorem AtPlace.symm {k k' : SshKey} (h : AtPlace k.host k.path k.fingerprint k') : AtPlace k'.host k'.path k'.fingerprint k :=
  ⟨h.1.symm, h.2.1.symm, h.2.2.symm⟩

theorem AtPlace.trans {k k' k'' : SshKey} (h : AtPlace k.host k.path k.fingerprint k')
    (h' : AtPlace k'.host k'.path k'.fingerprint k'') : AtPlace k.host k.path k.fingerprint k'' :=
  ⟨h'.1.trans h.1, h'.2.1.trans h.2.1, h'.2.2.trans h.2.2⟩

theorem lastLine_append (path fp : String) (a b : List Entry) :
    lastLine path fp (a ++ b) = (lastLine path fp b).or (lastLine path fp a) := by
  induction a with
  | nil => simp [lastLine]
  | cons x rest ih => rw [List.cons_append, lastLine, lastLine, ih, Option.or_assoc]

theorem lastLine_append_of_some {path fp : String} {a b : List Entry} {e : Entry} (h : lastLine path fp b = some e) :
    lastLine path fp (a ++ b) = some e := by
  rw [lastLine_append, h]
  rfl

theorem lastLine_append_of_none {path fp : String} {a b : List Entry} (h : lastLine path fp b = none) :
    lastLine path fp (a ++ b) = lastLine path fp a := by
  rw [lastLine_append, h]
  rfl

theorem ingested_nil {now : ℤ} {t : Table SshKey} (h : PlacesUnique t) : Ingested now host [] [] t t where
  unique := h
  old i k hk := ⟨k, hk, ⟨rfl, rfl, rfl⟩, rfl, Or.inr ⟨fun _ => rfl, rfl⟩⟩
  new i k' hnone hsome := by
    rw [hnone] at hsome
    cases hsome
  seen i := by simp [lastLine]
  covered e he := by cases he

/-- lines, and more lines -/
theorem Ingested.trans {now : ℤ} {es es' : List Entry} {ids ids' : List ℕ} {t t₁ t₂ : Table SshKey}
    (h : Ingested now host es ids t t₁) (h' : Ingested now host es' ids' t₁ t₂) :
    Ingested now host (es ++ es') (ids ++ ids') t t₂ := by
  -- a row of the middle, in the end
  have hlater : ∀ i k, t₁.get i = some k → ∃ k', t₂.get i = some k' ∧ AtPlace k.host k.path k.fingerprint k' := by
    intro i k hk
    obtain ⟨k', hk', hplace, -⟩ := h'.old i k hk
    exact ⟨k', hk', hplace⟩
  refine ⟨h'.unique, fun i k hk => ?_, fun i k₂ hnone hsome => ?_, fun i => ?_, fun e he => ?_⟩
  · obtain ⟨k₁, hk₁, hplace, hfirst, hcase⟩ := h.old i k hk
    obtain ⟨k₂, hk₂, hplace', hfirst', hcase'⟩ := h'.old i k₁ hk₁
    obtain ⟨hhost, hpath, hfp⟩ := hplace
    rw [hhost, hpath, hfp] at hcase'
    refine ⟨k₂, hk₂, AtPlace.trans ⟨hhost, hpath, hfp⟩ hplace', hfirst'.trans hfirst, ?_⟩
    rcases hcase' with ⟨hown, hlast, hstatus⟩ | ⟨hnone, rfl⟩
    · exact Or.inl ⟨hown, lastLine_append_of_some hlast, hstatus⟩
    · rcases hcase with ⟨hown, hlast, hstatus⟩ | ⟨hnone', rfl⟩
      · exact Or.inl ⟨hown, (lastLine_append_of_none (hnone hown)).trans hlast, hstatus⟩
      · exact Or.inr ⟨fun hown => (lastLine_append_of_none (hnone hown)).trans (hnone' hown), rfl⟩
  · cases hmid : t₁.get i with
    | none =>
      obtain ⟨hown, hfirst, hstatus, hlast⟩ := h'.new i k₂ hmid hsome
      exact ⟨hown, hfirst, hstatus, lastLine_append_of_some hlast⟩
    | some k₁ =>
      obtain ⟨hown, hfirst, hstatus, hlast⟩ := h.new i k₁ hnone hmid
      obtain ⟨k₂', hk₂, hplace, hfirst', hcase⟩ := h'.old i k₁ hmid
      obtain rfl := Option.some.inj (hsome.symm.trans hk₂)
      obtain ⟨hhost, hpath, hfp⟩ := hplace
      rcases hcase with ⟨-, hlast', hstatus'⟩ | ⟨hnone', rfl⟩
      · rw [← hpath, ← hfp] at hlast'
        exact ⟨hhost.trans hown, hfirst'.trans hfirst, hstatus', lastLine_append_of_some hlast'⟩
      · exact ⟨hown, hfirst, hstatus, (lastLine_append_of_none (hnone' hown)).trans hlast⟩
  · rw [List.mem_append, h.seen i, h'.seen i]
    constructor
    · intro hseen
      rcases hseen with ⟨k₁, hk₁, hown, hlast⟩ | ⟨k₂, hk₂, hown, hlast⟩
      · obtain ⟨k₂, hk₂, hhost, hpath, hfp⟩ := hlater i k₁ hk₁
        refine ⟨k₂, hk₂, hhost.trans hown, ?_⟩
        rw [lastLine_append, hpath, hfp, Option.isSome_or, hlast, Bool.or_true]
      · exact ⟨k₂, hk₂, hown, by rw [lastLine_append, Option.isSome_or, hlast, Bool.true_or]⟩
    · intro hseen
      obtain ⟨k₂, hk₂, hown, hlast⟩ := hseen
      cases hlast' : lastLine k₂.path k₂.fingerprint es' with
      | some e => exact Or.inr ⟨k₂, hk₂, hown, by rw [hlast']; rfl⟩
      | none =>
        rw [lastLine_append_of_none hlast'] at hlast
        cases hmid : t₁.get i with
        | none =>
          obtain ⟨-, -, -, hsome⟩ := h'.new i k₂ hmid hk₂
          rw [hlast'] at hsome
          cases hsome
        | some k₁ =>
          obtain ⟨k₂', hk₂', hhost, hpath, hfp⟩ := hlater i k₁ hmid
          obtain rfl := Option.some.inj (hk₂.symm.trans hk₂')
          rw [hpath, hfp] at hlast
          exact Or.inl ⟨k₁, rfl, hhost.symm.trans hown, hlast⟩
  · rcases List.mem_append.1 he with hmem | hmem
    · obtain ⟨i, k₁, hk₁, hplace⟩ := h.covered e hmem
      obtain ⟨k₂, hk₂, hhost, hpath, hfp⟩ := hlater i k₁ hk₁
      exact ⟨i, k₂, hk₂, hhost.trans hplace.1, hpath.trans hplace.2.1, hfp.trans hplace.2.2⟩
    · exact h'.covered e hmem

theorem lastLine_one (path fp : String) (e : Entry) :
    lastLine path fp [e] = if e.path = path ∧ e.fingerprint = fp then some e else none := by
  simp [lastLine, atPlace]

/-- one line -/
theorem ingestKey_run {e : Entry} {row : ℕ × Bool} (h : ingestKey env host e s = (.ok row, s'))
    (hunique : PlacesUnique s.work.sshKeys) :
    Ingested env.now host [e] [row.1] s.work.sshKeys s'.work.sshKeys := by
  unfold ingestKey at h
  rw [Tx.get_bind] at h
  obtain ⟨found, s₁, hlift, hwrite⟩ := Tx.bind_returns.1 h
  obtain ⟨hfound, rfl⟩ := Prod.mk.inj hlift
  -- a row at the place is the one found
  have hat : ∀ i k, s.work.sshKeys.get i = some k → k.host = host → (lastLine k.path k.fingerprint [e]).isSome →
      found = some (i, k) := by
    intro i k hk hown hlast
    rw [lastLine_one] at hlast
    split at hlast
    · next hplace => exact oneOrNone_ok hfound hk (by simp [hown, hplace])
    · cases hlast
  cases found with
  | none =>
    obtain ⟨u, s₂, hinsert, hpure⟩ := Tx.bind_returns.1 hwrite
    obtain ⟨-, rfl⟩ := Prod.mk.inj hinsert
    obtain ⟨hrow, rfl⟩ := Prod.mk.inj hpure
    obtain rfl := Except.ok.inj hrow
    have hget : ∀ i, (s.work.sshKeys.insert ⟨e, host, env.now, env.now, .present, none, none⟩).get i =
        if i = s.work.sshKeys.next then some ⟨e, host, env.now, env.now, .present, none, none⟩ else s.work.sshKeys.get i :=
      fun i => Table.get_insert _ _ i
    have hnone : ∀ i k, s.work.sshKeys.get i = some k → ¬ AtPlace host e.path e.fingerprint k := by
      intro i k hk hplace
      obtain ⟨hhost, hpath, hfp⟩ := hplace
      have hsome := hat i k hk hhost (by rw [lastLine_one, if_pos ⟨hpath.symm, hfp.symm⟩]; rfl)
      cases hsome
    show Ingested env.now host [e] [s.work.sshKeys.next] s.work.sshKeys (s.work.sshKeys.insert _)
    refine ⟨fun i j a b ha hb hplace => ?_, fun i k hk => ?_, fun i k' hfree hk' => ?_, fun i => ?_, fun x hx => ?_⟩
    · rw [hget] at ha hb
      by_cases hi : i = s.work.sshKeys.next
      · by_cases hj : j = s.work.sshKeys.next
        · rw [hi, hj]
        · rw [if_pos hi] at ha
          rw [if_neg hj] at hb
          obtain rfl := Option.some.inj ha
          exact absurd hplace.symm (hnone j b hb)
      · rw [if_neg hi] at ha
        by_cases hj : j = s.work.sshKeys.next
        · rw [if_pos hj] at hb
          obtain rfl := Option.some.inj hb
          exact absurd hplace (hnone i a ha)
        · rw [if_neg hj] at hb
          exact hunique i j a b ha hb hplace
    · refine ⟨k, Table.get_insert_of_some hk, ⟨rfl, rfl, rfl⟩, rfl, Or.inr ⟨fun hown => ?_, rfl⟩⟩
      by_contra hsome
      have hfound' := hat i k hk hown (Option.isSome_iff_ne_none.2 hsome)
      cases hfound'
    · rw [hget] at hk'
      split at hk'
      · obtain rfl := Option.some.inj hk'
        refine ⟨rfl, rfl, rfl, ?_⟩
        rw [lastLine_one, if_pos ⟨rfl, rfl⟩]
      · rw [hfree] at hk'
        cases hk'
    · rw [List.mem_singleton]
      constructor
      · intro hi
        refine ⟨_, (hget i).trans (if_pos hi), rfl, ?_⟩
        rw [lastLine_one, if_pos ⟨rfl, rfl⟩]
        rfl
      · intro hseen
        obtain ⟨k', hk', hown, hlast⟩ := hseen
        rw [hget] at hk'
        split at hk'
        · next hi => exact hi
        · have hfound' := hat i k' hk' hown hlast
          cases hfound'
    · obtain rfl := List.mem_singleton.1 hx
      exact ⟨_, _, Table.get_insert_next _ _, rfl, rfl, rfl⟩
  | some p =>
    obtain ⟨id, k₀⟩ := p
    obtain ⟨u, s₂, hset, hpure⟩ := Tx.bind_returns.1 hwrite
    obtain ⟨-, rfl⟩ := Prod.mk.inj hset
    obtain ⟨hrow, rfl⟩ := Prod.mk.inj hpure
    obtain rfl := Except.ok.inj hrow
    obtain ⟨hk₀, hplace₀⟩ := oneOrNone_some hfound
    have hplace₀ : k₀.host = host ∧ k₀.path = e.path ∧ k₀.fingerprint = e.fingerprint := by
      simpa [and_assoc] using hplace₀
    have hlast₀ : lastLine k₀.path k₀.fingerprint [e] = some e := by
      rw [lastLine_one, if_pos ⟨hplace₀.2.1.symm, hplace₀.2.2.symm⟩]
    have hget : ∀ i, (s.work.sshKeys.update id fun r => { r with toEntry := e, lastSeen := env.now, status := .present }).get i =
        if i = id then some { k₀ with toEntry := e, lastSeen := env.now, status := .present } else s.work.sshKeys.get i := by
      intro i
      rw [Table.get_update]
      by_cases hi : i = id
      · subst hi
        rw [if_pos rfl, if_pos rfl, hk₀]
        rfl
      · rw [if_neg hi, if_neg hi]
    -- the row keeps its place
    have hback : ∀ i k', (s.work.sshKeys.update id fun r =>
        { r with toEntry := e, lastSeen := env.now, status := .present }).get i = some k' →
          ∃ k, s.work.sshKeys.get i = some k ∧ AtPlace k.host k.path k.fingerprint k' := by
      intro i k' hk'
      rw [hget] at hk'
      split at hk'
      · next hi =>
        subst hi
        obtain rfl := Option.some.inj hk'
        exact ⟨k₀, hk₀, rfl, hplace₀.2.1.symm, hplace₀.2.2.symm⟩
      · exact ⟨k', hk', rfl, rfl, rfl⟩
    show Ingested env.now host [e] [id] s.work.sshKeys
      (s.work.sshKeys.update id fun r => { r with toEntry := e, lastSeen := env.now, status := .present })
    refine ⟨fun i j a b ha hb hplace => ?_, fun i k hk => ?_, fun i k' hfree hk' => ?_, fun i => ?_, fun x hx => ?_⟩
    · obtain ⟨a₀, ha₀, haplace⟩ := hback i a ha
      obtain ⟨b₀, hb₀, hbplace⟩ := hback j b hb
      exact hunique i j a₀ b₀ ha₀ hb₀ (hbplace.trans (hplace.trans haplace.symm))
    · by_cases hi : i = id
      · subst hi
        obtain rfl := Option.some.inj (hk₀.symm.trans hk)
        exact ⟨_, (hget i).trans (if_pos rfl), ⟨rfl, hplace₀.2.1.symm, hplace₀.2.2.symm⟩, rfl,
          Or.inl ⟨hplace₀.1, hlast₀, rfl⟩⟩
      · refine ⟨k, (hget i).trans ((if_neg hi).trans hk), ⟨rfl, rfl, rfl⟩, rfl, Or.inr ⟨fun hown => ?_, rfl⟩⟩
        by_contra hsome
        have hfound' := hat i k hk hown (Option.isSome_iff_ne_none.2 hsome)
        exact hi (congrArg Prod.fst (Option.some.inj hfound')).symm
    · obtain ⟨k, hk, -⟩ := hback i k' hk'
      rw [hfree] at hk
      cases hk
    · rw [List.mem_singleton]
      constructor
      · intro hi
        refine ⟨_, (hget i).trans (if_pos hi), hplace₀.1, ?_⟩
        show (lastLine e.path e.fingerprint [e]).isSome = true
        rw [lastLine_one, if_pos ⟨rfl, rfl⟩]
        rfl
      · intro hseen
        obtain ⟨k', hk', hown, hlast⟩ := hseen
        rw [hget] at hk'
        split at hk'
        · next hi => exact hi
        · have hfound' := hat i k' hk' hown hlast
          exact (congrArg Prod.fst (Option.some.inj hfound')).symm
    · obtain rfl := List.mem_singleton.1 hx
      exact ⟨id, _, (hget id).trans (if_pos rfl), hplace₀.1, rfl, rfl⟩

/-- the lines a report's items stand for -/
def linesOf (keys : List Dict) : Except Err (List Entry) := keys.mapM entryOf

theorem ingestKeys_run {keys : List Dict} {rows : List (ℕ × Bool)} (h : ingestKeys env host keys s = (.ok rows, s'))
    (hunique : PlacesUnique s.work.sshKeys) :
    ∃ es, linesOf keys = .ok es ∧ Ingested env.now host es (rows.map Prod.fst) s.work.sshKeys s'.work.sshKeys := by
  induction keys generalizing s rows with
  | nil =>
    obtain ⟨hrows, rfl⟩ := Prod.mk.inj h
    obtain rfl := Except.ok.inj hrows
    exact ⟨[], rfl, ingested_nil hunique⟩
  | cons k rest ih =>
    unfold ingestKeys at h
    obtain ⟨e, s₁, hentry, h₁⟩ := Tx.bind_returns.1 h
    obtain ⟨hline, rfl⟩ := Prod.mk.inj hentry
    obtain ⟨row, s₂, hone, h₂⟩ := Tx.bind_returns.1 h₁
    obtain ⟨rows', s₃, hrest, h₃⟩ := Tx.bind_returns.1 h₂
    obtain ⟨hrows, rfl⟩ := Prod.mk.inj h₃
    obtain rfl := Except.ok.inj hrows
    have hone' := ingestKey_run hone hunique
    obtain ⟨es, hes, hrest'⟩ := ih hrest hone'.unique
    refine ⟨e :: es, ?_, hone'.trans hrest'⟩
    unfold linesOf at hes ⊢
    rw [List.mapM_cons, hline, hes]
    rfl

theorem mem_unseenIn {ids : List ℕ} {t : Table SshKey} {i : ℕ} {k : SshKey} (hk : t.get i = some k) :
    i ∈ unseenIn ids (t.all fun k => k.host = host && k.status = .present) ↔
      k.host = host ∧ k.status = .present ∧ i ∉ ids := by
  unfold unseenIn
  rw [List.mem_filter, List.mem_map]
  constructor
  · intro hmem
    obtain ⟨⟨p, hp, rfl⟩, hids⟩ := hmem
    obtain ⟨hget, hown⟩ := Table.mem_all.1 hp
    obtain rfl := Option.some.inj (hk.symm.trans hget)
    simp only [Bool.and_eq_true, decide_eq_true_eq] at hown hids
    exact ⟨hown.1, hown.2, hids⟩
  · intro hown
    obtain ⟨hhost, hstatus, hids⟩ := hown
    exact ⟨⟨(i, k), Table.mem_all.2 ⟨hk, by simp [hhost, hstatus]⟩, rfl⟩, by simpa using hids⟩

/-- the rows after a report are those of the history with the report -/
theorem ingested_inventory {hist : History} {now : ℤ} {es : List Entry} {ids : List ℕ} {t t' t'' : Table SshKey}
    (hinv : Inventory hist t) (h : Ingested now host es ids t t')
    (hremoved : ∀ i, t''.get i = if i ∈ unseenIn ids (t'.all fun k => k.host = host && k.status = .present) then
      (t'.get i).map fun k => { k with status := .removed } else t'.get i) :
    Inventory (⟨now, host, es⟩ :: hist) t'' := by
  -- a row is one of before the removals, with its status
  have hback : ∀ i k'', t''.get i = some k'' → ∃ k', t'.get i = some k' ∧ k'' = { k' with status := k''.status } ∧
      (k''.status = if k'.host = host ∧ k'.status = .present ∧ i ∉ ids then .removed else k'.status) := by
    intro i k'' hk''
    rw [hremoved] at hk''
    cases hk' : t'.get i with
    | none => simp [hk'] at hk''
    | some k' =>
      refine ⟨k', rfl, ?_⟩
      rw [hk'] at hk''
      by_cases hgone : k'.host = host ∧ k'.status = .present ∧ i ∉ ids
      · rw [if_pos ((mem_unseenIn hk').2 hgone)] at hk''
        obtain rfl := Option.some.inj hk''
        exact ⟨rfl, (if_pos hgone).symm⟩
      · rw [if_neg fun hmem => hgone ((mem_unseenIn hk').1 hmem)] at hk''
        obtain rfl := Option.some.inj hk''
        exact ⟨rfl, (if_neg hgone).symm⟩
  have hforth : ∀ i k', t'.get i = some k' → ∃ k'', t''.get i = some k'' ∧ AtPlace k'.host k'.path k'.fingerprint k'' := by
    intro i k' hk'
    rw [hremoved, hk']
    split
    · exact ⟨_, rfl, rfl, rfl, rfl⟩
    · exact ⟨_, rfl, rfl, rfl, rfl⟩
  -- a row of another host was there before, and is the same
  have hother : ∀ i k', t'.get i = some k' → k'.host ≠ host → t.get i = some k' := by
    intro i k' hk' hne
    cases hk : t.get i with
    | none => exact absurd (h.new i k' hk hk').1 hne
    | some k =>
      obtain ⟨k₁, hk₁, hplace, -, hcase⟩ := h.old i k hk
      obtain rfl := Option.some.inj (hk'.symm.trans hk₁)
      rcases hcase with ⟨hown, -⟩ | ⟨-, hsame⟩
      · exact absurd (hplace.1.trans hown) hne
      · rw [hsame]
  refine ⟨fun i j a b ha hb hplace => ?_, fun i k'' hk'' => ?_, fun g path fp now' hfirst => ?_, fun i k'' hk'' hstatus => ?_,
    fun i k'' hk'' hstatus => ?_⟩
  · obtain ⟨a', ha', hasame, -⟩ := hback i a ha
    obtain ⟨b', hb', hbsame, -⟩ := hback j b hb
    rw [hasame, hbsame] at hplace
    exact h.unique i j a' b' ha' hb' hplace
  · obtain ⟨k', hk', hsame, -⟩ := hback i k'' hk''
    rw [hsame]
    show (firstReported k'.host k'.path k'.fingerprint hist).or _ = some k'.firstSeen
    cases hk : t.get i with
    | some k =>
      obtain ⟨k₁, hk₁, ⟨hhost, hpath, hfp⟩, hfirst, -⟩ := h.old i k hk
      obtain rfl := Option.some.inj (hk'.symm.trans hk₁)
      rw [hhost, hpath, hfp, hinv.first i k hk, hfirst]
      rfl
    | none =>
      obtain ⟨hown, hfirst, -, hlast⟩ := h.new i k' hk hk'
      have hnever : firstReported k'.host k'.path k'.fingerprint hist = none := by
        by_contra hsome
        obtain ⟨now', hnow⟩ := Option.ne_none_iff_exists'.1 hsome
        obtain ⟨j, k, hj, hplace⟩ := hinv.reported _ _ _ _ hnow
        obtain ⟨k₁, hk₁, hplace', -⟩ := h.old j k hj
        have hij := h.unique j i k₁ k' hk₁ hk' ⟨hplace'.1.trans hplace.1, hplace'.2.1.trans hplace.2.1,
          hplace'.2.2.trans hplace.2.2⟩
        rw [← hij, hj] at hk
        cases hk
      rw [hnever, hlast, if_pos ⟨hown.symm, rfl⟩, hfirst]
      rfl
  · have hrow : ∃ i k', t'.get i = some k' ∧ AtPlace g path fp k' := by
      rcases Option.or_eq_some_iff.1 hfirst with hbefore | ⟨-, hnow⟩
      · obtain ⟨i, k, hk, hplace⟩ := hinv.reported g path fp now' hbefore
        obtain ⟨k', hk', ⟨hhost, hpath, hfp⟩, -⟩ := h.old i k hk
        exact ⟨i, k', hk', hhost.trans hplace.1, hpath.trans hplace.2.1, hfp.trans hplace.2.2⟩
      · split at hnow
        · next hreported =>
          obtain ⟨hhost, hlast⟩ := hreported
          obtain ⟨e, he⟩ := Option.isSome_iff_exists.1 hlast
          obtain ⟨hmem, rfl, rfl⟩ := lastLine_mem he
          obtain ⟨i, k', hk', hplace⟩ := h.covered e hmem
          have hhost : host = g := hhost
          exact ⟨i, k', hk', hplace.1.trans hhost, hplace.2⟩
        · cases hnow
    obtain ⟨i, k', hk', hplace⟩ := hrow
    obtain ⟨k'', hk'', hhost, hpath, hfp⟩ := hforth i k' hk'
    exact ⟨i, k'', hk'', hhost.trans hplace.1, hpath.trans hplace.2.1, hfp.trans hplace.2.2⟩
  · obtain ⟨k', hk', hsame, hnow⟩ := hback i k'' hk''
    have hkept : ¬ (k'.host = host ∧ k'.status = .present ∧ i ∉ ids) := by
      intro hgone
      rw [if_pos hgone, hstatus] at hnow
      cases hnow
    rw [if_neg hkept, hstatus] at hnow
    rw [hsame, latest_cons]
    show lastLine k'.path k'.fingerprint (if host = k'.host then es else latest hist k'.host) = some k'.toEntry
    by_cases hown : k'.host = host
    · rw [if_pos hown.symm]
      have hseen : i ∈ ids := by
        by_contra hunseen
        exact hkept ⟨hown, hnow.symm, hunseen⟩
      cases hk : t.get i with
      | none => exact (h.new i k' hk hk').2.2.2
      | some k =>
        obtain ⟨k₁, hk₁, ⟨-, hpath, hfp⟩, -, hcase⟩ := h.old i k hk
        obtain rfl := Option.some.inj (hk'.symm.trans hk₁)
        rcases hcase with ⟨-, hlast, -⟩ | ⟨hnone, hsame'⟩
        · rw [hpath, hfp]
          exact hlast
        · obtain ⟨k₂, hk₂, -, hlast⟩ := (h.seen i).1 hseen
          obtain rfl := Option.some.inj (hk'.symm.trans hk₂)
          rw [hsame', hnone (by rw [← hsame']; exact hown)] at hlast
          cases hlast
    · rw [if_neg fun heq => hown heq.symm]
      exact hinv.present i k' (hother i k' hk' hown) hnow.symm
  · obtain ⟨k', hk', hsame, hnow⟩ := hback i k'' hk''
    rw [hsame, latest_cons]
    show lastLine k'.path k'.fingerprint (if host = k'.host then es else latest hist k'.host) = none
    by_cases hown : k'.host = host
    · rw [if_pos hown.symm]
      by_cases hgone : k'.host = host ∧ k'.status = .present ∧ i ∉ ids
      · by_contra hsome
        exact hgone.2.2 ((h.seen i).2 ⟨k', hk', hown, Option.isSome_iff_ne_none.2 hsome⟩)
      · rw [if_neg hgone, hstatus] at hnow
        cases hk : t.get i with
        | none =>
          have hpresent := (h.new i k' hk hk').2.2.1
          rw [← hnow] at hpresent
          cases hpresent
        | some k =>
          obtain ⟨k₁, hk₁, ⟨-, hpath, hfp⟩, -, hcase⟩ := h.old i k hk
          obtain rfl := Option.some.inj (hk'.symm.trans hk₁)
          rcases hcase with ⟨-, -, hpresent⟩ | ⟨hnone, hsame'⟩
          · rw [← hnow] at hpresent
            cases hpresent
          · rw [hpath, hfp]
            exact hnone (by rw [← hsame']; exact hown)
    · have hstill : ¬ (k'.host = host ∧ k'.status = .present ∧ i ∉ ids) := fun hgone => hown hgone.1
      rw [if_neg hstill, hstatus] at hnow
      rw [if_neg fun heq => hown heq.symm]
      exact hinv.removed i k' (hother i k' hk' hown) hnow.symm

end Ingest

/-! ## The findings -/

/-- a finding's key is unique -/
def UniqueKeys (t : Table DiscoveryFinding) : Prop :=
  ∀ i j f g, t.get i = some f → t.get j = some g → f.key = g.key → i = j

section Refresh

variable {cfg : Settings} {env : Env} {s s' : Session Store}

/-- the finding the loop adds -/
def newFinding (env : Env) (key : String) (w : Wanted) : DiscoveryFinding :=
  ⟨.ssh w.rule, key, some w.location, w.detail, .opened, env.now, env.now, none⟩

/-- what a refresh makes of an SSH finding -/
def afterRefresh (env : Env) (want : List (String × Wanted)) (f : DiscoveryFinding) : DiscoveryFinding :=
  match want.lookup f.key with
  | some w => refreshed env w f
  | none => f

theorem afterRefresh_none {want : List (String × Wanted)} {f : DiscoveryFinding} (h : want.lookup f.key = none) :
    afterRefresh env want f = f := by
  unfold afterRefresh
  rw [h]

theorem afterRefresh_some {want : List (String × Wanted)} {f : DiscoveryFinding} {w : Wanted} (h : want.lookup f.key = some w) :
    afterRefresh env want f = refreshed env w f := by
  unfold afterRefresh
  rw [h]

theorem afterRefresh_key (want : List (String × Wanted)) (f : DiscoveryFinding) : (afterRefresh env want f).key = f.key := by
  unfold afterRefresh
  split
  · rfl
  · rfl

/-- the findings after the loop over the wanted ones, from those before -/
structure Opened (env : Env) (want : List (String × Wanted)) (t t' : Table DiscoveryFinding) : Prop where
  unique : UniqueKeys t'
  ssh : ∀ i f, t.get i = some f → isSsh f = true → t'.get i = some (afterRefresh env want f)
  others : ∀ i f, t.get i = some f → isSsh f = false → t'.get i = some f
  new : ∀ i f, t.get i = none → t'.get i = some f → ∃ w, (f.key, w) ∈ want ∧ f = newFinding env f.key w
  all : ∀ p ∈ want, ∃ i f, t'.get i = some f ∧ f.key = p.1 ∧ isSsh f = true

theorem lookup_of_notMem {want : List (String × Wanted)} {key : String} (h : key ∉ want.map Prod.fst) :
    want.lookup key = none := by
  induction want with
  | nil => rfl
  | cons p rest ih =>
    rw [List.map_cons, List.mem_cons, not_or] at h
    have hne : (key == p.1) = false := by simpa using h.1
    rw [List.lookup_cons, hne]
    exact ih h.2

theorem lookup_cons_of_ne {key k : String} {w : Wanted} {rest : List (String × Wanted)} (h : k ≠ key) :
    ((key, w) :: rest).lookup k = rest.lookup k := by
  have hne : (k == key) = false := by simpa using h
  rw [List.lookup_cons, hne]

theorem openAll_run {existing : List (ℕ × DiscoveryFinding)} {want : List (String × Wanted)} {u : Unit}
    (hnodup : (want.map Prod.fst).Nodup) (h : openAll env existing want s = (.ok u, s')) (hunique : UniqueKeys s.work.findings)
    (hids : ∀ p ∈ existing, ∃ f, s.work.findings.get p.1 = some f ∧ f.key = p.2.key ∧ isSsh f = true)
    (hloaded : ∀ i f, s.work.findings.get i = some f → isSsh f = true → f.key ∈ want.map Prod.fst →
      ∃ p ∈ existing, p.2.key = f.key) :
    s'.work.sshKeys = s.work.sshKeys ∧ Opened env want s.work.findings s'.work.findings := by
  induction want generalizing s with
  | nil =>
    obtain ⟨-, rfl⟩ := Prod.mk.inj h
    refine ⟨rfl, hunique, fun i f hf _ => hf, fun i f hf _ => hf, fun i f hnone hsome => ?_, fun p hp => ?_⟩
    · rw [hnone] at hsome
      cases hsome
    · cases hp
  | cons q rest ih =>
    obtain ⟨key, w⟩ := q
    rw [List.map_cons, List.nodup_cons] at hnodup
    obtain ⟨hkey, hrestNodup⟩ := hnodup
    unfold openAll at h
    obtain ⟨v, s₁, hone, hrest⟩ := Tx.bind_returns.1 h
    unfold openFinding at hone
    cases hfound : existing.find? (fun p => p.2.key = key) with
    | none =>
      rw [hfound] at hone
      obtain ⟨hfresh, rfl⟩ := addFinding_returns hone
      have hget : ∀ i, (s.work.findings.insert (newFinding env key w)).get i =
          if i = s.work.findings.next then some (newFinding env key w) else s.work.findings.get i := fun i => Table.get_insert _ _ i
      obtain ⟨hssh, hopened⟩ := ih hrestNodup hrest
        (fun i j f g hf hg hsame => by
          have hf : (s.work.findings.insert (newFinding env key w)).get i = some f := hf
          have hg : (s.work.findings.insert (newFinding env key w)).get j = some g := hg
          rw [hget] at hf hg
          by_cases hi : i = s.work.findings.next
          · by_cases hj : j = s.work.findings.next
            · rw [hi, hj]
            · rw [if_pos hi] at hf
              rw [if_neg hj] at hg
              obtain rfl := Option.some.inj hf
              exact absurd hsame.symm (hfresh j g hg)
          · rw [if_neg hi] at hf
            by_cases hj : j = s.work.findings.next
            · rw [if_pos hj] at hg
              obtain rfl := Option.some.inj hg
              exact absurd hsame (hfresh i f hf)
            · rw [if_neg hj] at hg
              exact hunique i j f g hf hg hsame)
        (fun p hp => by
          obtain ⟨f, hf, hrest⟩ := hids p hp
          exact ⟨f, Table.get_insert_of_some hf, hrest⟩)
        (fun i f hf hsshf hmem => by
          have hf : (s.work.findings.insert (newFinding env key w)).get i = some f := hf
          rw [hget] at hf
          split at hf
          · obtain rfl := Option.some.inj hf
            exact absurd hmem hkey
          · exact hloaded i f hf hsshf (List.mem_cons_of_mem _ hmem))
      have hadded : s'.work.findings.get s.work.findings.next = some (newFinding env key w) := by
        have hrow := hopened.ssh s.work.findings.next (newFinding env key w) (Table.get_insert_next _ _) rfl
        rwa [afterRefresh_none (lookup_of_notMem hkey)] at hrow
      refine ⟨hssh, hopened.unique, fun i f hf hsshf => ?_, fun i f hf hother => ?_, fun i f hnone hsome => ?_, fun p hp => ?_⟩
      · have hrow := hopened.ssh i f (Table.get_insert_of_some hf) hsshf
        unfold afterRefresh at hrow ⊢
        rw [lookup_cons_of_ne (hfresh i f hf)]
        exact hrow
      · exact hopened.others i f (Table.get_insert_of_some hf) hother
      · by_cases hi : i = s.work.findings.next
        · rw [hi, hadded] at hsome
          obtain rfl := Option.some.inj hsome
          exact ⟨w, List.mem_cons_self, rfl⟩
        · obtain ⟨w', hmem, heq⟩ := hopened.new i f ((hget i).trans ((if_neg hi).trans hnone)) hsome
          exact ⟨w', List.mem_cons_of_mem _ hmem, heq⟩
      · rcases List.mem_cons.1 hp with rfl | hmem
        · exact ⟨_, _, hadded, rfl, rfl⟩
        · exact hopened.all p hmem
    | some q =>
      rw [hfound] at hone
      obtain ⟨-, rfl⟩ := Prod.mk.inj hone
      have hq : q ∈ existing := List.mem_of_find?_eq_some hfound
      have hqkey : q.2.key = key := by simpa using List.find?_some hfound
      obtain ⟨g, hg, hgkey, hgssh⟩ := hids q hq
      have hgkey : g.key = key := hgkey.trans hqkey
      have hget : ∀ i, (s.work.findings.update q.1 (refreshed env w)).get i =
          if i = q.1 then some (refreshed env w g) else s.work.findings.get i := by
        intro i
        rw [Table.get_update]
        by_cases hi : i = q.1
        · rw [if_pos hi, if_pos hi, hi, hg]
          rfl
        · rw [if_neg hi, if_neg hi]
      -- a row is one of before, with its key and its kind
      have hback : ∀ i f, (s.work.findings.update q.1 (refreshed env w)).get i = some f →
          ∃ f₀, s.work.findings.get i = some f₀ ∧ f₀.key = f.key ∧ isSsh f₀ = isSsh f := by
        intro i f hf
        rw [hget] at hf
        split at hf
        · next hi =>
          obtain rfl := Option.some.inj hf
          exact ⟨g, hi ▸ hg, rfl, rfl⟩
        · exact ⟨f, hf, rfl, rfl⟩
      obtain ⟨hssh, hopened⟩ := ih hrestNodup hrest
        (fun i j f f' hf hf' hsame => by
          obtain ⟨f₀, hf₀, hk₀, -⟩ := hback i f hf
          obtain ⟨f₁, hf₁, hk₁, -⟩ := hback j f' hf'
          exact hunique i j f₀ f₁ hf₀ hf₁ (hk₀.trans (hsame.trans hk₁.symm)))
        (fun p hp => by
          obtain ⟨f, hf, hfkey, hfssh⟩ := hids p hp
          by_cases hi : p.1 = q.1
          · rw [hi, hg] at hf
            obtain rfl := Option.some.inj hf
            exact ⟨_, (hget _).trans (if_pos hi), hfkey, hfssh⟩
          · exact ⟨f, (hget _).trans ((if_neg hi).trans hf), hfkey, hfssh⟩)
        (fun i f hf hsshf hmem => by
          obtain ⟨f₀, hf₀, hk₀, hssh₀⟩ := hback i f hf
          obtain ⟨p, hp, hpkey⟩ := hloaded i f₀ hf₀ (hssh₀.trans hsshf) (List.mem_cons_of_mem _ (hk₀ ▸ hmem))
          exact ⟨p, hp, hpkey.trans hk₀⟩)
      refine ⟨hssh, hopened.unique, fun i f hf hsshf => ?_, fun i f hf hother => ?_, fun i f hnone hsome => ?_, fun p hp => ?_⟩
      · by_cases hi : i = q.1
        · rw [hi, hg] at hf
          obtain rfl := Option.some.inj hf
          have hrow := hopened.ssh i _ ((hget i).trans (if_pos hi)) hgssh
          have hmine : ((key, w) :: rest).lookup g.key = some w := by rw [hgkey, List.lookup_cons_self]
          rw [afterRefresh_some hmine, hrow]
          exact congrArg some (afterRefresh_none (lookup_of_notMem (hgkey ▸ hkey)))
        · have hne : f.key ≠ key := fun heq => hi (hunique i q.1 f g hf hg (heq.trans hgkey.symm))
          have hrow := hopened.ssh i f ((hget i).trans ((if_neg hi).trans hf)) hsshf
          unfold afterRefresh at hrow ⊢
          rw [lookup_cons_of_ne hne]
          exact hrow
      · have hi : i ≠ q.1 := by
          intro heq
          rw [heq, hg] at hf
          obtain rfl := Option.some.inj hf
          rw [hgssh] at hother
          cases hother
        exact hopened.others i f ((hget i).trans ((if_neg hi).trans hf)) hother
      · have hi : i ≠ q.1 := by
          intro heq
          rw [heq, hg] at hnone
          cases hnone
        obtain ⟨w', hmem, heq⟩ := hopened.new i f ((hget i).trans ((if_neg hi).trans hnone)) hsome
        exact ⟨w', List.mem_cons_of_mem _ hmem, heq⟩
      · rcases List.mem_cons.1 hp with rfl | hmem
        · have hrow := hopened.ssh q.1 _ ((hget _).trans (if_pos rfl)) hgssh
          exact ⟨q.1, _, hrow, (afterRefresh_key _ _).trans hgkey, by
            unfold afterRefresh
            split
            · exact hgssh
            · exact hgssh⟩
        · exact hopened.all p hmem

end Refresh

/-! ## What the rules want -/

/-- what a finding's detail is about: a row of the inventory, or a key -/
def NamesDetail (t : Table SshKey) (detail : List (String × Json)) : Cause → Prop
  | .place rule host path fp => rule ≠ .sharedKey ∧
      ∃ (id : ℕ) (k : SshKey), detail.lookup "ssh_key_id" = some (.num id) ∧ t.get id = some k ∧ AtPlace host path fp k
  | .shared fp => detail.lookup "fingerprint" = some (.str fp)

def Names (t : Table SshKey) (f : DiscoveryFinding) (c : Cause) : Prop := f.kind = .ssh c.rule ∧ NamesDetail t f.detail c

/-- a finding is about one cause only -/
theorem names_unique {t : Table SshKey} {f : DiscoveryFinding} {c c' : Cause} (h : Names t f c) (h' : Names t f c') : c = c' := by
  obtain ⟨hkind, hdetail⟩ := h
  obtain ⟨hkind', hdetail'⟩ := h'
  have hrule : c.rule = c'.rule := by
    rw [hkind] at hkind'
    exact FindingKind.ssh.inj hkind'
  cases c with
  | place rule host path fp =>
    obtain ⟨hne, id, k, hid, hk, hhost, hpath, hfp⟩ := hdetail
    cases c' with
    | place rule' host' path' fp' =>
      obtain ⟨-, id', k', hid', hk', hhost', hpath', hfp'⟩ := hdetail'
      rw [hid] at hid'
      obtain rfl : id = id' := by simpa using hid'
      obtain rfl := Option.some.inj (hk.symm.trans hk')
      have hrule : rule = rule' := hrule
      rw [hrule, ← hhost, ← hhost', ← hpath, ← hpath', ← hfp, ← hfp']
    | shared fp' => exact absurd hrule hne
  | shared fp =>
    cases c' with
    | place rule' host' path' fp' => exact absurd hrule.symm hdetail'.1
    | shared fp' =>
      have hfp : some (Json.str fp) = some (Json.str fp') := hdetail.symm.trans hdetail'
      simpa using hfp

section Wants

variable {cfg : Settings} {env : Env} {hist : History} {t : Table SshKey}

theorem flags_ne_shared {e : Entry} {firstSeen : ℤ} {rule : SshRule} (h : rule ∈ flags cfg env e firstSeen) :
    rule ≠ .sharedKey := by
  rintro rfl
  unfold flags at h
  rcases List.mem_append.1 h with hweak | hother
  · split at hweak
    · cases List.mem_singleton.1 hweak
    · cases hweak
  · split at hother
    · rcases List.mem_append.1 hother with hother | hdue
      · rcases List.mem_append.1 hother with hroot | horphan
        · split at hroot
          · cases List.mem_singleton.1 hroot
          · cases hroot
        · split at horphan
          · cases horphan
          · cases List.mem_singleton.1 horphan
      · split at hdue
        · cases List.mem_singleton.1 hdue
        · cases hdue
    · cases hother

/-- a line of a latest report was reported -/
theorem latest_reported {host : String} {e : Entry} (h : e ∈ latest hist host) :
    ∃ now, firstReported host e.path e.fingerprint hist = some now := by
  induction hist with
  | nil => cases h
  | cons r rest ih =>
    rw [latest_cons] at h
    unfold firstReported
    by_cases hr : r.host = host
    · rw [if_pos hr] at h
      obtain ⟨e', he'⟩ := lastLine_isSome h
      cases hrest : firstReported host e.path e.fingerprint rest with
      | some now => exact ⟨now, rfl⟩
      | none => exact ⟨r.now, by rw [if_pos ⟨hr, by rw [he']; rfl⟩]; rfl⟩
    · rw [if_neg hr] at h
      obtain ⟨now, hnow⟩ := ih h
      exact ⟨now, by rw [hnow]; rfl⟩

/-- the last lines of the latest reports are the rows that are present -/
theorem lastIn_iff (hinv : Inventory hist t) {host : String} {e : Entry} :
    LastIn hist host e ↔ ∃ i k, t.get i = some k ∧ k.status = .present ∧ k.host = host ∧ k.toEntry = e := by
  constructor
  · intro hlast
    obtain ⟨now, hnow⟩ := latest_reported hlast.mem
    obtain ⟨i, k, hk, hhost, hpath, hfp⟩ := hinv.reported _ _ _ _ hnow
    have hline : lastLine k.path k.fingerprint (latest hist k.host) = some e := by
      rw [hhost, hpath, hfp]
      exact hlast
    cases hstatus : k.status with
    | present =>
      have hrow := hinv.present i k hk hstatus
      rw [hline] at hrow
      exact ⟨i, k, hk, hstatus, hhost, (Option.some.inj hrow).symm⟩
    | removed =>
      have hnone := hinv.removed i k hk hstatus
      rw [hline] at hnone
      cases hnone
  · intro hrow
    obtain ⟨i, k, hk, hstatus, rfl, rfl⟩ := hrow
    exact hinv.present i k hk hstatus

theorem lineFlagged_iff (hinv : Inventory hist t) {i : ℕ} {k : SshKey} (hk : t.get i = some k) {rule : SshRule} :
    LineFlagged cfg env hist rule k.host k.toEntry ↔ rule ∈ flags cfg env k.toEntry k.firstSeen := by
  unfold LineFlagged
  rw [hinv.first i k hk]
  rfl

/-- the rows that are present, as the refresh loads them -/
abbrev presentRows (t : Table SshKey) : List (ℕ × SshKey) := t.all fun k => k.status = .present

theorem mem_presentRows {p : ℕ × SshKey} : p ∈ presentRows t ↔ t.get p.1 = some p.2 ∧ p.2.status = .present := by
  obtain ⟨i, k⟩ := p
  rw [Table.mem_all, decide_eq_true_eq]

theorem mem_placesOf {fp : String} {x : String × Option String} :
    x ∈ placesOf (presentRows t) fp ↔ ∃ i k, t.get i = some k ∧ k.status = .present ∧ k.kind = .authorized ∧
      k.fingerprint = fp ∧ (k.host, k.account) = x := by
  unfold placesOf
  rw [List.mem_dedup, List.mem_map]
  constructor
  · intro hmem
    obtain ⟨p, hp, hx⟩ := hmem
    obtain ⟨hp, hfilter⟩ := List.mem_filter.1 hp
    obtain ⟨hget, hstatus⟩ := mem_presentRows.1 hp
    simp only [Bool.and_eq_true, decide_eq_true_eq] at hfilter
    exact ⟨p.1, p.2, hget, hstatus, hfilter.1, hfilter.2, hx⟩
  · intro hrow
    obtain ⟨i, k, hget, hstatus, hkind, hfp, hx⟩ := hrow
    exact ⟨(i, k), List.mem_filter.2 ⟨mem_presentRows.2 ⟨hget, hstatus⟩, by simp [hkind, hfp]⟩, hx⟩

/-- a list without repetitions has two entries iff it has two different ones -/
theorem one_lt_length_iff {α : Type} {l : List α} (h : l.Nodup) : 1 < l.length ↔ ∃ a ∈ l, ∃ b ∈ l, a ≠ b := by
  constructor
  · intro hlen
    match l, h, hlen with
    | a :: b :: rest, hnodup, _ =>
      refine ⟨a, List.mem_cons_self, b, List.mem_cons_of_mem _ List.mem_cons_self, fun heq => ?_⟩
      exact (List.nodup_cons.1 hnodup).1 (heq ▸ List.mem_cons_self)
  · intro hdiff
    obtain ⟨a, ha, b, hb, hne⟩ := hdiff
    match l, ha, hb with
    | [x], ha, hb => exact absurd ((List.mem_singleton.1 ha).trans (List.mem_singleton.1 hb).symm) hne
    | _ :: _ :: _, _, _ => simp

/-- what the shared-key rule counts -/
theorem shared_iff (hinv : Inventory hist t) {fp : String} :
    FlaggedLast cfg env hist (.shared fp) ↔ 1 < (placesOf (presentRows t) fp).length := by
  have hnodup : (placesOf (presentRows t) fp).Nodup := List.nodup_dedup _
  rw [one_lt_length_iff hnodup]
  constructor
  · intro hflagged
    obtain ⟨h, e, h', e', hlast, hlast', hkind, hkind', hfp, hfp', hne⟩ := hflagged
    obtain ⟨i, k, hk, hstatus, rfl, rfl⟩ := (lastIn_iff hinv).1 hlast
    obtain ⟨j, k', hk', hstatus', rfl, rfl⟩ := (lastIn_iff hinv).1 hlast'
    exact ⟨_, mem_placesOf.2 ⟨i, k, hk, hstatus, hkind, hfp, rfl⟩, _, mem_placesOf.2 ⟨j, k', hk', hstatus', hkind', hfp', rfl⟩,
      hne⟩
  · intro hdiff
    obtain ⟨a, ha, b, hb, hne⟩ := hdiff
    obtain ⟨i, k, hk, hstatus, hkind, hfp, rfl⟩ := mem_placesOf.1 ha
    obtain ⟨j, k', hk', hstatus', hkind', hfp', rfl⟩ := mem_placesOf.1 hb
    exact ⟨k.host, k.toEntry, k'.host, k'.toEntry, (lastIn_iff hinv).2 ⟨i, k, hk, hstatus, rfl, rfl⟩,
      (lastIn_iff hinv).2 ⟨j, k', hk', hstatus', rfl, rfl⟩, hkind, hkind', hfp, hfp', hne⟩

/-- what is wanted is flagged for a last line, under its key -/
theorem wanted_sound (hinv : Inventory hist t) {key : String} {w : Wanted}
    (h : (key, w) ∈ (presentRows t).flatMap (wantedOf cfg env) ++ wantedShared (presentRows t)) :
    ∃ c, FlaggedLast cfg env hist c ∧ key = c.key ∧ w.rule = c.rule ∧ NamesDetail t w.detail c := by
  rcases List.mem_append.1 h with hplace | hshared
  · obtain ⟨p, hp, hmem⟩ := List.mem_flatMap.1 hplace
    obtain ⟨hget, hstatus⟩ := mem_presentRows.1 hp
    unfold wantedOf at hmem
    obtain ⟨rule, hrule, heq⟩ := List.mem_map.1 hmem
    obtain ⟨rfl, rfl⟩ := Prod.mk.inj heq
    refine ⟨.place rule p.2.host p.2.path p.2.fingerprint, ⟨p.2.toEntry, ?_, rfl, rfl, ?_⟩, rfl, rfl, flags_ne_shared hrule,
      p.1, p.2, ?_, hget, rfl, rfl, rfl⟩
    · exact (lastIn_iff hinv).2 ⟨p.1, p.2, hget, hstatus, rfl, rfl⟩
    · exact (lineFlagged_iff hinv hget).2 hrule
    · show (if rule = .rotationDue then _ else baseDetail p.1 p.2).lookup "ssh_key_id" = _
      split
      · rfl
      · rfl
  · unfold wantedShared at hshared
    obtain ⟨fp, hfp, heq⟩ := List.mem_map.1 hshared
    obtain ⟨rfl, rfl⟩ := Prod.mk.inj heq
    have hcount := (List.mem_filter.1 hfp).2
    exact ⟨.shared fp, (shared_iff hinv).2 (by simpa using hcount), rfl, rfl, rfl⟩

/-- and what is flagged for a last line is wanted -/
theorem wanted_complete (hinv : Inventory hist t) {c : Cause} (h : FlaggedLast cfg env hist c) :
    ∃ w, (c.key, w) ∈ (presentRows t).flatMap (wantedOf cfg env) ++ wantedShared (presentRows t) := by
  cases c with
  | place rule host path fp =>
    obtain ⟨e, hlast, rfl, rfl, hflagged⟩ := h
    obtain ⟨i, k, hk, hstatus, rfl, rfl⟩ := (lastIn_iff hinv).1 hlast
    have hrule := (lineFlagged_iff hinv hk).1 hflagged
    have hmem : ∃ w, ((Cause.place rule k.host k.path k.fingerprint).key, w) ∈ wantedOf cfg env (i, k) :=
      ⟨_, List.mem_map.2 ⟨rule, hrule, rfl⟩⟩
    obtain ⟨w, hw⟩ := hmem
    exact ⟨w, List.mem_append_left _ (List.mem_flatMap.2 ⟨(i, k), mem_presentRows.2 ⟨hk, hstatus⟩, hw⟩)⟩
  | shared fp =>
    have hcount := (shared_iff hinv).1 h
    obtain ⟨_, e, _, _, hlast, -, hkind, -, hfp, -⟩ := h
    obtain ⟨i, k, hk, hstatus, rfl, rfl⟩ := (lastIn_iff hinv).1 hlast
    refine ⟨_, List.mem_append_right _ (List.mem_map.2 ⟨fp, List.mem_filter.2 ⟨?_, by simpa using hcount⟩, rfl⟩)⟩
    unfold authorizedKeys
    rw [List.mem_dedup, List.mem_map]
    exact ⟨(i, k), List.mem_filter.2 ⟨mem_presentRows.2 ⟨hk, hstatus⟩, by simpa using hkind⟩, hfp⟩

end Wants

/-! ## The findings after a refresh -/

/-- the key of a finding gives its rule -/
theorem Cause.rule_eq {c c' : Cause} (h : c.key = c'.key) : c.rule = c'.rule := by
  have hshape : ∀ c : Cause, ∃ tail, c.key = findingKey c.rule tail := by
    intro c
    cases c with
    | place rule host path fp => exact ⟨_, rfl⟩
    | shared fp => exact ⟨_, rfl⟩
  have htake : ∀ (rule : SshRule) (tail : String), (findingKey rule tail).toList.take 9 = rule.text.toList.take 9 := by
    intro rule tail
    have hkey : (findingKey rule tail).toList = (rule.text ++ ":" ++ tail).toList.take 255 := by
      unfold findingKey cut
      rw [String.toList_ofList]
      rfl
    rw [hkey, List.take_take, String.toList_append, String.toList_append, List.append_assoc]
    cases rule <;> rfl
  obtain ⟨tail, htail⟩ := hshape c
  obtain ⟨tail', htail'⟩ := hshape c'
  have hsame : c.rule.text.toList.take 9 = c'.rule.text.toList.take 9 := by
    rw [← htake c.rule tail, ← htake c'.rule tail', ← htail, ← htail', h]
  revert hsame
  cases c.rule <;> cases c'.rule <;> decide

/-- SSH findings have keys of their own, which say what they are about -/
structure FindingsInv (t : Table SshKey) (fs : Table DiscoveryFinding) : Prop where
  unique : UniqueKeys fs
  named : ∀ i f, fs.get i = some f → isSsh f = true → ∃ c, Names t f c ∧ f.key = c.key

/-- the findings are what the latest reports are flagged for: every flagged cause has a finding that is about it and not
resolved, and every open finding is about a flagged cause -/
structure Exact (cfg : Settings) (env : Env) (hist : History) (t : Table SshKey) (fs : Table DiscoveryFinding) : Prop where
  named : ∀ c, Flagged cfg env hist c → ∃ i f, fs.get i = some f ∧ Names t f c ∧ f.status ≠ .resolved
  caused : ∀ i f, fs.get i = some f → isSsh f = true → f.status = .opened → ∃ c, Flagged cfg env hist c ∧ Names t f c

/-- every rule that flags a line flags the last line of its report with the same path and fingerprint, unless its finding is
acknowledged; and no two flagged causes have the same key -/
structure Faithful (cfg : Settings) (env : Env) (hist : History) (t : Table SshKey) (fs : Table DiscoveryFinding) : Prop where
  last : ∀ c, Flagged cfg env hist c → FlaggedLast cfg env hist c ∨
    ∃ i f, fs.get i = some f ∧ f.status = .acknowledged ∧ Names t f c
  apart : ∀ c c', Flagged cfg env hist c → Flagged cfg env hist c' → c.key = c'.key → c = c'

section Refreshed

variable {cfg : Settings} {env : Env} {hist : History} {s s' : Session Store}

/-- an SSH finding after the refresh: what is wanted under its key, or resolved if it was open -/
def settled (env : Env) (want : List (String × Wanted)) (f : DiscoveryFinding) : DiscoveryFinding :=
  match want.lookup f.key with
  | some w => refreshed env w f
  | none => if f.status = .opened then { f with status := .resolved } else f

/-- the findings after a refresh, from those before -/
structure Refreshed (env : Env) (want : List (String × Wanted)) (fs fs' : Table DiscoveryFinding) : Prop where
  unique : UniqueKeys fs'
  ssh : ∀ i f, fs.get i = some f → isSsh f = true → fs'.get i = some (settled env want f)
  others : ∀ i f, fs.get i = some f → isSsh f = false → fs'.get i = some f
  new : ∀ i f, fs.get i = none → fs'.get i = some f → ∃ w, (f.key, w) ∈ want ∧ f = newFinding env f.key w
  all : ∀ p ∈ want, ∃ i f, fs'.get i = some f ∧ f.key = p.1 ∧ isSsh f = true

theorem refresh_run {u : Unit} (h : refreshFindings cfg env s = (.ok u, s')) (hunique : UniqueKeys s.work.findings) :
    s'.work.sshKeys = s.work.sshKeys ∧
      Refreshed env (wanted cfg env (presentRows s.work.sshKeys)) s.work.findings s'.work.findings := by
  unfold refreshFindings at h
  rw [Tx.get_bind] at h
  obtain ⟨v, s₁, hopen, hresolve⟩ := Tx.bind_returns.1 h
  have hnodup : ((wanted cfg env (presentRows s.work.sshKeys)).map Prod.fst).Nodup :=
    (updateItems_spec (d := []) List.nodup_nil).1
  generalize wanted cfg env (presentRows s.work.sshKeys) = want at hopen hresolve hnodup ⊢
  have hids : ∀ p ∈ s.work.findings.all isSsh, ∃ f, s.work.findings.get p.1 = some f ∧ f.key = p.2.key ∧ isSsh f = true := by
    intro p hp
    obtain ⟨hget, hssh⟩ := Table.mem_all.1 hp
    exact ⟨p.2, hget, rfl, hssh⟩
  have hloaded : ∀ i f, s.work.findings.get i = some f → isSsh f = true → f.key ∈ want.map Prod.fst →
      ∃ p ∈ s.work.findings.all isSsh, p.2.key = f.key :=
    fun i f hf hssh _ => ⟨(i, f), Table.mem_all.2 ⟨hf, hssh⟩, rfl⟩
  obtain ⟨hkeys, hopened⟩ := openAll_run hnodup hopen hunique hids hloaded
  obtain ⟨s₂, hrun, hkeys', hfindings⟩ := resolveAll_run (want.map Prod.fst) (s.work.findings.all isSsh) s₁
  obtain ⟨-, rfl⟩ := Prod.mk.inj (hresolve.symm.trans hrun)
  have hgone : ∀ i, i ∈ goneIn (want.map Prod.fst) (s.work.findings.all isSsh) ↔
      ∃ f, s.work.findings.get i = some f ∧ isSsh f = true ∧ f.key ∉ want.map Prod.fst ∧ f.status = .opened := by
    intro i
    rw [mem_goneIn]
    constructor
    · intro hmem
      obtain ⟨f, hf, hkey, hstatus⟩ := hmem
      obtain ⟨hget, hssh⟩ := Table.mem_all.1 hf
      exact ⟨f, hget, hssh, hkey, hstatus⟩
    · intro hrow
      obtain ⟨f, hget, hssh, hkey, hstatus⟩ := hrow
      exact ⟨f, Table.mem_all.2 ⟨hget, hssh⟩, hkey, hstatus⟩
  have hstays : ∀ i f, s.work.findings.get i = some f → (isSsh f = true → f.key ∉ want.map Prod.fst → f.status ≠ .opened) →
      s'.work.findings.get i = s₁.work.findings.get i := by
    intro i f hf hnot
    rw [hfindings i, if_neg]
    intro hmem
    obtain ⟨f', hf', hssh, hkey, hstatus⟩ := (hgone i).1 hmem
    obtain rfl := Option.some.inj (hf.symm.trans hf')
    exact hnot hssh hkey hstatus
  have hadded : ∀ i, s.work.findings.get i = none → s'.work.findings.get i = s₁.work.findings.get i := by
    intro i hnone
    rw [hfindings i, if_neg]
    intro hmem
    obtain ⟨f', hf', -⟩ := (hgone i).1 hmem
    rw [hnone] at hf'
    cases hf'
  -- a resolved row keeps its key and its kind
  have hback : ∀ i f, s'.work.findings.get i = some f → ∃ f₁, s₁.work.findings.get i = some f₁ ∧ f₁.key = f.key := by
    intro i f hf
    rw [hfindings i] at hf
    split at hf
    · obtain ⟨f₁, hf₁, rfl⟩ := Option.map_eq_some_iff.1 hf
      exact ⟨f₁, hf₁, rfl⟩
    · exact ⟨f, hf, rfl⟩
  refine ⟨hkeys'.trans hkeys, fun i j f g hf hg hsame => ?_, fun i f hf hssh => ?_, fun i f hf hother => ?_,
    fun i f hnone hsome => ?_, fun p hp => ?_⟩
  · obtain ⟨f₁, hf₁, hkf⟩ := hback i f hf
    obtain ⟨g₁, hg₁, hkg⟩ := hback j g hg
    exact hopened.unique i j f₁ g₁ hf₁ hg₁ (hkf.trans (hsame.trans hkg.symm))
  · unfold settled
    cases hlookup : want.lookup f.key with
    | some w =>
      have hin : f.key ∈ want.map Prod.fst := List.mem_map.2 ⟨(f.key, w), mem_of_lookup hlookup, rfl⟩
      rw [hstays i f hf fun _ hnot => absurd hin hnot, hopened.ssh i f hf hssh, afterRefresh_some hlookup]
    | none =>
      have hnotin : f.key ∉ want.map Prod.fst := by
        intro hin
        obtain ⟨p, hp, hkey⟩ := List.mem_map.1 hin
        obtain ⟨w, hw⟩ := lookup_isSome_of_mem (show (p.1, p.2) ∈ want from hp)
        rw [hkey, hlookup] at hw
        cases hw
      have hrow := hopened.ssh i f hf hssh
      rw [afterRefresh_none hlookup] at hrow
      by_cases hopenf : f.status = .opened
      · rw [hfindings i, if_pos ((hgone i).2 ⟨f, hf, hssh, hnotin, hopenf⟩), hrow]
        dsimp only
        rw [if_pos hopenf]
        rfl
      · rw [hstays i f hf fun _ _ => hopenf, hrow]
        dsimp only
        rw [if_neg hopenf]
  · rw [hstays i f hf fun hssh => by rw [hother] at hssh; cases hssh]
    exact hopened.others i f hf hother
  · rw [hadded i hnone] at hsome
    exact hopened.new i f hnone hsome
  · obtain ⟨i, f, hf, hkey, hssh⟩ := hopened.all p hp
    have hrow := hfindings i
    rw [hf] at hrow
    split at hrow
    · exact ⟨i, _, hrow, hkey, hssh⟩
    · exact ⟨i, f, hrow, hkey, hssh⟩

/-! ### Against what is flagged -/

theorem settled_some {want : List (String × Wanted)} {f : DiscoveryFinding} {w : Wanted} (h : want.lookup f.key = some w) :
    settled env want f = refreshed env w f := by
  unfold settled
  rw [h]

theorem settled_none {want : List (String × Wanted)} {f : DiscoveryFinding} (h : want.lookup f.key = none) :
    settled env want f = if f.status = .opened then { f with status := .resolved } else f := by
  unfold settled
  rw [h]

theorem settled_key (want : List (String × Wanted)) (f : DiscoveryFinding) : (settled env want f).key = f.key := by
  unfold settled
  split
  · rfl
  · split
    · rfl
    · rfl

variable {t : Table SshKey} {fs fs' : Table DiscoveryFinding}

/-- a name depends on the kind and the detail only -/
theorem Names.congr {f g : DiscoveryFinding} {c : Cause} (h : Names t f c) (hkind : g.kind = f.kind) (hdetail : g.detail = f.detail) :
    Names t g c := by
  unfold Names at *
  rw [hkind, hdetail]
  exact h

theorem Names.isSsh {f : DiscoveryFinding} {c : Cause} (h : Names t f c) : isSsh f = true := by
  unfold SshKeys.isSsh
  rw [h.1]

/-- what is found under a wanted key is about what is flagged for a last line -/
theorem wanted_lookup (hinv : Inventory hist t) {key : String} {w : Wanted}
    (h : (wanted cfg env (presentRows t)).lookup key = some w) :
    ∃ c, FlaggedLast cfg env hist c ∧ key = c.key ∧ w.rule = c.rule ∧ NamesDetail t w.detail c := by
  rcases (updateItems_spec (d := []) List.nodup_nil).2.1 key w h with hmem | hnone
  · exact wanted_sound hinv hmem
  · cases hnone

theorem wanted_mem (hinv : Inventory hist t) {key : String} {w : Wanted} (h : (key, w) ∈ wanted cfg env (presentRows t)) :
    ∃ c, FlaggedLast cfg env hist c ∧ key = c.key ∧ w.rule = c.rule ∧ NamesDetail t w.detail c := by
  have hnodup : ((wanted cfg env (presentRows t)).map Prod.fst).Nodup := (updateItems_spec (d := []) List.nodup_nil).1
  obtain ⟨w', hw'⟩ := lookup_isSome_of_mem h
  have hpair : (key, w') = (key, w) := List.inj_on_of_nodup_map hnodup (mem_of_lookup hw') h rfl
  obtain rfl := (Prod.mk.inj hpair).2
  exact wanted_lookup hinv hw'

theorem wanted_has (hinv : Inventory hist t) {c : Cause} (h : FlaggedLast cfg env hist c) :
    ∃ w, (wanted cfg env (presentRows t)).lookup c.key = some w := by
  obtain ⟨w, hw⟩ := wanted_complete hinv h
  exact Option.isSome_iff_exists.1 ((updateItems_spec (d := []) List.nodup_nil).2.2 c.key (Or.inl ⟨w, hw⟩))

theorem newFinding_names {key : String} {w : Wanted} {c : Cause} (hrule : w.rule = c.rule) (hdetail : NamesDetail t w.detail c) :
    Names t (newFinding env key w) c := by
  refine ⟨?_, hdetail⟩
  rw [← hrule]
  rfl

/-- a refreshed finding is about what is wanted under its key -/
theorem refreshed_names (hinvf : FindingsInv t fs) {i : ℕ} {f : DiscoveryFinding} (hf : fs.get i = some f) (hssh : isSsh f = true)
    {w : Wanted} {c : Cause} (hkey : f.key = c.key) (hdetail : NamesDetail t w.detail c) : Names t (refreshed env w f) c := by
  obtain ⟨c₀, hnames, hkey₀⟩ := hinvf.named i f hf hssh
  have hrule : c₀.rule = c.rule := Cause.rule_eq (hkey₀.symm.trans hkey)
  refine ⟨?_, hdetail⟩
  rw [← hrule]
  exact hnames.1

theorem refreshed_inv (hinv : Inventory hist t) (hinvf : FindingsInv t fs)
    (h : Refreshed env (wanted cfg env (presentRows t)) fs fs') : FindingsInv t fs' := by
  refine ⟨h.unique, fun i f hf hssh => ?_⟩
  cases hbefore : fs.get i with
  | none =>
    obtain ⟨w, hmem, heq⟩ := h.new i f hbefore hf
    obtain ⟨c, -, hkey, hrule, hdetail⟩ := wanted_mem hinv hmem
    rw [heq]
    exact ⟨c, newFinding_names hrule hdetail, hkey⟩
  | some f₀ =>
    cases hssh₀ : isSsh f₀ with
    | false =>
      have hrow := h.others i f₀ hbefore hssh₀
      obtain rfl := Option.some.inj (hf.symm.trans hrow)
      rw [hssh₀] at hssh
      cases hssh
    | true =>
      have hrow := h.ssh i f₀ hbefore hssh₀
      obtain rfl := Option.some.inj (hf.symm.trans hrow)
      rw [settled_key]
      cases hlookup : (wanted cfg env (presentRows t)).lookup f₀.key with
      | some w =>
        obtain ⟨c, -, hkey, -, hdetail⟩ := wanted_lookup hinv hlookup
        rw [settled_some hlookup]
        exact ⟨c, refreshed_names hinvf hbefore hssh₀ hkey hdetail, hkey⟩
      | none =>
        obtain ⟨c, hnames, hkey⟩ := hinvf.named i f₀ hbefore hssh₀
        refine ⟨c, hnames.congr ?_ ?_, hkey⟩
        · rw [settled_none hlookup]
          split
          · rfl
          · rfl
        · rw [settled_none hlookup]
          split
          · rfl
          · rfl

/-- the findings are exact after a refresh iff the reports are faithful -/
theorem exact_iff (hinv : Inventory hist t) (hinvf : FindingsInv t fs)
    (h : Refreshed env (wanted cfg env (presentRows t)) fs fs') : Exact cfg env hist t fs' ↔ Faithful cfg env hist t fs := by
  have hinvf' := refreshed_inv hinv hinvf h
  constructor
  · intro hexact
    refine ⟨fun c hc => ?_, fun c c' hc hc' hkey => ?_⟩
    · obtain ⟨i, f, hf, hnames, hstatus⟩ := hexact.named c hc
      cases hbefore : fs.get i with
      | none =>
        obtain ⟨w, hmem, heq⟩ := h.new i f hbefore hf
        obtain ⟨c', hlast, -, hrule, hdetail⟩ := wanted_mem hinv hmem
        rw [heq] at hnames
        exact Or.inl (names_unique hnames (newFinding_names hrule hdetail) ▸ hlast)
      | some f₀ =>
        cases hssh₀ : isSsh f₀ with
        | false =>
          have hrow := h.others i f₀ hbefore hssh₀
          obtain rfl := Option.some.inj (hf.symm.trans hrow)
          rw [hnames.isSsh] at hssh₀
          cases hssh₀
        | true =>
          have hrow := h.ssh i f₀ hbefore hssh₀
          obtain rfl := Option.some.inj (hf.symm.trans hrow)
          cases hlookup : (wanted cfg env (presentRows t)).lookup f₀.key with
          | some w =>
            obtain ⟨c', hlast, hkey, -, hdetail⟩ := wanted_lookup hinv hlookup
            rw [settled_some hlookup] at hnames
            exact Or.inl (names_unique hnames (refreshed_names hinvf hbefore hssh₀ hkey hdetail) ▸ hlast)
          | none =>
            rw [settled_none hlookup] at hnames hstatus
            by_cases hopened : f₀.status = .opened
            · rw [if_pos hopened] at hstatus
              exact absurd rfl hstatus
            · rw [if_neg hopened] at hnames hstatus
              refine Or.inr ⟨i, f₀, hbefore, ?_, hnames⟩
              cases hst : f₀.status with
              | opened => exact absurd hst hopened
              | resolved => exact absurd hst hstatus
              | acknowledged => rfl
    · obtain ⟨i, f, hf, hnames, -⟩ := hexact.named c hc
      obtain ⟨j, g, hg, hnames', -⟩ := hexact.named c' hc'
      obtain ⟨c₁, hnames₁, hkey₁⟩ := hinvf'.named i f hf hnames.isSsh
      obtain ⟨c₂, hnames₂, hkey₂⟩ := hinvf'.named j g hg hnames'.isSsh
      obtain rfl := names_unique hnames₁ hnames
      obtain rfl := names_unique hnames₂ hnames'
      obtain rfl := hinvf'.unique i j f g hf hg (hkey₁.trans (hkey.trans hkey₂.symm))
      obtain rfl := Option.some.inj (hf.symm.trans hg)
      exact names_unique hnames hnames'
  · intro hfaithful
    refine ⟨fun c hc => ?_, fun i f hf hssh hopened => ?_⟩
    · rcases hfaithful.last c hc with hlast | ⟨i, f, hf, hstatus, hnames⟩
      · -- wanted, and under its key nothing else is
        obtain ⟨w', hw'⟩ := wanted_has hinv hlast
        obtain ⟨c', hlast', hkey', hrule', hdetail'⟩ := wanted_lookup hinv hw'
        obtain rfl := hfaithful.apart c c' hc hlast'.flagged hkey'
        obtain ⟨i, f, hf, hkey, hssh⟩ := h.all _ (mem_of_lookup hw')
        cases hbefore : fs.get i with
        | none =>
          obtain ⟨w'', hmem, heq⟩ := h.new i f hbefore hf
          obtain ⟨c'', hlast'', hkey'', hrule'', hdetail''⟩ := wanted_mem hinv hmem
          obtain rfl := hfaithful.apart c c'' hc hlast''.flagged (hkey.symm.trans hkey'')
          refine ⟨i, f, hf, ?_, ?_⟩
          · rw [heq]
            exact newFinding_names hrule'' hdetail''
          · rw [heq]
            exact nofun
        | some f₀ =>
          cases hssh₀ : isSsh f₀ with
          | false =>
            have hrow := h.others i f₀ hbefore hssh₀
            obtain rfl := Option.some.inj (hf.symm.trans hrow)
            rw [hssh₀] at hssh
            cases hssh
          | true =>
            have hrow := h.ssh i f₀ hbefore hssh₀
            obtain rfl := Option.some.inj (hf.symm.trans hrow)
            rw [settled_key] at hkey
            have hkey : f₀.key = c.key := hkey
            rw [← hkey] at hw'
            rw [settled_some hw'] at hf
            refine ⟨i, _, hf, refreshed_names hinvf hbefore hssh₀ hkey hdetail', ?_⟩
            unfold refreshed
            dsimp only
            split
            · exact nofun
            · next hnot => exact hnot
      · -- acknowledged before
        have hrow := h.ssh i f hf hnames.isSsh
        obtain ⟨c₁, hnames₁, hkey₁⟩ := hinvf.named i f hf hnames.isSsh
        obtain rfl := names_unique hnames₁ hnames
        cases hlookup : (wanted cfg env (presentRows t)).lookup f.key with
        | some w =>
          obtain ⟨c', hlast', hkey', -, hdetail'⟩ := wanted_lookup hinv hlookup
          obtain rfl := hfaithful.apart c₁ c' hc hlast'.flagged (hkey₁.symm.trans hkey')
          rw [settled_some hlookup] at hrow
          refine ⟨i, _, hrow, refreshed_names hinvf hf hnames.isSsh hkey₁ hdetail', ?_⟩
          unfold refreshed
          dsimp only
          rw [hstatus]
          decide
        | none =>
          rw [settled_none hlookup, if_neg (by rw [hstatus]; decide)] at hrow
          exact ⟨i, f, hrow, hnames, by rw [hstatus]; decide⟩
    · cases hbefore : fs.get i with
      | none =>
        obtain ⟨w, hmem, heq⟩ := h.new i f hbefore hf
        obtain ⟨c, hlast, -, hrule, hdetail⟩ := wanted_mem hinv hmem
        rw [heq]
        exact ⟨c, hlast.flagged, newFinding_names hrule hdetail⟩
      | some f₀ =>
        cases hssh₀ : isSsh f₀ with
        | false =>
          have hrow := h.others i f₀ hbefore hssh₀
          obtain rfl := Option.some.inj (hf.symm.trans hrow)
          rw [hssh₀] at hssh
          cases hssh
        | true =>
          have hrow := h.ssh i f₀ hbefore hssh₀
          obtain rfl := Option.some.inj (hf.symm.trans hrow)
          cases hlookup : (wanted cfg env (presentRows t)).lookup f₀.key with
          | some w =>
            obtain ⟨c, hlast, hkey, -, hdetail⟩ := wanted_lookup hinv hlookup
            rw [settled_some hlookup]
            exact ⟨c, hlast.flagged, refreshed_names hinvf hbefore hssh₀ hkey hdetail⟩
          | none =>
            rw [settled_none hlookup] at hopened
            split at hopened
            · cases hopened
            · next hnot => exact absurd hopened hnot

end Refreshed

/-! ## A report -/

section Reports

variable {cfg : Settings} {env : Env} {host : String} {hist : History} {s s' : Session Store}

/-- the keys of readable key files are no SSH finding's -/
theorem exposedKeys_ne {files : List Dict} {key : String} (h : key ∈ exposedKeys host files) (c : Cause) : key ≠ c.key := by
  obtain ⟨k, -, rfl⟩ := List.mem_map.1 h
  intro heq
  have hfirst : (readableKey (keyLocation host k)).toList.take 1 = ['k'] := by
    have hkey : (readableKey (keyLocation host k)).toList = ("key_readable:" ++ keyLocation host k).toList.take 255 := by
      unfold readableKey cut
      rw [String.toList_ofList]
      rfl
    rw [hkey, List.take_take, String.toList_append]
    rfl
  have hother : c.key.toList.take 1 = ['s'] := by
    have hrule : ∀ (rule : SshRule) (tail : String), (findingKey rule tail).toList.take 1 = ['s'] := by
      intro rule tail
      have hkey : (findingKey rule tail).toList = (rule.text ++ ":" ++ tail).toList.take 255 := by
        unfold findingKey cut
        rw [String.toList_ofList]
        rfl
      rw [hkey, List.take_take, String.toList_append, String.toList_append, List.append_assoc]
      cases rule <;> rfl
    cases c with
    | place rule host path fp => exact hrule _ _
    | shared fp => exact hrule _ _
  rw [heq, hother] at hfirst
  cases hfirst

/-- one key file adds no SSH finding, and no key twice -/
theorem exposeKey_keys {k : Dict} {u : Unit} (h : exposeKey env host k s = (.ok u, s')) (hunique : UniqueKeys s.work.findings) :
    UniqueKeys s'.work.findings ∧
      ∀ i f, s.work.findings.get i = none → s'.work.findings.get i = some f → isSsh f = false := by
  unfold exposeKey at h
  rw [Tx.get_bind] at h
  obtain ⟨found, s₁, hlift, hwrite⟩ := Tx.bind_returns.1 h
  obtain ⟨hfound, rfl⟩ := Prod.mk.inj hlift
  cases found with
  | none =>
    obtain ⟨hfresh, rfl⟩ := addFinding_returns hwrite
    refine ⟨fun i j f g hf hg hsame => ?_, fun i f hnone hsome => ?_⟩
    · have hf : (s.work.findings.insert _).get i = some f := hf
      have hg : (s.work.findings.insert _).get j = some g := hg
      rw [Table.get_insert] at hf hg
      split at hf
      · next hi =>
        split at hg
        · next hj => rw [hi, hj]
        · obtain rfl := Option.some.inj hf
          exact absurd hsame.symm (hfresh j g hg)
      · split at hg
        · obtain rfl := Option.some.inj hg
          exact absurd hsame (hfresh i f hf)
        · exact hunique i j f g hf hg hsame
    · have hsome : (s.work.findings.insert _).get i = some f := hsome
      rw [Table.get_insert, hnone] at hsome
      split at hsome
      · obtain rfl := Option.some.inj hsome
        rfl
      · cases hsome
  | some p =>
    obtain ⟨id, g⟩ := p
    obtain ⟨-, rfl⟩ := Prod.mk.inj hwrite
    have hback : ∀ i f, (s.work.findings.update id (seenFinding env)).get i = some f →
        ∃ f₀, s.work.findings.get i = some f₀ ∧ f₀.key = f.key := by
      intro i f hf
      rw [Table.get_update] at hf
      split at hf
      · obtain ⟨f₀, hf₀, rfl⟩ := Option.map_eq_some_iff.1 hf
        exact ⟨f₀, hf₀, rfl⟩
      · exact ⟨f, hf, rfl⟩
    refine ⟨fun i j f g hf hg hsame => ?_, fun i f hnone hsome => ?_⟩
    · obtain ⟨f₀, hf₀, hkf⟩ := hback i f hf
      obtain ⟨g₀, hg₀, hkg⟩ := hback j g hg
      exact hunique i j f₀ g₀ hf₀ hg₀ (hkf.trans (hsame.trans hkg.symm))
    · obtain ⟨f₀, hf₀, -⟩ := hback i f hsome
      rw [hnone] at hf₀
      cases hf₀

theorem seenFinding_ssh (f : DiscoveryFinding) : isSsh (seenFinding env f) = isSsh f := rfl

theorem exposeAll_keys {files : List Dict} {u : Unit} (h : exposeAll env host files s = (.ok u, s'))
    (hunique : UniqueKeys s.work.findings) :
    UniqueKeys s'.work.findings ∧
      ∀ i f, s.work.findings.get i = none → s'.work.findings.get i = some f → isSsh f = false := by
  induction files generalizing s with
  | nil =>
    obtain ⟨-, rfl⟩ := Prod.mk.inj h
    refine ⟨hunique, fun i f hnone hsome => ?_⟩
    rw [hnone] at hsome
    cases hsome
  | cons k rest ih =>
    unfold exposeAll at h
    by_cases hreadable : worldReadable k = true
    · rw [if_pos hreadable] at h
      obtain ⟨v, s₁, hone, hrest⟩ := Tx.bind_returns.1 h
      obtain ⟨hunique₁, hnew⟩ := exposeKey_keys hone hunique
      obtain ⟨hunique', hnew'⟩ := ih hrest hunique₁
      refine ⟨hunique', fun i f hnone hsome => ?_⟩
      cases hmid : s₁.work.findings.get i with
      | none => exact hnew' i f hmid hsome
      | some g =>
        have hother := hnew i g hnone hmid
        obtain ⟨-, hold, -⟩ := exposeAll_run hrest
        have hrow := hold i g hmid
        rw [hsome] at hrow
        obtain rfl := Option.some.inj hrow
        split
        · rw [seenFinding_ssh]
          exact hother
        · exact hother
    · rw [if_neg hreadable] at h
      exact ih h hunique

/-- the readable keys of a report change no SSH finding -/
theorem ingestAgentReport_inv {actor : Actor} {items keyFiles : List Dict} {out : Dict} {t : Table SshKey}
    (h : ingestAgentReport cfg env actor host items keyFiles s = (.ok out, s')) (hinv : FindingsInv t s.work.findings) :
    FindingsInv t s'.work.findings ∧
      ∀ i f, isSsh f = true → (s.work.findings.get i = some f ↔ s'.work.findings.get i = some f) := by
  obtain ⟨-, hold, -⟩ := ingestAgentReport_run h
  unfold ingestAgentReport at h
  obtain ⟨new, s₁, hcerts, h₁⟩ := Tx.bind_returns.1 h
  obtain ⟨u, s₂, hexpose, h₂⟩ := Tx.bind_returns.1 h₁
  rw [Tx.get_bind] at h₂
  obtain ⟨v, s₃, hresolve, h₃⟩ := Tx.bind_returns.1 h₂
  obtain ⟨w, s₄, hrecord, h₄⟩ := Tx.bind_returns.1 h₃
  obtain ⟨-, rfl⟩ := Prod.mk.inj h₄
  obtain ⟨s₅, hrun, -, hresolved⟩ := resolveAll_run (exposedKeys host keyFiles)
    (s₂.work.findings.all (ofHost cfg.dialect host)) s₂
  obtain ⟨-, rfl⟩ := Prod.mk.inj (hresolve.symm.trans hrun)
  obtain ⟨hrecordFindings, -⟩ := onDb_returns hrecord
  have hunique₁ : UniqueKeys s₁.work.findings := by
    rw [(ingestCerts_returns hcerts).1]
    exact hinv.unique
  obtain ⟨hunique₂, hnew⟩ := exposeAll_keys hexpose hunique₁
  rw [(ingestCerts_returns hcerts).1] at hnew
  -- a resolved row keeps its key and its kind
  have hback : ∀ i f, s₄.work.findings.get i = some f → ∃ f₂, s₂.work.findings.get i = some f₂ ∧ f₂.key = f.key ∧
      isSsh f₂ = isSsh f := by
    intro i f hf
    rw [hrecordFindings, hresolved i] at hf
    split at hf
    · obtain ⟨f₂, hf₂, rfl⟩ := Option.map_eq_some_iff.1 hf
      exact ⟨f₂, hf₂, rfl, rfl⟩
    · exact ⟨f, hf, rfl, rfl⟩
  have hssh : ∀ i f, isSsh f = true → s.work.findings.get i = some f → s₄.work.findings.get i = some f := by
    intro i f hf hget
    obtain ⟨c, hnames, hkey⟩ := hinv.named i f hget hf
    rw [hold i f hget, reported_eq_self.2 ⟨fun hmem => absurd hkey (exposedKeys_ne hmem c), fun _ _ => ?_⟩]
    unfold ofHost
    rw [hnames.1]
    rfl
  have hsshBack : ∀ i f, isSsh f = true → s₄.work.findings.get i = some f → s.work.findings.get i = some f := by
    intro i f hf hget
    cases hbefore : s.work.findings.get i with
    | none =>
      obtain ⟨f₂, hf₂, -, hkind⟩ := hback i f hget
      rw [← hkind, hnew i f₂ hbefore hf₂] at hf
      cases hf
    | some g =>
      have hrow := hold i g hbefore
      rw [hget] at hrow
      have heq := Option.some.inj hrow
      have hg : isSsh g = true := by
        rw [heq] at hf
        unfold Discovery.reported at hf
        split at hf
        · exact hf
        · split at hf
          · exact hf
          · exact hf
      have hsame := hssh i g hg hbefore
      rw [hget] at hsame
      exact hsame.symm
  refine ⟨⟨fun i j f g hf hg hsame => ?_, fun i f hf hsshf => ?_⟩, fun i f hf => ⟨hssh i f hf, hsshBack i f hf⟩⟩
  · obtain ⟨f₂, hf₂, hkf, -⟩ := hback i f hf
    obtain ⟨g₂, hg₂, hkg, -⟩ := hback j g hg
    exact hunique₂ i j f₂ g₂ hf₂ hg₂ (hkf.trans (hsame.trans hkg.symm))
  · exact hinv.named i f (hsshBack i f hsshf hf) hsshf

end Reports

/-! ## Runs -/

structure SshSt where
  d : Store
  hist : History

/-- the SSH part of a report, if it is accepted -/
def sshReport (d : Store) : Discovery.Op → Option SshReport
  | .report cfg env actor r =>
    match (Tx.transact (agentReport cfg env actor r) d).1, r.sshKeys.map linesOf with
    | .ok _, some (.ok es) => some ⟨env.now, r.host, es⟩
    | _, _ => none
  | .acknowledge .. => none

def sshStep (s : SshSt) (o : Discovery.Op) : SshSt := ⟨Discovery.step s.d o, (sshReport s.d o).toList ++ s.hist⟩

/-- after a report with SSH keys the findings are exact -/
def ExactAfter (s : SshSt) : Discovery.Op → Prop
  | .report cfg env actor r => ∀ rep, sshReport s.d (.report cfg env actor r) = some rep →
      Exact cfg env (rep :: s.hist) (sshStep s (.report cfg env actor r)).d.sshKeys
        (sshStep s (.report cfg env actor r)).d.findings
  | .acknowledge .. => True

/-- a report with SSH keys is faithful, with the latest reports of the other hosts -/
def FaithfulReport (s : SshSt) : Discovery.Op → Prop
  | .report cfg env actor r => ∀ rep, sshReport s.d (.report cfg env actor r) = some rep →
      Faithful cfg env (rep :: s.hist) s.d.sshKeys s.d.findings
  | .acknowledge .. => True

structure SshInv (s : SshSt) : Prop where
  inventory : Inventory s.hist s.d.sshKeys
  findings : FindingsInv s.d.sshKeys s.d.findings

/-- before the first report -/
def sshStart (db : Db) : SshSt := ⟨⟨db, .empty, .empty⟩, []⟩

section Runs

variable {cfg : Settings} {env : Env} {actor : Actor} {r : Report} {s : SshSt}

theorem sshInv_start (db : Db) : SshInv (sshStart db) := by
  have hempty : ∀ {α : Type} (i : ℕ) (a : α), (Table.empty : Table α).get i ≠ some a := by
    intro α i a ha
    rw [Table.get_empty] at ha
    cases ha
  refine ⟨⟨fun i j a b ha => ?_, fun i k hk => ?_, fun host path fp now hnow => ?_, fun i k hk => ?_, fun i k hk => ?_⟩,
    fun i j f g hf => ?_, fun i f hf => ?_⟩
  · exact absurd ha (hempty i a)
  · exact absurd hk (hempty i k)
  · cases hnow
  · exact absurd hk (hempty i k)
  · exact absurd hk (hempty i k)
  · exact absurd hf (hempty i f)
  · exact absurd hf (hempty i f)

/-- names survive where the rows keep their places -/
theorem Names.later {t t' : Table SshKey} (h : ∀ i k, t.get i = some k → ∃ k', t'.get i = some k' ∧
    AtPlace k.host k.path k.fingerprint k') {f : DiscoveryFinding} {c : Cause} (hnames : Names t f c) : Names t' f c := by
  refine ⟨hnames.1, ?_⟩
  cases c with
  | place rule host path fp =>
    obtain ⟨hne, id, k, hid, hk, hplace⟩ := hnames.2
    obtain ⟨k', hk', hsame⟩ := h id k hk
    exact ⟨hne, id, k', hid, hk', hsame.1.trans hplace.1, hsame.2.1.trans hplace.2.1, hsame.2.2.trans hplace.2.2⟩
  | shared fp => exact hnames.2

/-- a name in the later inventory is one in the earlier -/
theorem Names.earlier {t t' : Table SshKey} (h : ∀ i k, t.get i = some k → ∃ k', t'.get i = some k' ∧
    AtPlace k.host k.path k.fingerprint k') {fs : Table DiscoveryFinding} (hinv : FindingsInv t fs) {i : ℕ}
    {f : DiscoveryFinding} (hf : fs.get i = some f) {c : Cause} (hnames : Names t' f c) : Names t f c := by
  obtain ⟨c₀, hnames₀, -⟩ := hinv.named i f hf hnames.isSsh
  obtain rfl := names_unique (hnames₀.later h) hnames
  exact hnames₀

/-- a report with SSH keys that is accepted -/
theorem report_run (hinv : SshInv s) {keys : List Dict} (hkeys : r.sshKeys = some keys) {out : Dict} {s' : Session Store}
    (h : agentReport cfg env actor r ⟨s.d, s.d⟩ = (.ok out, s')) :
    ∃ es, linesOf keys = .ok es ∧ Inventory (⟨env.now, r.host, es⟩ :: s.hist) s'.work.sshKeys ∧
      FindingsInv s'.work.sshKeys s'.work.findings ∧
      (Exact cfg env (⟨env.now, r.host, es⟩ :: s.hist) s'.work.sshKeys s'.work.findings ↔
        Faithful cfg env (⟨env.now, r.host, es⟩ :: s.hist) s.d.sshKeys s.d.findings) := by
  unfold agentReport at h
  obtain ⟨u, s₀, hrole, h₁⟩ := Tx.bind_returns.1 h
  obtain ⟨-, rfl⟩ := Prod.mk.inj hrole
  obtain ⟨out₁, s₁, hreadable, h₂⟩ := Tx.bind_returns.1 h₁
  obtain ⟨hssh₁, -, -⟩ := ingestAgentReport_run hreadable
  obtain ⟨hinv₁, hsame₁⟩ := ingestAgentReport_inv hreadable hinv.findings
  rw [hkeys] at h₂
  obtain ⟨res, s₂, hingest, h₃⟩ := Tx.bind_returns.1 h₂
  obtain ⟨v, s₃, hrecord, h₄⟩ := Tx.bind_returns.1 h₃
  obtain ⟨-, rfl⟩ := Prod.mk.inj h₄
  obtain ⟨hrecordFindings, hrecordKeys⟩ := onDb_returns hrecord
  unfold SshKeys.ingest at hingest
  obtain ⟨rows, s₄, hrows, h₅⟩ := Tx.bind_returns.1 hingest
  rw [Tx.get_bind] at h₅
  obtain ⟨n, s₅, hremove, h₆⟩ := Tx.bind_returns.1 h₅
  obtain ⟨w, s₆, hrefresh, h₇⟩ := Tx.bind_returns.1 h₆
  obtain ⟨-, rfl⟩ := Prod.mk.inj h₇
  have hunique : PlacesUnique s₁.work.sshKeys := by
    rw [hssh₁]
    exact hinv.inventory.unique
  obtain ⟨es, hes, hingested⟩ := ingestKeys_run hrows hunique
  obtain ⟨n', s₅', hrun, hremoveFindings, hremoved⟩ := removeAll_run (rows.map Prod.fst)
    (s₄.work.sshKeys.all fun k => k.host = r.host && k.status = .present) s₄
  obtain ⟨-, rfl⟩ := Prod.mk.inj (hremove.symm.trans hrun)
  rw [hssh₁] at hingested
  have hinventory : Inventory (⟨env.now, r.host, es⟩ :: s.hist) s₅.work.sshKeys :=
    ingested_inventory hinv.inventory hingested hremoved
  have hlater : ∀ i k, s.d.sshKeys.get i = some k → ∃ k', s₅.work.sshKeys.get i = some k' ∧
      AtPlace k.host k.path k.fingerprint k' := by
    intro i k hk
    obtain ⟨k', hk', hplace, -⟩ := hingested.old i k hk
    rw [hremoved i, hk']
    split
    · exact ⟨_, rfl, hplace⟩
    · exact ⟨k', rfl, hplace⟩
  have hfindings₅ : s₅.work.findings = s₁.work.findings := hremoveFindings.trans (ingestKeys_keeps hrows).1
  have hinv₅ : FindingsInv s₅.work.sshKeys s₅.work.findings := by
    rw [hfindings₅]
    refine ⟨hinv₁.unique, fun i f hf hssh => ?_⟩
    obtain ⟨c, hnames, hkey⟩ := hinv₁.named i f hf hssh
    exact ⟨c, hnames.later hlater, hkey⟩
  obtain ⟨hkeys₆, hrefreshed⟩ := refresh_run hrefresh hinv₅.unique
  have hexact := exact_iff hinventory hinv₅ hrefreshed
  have hfinal := refreshed_inv hinventory hinv₅ hrefreshed
  rw [hrecordFindings, hrecordKeys, hkeys₆]
  refine ⟨es, hes, hinventory, hfinal, hexact.trans ?_⟩
  -- the SSH findings and what they name are as before the report
  rw [hfindings₅]
  constructor
  · intro hfaithful
    refine ⟨fun c hc => (hfaithful.last c hc).imp_right fun hacked => ?_, hfaithful.apart⟩
    obtain ⟨i, f, hf, hstatus, hnames⟩ := hacked
    have hbefore := (hsame₁ i f hnames.isSsh).2 hf
    exact ⟨i, f, hbefore, hstatus, hnames.earlier hlater hinv.findings hbefore⟩
  · intro hfaithful
    refine ⟨fun c hc => (hfaithful.last c hc).imp_right fun hacked => ?_, hfaithful.apart⟩
    obtain ⟨i, f, hf, hstatus, hnames⟩ := hacked
    exact ⟨i, f, (hsame₁ i f hnames.isSsh).1 hf, hstatus, hnames.later hlater⟩

/-- a report without SSH keys leaves the SSH findings and the inventory -/
theorem report_run_none (hinv : SshInv s) (hkeys : r.sshKeys = none) {out : Dict} {s' : Session Store}
    (h : agentReport cfg env actor r ⟨s.d, s.d⟩ = (.ok out, s')) : SshInv ⟨s'.work, s.hist⟩ := by
  unfold agentReport at h
  obtain ⟨u, s₀, hrole, h₁⟩ := Tx.bind_returns.1 h
  obtain ⟨-, rfl⟩ := Prod.mk.inj hrole
  obtain ⟨out₁, s₁, hreadable, h₂⟩ := Tx.bind_returns.1 h₁
  obtain ⟨hssh₁, -, -⟩ := ingestAgentReport_run hreadable
  obtain ⟨hinv₁, -⟩ := ingestAgentReport_inv hreadable hinv.findings
  rw [hkeys] at h₂
  obtain ⟨-, rfl⟩ := Prod.mk.inj h₂
  have hssh : s₁.work.sshKeys = s.d.sshKeys := hssh₁
  exact ⟨by rw [hssh]; exact hinv.inventory, by rw [hssh]; exact hinv₁⟩

/-- the row of an acknowledgement -/
def acknowledged (actor : Actor) (comment : String) (f : DiscoveryFinding) : DiscoveryFinding :=
  { f with
    status := .acknowledged
    acknowledgedBy := some actor.name
    detail := setItem f.detail "acknowledged_comment" (.str comment) }

/-- what an acknowledgement leaves -/
theorem acknowledge_run (d : Store) (id : ℕ) (comment : String) :
    (Tx.transact (Discovery.acknowledge env actor id comment) d).2 = d ∨
      (Tx.transact (Discovery.acknowledge env actor id comment) d).2.sshKeys = d.sshKeys ∧
        (Tx.transact (Discovery.acknowledge env actor id comment) d).2.findings =
          d.findings.update id (acknowledged actor comment) ∧
        (Tx.transact (Discovery.acknowledge env actor id comment) d).2.db.certificates = d.db.certificates := by
  cases hrun : Discovery.acknowledge env actor id comment ⟨d, d⟩ with
  | mk out s' =>
    cases out with
    | error e =>
      left
      exact (quiet_acknowledge actor id comment).transact_of_raises hrun
    | ok v =>
      right
      rw [Tx.transact_snd_of_run hrun]
      unfold Discovery.acknowledge at hrun
      obtain ⟨u, s₀, hrole, h₁⟩ := Tx.bind_returns.1 hrun
      obtain ⟨-, rfl⟩ := Prod.mk.inj hrole
      rw [Tx.get_bind] at h₁
      cases hget : d.findings.get id with
      | none =>
        rw [hget] at h₁
        cases h₁
      | some f =>
        rw [hget] at h₁
        obtain ⟨w, s₁, hset, h₂⟩ := Tx.bind_returns.1 h₁
        obtain ⟨-, rfl⟩ := Prod.mk.inj hset
        obtain ⟨hfindings, hkeys⟩ := onDb_returns h₂
        obtain ⟨-, rfl⟩ := Prod.mk.inj h₂
        exact ⟨hkeys, hfindings, rfl⟩

/-- an acknowledgement changes no finding's key, kind or subject -/
theorem acknowledge_inv (hinv : SshInv s) (id : ℕ) (comment : String) :
    SshInv ⟨(Tx.transact (Discovery.acknowledge env actor id comment) s.d).2, s.hist⟩ := by
  rcases @acknowledge_run env actor s.d id comment with hsame | ⟨hkeys, hfindings, -⟩
  · rw [hsame]
    exact hinv
  refine ⟨by rw [hkeys]; exact hinv.inventory, ?_⟩
  rw [hkeys, hfindings]
  have hback : ∀ i g, (s.d.findings.update id (acknowledged actor comment)).get i = some g →
      ∃ g₀, s.d.findings.get i = some g₀ ∧ g₀.key = g.key ∧ g₀.kind = g.kind ∧
        ∀ k, k ≠ "acknowledged_comment" → g.detail.lookup k = g₀.detail.lookup k := by
    intro i g hg
    rw [Table.get_update] at hg
    split at hg
    · obtain ⟨g₀, hg₀, rfl⟩ := Option.map_eq_some_iff.1 hg
      exact ⟨g₀, hg₀, rfl, rfl, fun k hk => by unfold acknowledged; rw [lookup_setItem, if_neg hk]⟩
    · exact ⟨g, hg, rfl, rfl, fun _ _ => rfl⟩
  refine ⟨fun i j f g hf hg hsame => ?_, fun i g hg hssh => ?_⟩
  · obtain ⟨f₀, hf₀, hkf, -⟩ := hback i f hf
    obtain ⟨g₀, hg₀, hkg, -⟩ := hback j g hg
    exact hinv.findings.unique i j f₀ g₀ hf₀ hg₀ (hkf.trans (hsame.trans hkg.symm))
  · obtain ⟨g₀, hg₀, hkg, hkind, hdetail⟩ := hback i g hg
    have hssh₀ : isSsh g₀ = true := by
      unfold isSsh at hssh ⊢
      rw [hkind]
      exact hssh
    obtain ⟨c, hnames, hkey⟩ := hinv.findings.named i g₀ hg₀ hssh₀
    refine ⟨c, ⟨hkind.symm.trans hnames.1, ?_⟩, hkg.symm.trans hkey⟩
    cases c with
    | place rule host path fp =>
      obtain ⟨hne, id', k, hid, hk, hplace⟩ := hnames.2
      exact ⟨hne, id', k, (hdetail _ (by decide)).trans hid, hk, hplace⟩
    | shared fp => exact (hdetail _ (by decide)).trans hnames.2

/-- a report that raises leaves the store and the history -/
theorem report_raises {e : Err} {s' : Session Store} (h : agentReport cfg env actor r ⟨s.d, s.d⟩ = (.error e, s')) :
    sshStep s (.report cfg env actor r) = s ∧ sshReport s.d (.report cfg env actor r) = none := by
  have hreport : sshReport s.d (.report cfg env actor r) = none := by
    unfold sshReport
    simp only [Tx.transact_of_raises h]
  refine ⟨?_, hreport⟩
  unfold sshStep
  rw [hreport]
  show (⟨(Tx.transact (agentReport cfg env actor r) s.d).2, s.hist⟩ : SshSt) = s
  rw [(quiet_agentReport actor r).transact_of_raises h]

/-- a report that is accepted adds its lines to the history -/
theorem sshStep_accepted {keys : List Dict} (hkeys : r.sshKeys = some keys) {out : Dict} {s' : Session Store}
    (h : agentReport cfg env actor r ⟨s.d, s.d⟩ = (.ok out, s')) {es : List Entry} (hes : linesOf keys = .ok es) :
    sshReport s.d (.report cfg env actor r) = some ⟨env.now, r.host, es⟩ ∧
      sshStep s (.report cfg env actor r) = ⟨s'.work, ⟨env.now, r.host, es⟩ :: s.hist⟩ := by
  have hreport : sshReport s.d (.report cfg env actor r) = some ⟨env.now, r.host, es⟩ := by
    unfold sshReport
    simp only [Tx.transact_of_returns h, hkeys, Option.map_some, hes]
  refine ⟨hreport, ?_⟩
  unfold sshStep
  rw [hreport]
  show (⟨(Tx.transact (agentReport cfg env actor r) s.d).2, _⟩ : SshSt) = _
  rw [Tx.transact_snd_of_run h]
  rfl

/-- a report without SSH keys adds nothing -/
theorem sshStep_silent (hkeys : r.sshKeys = none) {out : Dict} {s' : Session Store}
    (h : agentReport cfg env actor r ⟨s.d, s.d⟩ = (.ok out, s')) :
    sshReport s.d (.report cfg env actor r) = none ∧ sshStep s (.report cfg env actor r) = ⟨s'.work, s.hist⟩ := by
  have hreport : sshReport s.d (.report cfg env actor r) = none := by
    unfold sshReport
    simp only [Tx.transact_of_returns h, hkeys, Option.map_none]
  refine ⟨hreport, ?_⟩
  unfold sshStep
  rw [hreport]
  show (⟨(Tx.transact (agentReport cfg env actor r) s.d).2, _⟩ : SshSt) = _
  rw [Tx.transact_snd_of_run h]
  rfl

/-- **A step keeps what the inventory and the findings stand for.** -/
theorem sshInv_step (hinv : SshInv s) (o : Discovery.Op) : SshInv (sshStep s o) := by
  cases o with
  | acknowledge env actor id comment => exact acknowledge_inv hinv id comment
  | report cfg env actor r =>
    cases hrun : agentReport cfg env actor r ⟨s.d, s.d⟩ with
    | mk out s' =>
      cases out with
      | error e =>
        rw [(report_raises hrun).1]
        exact hinv
      | ok out =>
        cases hkeys : r.sshKeys with
        | none =>
          rw [(sshStep_silent hkeys hrun).2]
          exact report_run_none hinv hkeys hrun
        | some keys =>
          obtain ⟨es, hes, hinventory, hfindings, -⟩ := report_run hinv hkeys hrun
          rw [(sshStep_accepted hkeys hrun hes).2]
          exact ⟨hinventory, hfindings⟩

/-- **A report leaves exact findings exactly where it is faithful.** -/
theorem exactAfter_iff (hinv : SshInv s) (o : Discovery.Op) : ExactAfter s o ↔ FaithfulReport s o := by
  cases o with
  | acknowledge env actor id comment => exact Iff.rfl
  | report cfg env actor r =>
    cases hrun : agentReport cfg env actor r ⟨s.d, s.d⟩ with
    | mk out s' =>
      cases out with
      | error e =>
        have hnone := (report_raises hrun).2
        simp [ExactAfter, FaithfulReport, hnone]
      | ok out =>
        cases hkeys : r.sshKeys with
        | none =>
          have hnone := (sshStep_silent hkeys hrun).1
          simp [ExactAfter, FaithfulReport, hnone]
        | some keys =>
          obtain ⟨es, hes, -, -, hexact⟩ := report_run hinv hkeys hrun
          obtain ⟨hreport, hstep⟩ := sshStep_accepted hkeys hrun hes
          simp only [ExactAfter, FaithfulReport, hreport, hstep]
          constructor
          · intro h rep hrep
            obtain rfl := Option.some.inj hrep
            exact hexact.1 (h _ rfl)
          · intro h rep hrep
            obtain rfl := Option.some.inj hrep
            exact hexact.2 (h _ rfl)

/-- **After every report of a run the open SSH findings are what the rules flag on the hosts' latest reports, exactly where
every report is faithful**: each rule that flags a line flags the last line with its path and fingerprint, or its finding
is acknowledged, and no two flagged places have a finding's key in common. -/
theorem findings_exact_iff (db : Db) (ops : List Discovery.Op) :
    Along sshStep ExactAfter (sshStart db) ops ↔ Along sshStep FaithfulReport (sshStart db) ops :=
  along_congr_inv (I := SshInv) (fun _ o hinv _ => sshInv_step hinv o) (fun _ o hinv => exactAfter_iff hinv o) (sshInv_start db)

end Runs

/-! ### A restricted line after an unrestricted one -/

section Examples

def rootLine (options : List (String × Json)) : Dict :=
  [("path", .str "/root/.ssh/authorized_keys"), ("fingerprint", .str "SHA256:a"), ("key_type", .str "ssh-ed25519"),
    ("kind", .str "authorized"), ("user", .str "root"), ("options", .obj options)]

/-- one file with the key on two lines, the second for one address only -/
def twoLines : Discovery.Op :=
  .report plainSettings demoEnv agentActor
    ⟨"web01", [], [], some [rootLine [], rootLine [("from", .str "10.0.0.1")]]⟩

def rootCause : Cause := .place .rootUnrestricted "web01" "/root/.ssh/authorized_keys" "SHA256:a"

def rootEntry (options : List (String × Json)) : Entry :=
  { fingerprint := "SHA256:a"
    path := "/root/.ssh/authorized_keys"
    keyType := "ssh-ed25519"
    bits := none
    comment := none
    kind := .authorized
    account := some "root"
    accountExists := true
    options := options
    fileMtime := none }

def rootReport : SshReport := ⟨1000, "web01", [rootEntry [], rootEntry [("from", .str "10.0.0.1")]]⟩

/-- The root key is unrestricted on the first line, and no finding says so. -/
theorem restricted_line_hides :
    ¬ ∀ (db : Db) (ops : List Discovery.Op), Along sshStep ExactAfter (sshStart db) ops := by
  intro h
  have hexact : ExactAfter (sshStart Db.empty) twoLines := (h Db.empty [twoLines]).1
  have hreport : sshReport (sshStart Db.empty).d twoLines = some rootReport := by
    decide +kernel
  have hflagged : Flagged plainSettings demoEnv [rootReport] rootCause :=
    ⟨rootEntry [], by decide, rfl, rfl, by unfold LineFlagged; decide +kernel⟩
  obtain ⟨i, f, hf, hnames, -⟩ := (hexact rootReport hreport).named rootCause hflagged
  have hnone : (sshStep (sshStart Db.empty) twoLines).d.findings.all (fun f => f.kind = .ssh .rootUnrestricted) = [] := by
    decide +kernel
  have hmem : (i, f) ∈ (sshStep (sshStart Db.empty) twoLines).d.findings.all (fun f => f.kind = .ssh .rootUnrestricted) :=
    Table.mem_all.2 ⟨hf, decide_eq_true hnames.1⟩
  rw [hnone] at hmem
  cases hmem

end Examples

end Certadillo.Discovery
