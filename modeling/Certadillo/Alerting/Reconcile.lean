/-
Alert notifications over a run of evaluations.

A row is kept for each alert. When an alert fires again after it was resolved its row is opened, but keeps the severity it
had; the notification carries the new one.

- `reconcile_row`, `reconcile_sent`: one evaluation, alert by alert.
- `lawful_iff`: an evaluation notifies what it should exactly where the severities of the open rows are the ones last
  notified, or make no difference.
- `notifications_iff`: the same over runs; `sameSeverity_lawful`: alerts that fire again with the severity they had.
- `stale_severity_repeats`: a run that notifies twice.
-/
import Certadillo.Lib.Dicts
import Certadillo.Lib.Run

namespace Certadillo.Alerting

open Py Machine

/-! ## Model -/

inductive Severity where
  | critical | warning | info
deriving DecidableEq

/-- microseconds -/
def hours (n : ℤ) : ℤ := n * 3600 * 1000000

/-- `REPEAT` -/
def repeatAfter : Severity → ℤ
  | .critical => hours 4
  | .warning => hours 24
  | .info => hours (7 * 24)

inductive Status where
  | firing | resolved
deriving DecidableEq

/-- what `evaluate` returns: an alert whose status is left at its default -/
structure Firing where
  fingerprint : String
  rule : String
  severity : Severity
  summary : String
  labels : List (String × Json)
  runbook : String
deriving DecidableEq

/-- an alert that is sent -/
structure Alert extends Firing where
  status : Status
deriving DecidableEq

/-- an `AlertState` row; its fingerprint is the primary key -/
structure AlertState where
  rule : String
  severity : Severity
  summary : String
  labels : List (String × Json)
  firstSeen : ℤ
  lastNotified : Option ℤ
  resolvedAt : Option ℤ
deriving DecidableEq

/-- the table, by fingerprint -/
structure Alerts where
  rows : List (String × AlertState)
  nodup : (rows.map Prod.fst).Nodup

def Alerts.get (t : Alerts) (fp : String) : Option AlertState := t.rows.lookup fp

def Alerts.empty : Alerts := ⟨[], List.nodup_nil⟩

/-- `{a.fingerprint: a for a in evaluate(..)}` -/
def firingOf (alerts : List Firing) : List (String × Firing) := updateItems [] (alerts.map fun a => (a.fingerprint, a))

/-- one alert that fires: its row, and what is sent -/
def onFiring (now : ℤ) (known : Alerts) (fp : String) (a : Firing) : Option AlertState × List Alert :=
  match known.get fp with
  | none => (some ⟨a.rule, a.severity, a.summary, a.labels, now, some now, none⟩, [⟨a, .firing⟩])
  | some st =>
    if st.resolvedAt.isSome then
      -- the severity, summary and labels stay those of the row
      (some { st with resolvedAt := none, firstSeen := now, lastNotified := some now }, [⟨a, .firing⟩])
    else
      let st := { st with summary := a.summary, labels := a.labels }
      if st.severity ≠ a.severity ∨ repeatAfter a.severity ≤ now - st.lastNotified.getD st.firstSeen then
        (some { st with severity := a.severity, lastNotified := some now }, [⟨a, .firing⟩])
      else (some st, [])

/-- one row that was known: resolved if its alert does not fire any more -/
def onKnown (now : ℤ) (firing : List (String × Firing)) (fp : String) (st : AlertState) : Option AlertState × List Alert :=
  if (firing.lookup fp).isNone && st.resolvedAt.isNone then
    (some { st with resolvedAt := some now }, [⟨⟨fp, st.rule, st.severity, st.summary, st.labels, ""⟩, .resolved⟩])
  else (none, [])

/-- the rows after an evaluation, and what is sent -/
def reconcile (now : ℤ) (alerts : List Firing) (known : Alerts) : Alerts × List Alert :=
  let firing := firingOf alerts
  let opened := pass (onFiring now known) firing known.rows
  let closed := pass (onKnown now firing) known.rows opened.1
  (⟨closed.1, pass_nodup (pass_nodup known.nodup)⟩, opened.2 ++ closed.2)

/-- one notification goes to the team of its label -/
def toTeam (teams : List (String × List Alert)) (a : Alert) : List (String × List Alert) :=
  match a.labels.lookup "team" with
  | some (.str team) => if team = "" then teams else setItem teams team ((teams.lookup team).getD [] ++ [a])
  | _ => teams

/-- `by_team`: what each team is sent -/
def byTeam (sent : List Alert) : List (String × List Alert) := sent.foldl toTeam []

/-! ## One evaluation, alert by alert -/

/-- a notification about this alert -/
def about (status : Status) (fp : String) (n : Alert) : Bool := n.status = status && n.fingerprint = fp

/-- what an evaluation does to one alert: from what fires and its row, the row after and what is sent about it, firing and
resolved -/
inductive Turn (now : ℤ) (fp : String) :
    Option Firing → Option AlertState → Option AlertState → List Alert → List Alert → Prop where
  | absent : Turn now fp none none none [] []
  | first (a : Firing) : Turn now fp (some a) none
      (some ⟨a.rule, a.severity, a.summary, a.labels, now, some now, none⟩) [⟨a, .firing⟩] []
  | again (a : Firing) (st : AlertState) (h : st.resolvedAt.isSome) : Turn now fp (some a) (some st)
      (some { st with resolvedAt := none, firstSeen := now, lastNotified := some now }) [⟨a, .firing⟩] []
  | repeated (a : Firing) (st : AlertState) (h : st.resolvedAt = none)
      (hdue : st.severity ≠ a.severity ∨ repeatAfter a.severity ≤ now - st.lastNotified.getD st.firstSeen) :
      Turn now fp (some a) (some st)
        (some { st with summary := a.summary, labels := a.labels, severity := a.severity, lastNotified := some now })
        [⟨a, .firing⟩] []
  | kept (a : Firing) (st : AlertState) (h : st.resolvedAt = none)
      (hdue : ¬ (st.severity ≠ a.severity ∨ repeatAfter a.severity ≤ now - st.lastNotified.getD st.firstSeen)) :
      Turn now fp (some a) (some st) (some { st with summary := a.summary, labels := a.labels }) [] []
  | ended (st : AlertState) (h : st.resolvedAt = none) : Turn now fp none (some st)
      (some { st with resolvedAt := some now }) [] [⟨⟨fp, st.rule, st.severity, st.summary, st.labels, ""⟩, .resolved⟩]
  | closed (st : AlertState) (h : st.resolvedAt.isSome) : Turn now fp none (some st) (some st) [] []

section Reconcile

variable {now : ℤ} {alerts : List Firing} {known : Alerts} {fp : String} {a : Firing}

theorem firingOf_spec (alerts : List Firing) : ((firingOf alerts).map Prod.fst).Nodup ∧
    ∀ p ∈ firingOf alerts, p.2.fingerprint = p.1 := by
  obtain ⟨hnodup, hfrom, -⟩ := updateItems_spec (d := []) (e := alerts.map fun a => (a.fingerprint, a)) List.nodup_nil
  refine ⟨hnodup, fun p hp => ?_⟩
  rcases hfrom p.1 p.2 (lookup_of_mem hnodup hp) with hmem | hnil
  · obtain ⟨b, -, hb⟩ := List.mem_map.1 hmem
    obtain ⟨hfp, hsame⟩ := Prod.mk.inj hb
    rw [← hsame]
    exact hfp
  · cases hnil

/-- what is sent about an alert, by its own turns -/
theorem sent_about (status : Status) : (reconcile now alerts known).2.filter (about status fp) =
    (((firingOf alerts).lookup fp).map fun a => (onFiring now known fp a).2.filter (about status fp)).getD [] ++
      ((known.get fp).map fun st => (onKnown now (firingOf alerts) fp st).2.filter (about status fp)).getD [] := by
  obtain ⟨hnodup, hfingerprint⟩ := firingOf_spec alerts
  have hopened : ∀ p ∈ firingOf alerts, p.1 ≠ fp → ∀ n ∈ (onFiring now known p.1 p.2).2, about status fp n = false := by
    intro p hp hne n hn
    have hsent : n = ⟨p.2, .firing⟩ := by
      unfold onFiring at hn
      split at hn
      · exact List.mem_singleton.1 hn
      · split at hn
        · exact List.mem_singleton.1 hn
        · dsimp only at hn
          split at hn
          · exact List.mem_singleton.1 hn
          · cases hn
    rw [hsent]
    simp [about, hfingerprint p hp, hne]
  have hclosed : ∀ p ∈ known.rows, p.1 ≠ fp → ∀ n ∈ (onKnown now (firingOf alerts) p.1 p.2).2, about status fp n = false := by
    intro p hp hne n hn
    unfold onKnown at hn
    split at hn
    · obtain rfl := List.mem_singleton.1 hn
      simp [about, hne]
    · cases hn
  unfold reconcile
  rw [List.filter_append, pass_emitted hnodup hopened, pass_emitted known.nodup hclosed]
  rfl

/-- the row of an alert, by its own turns -/
theorem row_after : (reconcile now alerts known).1.get fp =
    ((known.get fp).bind fun st => (onKnown now (firingOf alerts) fp st).1).or
      ((((firingOf alerts).lookup fp).bind fun a => (onFiring now known fp a).1).or (known.get fp)) := by
  unfold reconcile Alerts.get
  rw [pass_lookup known.nodup, pass_lookup (firingOf_spec alerts).1]

/-- **An evaluation takes one turn for each alert.** -/
theorem reconcile_turn (now : ℤ) (alerts : List Firing) (known : Alerts) (fp : String) :
    Turn now fp ((firingOf alerts).lookup fp) (known.get fp) ((reconcile now alerts known).1.get fp)
      ((reconcile now alerts known).2.filter (about .firing fp))
      ((reconcile now alerts known).2.filter (about .resolved fp)) := by
  rw [row_after, sent_about, sent_about]
  cases hfiring : (firingOf alerts).lookup fp with
  | none =>
    cases hrow : known.get fp with
    | none => exact .absent
    | some st =>
      cases hresolved : st.resolvedAt with
      | none => simpa [onKnown, hfiring, hresolved, about] using Turn.ended st hresolved
      | some t =>
        have hclosed : st.resolvedAt.isSome := by rw [hresolved]; rfl
        simpa [onKnown, hfiring, hresolved] using @Turn.closed now fp st hclosed
  | some a =>
    have hfp : a.fingerprint = fp := (firingOf_spec alerts).2 _ (mem_of_lookup hfiring)
    cases hrow : known.get fp with
    | none => simpa [onFiring, hrow, about, hfp] using @Turn.first now fp a
    | some st =>
      cases hresolved : st.resolvedAt with
      | some t =>
        have hclosed : st.resolvedAt.isSome := by rw [hresolved]; rfl
        simpa [onFiring, onKnown, hrow, hfiring, hresolved, about, hfp] using @Turn.again now fp a st hclosed
      | none =>
        by_cases hdue : st.severity ≠ a.severity ∨ repeatAfter a.severity ≤ now - st.lastNotified.getD st.firstSeen
        · have hturn := @Turn.repeated now fp a st hresolved hdue
          simpa [onFiring, onKnown, hrow, hfiring, hresolved, about, hfp, hdue] using hturn
        · have hturn := @Turn.kept now fp a st hresolved hdue
          simpa [onFiring, onKnown, hrow, hfiring, hresolved, about, hfp, hdue] using hturn

end Reconcile

/-- the alert's label names the team -/
def ofTeam (team : String) (a : Alert) : Bool := a.labels.lookup "team" = some (.str team)

/-- **A team is sent the notifications that are labelled with it, in their order.** -/
theorem byTeam_lookup {team : String} (hteam : team ≠ "") (sent : List Alert) :
    ((byTeam sent).lookup team).getD [] = sent.filter (ofTeam team) := by
  have hfold : ∀ (sent : List Alert) (teams : List (String × List Alert)), ((sent.foldl toTeam teams).lookup team).getD [] =
      (teams.lookup team).getD [] ++ sent.filter (ofTeam team) := by
    intro sent
    induction sent with
    | nil => simp
    | cons a rest ih =>
      intro teams
      rw [List.foldl_cons, ih]
      by_cases hof : a.labels.lookup "team" = some (.str team)
      · have hturn : toTeam teams a = setItem teams team ((teams.lookup team).getD [] ++ [a]) := by
          simp [toTeam, hof, hteam]
        rw [hturn, lookup_setItem, if_pos rfl]
        simp [ofTeam, hof]
      · have hsame : (toTeam teams a).lookup team = teams.lookup team := by
          unfold toTeam
          split
          · next other hother =>
            split
            · rfl
            · rw [lookup_setItem, if_neg]
              rintro rfl
              exact hof hother
          · rfl
        rw [hsame]
        simp [ofTeam, hof]
  exact hfold sent []

/-! ## What should be notified -/

/-- an evaluation that was made -/
structure Evaluation where
  now : ℤ
  firing : List (String × Firing)
  sent : List Alert

/-- newest first -/
abbrev Log := List Evaluation

/-- the alert is in a firing episode -/
def firingBefore (fp : String) : Log → Bool
  | [] => false
  | e :: _ => (e.firing.lookup fp).isSome

/-- when it was last notified as firing, and the severity of that notification -/
def lastTold (fp : String) : Log → Option (ℤ × Severity)
  | [] => none
  | e :: rest =>
    match e.sent.filter (about .firing fp) with
    | [] => lastTold fp rest
    | n :: _ => some (e.now, n.severity)

/-- an episode starts, the severity is not the one last notified, or its repeat interval has elapsed since then -/
def Due (log : Log) (now : ℤ) (a : Firing) : Prop :=
  firingBefore a.fingerprint log = false ∨
    ∃ t severity, lastTold a.fingerprint log = some (t, severity) ∧
      (severity ≠ a.severity ∨ repeatAfter a.severity ≤ now - t)

/-- an episode ends -/
def Ends (log : Log) (firing : List (String × Firing)) (fp : String) : Prop :=
  firingBefore fp log = true ∧ firing.lookup fp = none

/-- the notifications of an evaluation are those that are due, each once, and each episode that ends, once with the severity
last notified -/
structure Lawful (log : Log) (now : ℤ) (firing : List (String × Firing)) (sent : List Alert) : Prop where
  due : ∀ fp a, firing.lookup fp = some a → Due log now a → sent.filter (about .firing fp) = [⟨a, .firing⟩]
  quiet : ∀ fp, (∀ a, firing.lookup fp = some a → ¬ Due log now a) → sent.filter (about .firing fp) = []
  ended : ∀ fp, Ends log firing fp →
    ∃ n t, sent.filter (about .resolved fp) = [n] ∧ lastTold fp log = some (t, n.severity)
  others : ∀ fp, ¬ Ends log firing fp → sent.filter (about .resolved fp) = []

/-! ## Runs -/

/-- the table, and the evaluations so far -/
structure St where
  rows : Alerts
  log : Log

structure Evaluate where
  now : ℤ
  alerts : List Firing

def step (s : Alerting.St) (o : Evaluate) : Alerting.St :=
  let out := reconcile o.now o.alerts s.rows
  ⟨out.1, ⟨o.now, firingOf o.alerts, out.2⟩ :: s.log⟩

def start : Alerting.St := ⟨.empty, []⟩

/-- the evaluation notifies what it should -/
def Notifies (s : Alerting.St) (o : Evaluate) : Prop :=
  Lawful s.log o.now (firingOf o.alerts) (reconcile o.now o.alerts s.rows).2

/-- the severity of an open row is the one last notified, or it makes no difference: the alert fires again, with a severity
that is neither of them or after its repeat interval -/
def SeverityKept (s : Alerting.St) (o : Evaluate) : Prop :=
  ∀ fp st t told, s.rows.get fp = some st → st.resolvedAt = none → lastTold fp s.log = some (t, told) →
    st.severity = told ∨ ∃ a, (firingOf o.alerts).lookup fp = some a ∧
      ((st.severity ≠ a.severity ∧ told ≠ a.severity) ∨ repeatAfter a.severity ≤ o.now - t)

/-- an open row is an episode, and a row has the time of its last notification -/
def RowInv (log : Log) (fp : String) : Option AlertState → Prop
  | none => firingBefore fp log = false
  | some st => st.resolvedAt.isNone = firingBefore fp log ∧
      ∃ t told, lastTold fp log = some (t, told) ∧ st.lastNotified = some t

def Inv (s : Alerting.St) : Prop := ∀ fp, RowInv s.log fp (s.rows.get fp)

theorem inv_start : Alerting.Inv start := fun _ => rfl

section Step

variable {s : Alerting.St} {o : Evaluate}

theorem lastTold_sent {fp : String} {e : Evaluation} {n : Alert} {rest : Log} (h : e.sent.filter (about .firing fp) = [n]) :
    lastTold fp (e :: rest) = some (e.now, n.severity) := by
  unfold lastTold
  rw [h]

theorem lastTold_silent {fp : String} {e : Evaluation} {rest : Log} (h : e.sent.filter (about .firing fp) = []) :
    lastTold fp (e :: rest) = lastTold fp rest := by
  show (match e.sent.filter (about .firing fp) with
    | [] => lastTold fp rest
    | n :: _ => some (e.now, n.severity)) = _
  rw [h]

/-- a turn keeps the row's invariant -/
theorem Turn.rowInv {fp : String} {e : Evaluation} {log : Log} {x : Option Firing} {y z : Option AlertState} {u v : List Alert}
    (h : Turn e.now fp x y z u v) (hfiring : e.firing.lookup fp = x) (hsent : e.sent.filter (about .firing fp) = u)
    (hrow : RowInv log fp y) : RowInv (e :: log) fp z := by
  have hbefore : firingBefore fp (e :: log) = x.isSome := by
    rw [← hfiring]
    rfl
  cases h with
  | absent => exact hbefore
  | first a => exact ⟨hbefore.symm, e.now, a.severity, lastTold_sent hsent, rfl⟩
  | again a st hresolved => exact ⟨hbefore.symm, e.now, a.severity, lastTold_sent hsent, rfl⟩
  | repeated a st hresolved hdue =>
    refine ⟨?_, e.now, a.severity, lastTold_sent hsent, rfl⟩
    rw [hbefore, hresolved]
    rfl
  | kept a st hresolved hdue =>
    obtain ⟨-, t, told, htold, hlast⟩ := hrow
    refine ⟨?_, t, told, (lastTold_silent hsent).trans htold, hlast⟩
    rw [hbefore, hresolved]
    rfl
  | ended st hresolved =>
    obtain ⟨-, t, told, htold, hlast⟩ := hrow
    exact ⟨hbefore.symm, t, told, (lastTold_silent hsent).trans htold, hlast⟩
  | closed st hresolved =>
    obtain ⟨-, t, told, htold, hlast⟩ := hrow
    refine ⟨?_, t, told, (lastTold_silent hsent).trans htold, hlast⟩
    rw [hbefore]
    cases hclosed : st.resolvedAt with
    | none => rw [hclosed] at hresolved; cases hresolved
    | some t' => rfl

theorem inv_step (hinv : Alerting.Inv s) (o : Evaluate) : Alerting.Inv (Alerting.step s o) := fun fp =>
  (reconcile_turn o.now o.alerts s.rows fp).rowInv (e := ⟨o.now, firingOf o.alerts, (reconcile o.now o.alerts s.rows).2⟩)
    rfl rfl (hinv fp)

/-- the law of an evaluation, for one alert -/
structure LawfulAt (log : Log) (now : ℤ) (fp : String) (x : Option Firing) (u v : List Alert) : Prop where
  due : ∀ a, x = some a → Due log now a → u = [⟨a, .firing⟩]
  quiet : (∀ a, x = some a → ¬ Due log now a) → u = []
  ended : firingBefore fp log = true ∧ x = none → ∃ n t, v = [n] ∧ lastTold fp log = some (t, n.severity)
  others : ¬ (firingBefore fp log = true ∧ x = none) → v = []

theorem notifies_iff_at : Notifies s o ↔ ∀ fp, LawfulAt s.log o.now fp ((firingOf o.alerts).lookup fp)
    ((reconcile o.now o.alerts s.rows).2.filter (about .firing fp))
    ((reconcile o.now o.alerts s.rows).2.filter (about .resolved fp)) := by
  constructor
  · intro h fp
    exact ⟨h.due fp, h.quiet fp, h.ended fp, h.others fp⟩
  · intro h
    exact ⟨fun fp => (h fp).due, fun fp => (h fp).quiet, fun fp => (h fp).ended, fun fp => (h fp).others⟩

/-- the severity of an open row is the one last notified, or makes no difference to this turn -/
def KeptAt (log : Log) (now : ℤ) (fp : String) (x : Option Firing) (y : Option AlertState) : Prop :=
  ∀ st t told, y = some st → st.resolvedAt = none → lastTold fp log = some (t, told) →
    st.severity = told ∨ ∃ a, x = some a ∧
      ((st.severity ≠ a.severity ∧ told ≠ a.severity) ∨ repeatAfter a.severity ≤ now - t)

theorem keptAt_iff {log : Log} {now t : ℤ} {told : Severity} {fp : String} {x : Option Firing} {st : AlertState}
    (hresolved : st.resolvedAt = none) (htold : lastTold fp log = some (t, told)) :
    KeptAt log now fp x (some st) ↔ st.severity = told ∨ ∃ a, x = some a ∧
      ((st.severity ≠ a.severity ∧ told ≠ a.severity) ∨ repeatAfter a.severity ≤ now - t) := by
  constructor
  · intro h
    exact h st t told rfl hresolved htold
  · intro h st' t' told' hst' _ htold'
    obtain rfl := Option.some.inj hst'
    obtain ⟨rfl, rfl⟩ := Prod.mk.inj (Option.some.inj (htold'.symm.trans htold))
    exact h

/-- in an episode, what makes a notification due is the severity last notified and its time -/
theorem due_iff {log : Log} {now t : ℤ} {told : Severity} {a : Firing} (hbefore : firingBefore a.fingerprint log = true)
    (htold : lastTold a.fingerprint log = some (t, told)) :
    Due log now a ↔ told ≠ a.severity ∨ repeatAfter a.severity ≤ now - t := by
  unfold Due
  rw [hbefore, htold]
  constructor
  · rintro (hstarts | ⟨t', told', hsome, hcase⟩)
    · cases hstarts
    · obtain ⟨rfl, rfl⟩ := Prod.mk.inj (Option.some.inj hsome)
      exact hcase
  · intro hcase
    exact Or.inr ⟨t, told, rfl, hcase⟩

/-- where an alert fires, the law is about its firing notifications only -/
theorem lawfulAt_firing {log : Log} {now : ℤ} {fp : String} {a : Firing} {u : List Alert} :
    LawfulAt log now fp (some a) u [] ↔ (Due log now a → u = [⟨a, .firing⟩]) ∧ (¬ Due log now a → u = []) := by
  constructor
  · intro h
    refine ⟨h.due a rfl, fun hdue => h.quiet fun b hb => ?_⟩
    obtain rfl := Option.some.inj hb
    exact hdue
  · rintro ⟨hdue, hquiet⟩
    refine ⟨fun b hb => ?_, fun h => hquiet (h a rfl), nofun, fun _ => rfl⟩
    obtain rfl := Option.some.inj hb
    exact hdue

/-- where it does not, about its resolved notification only -/
theorem lawfulAt_silent {log : Log} {now : ℤ} {fp : String} {v : List Alert} : LawfulAt log now fp none [] v ↔
    (firingBefore fp log = true → ∃ n t, v = [n] ∧ lastTold fp log = some (t, n.severity)) ∧
      (firingBefore fp log = false → v = []) := by
  constructor
  · intro h
    refine ⟨fun hbefore => h.ended ⟨hbefore, rfl⟩, fun hbefore => h.others fun hends => ?_⟩
    rw [hbefore] at hends
    cases hends.1
  · rintro ⟨hended, hothers⟩
    refine ⟨nofun, fun _ => rfl, fun hends => hended hends.1, fun hnot => hothers ?_⟩
    cases hbefore : firingBefore fp log with
    | false => rfl
    | true => exact absurd ⟨hbefore, rfl⟩ hnot

/-- **A turn notifies what it should exactly where the row's severity does.** -/
theorem Turn.lawful_iff {now : ℤ} {fp : String} {log : Log} {x : Option Firing} {y z : Option AlertState} {u v : List Alert}
    (h : Turn now fp x y z u v) (hfp : ∀ a, x = some a → a.fingerprint = fp) (hrow : RowInv log fp y) :
    LawfulAt log now fp x u v ↔ KeptAt log now fp x y := by
  cases h with
  | absent =>
    refine iff_of_true (lawfulAt_silent.2 ⟨fun hbefore => ?_, fun _ => rfl⟩) nofun
    rw [show firingBefore fp log = false from hrow] at hbefore
    cases hbefore
  | first a =>
    have hdue : Due log now a := Or.inl (by rw [hfp a rfl]; exact hrow)
    exact iff_of_true (lawfulAt_firing.2 ⟨fun _ => rfl, fun hnot => absurd hdue hnot⟩) nofun
  | again a st hresolved =>
    have hclosed : st.resolvedAt.isNone = false := by rw [Option.isNone_eq_false_iff]; exact hresolved
    have hdue : Due log now a := Or.inl (by rw [hfp a rfl, ← hrow.1, hclosed])
    refine iff_of_true (lawfulAt_firing.2 ⟨fun _ => rfl, fun hnot => absurd hdue hnot⟩) fun st' t told hst' hopen _ => ?_
    obtain rfl := Option.some.inj hst'
    rw [hopen] at hresolved
    cases hresolved
  | repeated a st hresolved hdue =>
    obtain ⟨hbefore, t, told, htold, hlast⟩ := hrow
    have hepisode : firingBefore a.fingerprint log = true := by rw [hfp a rfl, ← hbefore, hresolved]; rfl
    rw [lawfulAt_firing, keptAt_iff hresolved htold, due_iff hepisode (by rw [hfp a rfl]; exact htold)]
    simp only [hlast, Option.getD_some] at hdue
    simp only [Option.some.injEq, exists_eq_left']
    constructor
    · rintro ⟨-, hquiet⟩
      have hcase : told ≠ a.severity ∨ repeatAfter a.severity ≤ now - t := by
        by_contra hnot
        cases hquiet hnot
      rcases hcase with hne | hrep
      · rcases hdue with hst | hrep
        · exact Or.inr (Or.inl ⟨hst, hne⟩)
        · exact Or.inr (Or.inr hrep)
      · exact Or.inr (Or.inr hrep)
    · intro hkept
      refine ⟨fun _ => trivial, fun hnot => absurd ?_ hnot⟩
      rcases hkept with heq | hne | hrep
      · rw [← heq]
        exact hdue
      · exact Or.inl hne.2
      · exact Or.inr hrep
  | kept a st hresolved hdue =>
    obtain ⟨hbefore, t, told, htold, hlast⟩ := hrow
    have hepisode : firingBefore a.fingerprint log = true := by rw [hfp a rfl, ← hbefore, hresolved]; rfl
    rw [lawfulAt_firing, keptAt_iff hresolved htold, due_iff hepisode (by rw [hfp a rfl]; exact htold)]
    simp only [hlast, Option.getD_some, not_or, not_not] at hdue
    obtain ⟨hsame, hsoon⟩ := hdue
    simp only [Option.some.injEq, exists_eq_left']
    constructor
    · rintro ⟨hdue, -⟩
      left
      by_contra hne
      have htoldNe : told ≠ a.severity := fun heq => hne (hsame.trans heq.symm)
      cases hdue (Or.inl htoldNe)
    · intro hkept
      refine ⟨fun hcase => ?_, fun _ => trivial⟩
      rcases hkept with heq | hne | hrep
      · rcases hcase with hne | hrep
        · exact absurd (heq.symm.trans hsame) hne
        · exact absurd hrep hsoon
      · exact absurd hsame hne.1
      · exact absurd hrep hsoon
  | ended st hresolved =>
    obtain ⟨hbefore, t, told, htold, hlast⟩ := hrow
    have hepisode : firingBefore fp log = true := by rw [← hbefore, hresolved]; rfl
    rw [lawfulAt_silent, keptAt_iff hresolved htold, htold]
    constructor
    · rintro ⟨hended, -⟩
      obtain ⟨n, t', hn, hsome⟩ := hended hepisode
      obtain rfl := (List.cons.inj hn).1
      exact Or.inl (Prod.mk.inj (Option.some.inj hsome)).2.symm
    · intro hkept
      refine ⟨fun _ => ⟨_, t, rfl, ?_⟩, fun hnot => ?_⟩
      · rcases hkept with heq | ⟨a, ha, -⟩
        · rw [heq]
        · cases ha
      · rw [hepisode] at hnot
        cases hnot
  | closed st hresolved =>
    have hclosed : st.resolvedAt.isNone = false := by rw [Option.isNone_eq_false_iff]; exact hresolved
    refine iff_of_true (lawfulAt_silent.2 ⟨fun hbefore => ?_, fun _ => rfl⟩) fun st' t told hst' hopen _ => ?_
    · rw [← hrow.1, hclosed] at hbefore
      cases hbefore
    · obtain rfl := Option.some.inj hst'
      rw [hopen] at hresolved
      cases hresolved

theorem notifies_iff (hinv : Alerting.Inv s) (o : Evaluate) : Notifies s o ↔ SeverityKept s o := by
  rw [notifies_iff_at]
  refine forall_congr' fun fp => ?_
  have hfingerprint : ∀ a, (firingOf o.alerts).lookup fp = some a → a.fingerprint = fp := fun a ha =>
    (firingOf_spec o.alerts).2 _ (mem_of_lookup ha)
  exact (reconcile_turn o.now o.alerts s.rows fp).lawful_iff hfingerprint (hinv fp)

/-- **Every evaluation of a run notifies what it should exactly where the open rows' severities are the ones last notified,
or make no difference.** -/
theorem notifications_iff (ops : List Evaluate) :
    Along Alerting.step Notifies start ops ↔ Along Alerting.step SeverityKept start ops :=
  along_congr_inv (I := Alerting.Inv) (fun _ o hinv _ => inv_step hinv o) (fun _ o hinv => notifies_iff hinv o) inv_start

/-! ### Alerts that fire again as they did -/

/-- an alert that fires again after it was resolved has the severity last notified -/
def SameSeverity (s : Alerting.St) (o : Evaluate) : Prop :=
  ∀ fp a t told, (firingOf o.alerts).lookup fp = some a → firingBefore fp s.log = false →
    lastTold fp s.log = some (t, told) → a.severity = told

/-- the row has the severity last notified -/
def Truthful (log : Log) (fp : String) (y : Option AlertState) : Prop :=
  ∀ st t told, y = some st → lastTold fp log = some (t, told) → st.severity = told

theorem Turn.truthful {fp : String} {e : Evaluation} {log : Log} {x : Option Firing} {y z : Option AlertState} {u v : List Alert}
    (h : Turn e.now fp x y z u v) (hsent : e.sent.filter (about .firing fp) = u) (hrow : RowInv log fp y)
    (htruth : Truthful log fp y)
    (hagain : ∀ a t told, x = some a → firingBefore fp log = false → lastTold fp log = some (t, told) → a.severity = told) :
    Truthful (e :: log) fp z := by
  -- a turn that sends leaves the row with the severity that is sent
  have htold : ∀ {st : AlertState} {a : Firing}, u = [⟨a, .firing⟩] → st.severity = a.severity →
      Truthful (e :: log) fp (some st) := by
    intro st a hu hseverity st' t told hst' hlast
    obtain rfl := Option.some.inj hst'
    rw [lastTold_sent (hsent.trans hu)] at hlast
    obtain ⟨-, rfl⟩ := Prod.mk.inj (Option.some.inj hlast)
    exact hseverity
  -- one that does not keeps the row's severity
  have hsilent : ∀ {st st' : AlertState}, u = [] → y = some st → st'.severity = st.severity →
      Truthful (e :: log) fp (some st') := by
    intro st st' hu hy hseverity st'' t told hst'' hlast
    obtain rfl := Option.some.inj hst''
    rw [lastTold_silent (hsent.trans hu)] at hlast
    exact hseverity.trans (htruth st t told hy hlast)
  cases h with
  | absent => exact nofun
  | first a => exact htold rfl rfl
  | again a st hresolved =>
    have hclosed : st.resolvedAt.isNone = false := by rw [Option.isNone_eq_false_iff]; exact hresolved
    obtain ⟨hbefore, t, told, hlast, -⟩ := hrow
    refine htold rfl ?_
    rw [hagain a t told rfl (by rw [← hbefore, hclosed]) hlast]
    exact htruth st t told rfl hlast
  | repeated a st hresolved hdue => exact htold rfl rfl
  | kept a st hresolved hdue => exact hsilent rfl rfl rfl
  | ended st hresolved => exact hsilent rfl rfl rfl
  | closed st hresolved => exact hsilent rfl rfl rfl

/-- **Where every alert that fires again has the severity last notified, every evaluation notifies what it should.** -/
theorem sameSeverity_lawful {ops : List Evaluate} (h : Along Alerting.step SameSeverity start ops) :
    Along Alerting.step Notifies start ops := by
  refine along_of_inv (I := fun s => Alerting.Inv s ∧ ∀ fp, Truthful s.log fp (s.rows.get fp)) ?_ ?_ ⟨inv_start, fun _ => nofun⟩ h
  · intro s o hinv hsame
    refine ⟨inv_step hinv.1 o, fun fp => ?_⟩
    exact (reconcile_turn o.now o.alerts s.rows fp).truthful
      (e := ⟨o.now, firingOf o.alerts, (reconcile o.now o.alerts s.rows).2⟩) rfl (hinv.1 fp) (hinv.2 fp) (hsame fp)
  · intro s o hinv _
    exact (notifies_iff hinv.1 o).2 fun fp st t told hst _ hlast => Or.inl (hinv.2 fp st t told hst hlast)

end Step

/-! ### An alert that fires again with another severity -/

section Examples

def staleCrl (severity : Severity) : Firing := ⟨"crl", "CRLStale", severity, "the CRL is stale", [("ca", .str "root")], ""⟩

/-- a warning that is resolved, fires again as critical, and is seen again after a minute -/
def staleRun : List Evaluate :=
  [⟨0, [staleCrl .warning]⟩, ⟨hours 1, []⟩, ⟨hours 2, [staleCrl .critical]⟩, ⟨hours 2 + 60000000, [staleCrl .critical]⟩]

/-- before the last evaluation -/
def staleLog : Log := (run Alerting.step start (staleRun.take 3)).log

/-- The row still has the first severity, and the alert is sent again. -/
theorem stale_severity_repeats : ¬ ∀ ops : List Evaluate, Along Alerting.step Notifies start ops := by
  intro h
  have hlast := (h staleRun).2.2.2.1
  have hnotDue : ¬ Due staleLog (hours 2 + 60000000) (staleCrl .critical) := by
    rintro (hstarts | ⟨t, told, htold, hcase⟩)
    · revert hstarts
      decide
    · have hcritical : lastTold "crl" staleLog = some (hours 2, .critical) := by decide
      obtain ⟨rfl, rfl⟩ := Prod.mk.inj (Option.some.inj (hcritical.symm.trans htold))
      rcases hcase with hne | hrep
      · exact hne rfl
      · revert hrep
        decide
  have hsilent := hlast.quiet "crl" fun a ha => by
    have hfires : (firingOf [staleCrl .critical]).lookup "crl" = some (staleCrl .critical) := by decide
    obtain rfl := Option.some.inj (hfires.symm.trans ha)
    exact hnotDue
  revert hsilent
  decide

end Examples

end Certadillo.Alerting
