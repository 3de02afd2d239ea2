/-
Certificate Transparency over whole runs: which certificates are found, and how often the sources are asked.

- `issuances_complete`: from an API that pages as Cert Spotter does, the batches make up the whole log of every zone.
- `listed_certificates_found`: a run that was recorded as ok has left one finding for each unexpired certificate it was given
  that was neither issued here nor imported, whatever happens later.
- `findings_have_grounds`: and there is no other finding of this kind.
- `scheduled_spaced`: the scheduler asks a source only when its interval is over; after a cycle none is left waiting.
-/
import Certadillo.Discovery.CtSource
import Certadillo.Lib.Run
import Certadillo.Lib.Upserts
import Certadillo.Services.DualControl

namespace Certadillo.Sources

open Integrity Policy Py Discovery Machine Relation Platform

/-! ## Batches -/

/-- the issuance has this id -/
def hasId (id : Json) (iss : Json) : Bool :=
  match item iss "id" with
  | .ok v => v == id
  | .error _ => false

/-- what a log holds after an id -/
def later (log : List Json) (after : Json) : List Json :=
  if truthy after then (log.dropWhile fun iss => !hasId after iss).tail else log

/-- every issuance has an id of its own -/
structure Ids (log : List Json) : Prop where
  id : ∀ iss ∈ log, ∃ v, item iss "id" = .ok v ∧ truthy v = true
  distinct : log.Pairwise fun x y => item x "id" ≠ item y "id"

/-- the API answers with what comes next in a zone's log, at most `limit` issuances at once -/
def Serves (api : Api) (log : String → List Json) (limit : ℕ) : Prop :=
  ∀ n zone after, ∃ text, api n (query zone after) = .ok ⟨200, text, .ok (.arr ((later (log zone) after).take limit))⟩

section Batches

variable {api : Api} {log : String → List Json} {limit : ℕ}

theorem fetch_serves (h : Serves api log limit) (n : ℕ) (zone : String) (after : Json) :
    fetch api n zone after =
      .ok (.arr ((later (log zone) after).take limit), (later (log zone) after).take limit) := by
  obtain ⟨text, htext⟩ := h n zone after
  unfold fetch
  rw [htext]
  rfl

theorem hasId_self {iss id : Json} (h : item iss "id" = .ok id) : hasId id iss = true := by
  unfold hasId
  rw [h]
  simp

theorem hasId_iff {iss id : Json} : hasId id iss = true ↔ item iss "id" = .ok id := by
  unfold hasId
  cases item iss "id" with
  | error e => simp
  | ok v => simp

/-- after an issuance of the log comes what follows it there -/
theorem later_id {before rest : List Json} {iss id : Json} (hids : Ids (before ++ iss :: rest)) (hid : item iss "id" = .ok id) :
    later (before ++ iss :: rest) id = rest := by
  have htruthy : truthy id = true := by
    obtain ⟨v, hv, htruthy⟩ := hids.id iss (by simp)
    obtain rfl := Except.ok.inj (hid.symm.trans hv)
    exact htruthy
  have hothers : ∀ x ∈ before, (!hasId id x) = true := by
    intro x hx
    have hne := (List.pairwise_append.1 hids.distinct).2.2 x hx iss (by simp)
    have hno : ¬ hasId id x = true := fun h => hne ((hasId_iff.1 h).trans hid.symm)
    simpa using hno
  unfold later
  rw [if_pos htruthy, List.dropWhile_append_of_pos hothers, List.dropWhile_cons_of_neg (by simp [hasId_self hid])]
  rfl

/-- the rest of a zone's log, from what came before on -/
theorem zoneIssuances_complete (h : Serves api log limit) {pageSize : ℤ} (hpos : 0 < pageSize) (hpage : pageSize ≤ limit)
    {zone : String} (hids : Ids (log zone)) (fuel : ℕ) :
    ∀ (n : ℕ) (after : Json) (before rest : List Json), log zone = before ++ rest → later (log zone) after = rest →
      rest.length < fuel → ∃ m, zoneIssuances api pageSize zone fuel n after = some (⟨rest, none⟩, m) := by
  induction fuel with
  | zero =>
    intro n after before rest _ _ hfuel
    exact absurd hfuel (Nat.not_lt_zero _)
  | succ fuel ih =>
    intro n after before rest hlog hlater hfuel
    unfold zoneIssuances
    rw [fetch_serves h, hlater]
    dsimp only
    split
    · next hshort =>
      -- a short batch is the last one
      have hall : rest.take limit = rest := by
        refine List.take_of_length_le ?_
        rw [List.length_take] at hshort
        omega
      exact ⟨n + 1, by rw [hall]⟩
    · next hfull =>
      have hne : rest.take limit ≠ [] := by
        intro hnil
        rw [hnil] at hfull
        simp at hfull
        omega
      obtain ⟨last, hlast⟩ : ∃ x, (rest.take limit).getLast? = some x := ⟨_, List.getLast?_eq_some_getLast hne⟩
      obtain ⟨ys, hys⟩ := List.getLast?_eq_some_iff.1 hlast
      have hsplit : rest = ys ++ last :: rest.drop limit := by
        calc rest = rest.take limit ++ rest.drop limit := (List.take_append_drop limit rest).symm
          _ = ys ++ last :: rest.drop limit := by rw [hys, List.append_assoc]; rfl
      have hlog' : log zone = (before ++ ys) ++ last :: rest.drop limit := by
        rw [hlog, List.append_assoc, ← hsplit]
      obtain ⟨id, hid, -⟩ := hids.id last (by rw [hlog']; simp)
      have hlater' : later (log zone) id = rest.drop limit := by
        rw [hlog'] at hids ⊢
        exact later_id hids hid
      have hlen : (rest.drop limit).length < fuel := by
        have hlength := congrArg List.length hsplit
        simp only [List.length_append, List.length_cons] at hlength
        omega
      have hmore : log zone = (before ++ ys ++ [last]) ++ rest.drop limit := by rw [hlog']; simp
      obtain ⟨m, hm⟩ := ih (n + 1) id _ _ hmore hlater' hlen
      refine ⟨m, ?_⟩
      have hlastId : lastId (.arr (rest.take limit)) = .ok id := by
        simp only [lastId, hlast, hid]
      rw [hlastId]
      dsimp only
      rw [hm]
      simp [List.take_append_drop]

end Batches

/-- a log of three issuances, by their ids -/
def smallLog (_ : String) : List Json := ["7", "8", "9"].map fun id => .obj [("id", .str id)]

/-- two issuances at once -/
def smallApi : Api := fun _ params =>
  .ok ⟨200, "", .ok (.arr ((later (smallLog "") ((params.lookup "after").getD .null)).take 2))⟩

theorem smallApi_serves : Serves smallApi smallLog 2 := by
  intro n zone after
  refine ⟨"", ?_⟩
  have hafter : later (smallLog "") (((query zone after).lookup "after").getD .null) = later (smallLog zone) after := by
    unfold query
    by_cases htruthy : truthy after = true
    · rw [if_pos htruthy]
      rfl
    · rw [if_neg htruthy]
      exact (if_neg htruthy).symm
  unfold smallApi
  rw [hafter]

theorem smallLog_ids (zone : String) : Ids (smallLog zone) where
  id := by
    intro iss hiss
    simp only [smallLog, List.map_cons, List.map_nil, List.mem_cons, List.not_mem_nil, or_false] at hiss
    rcases hiss with rfl | rfl | rfl <;> exact ⟨_, rfl, by decide⟩
  distinct := by
    simp only [smallLog, List.map_cons, List.map_nil]
    decide

/-- an unexpired issuance of a certificate with this serial number -/
structure Lists (o : Outside) (env : Env) (iss : Json) (serial : String) : Prop where
  unexpired : ∃ notAfter, notAfterOf o iss = .ok notAfter ∧ env.now ≤ notAfter
  serial : ∃ cert, certOf o iss = .ok cert ∧ serialOf env iss cert = .ok serial

/-- a row that is neither issued here nor imported -/
def Foreign (c : Certificate) : Prop := c.source ≠ .issued ∧ c.source ≠ .imported

def ByKey : Table DiscoveryFinding → Prop := Table.UniqueBy DiscoveryFinding.key

/-- the database after a run of source `name` that was given these issuances, from the one before -/
structure Watched (o : Outside) (env : Env) (name : String) (items : List Json) (d d' : Store) : Prop where
  known : ∀ serial, known d'.main.db serial = known d.main.db serial
  unique : ByKey d.main.findings → ByKey d'.main.findings
  old : ∀ i f, d.main.findings.get i = some f → ∃ g, d'.main.findings.get i = some g ∧ g.kind = f.kind ∧ g.key = f.key
  new : ∀ i g, d.main.findings.get i = none → d'.main.findings.get i = some g → ∃ iss ∈ items, ∃ serial,
    Lists o env iss serial ∧ Sources.known d.main.db serial = false ∧ g.kind = UNKNOWN_PUBLIC_CERT ∧ g.key = unknownKey serial
  next : d.runs.next ≤ d'.runs.next
  runs : ∀ i r, d.runs.get i = some r → ∃ r', d'.runs.get i = some r' ∧ r'.source = r.source ∧ r'.startedAt = r.startedAt
  started : ∀ i r, d.runs.get i = none → d'.runs.get i = some r → d.runs.next ≤ i ∧ r.source = name ∧ r.startedAt = env.now

section Writes

variable {o : Outside} {env : Env} {items : List Json} {name actor : String} {d d' d'' : Store}

/-- the findings and the runs are as they were -/
theorem watched_frame (hknown : ∀ serial, known d'.main.db serial = known d.main.db serial)
    (hfindings : d'.main.findings = d.main.findings) (hruns : d'.runs = d.runs) : Watched o env name items d d' where
  known := hknown
  unique := by
    intro h
    rwa [hfindings]
  old := by
    intro i f hf
    exact ⟨f, by rw [hfindings, hf], rfl, rfl⟩
  new := by
    intro i g hnone hg
    rw [hfindings, hnone] at hg
    cases hg
  next := by rw [hruns]
  runs := by
    intro i r hr
    exact ⟨r, by rw [hruns, hr], rfl, rfl⟩
  started := by
    intro i r hnone hr
    rw [hruns, hnone] at hr
    cases hr

theorem Watched.refl (d : Store) : Watched o env name items d d := watched_frame (fun _ => rfl) rfl rfl

theorem Watched.trans (h : Watched o env name items d d') (h' : Watched o env name items d' d'') :
    Watched o env name items d d'' where
  known := fun serial => (h'.known serial).trans (h.known serial)
  unique := fun hd => h'.unique (h.unique hd)
  old := by
    intro i f hf
    obtain ⟨g, hg, hkind, hkey⟩ := h.old i f hf
    obtain ⟨g', hg', hkind', hkey'⟩ := h'.old i g hg
    exact ⟨g', hg', hkind'.trans hkind, hkey'.trans hkey⟩
  new := by
    intro i g hnone hg
    cases hmid : d'.main.findings.get i with
    | none =>
      obtain ⟨iss, hiss, serial, hlists, hknown, hrest⟩ := h'.new i g hmid hg
      exact ⟨iss, hiss, serial, hlists, (h.known serial).symm.trans hknown, hrest⟩
    | some f =>
      obtain ⟨iss, hiss, serial, hlists, hknown, hkind, hkey⟩ := h.new i f hnone hmid
      obtain ⟨g', hg', hkind', hkey'⟩ := h'.old i f hmid
      obtain rfl := Option.some.inj (hg.symm.trans hg')
      exact ⟨iss, hiss, serial, hlists, hknown, hkind'.trans hkind, hkey'.trans hkey⟩
  next := h.next.trans h'.next
  runs := by
    intro i r hr
    obtain ⟨r', hr', hsource, hstarted⟩ := h.runs i r hr
    obtain ⟨r'', hr'', hsource', hstarted'⟩ := h'.runs i r' hr'
    exact ⟨r'', hr'', hsource'.trans hsource, hstarted'.trans hstarted⟩
  started := by
    intro i r hnone hr
    cases hmid : d'.runs.get i with
    | none =>
      obtain ⟨hnext, hrest⟩ := h'.started i r hmid hr
      exact ⟨h.next.trans hnext, hrest⟩
    | some r' =>
      obtain ⟨hnext, hsource, hstarted⟩ := h.started i r' hnone hmid
      obtain ⟨r'', hr'', hsource', hstarted'⟩ := h'.runs i r' hmid
      obtain rfl := Option.some.inj (hr.symm.trans hr'')
      exact ⟨hnext, hsource'.trans hsource, hstarted'.trans hstarted⟩

theorem watched_of_reaches (h : ReflTransGen (Watched o env name items) d d') : Watched o env name items d d' := by
  induction h with
  | refl => exact .refl d
  | tail _ hw ih => exact ih.trans hw

theorem watched_of_run {α : Type} {m : S α} {r : Except Err α} {s s' : Session Store} (h : Tx.Calm (Watched o env name items) m)
    (hrun : m s = (r, s')) : Watched o env name items s.work s'.work := by
  have hw := watched_of_reaches (h s).2
  rwa [hrun] at hw

/-! ### Certificates -/

/-- a certificate that was neither issued here nor imported does not make a serial number known -/
theorem known_cert {a b : Db} (h : CertWrite env Foreign a b) (serial : String) : known b serial = known a serial := by
  unfold known
  cases h with
  | keep h => rw [h]
  | add c hc h =>
    rw [h]
    cases hfirst : a.certificates.first fun c => c.serialHex = serial with
    | some x => rw [Table.first_insert_of_some hfirst]
    | none =>
      rw [Table.first_insert_of_none hfirst]
      obtain ⟨x, hx⟩ := inserted_certificate env.st c
      rw [hx]
      by_cases hserial : c.serialHex = serial
      · simp [hserial, hc.1, hc.2]
      · simp [hserial]
  | set id f hf h =>
    rw [h, Table.first_update fun c => by simp [(hf c).serialHex]]
    cases a.certificates.first fun c => c.serialHex = serial with
    | none => rfl
    | some q =>
      by_cases hid : q.1 = id
      · simp [hid, (hf q.2).source]
      · simp [hid]

theorem calm_inventory {α : Type} {m : M α} (h : Tx.Calm (CertWrite env Foreign) m) :
    Tx.Calm (Watched o env name items) (onMain (onDb m)) := by
  intro s
  obtain ⟨hcommitted, hwork⟩ := h ⟨s.committed.main.db, s.work.main.db⟩
  refine ⟨?_, ?_⟩
  · simp only [onMain, onDb, hcommitted]
  · have hknown : ∀ serial, known (m ⟨s.committed.main.db, s.work.main.db⟩).2.work serial = known s.work.main.db serial := by
      intro serial
      exact Tx.reaches_inv (I := fun b => known b serial = known s.work.main.db serial)
        (fun _ _ hw ih => (known_cert hw serial).trans ih) hwork rfl
    exact .single (watched_frame hknown rfl rfl)

/-- an inventory of certificates found elsewhere -/
theorem calm_ingest_foreign {source : CertSource} (hforeign : source ≠ .issued ∧ source ≠ .imported)
    (hdiscovered : source ≠ .discovered) (hrevoke : source.text ≠ "revoke") (cert : X509Cert) (location : Option String) :
    Tx.Calm (CertWrite env Foreign) (ingest env actor cert source location none) := by
  have h : Tx.Calm (Write env (.adding Foreign)) (ingest env actor cert source location none) := by
    refine calm_ingest (fun c _ hc => ?_) hrevoke (fun h => absurd h hdiscovered) actor cert location none
    rw [← hc] at hforeign
    exact hforeign
  intro s
  exact (h s).mono fun _ _ => Write.cert

/-! ### Findings -/

/-- a run is assigned columns other than its source and its start -/
theorem calm_setRun (id : ℕ) {f : DiscoveryRun → DiscoveryRun} (hsource : ∀ r, (f r).source = r.source)
    (hstarted : ∀ r, (f r).startedAt = r.startedAt) : Tx.Calm (Watched o env name items) (setRun id f) := by
  refine Tx.calm_modify fun d => ⟨fun _ => rfl, fun h => h, fun i a ha => ⟨a, ha, rfl, rfl⟩, ?_, le_refl _, ?_, ?_⟩
  · intro i g hnone hg
    rw [hnone] at hg
    cases hg
  · intro i r hr
    show ∃ r', (d.runs.update id f).get i = some r' ∧ _
    rw [Table.get_update, hr]
    by_cases hi : i = id
    · exact ⟨f r, by simp [hi], hsource r, hstarted r⟩
    · exact ⟨r, by simp [hi], rfl, rfl⟩
  · intro i r hnone hr
    obtain ⟨a, ha, -⟩ := Table.get_update_cases hr
    rw [hnone] at ha
    cases ha

/-- a run begins -/
theorem calm_addRun (r : DiscoveryRun) (hsource : r.source = name) (hstarted : r.startedAt = env.now) :
    Tx.Calm (Watched o env name items) (Tx.modify fun d => { d with runs := d.runs.insert r } : S Unit) := by
  refine Tx.calm_modify fun d => ⟨fun _ => rfl, fun h => h, fun i a ha => ⟨a, ha, rfl, rfl⟩, ?_, Nat.le_succ _, ?_, ?_⟩
  · intro i g hnone hg
    rw [hnone] at hg
    cases hg
  · intro i r hr
    exact ⟨r, Table.get_insert_of_some hr, rfl, rfl⟩
  · intro i r hnone hr
    rw [Table.get_insert] at hr
    split at hr
    · next hi =>
      cases hr
      exact ⟨hi.ge, hsource, hstarted⟩
    · rw [hnone] at hr
      cases hr

/-- a finding is assigned columns other than its kind and its key -/
theorem calm_setFinding (id : ℕ) {f : DiscoveryFinding → DiscoveryFinding} (hkind : ∀ a, (f a).kind = a.kind)
    (hkey : ∀ a, (f a).key = a.key) : Tx.Calm (Watched o env name items) (onMain (setFinding id f)) := by
  intro s
  refine ⟨rfl, .single ⟨fun _ => rfl, fun h => h.update hkey id, ?_, ?_, le_refl _, fun i r hr => ⟨r, hr, rfl, rfl⟩, ?_⟩⟩
  · intro i a ha
    show ∃ g, (s.work.main.findings.update id f).get i = some g ∧ _
    rw [Table.get_update, ha]
    by_cases hi : i = id
    · exact ⟨f a, by simp [hi], hkind a, hkey a⟩
    · exact ⟨a, by simp [hi], rfl, rfl⟩
  · intro i g hnone hg
    obtain ⟨a, ha, -⟩ := Table.get_update_cases hg
    rw [hnone] at ha
    cases ha
  · intro i r hnone hr
    have hr : s.work.runs.get i = some r := hr
    rw [hnone] at hr
    cases hr

/-- a new finding -/
theorem calmAt_addFinding {s : Session Store} {f : DiscoveryFinding} (hnew : ∃ iss ∈ items, ∃ serial,
    Lists o env iss serial ∧ known s.work.main.db serial = false ∧ f.kind = UNKNOWN_PUBLIC_CERT ∧ f.key = unknownKey serial) :
    Tx.CalmAt (Watched o env name items) s (onMain (addFinding f)) := by
  have hrun : onMain (addFinding f) s =
      if (s.work.main.findings.first fun a => a.key = f.key).isSome then (.error (.integrity "discovery_findings.key"), s)
      else (.ok (), { s with work := { s.work with main := { s.work.main with
        findings := s.work.main.findings.insert f } } }) := by
    unfold onMain addFinding unique
    by_cases hfirst : (s.work.main.findings.first fun a => a.key = f.key).isSome = true
    · simp [Tx.get_bind, hfirst]
    · simp [Tx.get_bind, hfirst]
  unfold Tx.CalmAt
  rw [hrun]
  by_cases hfirst : (s.work.main.findings.first fun a => a.key = f.key).isSome = true
  · rw [if_pos hfirst]
    exact ⟨rfl, .refl⟩
  · rw [if_neg hfirst]
    refine ⟨rfl, .single ⟨fun _ => rfl, fun h => h.insert ?_, ?_, ?_, le_refl _, fun i r hr => ⟨r, hr, rfl, rfl⟩, ?_⟩⟩
    · intro j c hc hsame
      have hno := Table.first_none.1 (Option.not_isSome_iff_eq_none.1 hfirst) j c hc
      simp [hsame] at hno
    · intro i a ha
      exact ⟨a, Table.get_insert_of_some ha, rfl, rfl⟩
    · intro i g hnone hg
      rw [Table.get_insert] at hg
      split at hg
      · cases hg
        exact hnew
      · rw [hnone] at hg
        cases hg
    · intro i r hnone hr
      rw [hnone] at hr
      cases hr

theorem findingOf_key {iss : Json} {serial : String} {f : DiscoveryFinding} (h : findingOf env name serial iss = .ok f) :
    f.kind = UNKNOWN_PUBLIC_CERT ∧ f.key = unknownKey serial := by
  unfold findingOf at h
  obtain ⟨_, -, h⟩ := except_bind_ok.1 h
  obtain ⟨_, -, h⟩ := except_bind_ok.1 h
  obtain ⟨_, -, h⟩ := except_bind_ok.1 h
  obtain ⟨_, -, h⟩ := except_bind_ok.1 h
  rw [except_pure_ok] at h
  subst h
  exact ⟨rfl, rfl⟩

/-! ### An issuance -/

theorem calm_track (iss : Json) (cert : Option X509Cert) : Tx.Calm (Watched o env name items) (track o env actor iss cert) := by
  cases cert with
  | none => exact Tx.calm_pure _
  | some cert =>
    refine Tx.calm_ofExcept_bind fun poison _ => ?_
    refine Tx.calm_ite (fun _ => Tx.calm_pure _) fun _ => Tx.calm_ofExcept_bind fun location _ => ?_
    refine Tx.calm_bind (calm_inventory (calm_ingest_foreign ?_ ?_ ?_ _ _)) fun _ => Tx.calm_pure _
    · exact ⟨by decide, by decide⟩
    · decide
    · decide

theorem calmAt_report {s : Session Store} {iss : Json} {serial : String} (hiss : iss ∈ items) (hlists : Lists o env iss serial)
    (hknown : known s.work.main.db serial = false) : Tx.CalmAt (Watched o env name items) s (report env name serial iss) := by
  unfold report
  refine Tx.calmAt_get_bind (Tx.calmAt_ofExcept_bind fun found _ => ?_)
  cases found with
  | none =>
    refine Tx.calmAt_ofExcept_bind fun f hf => ?_
    refine Tx.calmAt_bind (calmAt_addFinding ⟨iss, hiss, serial, hlists, hknown, findingOf_key hf⟩) fun _ s' _ => ?_
    exact Tx.calm_pure _ s'
  | some q =>
    refine Tx.calmAt_ofExcept_bind fun _ _ => ?_
    refine Tx.calmAt_bind (calm_setFinding _ ?_ ?_ s) fun _ s' _ => Tx.calm_pure _ s'
    · exact fun _ => rfl
    · exact fun _ => rfl

theorem calm_watch {iss : Json} (hiss : iss ∈ items) : Tx.Calm (Watched o env name items) (watch o env name actor iss) := by
  intro s
  unfold watch
  refine Tx.calmAt_ofExcept_bind fun notAfter hnotAfter => ?_
  by_cases hexpired : notAfter < env.now
  · rw [if_pos hexpired]
    exact Tx.calm_pure _ s
  · rw [if_neg hexpired]
    refine Tx.calmAt_ofExcept_bind fun cert hcert => Tx.calmAt_ofExcept_bind fun serial hserial => ?_
    have hlists : Lists o env iss serial := ⟨⟨notAfter, hnotAfter, not_lt.1 hexpired⟩, cert, hcert, hserial⟩
    refine Tx.calmAt_get_bind ?_
    by_cases hknown : known s.work.main.db serial = true
    · rw [if_pos hknown]
      exact Tx.calm_pure _ s
    · rw [if_neg hknown]
      have htracks : Tx.CalmAt (Watched o env name items) s (track o env actor iss cert) := calm_track iss cert s
      refine Tx.calmAt_bind htracks fun _ s' htrack => ?_
      -- what is tracked stays unknown
      have hwatched := watched_of_reaches htracks.2
      rw [htrack] at hwatched
      refine calmAt_report hiss hlists ?_
      rw [hwatched.known]
      exact Bool.not_eq_true _ ▸ hknown

theorem calm_watchAll (hsub : ∀ iss ∈ rest, iss ∈ items) : Tx.Calm (Watched o env name items) (watchAll o env name actor rest) := by
  induction rest with
  | nil => exact Tx.calm_pure _
  | cons iss rest ih =>
    refine Tx.calm_bind (calm_watch (hsub iss (by simp))) fun _ => ?_
    exact Tx.calm_bind (ih fun x hx => hsub x (by simp [hx])) fun _ => Tx.calm_pure _

/-! ### A run -/

/-- the issuances a source was given -/
def listed : Yield → List Json
  | .ct c => c.items
  | .cloud _ => []

theorem calm_ingestAll (runId : ℕ) (certs : List (X509Cert × String)) :
    Tx.Calm (Watched o env name items) (ingestAll env actor runId certs) := by
  induction certs with
  | nil => exact Tx.calm_pure _
  | cons c rest ih =>
    refine Tx.calm_bind (calm_setRun _ (fun _ => rfl) fun _ => rfl) fun _ => Tx.calm_get_bind fun d => ?_
    refine Tx.calm_bind (calm_inventory (calm_ingest_foreign ?_ ?_ ?_ _ _)) fun id => ?_
    · exact ⟨by decide, by decide⟩
    · decide
    · decide
    · exact Tx.calm_bind (calm_setRun _ (fun _ => rfl) fun _ => rfl) fun _ => ih

theorem calm_collect (runId : ℕ) (src : Yield) :
    Tx.Calm (Watched o env name (listed src)) (collect o env name actor runId src) := by
  cases src with
  | ct c =>
    unfold collect runCt
    refine Tx.calm_bind (Tx.calm_bind (calm_watchAll fun _ h => h) fun _ => ?_) fun counts => ?_
    · exact Tx.calm_ofExcept_bind fun _ _ => Tx.calm_pure _
    · exact calm_setRun _ (fun _ => rfl) fun _ => rfl
  | cloud c =>
    unfold collect
    exact Tx.calm_bind (calm_ingestAll runId c.items) fun _ => Tx.calm_ofExcept _

theorem calm_noted (runId : ℕ) (result : Except Err Unit) : Tx.Calm (Watched o env name items) (noted o runId result) := by
  cases result with
  | ok u => exact Tx.calm_pure _
  | error e =>
    unfold noted failed
    exact Tx.calm_ite (fun _ => calm_setRun _ (fun _ => rfl) fun _ => rfl) fun _ => Tx.calm_throw _

theorem calm_recordRun (runId : ℕ) : Tx.Calm (Watched o env name items) (recordRun env actor name runId) := by
  unfold recordRun
  refine Tx.calm_get_bind fun d => ?_
  cases d.runs.get runId with
  | none => exact Tx.calm_pure _
  | some run => exact calm_inventory (Tx.calm_modify fun _ => .keep rfl)

theorem calm_runSource (src : Yield) : Tx.Calm (Watched o env name (listed src)) (runSource o env name actor src) := by
  unfold runSource
  refine Tx.calm_get_bind fun d => Tx.calm_bind (calm_addRun _ rfl rfl) fun _ => ?_
  refine Tx.calm_bind (fun s => calm_collect _ src s) fun result => ?_
  refine Tx.calm_bind (calm_noted _ result) fun _ => ?_
  refine Tx.calm_bind (calm_setRun _ (fun _ => rfl) fun _ => rfl) fun _ => ?_
  exact Tx.calm_bind (calm_recordRun _) fun _ => Tx.calm_pure _

end Writes

/-! ## What a run that is recorded as ok has done -/

section Settles

variable {o : Outside} {env : Env} {name actor : String} {iss : Json} {serial : String} {s s' : Session Store}

/-- a finding has this key -/
def HasFinding (d : Store) (key : String) : Prop := ∃ i f, d.main.findings.get i = some f ∧ f.key = key

theorem Watched.hasFinding {items : List Json} {d d' : Store} {key : String} (h : Watched o env name items d d')
    (hhas : HasFinding d key) : HasFinding d' key := by
  obtain ⟨i, f, hf, hkey⟩ := hhas
  obtain ⟨g, hg, -, hsame⟩ := h.old i f hf
  exact ⟨i, g, hg, hsame.trans hkey⟩

theorem report_settles {seen : Seen} (h : report env name serial iss s = (.ok seen, s')) :
    HasFinding s'.work (unknownKey serial) := by
  unfold report at h
  rw [Tx.get_bind] at h
  obtain ⟨found, s₁, hfound, h⟩ := Tx.bind_returns.1 h
  rw [Tx.ofExcept_run, Prod.mk.injEq] at hfound
  obtain ⟨hfound, rfl⟩ := hfound
  cases found with
  | none =>
    obtain ⟨f, s₂, hf, h⟩ := Tx.bind_returns.1 h
    rw [Tx.ofExcept_run, Prod.mk.injEq] at hf
    obtain ⟨hf, rfl⟩ := hf
    obtain ⟨u, s₃, hadd, h⟩ := Tx.bind_returns.1 h
    obtain ⟨-, rfl⟩ := Prod.mk.inj h
    unfold onMain addFinding at hadd
    rw [Tx.get_bind] at hadd
    cases hclash : unique "discovery_findings.key" DiscoveryFinding.key f.key s.work.main.findings with
    | some x => simp [hclash] at hadd
    | none =>
      simp only [hclash, Tx.modify_run, Prod.mk.injEq] at hadd
      obtain ⟨-, rfl⟩ := hadd
      exact ⟨_, f, Table.get_insert_next _ f, (findingOf_key hf).2⟩
  | some q =>
    obtain ⟨hget, hkey⟩ := oneOrNone_some hfound
    obtain ⟨f, s₂, hf, h⟩ := Tx.bind_returns.1 h
    rw [Tx.ofExcept_run, Prod.mk.injEq] at hf
    obtain ⟨-, rfl⟩ := hf
    obtain ⟨u, s₃, hset, h⟩ := Tx.bind_returns.1 h
    obtain ⟨-, rfl⟩ := Prod.mk.inj h
    unfold onMain setFinding at hset
    simp only [Tx.modify_run, Prod.mk.injEq] at hset
    obtain ⟨-, rfl⟩ := hset
    refine ⟨q.1, { q.2 with lastSeen := env.now }, ?_, of_decide_eq_true hkey⟩
    simp [Table.get_update_self, hget]

/-- an issuance that was gone through, of a certificate that is not known, has a finding -/
theorem watch_settles {seen : Seen} (h : watch o env name actor iss s = (.ok seen, s')) (hlists : Lists o env iss serial)
    (hknown : known s.work.main.db serial = false) : HasFinding s'.work (unknownKey serial) := by
  obtain ⟨⟨notAfter, hnotAfter, hunexpired⟩, cert, hcert, hserial⟩ := hlists
  unfold watch at h
  rw [hnotAfter, hcert] at h
  change (if notAfter < env.now then _ else _ : S Seen) s = _ at h
  rw [if_neg (not_lt.2 hunexpired)] at h
  change (Tx.ofExcept (serialOf env iss cert) >>= _) s = _ at h
  rw [hserial] at h
  change (if known s.work.main.db serial then _ else _ : S Seen) s = _ at h
  rw [hknown] at h
  obtain ⟨u, s₁, -, h⟩ := Tx.bind_returns.1 h
  exact report_settles h

theorem watchAll_settles {items : List Json} {seen : List Seen} (h : watchAll o env name actor items s = (.ok seen, s'))
    (hiss : iss ∈ items) (hlists : Lists o env iss serial) (hknown : known s.work.main.db serial = false) :
    HasFinding s'.work (unknownKey serial) := by
  induction items generalizing s seen with
  | nil => cases hiss
  | cons x rest ih =>
    obtain ⟨a, s₁, hx, h⟩ := Tx.bind_returns.1 h
    obtain ⟨others, s₂, hrest, h⟩ := Tx.bind_returns.1 h
    obtain ⟨-, rfl⟩ := Prod.mk.inj h
    have hfirst : Watched o env name [x] s.work s₁.work := watched_of_run (calm_watch List.mem_cons_self) hx
    rcases List.mem_cons.1 hiss with rfl | hiss
    · have hhas := watch_settles hx hlists hknown
      have hw : Watched o env name rest s₁.work s₂.work := watched_of_run (calm_watchAll fun _ h => h) hrest
      exact hw.hasFinding hhas
    · exact ih hrest hiss (by rw [hfirst.known, hknown])

theorem recordRun_frame {runId : ℕ} {r : Except Err Unit} (h : recordRun env actor name runId s = (r, s')) :
    s'.work.main.findings = s.work.main.findings ∧ s'.work.runs = s.work.runs := by
  unfold recordRun at h
  rw [Tx.get_bind] at h
  cases hrun : s.work.runs.get runId with
  | none =>
    rw [hrun] at h
    obtain ⟨-, rfl⟩ := Prod.mk.inj h
    exact ⟨rfl, rfl⟩
  | some run =>
    rw [hrun] at h
    obtain ⟨-, rfl⟩ := Prod.mk.inj h
    exact ⟨rfl, rfl⟩

/-- a run recorded as ok has collected everything -/
theorem runSource_ok {src : Yield} {id : ℕ} (h : runSource o env name actor src s = (.ok id, s')) {r : DiscoveryRun}
    (hr : s'.work.runs.get id = some r) (hstatus : r.status = .ok) :
    ∃ begun mid, Watched o env name [] s.work begun.work ∧ collect o env name actor id src begun = (.ok (), mid) ∧
      s'.work.main.findings = mid.work.main.findings := by
  unfold runSource at h
  rw [Tx.get_bind] at h
  obtain ⟨u, begun, hbegun, h⟩ := Tx.bind_returns.1 h
  have hfirst : Watched o env name [] s.work begun.work := watched_of_run (calm_addRun _ rfl rfl) hbegun
  obtain ⟨result, mid, hcollect, h⟩ := Tx.bind_returns.1 h
  obtain ⟨hresult, hmid⟩ := Prod.mk.inj hcollect
  obtain ⟨u', s₁, hnoted, h⟩ := Tx.bind_returns.1 h
  obtain ⟨u'', s₂, hset, h⟩ := Tx.bind_returns.1 h
  obtain ⟨-, rfl⟩ := Prod.mk.inj hset
  obtain ⟨done, s₃, hrecord, h⟩ := Tx.bind_returns.1 h
  obtain ⟨hid, rfl⟩ := Prod.mk.inj h
  obtain rfl := Except.ok.inj hid
  obtain ⟨hfindings, hruns⟩ := recordRun_frame hrecord
  cases result with
  | error e =>
    -- the run would be marked as failed
    change failed o _ e mid = _ at hnoted
    unfold failed at hnoted
    by_cases hsurvives : survives e = true
    · rw [if_pos hsurvives] at hnoted
      obtain ⟨-, rfl⟩ := Prod.mk.inj hnoted
      rw [hruns] at hr
      dsimp only at hr
      rw [Table.get_update_self, Table.get_update_self] at hr
      obtain ⟨r₁, hr₁, rfl⟩ := Option.map_eq_some_iff.1 hr
      obtain ⟨r₂, -, rfl⟩ := Option.map_eq_some_iff.1 hr₁
      cases hstatus
    · rw [if_neg hsurvives] at hnoted
      cases hnoted
  | ok u =>
    obtain ⟨-, rfl⟩ := Prod.mk.inj hnoted
    refine ⟨begun, mid, hfirst, ?_, hfindings⟩
    rw [← hmid, ← Except.ok.inj hresult]

/-- the issuances of a run recorded as ok -/
theorem runSource_settles {c : Collected Json} {id : ℕ} (h : runSource o env name actor (.ct c) s = (.ok id, s'))
    {r : DiscoveryRun} (hr : s'.work.runs.get id = some r) (hstatus : r.status = .ok) (hiss : iss ∈ c.items)
    (hlists : Lists o env iss serial) (hknown : known s.work.main.db serial = false) :
    HasFinding s'.work (unknownKey serial) := by
  obtain ⟨begun, mid, hbegun, hcollect, hfindings⟩ := runSource_ok h hr hstatus
  unfold collect runCt at hcollect
  obtain ⟨counts, s₁, hct, hset⟩ := Tx.bind_returns.1 hcollect
  obtain ⟨seen, s₂, hwatch, hct⟩ := Tx.bind_returns.1 hct
  obtain ⟨u, s₃, hending, hct⟩ := Tx.bind_returns.1 hct
  obtain ⟨-, rfl⟩ := Prod.mk.inj hending
  obtain ⟨-, rfl⟩ := Prod.mk.inj hct
  obtain ⟨-, rfl⟩ := Prod.mk.inj hset
  obtain ⟨i, f, hf, hkey⟩ := watchAll_settles hwatch hiss hlists (by rw [hbegun.known, hknown])
  exact ⟨i, f, by rw [hfindings]; exact hf, hkey⟩

end Settles

/-! ## Events -/

inductive Event where
  /-- the turn of a source in a cycle of the scheduler that began at `now` -/
  | scheduled (now : ℤ) (s : Source)
  /-- the route that runs a source -/
  | manual (actor : String) (s : Source)
  /-- any other transaction -/
  | other (change : Store → Store)

def step (o : Outside) (d : Store) : Event → Store
  | .scheduled now s => if isDue d now s then (Tx.transact (runSource o s.env s.name "system" s.yields) d).2 else d
  | .manual actor s => (Tx.transact (runSource o s.env s.name actor s.yields) d).2
  | .other change => change d

/-- the event runs this source -/
inductive Asks (d : Store) : Event → String → Source → Prop where
  | scheduled {now : ℤ} {s : Source} (h : isDue d now s = true) : Asks d (.scheduled now s) "system" s
  | manual (actor : String) (s : Source) : Asks d (.manual actor s) actor s

/-- other transactions delete no finding and no run, and add no finding of this kind -/
structure Quiet (d d' : Store) : Prop where
  unique : ByKey d.main.findings → ByKey d'.main.findings
  old : ∀ i f, d.main.findings.get i = some f → ∃ g, d'.main.findings.get i = some g ∧ g.kind = f.kind ∧ g.key = f.key
  new : ∀ i g, d.main.findings.get i = none → d'.main.findings.get i = some g → g.kind ≠ UNKNOWN_PUBLIC_CERT
  runs : d'.runs = d.runs

def Allowed (d : Store) : Event → Prop
  | .other change => Quiet d (change d)
  | _ => True

/-- the run of the source was recorded as ok -/
def RanOk (o : Outside) (d : Store) (actor : String) (s : Source) : Prop :=
  ∃ id s' r, runSource o s.env s.name actor s.yields ⟨d, d⟩ = (.ok id, s') ∧ s'.work.runs.get id = some r ∧ r.status = .ok

section Runs

variable {o : Outside} {d : Store} {e : Event} {actor : String} {s : Source}

theorem Quiet.refl (d : Store) : Quiet d d where
  unique := fun h => h
  old := fun _ f hf => ⟨f, hf, rfl, rfl⟩
  new := by
    intro i g hnone hg
    rw [hnone] at hg
    cases hg
  runs := rfl

theorem watched_transact (actor : String) (s : Source) :
    Watched o s.env s.name (listed s.yields) d (Tx.transact (runSource o s.env s.name actor s.yields) d).2 :=
  watched_of_reaches (Tx.transact_does (Tx.Calm.does (calm_runSource s.yields)) d)

theorem asks_step (h : Asks d e actor s) :
    step o d e = (Tx.transact (runSource o s.env s.name actor s.yields) d).2 := by
  cases h with
  | scheduled hdue => exact if_pos hdue
  | manual => rfl

/-- what one event does: a source is run, or nothing here is about it -/
theorem step_cases (h : Allowed d e) :
    (∃ actor s, Asks d e actor s ∧ Watched o s.env s.name (listed s.yields) d (step o d e)) ∨ Quiet d (step o d e) := by
  cases e with
  | scheduled now s =>
    by_cases hdue : isDue d now s = true
    · have hasks : Asks d (.scheduled now s) "system" s := .scheduled hdue
      refine Or.inl ⟨"system", s, hasks, ?_⟩
      rw [asks_step hasks]
      exact watched_transact "system" s
    · refine Or.inr ?_
      show Quiet d (if isDue d now s then _ else d)
      rw [if_neg hdue]
      exact .refl d
  | manual actor s => exact Or.inl ⟨actor, s, .manual actor s, watched_transact actor s⟩
  | other change => exact Or.inr h

theorem step_byKey (h : Allowed d e) (hd : ByKey d.main.findings) : ByKey (step o d e).main.findings := by
  rcases step_cases (o := o) h with ⟨actor, s, -, hw⟩ | hq
  · exact hw.unique hd
  · exact hq.unique hd

theorem step_hasFinding (h : Allowed d e) {key : String} (hd : HasFinding d key) : HasFinding (step o d e) key := by
  rcases step_cases (o := o) h with ⟨actor, s, -, hw⟩ | hq
  · exact hw.hasFinding hd
  · obtain ⟨i, f, hf, hkey⟩ := hd
    obtain ⟨g, hg, -, hsame⟩ := hq.old i f hf
    exact ⟨i, g, hg, hsame.trans hkey⟩

/-- **What Certificate Transparency shows is found.** Where a run of a CT source is recorded as ok, each unexpired issuance it
was given of a certificate that was neither issued here nor imported has one finding, at every later point. -/
theorem listed_certificates_found (hunique : ByKey d.main.findings) {before after : List Event}
    (hallowed : Along (step o) Allowed d (before ++ e :: after)) (hasks : Asks (run (step o) d before) e actor s)
    (hok : RanOk o (run (step o) d before) actor s) {c : Collected Json} (hct : s.yields = .ct c) {iss : Json}
    (hiss : iss ∈ c.items) {serial : String} (hlists : Lists o s.env iss serial)
    (hunknown : known (run (step o) d before).main.db serial = false) :
    ∃! i, ∃ f, (run (step o) d (before ++ e :: after)).main.findings.get i = some f ∧ f.key = unknownKey serial := by
  obtain ⟨hbefore, he, hafter⟩ := (along_append _ _ _).1 hallowed
  have hfinal := run_inv (I := fun a => ByKey a.main.findings) (fun a b ha hb => step_byKey hb ha) hunique hallowed
  have hhas : HasFinding (run (step o) d (before ++ e :: after)) (unknownKey serial) := by
    rw [run_append, run_cons]
    refine run_inv (I := fun a => HasFinding a (unknownKey serial)) (fun a b ha hb => step_hasFinding hb ha) ?_ hafter
    obtain ⟨id, s', r, hrun, hr, hstatus⟩ := hok
    rw [asks_step hasks, Tx.transact_snd_of_run hrun]
    rw [hct] at hrun
    exact runSource_settles hrun hr hstatus hiss hlists hunknown
  obtain ⟨i, f, hf, hkey⟩ := hhas
  refine ⟨i, ⟨f, hf, hkey⟩, ?_⟩
  rintro j ⟨g, hg, hsame⟩
  exact hfinal j i g f hg hf (hsame.trans hkey.symm)

/-- the grounds of a finding: a source was given an unexpired issuance of the certificate, which was not known -/
structure Grounds (o : Outside) (d : Store) (before : List Event) (e : Event) (f : DiscoveryFinding) : Prop where
  grounds : ∃ actor s c iss serial, Asks (run (step o) d before) e actor s ∧ s.yields = .ct c ∧ iss ∈ c.items ∧
    Lists o s.env iss serial ∧ known (run (step o) d before).main.db serial = false ∧ f.key = unknownKey serial

/-- of one source's runs, the later ones began later -/
def InOrder (d : Store) : Prop := ∀ i j a b, d.runs.get i = some a → d.runs.get j = some b → a.source = b.source → i ≤ j →
  a.startedAt ≤ b.startedAt

/-- the clock has not gone back since the source ran -/
def Clocked (d : Store) (s : Source) : Prop := ∀ i r, d.runs.get i = some r → r.source = s.name → r.startedAt ≤ s.env.now

/-- and a turn comes after the beginning of its cycle -/
def Timed (d : Store) : Event → Prop
  | .scheduled now s => now ≤ s.env.now ∧ Clocked d s
  | .manual _ s => Clocked d s
  | .other change => Quiet d (change d)

theorem Timed.allowed (h : Timed d e) : Allowed d e := by
  cases e with
  | scheduled now s => trivial
  | manual actor s => trivial
  | other change => exact h

theorem Timed.clocked (h : Timed d e) (hasks : Asks d e actor s) : Clocked d s := by
  cases hasks with
  | scheduled => exact h.2
  | manual => exact h

theorem step_inOrder (h : Timed d e) (hd : InOrder d) : InOrder (step o d e) := by
  cases hasks : e with
  | other change =>
    subst hasks
    intro i j a b ha hb
    have hruns : (change d).runs = d.runs := Quiet.runs h
    change (change d).runs.get i = some a at ha
    change (change d).runs.get j = some b at hb
    rw [hruns] at ha hb
    exact hd i j a b ha hb
  | _ =>
    rcases step_cases (o := o) h.allowed with ⟨actor, s, hruns, hw⟩ | hq
    · have hclock := h.clocked hruns
      rw [← hasks]
      intro i j a b ha hb hsource hij
      cases hi : d.runs.get i with
      | none =>
        -- two new rows, or a new one before an old one
        obtain ⟨hnext, hname, hstarted⟩ := hw.started i a hi ha
        cases hj : d.runs.get j with
        | none => exact (hstarted.trans (hw.started j b hj hb).2.2.symm).le
        | some b' =>
          have hlt := Table.get_lt hj
          omega
      | some a' =>
        obtain ⟨a'', ha'', hsame, hstart⟩ := hw.runs i a' hi
        obtain rfl := Option.some.inj (ha.symm.trans ha'')
        cases hj : d.runs.get j with
        | none =>
          obtain ⟨-, hname, hstarted⟩ := hw.started j b hj hb
          rw [hstart, hstarted]
          exact hclock i a' hi (hsame.symm.trans (hsource.trans hname))
        | some b' =>
          obtain ⟨b'', hb'', hsame', hstart'⟩ := hw.runs j b' hj
          obtain rfl := Option.some.inj (hb.symm.trans hb'')
          rw [hstart, hstart']
          exact hd i j a' b' hi hj (hsame.symm.trans (hsource.trans hsame')) hij
    · intro i j a b ha hb
      rw [← hasks, hq.runs] at ha hb
      exact hd i j a b ha hb

/-- **The scheduler keeps the intervals**: when a cycle runs a source, every earlier run of it, by whomever, began at least the
source's interval before. -/
theorem scheduled_spaced (hd : InOrder d) {before : List Event} (hbefore : Along (step o) Timed d before) {now : ℤ}
    (hturn : Timed (run (step o) d before) (.scheduled now s)) (hdue : isDue (run (step o) d before) now s = true) {i : ℕ}
    {r : DiscoveryRun} (hr : (run (step o) d before).runs.get i = some r) (hsource : r.source = s.name) :
    s.every ≤ s.env.now - r.startedAt := by
  have horder := run_inv (fun a b ha hb => step_inOrder hb ha) hd hbefore
  generalize run (step o) d before = mid at hturn hdue hr horder
  unfold isDue at hdue
  cases hlast : lastRun mid s.name with
  | none =>
    -- there is no run of the source
    have hnil := List.getLast?_eq_none_iff.1 hlast
    have hmem : (i, r) ∈ mid.runs.all fun r => r.source = s.name := Table.mem_all.2 ⟨hr, decide_eq_true hsource⟩
    rw [hnil] at hmem
    cases hmem
  | some q =>
    rw [hlast] at hdue
    obtain ⟨hget, hname, hnewest⟩ := Table.last_all hlast
    have hle : r.startedAt ≤ q.2.startedAt :=
      horder i q.1 r q.2 hr hget (hsource.trans (of_decide_eq_true hname).symm) (hnewest i r hr (decide_eq_true hsource))
    have hnow := hturn.1
    simp only [Bool.not_eq_eq_eq_not, Bool.not_true, decide_eq_false_iff_not, not_lt] at hdue
    omega

/-- a source that is not due stays so while sources are run after `now` -/
theorem notDue_watched {now : ℤ} {d' : Store} {env : Env} {name : String} {items : List Json}
    (hw : Watched o env name items d d') (hnow : now ≤ env.now) (hevery : 0 < s.every) (hd : isDue d now s = false) :
    isDue d' now s = false := by
  unfold isDue at hd ⊢
  cases hlast : lastRun d s.name with
  | none => simp [hlast] at hd
  | some q =>
    obtain ⟨hget, hname, hnewest⟩ := Table.last_all hlast
    obtain ⟨q', hq', hsame, hstart⟩ := hw.runs q.1 q.2 hget
    have hsource : q'.source = s.name := hsame.trans (of_decide_eq_true hname)
    cases hlast' : lastRun d' s.name with
    | none =>
      have hnil := List.getLast?_eq_none_iff.1 hlast'
      have hmem : (q.1, q') ∈ d'.runs.all fun r => r.source = s.name := Table.mem_all.2 ⟨hq', decide_eq_true hsource⟩
      rw [hnil] at hmem
      cases hmem
    | some p =>
      obtain ⟨hget', hname', hnewest'⟩ := Table.last_all hlast'
      have hle := hnewest' q.1 q' hq' (decide_eq_true hsource)
      cases hp : d.runs.get p.1 with
      | none =>
        -- the newest run began in this cycle
        have hstarted := (hw.started p.1 p.2 hp hget').2.2
        simp only [Bool.not_eq_eq_eq_not, Bool.not_false, decide_eq_true_eq]
        omega
      | some r =>
        obtain ⟨r', hr', hsame', hstart'⟩ := hw.runs p.1 r hp
        obtain rfl := Option.some.inj (hget'.symm.trans hr')
        have hge := hnewest p.1 r hp (decide_eq_true (hsame'.symm.trans (of_decide_eq_true hname')))
        have hid : p.1 = q.1 := le_antisymm hge hle
        rw [hid, hget] at hp
        obtain rfl := Option.some.inj hp
        rw [hlast] at hd
        simpa only [hstart'] using hd

/-- a run that is recorded is the newest of its source -/
theorem notDue_ran {now : ℤ} {id : ℕ} {s' : Session Store} (hrun : runSource o s.env s.name actor s.yields ⟨d, d⟩ = (.ok id, s'))
    (hnow : now ≤ s.env.now) (hevery : 0 < s.every) : isDue s'.work now s = false := by
  have hw := watched_of_run (calm_runSource s.yields) hrun
  have hhas : ∃ r, s'.work.runs.get d.runs.next = some r ∧ r.source = s.name := by
    unfold runSource at hrun
    rw [Tx.get_bind] at hrun
    obtain ⟨u, begun, hbegun, hrun⟩ := Tx.bind_returns.1 hrun
    obtain ⟨-, rfl⟩ := Prod.mk.inj hbegun
    have hrest : Tx.Calm (Watched o s.env s.name (listed s.yields)) (do
        let result ← Tx.attempt (collect o s.env s.name actor d.runs.next s.yields)
        noted o d.runs.next result
        setRun d.runs.next fun r => { r with finishedAt := some s.env.now }
        recordRun s.env actor s.name d.runs.next
        pure d.runs.next) := by
      refine Tx.calm_bind (fun s' => calm_collect _ s.yields s') fun result => ?_
      refine Tx.calm_bind (calm_noted _ result) fun _ => ?_
      refine Tx.calm_bind (calm_setRun _ (fun _ => rfl) fun _ => rfl) fun _ => ?_
      exact Tx.calm_bind (calm_recordRun _) fun _ => Tx.calm_pure _
    obtain ⟨r, hr, hsource, -⟩ := (watched_of_run hrest hrun).runs d.runs.next _ (Table.get_insert_next _ _)
    exact ⟨r, hr, hsource⟩
  obtain ⟨r, hr, hsource⟩ := hhas
  unfold isDue
  cases hlast : lastRun s'.work s.name with
  | none =>
    have hnil := List.getLast?_eq_none_iff.1 hlast
    have hmem : (d.runs.next, r) ∈ s'.work.runs.all fun r => r.source = s.name := Table.mem_all.2 ⟨hr, decide_eq_true hsource⟩
    rw [hnil] at hmem
    cases hmem
  | some q =>
    obtain ⟨hget, -, hnewest⟩ := Table.last_all hlast
    have hle := hnewest _ r hr (decide_eq_true hsource)
    have hnone : d.runs.get q.1 = none := by
      by_contra hsome
      obtain ⟨r', hr'⟩ := Option.ne_none_iff_exists'.1 hsome
      have hlt := Table.get_lt hr'
      omega
    have hstarted := (hw.started q.1 q.2 hnone hget).2.2
    simp only [Bool.not_eq_eq_eq_not, Bool.not_false, decide_eq_true_eq]
    omega

/-- a cycle, over a session that has just committed: turns of its sources, up to the first that raises -/
theorem runDue_turns (now : ℤ) (sources : List Source) (d : Store) :
    (∃ k, (runDue o now sources ⟨d, d⟩).2.committed = run (step o) d ((sources.take k).map (Event.scheduled now))) ∧
      ∀ runs s', runDue o now sources ⟨d, d⟩ = (.ok runs, s') →
        s' = ⟨run (step o) d (sources.map (Event.scheduled now)), run (step o) d (sources.map (Event.scheduled now))⟩ := by
  induction sources generalizing d with
  | nil =>
    refine ⟨⟨0, rfl⟩, fun runs s' h => ?_⟩
    obtain ⟨-, rfl⟩ := Prod.mk.inj h
    rfl
  | cons s rest ih =>
    unfold runDue
    rw [Tx.get_bind]
    by_cases hdue : isDue d now s = true
    · rw [if_pos hdue]
      rcases hrun : runSource o s.env s.name "system" s.yields ⟨d, d⟩ with ⟨e | id, s₁⟩
      · -- the transaction of this source is rolled back
        have hcalm : Tx.CalmAt (Watched o s.env s.name (listed s.yields)) ⟨d, d⟩ (runSource o s.env s.name "system" s.yields) :=
          calm_runSource s.yields ⟨d, d⟩
        have hcommitted := hcalm.1
        rw [hrun] at hcommitted
        refine ⟨⟨0, ?_⟩, fun runs s' h => ?_⟩
        · rw [Tx.bind_error hrun]
          exact hcommitted
        · rw [Tx.bind_error hrun] at h
          cases h
      · have hstep : step o d (.scheduled now s) = s₁.work := by
          rw [asks_step (.scheduled hdue), Tx.transact_snd_of_run hrun]
        rw [Tx.bind_ok hrun]
        change (∃ k, ((runDue o now rest >>= fun runs => pure (id :: runs)) ⟨s₁.work, s₁.work⟩).2.committed = _) ∧
          ∀ runs s', (runDue o now rest >>= fun runs => pure (id :: runs)) ⟨s₁.work, s₁.work⟩ = _ → _
        obtain ⟨⟨k, hk⟩, hall⟩ := ih s₁.work
        rcases hrest : runDue o now rest ⟨s₁.work, s₁.work⟩ with ⟨e | runs, s₂⟩
        · rw [hrest] at hk
          rw [Tx.bind_error hrest]
          refine ⟨⟨k + 1, ?_⟩, fun runs s' h => by cases h⟩
          rw [List.take_succ_cons, List.map_cons, run_cons, hstep]
          exact hk
        · rw [hrest] at hk
          rw [Tx.bind_ok hrest]
          refine ⟨⟨k + 1, ?_⟩, fun runs' s' h => ?_⟩
          · rw [List.take_succ_cons, List.map_cons, run_cons, hstep]
            exact hk
          · obtain ⟨-, rfl⟩ := Prod.mk.inj h
            rw [List.map_cons, run_cons, hstep]
            exact hall runs _ hrest
    · rw [if_neg hdue]
      have hstep : step o d (.scheduled now s) = d := if_neg hdue
      obtain ⟨⟨k, hk⟩, hall⟩ := ih d
      refine ⟨⟨k + 1, ?_⟩, fun runs s' h => ?_⟩
      · rw [List.take_succ_cons, List.map_cons, run_cons, hstep]
        exact hk
      · rw [List.map_cons, run_cons, hstep]
        exact hall runs s' h

end Runs

/-! ## A small source -/

def smallOutside : Outside where
  fromisoformat _ := some (some 100000)
  loadDer _ := .ok none
  poisoned _ := .ok false
  describe _ := ""

/-- an issuance without its certificate -/
def smallIssuance : Json :=
  .obj [("id", .str "7"), ("not_after", .str "2030-01-01T00:00:00Z"), ("serial", .str "0A"), ("dns_names", .arr [])]

def smallSource : Source := ⟨"ct-public", 86400, demoEnv, .ct ⟨[smallIssuance], none⟩⟩

def smallStore : Store := ⟨⟨Db.empty, .empty, .empty⟩, .empty⟩

theorem small_lists : Lists smallOutside demoEnv smallIssuance "a" :=
  ⟨⟨100000, rfl, by decide⟩, none, rfl, rfl⟩

theorem small_ranOk : RanOk smallOutside smallStore "olga" smallSource := ⟨_, _, _, rfl, rfl, rfl⟩

theorem small_unique : ByKey smallStore.main.findings := by
  intro i j a b ha
  cases ha

/-- a run by hand, and a cycle within the day -/
def smallEvents : List Event := [.manual "olga" smallSource, .scheduled 2000 smallSource]

theorem small_allowed : Along (step smallOutside) Allowed smallStore smallEvents :=
  (along_cons _ _ _).2 ⟨trivial, (along_cons _ _ _).2 ⟨trivial, along_nil _⟩⟩

theorem small_found : ∃! i, ∃ f, (run (step smallOutside) smallStore smallEvents).main.findings.get i = some f ∧
    f.key = unknownKey "a" :=
  @listed_certificates_found smallOutside smallStore (.manual "olga" smallSource) "olga" smallSource small_unique []
    [.scheduled 2000 smallSource] small_allowed (.manual "olga" smallSource) small_ranOk ⟨[smallIssuance], none⟩ rfl smallIssuance
    List.mem_cons_self "a" small_lists rfl

theorem small_finding : ∃ f, (run (step smallOutside) smallStore [.manual "olga" smallSource]).main.findings.get 1 = some f ∧
    f.kind = UNKNOWN_PUBLIC_CERT := ⟨_, rfl, rfl⟩

/-- the source, a day later -/
def dueSource : Source := { smallSource with env := { demoEnv with now := 90000 } }

theorem small_run : ∃ r, (run (step smallOutside) smallStore [.manual "olga" smallSource]).runs.get 1 = some r ∧
    r.source = dueSource.name ∧ r.startedAt = 1000 := ⟨_, rfl, rfl, rfl⟩

theorem small_clocked : Clocked (run (step smallOutside) smallStore [.manual "olga" smallSource]) dueSource := by
  have hrows : (run (step smallOutside) smallStore [.manual "olga" smallSource]).runs.rows.map (fun q => q.2.startedAt) = [1000] := rfl
  intro i r hr _
  have hmem := List.mem_map_of_mem (f := fun q => q.2.startedAt) (Table.mem_rows.2 hr)
  rw [hrows] at hmem
  rw [List.mem_singleton.1 hmem]
  decide

theorem small_spaced : ∃ r : DiscoveryRun, r.startedAt = 1000 ∧ dueSource.every ≤ dueSource.env.now - r.startedAt := by
  obtain ⟨r, hr, hsource, hstarted⟩ := small_run
  refine ⟨r, hstarted, ?_⟩
  exact @scheduled_spaced smallOutside smallStore dueSource (fun i j a b ha => by cases ha) [.manual "olga" smallSource]
    ((along_cons _ _ _).2 ⟨fun i r hr _ => (by cases hr), along_nil _⟩) 90000 ⟨le_refl _, small_clocked⟩ rfl 1 r hr hsource

end Certadillo.Sources
