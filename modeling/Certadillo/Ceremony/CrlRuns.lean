/-
Importing CRLs of an offline CA: revocations and CRLs at the ceremony, imports at the server, in any order.

Every CRL of the directory lists the whole log of revocations under the next number, and the server takes only CRLs with a
higher number than its own. What is lost, repeated or made up on the way changes nothing.

- `importCrl_returns`, `importCrl_raises`: what an import leaves.
- `crlInv_step`: the CRLs of the directory are numbered copies of a growing set, and the server's is one of them.
- `imports_never_roll_back`: the law over runs.

Premise: what verifies with the root's key was signed by the ceremony.
-/
import Certadillo.Ceremony.Offline
import Certadillo.Lib.Snapshots
import Certadillo.Lib.Run

namespace Certadillo.Ceremony

open Integrity Policy Py Machine Snapshots

/-! ## One import -/

section Import

variable {lib : CrlLib} {env : Env} {ca : CertificateAuthority} {caName actor : String} {data : Bytes} {s s' : Session Db}

/-- a CRL that the CA takes -/
structure Taken (lib : CrlLib) (env : Env) (ca : CertificateAuthority) (data : Bytes) (crl : SignedCrl) (number next : ℤ) :
    Prop where
  isOffline : ca.signerType = offline
  loaded : lib.load data = .ok crl
  signed : ∃ cert pub, CAService.loadPem env ca.certPem = .ok cert ∧ crl.issuer = lib.subject cert ∧
    cert.tbs.publicKey = some pub ∧ lib.isSignatureValid crl pub = true
  numbered : crl.number = some number
  newer : ca.crlNumber < number
  dated : crl.nextUpdate = some next
  current : env.now < next

theorem checkCrl_ok {crl : SignedCrl} {number next : ℤ} (h : checkCrl lib env ca caName data = .ok (crl, number, next)) :
    Taken lib env ca data crl number next := by
  unfold checkCrl at h
  split at h
  · cases h
  · next hoffline =>
    obtain ⟨crl', hload, h₁⟩ := except_bind_ok.1 h
    obtain ⟨cert, hcert, h₂⟩ := except_bind_ok.1 h₁
    dsimp only at h₂
    split at h₂
    · cases h₂
    · next hissuer =>
      split at h₂
      · cases h₂
      · next pub hpub =>
        split at h₂
        · cases h₂
        · next hvalid =>
          split at h₂
          · cases h₂
          · next n hn =>
            split at h₂
            · cases h₂
            · next hnewer =>
              split at h₂
              · cases h₂
              · next m hm =>
                split at h₂
                · cases h₂
                · next hcurrent =>
                  obtain ⟨rfl, hrest⟩ := Prod.mk.inj (Except.ok.inj h₂)
                  obtain ⟨rfl, rfl⟩ := Prod.mk.inj hrest
                  exact
                    { isOffline := not_not.1 hoffline
                      loaded := libCall_ok hload
                      signed := ⟨cert, pub, hcert, not_not.1 hissuer, hpub, by simpa using hvalid⟩
                      numbered := hn
                      newer := not_le.1 hnewer
                      dated := hm
                      current := not_le.1 hcurrent }

/-- an import that is accepted changes the CA's row, and records it -/
theorem importCrl_returns {out : List (String × Json)} (h : importCrl lib env caName data actor s = (.ok out, s')) :
    ∃ id ca crl number next, CAService.get s.work caName = .ok (id, ca) ∧ Taken lib env ca data crl number next ∧
      s'.work.cas = s.work.cas.update id (stored crl number next) := by
  unfold importCrl at h
  rw [Tx.get_bind] at h
  obtain ⟨⟨id, ca⟩, s₁, hget, h₁⟩ := Tx.bind_returns.1 h
  obtain ⟨hrow, rfl⟩ := Prod.mk.inj hget
  obtain ⟨⟨crl, number, next⟩, s₂, hcheck, h₂⟩ := Tx.bind_returns.1 h₁
  obtain ⟨htaken, rfl⟩ := Prod.mk.inj hcheck
  obtain ⟨u, s₃, hset, h₃⟩ := Tx.bind_returns.1 h₂
  obtain ⟨-, rfl⟩ := Prod.mk.inj hset
  obtain ⟨v, s₄, hrecord, h₄⟩ := Tx.bind_returns.1 h₃
  obtain ⟨-, rfl⟩ := Prod.mk.inj hrecord
  obtain ⟨-, rfl⟩ := Prod.mk.inj h₄
  exact ⟨id, ca, crl, number, next, hrow, checkCrl_ok htaken, rfl⟩

/-- one that raises writes nothing, not even to its session -/
theorem importCrl_raises {e : Err} (h : importCrl lib env caName data actor s = (.error e, s')) : s' = s := by
  unfold importCrl at h
  rw [Tx.get_bind] at h
  cases hget : CAService.get s.work caName with
  | error e' =>
    rw [hget] at h
    exact (Prod.mk.inj h).2.symm
  | ok p =>
    rw [hget, lift_ok_bind] at h
    dsimp only at h
    cases hcheck : checkCrl lib env p.2 caName data with
    | error e' =>
      rw [hcheck] at h
      exact (Prod.mk.inj h).2.symm
    | ok taken =>
      rw [hcheck] at h
      cases h

end Import

/-! ## What a CRL lists -/

def serials (entries : List CrlEntry) : Set ℕ := {n | ∃ e ∈ entries, e.serial = n}

/-- the serials of the log of revocations -/
def logged (dir : Dir) : Set ℕ := {n | ∃ r ∈ dir.revoked, intOfHex r.serial = .ok (n : ℤ)}

def snapshot (crl : SignedCrl) : Snapshot ℕ := ⟨crl.number.getD 0, serials crl.entries⟩

/-- the revoked serials the server publishes for an offline CA -/
def published (ca : CertificateAuthority) : Set ℕ := {n | ∃ crl, currentCrl ca = .ok crl ∧ n ∈ serials crl.entries}

theorem published_none {ca : CertificateAuthority} (h : ca.crlDer = none) : published ca = ∅ := by
  refine Set.eq_empty_of_forall_notMem fun n hn => ?_
  obtain ⟨crl, hcrl, -⟩ := hn
  unfold currentCrl at hcrl
  rw [h] at hcrl
  cases hcrl

theorem published_some {ca : CertificateAuthority} {crl : Crl} (h : ca.crlDer = some crl) :
    published ca = serials crl.entries := by
  have hcurrent : currentCrl ca = .ok crl := by
    unfold currentCrl
    rw [h]
  ext n
  constructor
  · rintro ⟨crl', hcrl', hn⟩
    obtain rfl := Except.ok.inj (hcurrent.symm.trans hcrl')
    exact hn
  · intro hn
    exact ⟨crl, hcurrent, hn⟩

theorem revokedEntry_serial {r : Revoked} {e : CrlEntry} (h : revokedEntry r = .ok e) :
    intOfHex r.serial = .ok (e.serial : ℤ) := by
  unfold revokedEntry at h
  obtain ⟨n, hn, h⟩ := except_bind_ok.1 h
  split_ifs at h with hpos hbig hreason
  cases h
  have hnonneg : 0 ≤ n := by omega
  rw [hn, Int.toNat_of_nonneg hnonneg]

/-- the entries built from a log have its serials -/
theorem serials_of_log {dir : Dir} {entries : List CrlEntry} (h : dir.revoked.mapM revokedEntry = .ok entries) :
    serials entries = logged dir := by
  ext n
  constructor
  · rintro ⟨e, he, rfl⟩
    obtain ⟨r, hr, hentry⟩ := (except_mapM_mem h).1 he
    exact ⟨r, hr, revokedEntry_serial hentry⟩
  · rintro ⟨r, hr, hserial⟩
    obtain ⟨e, he⟩ := except_mapM_returns.1 ⟨entries, h⟩ r hr
    refine ⟨e, (except_mapM_mem h).2 ⟨r, hr, he⟩, ?_⟩
    have hsame := Except.ok.inj ((revokedEntry_serial he).symm.trans hserial)
    exact_mod_cast hsame

/-! ## Runs -/

/-- the server's database, the ceremony's directory and the CRLs it has signed -/
structure St where
  d : Db
  dir : Dir
  crls : List SignedCrl

inductive Op where
  | revoke (now : ℤ) (serialHex reason : String)
  | crl (now : ℤ) (passphrase : String) (days : ℤ) (signature : String)
  | importCrl (now : ℤ) (caName : String) (data : Bytes) (actor : String)

section Runs

variable (lib : CrlLib) (env : Env) (root : Root) (caId : ℕ)

def step (s : Ceremony.St) : Ceremony.Op → Ceremony.St
  | .revoke now serialHex reason =>
    match offlineRevoke { env with now := now } s.dir serialHex reason with
    | .ok dir => { s with dir := dir }
    | .error _ => s
  | .crl now passphrase days signature =>
    match offlineCrl lib root { env with now := now } s.dir passphrase days signature with
    | .ok (crl, dir) => { s with dir := dir, crls := crl :: s.crls }
    | .error _ => s
  | .importCrl now caName data actor =>
    { s with d := (Tx.transact (Ceremony.importCrl lib { env with now := now } caName data actor) s.d).2 }

/-- the CA accepts an import -/
def Accepts (s : Ceremony.St) : Ceremony.Op → Prop
  | .importCrl now caName data actor => (∃ ca, CAService.get s.d caName = .ok (caId, ca)) ∧
      Tx.Returns (Ceremony.importCrl lib { env with now := now } caName data actor) ⟨s.d, s.d⟩
  | _ => False

/-- an accepted import moves the number of the CA's CRL forward, anything else leaves the CA's row, and what the server
publishes does not shrink -/
structure Lawful (s : Ceremony.St) (o : Ceremony.Op) : Prop where
  accepted : Accepts lib env caId s o → ∃ ca ca' crl, s.d.cas.get caId = some ca ∧
    (Ceremony.step lib env root s o).d.cas.get caId = some ca' ∧ ca'.crlDer = some crl ∧ crl.number = ca'.crlNumber ∧
      ca.crlNumber < ca'.crlNumber ∧ ∀ old, ca.crlDer = some old → old.number < crl.number
  refused : ¬ Accepts lib env caId s o → (Ceremony.step lib env root s o).d.cas.get caId = s.d.cas.get caId
  published : ∀ ca ca', s.d.cas.get caId = some ca → (Ceremony.step lib env root s o).d.cas.get caId = some ca' →
    published ca ⊆ published ca'

/-- a signature that verifies with the root's key was made by the ceremony -/
def Unforged (s : Ceremony.St) : Ceremony.Op → Prop
  | .importCrl _ _ data _ => ∀ crl pub, lib.load data = .ok crl → root.cert.tbs.publicKey = some pub →
      lib.isSignatureValid crl pub = true → crl ∈ s.crls
  | _ => True

/-- the CA's certificate has the root's key -/
def HoldsRoot (ca : CertificateAuthority) : Prop :=
  ∀ cert, CAService.loadPem env ca.certPem = .ok cert → cert.tbs.publicKey = root.cert.tbs.publicKey

/-- the directory's CRLs are numbered copies of its log, and the CA's is one of them -/
structure CrlInv (s : Ceremony.St) : Prop where
  ordered : Ordered s.dir.number (logged s.dir) {c | ∃ crl ∈ s.crls, snapshot crl = c}
  row : ∃ ca, s.d.cas.get caId = some ca ∧ HoldsRoot env root ca ∧ ∀ crl, ca.crlDer = some crl →
    crl.number = ca.crlNumber ∧ ∃ c ∈ s.crls, snapshot c = ⟨crl.number, serials crl.entries⟩

/-- a directory that has signed nothing, and a CA that has imported nothing -/
structure Fresh (s : Ceremony.St) : Prop where
  crls : s.crls = []
  row : ∃ ca, s.d.cas.get caId = some ca ∧ HoldsRoot env root ca ∧ ca.crlDer = none

end Runs

section Step

variable {lib : CrlLib} {env : Env} {root : Root} {caId : ℕ} {s : Ceremony.St}

theorem crlInv_start (h : Fresh env root caId s) : CrlInv env root caId s := by
  obtain ⟨ca, hget, hroot, hnone⟩ := h.row
  have hempty : {c | ∃ crl ∈ s.crls, snapshot crl = c} = ∅ := by
    rw [h.crls]
    exact Set.eq_empty_of_forall_notMem fun c ⟨crl, hcrl, _⟩ => by cases hcrl
  refine ⟨?_, ca, hget, hroot, fun crl hcrl => ?_⟩
  · rw [hempty]
    exact ordered_empty _ _
  · rw [hnone] at hcrl
    cases hcrl

/-- a revocation adds to the log -/
theorem offlineRevoke_ok {now : ℤ} {dir dir' : Dir} {serialHex reason : String}
    (h : offlineRevoke { env with now := now } dir serialHex reason = .ok dir') :
    dir'.number = dir.number ∧ ∀ r ∈ dir.revoked, r ∈ dir'.revoked := by
  unfold offlineRevoke at h
  dsimp only at h
  split at h
  · cases h
  · split at h
    · cases h
    · obtain rfl := Except.ok.inj h
      exact ⟨rfl, fun r hr => List.mem_append_left _ hr⟩

/-- a CRL lists the log under the next number -/
theorem offlineCrl_ok {now days : ℤ} {dir dir' : Dir} {passphrase signature : String} {crl : SignedCrl}
    (h : offlineCrl lib root { env with now := now } dir passphrase days signature = .ok (crl, dir')) :
    dir' = { dir with number := dir.number + 1 } ∧ snapshot crl = ⟨dir.number + 1, logged dir⟩ := by
  unfold offlineCrl at h
  obtain ⟨cert, -, h⟩ := except_bind_ok.1 h
  dsimp only at h
  split at h
  · cases h
  · split at h
    · cases h
    · obtain ⟨entries, hentries, h⟩ := except_bind_ok.1 h
      obtain ⟨rfl, rfl⟩ := Prod.mk.inj (Except.ok.inj h)
      refine ⟨rfl, ?_⟩
      show (⟨dir.number + 1, serials entries⟩ : Snapshot ℕ) = _
      rw [serials_of_log hentries]

theorem get_row {d : Db} {name : String} {id : ℕ} {ca : CertificateAuthority} (h : CAService.get d name = .ok (id, ca)) :
    d.cas.get id = some ca := by
  unfold CAService.get at h
  obtain ⟨found, hone, h⟩ := except_bind_ok.1 h
  cases found with
  | none => cases h
  | some p =>
    obtain rfl := Except.ok.inj h
    exact (oneOrNone_some hone).1

/-- what a revocation does: nothing, or it adds to the log -/
theorem revoke_cases (s : Ceremony.St) (now : ℤ) (serialHex reason : String) :
    Ceremony.step lib env root s (.revoke now serialHex reason) = s ∨
    ∃ dir, Ceremony.step lib env root s (.revoke now serialHex reason) = { s with dir := dir } ∧
      dir.number = s.dir.number ∧ ∀ r ∈ s.dir.revoked, r ∈ dir.revoked := by
  cases hdir : offlineRevoke { env with now := now } s.dir serialHex reason with
  | error e =>
    left
    simp only [Ceremony.step, hdir]
  | ok dir =>
    right
    exact ⟨dir, by simp only [Ceremony.step, hdir], offlineRevoke_ok hdir⟩

/-- what signing a CRL does: nothing, or it adds the log under the next number -/
theorem crl_cases (s : Ceremony.St) (now : ℤ) (passphrase : String) (days : ℤ) (signature : String) :
    Ceremony.step lib env root s (.crl now passphrase days signature) = s ∨
    ∃ crl, snapshot crl = ⟨s.dir.number + 1, logged s.dir⟩ ∧ Ceremony.step lib env root s (.crl now passphrase days signature) =
      { s with dir := { s.dir with number := s.dir.number + 1 }, crls := crl :: s.crls } := by
  cases hcrl : offlineCrl lib root { env with now := now } s.dir passphrase days signature with
  | error e =>
    left
    simp only [Ceremony.step, hcrl]
  | ok p =>
    obtain ⟨crl, dir⟩ := p
    obtain ⟨rfl, hsnapshot⟩ := offlineCrl_ok hcrl
    exact Or.inr ⟨crl, hsnapshot, by simp only [Ceremony.step, hcrl]⟩

/-- what an import does to the CA's row: nothing, or it stores a CRL of the ceremony with a higher number -/
theorem import_cases (hinv : CrlInv env root caId s) {now : ℤ} {caName actor : String} {data : Bytes}
    (hunforged : Unforged lib root s (.importCrl now caName data actor)) :
    (¬ Accepts lib env caId s (.importCrl now caName data actor) ∧
      (Ceremony.step lib env root s (.importCrl now caName data actor)).d.cas.get caId = s.d.cas.get caId) ∨
    Accepts lib env caId s (.importCrl now caName data actor) ∧
    ∃ ca c number next, s.d.cas.get caId = some ca ∧ c ∈ s.crls ∧ c.number = some number ∧ ca.crlNumber < number ∧
      (Ceremony.step lib env root s (.importCrl now caName data actor)).d.cas.get caId = some (stored c number next ca) := by
  show _ ∨ _ ∧ ∃ ca c number next, _ ∧ _ ∧ _ ∧ _ ∧
    (Tx.transact (Ceremony.importCrl lib { env with now := now } caName data actor) s.d).2.cas.get caId = _
  cases hrun : Ceremony.importCrl lib { env with now := now } caName data actor ⟨s.d, s.d⟩ with
  | mk out s' =>
    cases out with
    | error e =>
      left
      refine ⟨fun ⟨_, a, s₁, hok⟩ => ?_, ?_⟩
      · rw [hrun] at hok
        cases hok
      · show (Tx.transact (Ceremony.importCrl lib { env with now := now } caName data actor) s.d).2.cas.get caId = _
        rw [Tx.transact_of_raises hrun, importCrl_raises hrun]
    | ok out =>
      obtain ⟨id, ca, crl, number, next, hget, htaken, hcas⟩ := importCrl_returns hrun
      by_cases hid : id = caId
      · subst hid
        right
        obtain ⟨row, hrow, hroot, -⟩ := hinv.row
        obtain rfl := Option.some.inj ((get_row hget).symm.trans hrow)
        obtain ⟨cert, pub, hcert, -, hpub, hvalid⟩ := htaken.signed
        have hkey : root.cert.tbs.publicKey = some pub := (hroot cert hcert).symm.trans hpub
        refine ⟨⟨⟨ca, hget⟩, out, s', hrun⟩, ca, crl, number, next, hrow, hunforged crl pub htaken.loaded hkey hvalid, htaken.numbered, htaken.newer, ?_⟩
        rw [Tx.transact_snd_of_run hrun, hcas, Table.get_update_self, hrow]
        rfl
      · left
        refine ⟨fun ⟨⟨row, hrow⟩, _⟩ => hid ?_, ?_⟩
        · exact (Prod.mk.inj (Except.ok.inj (hget.symm.trans hrow))).1
        · show (Tx.transact (Ceremony.importCrl lib { env with now := now } caName data actor) s.d).2.cas.get caId = _
          rw [Tx.transact_snd_of_run hrun, hcas, Table.get_update_of_ne _ _ (Ne.symm hid)]

/-- **Every step keeps the order of the directory's CRLs, and the CA's CRL is one of them.** -/
theorem crlInv_step (hinv : CrlInv env root caId s) {o : Ceremony.Op} (hunforged : Unforged lib root s o) :
    CrlInv env root caId (Ceremony.step lib env root s o) := by
  cases o with
  | revoke now serialHex reason =>
    rcases @revoke_cases lib env root s now serialHex reason with hsame | ⟨dir, hstep, hnumber, hlog⟩
    · rw [hsame]
      exact hinv
    · rw [hstep]
      refine ⟨?_, hinv.row⟩
      show Ordered dir.number (logged dir) {c | ∃ crl ∈ s.crls, snapshot crl = c}
      rw [hnumber]
      exact hinv.ordered.grow fun n ⟨r, hr, hserial⟩ => ⟨r, hlog r hr, hserial⟩
  | crl now passphrase days signature =>
    rcases @crl_cases lib env root s now passphrase days signature with hsame | ⟨crl, hcrl, hstep⟩
    · rw [hsame]
      exact hinv
    · rw [hstep]
      obtain ⟨ca, hget, hroot, hstored⟩ := hinv.row
      refine ⟨?_, ca, hget, hroot, fun old hold => ?_⟩
      · have hout : {c | ∃ crl' ∈ crl :: s.crls, snapshot crl' = c} =
            insert ⟨s.dir.number + 1, logged s.dir⟩ {c | ∃ crl' ∈ s.crls, snapshot crl' = c} := by
          ext c
          simp [hcrl, eq_comm]
        show Ordered (s.dir.number + 1) (logged s.dir) {c | ∃ crl' ∈ crl :: s.crls, snapshot crl' = c}
        rw [hout]
        exact hinv.ordered.issue
      · obtain ⟨hnumber, c, hc, hsame⟩ := hstored old hold
        exact ⟨hnumber, c, List.mem_cons_of_mem _ hc, hsame⟩
  | importCrl now caName data actor =>
    rcases import_cases hinv hunforged with ⟨-, hsame⟩ | ⟨-, ca, c, number, next, hget, hc, hnumber, -, hafter⟩
    · obtain ⟨ca, hget, hrow⟩ := hinv.row
      exact ⟨hinv.ordered, ca, hsame.trans hget, hrow⟩
    · obtain ⟨row, hrow, hroot, -⟩ := hinv.row
      obtain rfl := Option.some.inj (hget.symm.trans hrow)
      refine ⟨hinv.ordered, _, hafter, hroot, fun crl hcrl => ?_⟩
      obtain rfl := Option.some.inj hcrl
      refine ⟨rfl, c, hc, ?_⟩
      unfold snapshot
      rw [hnumber]
      rfl

/-- **An import does not roll back where only the ceremony can sign.** -/
theorem lawful_step (hinv : CrlInv env root caId s) {o : Ceremony.Op} (hunforged : Unforged lib root s o) :
    Lawful lib env root caId s o := by
  have hother : ¬ Accepts lib env caId s o → (Ceremony.step lib env root s o).d.cas.get caId = s.d.cas.get caId →
      Lawful lib env root caId s o := by
    intro hnot hsame
    refine ⟨fun haccepts => absurd haccepts hnot, fun _ => hsame, fun ca ca' hget hget' => ?_⟩
    obtain rfl := Option.some.inj (hget.symm.trans (hsame.symm.trans hget'))
    exact subset_rfl
  cases o with
  | revoke now serialHex reason =>
    refine hother id ?_
    rcases @revoke_cases lib env root s now serialHex reason with hsame | ⟨dir, hstep, -⟩
    · rw [hsame]
    · rw [hstep]
  | crl now passphrase days signature =>
    refine hother id ?_
    rcases @crl_cases lib env root s now passphrase days signature with hsame | ⟨crl, -, hstep⟩
    · rw [hsame]
    · rw [hstep]
  | importCrl now caName data actor =>
    rcases import_cases hinv hunforged with ⟨hnot, hsame⟩ | ⟨haccepts, ca, c, number, next, hget, hc, hnumber, hnewer, hafter⟩
    · exact hother hnot hsame
    · obtain ⟨row, hrow, -, hstored⟩ := hinv.row
      obtain rfl := Option.some.inj (hget.symm.trans hrow)
      refine ⟨fun _ => ⟨ca, _, _, hget, hafter, rfl, rfl, hnewer, fun old hold => ?_⟩, fun hnot => ?_, ?_⟩
      · rw [(hstored old hold).1]
        exact hnewer
      · exact absurd haccepts hnot
      · intro ca₁ ca₂ hget₁ hget₂
        obtain rfl := Option.some.inj (hget.symm.trans hget₁)
        obtain rfl := Option.some.inj (hafter.symm.trans hget₂)
        cases hold : ca.crlDer with
        | none =>
          rw [published_none hold]
          exact Set.empty_subset _
        | some old =>
          obtain ⟨hcurrent, c₀, hc₀, hsnapshot⟩ := hstored old hold
          have hlt : (snapshot c₀).number < (snapshot c).number := by
            rw [hsnapshot]
            unfold snapshot
            rw [hnumber]
            show old.number < number
            rw [hcurrent]
            exact hnewer
          have hsub := hinv.ordered.mono _ ⟨c₀, hc₀, rfl⟩ _ ⟨c, hc, rfl⟩ hlt
          rw [hsnapshot] at hsub
          rw [published_some hold, @published_some (stored c number next ca) _ rfl]
          exact hsub

/-- **Imports of an offline CA's CRLs never roll back**, whatever happens to the files in between: the number of the CA's
CRL increases with each accepted import, a refused one leaves the row, and no published revocation is lost. -/
theorem imports_never_roll_back (hfresh : Fresh env root caId s) {ops : List Ceremony.Op}
    (hunforged : Along (Ceremony.step lib env root) (Unforged lib root) s ops) :
    Along (Ceremony.step lib env root) (Lawful lib env root caId) s ops :=
  along_of_inv (I := CrlInv env root caId) (fun _ _ hinv h => crlInv_step hinv h) (fun _ _ hinv h => lawful_step hinv h)
    (crlInv_start hfresh) hunforged

end Step

section Examples

def demoRoot : Root := ⟨demoCaCert, fun passphrase => passphrase = "correct horse battery staple"⟩

/-- the ceremony's first CRL, and its second -/
def firstCrl : SignedCrl := ⟨"Issuing", some 1, 100, some (100 + 180 * 86400), [], "s1"⟩

def secondCrl : SignedCrl := ⟨"Issuing", some 2, 300, some (300 + 180 * 86400), [⟨2748, 200, "superseded"⟩], "s2"⟩

/-- it reads the two CRLs, and takes every signature for the root's -/
def demoLib : CrlLib where
  subject c := c.tbs.commonName.getD ""
  loadPem _ := .error "no PEM"
  loadDer data := if data = [1] then .ok firstCrl else if data = [2] then .ok secondCrl else .error "no CRL"
  isSignatureValid _ _ := true
  isoformat _ := ""

def offlineCa : CertificateAuthority :=
  { name := "root-ca", parentId := none, certPem := "ca-pem", keyRef := "offline:ca-fp", signerType := "offline", isRoot := true,
    crlNumber := 0, crlLastGenerated := none, crlDer := none, ocspCertPem := none, ocspKeyRef := none, scepRaCertPem := none,
    scepRaKeyRef := none, cmpRaCertPem := none, cmpRaKeyRef := none, tsaCertPem := none, tsaKeyRef := none }

def ceremonyStart : Ceremony.St := ⟨{ Db.empty with cas := Table.empty.insert offlineCa }, ⟨["abc"], [], 0⟩, []⟩

/-- two CRLs with a revocation in between, the first replayed after the second, and noise -/
def ceremonyRun : List Ceremony.Op :=
  [.crl 100 "correct horse battery staple" 180 "s1", .importCrl 150 "root-ca" [1] "admin", .revoke 200 "0ABC" "superseded",
    .crl 300 "correct horse battery staple" 180 "s2", .importCrl 350 "root-ca" [2] "admin",
    .importCrl 360 "root-ca" [1] "admin", .importCrl 370 "root-ca" [7] "admin"]

theorem demo_unforged {s : Ceremony.St} {now : ℤ} {data : Bytes}
    (h : (match demoLib.load data with | .ok crl => decide (crl ∈ s.crls) | .error _ => true) = true) :
    Unforged demoLib demoRoot s (.importCrl now "root-ca" data "admin") := by
  intro crl pub hload _ _
  rw [hload] at h
  exact of_decide_eq_true h

theorem ceremonyRun_lawful :
    Along (Ceremony.step demoLib demoEnv demoRoot) (Lawful demoLib demoEnv demoRoot 1) ceremonyStart ceremonyRun := by
  refine imports_never_roll_back ⟨rfl, offlineCa, rfl, ?_, rfl⟩ ⟨trivial, ?_, trivial, trivial, ?_, ?_, ?_, trivial⟩
  · intro cert hcert
    obtain rfl := Except.ok.inj (show Except.ok demoCaCert = Except.ok cert from hcert)
    rfl
  · exact demo_unforged (by decide +kernel)
  · exact demo_unforged (by decide +kernel)
  · exact demo_unforged (by decide +kernel)
  · exact demo_unforged (by decide +kernel)

/-- the second CRL is taken, and the replay of the first refused -/
example : ((run (Ceremony.step demoLib demoEnv demoRoot) ceremonyStart ceremonyRun).d.cas.get 1).map (·.crlNumber) = some 2 := by
  decide +kernel

end Examples

end Certadillo.Ceremony
