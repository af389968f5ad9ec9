import BackboneIntegrations.OAuth.Coverage

/-!
# A sweep of the fan-out

`refresh_oauth_credentials` for one company, alone on its table, with a store that answers by what it
holds and a provider that renews. Its claim is not fenced by the company. So the sweep takes every due
account, and it ends the ones whose credential the store has under another company.
-/

open Interleave

namespace BackboneIntegrations.OAuth

/-! ## Normal answers -/

namespace Hub

/-- The store holds an unexpired credential with a refresh token. -/
def Usable (w : Hub) (scope : CredentialScope) : Prop :=
  ∃ c ∈ w.current scope, w.clock < c.expiresAt ∧ c.bundle.refreshToken ≠ none

/-- The store holds no unexpired credential. -/
def Lacks (w : Hub) (scope : CredentialScope) : Prop := ∀ c ∈ w.current scope, c.expiresAt ≤ w.clock

instance (w : Hub) (scope : CredentialScope) : Decidable (w.Usable scope) :=
  inferInstanceAs (Decidable (∃ c ∈ w.current scope, w.clock < c.expiresAt ∧ c.bundle.refreshToken ≠ none))

instance (w : Hub) (scope : CredentialScope) : Decidable (w.Lacks scope) :=
  inferInstanceAs (Decidable (∀ c ∈ w.current scope, c.expiresAt ≤ w.clock))

theorem Usable.not_lacks {w : Hub} {scope : CredentialScope} (h : w.Usable scope) : ¬ w.Lacks scope := by
  obtain ⟨c, hc, hlive, -⟩ := h
  intro hlacks
  exact absurd (hlacks c hc) (Int.not_le.mpr hlive)

/-- A sweep cannot tell the stores of the two worlds apart. -/
structure Alike (w w' : Hub) : Prop where
  clock : w'.clock = w.clock
  usable : ∀ scope, w'.Usable scope ↔ w.Usable scope
  lacks : ∀ scope, w'.Lacks scope ↔ w.Lacks scope

namespace Alike

variable {w w' w'' : Hub}

theorem refl : w.Alike w := ⟨rfl, fun _ => Iff.rfl, fun _ => Iff.rfl⟩

theorem trans (h : w.Alike w') (h' : w'.Alike w'') : w.Alike w'' :=
  ⟨h'.clock.trans h.clock, fun scope => (h'.usable scope).trans (h.usable scope),
    fun scope => (h'.lacks scope).trans (h.lacks scope)⟩

theorem of_credentials (hclock : w'.clock = w.clock) (hcs : w'.credentials = w.credentials) :
    w.Alike w' := by
  have hcurrent : ∀ scope, w'.current scope = w.current scope := by
    intro scope
    rw [current, current, hcs]
  refine ⟨hclock, fun scope => ?_, fun scope => ?_⟩
  · rw [Usable, Usable, hcurrent, hclock]
  · rw [Lacks, Lacks, hcurrent, hclock]

theorem claimed (w : Hub) (t : Tid) (id : Uuid) : w.Alike (w.claim t id) := .of_credentials rfl rfl

/-- What replaces a usable credential is usable. -/
theorem rotated {scope : CredentialScope} (h : w.Usable scope) {b : TokenBundle} {e : Time}
    (he : w.clock < e) (hb : b.refreshToken ≠ none) :
    w.Alike ((w.withdraw scope).store scope purposeOauthToken b e) := by
  have husable : ((w.withdraw scope).store scope purposeOauthToken b e).Usable scope :=
    ⟨_, current_store .., he, hb⟩
  have hcurrent : ∀ s, s ≠ scope →
      ((w.withdraw scope).store scope purposeOauthToken b e).current s = w.current s := by
    intro s hs
    rw [current_store_ne hs.symm, current_withdraw_ne hs]
  refine ⟨rfl, fun s => ?_, fun s => ?_⟩
  · by_cases hs : s = scope
    · subst hs
      exact iff_of_true husable h
    · rw [Usable, Usable, hcurrent s hs]
      rfl
  · by_cases hs : s = scope
    · subst hs
      exact iff_of_false husable.not_lacks h.not_lacks
    · rw [Lacks, Lacks, hcurrent s hs]
      rfl

end Alike

end Hub

section

variable {response : Uuid → TokenResponse} {w : Hub} {t : Tid} {id : Uuid} {r : Account}
  {scope : CredentialScope} {c : Credential} {log : List CredentialScope} {α : Type}
  {Q : α → Hub × List CredentialScope → Prop}

end

/-! ## One account -/

namespace RefreshJob

/-- The job has endpoints and a client for the provider. -/
def Configured (lib : Crates) (job : RefreshJob) (provider : String) : Prop :=
  (ValidatedEndpoints.resolve lib.toUrlCrate job.registry provider job.overrides).isOk ∧
    (job.clients.get provider).isSome

instance (lib : Crates) (job : RefreshJob) (provider : String) : Decidable (job.Configured lib provider) :=
  inferInstanceAs (Decidable (_ ∧ _))

section

variable {lib : Crates} {job : RefreshJob} {response : Uuid → TokenResponse} {w : Hub} {t : Tid} {id co : Uuid}
  {r : Account} {c : Credential} {endpoints : ValidatedEndpoints} {client : OAuthClientConfig}
  {report : RefreshReport} {log : List CredentialScope}
  {Q : Except DbError RefreshReport → Hub × List CredentialScope → Prop}

end

/-! ## One sweep -/

/-- What the sweep for `co` that starts in `w` makes of a row. -/
def turned (lib : Crates) (job : RefreshJob) (w : Hub) (co : Uuid) (response : Uuid → TokenResponse) (id : Uuid)
    (r : Account) : Option Account :=
  if job.Configured lib r.provider then
    if w.Usable (r.scope co) then
      ((response id).storable w.clock).map fun e => (ClaimedUpdate.mirrorNow e).set w.clock r
    else some (ClaimedUpdate.expire.set w.clock r)
  else some r

def turns (lib : Crates) (job : RefreshJob) (w : Hub) (co : Uuid) (response : Uuid → TokenResponse) :
    Agenda Uuid Account Time where
  key := Account.dueAt job.schedule.refreshWindowSeconds w.clock
  step := turned lib job w co response
  once := true

/-- The credential that it rotates for an account. -/
def rotations (lib : Crates) (job : RefreshJob) (w : Hub) (co id : Uuid) : List CredentialScope :=
  match w.accounts.lookup id with
  | some r => if job.Configured lib r.provider ∧ w.Usable (r.scope co) then [r.scope co] else []
  | none => []

/-- The store and the provider know each due account: there is a credential with a refresh token under `co`
or none that is left, and the new lifetime is longer than the window. -/
structure Served (job : RefreshJob) (w : Hub) (co : Uuid) (response : Uuid → TokenResponse) : Prop where
  known : ∀ id r, w.rows id = some r → id ∈ w.dueIds job.schedule.refreshWindowSeconds →
    w.Usable (r.scope co) ∨ w.Lacks (r.scope co)
  lasting : ∀ id ∈ w.dueIds job.schedule.refreshWindowSeconds,
    ∃ secs, (response id).lifetime = some secs ∧ job.schedule.refreshWindowSeconds < secs

/-- Between two rounds of the sweep for `co` that started in `w₀`. -/
structure Underway (lib : Crates) (job : RefreshJob) (co : Uuid) (t : Tid) (w₀ : Hub)
    (log₀ : List CredentialScope) (s : Hub × List CredentialScope) (past : List Uuid) : Prop where
  still : s.1.Still t
  alike : w₀.Alike s.1
  fresh : ∀ id ∉ past, s.1.rows id = w₀.rows id
  log : s.2 = log₀ ++ past.flatMap (rotations lib job w₀ co)

section

variable {lib : Crates} {job : RefreshJob} {response : Uuid → TokenResponse} {w w₀ : Hub} {t : Tid} {co : Uuid}
  {x : Uuid} {r : Account} {report : RefreshReport} {log log₀ : List CredentialScope} {past : List Uuid}
  {s : Hub × List CredentialScope} {left : ℕ}
  {Q : Except DbError RefreshReport → Hub × List CredentialScope → Prop}

theorem Underway.next (h : Underway lib job co t w₀ log₀ (w, log) past) {w' : Hub} {r' : Account}
    (hsettled : Settled (w.claim t x) w' t x r') (halike : w.Alike w') :
    Underway lib job co t w₀ log₀ (w', log ++ rotations lib job w₀ co x) (past ++ [x]) where
  still := hsettled.still
  alike := h.alike.trans halike
  fresh id hid := by
    rw [List.mem_append, List.mem_singleton, not_or] at hid
    show w'.rows id = _
    rw [hsettled.rows, Function.update_of_ne hid.2]
    exact h.fresh id hid.1
  log := by
    have hlog : log = log₀ ++ past.flatMap (rotations lib job w₀ co) := h.log
    simp [hlog]

/-- What the loop can take next is due since the start, and not handled yet. -/
theorem Underway.of_due (h : Underway lib job co t w₀ log₀ (w, log) past) {k : Time}
    (hk : (turns lib job w₀ co response).due w.rows past x = some k) :
    x ∉ past ∧ x ∈ w₀.dueIds job.schedule.refreshWindowSeconds ∧
      ∃ r, w.rows x = some r ∧ r.status = .active := by
  obtain ⟨hx, hkey⟩ := Agenda.due_of_once rfl hk
  obtain ⟨r, hr, hdue⟩ := Option.bind_eq_some_iff.mp hkey
  refine ⟨hx, ?_, r, hr, (Account.dueAt_eq_some.mp hdue).1⟩
  rw [Hub.mem_dueIds_iff, Hub.dueAt,
    show w₀.accounts.lookup x = some r from (h.fresh x hx).symm.trans hr]
  exact Option.ne_none_iff_exists'.mpr ⟨k, hdue⟩

/-- What a sweep that does not panic leaves. -/
structure Swept (lib : Crates) (job : RefreshJob) (w : Hub) (co : Uuid) (response : Uuid → TokenResponse)
    (t : Tid) (log : List CredentialScope) (s : Hub × List CredentialScope) : Prop where
  still : s.1.Still t
  alike : w.Alike s.1
  rows : ∀ id, s.1.rows id = if id ∈ w.dueIds job.schedule.refreshWindowSeconds then
    (turns lib job w co response).handle w.rows id else w.rows id
  log : ∃ past : List Uuid, past.Perm (w.dueIds job.schedule.refreshWindowSeconds) ∧
    s.2 = log ++ past.flatMap (rotations lib job w co)

end

end RefreshJob

end BackboneIntegrations.OAuth
