import BackboneIntegrations.OAuth.FanOut

/-!
# The fan-out over companies

`refresh_oauth_credentials_for_companies` on a table of due accounts, each with its credential under
exactly one of the companies.
-/

open Interleave

namespace BackboneIntegrations.OAuth

namespace RefreshJob

/-! ## From sweep to sweep -/

section

variable {lib : Crates} {job : RefreshJob} {response : Uuid → TokenResponse} {w : Hub} {t : Tid} {co : Uuid}
  {id : Uuid} {r r' : Account} {scope : CredentialScope} {log : List CredentialScope}
  {s s' : Hub × List CredentialScope}

theorem mem_rotations : scope ∈ rotations lib job w co id ↔
    ∃ r, w.rows id = some r ∧ job.Configured lib r.provider ∧ w.Usable (r.scope co) ∧ scope = r.scope co := by
  have hrows : w.accounts.lookup id = w.rows id := rfl
  unfold rotations
  rw [hrows]
  cases w.rows id with
  | none => simp
  | some r => by_cases hr : job.Configured lib r.provider ∧ w.Usable (r.scope co) <;> simp_all [and_assoc]

theorem handle_turns (hr : w.rows id = some r) :
    (turns lib job w co response).handle w.rows id = turned lib job w co response id r := by
  rw [Agenda.handle, hr, Option.bind_some]
  rfl

theorem Swept.released (h : Swept lib job w co response t log s) :
    Swept lib job w co response t log (s.1.release t, s.2) where
  still := by
    refine ⟨fun id => ?_, Txs.clear_writes_self⟩
    have hfree : s.1.txs.holder id = none := h.still.free id
    simp [Hub.release, Txs.clear, hfree]
  alike := h.alike.trans (.of_credentials rfl rfl)
  rows := h.rows
  log := h.log

/-- Only an account of a provider that the job cannot serve is still due. -/
theorem Swept.of_due (h : Swept lib job w co response t log s) (hserved : Served job w co response)
    (hr : s.1.rows id = some r) (hid : id ∈ s.1.dueIds job.schedule.refreshWindowSeconds) :
    id ∈ w.dueIds job.schedule.refreshWindowSeconds ∧ w.rows id = some r ∧
      ¬ job.Configured lib r.provider := by
  obtain ⟨r₁, k, hr₁, hk⟩ := Hub.mem_dueIds.mp hid
  cases hr.symm.trans hr₁
  obtain ⟨hactive, hexp, hlt⟩ := Account.dueAt_eq_some.mp hk
  rw [h.alike.clock] at hlt
  have hrow := h.rows id
  rw [hr] at hrow
  by_cases hdue : id ∈ w.dueIds job.schedule.refreshWindowSeconds
  · rw [if_pos hdue] at hrow
    obtain ⟨r₀, -, hr₀, -⟩ := Hub.mem_dueIds.mp hdue
    rw [handle_turns hr₀, turned] at hrow
    by_cases hconf : job.Configured lib r₀.provider
    · rw [if_pos hconf] at hrow
      split at hrow
      · obtain ⟨e, he, rfl⟩ := Option.map_eq_some_iff.mp hrow.symm
        obtain ⟨secs, hlife, hadd⟩ := Option.bind_eq_some_iff.mp he
        obtain ⟨secs', hlife', hlong⟩ := hserved.lasting id hdue
        cases hlife.symm.trans hlife'
        cases hexp
        -- The new lifetime is longer than the window.
        rw [addSeconds_eq hadd] at hlt
        have hmul := Int.mul_lt_mul_of_pos_right hlong (show (0 : Int) < microsPerSecond by decide)
        exact absurd hlt (Int.not_lt.mpr (Int.add_le_add_left hmul.le _))
      · cases hrow
        cases hactive
    · rw [if_neg hconf] at hrow
      cases hrow
      exact ⟨hdue, hr₀, hconf⟩
  · rw [if_neg hdue] at hrow
    exact absurd (Hub.mem_dueIds.mpr ⟨r, k, hrow.symm, Account.dueAt_eq_some.mpr ⟨hactive, hexp, hlt⟩⟩) hdue

theorem Swept.due_subset (h : Swept lib job w co response t log s) (hserved : Served job w co response) :
    s.1.dueIds job.schedule.refreshWindowSeconds ⊆ w.dueIds job.schedule.refreshWindowSeconds := by
  intro id hid
  obtain ⟨r, -, hr, -⟩ := Hub.mem_dueIds.mp hid
  exact (h.of_due hserved hr hid).1

theorem Swept.served (h : Swept lib job w co response t log s) (hserved : Served job w co response) {co' : Uuid}
    (hserved' : Served job w co' response) : Served job s.1 co' response where
  known id r hr hid := by
    obtain ⟨hdue, hrow, -⟩ := h.of_due hserved hr hid
    rw [h.alike.usable, h.alike.lacks]
    exact hserved'.known id r hrow hdue
  lasting id hid := hserved.lasting id (h.due_subset hserved hid)

theorem Swept.batch (h : Swept lib job w co response t log s) (hserved : Served job w co response)
    (hbatch : (w.dueIds job.schedule.refreshWindowSeconds).length ≤ job.schedule.refreshBatchSize.toNat) :
    (s.1.dueIds job.schedule.refreshWindowSeconds).length ≤ job.schedule.refreshBatchSize.toNat :=
  (Hub.dueIds_nodup.subperm (h.due_subset hserved)).length_le.trans hbatch

/-- What no sweep takes back. -/
structure Kept (lib : Crates) (job : RefreshJob) (s s' : Hub × List CredentialScope) : Prop where
  ended : ∀ id r, s.1.rows id = some r → r.status ≠ .active → s'.1.rows id = some r
  counted : ∀ scope, s.2.count scope ≤ s'.2.count scope
  unserved : ∀ scope, ¬ job.Configured lib scope.provider → s'.2.count scope = s.2.count scope

theorem Kept.trans {s'' : Hub × List CredentialScope} (h : Kept lib job s s') (h' : Kept lib job s' s'') :
    Kept lib job s s'' where
  ended id r hr hactive := h'.ended id r (h.ended id r hr hactive) hactive
  counted scope := (h.counted scope).trans (h'.counted scope)
  unserved scope hconf := (h'.unserved scope hconf).trans (h.unserved scope hconf)

theorem Swept.kept (h : Swept lib job w co response t log s) : Kept lib job (w, log) s where
  ended id r hr hactive := by
    rw [h.rows, if_neg]
    · exact hr
    · intro hid
      obtain ⟨r₁, k, hr₁, hk⟩ := Hub.mem_dueIds.mp hid
      cases hr.symm.trans hr₁
      exact hactive (Account.dueAt_eq_some.mp hk).1
  counted scope := by
    obtain ⟨past, -, hlog⟩ := h.log
    rw [hlog, List.count_append]
    exact Nat.le_add_right _ _
  unserved scope hconf := by
    obtain ⟨past, -, hlog⟩ := h.log
    rw [hlog, List.count_append, Nat.add_eq_left, List.count_eq_zero]
    intro hmem
    obtain ⟨id, -, hid⟩ := List.mem_flatMap.mp hmem
    obtain ⟨r, -, hr, -, rfl⟩ := mem_rotations.mp hid
    exact hconf hr

end

/-! ## The fan-out -/

section

variable {lib : Crates} {job : RefreshJob} {response : Uuid → TokenResponse} {w : Hub} {t : Tid} {co : Uuid}
  {companies : List Uuid} {log : List CredentialScope} {s : Hub × List CredentialScope}
  {Q : List (Uuid × Except DbError RefreshReport) → Hub × List CredentialScope → Prop}

end

/-! ## Isolation -/

section

variable (lib : Crates) (job : RefreshJob) (w : Hub) (companies : List Uuid) (response : Uuid → TokenResponse)

/-- Each due account has its credential under exactly one of the companies, the new lifetimes are longer than
the window, and a batch takes all due accounts. -/
structure Partitioned : Prop where
  held : ∀ id r, w.rows id = some r → id ∈ w.dueIds job.schedule.refreshWindowSeconds →
    ∃ co ∈ companies, w.Usable (r.scope co) ∧ ∀ co' ∈ companies, co' ≠ co → w.Lacks (r.scope co')
  lasting : ∀ id ∈ w.dueIds job.schedule.refreshWindowSeconds,
    ∃ secs, (response id).lifetime = some secs ∧ job.schedule.refreshWindowSeconds < secs
  batch : (w.dueIds job.schedule.refreshWindowSeconds).length ≤ job.schedule.refreshBatchSize.toNat

/-- The accounts that were due are still active, and the credential of each was rotated once. -/
structure Isolated (s : Hub × List CredentialScope) : Prop where
  active : ∀ id ∈ w.dueIds job.schedule.refreshWindowSeconds, ∃ r, s.1.rows id = some r ∧ r.status = .active
  once : ∀ id r, w.rows id = some r → id ∈ w.dueIds job.schedule.refreshWindowSeconds →
    ∀ co ∈ companies, w.Usable (r.scope co) → s.2.count (r.scope co) = 1

end

section

variable {lib : Crates} {job : RefreshJob} {response : Uuid → TokenResponse} {w : Hub} {t : Tid} {co co' : Uuid}
  {id : Uuid} {r : Account} {companies order : List Uuid} {s s' : Hub × List CredentialScope}

theorem Partitioned.perm (h : Partitioned job w companies response) (hperm : order.Perm companies) :
    Partitioned job w order response where
  held := by simpa only [hperm.mem_iff] using h.held
  lasting := h.lasting
  batch := h.batch

theorem Isolated.perm (h : Isolated job w companies s) (hperm : order.Perm companies) :
    Isolated job w order s where
  active := h.active
  once := by simpa only [hperm.mem_iff] using h.once

theorem Partitioned.served (h : Partitioned job w companies response) (hco : co ∈ companies) :
    Served job w co response where
  known id r hr hid := by
    obtain ⟨co', -, husable, hlacks⟩ := h.held id r hr hid
    by_cases heq : co = co'
    · subst heq
      exact .inl husable
    · exact .inr (hlacks co hco heq)
  lasting := h.lasting

section

variable (h : Partitioned job w companies response) (hswept : Swept lib job w co response t [] s)
  (hkept : Kept lib job s s') (hisolated : Isolated job w companies s')

include hswept hkept hisolated

end

end

/-! Two due accounts: the credentials of both under company 9, or the second one's under company 8. -/

end RefreshJob

end BackboneIntegrations.OAuth
