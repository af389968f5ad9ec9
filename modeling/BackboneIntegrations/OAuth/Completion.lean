import BackboneIntegrations.OAuth.Gauntlet

/-!
# When a failed completion leaves no trace

`complete` writes to the store before it updates the row. When the row is no longer pending
at that update, the call fails, and the credential stays.
-/

open Interleave

namespace BackboneIntegrations.OAuth

open IntegrationsOauthService

variable {lib : Crates} {svc : IntegrationsOauthService} {init : Hub → Prop}
  {tr : List (Taken (system lib svc))} {cfg : Config (system lib svc)}

/-- No SQL statement fails. -/
def sqlAnswered : Label (system lib svc) → Bool
  | .op _ op ans => Answered op ans
  | _ => true

/-- Thread `t` changed no account row, and it wrote nothing to the store. -/
structure ZeroWrites (tr : List (Taken (system lib svc))) (t : Tid) : Prop where
  rows : ∀ s ∈ tr, ∀ op ans, s.label = .op t op ans →
    Hub.accounts s.after.world = Hub.accounts s.before.world
  store : ∀ s ∈ tr, ∀ op ans, s.label = .op t op ans → ¬ IsStored ⟨op, ans⟩

/-- Whenever thread `t` updates an account, the account is still pending. -/
def StillPending (tr : List (Taken (system lib svc))) (t : Tid) : Prop :=
  ∀ s ∈ tr, ∀ id u ans, s.label = .op t (.update id u) ans →
    Hub.status? s.before.world id = some .pending

/-- **A completion that fails leaves zero writes exactly when its account was still pending at its
last update.** -/
theorem zero_writes_iff (hr : Run (system lib svc) init (fun _ l => sqlAnswered l) tr cfg) {t : Tid}
    {companyId : Uuid} {req : CompleteRequest} {e : OauthError}
    (hd : cfg.threads t = .done (.complete companyId req) (.error e)) :
    ZeroWrites tr t ↔ StillPending tr t := by
  have hX := script_holds lib svc
  have hcall : cfg.call? t = some (.complete companyId req) := by
    simp [Config.call?, hd, Thread.call?]
  obtain ⟨hset, hstored⟩ : completeLeave (cfg.events t) (.error e) := hX.leave hr.reach hd
  have did : ∀ s ∈ tr, ∀ op ans, s.label = .op t op ans → cfg.Did t op ans := by
    intro s hs op ans hl
    rw [Config.Did, hr.hist_eq, ← hl]
    exact List.mem_map_of_mem hs
  have taken : ∀ s ∈ tr, Step (system lib svc) s.before s.label s.after ∧ sqlAnswered s.label :=
    hr.forall_taken fun _ hok hs => ⟨hs, hok⟩
  constructor
  · intro hz s hs id u ans hl
    obtain ⟨pre, hpre, hm⟩ := hX.past hr.reach hcall (did s hs _ _ hl)
    obtain ⟨g, ev, h', -, -, -, hev, rfl⟩ := hm
    have hmem : cfg.Did t ev.op ev.ans := mem_events.mp (hpre.subset (by simp))
    rw [Config.Did, hr.hist_eq] at hmem
    obtain ⟨s', hs', hl'⟩ := List.mem_map.mp hmem
    exact absurd hev (hz.store s' hs' _ _ hl')
  · intro hp
    have clean : ∀ ev ∈ cfg.events t, ¬ IsStored ev := by
      rcases hstored with hno | ⟨id, u, ans, h', hne, hh⟩
      · exact hno
      · have hmem : cfg.Did t (.update id u) ans := mem_events.mp (by simp [hh])
        obtain ⟨pre, hpre, g, ev, h'', -, rfl, rfl, -, -⟩ := hX.past hr.reach hcall hmem
        rw [Config.Did, hr.hist_eq] at hmem
        obtain ⟨s, hs, hl⟩ := List.mem_map.mp hmem
        -- The last update was asked while the row was pending, so it cannot have missed.
        have hpend := hp s hs _ _ _ hl
        obtain ⟨hstep, hok⟩ := taken s hs
        rw [hl] at hstep hok
        rcases ans with err | n
        · cases hok
        · have : n = 1 := (Hub.update_one_iff (t := t) hstep.next_eq).mpr ⟨_, hpend, rfl⟩
          exact absurd (congrArg Except.ok this) hne
    refine ⟨fun s hs op ans hl => ?_, fun s hs op ans hl => clean _ (mem_events.mpr (did s hs _ _ hl))⟩
    obtain ⟨pre, hpre, hm⟩ := hX.past hr.reach hcall (did s hs _ _ hl)
    obtain ⟨hstep, -⟩ := taken s hs
    have hnset := hset _ (mem_events.mpr (did s hs _ _ hl))
    rw [hl] at hstep
    refine (Hub.next_change hstep.next_eq).accounts_eq hnset ?_
    rintro rfl
    exact hm

theorem mailRace_run : ∃ (tr : List (Taken (system mailCrates mailService)))
    (cfg : Config (system mailCrates mailService)) (e : OauthError),
    Run (system mailCrates mailService) (· = mailHub) (fun _ l => sqlAnswered l) tr cfg ∧
      cfg.threads 0 = .done (.complete 9 mailRequest) (.error e) ∧
      .op 0 (.issue mailScope purposeOauthToken mailBundle 3600000000) (.ok 77) ∈ cfg.hist := by
  obtain ⟨cfg, e, hr, hh, hd, -⟩ := mailRace_reach
  have hr' : Reach (system mailCrates mailService) (· = mailHub) (fun _ l => sqlAnswered l) cfg := by
    refine hr.mono fun _ l hl => ?_
    cases l with
    | op t op ans => exact (Bool.and_eq_true _ _ ▸ hl).1
    | _ => rfl
  obtain ⟨tr, htr⟩ := hr'.run
  exact ⟨tr, cfg, e, htr, hd, by simp [hh, mailRace]⟩

theorem zero_writes_iff_race : ∃ (tr : List (Taken (system mailCrates mailService)))
    (cfg : Config (system mailCrates mailService)) (e : OauthError),
    cfg.threads 0 = .done (.complete 9 mailRequest) (.error e) ∧
      (ZeroWrites tr 0 ↔ StillPending tr 0) := by
  obtain ⟨tr, cfg, e, hr, hd, -⟩ := mailRace_run
  exact ⟨tr, cfg, e, hd, zero_writes_iff hr hd⟩

/-! A disconnect between the store write and the last update: the completion fails, and its
credential is in the store. -/

theorem failed_completion_wrote : ∃ (tr : List (Taken (system mailCrates mailService)))
    (cfg : Config (system mailCrates mailService)) (e : OauthError),
    Run (system mailCrates mailService) (· = mailHub) (fun _ l => sqlAnswered l) tr cfg ∧
      cfg.threads 0 = .done (.complete 9 mailRequest) (.error e) ∧ ¬ ZeroWrites tr 0 := by
  obtain ⟨tr, cfg, e, hr, hd, hissue⟩ := mailRace_run
  refine ⟨tr, cfg, e, hr, hd, fun hz => ?_⟩
  rw [hr.hist_eq] at hissue
  obtain ⟨s, hs, hl⟩ := List.mem_map.mp hissue
  exact hz.store s hs _ _ hl trivial

end BackboneIntegrations.OAuth
