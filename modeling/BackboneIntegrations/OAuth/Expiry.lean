import BackboneIntegrations.OAuth.Mirror
import BackboneIntegrations.OAuth.Waits

/-!
# Which answers end an account

A refresh ends the account that it has claimed on some answers of the store and the provider, and on no
others: an outage never ends one. The job gives up on more answers than the service.
-/

open Interleave

namespace BackboneIntegrations.OAuth

open IntegrationsOauthService

variable {lib : Crates} {svc : IntegrationsOauthService} {w₀ : Hub}
  {ok : Config (system lib svc) → Label (system lib svc) → Prop} {cfg cfg' : Config (system lib svc)}

/-! ## The verdict -/

/-- The newest answer of the store or the provider since the claim, with what the call did before. -/
def verdict : Past → Option (Event Sig × Past)
  | [] => none
  | ⟨.claimDue .., _⟩ :: _ | ⟨.claimById _, _⟩ :: _ => none
  | ⟨.readToken scope, ans⟩ :: h => some (⟨.readToken scope, ans⟩, h)
  | ⟨.exchange endpoint form, ans⟩ :: h => some (⟨.exchange endpoint form, ans⟩, h)
  | ⟨.rotate scope bundle expiresAt, ans⟩ :: h => some (⟨.rotate scope bundle expiresAt, ans⟩, h)
  | _ :: h => verdict h

/-- The newest time that the call has read. -/
def lastClock : Past → Option Time
  | [] => none
  | ⟨.utcNow, now⟩ :: _ => some now
  | _ :: h => lastClock h

/-- The service leaves a bundle alone until its window before the expiry. The job has no window. -/
def Lapsed (window : Option Int) (bundle : TokenBundle) (read : Option Time) : Prop :=
  ∀ w, window = some w → ∃ freshUntil now, addSeconds bundle.expiresAt (-w) = some freshUntil ∧
    read = some now ∧ freshUntil < now

/-- The refusals of the store that end an account: for the job all that are no outage. -/
def Refuses (window : Option Int) (f : OAuthCredentialFailure) : Bool :=
  if window.isSome then isDead f else ! f.isTransport

/-- The answers on which a refresh gives up the account of a scope: the store has no credential any more,
the credential has no refresh token, or the provider refuses it. -/
def Condemns (window : Option Int) (scope : CredentialScope) (read : Option Time) :
    Event Sig → Past → Prop
  | ⟨.readToken s, .error f⟩, _ => s = scope ∧ Refuses window f
  | ⟨.readToken s, .ok bundle⟩, _ =>
    s = scope ∧ bundle.refreshToken = none ∧ Lapsed window bundle read
  | ⟨.exchange _ form, .error f⟩, h => f.isInvalidGrant ∧ ∃ bundle refreshToken,
      lastRead scope h = some bundle ∧ bundle.refreshToken = some refreshToken ∧
        form.refreshToken = some refreshToken
  | ⟨.rotate s .., .error f⟩, _ => s = scope ∧ window = none ∧ ¬ f.isTransport
  | _, _ => False

def Condemned (window : Option Int) (companies : List Uuid) (d : DueAccount) (h : Past) : Prop :=
  ∃ ev pre, verdict h = some (ev, pre) ∧
    ∃ companyId ∈ companies, Condemns window (d.scope companyId) (lastClock h) ev pre

/-- The companies whose credentials a call refreshes. -/
def Call.companies : Call → List Uuid
  | .refreshDue companyId | .ensureFresh companyId _ | .refreshOauthCredentials _ companyId => [companyId]
  | .refreshForCompanies _ companies => companies
  | _ => []

/-- The updates of the open transaction of a call. -/
def openUpdates : Past → List (Uuid × ClaimedUpdate)
  | [] => []
  | ⟨.updateTx id u, .ok n⟩ :: h => if n = 0 then openUpdates h else openUpdates h ++ [(id, u)]
  | ⟨.commit, .ok ()⟩ :: _ | ⟨.rollback, .ok ()⟩ :: _ | ⟨.drop, ()⟩ :: _ => []
  | _ :: h => openUpdates h

/-- What a refresh keeps to when it ends a transaction. -/
def verdictMust (window : Option Int) (companies : List Uuid) (h : Past) : Op → Prop
  | .updateTx id u => openUpdates h = [] ∧
      ∃ d, openClaim h = some d ∧ d.id = id ∧ (u.Expires ↔ Condemned window companies d h)
  | .commit => (openClaim h = none → openUpdates h = []) ∧
      ∀ d, openClaim h = some d → ∃ u n pre, h = ⟨.updateTx d.id u, .ok n⟩ :: pre
  | .rollback => ∀ d, openClaim h = some d → ¬ Condemned window companies d h
  | _ => True

/-- A call that goes on has no open update. -/
def Cleared {ε α : Type} : Except ε α → Past → Prop
  | .ok _, h => openUpdates h = []
  | .error _, _ => True

section

variable {window : Option Int} {companies : List Uuid} {d : DueAccount} {h : Past}

theorem not_condemned {ev : Event Sig} {pre : Past} (hv : verdict h = some (ev, pre))
    (hno : ∀ scope read, ¬ Condemns window scope read ev pre) : ¬ Condemned window companies d h := by
  rintro ⟨ev', pre', hv', companyId, -, hc⟩
  rw [hv, Option.some.injEq, Prod.mk.injEq] at hv'
  obtain ⟨rfl, rfl⟩ := hv'
  exact hno _ _ hc

theorem not_condemned_of_none (hv : verdict h = none) : ¬ Condemned window companies d h := by
  rintro ⟨ev, pre, hv', -⟩
  rw [hv] at hv'
  cases hv'

theorem condemned_readToken {scope : CredentialScope} {ans : Ans (.readToken scope)} :
    Condemned window companies d (⟨.readToken scope, ans⟩ :: h) ↔ ∃ companyId ∈ companies,
      Condemns window (d.scope companyId) (lastClock h) ⟨.readToken scope, ans⟩ h := by
  simp [Condemned, verdict, lastClock]

theorem condemned_exchange {endpoint : ValidatedEndpoint} {form : TokenRequestForm}
    {ans : Ans (.exchange endpoint form)} :
    Condemned window companies d (⟨.exchange endpoint form, ans⟩ :: h) ↔ ∃ companyId ∈ companies,
      Condemns window (d.scope companyId) (lastClock h) ⟨.exchange endpoint form, ans⟩ h := by
  simp [Condemned, verdict, lastClock]

theorem condemned_rotate {scope : CredentialScope} {bundle : TokenBundle} {expiresAt : Time}
    {ans : Ans (.rotate scope bundle expiresAt)} :
    Condemned window companies d (⟨.rotate scope bundle expiresAt, ans⟩ :: h) ↔ ∃ companyId ∈ companies,
      Condemns window (d.scope companyId) (lastClock h) ⟨.rotate scope bundle expiresAt, ans⟩ h := by
  simp [Condemned, verdict, lastClock]

theorem condemned_utcNow {scope : CredentialScope} {bundle : TokenBundle} {now : Time} :
    Condemned window companies d (⟨.utcNow, now⟩ :: ⟨.readToken scope, .ok bundle⟩ :: h) ↔
      ∃ companyId ∈ companies, scope = d.scope companyId ∧ bundle.refreshToken = none ∧
        Lapsed window bundle (some now) := by
  simp [Condemned, verdict, lastClock, Condemns]

theorem verdictMust_commit {u : ClaimedUpdate} {n : Nat} (hd : openClaim h = some d) :
    verdictMust window companies (⟨.updateTx d.id u, .ok n⟩ :: h) .commit := by
  have hcl : openClaim (⟨.updateTx d.id u, .ok n⟩ :: h) = some d := hd
  refine ⟨fun hnone => by simp [hcl] at hnone, fun d' hd' => ?_⟩
  obtain rfl : d = d' := Option.some.inj (hd.symm.trans hd')
  exact ⟨_, _, _, rfl⟩

theorem verdictMust_rollback (hd : openClaim h = some d) (hc : ¬ Condemned window companies d h) :
    verdictMust window companies h .rollback := by
  intro d' hd'
  obtain rfl : d = d' := Option.some.inj (hd.symm.trans hd')
  exact hc

end

/-! ## The service -/

namespace IntegrationsOauthService

variable {companies : List Uuid} {companyId : Uuid} {d : DueAccount} {h : Past} {summary : RefreshSummary}

theorem expireClaimed_judged (hd : openClaim h = some d) (hu : openUpdates h = [])
    (hc : Condemned (some svc.refreshWindow) companies d h) :
    Meets (.ofPast (verdictMust (some svc.refreshWindow) companies)) (expireClaimed d.id summary).run h
      Cleared := by
  simp only [expireClaimed, updateTx, commit, sql, ask, Prog.ask, meets_run_bind, meets_run_orFail,
    meets_call, meets_ret, ofPast_must, ofPast_may, forall_eq]
  refine ⟨⟨hu, d, hd, rfl, iff_of_true trivial hc⟩, ?_⟩
  rintro (err | n)
  · trivial
  refine ⟨verdictMust_commit hd, ?_⟩
  rintro (err | ⟨⟩) <;> trivial

theorem leaveDue_judged (hd : openClaim h = some d)
    (hc : ¬ Condemned (some svc.refreshWindow) companies d h) :
    Meets (.ofPast (verdictMust (some svc.refreshWindow) companies)) (leaveDue summary).run h
      Cleared := by
  simp only [leaveDue, rollback, sql, ask, Prog.ask, meets_run_bind, meets_run_orFail, meets_call,
    meets_ret, ofPast_must, ofPast_may, forall_eq]
  refine ⟨verdictMust_rollback hd hc, ?_⟩
  rintro (err | ⟨⟩) <;> trivial

theorem rotateClaimed_judged {prior : TokenBundle} {response : TokenResponse} {pre : Past}
    {endpoint : ValidatedEndpoint} {form : TokenRequestForm} (hd : openClaim h = some d)
    (hu : openUpdates h = []) (hv : verdict h = some (⟨.exchange endpoint form, .ok response⟩, pre)) :
    Meets (.ofPast (verdictMust (some svc.refreshWindow) companies))
      (rotateClaimed companyId d prior response summary).run h Cleared := by
  simp only [rotateClaimed, utcNow, ask, Prog.ask, meets_run_bind, meets_run_answer, meets_call,
    meets_ret, ofPast_must, ofPast_may, forall_eq]
  refine ⟨trivial, fun now => ?_⟩
  refine meets_expiresAt trivial (leaveDue_judged hd (not_condemned hv fun _ _ h => h))
    fun secs t _ _ _ => ?_
  simp only [updateTx, commit, sql, ask, Prog.ask, meets_run_bind, meets_run_orFail, meets_call,
    meets_ret, ofPast_must, ofPast_may, forall_eq]
  refine ⟨trivial, ?_⟩
  rintro (f | cid)
  · trivial
  have hno : ¬ Condemned (some svc.refreshWindow) companies d
      (⟨.rotate (d.scope companyId) ⟨response.accessToken, response.refreshToken.or prior.refreshToken, t,
        response.scope.or prior.scope⟩ t, .ok cid⟩ :: ⟨.utcNow, now⟩ :: h) :=
    not_condemned rfl fun _ _ h => h
  refine ⟨⟨hu, d, hd, rfl, iff_of_false (fun h => h) hno⟩, ?_⟩
  rintro (err | n)
  · trivial
  refine ⟨verdictMust_commit hd, ?_⟩
  rintro (err | ⟨⟩) <;> trivial

theorem refreshPrior_judged {prior : TokenBundle} (hco : companyId ∈ companies)
    (hd : openClaim h = some d) (hu : openUpdates h = [])
    (hp : lastRead (d.scope companyId) h = some prior)
    (hc : Condemned (some svc.refreshWindow) companies d h ↔ prior.refreshToken = none) :
    Meets (.ofPast (verdictMust (some svc.refreshWindow) companies))
      (svc.refreshPrior lib companyId d prior summary).run h Cleared := by
  unfold refreshPrior
  split
  · exact expireClaimed_judged hd hu (hc.mpr ‹_›)
  rename_i refreshToken hr
  have hno : ¬ Condemned (some svc.refreshWindow) companies d h := by
    rw [hc, hr]
    simp
  split
  · exact leaveDue_judged hd hno
  simp only [ask, Prog.ask, meets_run_bind, meets_run_answer, meets_call, meets_ret, ofPast_must,
    ofPast_may, forall_eq]
  refine ⟨trivial, ?_⟩
  rintro (f | response)
  · simp only [meets_run_ite]
    refine ⟨fun hf => expireClaimed_judged hd hu ?_, fun hf => leaveDue_judged hd ?_⟩
    · exact condemned_exchange.mpr ⟨companyId, hco, hf, prior, refreshToken, hp, hr, rfl⟩
    · rw [condemned_exchange]
      rintro ⟨_, -, hg, -⟩
      exact hf hg
  · exact rotateClaimed_judged hd hu rfl

theorem refreshClaimed_judged (hco : companyId ∈ companies) (hd : openClaim h = some d)
    (hu : openUpdates h = []) :
    Meets (.ofPast (verdictMust (some svc.refreshWindow) companies))
      (svc.refreshClaimed lib companyId d summary).run h Cleared := by
  simp only [refreshClaimed, ask, Prog.ask, meets_run_bind, meets_run_answer, meets_call, meets_ret,
    ofPast_must, ofPast_may, forall_eq]
  refine ⟨trivial, ?_⟩
  rintro (f | prior)
  · simp only [meets_run_ite]
    refine ⟨fun hf => expireClaimed_judged hd hu ?_, fun hf => leaveDue_judged hd ?_⟩
    · exact condemned_readToken.mpr ⟨companyId, hco, rfl, hf⟩
    · rw [condemned_readToken]
      rintro ⟨_, -, -, hg⟩
      exact hf hg
  simp only [meets_run_bind]
  refine meets_orPanic (fun _ => trivial) fun freshUntil hfresh => ?_
  simp only [utcNow, updateTx, commit, sql, ask, Prog.ask, meets_run_bind, meets_run_answer,
    meets_run_ite, meets_run_orFail, meets_call, meets_ret, ofPast_must, ofPast_may, forall_eq]
  refine ⟨trivial, fun now => ?_⟩
  -- the store's bundle condemns the account once it has lapsed
  have hc : Condemned (some svc.refreshWindow) companies d
      (⟨.utcNow, now⟩ :: ⟨.readToken (d.scope companyId), .ok prior⟩ :: h) ↔
        prior.refreshToken = none ∧ freshUntil < now := by
    rw [condemned_utcNow]
    constructor
    · rintro ⟨_, -, -, hr, hl⟩
      obtain ⟨until', now', hu', hn', hlt⟩ := hl _ rfl
      rw [hfresh, Option.some.injEq] at hu'
      obtain rfl : now = now' := Option.some.inj hn'
      exact ⟨hr, hu' ▸ hlt⟩
    · rintro ⟨hr, hlt⟩
      refine ⟨companyId, hco, rfl, hr, fun w hw => ⟨freshUntil, now, ?_, rfl, hlt⟩⟩
      rw [← Option.some.inj hw, hfresh]
  refine ⟨fun hnow => ?_, fun hnow => ?_⟩
  · refine ⟨⟨hu, d, hd, rfl, iff_of_false (fun h => h) fun hg => ?_⟩, ?_⟩
    · exact absurd (hc.mp hg).2 (Int.not_lt.mpr hnow)
    rintro (err | n)
    · trivial
    refine ⟨verdictMust_commit hd, ?_⟩
    rintro (err | ⟨⟩) <;> trivial
  · refine refreshPrior_judged hco hd hu (if_pos rfl) (hc.trans ?_)
    exact and_iff_left (Int.not_le.mp hnow)

theorem refreshDueLoop_judged {left : Nat} (hco : companyId ∈ companies) (hu : openUpdates h = []) :
    Meets (.ofPast (verdictMust (some svc.refreshWindow) companies))
      (svc.refreshDueLoop lib companyId left summary).run h Cleared := by
  induction left generalizing summary h with
  | zero => exact hu
  | succ left ih =>
    simp only [refreshDueLoop, begin, sql, ask, Prog.ask, meets_run_bind, meets_run_orFail,
      meets_call, meets_ret, ofPast_must, ofPast_may, forall_eq]
    refine ⟨trivial, ?_⟩
    rintro (err | ⟨⟩)
    · trivial
    refine ⟨trivial, ?_⟩
    rintro (err | _ | d)
    · trivial
    · simp only [Except.mapError, commit, sql, ask, Prog.ask, meets_run_bind, meets_run_orFail,
        meets_call, meets_ret, ofPast_must, ofPast_may, forall_eq]
      refine ⟨⟨fun _ => hu, by simp [openClaim]⟩, ?_⟩
      rintro (err | ⟨⟩) <;> trivial
    · simp only [Except.mapError, meets_run_bind]
      refine (refreshClaimed_judged hco rfl ?_).mono ?_
      · exact hu
      rintro (err | summary) h' hu'
      · trivial
      · exact ih hu'

theorem refreshNow_judged {accountId : Uuid} (hco : companyId ∈ companies) (hu : openUpdates h = []) :
    Meets (.ofPast (verdictMust (some svc.refreshWindow) companies))
      (svc.refreshNow lib companyId accountId).run h fun _ _ => True := by
  simp only [refreshNow, begin, commit, sql, ask, Prog.ask, meets_run_bind, meets_run_orFail,
    meets_call, meets_ret, ofPast_must, ofPast_may, forall_eq]
  refine ⟨trivial, ?_⟩
  rintro (err | ⟨⟩)
  · trivial
  refine ⟨trivial, ?_⟩
  rintro (err | _ | d)
  · trivial
  · simp only [Except.mapError, meets_run_orFail, meets_call, meets_ret, ofPast_must, ofPast_may,
      forall_eq]
    exact ⟨⟨fun _ => hu, by simp [openClaim]⟩, fun _ => trivial⟩
  · simp only [Except.mapError, meets_run_bind]
    refine (refreshClaimed_judged hco rfl ?_).mono ?_
    · exact hu
    rintro (err | summary) h' - <;> trivial

theorem isDue_judged {expiresAt : Option Time} (hu : openUpdates h = []) :
    Meets (.ofPast (verdictMust (some svc.refreshWindow) companies)) (svc.isDue expiresAt).run h
      Cleared := by
  unfold isDue
  split
  · exact hu
  simp only [meets_run_bind]
  refine meets_orPanic (fun _ => trivial) fun freshUntil _ => ?_
  refine ⟨trivial, fun now h' hh' => ?_⟩
  rw [ofPast_may] at hh'
  subst hh'
  exact hu

theorem ensureFresh_judged {accountId : Uuid} (hco : companyId ∈ companies) (hu : openUpdates h = []) :
    Meets (.ofPast (verdictMust (some svc.refreshWindow) companies))
      (svc.ensureFresh lib companyId accountId).run h fun _ _ => True := by
  have hstatus : ∀ h, Meets (.ofPast (verdictMust (some svc.refreshWindow) companies))
      (status accountId).run h fun _ _ => True := fun h => status_meets accountId fun _ => trivial
  simp only [ensureFresh, fetchAccount, sql, ask, Prog.ask, meets_run_bind, meets_run_orFail,
    meets_call, meets_ret, ofPast_must, ofPast_may, forall_eq]
  refine ⟨trivial, ?_⟩
  rintro (err | _ | account)
  · trivial
  · trivial
  simp only [Except.mapError, meets_run_ite, meets_run_bind]
  refine ⟨fun _ => trivial, fun _ => (isDue_judged ?_).mono ?_⟩
  · exact hu
  rintro (err | due) h' hu'
  · trivial
  refine ⟨fun _ => (refreshNow_judged hco hu').mono ?_, fun _ => hstatus _⟩
  rintro (err | ⟨⟩) h'' -
  · trivial
  · exact hstatus _

end IntegrationsOauthService

/-! ## The job -/

namespace RefreshJob

variable {job : RefreshJob} {companies : List Uuid} {companyId : Uuid} {d : DueAccount}
  {report : RefreshReport} {h : Past}

theorem expire_judged (hd : openClaim h = some d) (hu : openUpdates h = [])
    (hc : Condemned none companies d h) :
    Meets (.ofPast (verdictMust none companies)) (expire d.id report).run h Cleared := by
  simp only [expire, expireAccount, sql, ask, Prog.ask, meets_run_bind, meets_run_orFail, meets_call,
    meets_ret, ofPast_must, ofPast_may, forall_eq]
  refine ⟨⟨hu, d, hd, rfl, iff_of_true trivial hc⟩, ?_⟩
  rintro (err | n)
  · trivial
  refine ⟨verdictMust_commit hd, ?_⟩
  rintro (err | ⟨⟩) <;> trivial

theorem skip_judged (hd : openClaim h = some d) (hc : ¬ Condemned none companies d h) :
    Meets (.ofPast (verdictMust none companies)) (skip report).run h Cleared := by
  simp only [skip, sql, ask, Prog.ask, meets_run_bind, meets_run_orFail, meets_call, meets_ret,
    ofPast_must, ofPast_may, forall_eq]
  refine ⟨verdictMust_rollback hd hc, ?_⟩
  rintro (err | ⟨⟩) <;> trivial

theorem mirror_judged {expiresAt : Time} (hd : openClaim h = some d) (hu : openUpdates h = [])
    (hc : ¬ Condemned none companies d h) :
    Meets (.ofPast (verdictMust none companies)) (mirror d.id expiresAt report).run h Cleared := by
  simp only [mirror, sql, ask, Prog.ask, meets_run_bind, meets_run_orFail, meets_call, meets_ret,
    ofPast_must, ofPast_may, forall_eq]
  refine ⟨⟨hu, d, hd, rfl, iff_of_false (fun h => h) hc⟩, ?_⟩
  rintro (err | n)
  · trivial
  simp only [Except.mapError, meets_run_ite, meets_run_bind, meets_run_orFail, meets_call, meets_ret,
    ofPast_must, ofPast_may, forall_eq]
  refine ⟨fun _ => skip_judged hd hc, fun _ => ⟨verdictMust_commit hd, ?_⟩⟩
  rintro (err | ⟨⟩) <;> trivial

theorem rotateOne_judged {bundle : TokenBundle} {now : Time} {response : TokenResponse} {pre : Past}
    {endpoint : ValidatedEndpoint} {form : TokenRequestForm} (hco : companyId ∈ companies)
    (hd : openClaim h = some d) (hu : openUpdates h = [])
    (hv : verdict h = some (⟨.exchange endpoint form, .ok response⟩, pre)) :
    Meets (.ofPast (verdictMust none companies)) (rotateOne companyId d bundle now response report).run h
      Cleared := by
  simp only [rotateOne, meets_run_bind]
  refine meets_expiresAt trivial (skip_judged hd (not_condemned hv fun _ _ h => h)) fun secs t _ _ _ => ?_
  simp only [ask, Prog.ask, meets_run_bind, meets_run_answer, meets_call, meets_ret, ofPast_must,
    ofPast_may, forall_eq]
  refine ⟨trivial, ?_⟩
  rintro (f | cid)
  · simp only [meets_run_ite]
    refine ⟨fun hf => skip_judged hd ?_, fun hf => expire_judged hd hu ?_⟩
    · rw [condemned_rotate]
      rintro ⟨_, -, -, -, hg⟩
      exact hg hf
    · exact condemned_rotate.mpr ⟨companyId, hco, rfl, rfl, hf⟩
  · refine mirror_judged hd hu ?_
    rw [condemned_rotate]
    rintro ⟨_, -, hf⟩
    exact hf

theorem refreshBundle_judged {endpoints : ValidatedEndpoints} {client : OAuthClientConfig}
    (hco : companyId ∈ companies) (hd : openClaim h = some d) (hu : openUpdates h = []) :
    Meets (.ofPast (verdictMust none companies)) (refreshBundle companyId endpoints client d report).run h
      Cleared := by
  simp only [refreshBundle, ask, Prog.ask, meets_run_bind, meets_run_answer, meets_call, meets_ret,
    ofPast_must, ofPast_may, forall_eq]
  refine ⟨trivial, ?_⟩
  -- Each exit ends the account exactly where the last answer condemns it.
  rintro (f | bundle)
  · simp only [meets_run_ite]
    refine ⟨fun hf => skip_judged hd ?_, fun hf => expire_judged hd hu ?_⟩
    · rw [condemned_readToken]
      rintro ⟨_, -, -, hg⟩
      simp [Refuses, hf] at hg
    · exact condemned_readToken.mpr ⟨companyId, hco, rfl, by simpa [Refuses] using hf⟩
  dsimp only
  split
  · rename_i hr
    exact expire_judged hd hu (condemned_readToken.mpr ⟨companyId, hco, rfl, hr, by simp [Lapsed]⟩)
  rename_i refreshToken hr
  simp only [utcNow, ask, Prog.ask, meets_run_bind, meets_run_answer, meets_call, meets_ret,
    ofPast_must, ofPast_may, forall_eq]
  refine ⟨trivial, fun now => ⟨trivial, ?_⟩⟩
  rintro (f | response)
  · simp only [meets_run_ite]
    refine ⟨fun hf => expire_judged hd hu ?_, fun hf => skip_judged hd ?_⟩
    · exact condemned_exchange.mpr
        ⟨companyId, hco, hf, bundle, refreshToken, if_pos rfl, hr, rfl⟩
    · rw [condemned_exchange]
      rintro ⟨_, -, hg, -⟩
      exact hf hg
  · exact rotateOne_judged hco hd hu rfl

theorem refreshOne_judged (hco : companyId ∈ companies) (hd : openClaim h = some d)
    (hu : openUpdates h = []) (hv : verdict h = none) :
    Meets (.ofPast (verdictMust none companies)) (job.refreshOne lib companyId d report).run h Cleared := by
  unfold refreshOne
  split
  · exact skip_judged hd (not_condemned_of_none hv)
  split
  · exact skip_judged hd (not_condemned_of_none hv)
  · exact refreshBundle_judged hco hd hu

theorem refreshLoop_judged {left : Nat} {attempted : List Uuid} (hco : companyId ∈ companies)
    (hu : openUpdates h = []) :
    Meets (.ofPast (verdictMust none companies)) (job.refreshLoop lib companyId left attempted report).run h
      fun _ _ => True := by
  induction left generalizing attempted report h with
  | zero => trivial
  | succ left ih =>
    simp only [refreshLoop, sql, ask, Prog.ask, meets_run_bind, meets_run_orFail, meets_call,
      meets_ret, ofPast_must, ofPast_may, forall_eq]
    refine ⟨trivial, ?_⟩
    rintro (err | ⟨⟩)
    · trivial
    refine ⟨trivial, ?_⟩
    rintro (err | _ | d)
    · trivial
    · simp only [Except.mapError, meets_run_bind, meets_run_orFail, meets_call, meets_ret,
        ofPast_must, ofPast_may, forall_eq]
      refine ⟨by simp [verdictMust, openClaim], ?_⟩
      rintro (err | ⟨⟩) <;> trivial
    · simp only [Except.mapError, meets_run_bind]
      refine (refreshOne_judged hco rfl ?_ rfl).mono ?_
      · exact hu
      rintro (err | report) h' hu'
      · trivial
      · exact ih hu'

theorem refreshForCompanies_judged {cs : List Uuid} (hcs : cs ⊆ companies) (hu : openUpdates h = []) :
    Meets (.ofPast (verdictMust none companies)) (job.refreshForCompanies lib cs) h fun _ _ => True := by
  induction cs generalizing h with
  | nil => trivial
  | cons c cs ih =>
    rw [List.cons_subset] at hcs
    simp only [refreshForCompanies, ask, Prog.ask, meets_bind, meets_call, meets_ret, meets_pure,
      ofPast_may, forall_eq]
    exact (refreshLoop_judged hcs.1 hu).mono fun _ _ _ => ⟨trivial, fun _ => ih hcs.2 rfl⟩

end RefreshJob

/-! ## The script -/

/-- The window of the service, in the calls of its own. -/
def Call.window (svc : IntegrationsOauthService) : Call → Option Int
  | .refreshOauthCredentials .. | .refreshForCompanies .. => none
  | _ => some svc.refreshWindow

/-- The refresh that a call does goes by the answers. -/
def verdicts (lib : Crates) (svc : IntegrationsOauthService) : Script (system lib svc) where
  must c h op := c.isRefresh → verdictMust (c.window svc) c.companies h op
  leave _ _ _ := True

theorem verdicts_holds (lib : Crates) (svc : IntegrationsOauthService) : (verdicts lib svc).Holds := by
  intro c
  cases c <;> simp only [system, prog]
  case authorize | complete | disconnect | status =>
    exact Meets.trivial fun _ _ h => absurd h Bool.false_ne_true
  case refreshDue companyId =>
    exact ((refreshDueLoop_judged (List.mem_singleton_self companyId) rfl).ofPast
      fun h op hop _ => hop).mono fun _ _ _ => trivial
  case ensureFresh companyId accountId =>
    exact (ensureFresh_judged (List.mem_singleton_self companyId) rfl).ofPast fun h op hop _ => hop
  case refreshOauthCredentials job companyId =>
    exact (RefreshJob.refreshLoop_judged (List.mem_singleton_self companyId) rfl).ofPast
      fun h op hop _ => hop
  case refreshForCompanies job companies =>
    exact (RefreshJob.refreshForCompanies_judged (List.Subset.refl companies) rfl).ofPast
      fun h op hop _ => hop

/-! ## The open updates are the open writes -/

def Write.update? : Write → Option (Uuid × ClaimedUpdate)
  | .update id u _ => some (id, u)
  | _ => none

theorem Hub.Change.openUpdates {t : Tid} {w w' : Hub} {op : Op} {ans : Ans op} {h : Past}
    (hc : Hub.Change t w op ans w') (hw : (w.txs.writes t).filterMap Write.update? = openUpdates h) :
    (w'.txs.writes t).filterMap Write.update? = OAuth.openUpdates (⟨op, ans⟩ :: h) := by
  cases hc with
  | @quiet op ans hq =>
    rw [hw]
    cases op <;> first
      | rfl
      | (rcases ans with err | a <;> first | rfl | exact hq.elim | exact (if_pos hq).symm)
  | deleteRow hr hfree => simpa [Write.update?, OAuth.openUpdates, List.filterMap_cons] using hw
  | insertAccount hr => simpa [Write.update?, OAuth.openUpdates, List.filterMap_cons] using hw
  | updateTx hr hfree => simp [Write.update?, hw, OAuth.openUpdates]
  | commit | rollback | drop => simp [OAuth.openUpdates]
  | _ => exact hw

theorem Hub.env_txs {e : Env} {w w' : Hub} (h : Hub.env e w = some w') : w'.txs = w.txs := by
  cases e with
  | tick clock =>
    simp only [Hub.env, Option.ite_none_right_eq_some, Option.some.injEq] at h
    rw [← h.2]
  | kill token =>
    cases h
    rfl

theorem Owned.writes_eq_nil (h : Owned cfg) {t : Tid} (hq : (cfg.threads t).Quiet) :
    (Hub.txs cfg.world).writes t = [] :=
  List.eq_nil_iff_forall_not_mem.mpr fun _ hm => h.writes hm hq

theorem openUpdates_of_running (h₀ : w₀.Idle) (hr : Reach (system lib svc) (· = w₀) ok cfg) {t : Tid}
    {c : Call} {p : Prog Sig (Res c)} (ht : cfg.threads t = .running c p) :
    ((Hub.txs cfg.world).writes t).filterMap Write.update? = openUpdates (cfg.events t) := by
  induction hr generalizing c with
  | init h => simp at ht
  | @step cfg l cfg' h _ hs ih =>
    -- a thread that another one leaves alone
    have stays : ∀ {u w th}, t ≠ u → (cfg.put w u th l).threads t = .running c p →
        Hub.txs w = Hub.txs cfg.world ∨ (Hub.txs w).writes t = (Hub.txs cfg.world).writes t →
        ((Hub.txs w).writes t).filterMap Write.update? = openUpdates (cfg.events t) := by
      intro u w th hu hrun hw
      rw [cfg.put_threads_ne _ _ _ hu] at hrun
      rcases hw with hw | hw <;> rw [hw] <;> exact ih hrun
    cases hs with
    | @start u c' hidle =>
      rw [Config.events_put_ne event?_start]
      by_cases hu : t = u
      · subst hu
        have hev := (script_holds lib svc).tracks h t
        rw [hidle] at hev
        rw [hev, Config.put_world, (owned_of_reach h₀ h).writes_eq_nil (by rw [hidle]; trivial)]
        rfl
      · exact stays hu ht (.inl rfl)
    | @op u c' op ans k w hrun hw =>
      have hc := Hub.next_change hw
      by_cases hu : t = u
      · subst hu
        rw [Config.events_put_op]
        exact hc.openUpdates (ih hrun)
      · rw [Config.events_put_ne (Config.event?_ne hu)]
        exact stays hu ht (.inr (hc.others hu).1)
    | @finish u c' r hrun =>
      rw [Config.events_put_ne event?_finish]
      by_cases hu : t = u
      · subst hu
        simp at ht
      · exact stays hu ht (.inr (Txs.clear_writes_ne hu))
    | @crash u c' p' hrun =>
      rw [Config.events_put_ne event?_crash]
      by_cases hu : t = u
      · subst hu
        simp at ht
      · exact stays hu ht (.inr (Txs.clear_writes_ne hu))
    | @env e w hw =>
      rw [← Hub.env_txs hw] at ih
      exact ih ht

theorem updateTx_one (h₀ : w₀.Idle) (hr : Reach (system lib svc) (· = w₀) ok cfg) {t : Tid} {id : Uuid}
    {u : ClaimedUpdate} {n : Nat} (hd : cfg.Did t (.updateTx id u) (.ok n)) : n = 1 := by
  induction hr with
  | init h => cases hd
  | @step cfg l cfg' h _ hs ih =>
    rcases hs.did.mp hd with rfl | hd
    · obtain ⟨d, hopen, rfl⟩ := update_claimed h hs
      obtain ⟨c, p, ht⟩ : ∃ c p, cfg.threads t = .running c p := by
        cases hs with
        | op ht hw => exact ⟨_, _, ht⟩
      obtain ⟨r, hrow, hactive⟩ := Hub.status?_eq_some.mp ((locked_of_reach h₀ h).claimed ht hopen).2
      have htarget : Hub.claimedTarget cfg.world d.id u = some r := by
        have hguard : u.guard r.status := by
          rw [hactive]
          cases u <;> rfl
        simp [Hub.claimedTarget, hrow, hguard]
      have hnext := hs.next_eq
      simp only [system, Hub.next, htarget, Option.ite_none_right_eq_some] at hnext
      exact hnext.1.1
    · exact ih hd

theorem update_of_refresh (h₀ : w₀.Idle) (hr : Reach (system lib svc) (· = w₀) ok cfg) {t : Tid} {c : Call}
    (ht : cfg.call? t = some c) (hc : c.isRefresh) {wr : Write}
    (hm : wr ∈ (Hub.txs cfg.world).writes t) : ∃ id u now, wr = .update id u now := by
  cases wr with
  | update id u now => exact ⟨id, u, now, rfl⟩
  | delete id =>
    obtain ⟨req, hcall⟩ := delete_asked hr h₀ hm
    rw [ht, Option.some.injEq] at hcall
    subst hcall
    cases hc
  | insert row =>
    obtain ⟨req, a, hcall, -⟩ := insert_row hr h₀ hm
    rw [ht, Option.some.injEq] at hcall
    subst hcall
    cases hc

theorem writes_of_updates {ws : List Write} (hall : ∀ wr ∈ ws, ∃ id u now, wr = .update id u now) :
    (ws.filterMap Write.update? = [] → ws = []) ∧ ∀ id u, ws.filterMap Write.update? = [(id, u)] →
      ∃ now, ws = [.update id u now] := by
  have hnil : ∀ ws : List Write, (∀ wr ∈ ws, ∃ id u now, wr = .update id u now) →
      ws.filterMap Write.update? = [] → ws = [] := by
    intro ws hall h
    rw [List.filterMap_eq_nil_iff] at h
    refine List.eq_nil_iff_forall_not_mem.mpr fun wr hm => ?_
    obtain ⟨id, u, now, rfl⟩ := hall wr hm
    simpa [Write.update?] using h _ hm
  refine ⟨hnil ws hall, fun id u h => ?_⟩
  cases ws with
  | nil => cases h
  | cons wr ws =>
    obtain ⟨⟨id', u', now, rfl⟩, hrest⟩ := List.forall_mem_cons.mp hall
    simp only [Write.update?, List.filterMap_cons, List.cons.injEq, Prod.mk.injEq] at h
    obtain ⟨⟨rfl, rfl⟩, h⟩ := h
    exact ⟨now, by rw [hnil ws hrest h]⟩

/-- What a refresh commits on the account that it has claimed. -/
theorem writes_of_claim (h₀ : w₀.Idle) (hr : Reach (system lib svc) (· = w₀) ok cfg) {t : Tid} {c : Call}
    {k : Ans .commit → Prog Sig (Res c)} (ht : cfg.threads t = .running c (.call .commit k))
    (hc : c.isRefresh) {d : DueAccount} (hd : openClaim (cfg.events t) = some d) :
    ∃ u now, (Hub.txs cfg.world).writes t = [.update d.id u now] ∧
      (u.Expires ↔ Condemned (c.window svc) c.companies d (cfg.events t)) := by
  have hV := verdicts_holds lib svc
  have hcall : cfg.call? t = some c := by rw [Config.call?, ht]; rfl
  obtain ⟨u, n, pre, hev⟩ := (hV.must hr ht hc).2 d hd
  have hkept := hV.kept hr t
  rw [hcall, hev] at hkept
  obtain ⟨hnone, d', hd', hid, hu⟩ := hkept.1 hc
  rw [hev] at hd
  obtain rfl : d = d' := Option.some.inj (hd.symm.trans hd')
  have hone : n = 1 := updateTx_one h₀ hr (mem_events.mp (hev ▸ List.mem_cons_self))
  have hopen := openUpdates_of_running h₀ hr ht
  rw [hev, hone, openUpdates, if_neg Nat.one_ne_zero, hnone, List.nil_append] at hopen
  obtain ⟨now, hw⟩ :=
    (writes_of_updates fun wr hm => update_of_refresh h₀ hr hcall hc hm).2 d.id u hopen
  refine ⟨u, now, hw, ?_⟩
  rw [hev]
  exact hu

theorem writes_of_no_claim (h₀ : w₀.Idle) (hr : Reach (system lib svc) (· = w₀) ok cfg) {t : Tid} {c : Call}
    {k : Ans .commit → Prog Sig (Res c)} (ht : cfg.threads t = .running c (.call .commit k))
    (hc : c.isRefresh) (hd : openClaim (cfg.events t) = none) : (Hub.txs cfg.world).writes t = [] := by
  have hcall : cfg.call? t = some c := by rw [Config.call?, ht]; rfl
  refine (writes_of_updates fun wr hm => update_of_refresh h₀ hr hcall hc hm).1 ?_
  rw [openUpdates_of_running h₀ hr ht]
  exact ((verdicts_holds lib svc).must hr ht hc).1 hd

theorem Hub.status?_commit_update {w : Hub} {t : Tid} {id id' : Uuid} {u : ClaimedUpdate} {now : Time}
    {r : Account} (hw : w.txs.writes t = [.update id u now]) (hr : w.accounts.lookup id = some r) :
    (w.commit t).status? id' =
      if id' = id then some (if u.Expires then .expired else r.status) else w.status? id' := by
  rw [status?, commit_accounts, hw, List.foldl_cons, List.foldl_nil, apply_lookup]
  by_cases hid : id' = id
  · subst hid
    simp [Write.id, hr, ClaimedUpdate.set_status]
  · simp [Write.id, hid, status?]

/-! ## Who ends an account -/

theorem refresh_of_update (h₀ : w₀.Idle) (hr : Reach (system lib svc) (· = w₀) ok cfg) {t : Tid}
    {id : Uuid} {u : ClaimedUpdate} {now : Time} (hm : .update id u now ∈ (Hub.txs cfg.world).writes t) :
    ∃ c, cfg.call? t = some c ∧ c.isRefresh := by
  have hX := script_holds lib svc
  have hd : cfg.Did t (.updateTx id u) (.ok 1) := asked_of_writes hr h₀ hm
  obtain ⟨c, hc⟩ := hX.call_of_did hr hd
  obtain ⟨pre, -, hmust⟩ := hX.past hr hc hd
  exact ⟨c, hc, isRefresh_of_claims hmust rfl⟩

theorem refresh_of_expired (h₀ : w₀.Idle) (hr : Reach (system lib svc) (· = w₀) ok cfg)
    {l : Label (system lib svc)} (hs : Step (system lib svc) cfg l cfg') {id : Uuid}
    (ha : Hub.status? cfg.world id = some .active) (he : Hub.status? cfg'.world id = some .expired) :
    ∃ t c, l = .op t .commit (.ok ()) ∧ cfg.call? t = some c ∧ c.isRefresh := by
  by_cases hl : ∃ t op ans, l = .op t op ans
  swap
  · push Not at hl
    rw [(step_beside hs hl).status?, ha] at he
    cases he
  obtain ⟨t, op, ans, rfl⟩ := hl
  obtain ⟨r, hrow, hactive⟩ := Hub.status?_eq_some.mp ha
  have hkept : Hub.status? cfg'.world id ≠ Hub.status? cfg.world id := by simp [ha, he]
  have hc := step_change hs
  generalize cfg'.world = w' at hc he hkept
  cases hc with
  | commit =>
    have hne : ∀ row, .insert row ∈ (Hub.txs cfg.world).writes t → row.id ≠ id := by
      rintro row hm rfl
      rw [(minted_of_reach h₀ hr).absent hm] at ha
      cases ha
    have hw := Hub.foldl_rewritten hrow hne
    obtain ⟨r', hrow', hexpired⟩ := Hub.status?_eq_some.mp he
    rw [← Hub.commit_accounts, hrow'] at hw
    cases hw with
    | kept hk hs' =>
      rw [hexpired, hactive] at hs'
      cases hs'
    | expired hk hs' hu hm =>
      obtain ⟨c, hcall, href⟩ := refresh_of_update h₀ hr hm
      exact ⟨t, c, rfl, hcall, href⟩
  | @update x u r' hrow' hfree =>
    by_cases hid : id = x
    · subst hid
      -- No update outside a transaction sets `expired`.
      cases u <;> simp [Hub.status?, Hub.setStatus, StatusUpdate.set] at he
    · exact absurd (by simp [Hub.status?, Hub.setStatus, AList.lookup_insert_ne hid]) hkept
  | _ => exact absurd rfl hkept

/-- The commit of a refresh ends the account that it has claimed, if that was condemned, and no other. -/
theorem expired_of_commit (h₀ : w₀.Idle) (hr : Reach (system lib svc) (· = w₀) ok cfg) {t : Tid}
    {c : Call} (hs : Step (system lib svc) cfg (.op t .commit (.ok ())) cfg') (hcall : cfg.call? t = some c)
    (hc : c.isRefresh) {id : Uuid} (ha : Hub.status? cfg.world id = some .active) :
    Hub.status? cfg'.world id = some .expired ↔ ∃ d, openClaim (cfg.events t) = some d ∧ d.id = id ∧
      Condemned (c.window svc) c.companies d (cfg.events t) := by
  cases hs with
  | @op _ c' _ _ k w ht hw =>
    obtain rfl : c' = c := by simpa [Config.call?, ht, Thread.call?] using hcall
    obtain rfl : Hub.commit cfg.world t = w := by simpa [system, Hub.next] using hw
    rw [Config.put_world]
    cases hd : openClaim (cfg.events t) with
    | none =>
      have hnil := writes_of_no_claim h₀ hr ht hc hd
      rw [Hub.status?, Hub.commit_accounts, hnil, List.foldl_nil, ← Hub.status?, ha]
      simp
    | some d =>
      obtain ⟨u, now, hwrites, hu⟩ := writes_of_claim h₀ hr ht hc hd
      obtain ⟨r, hrow, hactive⟩ := Hub.status?_eq_some.mp ((locked_of_reach h₀ hr).claimed ht hd).2
      rw [Hub.status?_commit_update hwrites hrow]
      by_cases hid : id = d.id
      · subst hid
        by_cases hexp : u.Expires
        · simp [hexp, hu.mp hexp]
        · simp [hexp, hactive, mt hu.mpr hexp]
      · simp [hid, Ne.symm hid, ha]

/-- **What ends an account.** In every step of every run, an active account ends exactly when a refresh
commits on it and the store or the provider had condemned it; and a refresh that rolls back leaves an
account that was not condemned. -/
theorem expired_iff_condemned (h₀ : w₀.Idle) (hr : Reach (system lib svc) (· = w₀) ok cfg)
    {l : Label (system lib svc)} (hs : Step (system lib svc) cfg l cfg') :
    (∀ id, Hub.status? cfg.world id = some .active →
      (Hub.status? cfg'.world id = some .expired ↔
        ∃ t c d, l = .op t .commit (.ok ()) ∧ cfg.call? t = some c ∧ c.isRefresh ∧
          openClaim (cfg.events t) = some d ∧ d.id = id ∧
          Condemned (c.window svc) c.companies d (cfg.events t))) ∧
    ∀ t c d ans, l = .op t .rollback ans → cfg.call? t = some c → c.isRefresh →
      openClaim (cfg.events t) = some d → ¬ Condemned (c.window svc) c.companies d (cfg.events t) := by
  constructor
  · intro id ha
    constructor
    · intro he
      obtain ⟨t, c, rfl, hcall, hc⟩ := refresh_of_expired h₀ hr hs ha he
      obtain ⟨d, hd, hid, hcond⟩ := (expired_of_commit h₀ hr hs hcall hc ha).mp he
      exact ⟨t, c, d, rfl, hcall, hc, hd, hid, hcond⟩
    · rintro ⟨t, c, d, rfl, hcall, hc, hd, hid, hcond⟩
      exact (expired_of_commit h₀ hr hs hcall hc ha).mpr ⟨d, hd, hid, hcond⟩
  · rintro t c d ans rfl hcall hc hd
    obtain ⟨c', hcall', hm⟩ := (verdicts_holds lib svc).asked hr hs
    obtain rfl : c = c' := Option.some.inj (hcall.symm.trans hcall')
    exact hm hc d hd

/-- The account is completed, and at 3,100 seconds the provider refuses its refresh token. -/
def refusedRenewal : List (Label (system mailCrates mailService)) :=
  mailRenewal.take 16 ++
  [.op 1 (.exchange gmailToken mailRefreshForm) (.error ⟨.invalidGrant, ""⟩),
    .op 1 (.updateTx 1 .expireActive) (.ok (1 : Nat))]

/-- Thread 1 is at its commit. -/
def refusedRenewalEnd (cfg : Config (system mailCrates mailService)) : Bool :=
  (match cfg.threads 1 with
    | .running (.refreshDue 9) (.call .commit _) => true
    | _ => false) &&
  Hub.status? cfg.world 1 == some .active

theorem refusedRenewal_runs : (replay (fun _ _ => True) (.init mailHub) refusedRenewal).any
    refusedRenewalEnd = true := by
  decide +kernel

theorem expired_iff_condemned_mailbox : ∃ cfg cfg' : Config (system mailCrates mailService),
    cfg.hist = refusedRenewal.reverse ∧ Step _ cfg (.op 1 .commit (.ok ())) cfg' ∧
      Hub.status? cfg'.world 1 = some .expired := by
  obtain ⟨cfg, hr, hh, hend⟩ : ∃ cfg, Reach (system mailCrates mailService) (· = mailHub)
      (fun _ _ => True) cfg ∧ cfg.hist = refusedRenewal.reverse ∧ refusedRenewalEnd cfg = true := by
    refine Reach.exists_of_replay ?_ refusedRenewal_runs
    rfl
  simp only [refusedRenewalEnd, Bool.and_eq_true, beq_iff_eq] at hend
  obtain ⟨hrun, hactive⟩ := hend
  split at hrun
  · rename_i k ht
    obtain ⟨cfg', hs⟩ : ∃ cfg', Step _ cfg (.op 1 .commit (.ok ())) cfg' := ⟨_, .op ht rfl⟩
    refine ⟨cfg, cfg', hh, hs, ?_⟩
    refine ((expired_iff_condemned mailHub_idle hr hs).1 1 hactive).mpr
      ⟨1, .refreshDue 9, dueAccount, rfl, ?_, rfl, ?_, rfl, ?_⟩
    · rw [Config.call?, ht]
      rfl
    · rw [Config.events, hh]
      rfl
    · rw [Config.events, hh]
      refine ⟨_, _, rfl, 9, List.mem_singleton_self 9, rfl, mailBundle, "refresh-1", rfl, rfl, rfl⟩
  · cases hrun

end BackboneIntegrations.OAuth
