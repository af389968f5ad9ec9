import BackboneIntegrations.Interleave.Ghost
import BackboneIntegrations.OAuth.Alone
import BackboneIntegrations.OAuth.Locks

/-!
# Single flight

Sweeps and lazy refreshes that run at the same time rotate the credential of an account once.
-/

open Interleave

namespace BackboneIntegrations.OAuth

open IntegrationsOauthService

/-! ## The span -/

/-- A span of time, with a bound on the refresh windows. -/
structure Span where
  window : Int
  start : Time
  stop : Time

namespace Span

variable (sp : Span)

/-- What expires after the limit is not due before the span ends. -/
def limit : Time := sp.stop + sp.window * microsPerSecond

/-- The refreshes of one scope. -/
def Refreshes (svc : IntegrationsOauthService) (co : Uuid) : Call → Prop
  | .refreshDue companyId | .ensureFresh companyId _ =>
    companyId = co ∧ svc.refreshWindow ≤ sp.window
  | .refreshOauthCredentials job companyId =>
    companyId = co ∧ job.schedule.refreshWindowSeconds ≤ sp.window
  | _ => False

/-- A token that the provider gives outlasts the window by more than the span. -/
def Outlasts : (op : Op) → Ans op → Prop
  | .exchange _ _, .ok response => ∃ secs ∈ response.expiresIn, sp.window < secs ∧
    sp.stop - sp.start < (secs - sp.window) * microsPerSecond
  | _, _ => True

/-- The runs of the span: no call crashes, no statement fails, and time stays in the span. -/
def Allows {lib : Crates} {svc : IntegrationsOauthService} (co : Uuid)
    (cfg : Config (system lib svc)) : Label (system lib svc) → Prop
  | .start _ c => sp.Refreshes svc co c
  | .op _ op ans => storeAnswers cfg.world op ans ∧ sp.Outlasts op ans
  | .finish _ => True
  | .crash _ => False
  | .env (.tick clock) => clock ≤ sp.stop
  | .env (.kill _) => True

instance (svc : IntegrationsOauthService) (co : Uuid) : DecidablePred (sp.Refreshes svc co)
  | .refreshDue companyId | .ensureFresh companyId _ =>
    inferInstanceAs (Decidable (companyId = co ∧ svc.refreshWindow ≤ sp.window))
  | .refreshOauthCredentials job companyId =>
    inferInstanceAs (Decidable (companyId = co ∧ job.schedule.refreshWindowSeconds ≤ sp.window))
  | .authorize _ | .complete .. | .disconnect .. | .status _ | .refreshForCompanies .. => .isFalse id

/-- The token that the provider gives. -/
def given? : (op : Op) → Ans op → Option TokenResponse
  | .exchange _ _, .ok response => some response
  | _, _ => none

theorem outlasts_iff {op : Op} {ans : Ans op} :
    (∀ response ∈ given? op ans, ∃ secs ∈ response.expiresIn, sp.window < secs ∧
      sp.stop - sp.start < (secs - sp.window) * microsPerSecond) ↔ sp.Outlasts op ans := by
  unfold given? Outlasts
  split <;> simp

instance (op : Op) (ans : Ans op) : Decidable (sp.Outlasts op ans) :=
  decidable_of_iff _ sp.outlasts_iff

instance {lib : Crates} {svc : IntegrationsOauthService} (co : Uuid) (cfg : Config (system lib svc)) :
    DecidablePred (sp.Allows co cfg)
  | .start _ c => inferInstanceAs (Decidable (sp.Refreshes svc co c))
  | .op _ op ans => inferInstanceAs (Decidable (storeAnswers cfg.world op ans ∧ sp.Outlasts op ans))
  | .finish _ | .env (.kill _) => .isTrue trivial
  | .crash _ => .isFalse id
  | .env (.tick clock) => inferInstanceAs (Decidable (clock ≤ sp.stop))

/-- The update ends the account, or it gives it an expiry after the limit. -/
def Settles : ClaimedUpdate → Prop
  | .expireActive | .expire => True
  | .resync e | .mirror e _ _ | .mirrorNow e => sp.limit < e

end Span

section

variable {lib : Crates} {svc : IntegrationsOauthService}

def rotated? : Label (system lib svc) → Option CredentialScope
  | .op _ (.rotate scope _ _) (.ok _) => some scope
  | _ => none

/-- How often the credential of the scope was rotated. -/
def rotations (scope : CredentialScope) (hist : List (Label (system lib svc))) : Nat :=
  hist.countP fun l => rotated? l = some scope

end

/-! ## The stages of a refresh -/

/-- Where a call is between its claim and its commit. `first` says that it knows the credential was
not rotated before. -/
inductive Stage where
  | free
  | opened
  | claimed (d : DueAccount) (first : Bool)
  | rotated (d : DueAccount)
  | settled (d : DueAccount)

namespace Stage

variable (sp : Span) (co : Uuid)

def must : Stage → Op → Prop
  | _, .utcNow | _, .panic | _, .fetchAccount _ | _, .exchange _ _ => True
  | s, .begin => s = .free
  | s, .claimDue window _ => s = .opened ∧ window ≤ sp.window
  | s, .claimById _ => s = .opened
  | s, .readToken scope => ∃ d first, s = .claimed d first ∧ scope = d.scope co
  | s, .rotate scope bundle _ =>
    ∃ d, s = .claimed d true ∧ scope = d.scope co ∧ sp.limit < bundle.expiresAt
  | s, .updateTx id u => ∃ d, id = d.id ∧
    (s = .claimed d true ∨ sp.Settles u ∧ ((∃ first, s = .claimed d first) ∨ s = .rotated d))
  | s, .commit => s = .opened ∨ ∃ d, s = .settled d
  | s, .rollback => s = .opened ∨ ∃ d first, s = .claimed d first
  | _, _ => False

def next (s : Stage) : (op : Op) → Ans op → Stage → Prop
  | .begin, .ok (), s' => s' = .opened
  | .claimDue _ _, .ok (some d), s' => s' = .claimed d true
  | .claimById _, .ok (some d), s' => s' = .claimed d false
  | .readToken _, .ok b, s' =>
    ∃ d first, s = .claimed d first ∧ (s' = .claimed d true ∨ s' = s ∧ sp.limit < b.expiresAt)
  | .rotate _ _ _, .ok _, s' => ∃ d, s = .claimed d true ∧ s' = .rotated d
  | .updateTx id _, .ok n, s' => n = 1 ∧ ∃ d, id = d.id ∧ s' = .settled d
  | .commit, .ok (), s' | .rollback, .ok (), s' => s' = .free
  | .utcNow, now, s' => sp.start ≤ now ∧ now ≤ sp.stop ∧ s' = s
  | .exchange endpoint form, ans, s' => sp.Outlasts (.exchange endpoint form) ans ∧ s' = s
  | _, _, s' => s' = s

/-- A call can end before its claim, after its commit, or with nothing written. -/
def Ends : Stage → Prop
  | .free | .claimed .. => True
  | .opened | .rotated _ | .settled _ => False

def contract : Contract Sig Stage where
  must := must sp co
  may s op ans s' := Answered op ans ∧ next sp s op ans s'

section

variable {sp : Span} {co : Uuid} {α : Type} {s : Stage} {d : DueAccount} {Q : α → Stage → Prop}

@[simp] theorem contract_must : (contract sp co).must = must sp co := rfl

theorem meets_utcNow {k : Time → Prog Sig α}
    (hk : ∀ now, sp.start ≤ now → now ≤ sp.stop → Meets (contract sp co) (k now) s Q) :
    Meets (contract sp co) (.call (S := Sig) .utcNow k) s Q := by
  refine ⟨trivial, ?_⟩
  rintro now s' ⟨-, hstart, hstop, rfl⟩
  exact hk now hstart hstop

theorem meets_begin {k : Except DbError Unit → Prog Sig α}
    (hk : Meets (contract sp co) (k (.ok ())) .opened Q) :
    Meets (contract sp co) (.call (S := Sig) .begin k) .free Q := by
  refine ⟨rfl, ?_⟩
  rintro (e | ⟨⟩) s' ⟨ha, hs⟩
  · cases ha
  · cases hs
    exact hk

theorem meets_commit {k : Except DbError Unit → Prog Sig α}
    (hs : s = .opened ∨ ∃ d, s = .settled d) (hk : Meets (contract sp co) (k (.ok ())) .free Q) :
    Meets (contract sp co) (.call (S := Sig) .commit k) s Q := by
  refine ⟨hs, ?_⟩
  rintro (e | ⟨⟩) s' ⟨ha, hs'⟩
  · cases ha
  · cases hs'
    exact hk

theorem meets_rollback {k : Except DbError Unit → Prog Sig α}
    (hs : s = .opened ∨ ∃ d first, s = .claimed d first)
    (hk : Meets (contract sp co) (k (.ok ())) .free Q) :
    Meets (contract sp co) (.call (S := Sig) .rollback k) s Q := by
  refine ⟨hs, ?_⟩
  rintro (e | ⟨⟩) s' ⟨ha, hs'⟩
  · cases ha
  · cases hs'
    exact hk

theorem meets_claimDue {window : Int} {attempted : List Uuid}
    {k : Except DbError (Option DueAccount) → Prog Sig α} (hw : window ≤ sp.window)
    (hnone : Meets (contract sp co) (k (.ok none)) .opened Q)
    (hsome : ∀ d, Meets (contract sp co) (k (.ok (some d))) (.claimed d true) Q) :
    Meets (contract sp co) (.call (S := Sig) (.claimDue window attempted) k) .opened Q := by
  refine ⟨⟨rfl, hw⟩, ?_⟩
  rintro (e | _ | d) s' ⟨ha, hs⟩
  · cases ha
  · cases hs
    exact hnone
  · cases hs
    exact hsome d

theorem meets_claimById {id : Uuid} {k : Except DbError (Option DueAccount) → Prog Sig α}
    (hnone : Meets (contract sp co) (k (.ok none)) .opened Q)
    (hsome : ∀ d, Meets (contract sp co) (k (.ok (some d))) (.claimed d false) Q) :
    Meets (contract sp co) (.call (S := Sig) (.claimById id) k) .opened Q := by
  refine ⟨rfl, ?_⟩
  rintro (e | _ | d) s' ⟨ha, hs⟩
  · cases ha
  · cases hs
    exact hnone
  · cases hs
    exact hsome d

theorem meets_fetchAccount {id : Uuid} {k : Except DbError (Option AccountRow) → Prog Sig α}
    (hk : ∀ r, Meets (contract sp co) (k (.ok r)) s Q) :
    Meets (contract sp co) (.call (S := Sig) (.fetchAccount id) k) s Q := by
  refine ⟨trivial, ?_⟩
  rintro (e | r) s' ⟨ha, hs⟩
  · cases ha
  · cases hs
    exact hk r

theorem meets_exchange {endpoint : ValidatedEndpoint} {form : TokenRequestForm}
    {k : Except TransportFailure TokenResponse → Prog Sig α}
    (hk : ∀ a, sp.Outlasts (.exchange endpoint form) a → Meets (contract sp co) (k a) s Q) :
    Meets (contract sp co) (.call (S := Sig) (.exchange endpoint form) k) s Q := by
  refine ⟨trivial, ?_⟩
  rintro a s' ⟨-, ha, rfl⟩
  exact hk a ha

theorem meets_readToken {first : Bool}
    {k : Except OAuthCredentialFailure TokenBundle → Prog Sig α}
    (herr : ∀ f, Meets (contract sp co) (k (.error f)) (.claimed d first) Q)
    (hfirst : ∀ b, Meets (contract sp co) (k (.ok b)) (.claimed d true) Q)
    (hlater : ∀ b, sp.limit < b.expiresAt → Meets (contract sp co) (k (.ok b)) (.claimed d first) Q) :
    Meets (contract sp co) (.call (S := Sig) (.readToken (d.scope co)) k) (.claimed d first) Q := by
  refine ⟨⟨d, first, rfl, rfl⟩, ?_⟩
  rintro (f | b) s' ⟨-, hs⟩
  · cases hs
    exact herr f
  · obtain ⟨d', first', hd, rfl | ⟨rfl, hb⟩⟩ := hs
    · cases hd
      exact hfirst b
    · exact hlater b hb

theorem meets_readToken_first {k : Except OAuthCredentialFailure TokenBundle → Prog Sig α}
    (herr : ∀ f, Meets (contract sp co) (k (.error f)) (.claimed d true) Q)
    (hok : ∀ b, Meets (contract sp co) (k (.ok b)) (.claimed d true) Q) :
    Meets (contract sp co) (.call (S := Sig) (.readToken (d.scope co)) k) (.claimed d true) Q :=
  meets_readToken herr hok fun b _ => hok b

theorem meets_rotate {bundle : TokenBundle} {e : Time}
    {k : Except OAuthCredentialFailure Uuid → Prog Sig α} (hb : sp.limit < bundle.expiresAt)
    (herr : ∀ f, Meets (contract sp co) (k (.error f)) (.claimed d true) Q)
    (hok : ∀ cid, Meets (contract sp co) (k (.ok cid)) (.rotated d) Q) :
    Meets (contract sp co) (.call (S := Sig) (.rotate (d.scope co) bundle e) k) (.claimed d true)
      Q := by
  refine ⟨⟨d, rfl, rfl, hb⟩, ?_⟩
  rintro (f | cid) s' ⟨-, hs⟩
  · cases hs
    exact herr f
  · obtain ⟨d', hd, rfl⟩ := hs
    cases hd
    exact hok cid

theorem meets_updateTx {u : ClaimedUpdate} {k : Except DbError Nat → Prog Sig α}
    (hs : s = .claimed d true ∨ sp.Settles u ∧ ((∃ first, s = .claimed d first) ∨ s = .rotated d))
    (hk : ∀ d', Meets (contract sp co) (k (.ok 1)) (.settled d') Q) :
    Meets (contract sp co) (.call (S := Sig) (.updateTx d.id u) k) s Q := by
  refine ⟨⟨d, rfl, hs⟩, ?_⟩
  rintro (e | n) s' ⟨ha, hs'⟩
  · cases ha
  · obtain ⟨rfl, d', -, rfl⟩ := hs'
    exact hk d'

end

end Stage

/-! ## Arithmetic of the span -/

theorem lifetime_past_limit {start stop now secs window : Int} (hstart : start ≤ now)
    (hlast : stop - start < (secs - window) * microsPerSecond) :
    stop + window * microsPerSecond < now + secs * microsPerSecond := by
  unfold microsPerSecond at *
  omega

theorem fresh_past_limit {stop now e window w : Int} (hstop : now ≤ stop) (hw : w ≤ window)
    (he : stop + window * microsPerSecond < e) : now ≤ e + -w * microsPerSecond := by
  unfold microsPerSecond at *
  omega

theorem Span.limit_lt (sp : Span) {now e : Time} {response : TokenResponse} {secs : Int}
    (hstart : sp.start ≤ now) (hsecs : response.expiresIn = some secs)
    (hlast : ∃ secs ∈ response.expiresIn, sp.window < secs ∧
      sp.stop - sp.start < (secs - sp.window) * microsPerSecond)
    (he : e = now + secs * microsPerSecond) : sp.limit < e := by
  obtain ⟨secs', hsecs', -, hlt⟩ := hlast
  obtain rfl : secs = secs' := Option.some.inj (hsecs.symm.trans (Option.mem_def.mp hsecs'))
  subst he
  exact lifetime_past_limit hstart hlt

/-! ## The calls -/

section

variable {lib : Crates} {svc : IntegrationsOauthService} {sp : Span} {co : Uuid} {d : DueAccount}
  {first : Bool}

section

variable {Q : Except OauthError RefreshSummary → Stage → Prop} {summary : RefreshSummary}

theorem expireClaimed_flight (hok : ∀ x, Q (.ok x) .free) :
    Meets (Stage.contract sp co) (expireClaimed d.id summary).run (.claimed d first) Q := by
  simp only [expireClaimed, updateTx, commit, sql, ask, Prog.ask, meets_run_bind, meets_run_orFail]
  refine Stage.meets_updateTx (.inr ⟨trivial, .inl ⟨first, rfl⟩⟩) fun d' => ?_
  exact Stage.meets_commit (.inr ⟨d', rfl⟩) (hok _)

theorem leaveDue_flight (hok : ∀ x, Q (.ok x) .free) :
    Meets (Stage.contract sp co) (leaveDue summary).run (.claimed d first) Q := by
  simp only [leaveDue, rollback, sql, ask, Prog.ask, meets_run_bind, meets_run_orFail]
  exact Stage.meets_rollback (.inr ⟨d, first, rfl⟩) (hok _)

theorem rotateClaimed_flight {prior : TokenBundle} {response : TokenResponse}
    (hlast : ∃ secs ∈ response.expiresIn, sp.window < secs ∧
      sp.stop - sp.start < (secs - sp.window) * microsPerSecond)
    (hok : ∀ x, Q (.ok x) .free) (herr : ∀ e, Q (.error e) (.claimed d true)) :
    Meets (Stage.contract sp co) (rotateClaimed co d prior response summary).run (.claimed d true)
      Q := by
  simp only [rotateClaimed, utcNow, ask, Prog.ask, meets_run_bind, meets_run_answer]
  refine Stage.meets_utcNow fun now hstart _ => ?_
  refine meets_expiresAt trivial (leaveDue_flight hok) fun secs e hsecs _ he => ?_
  have hlimit : sp.limit < e := sp.limit_lt hstart hsecs hlast he
  simp only [meets_run_bind, meets_run_orFail]
  refine Stage.meets_rotate hlimit (fun f => herr _) fun cid => ?_
  simp only [updateTx, commit, sql, ask, Prog.ask, meets_run_orFail]
  refine Stage.meets_updateTx (.inr ⟨hlimit, .inr rfl⟩) fun d' => ?_
  exact Stage.meets_commit (.inr ⟨d', rfl⟩) (hok _)

theorem refreshPrior_flight {prior : TokenBundle} (hok : ∀ x, Q (.ok x) .free)
    (herr : ∀ e, Q (.error e) (.claimed d true)) :
    Meets (Stage.contract sp co) (svc.refreshPrior lib co d prior summary).run (.claimed d true) Q := by
  unfold refreshPrior
  split
  · exact expireClaimed_flight hok
  · split
    · exact leaveDue_flight hok
    · simp only [ask, Prog.ask, meets_run_bind, meets_run_answer]
      refine Stage.meets_exchange fun a ha => ?_
      cases a with
      | error f =>
        simp only [meets_ret, meets_run_ite]
        exact ⟨fun _ => expireClaimed_flight hok, fun _ => leaveDue_flight hok⟩
      | ok response => exact rotateClaimed_flight ha hok herr

theorem refreshClaimed_flight (hw : svc.refreshWindow ≤ sp.window) (hok : ∀ x, Q (.ok x) .free)
    (herr : ∀ e, Q (.error e) (.claimed d true)) :
    Meets (Stage.contract sp co) (svc.refreshClaimed lib co d summary).run (.claimed d first) Q := by
  simp only [refreshClaimed, ask, Prog.ask, meets_run_bind, meets_run_answer]
  refine Stage.meets_readToken (fun f => ?_) (fun b => ?_) fun b hb => ?_
  · simp only [meets_ret, meets_run_ite]
    exact ⟨fun _ => expireClaimed_flight hok, fun _ => leaveDue_flight hok⟩
  · simp only [meets_ret, meets_run_bind]
    refine meets_orPanic (fun _ => trivial) fun freshUntil _ => ?_
    simp only [utcNow, ask, Prog.ask, meets_run_bind, meets_run_answer, meets_run_ite]
    refine Stage.meets_utcNow fun now _ _ => ⟨fun _ => ?_, fun _ => refreshPrior_flight hok herr⟩
    simp only [updateTx, commit, sql, ask, Prog.ask, meets_run_orFail]
    refine Stage.meets_updateTx (.inl rfl) fun d' => ?_
    exact Stage.meets_commit (.inr ⟨d', rfl⟩) (hok _)
  · simp only [meets_ret, meets_run_bind]
    refine meets_orPanic (fun _ => trivial) fun freshUntil hfresh => ?_
    simp only [utcNow, ask, Prog.ask, meets_run_bind, meets_run_answer, meets_run_ite]
    refine Stage.meets_utcNow fun now _ hstop => ⟨fun _ => ?_, fun hstale => ?_⟩
    · simp only [updateTx, commit, sql, ask, Prog.ask, meets_run_orFail]
      refine Stage.meets_updateTx (.inr ⟨hb, .inl ⟨first, rfl⟩⟩) fun d' => ?_
      exact Stage.meets_commit (.inr ⟨d', rfl⟩) (hok _)
    · refine absurd ?_ hstale
      rw [addSeconds_eq hfresh]
      exact fresh_past_limit hstop hw hb

end

theorem refreshDueLoop_flight (hw : svc.refreshWindow ≤ sp.window) (left : Nat)
    (summary : RefreshSummary) :
    Meets (Stage.contract sp co) (svc.refreshDueLoop lib co left summary).run .free
      fun _ => Stage.Ends := by
  induction left generalizing summary with
  | zero => trivial
  | succ left ih =>
    simp only [refreshDueLoop, begin, sql, ask, Prog.ask, meets_run_bind, meets_run_orFail]
    refine Stage.meets_begin (Stage.meets_claimDue hw ?_ fun d => ?_)
    · simp only [commit, sql, ask, Prog.ask, meets_run_bind, meets_run_orFail, meets_ret,
        Except.mapError]
      exact Stage.meets_commit (.inl rfl) trivial
    · simp only [meets_ret, Except.mapError, meets_run_bind]
      exact refreshClaimed_flight hw (fun x => ih x) fun e => trivial

theorem refreshNow_flight (hw : svc.refreshWindow ≤ sp.window) {id : Uuid}
    {Q : Except OauthError Unit → Stage → Prop} (hok : Q (.ok ()) .free)
    (herr : ∀ d e, Q (.error e) (.claimed d true)) :
    Meets (Stage.contract sp co) (svc.refreshNow lib co id).run .free Q := by
  simp only [refreshNow, begin, sql, ask, Prog.ask, meets_run_bind, meets_run_orFail]
  refine Stage.meets_begin (Stage.meets_claimById ?_ fun d => ?_)
  · simp only [commit, sql, ask, Prog.ask, meets_run_orFail, meets_ret, Except.mapError]
    exact Stage.meets_commit (.inl rfl) hok
  · simp only [meets_ret, Except.mapError, meets_run_bind]
    exact refreshClaimed_flight hw (fun x => hok) fun e => herr d e

theorem status_flight {s : Stage} (hs : s.Ends) (id : Uuid) :
    Meets (Stage.contract sp co) (status id).run s fun _ => Stage.Ends := by
  simp only [status, fetchAccount, sql, ask, Prog.ask, meets_run_bind, meets_run_orFail]
  refine Stage.meets_fetchAccount fun r => ?_
  cases r <;> exact hs

theorem isDue_flight {s : Stage} {expiresAt : Option Time} {Q : Except OauthError Bool → Stage → Prop}
    (hQ : ∀ due, Q (.ok due) s) :
    Meets (Stage.contract sp co) (svc.isDue expiresAt).run s Q := by
  unfold isDue
  split
  · exact hQ false
  · refine meets_run_bind.mpr (meets_orPanic (fun _ => trivial) fun freshUntil _ => ?_)
    simp only [utcNow, ask, Prog.ask, meets_run_bind, meets_run_answer]
    exact Stage.meets_utcNow fun now _ _ => hQ _

theorem ensureFresh_flight (hw : svc.refreshWindow ≤ sp.window) (id : Uuid) :
    Meets (Stage.contract sp co) (svc.ensureFresh lib co id).run .free fun _ => Stage.Ends := by
  simp only [ensureFresh, fetchAccount, sql, ask, Prog.ask, meets_run_bind, meets_run_orFail]
  refine Stage.meets_fetchAccount fun r => ?_
  cases r with
  | none => trivial
  | some r =>
    simp only [meets_ret, Except.mapError, meets_run_ite, meets_run_bind]
    refine ⟨fun _ => trivial, fun _ => isDue_flight fun due => ⟨fun _ => ?_, fun _ => ?_⟩⟩
    · exact refreshNow_flight hw (status_flight (by trivial) id) fun _ _ => trivial
    · exact status_flight (by trivial) id

section

open RefreshJob

variable {Q : Except DbError RefreshReport → Stage → Prop} {report : RefreshReport}
  {job : RefreshJob}

theorem expire_flight (hok : ∀ x, Q (.ok x) .free) :
    Meets (Stage.contract sp co) (expire d.id report).run (.claimed d first) Q := by
  simp only [expire, expireAccount, RefreshJob.sql, ask, Prog.ask, meets_run_bind,
    meets_run_orFail]
  refine Stage.meets_updateTx (.inr ⟨trivial, .inl ⟨first, rfl⟩⟩) fun d' => ?_
  exact Stage.meets_commit (.inr ⟨d', rfl⟩) (hok _)

theorem skip_flight (hok : ∀ x, Q (.ok x) .free) :
    Meets (Stage.contract sp co) (skip report).run (.claimed d first) Q := by
  simp only [skip, RefreshJob.sql, ask, Prog.ask, meets_run_bind, meets_run_orFail]
  exact Stage.meets_rollback (.inr ⟨d, first, rfl⟩) (hok _)

theorem rotateOne_flight {bundle : TokenBundle} {now : Time} {response : TokenResponse}
    (hstart : sp.start ≤ now)
    (hlast : ∃ secs ∈ response.expiresIn, sp.window < secs ∧
      sp.stop - sp.start < (secs - sp.window) * microsPerSecond)
    (hok : ∀ x, Q (.ok x) .free) :
    Meets (Stage.contract sp co) (rotateOne co d bundle now response report).run (.claimed d true)
      Q := by
  refine meets_run_bind.mpr ?_
  refine meets_expiresAt trivial (skip_flight hok) fun secs e hsecs _ he => ?_
  have hlimit : sp.limit < e := sp.limit_lt hstart hsecs hlast he
  simp only [ask, Prog.ask, meets_run_bind, meets_run_answer]
  refine Stage.meets_rotate hlimit (fun f => ?_) fun cid => ?_
  · simp only [meets_ret, meets_run_ite]
    exact ⟨fun _ => skip_flight hok, fun _ => expire_flight hok⟩
  · simp only [mirror, RefreshJob.sql, ask, Prog.ask, meets_run_bind, meets_run_orFail, meets_ret]
    refine Stage.meets_updateTx (.inr ⟨hlimit, .inr rfl⟩) fun d' => ?_
    refine meets_run_ite.mpr ⟨fun hne => absurd rfl hne, fun _ => ?_⟩
    exact Stage.meets_commit (.inr ⟨d', rfl⟩) (hok _)

theorem refreshBundle_flight {endpoints : ValidatedEndpoints} {client : OAuthClientConfig}
    (hok : ∀ x, Q (.ok x) .free) :
    Meets (Stage.contract sp co) (refreshBundle co endpoints client d report).run (.claimed d true)
      Q := by
  simp only [refreshBundle, ask, Prog.ask, meets_run_bind, meets_run_answer]
  refine Stage.meets_readToken_first (fun f => ?_) fun bundle => ?_
  · simp only [meets_ret, meets_run_ite]
    exact ⟨fun _ => skip_flight hok, fun _ => expire_flight hok⟩
  simp only [meets_ret]
  split
  · exact expire_flight hok
  · simp only [utcNow, ask, Prog.ask, meets_run_bind, meets_run_answer]
    refine Stage.meets_utcNow fun now hstart _ => Stage.meets_exchange fun a ha => ?_
    cases a with
    | error f =>
      simp only [meets_ret, meets_run_ite]
      exact ⟨fun _ => expire_flight hok, fun _ => skip_flight hok⟩
    | ok response => exact rotateOne_flight hstart ha hok

theorem refreshOne_flight (hok : ∀ x, Q (.ok x) .free) :
    Meets (Stage.contract sp co) (job.refreshOne lib co d report).run (.claimed d true) Q := by
  unfold refreshOne
  split
  · exact skip_flight hok
  · split
    · exact skip_flight hok
    · exact refreshBundle_flight hok

theorem refreshLoop_flight (hw : job.schedule.refreshWindowSeconds ≤ sp.window) (left : Nat)
    (attempted : List Uuid) (report : RefreshReport) :
    Meets (Stage.contract sp co) (job.refreshLoop lib co left attempted report).run .free
      fun _ => Stage.Ends := by
  induction left generalizing attempted report with
  | zero => trivial
  | succ left ih =>
    simp only [refreshLoop, RefreshJob.sql, ask, Prog.ask, meets_run_bind, meets_run_orFail]
    refine Stage.meets_begin (Stage.meets_claimDue hw ?_ fun d => ?_)
    · exact Stage.meets_rollback (.inl rfl) trivial
    · simp only [meets_ret, Except.mapError, meets_run_bind]
      exact refreshOne_flight fun x => ih _ x

end

/-- Every refresh goes through its stages. -/
theorem call_flight {c : Call} (hc : sp.Refreshes svc co c) :
    Meets (Stage.contract sp co) (prog lib svc c) .free fun _ => Stage.Ends := by
  cases c with
  | refreshDue companyId =>
    obtain ⟨rfl, hw⟩ := hc
    exact refreshDueLoop_flight hw _ _
  | ensureFresh companyId id =>
    obtain ⟨rfl, hw⟩ := hc
    exact ensureFresh_flight hw id
  | refreshOauthCredentials job companyId =>
    obtain ⟨rfl, hw⟩ := hc
    exact refreshLoop_flight hw _ _ _
  | authorize | complete | disconnect | status | refreshForCompanies => exact hc.elim

end

end BackboneIntegrations.OAuth
