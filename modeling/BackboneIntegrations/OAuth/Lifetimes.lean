import BackboneIntegrations.OAuth.Outbound

/-!
# Lifetimes that no clock can hold

The provider chooses `expires_in`. Where adding it to now panics, so does the call that asked.
-/

open Interleave

namespace BackboneIntegrations.OAuth

/-! ## One lifetime -/

def Representable (t : Time) : Prop := minUtc ≤ t ∧ t ≤ maxUtc

instance : DecidablePred Representable := fun t => by
  unfold Representable
  infer_instance

/-- The expiry that a response means: nothing for a lifetime that no clock can hold. -/
def honestExpiry (response : TokenResponse) (now : Time) : Option Time :=
  match response.expiresIn with
  | none => none
  | some secs =>
    if 0 < secs ∧ Representable (now + secs * microsPerSecond) then some (now + secs * microsPerSecond)
    else none

/-- The lifetime is positive, and it is too long for a duration or ends after the last instant. -/
def Overlong (response : TokenResponse) (now : Time) : Prop :=
  ∃ secs, response.expiresIn = some secs ∧ 0 < secs ∧
    ¬ (secs ≤ maxDurationSeconds ∧ Representable (now + secs * microsPerSecond))

theorem addSeconds_of_pos {now : Time} {secs : Int} (h : 0 < secs) :
    addSeconds now secs =
      if secs ≤ maxDurationSeconds ∧ Representable (now + secs * microsPerSecond) then
        some (now + secs * microsPerSecond)
      else none := by
  have hlow : -maxDurationSeconds ≤ secs := by
    unfold maxDurationSeconds
    omega
  unfold addSeconds
  by_cases hin : secs ≤ maxDurationSeconds ∧ Representable (now + secs * microsPerSecond)
  · rw [if_pos hin, if_pos ⟨hlow, hin⟩]
  · rw [if_neg hin, if_neg fun h => hin h.2]

theorem lifetime_eq {response : TokenResponse} {secs : Int} :
    response.lifetime = some secs ↔ response.expiresIn = some secs ∧ 0 < secs := by
  simp [TokenResponse.lifetime, Option.filter_eq_some_iff]

theorem overlong_iff {response : TokenResponse} {now : Time} :
    Overlong response now ↔ ∃ secs, response.lifetime = some secs ∧ addSeconds now secs = none := by
  unfold Overlong
  constructor
  · rintro ⟨secs, hsecs, hpos, hout⟩
    refine ⟨secs, lifetime_eq.2 ⟨hsecs, hpos⟩, ?_⟩
    rw [addSeconds_of_pos hpos, if_neg hout]
  · rintro ⟨secs, hlife, hadd⟩
    obtain ⟨hsecs, hpos⟩ := lifetime_eq.1 hlife
    refine ⟨secs, hsecs, hpos, ?_⟩
    intro hin
    rw [addSeconds_of_pos hpos, if_pos hin] at hadd
    contradiction

theorem expiresAt_honest_iff {ε : Type} {response : TokenResponse} {now : Time} :
    (expiresAt response now : Flow ε (Option Time)) = pure (honestExpiry response now) ↔
      ¬ Overlong response now := by
  unfold expiresAt
  cases hlife : response.lifetime with
  | none =>
    -- Without a positive lifetime `expires_at` returns nothing, and nothing is honest.
    have hhonest : honestExpiry response now = none := by
      unfold honestExpiry
      split
      · rfl
      · rename_i secs hsecs
        rw [if_neg]
        rintro ⟨hpos, -⟩
        rw [lifetime_eq.2 ⟨hsecs, hpos⟩] at hlife
        contradiction
    simp only [hhonest, true_iff]
    rw [overlong_iff]
    rintro ⟨secs, hsecs, -⟩
    rw [hlife] at hsecs
    contradiction
  | some secs =>
    obtain ⟨hsecs, hpos⟩ := lifetime_eq.1 hlife
    simp only [addSeconds_of_pos hpos]
    split
    · rename_i hin
      have hhonest : honestExpiry response now = some (now + secs * microsPerSecond) := by
        simp only [honestExpiry, hsecs]
        exact if_pos ⟨hpos, hin.2⟩
      rw [hhonest]
      constructor
      · rintro - ⟨secs', hsecs', -, hout⟩
        rw [hsecs] at hsecs'
        obtain rfl := Option.some.inj hsecs'
        exact hout hin
      · intro _
        rfl
    · rename_i hout
      constructor
      · intro h
        exact nomatch (show (.call .panic _ : Prog Sig (Except ε (Option Time))) = .ret _ from h)
      · intro h
        exact absurd ⟨secs, hsecs, hpos, hout⟩ h

/-! ## Points of abort

A program asks to panic exactly at the points of its past that are `bad`.
-/

/-- No point of abort here, nor one operation of the kind `P` further. -/
structure Steady (bad : Past → Prop) (P : Op → Prop) (h : Past) : Prop where
  here : ¬ bad h
  next : ∀ ev : Event Sig, P ev.op → ¬ bad (ev :: h)

/-- Operations of the kind `P` lead to no point of abort, and none is the panic. -/
structure Harmless (bad : Past → Prop) (P : Op → Prop) : Prop where
  panic : ¬ P .panic
  next : ∀ ev ev' h, P ev.op → P ev'.op → ¬ bad (ev' :: ev :: h)

abbrev aborting (bad : Past → Prop) : Contract Sig Past := .ofPast fun h op => op = .panic ↔ bad h

section

variable {bad : Past → Prop} {P : Op → Prop} {ε α β : Type} {h : Past}

theorem not_panic (hP : Harmless bad P) {op : Op} (hop : P op) : op ≠ .panic := by
  rintro rfl
  exact hP.panic hop

theorem asks_steady (hP : Harmless bad P) {p : Prog Sig α} (hp : p.Asks P) (hh : Steady bad P h) :
    Meets (aborting bad) p h fun _ h' => Steady bad P h' := by
  refine hp.meets hh ?_ ?_
  · intro h op hh hop
    exact iff_of_false (not_panic hP hop) hh.here
  · rintro h op ans - hh hop rfl
    exact ⟨hh.next _ hop, fun ev hev => hP.next _ ev h hop hev⟩

theorem steady_bind (hP : Harmless bad P) {p : ExceptT ε (Prog Sig) α} {f : α → ExceptT ε (Prog Sig) β}
    {Q : Except ε β → Past → Prop} (hp : p.run.Asks P) (hh : Steady bad P h)
    (herr : ∀ e h', Steady bad P h' → Q (.error e) h')
    (hf : ∀ a h', Steady bad P h' → Meets (aborting bad) (f a).run h' Q) :
    Meets (aborting bad) (p >>= f).run h Q := by
  rw [meets_run_bind]
  refine (asks_steady hP hp hh).mono ?_
  rintro (e | a) h' hh'
  · exact herr e h' hh'
  · exact hf a h' hh'

theorem steady_last (hP : Harmless bad P) {p : ExceptT ε (Prog Sig) α} (hp : p.run.Asks P)
    (hh : Steady bad P h) : Meets (aborting bad) p.run h fun _ h' => ¬ bad h' :=
  (asks_steady hP hp hh).mono fun _ _ hh' => hh'.here

/-- Where the point behind an answer is one of abort exactly for an overlong lifetime, `expires_at`
goes on steadily. -/
theorem expiresAt_steady {response : TokenResponse} {now : Time} {f : Option Time → ExceptT ε (Prog Sig) β}
    {Q : Except ε β → Past → Prop} (hbad : bad h ↔ Overlong response now)
    (hnext : ∀ ev : Event Sig, P ev.op → ¬ bad (ev :: h))
    (hf : ∀ e, Steady bad P h → Meets (aborting bad) (f e).run h Q) :
    Meets (aborting bad) ((expiresAt response now : Flow ε _) >>= f).run h Q := by
  rw [meets_run_bind]
  apply meets_lifetime
  · intro secs hlife hadd
    exact iff_of_true rfl (hbad.2 (overlong_iff.2 ⟨secs, hlife, hadd⟩))
  · intro hlife
    refine hf none ⟨?_, hnext⟩
    rw [hbad, overlong_iff]
    rintro ⟨secs, hsecs, -⟩
    rw [hlife] at hsecs
    contradiction
  · intro secs t hlife hadd
    refine hf (some t) ⟨?_, hnext⟩
    rw [hbad, overlong_iff]
    rintro ⟨secs', hsecs', hadd'⟩
    rw [hlife] at hsecs'
    obtain rfl := Option.some.inj hsecs'
    rw [hadd] at hadd'
    contradiction

end

/-- Everything but the panic and the exchange. -/
def plainOp : Op → Prop
  | .panic | .exchange .. => False
  | _ => True

/-- Everything but the panic, the exchange and the read of a bundle. -/
def silentOp : Op → Prop
  | .panic | .exchange .. | .readToken _ => False
  | _ => True

theorem plainOp_of_exitOp {id : Uuid} (op : Op) (h : exitOp id op) : plainOp op := by
  cases op <;> trivial

theorem silentOp_of_exitOp {id : Uuid} (op : Op) (h : exitOp id op) : silentOp op := by
  cases op <;> trivial

/-- The time behind a provider's answer that is overlong at that time. -/
def Overdue (h : Past) : Prop :=
  ∃ response now endpoint form rest, Overlong response now ∧
    h = ⟨.utcNow, now⟩ :: ⟨.exchange endpoint form, .ok response⟩ :: rest

/-- The job looks at the clock before it goes to the provider. -/
def OverdueJob (h : Past) : Prop :=
  ∃ response now endpoint form rest, Overlong response now ∧
    h = ⟨.exchange endpoint form, .ok response⟩ :: ⟨.utcNow, now⟩ :: rest

/-- A bundle whose expiry less the window is before the first instant. -/
def EarlyBundle (svc : IntegrationsOauthService) (h : Past) : Prop :=
  ∃ scope prior rest, addSeconds prior.expiresAt (-svc.refreshWindow) = none ∧
    h = ⟨.readToken scope, .ok prior⟩ :: rest

theorem overdue_harmless : Harmless Overdue plainOp where
  panic := id
  next := by
    rintro ev ev' h hop - ⟨response, now, endpoint, form, rest, -, heq⟩
    obtain ⟨-, rfl, -⟩ := List.cons_eq_cons.1 heq |>.imp_right List.cons_eq_cons.1
    exact hop

theorem overdueJob_harmless : Harmless OverdueJob plainOp where
  panic := id
  next := by
    rintro ev ev' h - hop ⟨response, now, endpoint, form, rest, -, heq⟩
    obtain ⟨rfl, -⟩ := List.cons_eq_cons.1 heq
    exact hop

theorem not_overdue_exchange {endpoint : ValidatedEndpoint} {form : TokenRequestForm}
    {ans : Ans (.exchange endpoint form)} {h : Past} : ¬ Overdue (⟨.exchange endpoint form, ans⟩ :: h) := by
  rintro ⟨response, now, endpoint', form', rest, -, heq⟩
  exact nomatch congrArg (·.op) (List.cons_eq_cons.1 heq).1

theorem overdue_iff {response : TokenResponse} {now : Time} {endpoint : ValidatedEndpoint}
    {form : TokenRequestForm} {h : Past} :
    Overdue (⟨.utcNow, now⟩ :: ⟨.exchange endpoint form, .ok response⟩ :: h) ↔ Overlong response now := by
  constructor
  · rintro ⟨response', now', endpoint', form', rest, hlong, heq⟩
    cases heq
    exact hlong
  · intro hlong
    exact ⟨response, now, endpoint, form, h, hlong, rfl⟩

/-! ## `complete` -/

namespace IntegrationsOauthService

variable {lib : Crates} {svc : IntegrationsOauthService}

theorem plain_of_storing {op : Op} (hop : storingOp op) : plainOp op := by
  cases op <;> first | exact hop | trivial

theorem identify_aborts {req : CompleteRequest} {state : OAuthState} {account : AccountRow}
    {adapter : ProviderAdapter} {endpoints : ValidatedEndpoints} {clientId : String}
    {verifier : Option String} {h : Past} (hh : Steady Overdue plainOp h) :
    Meets (aborting Overdue)
      (svc.identify lib req state account adapter endpoints clientId verifier).run h
      fun r h' => ¬ Overdue h' ∧ ∀ g, r = .ok g → Steady Overdue plainOp h' := by
  unfold identify
  rw [meets_run_bind, meets_run_orFail, meets_ask]
  refine ⟨iff_of_false (by rintro ⟨⟩) hh.here, ?_⟩
  rintro (f | response) h' rfl
  · exact ⟨not_overdue_exchange, by rintro g ⟨⟩⟩
  simp only [Except.mapError]
  rw [meets_run_bind, utcNow, meets_run_answer, meets_ask]
  refine ⟨iff_of_false (by rintro ⟨⟩) not_overdue_exchange, ?_⟩
  rintro now h' rfl
  refine expiresAt_steady overdue_iff (fun ev hev => overdue_harmless.next _ ev _ trivial hev) ?_
  intro expiresAt hsteady
  refine (asks_steady overdue_harmless ?_ hsteady).mono
    fun r h' hsteady' => ⟨hsteady'.here, fun _ _ => hsteady'⟩
  cases expiresAt with
  | none => exact trivial
  | some expiresAt =>
    refine asks_run_bind (asks_run_orFail (asks_ask.mpr trivial)) fun identity => ?_
    refine asks_run_bind asks_run_ofExcept fun _ => ?_
    exact asks_run_bind asks_run_ofExcept fun _ => trivial

theorem gauntlet_aborts {req : CompleteRequest} {h : Past} (hh : Steady Overdue plainOp h) :
    Meets (aborting Overdue) (svc.gauntlet lib req).run h
      fun r h' => ¬ Overdue h' ∧ ∀ g, r = .ok g → Steady Overdue plainOp h' := by
  have herr : ∀ (e : OauthError) h', Steady Overdue plainOp h' →
      ¬ Overdue h' ∧ ∀ g : Grant, .error e = (.ok g : Except OauthError Grant) → Steady Overdue plainOp h' :=
    fun e h' hh' => ⟨hh'.here, fun _ _ => hh'⟩
  refine steady_bind overdue_harmless (verify_asks trivial) hh herr fun state h hh => ?_
  refine steady_bind overdue_harmless (pendingAccount_asks trivial) hh herr fun found h hh => ?_
  obtain ⟨account, adapter, endpoints, clientId⟩ := found
  dsimp only
  rw [meets_run_ite]
  constructor
  · intro _
    refine steady_bind overdue_harmless (asks_run_map (storedVerifier_asks trivial)) hh herr ?_
    exact fun verifier h hh => identify_aborts hh
  · intro _
    exact steady_bind overdue_harmless trivial hh herr fun verifier h hh => identify_aborts hh

theorem complete_aborts (companyId : Uuid) (req : CompleteRequest) :
    Meets (aborting Overdue) (svc.complete lib companyId req).run [] fun _ h => ¬ Overdue h := by
  have hstart : Steady Overdue plainOp [] := by
    constructor
    · rintro ⟨response, now, endpoint, form, rest, -, heq⟩
      exact nomatch heq
    · rintro ev - ⟨response, now, endpoint, form, rest, -, heq⟩
      exact nomatch (List.cons_eq_cons.1 heq).2
  have hstores : ∀ g h, Steady Overdue plainOp h → Meets (aborting Overdue) _ h fun _ h' => ¬ Overdue h' :=
    fun g h hh => steady_last overdue_harmless (storing_asks plain_of_storing companyId g) hh
  rw [complete, meets_run_bind]
  refine (gauntlet_aborts hstart).mono ?_
  rintro (e | g) h ⟨hbad, hok⟩
  · exact hbad
  · exact hstores g h (hok g rfl)

/-! ## `refresh_claimed` -/

variable {companyId : Uuid} {d : DueAccount} {summary : RefreshSummary}

/-- The points at which `refresh_claimed` can panic. -/
def ClaimedAbort (svc : IntegrationsOauthService) (h : Past) : Prop := Overdue h ∨ EarlyBundle svc h

theorem claimed_harmless : Harmless (ClaimedAbort svc) silentOp where
  panic := id
  next := by
    rintro ev ev' h hop hop' (⟨response, now, endpoint, form, rest, -, heq⟩ | ⟨scope, prior, rest, -, heq⟩)
    · obtain ⟨-, rfl, -⟩ := List.cons_eq_cons.1 heq |>.imp_right List.cons_eq_cons.1
      exact hop
    · obtain ⟨rfl, -⟩ := List.cons_eq_cons.1 heq
      exact hop'

theorem claimedAbort_cons {ev : Event Sig} {h : Past} (hread : ∀ scope, ev.op ≠ .readToken scope) :
    ClaimedAbort svc (ev :: h) ↔ Overdue (ev :: h) := by
  constructor
  · rintro (hover | ⟨scope, prior, rest, -, heq⟩)
    · exact hover
    · obtain ⟨rfl, -⟩ := List.cons_eq_cons.1 heq
      exact absurd rfl (hread scope)
  · exact .inl

theorem rotateClaimed_aborts {prior : TokenBundle} {response : TokenResponse} {endpoint : ValidatedEndpoint}
    {form : TokenRequestForm} {h : Past} :
    Meets (aborting (ClaimedAbort svc)) (rotateClaimed companyId d prior response summary).run
      (⟨.exchange endpoint form, .ok response⟩ :: h) fun _ h' => ¬ ClaimedAbort svc h' := by
  unfold rotateClaimed
  rw [meets_run_bind, utcNow, meets_run_answer, meets_ask]
  refine ⟨iff_of_false (by rintro ⟨⟩) ?_, ?_⟩
  · rw [claimedAbort_cons (by rintro scope ⟨⟩)]
    exact not_overdue_exchange
  rintro now h' rfl
  refine expiresAt_steady (P := silentOp) ?_ (fun ev hev => claimed_harmless.next _ ev _ trivial hev) ?_
  · rw [claimedAbort_cons (by rintro scope ⟨⟩), overdue_iff]
  intro expiresAt hsteady
  refine steady_last claimed_harmless ?_ hsteady
  cases expiresAt with
  | none => exact (leaveDue_asks d.id).mono silentOp_of_exitOp
  | some expiresAt =>
    refine asks_run_bind (asks_run_orFail (asks_ask.mpr trivial)) fun _ => ?_
    refine asks_run_bind (asks_sql (asks_ask.mpr trivial)) fun _ => ?_
    exact asks_run_bind (asks_sql (asks_ask.mpr trivial)) fun _ => trivial

theorem steady_failed {endpoint : ValidatedEndpoint} {form : TokenRequestForm} {f : TransportFailure}
    {h : Past} : Steady (ClaimedAbort svc) silentOp (⟨.exchange endpoint form, .error f⟩ :: h) where
  here := by
    rw [claimedAbort_cons (by rintro scope ⟨⟩)]
    exact not_overdue_exchange
  next := by
    rintro ev hop (⟨response, now, endpoint', form', rest, -, heq⟩ | ⟨scope, prior, rest, -, heq⟩)
    · cases (List.cons_eq_cons.1 (List.cons_eq_cons.1 heq).2).1
    · obtain ⟨rfl, -⟩ := List.cons_eq_cons.1 heq
      exact hop

theorem refreshPrior_aborts {prior : TokenBundle} {h : Past} (hh : Steady (ClaimedAbort svc) silentOp h) :
    Meets (aborting (ClaimedAbort svc)) (svc.refreshPrior lib companyId d prior summary).run h
      fun _ h' => ¬ ClaimedAbort svc h' := by
  unfold refreshPrior
  split
  · exact steady_last claimed_harmless ((expireClaimed_asks d.id).mono silentOp_of_exitOp) hh
  split
  · exact steady_last claimed_harmless ((leaveDue_asks d.id).mono silentOp_of_exitOp) hh
  rw [meets_run_bind, meets_run_answer, meets_ask]
  refine ⟨iff_of_false nofun hh.here, ?_⟩
  rintro (f | response) h' rfl
  · refine steady_last claimed_harmless ?_ steady_failed
    dsimp only
    split
    · exact (expireClaimed_asks d.id).mono silentOp_of_exitOp
    · exact (leaveDue_asks d.id).mono silentOp_of_exitOp
  · exact rotateClaimed_aborts

theorem refreshClaimed_aborts :
    Meets (aborting (ClaimedAbort svc)) (svc.refreshClaimed lib companyId d summary).run []
      fun _ h => ¬ ClaimedAbort svc h := by
  have hread : ∀ {ans : Ans (.readToken (d.scope companyId))},
      ¬ Overdue [⟨.readToken (d.scope companyId), ans⟩] := by
    rintro ans ⟨response, now, endpoint, form, rest, -, heq⟩
    exact nomatch (List.cons_eq_cons.1 heq).2
  have hnext : ∀ {ans : Ans (.readToken (d.scope companyId))} (ev : Event Sig), silentOp ev.op →
      ¬ ClaimedAbort svc [ev, ⟨.readToken (d.scope companyId), ans⟩] := by
    rintro ans ev hop (⟨response, now, endpoint, form, rest, -, heq⟩ | ⟨scope, prior, rest, -, heq⟩)
    · exact nomatch congrArg (·.op) (List.cons_eq_cons.1 (List.cons_eq_cons.1 heq).2).1
    · obtain ⟨rfl, -⟩ := List.cons_eq_cons.1 heq
      exact hop
  unfold refreshClaimed
  rw [meets_run_bind, meets_run_answer, meets_ask]
  refine ⟨iff_of_false nofun ?_, ?_⟩
  · rintro (⟨response, now, endpoint, form, rest, -, heq⟩ | ⟨scope, prior, rest, -, heq⟩)
    · exact nomatch heq
    · exact nomatch heq
  rintro (f | prior) h' rfl
  · refine steady_last claimed_harmless ?_ ⟨?_, hnext⟩
    · dsimp only
      split
      · exact (expireClaimed_asks d.id).mono silentOp_of_exitOp
      · exact (leaveDue_asks d.id).mono silentOp_of_exitOp
    · rintro (hover | ⟨scope, prior, rest, -, heq⟩)
      · exact hread hover
      · cases (List.cons_eq_cons.1 heq).1
  dsimp only
  rw [meets_run_bind]
  apply meets_orPanic
  · intro hadd
    exact iff_of_true rfl (.inr ⟨_, prior, [], hadd, rfl⟩)
  intro freshUntil hadd
  -- The fresh window behind the bundle could be added, so this is no point of abort.
  have hsteady : Steady (ClaimedAbort svc) silentOp
      [⟨.readToken (d.scope companyId), .ok prior⟩] := by
    refine ⟨?_, hnext⟩
    rintro (hover | ⟨scope, prior', rest, hadd', heq⟩)
    · exact hread hover
    · cases heq
      rw [hadd] at hadd'
      contradiction
  refine steady_bind claimed_harmless (asks_utcNow trivial) hsteady (fun _ _ hh => hh.here) ?_
  intro now h hh
  split
  · refine steady_last claimed_harmless ?_ hh
    refine asks_run_bind (asks_sql (asks_ask.mpr trivial)) fun _ => ?_
    exact asks_run_bind (asks_sql (asks_ask.mpr trivial)) fun _ => trivial
  · exact refreshPrior_aborts hh

end IntegrationsOauthService

/-! ## `refresh_one` -/

namespace RefreshJob

variable {companyId : Uuid} {d : DueAccount} {report : RefreshReport}

theorem overdueJob_iff {response : TokenResponse} {now : Time} {endpoint : ValidatedEndpoint}
    {form : TokenRequestForm} {h : Past} :
    OverdueJob (⟨.exchange endpoint form, .ok response⟩ :: ⟨.utcNow, now⟩ :: h) ↔ Overlong response now := by
  constructor
  · rintro ⟨response', now', endpoint', form', rest, hlong, heq⟩
    cases heq
    exact hlong
  · intro hlong
    exact ⟨response, now, endpoint, form, h, hlong, rfl⟩

theorem not_overdueJob {ev : Event Sig} {h : Past} (hop : plainOp ev.op) : ¬ OverdueJob (ev :: h) := by
  rintro ⟨response, now, endpoint, form, rest, -, heq⟩
  obtain ⟨rfl, -⟩ := List.cons_eq_cons.1 heq
  exact hop

theorem rotateOne_aborts {bundle : TokenBundle} {now : Time} {response : TokenResponse}
    {endpoint : ValidatedEndpoint} {form : TokenRequestForm} {h : Past} :
    Meets (aborting OverdueJob) (rotateOne companyId d bundle now response report).run
      (⟨.exchange endpoint form, .ok response⟩ :: ⟨.utcNow, now⟩ :: h) fun _ h' => ¬ OverdueJob h' := by
  refine expiresAt_steady (P := plainOp) overdueJob_iff (fun ev hev => not_overdueJob hev) ?_
  intro expiresAt hsteady
  refine steady_last overdueJob_harmless ?_ hsteady
  cases expiresAt with
  | none => exact (skip_asks d.id).mono plainOp_of_exitOp
  | some expiresAt =>
    refine asks_run_bind (asks_run_answer (asks_ask.mpr trivial)) ?_
    rintro (f | cid)
    · dsimp only
      split
      · exact (skip_asks d.id).mono plainOp_of_exitOp
      · exact (expire_asks d.id).mono plainOp_of_exitOp
    · exact (mirror_asks d.id).mono plainOp_of_exitOp

theorem refreshBundle_aborts {endpoints : ValidatedEndpoints} {client : OAuthClientConfig} {h : Past}
    (hh : Steady OverdueJob plainOp h) :
    Meets (aborting OverdueJob) (refreshBundle companyId endpoints client d report).run h
      fun _ h' => ¬ OverdueJob h' := by
  refine steady_bind overdueJob_harmless (asks_run_answer (asks_ask.mpr trivial)) hh
    (fun _ _ hh => hh.here) ?_
  rintro (f | bundle) h hh
  · refine steady_last overdueJob_harmless ?_ hh
    dsimp only
    split
    · exact (skip_asks d.id).mono plainOp_of_exitOp
    · exact (expire_asks d.id).mono plainOp_of_exitOp
  dsimp only
  split
  · exact steady_last overdueJob_harmless ((expire_asks d.id).mono plainOp_of_exitOp) hh
  rw [meets_run_bind, utcNow, meets_run_answer, meets_ask]
  refine ⟨iff_of_false (by rintro ⟨⟩) hh.here, ?_⟩
  rintro now h' rfl
  dsimp only
  rw [meets_run_bind, meets_run_answer, meets_ask]
  refine ⟨iff_of_false (by rintro ⟨⟩) (not_overdueJob trivial), ?_⟩
  -- Only behind a response of the provider can the next operation be the panic.
  rintro (f | response) h' rfl
  · refine steady_last (P := plainOp) overdueJob_harmless ?_ ⟨?_, fun ev hev => not_overdueJob hev⟩
    · dsimp only
      split
      · exact (expire_asks d.id).mono plainOp_of_exitOp
      · exact (skip_asks d.id).mono plainOp_of_exitOp
    · rintro ⟨response', now', endpoint', form', rest, -, heq⟩
      cases (List.cons_eq_cons.1 heq).1
  · exact rotateOne_aborts

theorem refreshOne_aborts (lib : Crates) (job : RefreshJob) :
    Meets (aborting OverdueJob) (job.refreshOne lib companyId d report).run []
      fun _ h => ¬ OverdueJob h := by
  have hstart : Steady OverdueJob plainOp [] := by
    refine ⟨?_, fun ev hev => not_overdueJob hev⟩
    rintro ⟨response, now, endpoint, form, rest, -, heq⟩
    exact nomatch heq
  unfold refreshOne
  split
  · exact steady_last overdueJob_harmless ((skip_asks d.id).mono plainOp_of_exitOp) hstart
  split
  · exact steady_last overdueJob_harmless ((skip_asks d.id).mono plainOp_of_exitOp) hstart
  · exact refreshBundle_aborts hstart

end RefreshJob

/-! ## How the calls end -/

/-- Two posts of one program, of which the second asks for nothing. -/
theorem meets_both {α : Type} {must : Past → Op → Prop} {p : Prog Sig α} {h : Past}
    {Q Q' : α → Past → Prop} (hp : Meets (.ofPast must) p h Q)
    (hp' : Meets (.ofPast fun _ _ => True) p h Q') : Meets (.ofPast must) p h fun r h => Q r h ∧ Q' r h := by
  induction p generalizing h with
  | ret a => exact ⟨hp, hp'⟩
  | call op k ih => exact ⟨hp.1, fun ans s' hs => ih ans (hp.2 ans s' hs) (hp'.2 ans s' hs)⟩

abbrev anyhow : Contract Sig Past := .ofPast fun _ _ => True

section

variable {ε α β : Type} {h : Past}

theorem anyhow_bind {p : ExceptT ε (Prog Sig) α} {f : α → ExceptT ε (Prog Sig) β}
    {Q : Except ε β → Past → Prop} (herr : ∀ e h', Q (.error e) h')
    (hf : ∀ a h', Meets anyhow (f a).run h' Q) : Meets anyhow (p >>= f).run h Q := by
  rw [meets_run_bind]
  refine (Meets.trivial fun _ _ => trivial).mono ?_
  rintro (e | a) h' -
  · exact herr e h'
  · exact hf a h'

end

namespace IntegrationsOauthService

variable {lib : Crates} {svc : IntegrationsOauthService} {companyId : Uuid} {d : DueAccount}
  {summary : RefreshSummary} {h : Past}

theorem storeBundle_stored {g : Grant} {refresh : Option String} :
    Meets anyhow (storeBundle companyId g refresh).run h
      fun r h' => r = .ok () → ∃ ev ∈ h', IsStored ev := by
  simp only [storeBundle, ask, Prog.ask, meets_run_bind, meets_run_answer, meets_call, meets_ret,
    ofPast_must, ofPast_may, forall_eq, true_and]
  rintro (f | id)
  · simp only [meets_run_ite, meets_run_bind, meets_run_orFail, meets_run_throw, meets_call, meets_ret,
      ofPast_must, ofPast_may, forall_eq, true_and]
    refine ⟨fun _ => ?_, by rintro _ ⟨⟩⟩
    rintro (f' | id)
    · rintro ⟨⟩
    · exact fun _ => ⟨_, List.mem_cons_self, trivial⟩
  · exact fun _ => ⟨_, List.mem_cons_self, trivial⟩

theorem complete_stored (req : CompleteRequest) :
    Meets anyhow (svc.complete lib companyId req).run h
      fun r h' => ∀ o, r = .ok o → ∃ ev ∈ h', IsStored ev := by
  have herr : ∀ (e : OauthError) (h' : Past), ∀ o : CompleteOutcome,
      (.error e : Except OauthError CompleteOutcome) = .ok o → ∃ ev ∈ h', IsStored ev :=
    fun e h' o ho => nomatch ho
  refine anyhow_bind herr fun g h => ?_
  refine anyhow_bind herr fun refresh h => ?_
  rw [meets_run_bind]
  refine storeBundle_stored.mono ?_
  rintro (e | ⟨⟩) h' hstored
  · exact herr e h'
  · refine Meets.mono (fun r h hs _ _ => hs) (Meets.of_stable (P := fun h => ∃ ev ∈ h, IsStored ev)
      (fun _ _ _ => trivial) ?_ (hstored rfl))
    rintro h op ans - ⟨ev, hev, hs⟩ rfl
    exact ⟨ev, List.mem_cons_of_mem _ hev, hs⟩

/-- One account more in one of the counters. -/
def Tallied (summary summary' : RefreshSummary) : Prop :=
  summary' = { summary with refreshed := summary.refreshed + 1 } ∨
  summary' = { summary with resynced := summary.resynced + 1 } ∨
  summary' = { summary with expired := summary.expired + 1 } ∨
  summary' = { summary with failures := summary.failures + 1 }

theorem expireClaimed_tallied {id : Uuid} :
    Meets anyhow (expireClaimed id summary).run h fun r _ => ∀ s, r = .ok s → Tallied summary s := by
  refine anyhow_bind (fun e _ s hs => nomatch hs) fun _ _ => ?_
  refine anyhow_bind (fun e _ s hs => nomatch hs) fun _ _ => ?_
  rintro s ⟨⟩
  exact .inr (.inr (.inl rfl))

theorem leaveDue_tallied :
    Meets anyhow (leaveDue summary).run h fun r _ => ∀ s, r = .ok s → Tallied summary s := by
  refine anyhow_bind (fun e _ s hs => nomatch hs) fun _ _ => ?_
  rintro s ⟨⟩
  exact .inr (.inr (.inr rfl))

theorem refreshClaimed_tallied :
    Meets anyhow (svc.refreshClaimed lib companyId d summary).run h
      fun r _ => ∀ s, r = .ok s → Tallied summary s := by
  have herr : ∀ (e : OauthError) (_ : Past), ∀ s : RefreshSummary,
      (.error e : Except OauthError RefreshSummary) = .ok s → Tallied summary s := fun e _ s hs => nomatch hs
  refine anyhow_bind herr ?_
  rintro (f | prior) h
  · rw [meets_run_ite]
    exact ⟨fun _ => expireClaimed_tallied, fun _ => leaveDue_tallied⟩
  refine anyhow_bind herr fun freshUntil h => ?_
  refine anyhow_bind herr fun now h => ?_
  rw [meets_run_ite]
  constructor
  · intro _
    refine anyhow_bind herr fun _ _ => ?_
    refine anyhow_bind herr fun _ _ => ?_
    rintro s ⟨⟩
    exact .inr (.inl rfl)
  intro _
  unfold refreshPrior
  split
  · exact expireClaimed_tallied
  split
  · exact leaveDue_tallied
  refine anyhow_bind herr ?_
  rintro (f | response) h
  · rw [meets_run_ite]
    exact ⟨fun _ => expireClaimed_tallied, fun _ => leaveDue_tallied⟩
  refine anyhow_bind herr fun now h => ?_
  refine anyhow_bind herr ?_
  rintro (- | expiresAt) h
  · exact leaveDue_tallied
  refine anyhow_bind herr fun _ _ => ?_
  refine anyhow_bind herr fun _ _ => ?_
  refine anyhow_bind herr fun _ _ => ?_
  rintro s ⟨⟩
  exact .inl rfl

end IntegrationsOauthService

namespace RefreshJob

variable {lib : Crates} {job : RefreshJob} {companyId : Uuid} {d : DueAccount} {report : RefreshReport}
  {h : Past}

def Tallied (report report' : RefreshReport) : Prop :=
  report' = { report with refreshed := report.refreshed + 1 } ∨
  report' = { report with expired := report.expired + 1 } ∨
  report' = { report with skipped := report.skipped + 1 }

theorem expire_tallied {id : Uuid} :
    Meets anyhow (expire id report).run h fun r _ => ∀ s, r = .ok s → Tallied report s := by
  refine anyhow_bind (fun e _ s hs => nomatch hs) fun _ _ => ?_
  rintro s ⟨⟩
  exact .inr (.inl rfl)

theorem skip_tallied :
    Meets anyhow (skip report).run h fun r _ => ∀ s, r = .ok s → Tallied report s := by
  refine anyhow_bind (fun e _ s hs => nomatch hs) fun _ _ => ?_
  rintro s ⟨⟩
  exact .inr (.inr rfl)

theorem refreshOne_tallied :
    Meets anyhow (job.refreshOne lib companyId d report).run h
      fun r _ => ∀ s, r = .ok s → Tallied report s := by
  have herr : ∀ (e : DbError) (_ : Past), ∀ s : RefreshReport,
      (.error e : Except DbError RefreshReport) = .ok s → Tallied report s := fun e _ s hs => nomatch hs
  unfold refreshOne
  split
  · exact skip_tallied
  split
  · exact skip_tallied
  refine anyhow_bind herr ?_
  rintro (f | bundle) h
  · rw [meets_run_ite]
    exact ⟨fun _ => skip_tallied, fun _ => expire_tallied⟩
  dsimp only
  split
  · exact expire_tallied
  refine anyhow_bind herr fun now h => ?_
  refine anyhow_bind herr ?_
  rintro (f | response) h
  · rw [meets_run_ite]
    exact ⟨fun _ => expire_tallied, fun _ => skip_tallied⟩
  refine anyhow_bind herr ?_
  rintro (- | expiresAt) h
  · exact skip_tallied
  refine anyhow_bind herr ?_
  rintro (f | id) h
  · rw [meets_run_ite]
    exact ⟨fun _ => skip_tallied, fun _ => expire_tallied⟩
  refine anyhow_bind herr fun mirrored h => ?_
  rw [meets_run_ite]
  constructor
  · exact fun _ => skip_tallied
  · intro _
    refine anyhow_bind herr fun _ _ => ?_
    rintro s ⟨⟩
    exact .inl rfl

end RefreshJob

/-! ## The whole rule -/

/-- `expires_at` is honest, and the three calls come to one of their ends, exactly as long as the
provider's lifetime leads to an instant. At an overlong one they panic, and they panic nowhere else:
only `refresh_claimed` does so at a stored expiry that lies less than the window behind the first
instant. -/
theorem lifetimes_abort_iff (lib : Crates) (svc : IntegrationsOauthService) (job : RefreshJob)
    (companyId : Uuid) :
    (∀ response now, (expiresAt response now : Flow OauthError (Option Time)) =
        pure (honestExpiry response now) ↔ ¬ Overlong response now) ∧
    (∀ req, Meets (aborting Overdue) (svc.complete lib companyId req).run [] fun r h =>
      ¬ Overdue h ∧ ∀ o, r = .ok o → ∃ ev ∈ h, IsStored ev) ∧
    (∀ d summary, Meets (aborting (IntegrationsOauthService.ClaimedAbort svc))
      (svc.refreshClaimed lib companyId d summary).run [] fun r h =>
        ¬ IntegrationsOauthService.ClaimedAbort svc h ∧
          ∀ s, r = .ok s → IntegrationsOauthService.Tallied summary s) ∧
    (∀ d report, Meets (aborting OverdueJob) (job.refreshOne lib companyId d report).run [] fun r h =>
      ¬ OverdueJob h ∧ ∀ s, r = .ok s → RefreshJob.Tallied report s) :=
  ⟨fun _ _ => expiresAt_honest_iff,
    fun req => meets_both (IntegrationsOauthService.complete_aborts companyId req)
      (IntegrationsOauthService.complete_stored req),
    fun _ _ => meets_both IntegrationsOauthService.refreshClaimed_aborts
      IntegrationsOauthService.refreshClaimed_tallied,
    fun _ _ => meets_both (RefreshJob.refreshOne_aborts lib job) RefreshJob.refreshOne_tallied⟩

/-- A token with a lifetime of 10^16 seconds: no duration holds it. -/
def endlessResponse : TokenResponse := ⟨"token-1", none, some 10000000000000000, none, none⟩

/-! The lifetime is positive and the sum is no instant, so the answer should be nothing. It is a panic. -/

theorem endless_lifetime_aborts :
    honestExpiry endlessResponse 0 = none ∧
      (expiresAt endlessResponse 0 : Flow OauthError (Option Time)) ≠ pure none := by
  have hnone : honestExpiry endlessResponse 0 = none := by decide
  refine ⟨hnone, ?_⟩
  rw [← hnone, ne_eq, expiresAt_honest_iff, not_not]
  exact ⟨10000000000000000, rfl, by decide, by decide⟩

end BackboneIntegrations.OAuth
