import BackboneIntegrations.OAuth.SingleFlight

/-!
# The refresh token that is carried forward

A bundle that a call stores takes the refresh token of the provider's answer, or else the one that the
call has read. What the store holds is then the latest token of all answers that were stored.
-/

open Interleave

namespace BackboneIntegrations.OAuth

/-! ## What the history says -/

section

variable {lib : Crates} {svc : IntegrationsOauthService}

/-- The scope of a store write that went through. -/
def stored? : Label (system lib svc) → Option CredentialScope
  | .op _ (.issue scope ..) (.ok _) | .op _ (.rotate scope ..) (.ok _) => some scope
  | _ => none

def revoked? : Label (system lib svc) → Option CredentialScope
  | .op _ (.revoke scope) (.ok ()) => some scope
  | _ => none

/-- The thread and the scope of a read. -/
def read? : Label (system lib svc) → Option (Tid × CredentialScope)
  | .op t (.readToken scope) _ => some (t, scope)
  | _ => none

/-- The provider's answer behind an operation. -/
def answer? (l : Label (system lib svc)) (hist : List (Label (system lib svc))) :
    Option TokenResponse :=
  match l with
  | .op t _ _ => lastResponse (hist.filterMap (·.event? t))
  | _ => none

/-- The latest refresh token among the answers that were stored for the scope. -/
def lineage (first : Option String) (scope : CredentialScope) :
    List (Label (system lib svc)) → Option String
  | [] => first
  | l :: hist =>
    if stored? l = some scope then
      ((answer? l hist).bind (·.refreshToken)).or (lineage first scope hist)
    else lineage first scope hist

/-- Something was stored for the scope since thread `t` read its bundle. -/
def Overtaken (t : Tid) (scope : CredentialScope) : List (Label (system lib svc)) → Prop
  | [] => False
  | l :: hist =>
    if stored? l = some scope then True
    else if read? l = some (t, scope) then False
    else Overtaken t scope hist

instance (t : Tid) (scope : CredentialScope) :
    (hist : List (Label (system lib svc))) → Decidable (Overtaken t scope hist)
  | [] => .isFalse id
  | l :: hist =>
    have : Decidable (Overtaken t scope hist) := instDecidableOvertaken t scope hist
    by unfold Overtaken; infer_instance

def Call.isComplete : Call → Bool
  | .complete .. => true
  | _ => false

/-- A write that forgets no token. The answer brings one; or the bundle that the call has read is still
there, and a completion was not refused that read; or nothing is stored. -/
def Knows (scope : CredentialScope) (cfg : Config (system lib svc)) (l : Label (system lib svc))
    (t : Tid) : Prop :=
  (∃ response ∈ answer? l cfg.hist, response.refreshToken.isSome) ∨
    (¬ Overtaken t scope cfg.hist ∧
      ((lastRead scope (cfg.events t)).isSome ∨ ∀ c ∈ cfg.call? t, ¬ c.isComplete)) ∨
    cfg.world.current scope = none

/-- The store keeps to its semantics where it succeeds, the scope is not revoked, and no write forgets
its token. -/
def Keeping (scope : CredentialScope) (cfg : Config (system lib svc)) (l : Label (system lib svc)) :
    Prop :=
  revoked? l ≠ some scope ∧ match l with
    | .op t op ans => cfg.world.StoreOk op ans ∧ (stored? l = some scope → Knows scope cfg l t)
    | _ => True

instance (scope : CredentialScope) (cfg : Config (system lib svc)) (l : Label (system lib svc))
    (t : Tid) : Decidable (Knows scope cfg l t) :=
  inferInstanceAs (Decidable (_ ∨ _ ∨ _))

instance (scope : CredentialScope) (cfg : Config (system lib svc)) (l : Label (system lib svc)) :
    Decidable (Keeping scope cfg l) := by
  unfold Keeping
  split <;> infer_instance

/-! ## What the store holds -/

/-- The refresh token that the store holds for the scope. -/
def Hub.refreshToken (w : Hub) (scope : CredentialScope) : Option String :=
  (w.current scope).bind (·.bundle.refreshToken)

/-- The store holds the lineage, and a call that was not overtaken has read it. -/
structure Carried (first : Option String) (scope : CredentialScope) (cfg : Config (system lib svc)) :
    Prop where
  token : cfg.world.refreshToken scope = lineage first scope cfg.hist
  seen : ∀ t b, lastRead scope (cfg.events t) = some b → cfg.world.current scope ≠ none
  read : ∀ t b, ¬ Overtaken t scope cfg.hist → lastRead scope (cfg.events t) = some b →
    b.refreshToken = lineage first scope cfg.hist

variable {init : Hub → Prop} {cfg cfg' : Config (system lib svc)} {l : Label (system lib svc)}
  {first : Option String} {scope : CredentialScope} {t : Tid}

theorem lastRead_cons {op : Op} {ans : Ans op} (h : op ≠ .readToken scope) (hist : Past) :
    lastRead scope (⟨op, ans⟩ :: hist) = lastRead scope hist := by
  cases op with
  | readToken s =>
    have hne : s ≠ scope := fun heq => h (heq ▸ rfl)
    cases ans <;> exact if_neg hne
  | _ => rfl

/-- The step does not read the credential. -/
def Unread (scope : CredentialScope) : Label (system lib svc) → Prop
  | .op _ op _ => op ≠ .readToken scope
  | _ => True

theorem Unread.read? (h : Unread scope l) (u : Tid) : read? l ≠ some (u, scope) := by
  cases l with
  | op t op ans =>
    cases op with
    | readToken s =>
      have hne : s ≠ scope := fun heq => h (heq ▸ rfl)
      simp [OAuth.read?, hne]
    | _ => nofun
  | _ => nofun

theorem lastRead_step (hs : Step (system lib svc) cfg l cfg') (hl : Unread scope l) (u : Tid) :
    lastRead scope (cfg'.events u) = lastRead scope (cfg.events u) := by
  rw [Config.events_step hs]
  cases l with
  | op t op ans =>
    by_cases hu : u = t
    · subst hu
      rw [show (Label.op u op ans : Label (system lib svc)).event? u = some ⟨op, ans⟩ from if_pos rfl]
      exact lastRead_cons hl _
    · rw [Config.event?_ne hu]
      rfl
  | _ => rfl

theorem lineage_cons_ne (h : stored? l ≠ some scope) (hist : List (Label (system lib svc))) :
    lineage first scope (l :: hist) = lineage first scope hist := if_neg h

theorem overtaken_cons (h : stored? l ≠ some scope) (hr : read? l ≠ some (t, scope))
    (hist : List (Label (system lib svc))) : Overtaken t scope (l :: hist) ↔ Overtaken t scope hist := by
  rw [Overtaken, if_neg h, if_neg hr]

theorem Carried.beside (h : Carried first scope cfg) (hs : Step (system lib svc) cfg l cfg')
    (hst : stored? l ≠ some scope) (hr : Unread scope l)
    (hcur : cfg'.world.current scope = cfg.world.current scope) : Carried first scope cfg' := by
  have hlin : lineage first scope cfg'.hist = lineage first scope cfg.hist := by
    rw [hs.hist, lineage_cons_ne hst]
  refine ⟨?_, fun u b hb => ?_, fun u b hu hb => ?_⟩
  · rw [Hub.refreshToken, hcur, hlin]
    exact h.token
  · rw [lastRead_step hs hr] at hb
    rw [hcur]
    exact h.seen u b hb
  · rw [hs.hist, overtaken_cons hst (hr.read? u)] at hu
    rw [lastRead_step hs hr] at hb
    rw [hlin]
    exact h.read u b hu hb

theorem Carried.write (h : Carried first scope cfg) {op : Op} {ans : Ans op}
    (hs : Step (system lib svc) cfg (.op t op ans) cfg')
    (hst : stored? (.op t op ans : Label (system lib svc)) = some scope)
    {bundle : TokenBundle} {e : Time} (hc : Carries (cfg.events t) scope bundle)
    (hrenew : (∀ c ∈ cfg.call? t, ¬ c.isComplete) → (lastRead scope (cfg.events t)).isSome)
    (hk : Knows scope cfg (.op t op ans) t)
    (hcur : cfg'.world.current scope = some ⟨scope, purposeOauthToken, bundle, e, true⟩) :
    Carried first scope cfg' := by
  obtain ⟨response, hresp, -, htoken⟩ := hc
  have hanswer : answer? (.op t op ans : Label (system lib svc)) cfg.hist = some response := hresp
  have hlin : lineage first scope cfg'.hist =
      response.refreshToken.or (lineage first scope cfg.hist) := by
    rw [hs.hist, lineage, if_pos hst, hanswer]
    rfl
  refine ⟨?_, fun u b hb => ?_, fun u b hu hb => ?_⟩
  · rw [Hub.refreshToken, hcur, hlin]
    refine htoken.trans ?_
    -- The response brings a token, or the prior bundle was read, or there was no token to lose.
    rcases hk with ⟨response', hresp', hsome⟩ | ⟨hunder, hread⟩ | hnone
    · obtain rfl : response' = response := Option.some.inj (hresp'.symm.trans hanswer)
      obtain ⟨token, htok⟩ := Option.isSome_iff_exists.mp hsome
      rw [htok, Option.some_or, Option.some_or]
    · obtain ⟨b, hb⟩ := Option.isSome_iff_exists.mp (hread.elim id hrenew)
      rw [hb, ← h.read t b hunder hb]
      rfl
    · have hunread : lastRead scope (cfg.events t) = none := by
        by_contra hne
        obtain ⟨b, hb⟩ := Option.ne_none_iff_exists'.mp hne
        exact h.seen t b hb hnone
      rw [hunread, ← h.token, Hub.refreshToken, hnone]
      rfl
  · rw [hcur]
    nofun
  · rw [hs.hist, Overtaken, if_pos hst] at hu
    exact absurd trivial hu

theorem Carried.reads (h : Carried first scope cfg)
    {ans : Ans (.readToken scope)} (hs : Step (system lib svc) cfg (.op t (.readToken scope) ans) cfg')
    (hok : cfg.world.StoreOk (.readToken scope) ans) (hcur : cfg'.world = cfg.world) :
    Carried first scope cfg' := by
  have hlin : lineage first scope cfg'.hist = lineage first scope cfg.hist := by
    rw [hs.hist, lineage_cons_ne (by simp [stored?])]
  have hother : ∀ u, u ≠ t → cfg'.events u = cfg.events u := by
    intro u hu
    rw [Config.events_step hs, Config.event?_ne hu]
    rfl
  have hself : cfg'.events t = ⟨.readToken scope, ans⟩ :: cfg.events t := by
    rw [Config.events_step hs]
    simp [Label.event?]
  have hread : ∀ b, lastRead scope (cfg'.events t) = some b →
      ∃ c, cfg.world.current scope = some c ∧ c.bundle = b := by
    intro b hb
    rw [hself] at hb
    rcases ans with f | b'
    · simp [lastRead] at hb
    · simp only [lastRead, if_pos, Option.some.injEq] at hb
      subst hb
      simpa [Hub.StoreOk, Option.any_eq_true] using hok
  refine ⟨?_, fun u b hb => ?_, fun u b hu hb => ?_⟩
  · rw [hcur, hlin]
    exact h.token
  · rw [hcur]
    by_cases hut : u = t
    · subst hut
      obtain ⟨c, hc, -⟩ := hread b hb
      rw [hc]
      rintro ⟨⟩
    · rw [hother u hut] at hb
      exact h.seen u b hb
  · rw [hlin]
    by_cases hut : u = t
    · subst hut
      obtain ⟨c, hc, rfl⟩ := hread b hb
      rw [← h.token, Hub.refreshToken, hc]
      rfl
    · rw [hother u hut] at hb
      rw [hs.hist, overtaken_cons (by simp [stored?]) (by simp [read?, Ne.symm hut])] at hu
      exact h.read u b hu hb

theorem carries_renew {c : Call} {h : Past} {op : Op} (hop : carries c h op) (hc : ¬ c.isComplete) :
    renewMust h op := by
  cases c with
  | complete => exact absurd rfl hc
  | _ => exact hop

theorem carries_carry {c : Call} {h : Past} {op : Op} (hop : carries c h op) : carryMust h op := by
  cases c with
  | complete => exact hop
  | _ => exact renewMust.carry hop

theorem carried_op {op : Op} {ans : Ans op} (h : Carried first scope cfg)
    (hr : Reach (system lib svc) init (Keeping scope) cfg) (hok : Keeping scope cfg (.op t op ans))
    (hs : Step (system lib svc) cfg (.op t op ans) cfg') : Carried first scope cfg' := by
  obtain ⟨hrevoke, hstore, hknows⟩ := hok
  obtain ⟨c, hc, hmust⟩ := (carryScript_holds lib svc).asked hr hs
  have hch := step_change hs
  generalize hw : cfg'.world = w' at hch
  cases hch with
  | @issue s purpose bundle e cid =>
    by_cases hscope : s = scope
    · subst hscope
      obtain ⟨rfl, hcarry⟩ := carries_carry hmust
      refine h.write hs rfl hcarry (fun hnot => ?_) (hknows rfl) (e := e) ?_
      -- Only `complete` issues.
      · exact (carries_renew hmust (hnot c hc)).elim
      rw [hw, Hub.current_store]
    · refine h.beside hs (by simpa [stored?] using hscope) (by rintro ⟨⟩) ?_
      rw [hw, Hub.current_store_ne hscope]
  | @rotate s bundle e cid =>
    by_cases hscope : s = scope
    · subst hscope
      refine h.write hs rfl (carries_carry hmust) (fun hnot => ?_) (hknows rfl) (e := e) ?_
      · exact (carries_renew hmust (hnot c hc)).2
      rw [hw, Hub.current_store]
    · refine h.beside hs (by simpa [stored?] using hscope) (by rintro ⟨⟩) ?_
      rw [hw, Hub.current_store_ne hscope, Hub.current_withdraw_ne (Ne.symm hscope)]
  | @revoke s =>
    have hscope : scope ≠ s := by
      rintro rfl
      exact hrevoke rfl
    refine h.beside hs (by simp [stored?]) (by rintro ⟨⟩) ?_
    rw [hw, Hub.current_withdraw_ne hscope]
  | @quiet op ans hq =>
    by_cases hread : op = .readToken scope
    · subst hread
      exact h.reads hs hstore hw
    · refine h.beside hs ?_ hread (by rw [hw])
      cases op with
      | issue | rotate =>
        rcases ans with f | cid
        · simp [stored?]
        · exact hq.elim
      | _ => simp [stored?]
  | commit =>
    refine h.beside hs (by simp [stored?]) (by rintro ⟨⟩) ?_
    rw [hw, Hub.current, Hub.commit_credentials]
    rfl
  | _ => exact h.beside hs (by simp [stored?]) (by rintro ⟨⟩) (by rw [hw]; rfl)

theorem carried_step (h : Carried first scope cfg) (hr : Reach (system lib svc) init (Keeping scope) cfg)
    (hok : Keeping scope cfg l) (hs : Step (system lib svc) cfg l cfg') :
    Carried first scope cfg' := by
  cases l with
  | op t op ans => exact carried_op h hr hok hs
  | _ =>
    have hcs := (step_beside hs (by simp)).credentials
    refine h.beside hs (by simp [stored?]) trivial ?_
    rw [Hub.current, hcs]
    rfl

/-- **The refresh token is carried forward.** However the calls interleave, with store calls that fail,
the store holds the latest refresh token among the answers that were stored. -/
theorem refresh_token_carried {w₀ : Hub} (hr : Reach (system lib svc) (· = w₀) (Keeping scope) cfg)
    {c : Credential} (hc : cfg.world.current scope = some c) :
    c.bundle.refreshToken = lineage (w₀.refreshToken scope) scope cfg.hist := by
  have hcarried : Carried (w₀.refreshToken scope) scope cfg := by
    clear hc
    induction hr with
    | init h => exact ⟨by rw [Config.init_world, h]; rfl, nofun, nofun⟩
    | step hr hok hs ih => exact carried_step ih hr hok hs
  rw [← hcarried.token, Hub.refreshToken, hc]
  rfl

/-- The latest refresh token among all answers of the provider. -/
def lastReturned (first : Option String) : List (Label (system lib svc)) → Option String
  | [] => first
  | .op _ (.exchange ..) (.ok response) :: hist => response.refreshToken.or (lastReturned first hist)
  | _ :: hist => lastReturned first hist

end

/-! ## A rotate that fails -/

def renewed : TokenResponse := { mailResponse with refreshToken := "refresh-2" }

def unrenewed : TokenResponse := { mailResponse with refreshToken := none }

/-- A sweep of `refresh_due`, up to the store's answer to its rotate. -/
def rotateRun (t : Tid) (response : TokenResponse) (ans : Except OAuthCredentialFailure Uuid) :
    List (Label (system mailCrates mailService)) :=
  [.start t (.refreshDue 9), .op t .begin (.ok ()), .op t (.claimDue 600 []) (.ok (some dueAccount)),
    .op t (.readToken mailScope) (.ok mailBundle), .op t .utcNow (3300000000 : Int),
    .op t (.exchange gmailToken mailRefreshForm) (.ok response), .op t .utcNow (3300000000 : Int),
    .op t (.rotate mailScope (RefreshJob.successor mailBundle response 6900000000) 6900000000) ans]

/-- The provider renews the refresh token, and the store does not take it. The next token comes
without one. -/
def carryRun : List (Label (system mailCrates mailService)) :=
  rotateRun 0 renewed (.error ⟨OAuthCredentialFailure.codeTransport, ""⟩) ++ [.finish 0] ++
    rotateRun 1 unrenewed (.ok (78 : Nat))

def keptOld (cfg : Config (system mailCrates mailService)) : Bool :=
  cfg.world.refreshToken mailScope = some "refresh-1"

theorem carryRun_runs : (replay (Keeping mailScope) (.init flightHub) carryRun).any
    keptOld = true := by
  decide +kernel

theorem carryRun_reach : ∃ cfg, Reach (system mailCrates mailService) (· = flightHub)
    (Keeping mailScope) cfg ∧ cfg.hist = carryRun.reverse ∧ keptOld cfg = true := by
  obtain ⟨cfg, hcfg, hold⟩ := (Option.any_eq_true ..).mp carryRun_runs
  exact ⟨cfg, .replay (.init rfl) hcfg, by simpa using replay_hist hcfg, hold⟩

theorem refresh_token_carried_mailbox : ∃ (cfg : Config (system mailCrates mailService)) (c : Credential),
    cfg.hist = carryRun.reverse ∧ cfg.world.current mailScope = some c ∧
      c.bundle.refreshToken = lineage (flightHub.refreshToken mailScope) mailScope cfg.hist := by
  obtain ⟨cfg, hr, hhist, htoken⟩ := carryRun_reach
  obtain ⟨c, hc, -⟩ := Option.bind_eq_some_iff.mp (of_decide_eq_true htoken)
  exact ⟨cfg, c, hhist, hc, refresh_token_carried hr hc⟩

/-! The store holds the old token after its rotate, although the provider has given a new one. -/

theorem failed_rotate_loses_token : ∃ cfg : Config (system mailCrates mailService),
    Reach (system mailCrates mailService) (· = flightHub) (Keeping mailScope) cfg ∧
      cfg.hist.head?.bind stored? = some mailScope ∧
      cfg.world.refreshToken mailScope ≠
        lastReturned (flightHub.refreshToken mailScope) cfg.hist := by
  obtain ⟨cfg, hr, hhist, htoken⟩ := carryRun_reach
  refine ⟨cfg, hr, ?_, ?_⟩
  · rw [hhist]
    rfl
  · rw [of_decide_eq_true htoken, hhist]
    decide

end BackboneIntegrations.OAuth
