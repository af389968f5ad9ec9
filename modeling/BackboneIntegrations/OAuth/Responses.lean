import BackboneIntegrations.OAuth.Routes

/-!
# What a failed request leaves behind

An error response means that the tables and the store are as they were, up to four ways to stop halfway.
-/

open Interleave

namespace BackboneIntegrations.OAuth

open IntegrationsOauthService

variable {lib : Crates} {svc : IntegrationsOauthService}
  {fromSlice : ByteArray → Except String CompleteRequest}

/-! ## Effects -/

/-- The events that change an account or a credential. -/
def Effect (ev : Event Sig) : Prop :=
  ev = ⟨.commit, .ok ()⟩ ∨ (∃ scope, ev = ⟨.revoke scope, .ok ()⟩) ∨ IsStored ev ∨ IsSet ev

def NoEffect (h : Past) : Prop := ∀ ev ∈ h, ¬ Effect ev

/-- Whatever the answer is, the operation changes nothing. -/
def Effectless (op : Op) : Prop := ∀ ans, ¬ Effect ⟨op, ans⟩

theorem NoEffect.cons {h : Past} (hh : NoEffect h) {ev : Event Sig} (he : ¬ Effect ev) :
    NoEffect (ev :: h) :=
  List.forall_mem_cons.mpr ⟨he, hh⟩

theorem effectless_of_ne {op : Op} (hc : op ≠ .commit)
    (h : ∀ ans, ¬ IsStored ⟨op, ans⟩ ∧ ¬ IsSet ⟨op, ans⟩) (hr : ∀ scope, op ≠ .revoke scope) :
    Effectless op := by
  rintro ans (heq | ⟨scope, heq⟩ | hs | hs)
  · exact hc (congrArg Event.op heq)
  · exact hr scope (congrArg Event.op heq)
  · exact (h ans).1 hs
  · exact (h ans).2 hs

theorem effectless_checking {op : Op} (h : checkingOp op) : Effectless op := by
  cases op <;> first | exact h.elim | exact effectless_of_ne (by simp) (fun _ => ⟨id, id⟩) (by simp)

theorem Hub.Change.tables_eq {t : Tid} {w w' : Hub} {op : Op} {ans : Ans op} (h : Hub.Change t w op ans w')
    (he : ¬ Effect ⟨op, ans⟩) : w'.accounts = w.accounts ∧ w'.credentials = w.credentials := by
  rcases h with _ | _ | _ | _ | _ | _ | _ | _ | _ | _ | _ | _ | _ | _ | _
  case commit => exact absurd (.inl rfl) he
  case update => exact absurd (.inr (.inr (.inr rfl))) he
  case issue | rotate => exact absurd (.inr (.inr (.inl trivial))) he
  case revoke => exact absurd (.inr (.inl ⟨_, rfl⟩)) he
  all_goals exact ⟨rfl, rfl⟩

/-! ## The ends of the calls -/

/-- The contract that allows everything. -/
def free : Past → Op → Prop := fun _ _ => True

theorem meets_effectless {α : Type} {p : Prog Sig α} (hp : p.Asks Effectless) {h : Past} (hh : NoEffect h) :
    Meets (.ofPast free) p h fun _ h' => NoEffect h' := by
  refine hp.meets hh (fun _ _ _ _ => trivial) ?_
  intro h op ans h' hh hop hm
  rw [ofPast_may.mp hm]
  exact hh.cons (hop ans)

theorem effectless_rows {op : Op} (h : rowOp op) (hc : op ≠ .commit) (hr : ∀ scope, op ≠ .revoke scope)
    (hu : ∀ id u, op ≠ .update id u) : Effectless op := by
  cases op <;> first
    | exact h.elim
    | exact absurd rfl hc
    | exact absurd rfl (hr _)
    | exact absurd rfl (hu _ _)
    | exact effectless_of_ne (by simp) (fun _ => ⟨id, id⟩) (by simp)

theorem mintText_effectless {n : Nat} : (mintText lib n).run.Asks Effectless :=
  asks_run_bind (asks_run_answer (asks_ask.mpr (effectless_rows trivial (by simp) (by simp) (by simp))))
    fun _ => trivial

theorem meets_effectless_bind {ε α β : Type} {p : Flow ε α} {f : α → Flow ε β} {h : Past}
    {Q : Except ε β → Past → Prop} (hp : p.run.Asks Effectless) (hh : NoEffect h)
    (herr : ∀ e h', NoEffect h' → Q (.error e) h')
    (hf : ∀ a h', NoEffect h' → Meets (.ofPast free) (f a).run h' Q) :
    Meets (.ofPast free) (p >>= f).run h Q := by
  rw [meets_run_bind]
  refine (meets_effectless hp hh).mono ?_
  rintro (e | a) h' hh'
  · exact herr e h' hh'
  · exact hf a h' hh'

theorem replaceRow_free (row : NewAccount) {h : Past} (hh : NoEffect h) :
    Meets (.ofPast free) (replaceRow row).run h fun r h' =>
      match r with
      | .ok _ => ∃ pre, h' = ⟨.commit, .ok ()⟩ :: pre ∧ NoEffect pre
      | .error _ => NoEffect h' := by
  have hdelete : ∀ ids, (deleteRows ids).run.Asks Effectless := by
    intro ids
    induction ids with
    | nil => trivial
    | cons id ids ih =>
      refine asks_run_bind (asks_sql (asks_ask.mpr ?_)) fun _ => ih
      exact effectless_rows trivial (by simp) (by simp) (by simp)
  have hrow : ∀ {op : Op}, rowOp op → op ≠ .commit → (∀ scope, op ≠ .revoke scope) →
      (∀ id u, op ≠ .update id u) → (ask op).Asks Effectless :=
    fun h hc hr hu => asks_ask.mpr (effectless_rows h hc hr hu)
  unfold replaceRow
  refine meets_effectless_bind (asks_sql (hrow trivial (by simp) (by simp) (by simp))) hh (fun _ _ => id) ?_
  intro _ h₁ hh₁
  refine meets_effectless_bind (asks_sql (hrow trivial (by simp) (by simp) (by simp))) hh₁ (fun _ _ => id) ?_
  intro ids h₂ hh₂
  refine meets_effectless_bind (hdelete ids) hh₂ (fun _ _ => id) ?_
  intro _ h₃ hh₃
  refine meets_effectless_bind (asks_sql (hrow trivial (by simp) (by simp) (by simp))) hh₃ (fun _ _ => id) ?_
  intro _ pre hpre
  -- Until its commit the transaction has written nothing that stays.
  simp only [commit, sql, ask, Prog.ask, meets_run_orFail, meets_call, meets_ret, ofPast_must, ofPast_may,
    forall_eq]
  refine ⟨trivial, ?_⟩
  rintro (err | ⟨⟩)
  · refine hpre.cons ?_
    simp [Effect, IsStored, IsSet]
  · exact ⟨pre, rfl, hpre⟩

/-- How an `authorize` fails: it changed nothing, or its row is there and the URL for it cannot be made. -/
inductive AuthorizeFails (e : OauthError) (h : Past) : Prop
  | clean (hh : NoEffect h)
  | unannounced (hc : ⟨.commit, .ok ()⟩ ∈ h) (honly : ∀ ev ∈ h, Effect ev → ev = ⟨.commit, .ok ()⟩)
    (he : e.statusCode.1 = 400)

/-- How a `complete` fails: it changed nothing, or it has written to the store and to nothing else, and its
last statement found the account no longer pending or did not go through. -/
inductive CompleteFails (e : OauthError) (h : Past) : Prop
  | clean (hh : NoEffect h)
  | overtaken {id u n pre} (hh : h = ⟨.update id u, .ok n⟩ :: pre) (hn : n ≠ 1)
    (honly : ∀ ev ∈ h, Effect ev → IsStored ev) (he : e = .state "authorization was completed concurrently")
  | unrecorded {id u err pre} (hh : h = ⟨.update id u, .error err⟩ :: pre)
    (honly : ∀ ev ∈ h, Effect ev → IsStored ev) (he : e = .db err)

/-- How a `disconnect` fails: it changed nothing, or the credential is withdrawn and the row is as it was. -/
inductive DisconnectFails (id : Uuid) (e : OauthError) (h : Past) : Prop
  | clean (hh : NoEffect h)
  | withdrawn {scope err read} (hread : ¬ Effect read)
    (hh : h = [⟨.update id .revoke, .error err⟩, ⟨.revoke scope, .ok ()⟩, read]) (he : e = .db err)

theorem mint_error {signer : StateSigner} {state : OAuthState} {e : OauthError}
    (h : signer.mint lib state = .error e) : e.statusCode.1 = 400 := by
  unfold StateSigner.mint at h
  split at h <;> cases h
  rfl

theorem authorizeAdmitted_fails (a : Admitted) (verifier : Option String) {h : Past} (hh : NoEffect h) :
    Meets (.ofPast free) (svc.authorizeAdmitted lib a verifier).run h fun r h' =>
      ∀ e, r = .error e → AuthorizeFails e h' := by
  have hclean : ∀ e h', NoEffect h' → ∀ e', (.error e : Except OauthError AuthorizeResponse) = .error e' →
      AuthorizeFails e' h' := fun _ _ hh' _ _ => .clean hh'
  unfold authorizeAdmitted
  refine meets_effectless_bind (asks_run_answer (asks_ask.mpr ?_)) hh hclean ?_
  · exact effectless_rows trivial (by simp) (by simp) (by simp)
  intro accountId h₁ hh₁
  rw [meets_run_bind]
  refine (replaceRow_free _ hh₁).mono ?_
  rintro (e | ⟨⟩) h₂ hh₂
  · exact hclean e h₂ hh₂
  obtain ⟨pre, rfl, hpre⟩ := hh₂
  -- Behind the commit nothing has an effect, and only the token and the URL can fail.
  have hend : ∀ h', (∃ late, h' = late ++ ⟨.commit, .ok ()⟩ :: pre ∧ NoEffect late) → ∀ e : OauthError,
      e.statusCode.1 = 400 → AuthorizeFails e h' := by
    rintro h' ⟨late, rfl, hlate⟩ e he
    refine .unannounced (by simp) (fun ev hev heff => ?_) he
    rcases List.mem_append.mp hev with hev | hev
    · exact absurd heff (hlate ev hev)
    rcases List.mem_cons.mp hev with rfl | hev
    · rfl
    · exact absurd heff (hpre ev hev)
  simp only [mintText, utcNow, ask, Prog.ask, meets_run_bind, meets_run_answer, meets_run_pure,
    meets_run_ofExcept, meets_call, meets_ret, ofPast_must, ofPast_may, forall_eq]
  refine ⟨trivial, fun bytes => ⟨trivial, fun now => ?_⟩⟩
  have hlate : ∃ late, (⟨.utcNow, now⟩ : Event Sig) :: ⟨.randomBytes 16, bytes⟩ :: ⟨.commit, .ok ()⟩ :: pre =
      late ++ ⟨.commit, .ok ()⟩ :: pre ∧ NoEffect late := by
    refine ⟨[⟨.utcNow, now⟩, ⟨.randomBytes 16, bytes⟩], rfl, ?_⟩
    simp [NoEffect, Effect, IsStored, IsSet]
  cases hmint : svc.signer.mint lib
      ⟨accountId, a.provider, lib.encode bytes, timestamp now + stateTtlSeconds⟩ with
  | error e =>
    rintro _ ⟨⟩
    exact hend _ hlate e (mint_error hmint)
  | ok token =>
    dsimp only
    split
    · rintro _ ⟨⟩
      exact hend _ hlate _ rfl
    · rintro _ ⟨⟩

theorem authorize_fails (req : AuthorizeRequest) :
    Meets (.ofPast free) (svc.authorize lib req).run [] fun r h =>
      ∀ e, r = .error e → AuthorizeFails e h := by
  have hclean : ∀ e h', NoEffect h' → ∀ e', (.error e : Except OauthError AuthorizeResponse) = .error e' →
      AuthorizeFails e' h' := fun _ _ hh' _ _ => .clean hh'
  have hnil : NoEffect [] := by simp [NoEffect]
  unfold authorize
  refine meets_effectless_bind asks_run_ofExcept hnil hclean fun a h hh => ?_
  dsimp only
  split
  · exact meets_effectless_bind (asks_run_map mintText_effectless) hh hclean fun verifier h' hh' =>
      authorizeAdmitted_fails a verifier hh'
  · exact authorizeAdmitted_fails a none hh

theorem storeBundle_free (companyId : Uuid) (g : Grant) (refresh : Option String) {h : Past}
    (hh : NoEffect h) :
    Meets (.ofPast free) (storeBundle companyId g refresh).run h fun r h' =>
      match r with
      | .ok _ => ∀ ev ∈ h', Effect ev → IsStored ev
      | .error _ => NoEffect h' := by
  have hstored : ∀ {h' : Past} {ev : Event Sig}, NoEffect h' → IsStored ev →
      ∀ ev' ∈ ev :: h', Effect ev' → IsStored ev' := by
    intro h' ev hh' hev
    refine List.forall_mem_cons.mpr ⟨fun _ => hev, fun ev' hev' heff => absurd heff (hh' ev' hev')⟩
  simp only [storeBundle, ask, Prog.ask, meets_run_bind, meets_run_answer, meets_call, meets_ret,
    ofPast_must, ofPast_may, forall_eq]
  refine ⟨trivial, ?_⟩
  rintro (f | cid)
  · have hissue : NoEffect (⟨.issue (g.scope companyId) purposeOauthToken (g.bundle refresh) g.expiresAt,
        .error f⟩ :: h) := hh.cons (by simp [Effect, IsStored, IsSet])
    simp only [meets_run_ite, meets_run_bind, meets_run_orFail, meets_run_throw, meets_call,
      meets_ret, ofPast_must, ofPast_may, forall_eq]
    refine ⟨fun _ => ⟨trivial, ?_⟩, fun _ => hissue⟩
    rintro (f | cid)
    · exact hissue.cons (by simp [Effect, IsStored, IsSet])
    · exact hstored hissue trivial
  · exact hstored hh trivial

theorem activate_fails (g : Grant) {h : Past} (hh : ∀ ev ∈ h, Effect ev → IsStored ev) :
    Meets (.ofPast free) (activate g).run h fun r h' => ∀ e, r = .error e → CompleteFails e h' := by
  simp only [activate, sql, ask, Prog.ask, meets_run_bind, meets_run_orFail, meets_call, meets_ret,
    ofPast_must, ofPast_may, forall_eq]
  refine ⟨trivial, ?_⟩
  rintro (err | n)
  · rintro _ ⟨⟩
    refine .unrecorded rfl (List.forall_mem_cons.mpr ⟨fun heff => ?_, hh⟩) rfl
    simp [Effect, IsStored, IsSet] at heff
  · simp only [Except.mapError, meets_run_ite, meets_run_bind, meets_run_throw, meets_run_pure]
    refine ⟨fun hn => ?_, fun _ => ?_⟩
    · rintro _ ⟨⟩
      refine .overtaken rfl hn (List.forall_mem_cons.mpr ⟨fun heff => ?_, hh⟩) rfl
      simp [Effect, IsStored, IsSet, hn] at heff
    · rintro _ ⟨⟩

theorem complete_fails (companyId : Uuid) (req : CompleteRequest) :
    Meets (.ofPast free) (svc.complete lib companyId req).run [] fun r h =>
      ∀ e, r = .error e → CompleteFails e h := by
  have hclean : ∀ e h', NoEffect h' → ∀ e', (.error e : Except OauthError CompleteOutcome) = .error e' →
      CompleteFails e' h' := fun _ _ hh' _ _ => .clean hh'
  have hnil : NoEffect [] := by simp [NoEffect]
  have hcarried : ∀ g, (carriedRefresh companyId g).run.Asks Effectless := by
    intro g
    unfold carriedRefresh
    split
    · trivial
    · refine asks_run_bind (asks_run_answer (asks_ask.mpr ?_)) ?_
      · exact effectless_of_ne (by simp) (fun _ => ⟨id, id⟩) (by simp)
      · rintro (f | prior) <;> trivial
  unfold complete
  refine meets_effectless_bind (gauntlet_checks.mono fun _ => effectless_checking) hnil hclean
    fun g h hh => ?_
  refine meets_effectless_bind (hcarried g) hh hclean fun refresh h₁ hh₁ => ?_
  rw [meets_run_bind]
  refine (storeBundle_free companyId g refresh hh₁).mono ?_
  rintro (e | ⟨⟩) h₂ hh₂
  · exact hclean e h₂ hh₂
  · exact activate_fails g hh₂

theorem disconnect_fails (companyId accountId : Uuid) :
    Meets (.ofPast free) (disconnect companyId accountId).run [] fun r h =>
      ∀ e, r = .error e → DisconnectFails accountId e h := by
  have hread : ∀ ans, ¬ Effect ⟨.fetchAccount accountId, ans⟩ := effectless_checking trivial
  simp only [disconnect, fetchAccount, sql, ask, Prog.ask, meets_run_bind, meets_run_orFail,
    meets_call, meets_ret, ofPast_must, ofPast_may, forall_eq]
  refine ⟨trivial, ?_⟩
  rintro (err | _ | account)
  · rintro _ ⟨⟩
    exact .clean (List.forall_mem_cons.mpr ⟨hread _, by simp⟩)
  · rintro _ ⟨⟩
    exact .clean (List.forall_mem_cons.mpr ⟨hread _, by simp⟩)
  have hfetched : NoEffect [⟨.fetchAccount accountId, .ok (some account)⟩] :=
    List.forall_mem_cons.mpr ⟨hread _, by simp⟩
  simp only [Except.mapError, meets_run_ite, meets_run_bind, meets_run_answer, meets_run_pure,
    meets_call, meets_ret, ofPast_must, ofPast_may, forall_eq]
  refine ⟨fun _ => by simp, fun _ => ⟨trivial, fun ans => ?_⟩⟩
  -- The row is updated behind the withdrawal, and this update is the one that can come too late.
  have hupdate : ∀ ans : Ans (.revoke (account.scope companyId)),
      Meets (.ofPast free) (do let _ ← sql (ask (.update accountId .revoke)) : Flow OauthError Unit).run
        [⟨.revoke (account.scope companyId), ans⟩, ⟨.fetchAccount accountId, .ok (some account)⟩]
        fun r h => ∀ e, r = .error e → DisconnectFails accountId e h := by
    intro ans
    simp only [sql, ask, Prog.ask, meets_run_bind, meets_run_orFail, meets_call, meets_ret,
      ofPast_must, ofPast_may, forall_eq]
    refine ⟨trivial, ?_⟩
    rintro (err | n)
    · rintro _ ⟨⟩
      rcases ans with f | ⟨⟩
      · refine .clean ((hfetched.cons ?_).cons ?_) <;> simp [Effect, IsStored, IsSet]
      · exact .withdrawn (hread _) rfl rfl
    · rintro _ ⟨⟩
  rcases ans with f | ⟨⟩
  · simp only [meets_run_ite, meets_run_bind]
    refine ⟨fun _ => meets_run_bind.mp (hupdate _), fun _ => ?_⟩
    rintro _ ⟨⟩
    refine .clean (hfetched.cons ?_)
    simp [Effect, IsStored, IsSet]
  · exact hupdate _

/-! ## The script of the failures -/

/-- The call of a request returned this error. -/
def Fails : (c : Call) → Res c → OauthError → Prop
  | .authorize _, result, e | .complete .., result, e | .disconnect .., result, e | .status _, result, e =>
    result = .error e
  | _, _, _ => False

def failsLeave (c : Call) (result : Res c) (h : Past) : Prop :=
  ∀ e, Fails c result e →
    match c with
    | .authorize _ => AuthorizeFails e h
    | .complete .. => CompleteFails e h
    | .disconnect _ accountId => DisconnectFails accountId e h
    | _ => NoEffect h

def failScript (lib : Crates) (svc : IntegrationsOauthService) : Script (system lib svc) where
  must _ := free
  leave := failsLeave

theorem failScript_holds (lib : Crates) (svc : IntegrationsOauthService) : (failScript lib svc).Holds := by
  intro c
  cases c <;> simp only [system, prog]
  case authorize req => exact authorize_fails req
  case complete companyId req => exact complete_fails companyId req
  case disconnect companyId accountId => exact disconnect_fails companyId accountId
  case status accountId =>
    have hasks : (status accountId).run.Asks Effectless := by
      refine asks_run_bind (asks_sql (asks_ask.mpr (effectless_checking trivial))) fun found => ?_
      cases found <;> trivial
    exact (meets_effectless hasks (by simp [NoEffect])).mono fun _ _ hh _ _ => hh
  all_goals exact (Meets.trivial fun _ _ => trivial).mono fun _ _ _ _ hf => hf.elim

theorem serve_responds {r : Request} {c : Call} {render : Res c → Response}
    (h : OauthHandler.serve lib svc fromSlice r = .call c render) (result : Res c) :
    (∃ e, Fails c result e ∧ render result = e.intoResponse) ∨ (render result).status < 400 := by
  have hrender : ∀ {α : Type} (ok : α → Response) (hok : ∀ a, (ok a).status < 400)
      (result : Except OauthError α),
      (∃ e, result = .error e ∧ respond ok result = e.intoResponse) ∨ (respond ok result).status < 400 := by
    intro α ok hok result
    cases result with
    | error e => exact .inl ⟨e, rfl, rfl⟩
    | ok a => exact .inr (hok a)
  -- A request that becomes a call renders its result. The others answer by themselves.
  rcases r with ⟨- | p, req⟩ | q | ⟨- | p, contentType, body⟩ | ⟨- | p, id⟩ | ⟨- | p, id⟩
  · cases h
  · by_cases hp : p.has "write:integrations"
    · rw [serve_authorize hp] at h
      cases h
      exact hrender _ (fun _ => by simp) result
    · rw [show OauthHandler.serve lib svc fromSlice (.authorize (some p) req) = .own _ from if_pos hp] at h
      cases h
  · cases h
  · cases h
  · by_cases hp : p.has "write:integrations"
    · rw [serve_complete hp] at h
      cases hbody : OauthHandler.readBody fromSlice contentType body with
      | error response =>
        rw [hbody] at h
        cases h
      | ok req =>
        rw [hbody] at h
        cases h
        exact hrender _ (fun _ => by simp) result
    · rw [show OauthHandler.serve lib svc fromSlice (.complete (some p) contentType body) = .own _ from
        if_pos hp] at h
      cases h
  · cases h
  · by_cases hp : p.has "delete:integrations"
    · rw [serve_disconnect hp] at h
      cases h
      exact hrender _ (fun _ => by simp) result
    · rw [show OauthHandler.serve lib svc fromSlice (.disconnect (some p) id) = .own _ from if_pos hp] at h
      cases h
  · cases h
  · cases h
    exact hrender _ (fun _ => by simp) result

/-! ## Failed requests -/

variable {A : Hub → (op : Op) → Ans op → Prop} {init : Hub → Prop}
  {cfg : Config (createOauthRoutes lib svc fromSlice)}
  {tr : List (Taken (createOauthRoutes lib svc fromSlice))}

/-- No step of the thread changed an account or a credential. -/
def Untouched (tr : List (Taken (createOauthRoutes lib svc fromSlice))) (t : Tid) : Prop :=
  ∀ s ∈ tr, ∀ op ans, s.label = .op t op ans → Hub.accounts s.after.world = Hub.accounts s.before.world ∧
    Hub.credentials s.after.world = Hub.credentials s.before.world

/-- The ways to stop halfway: the pending account of an `authorize` is there without its URL, a `complete`
has written to the store and the account was no longer pending or the database failed, or a `disconnect` has
withdrawn the credential and the database failed. -/
inductive Halfway (h : Past) : Request → Response → Prop
  | unannounced {principal req} {e : OauthError} (hc : ⟨.commit, .ok ()⟩ ∈ h)
    (honly : ∀ ev ∈ h, Effect ev → ev = ⟨.commit, .ok ()⟩) (he : e.statusCode.1 = 400) :
    Halfway h (.authorize principal req) e.intoResponse
  | overtaken {principal contentType body id u n pre} (hh : h = ⟨.update id u, .ok n⟩ :: pre) (hn : n ≠ 1)
    (honly : ∀ ev ∈ h, Effect ev → IsStored ev) :
    Halfway h (.complete principal contentType body)
      (OauthError.state "authorization was completed concurrently").intoResponse
  | unrecorded {principal contentType body id u err pre} (hh : h = ⟨.update id u, .error err⟩ :: pre)
    (honly : ∀ ev ∈ h, Effect ev → IsStored ev) :
    Halfway h (.complete principal contentType body) (OauthError.db err).intoResponse
  | withdrawn {principal id scope err read} (hread : ¬ Effect read)
    (hh : h = [⟨.update id .revoke, .error err⟩, ⟨.revoke scope, .ok ()⟩, read]) :
    Halfway h (.disconnect principal id) (OauthError.db err).intoResponse

theorem Halfway.status {h : Past} {r : Request} {response : Response} (hh : Halfway h r response) :
    response.status = 400 ∨ response.status = 500 := by
  rcases hh with ⟨-, -, he⟩ | _ | _ | _
  · exact .inl he
  · exact .inl rfl
  · exact .inr rfl
  · exact .inr rfl

theorem untouched_of_noEffect (hr : Run (createOauthRoutes lib svc fromSlice) init (Allowed A) tr cfg)
    {t : Tid}
    (hh : NoEffect (cfg.events t)) : Untouched tr t := by
  intro s hs op ans hl
  obtain ⟨newer, older, rfl⟩ := List.append_of_mem hs
  obtain ⟨-, -, hstep⟩ := hr.split
  rw [hl] at hstep
  refine (Hub.next_change hstep.next_eq).tables_eq (hh _ (mem_events.mpr ?_))
  rw [Config.Did, hr.hist_eq, ← hl]
  exact List.mem_map_of_mem (by simp)

/-- A request that fails changes nothing, unless it stops halfway in one of the four ways. So a request that
is refused, that finds no account or that fails on the provider or the store changes nothing at all. -/
theorem failed_request (hinit : ∀ w, init w → w.txs = .empty)
    (hr : Run (createOauthRoutes lib svc fromSlice) init (Allowed A) tr cfg) {t : Tid} {r : Request}
    {response : Response} (hd : cfg.threads t = .done r response) (hfail : 400 ≤ response.status) :
    (Untouched tr t ∨ Halfway (cfg.events t) r response) ∧
      (response.status ≠ 400 → response.status ≠ 500 → Untouched tr t) := by
  have hc : cfg.call? t = some r := by simp [Config.call?, hd, Thread.call?]
  suffices hall : Untouched tr t ∨ Halfway (cfg.events t) r response by
    refine ⟨hall, fun h400 h500 => ?_⟩
    rcases hall with hall | hhalf
    · exact hall
    · rcases hhalf.status with h | h
      · exact absurd h h400
      · exact absurd h h500
  obtain ⟨cfg₀, hr₀, hm⟩ := mirrored hinit hr.reach
  rcases passed_or_withheld hr.reach hm hc with ⟨c, hpassed⟩ | hwithheld
  · obtain ⟨render, hserve, hresponse⟩ := hpassed.response
    obtain ⟨result, hd₀, rfl⟩ := hresponse response hd
    rcases serve_responds hserve result with ⟨e, hfails, he⟩ | hlow
    · have hleave := (failScript_holds lib svc).leave hr₀ hd₀ e hfails
      rw [hpassed.events] at hleave
      rw [he]
      -- The four calls fail in different places: behind a commit, an issue, a withdrawal, or behind
      -- nothing.
      rcases hpassed.admitted with _ | _ | _ | _
      · rcases hleave with hh | ⟨hcommit, honly, he⟩
        · exact .inl (untouched_of_noEffect hr hh)
        · exact .inr (.unannounced hcommit honly he)
      · rcases hleave with hh | ⟨hlast, hn, honly, rfl⟩ | ⟨hlast, honly, rfl⟩
        · exact .inl (untouched_of_noEffect hr hh)
        · exact .inr (.overtaken hlast hn honly)
        · exact .inr (.unrecorded hlast honly)
      · rcases hleave with hh | ⟨hread, hlast, rfl⟩
        · exact .inl (untouched_of_noEffect hr hh)
        · exact .inr (.withdrawn hread hlast)
      · exact .inl (untouched_of_noEffect hr hleave)
    · omega
  · refine .inl (untouched_of_noEffect hr fun ev hev => ?_)
    rcases hwithheld.events with ⟨q, -, hclock⟩ | ⟨hnothing, -⟩
    · obtain ⟨op, ans⟩ := ev
      have hop := hclock op ans (mem_events.mp hev)
      have hcheck : checkingOp op := by
        rw [hop]
        trivial
      exact effectless_checking hcheck ans
    · rw [hnothing] at hev
      cases hev

theorem failed_request_mailbox : ∃ (cfg : Config mailRoutes) (tr : List (Taken mailRoutes)),
    cfg.hist = routesRun.reverse ∧
      (Untouched tr 0 ∨ ∃ r response, Halfway (cfg.events 0) r response) ∧ Untouched tr 3 ∧
      Untouched tr 4 := by
  obtain ⟨cfg, hr, hh, hdone⟩ := routesRun_reach
  obtain ⟨tr, htr⟩ := hr.run
  have hidle : ∀ w, w = mailHub → w.txs = .empty := by
    rintro _ rfl
    rfl
  obtain ⟨r₀, response₀, h₀, hs₀⟩ := hdone 0 400 (by simp)
  obtain ⟨r₃, response₃, h₃, hs₃⟩ := hdone 3 403 (by simp)
  obtain ⟨r₄, response₄, h₄, hs₄⟩ := hdone 4 401 (by simp)
  refine ⟨cfg, tr, hh, ?_, ?_, ?_⟩
  · rcases (failed_request hidle htr h₀ (by omega)).1 with hsame | hhalf
    · exact .inl hsame
    · exact .inr ⟨r₀, response₀, hhalf⟩
  · exact (failed_request hidle htr h₃ (by omega)).2 (by omega) (by omega)
  · exact (failed_request hidle htr h₄ (by omega)).2 (by omega) (by omega)

end BackboneIntegrations.OAuth
