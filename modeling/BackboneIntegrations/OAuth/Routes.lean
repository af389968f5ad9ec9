import BackboneIntegrations.Interleave.Front
import BackboneIntegrations.OAuth.CallbackForm
import BackboneIntegrations.OAuth.CallbackPage
import BackboneIntegrations.OAuth.Outbound

/-!
# The OAuth routes

Five verbs over the service: who may call them, what they answer, and which service call a request is.
-/

open Interleave

namespace BackboneIntegrations.OAuth

open IntegrationsOauthService

/-! ## Requests and responses -/

structure OAuthPrincipal where
  companyId : Uuid
  permissions : List String
  deriving DecidableEq, Repr

def OAuthPrincipal.has (p : OAuthPrincipal) (permission : String) : Bool :=
  p.permissions.any (· == permission)

structure CallbackQuery where
  code : Option String
  state : Option String
  error : Option String
  deriving DecidableEq, Repr

/-- A request, with the principal that the auth layer of the host put on it. -/
inductive Request where
  | authorize (principal : Option OAuthPrincipal) (req : AuthorizeRequest)
  | callback (q : CallbackQuery)
  | complete (principal : Option OAuthPrincipal) (contentType : Option String) (body : ByteArray)
  | disconnect (principal : Option OAuthPrincipal) (accountId : Uuid)
  | status (principal : Option OAuthPrincipal) (accountId : Uuid)

inductive Body where
  | empty
  | html (page : String)
  /-- `{"success": false, "error": .., "message": ..}`. -/
  | failure (error message : String)
  /-- `{"success": true, "data": ..}`, as the next two. -/
  | authorized (data : AuthorizeResponse)
  | completed (data : CompleteOutcome)
  | account (data : AccountRow)
  deriving DecidableEq, Repr

structure Response where
  status : Nat
  body : Body
  deriving DecidableEq, Repr

/-! ## Errors -/

/-- The `Display` of the error. -/
def OauthError.display : OauthError → String
  | .invalid why => "invalid input: " ++ why
  | .state why => "state rejected: " ++ why
  | .providerUnconfigured why => "provider not configured: " ++ why
  | .notFound => "account not found"
  | .identity why => "identity verification failed: " ++ why
  | .unstoreable why => "unstoreable token: " ++ why
  | .transport why => "provider transport: " ++ why
  | .store why => "credential store: " ++ why
  | .db e => "db: " ++ e

def errorResponse (status : Nat) (code message : String) : Response := ⟨status, .failure code message⟩

def OauthError.statusCode : OauthError → Nat × String
  | .invalid _ => (400, "OAUTH_INVALID_INPUT")
  | .state _ => (400, "OAUTH_STATE_REJECTED")
  | .identity _ => (400, "OAUTH_IDENTITY_REJECTED")
  | .unstoreable _ => (502, "OAUTH_UNSTOREABLE_TOKEN")
  | .notFound => (404, "OAUTH_ACCOUNT_NOT_FOUND")
  | .providerUnconfigured _ => (503, "OAUTH_PROVIDER_UNCONFIGURED")
  | .transport _ => (502, "OAUTH_PROVIDER_TRANSPORT")
  | .store _ => (503, "OAUTH_CREDENTIAL_STORE")
  | .db _ => (500, "OAUTH_DATABASE")

/-- `into_response`. -/
def OauthError.intoResponse (e : OauthError) : Response :=
  errorResponse e.statusCode.1 e.statusCode.2 e.display

def unauthenticated : Response :=
  errorResponse 401 "OAUTH_UNAUTHENTICATED" "authentication required: no validated principal on the request"

def forbidden (lib : Crates) (permission : String) : Response :=
  errorResponse 403 "OAUTH_FORBIDDEN"
    ("this route requires the " ++ Text.debug lib.unprintable permission ++ " permission")

/-! ### The error page -/

/-- The three replacements of `error_page`. -/
def textEscape (detail : String) : String :=
  replace (replace (replace detail '&' "&amp;") '<' "&lt;") '>' "&gt;"

def errorHead : String :=
  "<!doctype html>\n<html>\n<head><meta charset=\"utf-8\"><title>Connection not completed</title></head>\n<body>\n  <h1>"

def errorMiddle : String := "</h1>\n  <p>"

def errorFoot : String :=
  "</p>\n  <p>Close this window and start the connection again.</p>\n</body>\n</html>\n"

def errorText (title detail : String) : String :=
  errorHead ++ title ++ errorMiddle ++ textEscape detail ++ errorFoot

def errorPage (status : Nat) (title detail : String) : Response := ⟨status, .html (errorText title detail)⟩

/-! ## The handlers -/

/-- `Ok` and `Err` of a service call, as a response. -/
def respond {α : Type} (ok : α → Response) : Except OauthError α → Response
  | .ok out => ok out
  | .error e => e.intoResponse

namespace OauthHandler

variable (lib : Crates) (svc : IntegrationsOauthService)
  -- `serde_json::from_slice` of a `CompleteRequest`.
  (fromSlice : ByteArray → Except String CompleteRequest)

/-- The layer in front of every route but the callback. -/
def requirePrincipal (principal : Option OAuthPrincipal)
    (next : OAuthPrincipal → Serve (system lib svc) Response) : Serve (system lib svc) Response :=
  match principal with
  | none => .own (.ret unauthenticated)
  | some p => next p

def authorize (principal : OAuthPrincipal) (req : AuthorizeRequest) : Serve (system lib svc) Response :=
  if ¬ principal.has "write:integrations" then .own (.ret (forbidden lib "write:integrations"))
  else .call (.authorize req) (respond fun out => ⟨200, .authorized out⟩)

def callback (q : CallbackQuery) : Prog Sig Response :=
  match q.error.filter (! Text.isBlank ·) with
  | some err => .ret (errorPage 400 "the provider refused the authorization" err)
  | none =>
    match q.code, q.state with
    | some code, some state => do
      match ← (svc.callbackPage lib code state).run with
      | .ok page => return ⟨200, .html page⟩
      | .error e => return errorPage 400 "the connection could not continue" e.display
    | _, _ =>
      .ret (errorPage 400 "incomplete callback" "the callback is missing its code or signed state")

/-- The body, by its content type: JSON, or else the form of the callback page. -/
def readBody (contentType : Option String) (body : ByteArray) : Except Response CompleteRequest :=
  let contentType := Text.toAsciiLowercase (contentType.getD "")
  if "application/json".toList.isPrefixOf contentType.toList then
    (fromSlice body).mapError fun e =>
      errorResponse 400 "OAUTH_INVALID_INPUT" ("malformed JSON body: " ++ e)
  else
    match parseFormComplete body with
    | some req => .ok req
    | none => .error (errorResponse 400 "OAUTH_INVALID_INPUT"
        "body must be the callback form (code + state) or JSON with those fields")

def complete (principal : OAuthPrincipal) (contentType : Option String) (body : ByteArray) :
    Serve (system lib svc) Response :=
  if ¬ principal.has "write:integrations" then .own (.ret (forbidden lib "write:integrations"))
  else
    match readBody fromSlice contentType body with
    | .error response => .own (.ret response)
    | .ok req => .call (.complete principal.companyId req) (respond fun out => ⟨200, .completed out⟩)

def disconnect (principal : OAuthPrincipal) (accountId : Uuid) : Serve (system lib svc) Response :=
  if ¬ principal.has "delete:integrations" then .own (.ret (forbidden lib "delete:integrations"))
  else .call (.disconnect principal.companyId accountId) (respond fun _ => ⟨204, .empty⟩)

def status (_principal : OAuthPrincipal) (accountId : Uuid) : Serve (system lib svc) Response :=
  .call (.status accountId) (respond fun out => ⟨200, .account out⟩)

/-- The router. -/
def serve : Request → Serve (system lib svc) Response
  | .authorize principal req => requirePrincipal lib svc principal (authorize lib svc · req)
  | .callback q => .own (callback lib svc q)
  | .complete principal contentType body =>
    requirePrincipal lib svc principal (complete lib svc fromSlice · contentType body)
  | .disconnect principal accountId => requirePrincipal lib svc principal (disconnect lib svc · accountId)
  | .status principal accountId => requirePrincipal lib svc principal (status lib svc · accountId)

end OauthHandler

/-- The routes, mounted over the service. -/
def createOauthRoutes (lib : Crates) (svc : IntegrationsOauthService)
    (fromSlice : ByteArray → Except String CompleteRequest) :
    System Sig Hub Request (fun _ => Response) Env :=
  front (system lib svc) (OauthHandler.serve lib svc fromSlice)

/-! ## Which call a request is -/

variable {lib : Crates} {svc : IntegrationsOauthService}
  {fromSlice : ByteArray → Except String CompleteRequest}

/-- The service calls that a request may become. Each needs its principal, and all but `status` a
permission of their own. -/
inductive Admits (fromSlice : ByteArray → Except String CompleteRequest) : Request → Call → Prop
  | authorize {p req} (h : p.has "write:integrations") :
    Admits fromSlice (.authorize (some p) req) (.authorize req)
  | complete {p contentType body req} (h : p.has "write:integrations")
    (hbody : OauthHandler.readBody fromSlice contentType body = .ok req) :
    Admits fromSlice (.complete (some p) contentType body) (.complete p.companyId req)
  | disconnect {p id} (h : p.has "delete:integrations") :
    Admits fromSlice (.disconnect (some p) id) (.disconnect p.companyId id)
  | status {p id} : Admits fromSlice (.status (some p) id) (.status id)

/-- What the routes answer by themselves, the callback apart. -/
def Refusal (response : Response) : Prop :=
  response.status = 401 ∨ response.status = 403 ∨ response.status = 400

theorem readBody_error {contentType : Option String} {body : ByteArray} {response : Response}
    (h : OauthHandler.readBody fromSlice contentType body = .error response) : response.status = 400 := by
  unfold OauthHandler.readBody at h
  dsimp only at h
  split at h
  · cases hjson : fromSlice body with
    | ok req =>
      rw [hjson] at h
      cases h
    | error e =>
      rw [hjson] at h
      cases h
      rfl
  · split at h <;> cases h
    rfl

theorem serve_authorize {p : OAuthPrincipal} (h : p.has "write:integrations") {req : AuthorizeRequest} :
    OauthHandler.serve lib svc fromSlice (.authorize (some p) req) =
      .call (.authorize req) (respond fun out => ⟨200, .authorized out⟩) := if_neg (not_not.mpr h)

theorem serve_complete {p : OAuthPrincipal} (h : p.has "write:integrations") {contentType : Option String}
    {body : ByteArray} :
    OauthHandler.serve lib svc fromSlice (.complete (some p) contentType body) =
      match OauthHandler.readBody fromSlice contentType body with
      | .error response => .own (.ret response)
      | .ok req => .call (.complete p.companyId req) (respond fun out => ⟨200, .completed out⟩) :=
  if_neg (not_not.mpr h)

theorem serve_disconnect {p : OAuthPrincipal} (h : p.has "delete:integrations") {id : Uuid} :
    OauthHandler.serve lib svc fromSlice (.disconnect (some p) id) =
      .call (.disconnect p.companyId id) (respond fun _ => ⟨204, .empty⟩) := if_neg (not_not.mpr h)

theorem serve_cases (lib : Crates) (svc : IntegrationsOauthService)
    (fromSlice : ByteArray → Except String CompleteRequest) (r : Request) :
    (∃ q, r = .callback q ∧
      OauthHandler.serve lib svc fromSlice r = .own (OauthHandler.callback lib svc q)) ∨
      (∃ response, Refusal response ∧ OauthHandler.serve lib svc fromSlice r = .own (.ret response) ∧
        ∀ q, r ≠ .callback q) ∨
      ∃ c respond, Admits fromSlice r c ∧ OauthHandler.serve lib svc fromSlice r = .call c respond := by
  have hnone : Refusal unauthenticated := .inl rfl
  have hforbidden : ∀ permission, Refusal (forbidden lib permission) := fun _ => .inr (.inl rfl)
  rcases r with ⟨- | p, req⟩ | q | ⟨- | p, contentType, body⟩ | ⟨- | p, id⟩ | ⟨- | p, id⟩
  · exact .inr (.inl ⟨_, hnone, rfl, by simp⟩)
  · by_cases h : p.has "write:integrations"
    · exact .inr (.inr ⟨_, _, .authorize h, serve_authorize h⟩)
    · exact .inr (.inl ⟨_, hforbidden "write:integrations", if_pos h, by simp⟩)
  · exact .inl ⟨q, rfl, rfl⟩
  · exact .inr (.inl ⟨_, hnone, rfl, by simp⟩)
  · by_cases h : p.has "write:integrations"
    · rw [serve_complete h]
      cases hbody : OauthHandler.readBody fromSlice contentType body with
      | error response => exact .inr (.inl ⟨response, .inr (.inr (readBody_error hbody)), rfl, by simp⟩)
      | ok req => exact .inr (.inr ⟨_, _, .complete h hbody, rfl⟩)
    · exact .inr (.inl ⟨_, hforbidden "write:integrations", if_pos h, by simp⟩)
  · exact .inr (.inl ⟨_, hnone, rfl, by simp⟩)
  · by_cases h : p.has "delete:integrations"
    · exact .inr (.inr ⟨_, _, .disconnect h, serve_disconnect h⟩)
    · exact .inr (.inl ⟨_, hforbidden "delete:integrations", if_pos h, by simp⟩)
  · exact .inr (.inl ⟨_, hnone, rfl, by simp⟩)
  · exact .inr (.inr ⟨_, _, .status, rfl⟩)

/-! ## What the routes do by themselves -/

theorem callbackPage_asks (code state : String) :
    (svc.callbackPage lib code state).run.Asks (· = Op.utcNow) := by
  unfold callbackPage
  split
  · exact asks_run_bind asks_run_throw fun _ => asks_run_bind (verify_asks rfl) fun _ => trivial
  · exact asks_run_bind (verify_asks rfl) fun _ => trivial

theorem callback_asks (q : CallbackQuery) : (OauthHandler.callback lib svc q).Asks (· = Op.utcNow) := by
  unfold OauthHandler.callback
  split
  · trivial
  split
  · refine (callbackPage_asks _ _).bind ?_
    rintro (e | page) <;> trivial
  · trivial

theorem quiet_utcNow : Quiet (system lib svc) .utcNow := by
  intro t now w w' h
  simp only [system, Hub.next, Option.ite_none_right_eq_some, Option.some.injEq] at h
  exact h.2.symm

theorem own_quiet (r : Request) (p : Prog Sig Response)
    (h : OauthHandler.serve lib svc fromSlice r = .own p) : p.Asks (Quiet (system lib svc)) := by
  rcases serve_cases lib svc fromSlice r with
    ⟨q, -, hq⟩ | ⟨response, -, hresponse, -⟩ | ⟨c, respond, -, hcall⟩
  · rw [hq] at h
    cases h
    refine (callback_asks q).mono ?_
    rintro _ rfl
    exact quiet_utcNow
  · rw [hresponse] at h
    cases h
    trivial
  · rw [hcall] at h
    cases h

namespace Hub

/-- The thread holds no lock and has nothing to commit. -/
def Apart (t : Tid) (w : Hub) : Prop := (∀ id, w.txs.holder id ≠ some t) ∧ w.txs.writes t = []

theorem Apart.leave {t : Tid} {w : Hub} (h : w.Apart t) : w.release t = w := by
  have hclear : w.txs.clear t = w.txs := by
    unfold Txs.clear
    congr 1
    · funext id
      rw [if_neg (h.1 id)]
    · rw [← h.2, Function.update_eq_self]
  rw [Hub.release, hclear]

end Hub

theorem parting : Parting (system lib svc) Hub.Apart where
  leave h := h.leave
  next {t u op ans w w'} h hu hnext := by
    have hc := Hub.next_change hnext
    refine ⟨fun id hid => ?_, (hc.others hu).1.trans h.2⟩
    rcases hc.holder_of hid with hold | heq
    · exact h.1 id hold
    · exact hu heq
  other {t u w} h hu := by
    refine ⟨fun id hid => h.1 id (Txs.clear_holder_iff.mp hid).1, ?_⟩
    exact (Txs.clear_writes_ne hu).trans h.2
  env {t e w w'} h henv := by
    cases e with
    | tick clock =>
      simp only [system, Hub.env, Option.ite_none_right_eq_some, Option.some.injEq] at henv
      rw [← henv.2]
      exact h
    | kill token =>
      cases henv
      exact h

/-! ## Every run of the routes is a run of the service -/

/-- A request that is not admitted asks nothing, a callback asks for the time. -/
def routeScript (lib : Crates) (svc : IntegrationsOauthService)
    (fromSlice : ByteArray → Except String CompleteRequest) :
    Script (createOauthRoutes lib svc fromSlice) where
  must r _ op := (∃ q, r = .callback q ∧ op = .utcNow) ∨ ∃ c, Admits fromSlice r c
  leave r response _ := (∃ q, r = .callback q) ∨ (∃ c, Admits fromSlice r c) ∨ Refusal response

theorem routeScript_holds (lib : Crates) (svc : IntegrationsOauthService)
    (fromSlice : ByteArray → Except String CompleteRequest) : (routeScript lib svc fromSlice).Holds := by
  intro r
  have hprog : (createOauthRoutes lib svc fromSlice).prog r =
      (OauthHandler.serve lib svc fromSlice r).prog := rfl
  rw [hprog]
  rcases serve_cases lib svc fromSlice r with
    ⟨q, hr, hq⟩ | ⟨response, hrefused, hresponse, -⟩ | ⟨c, respond, hadmits, hcall⟩
  · rw [hq]
    refine ((callback_asks q).meets (I := fun _ => True) trivial ?_ fun _ _ _ _ _ _ _ => trivial).mono ?_
    · exact fun _ op _ hop => .inl ⟨q, hr, hop⟩
    · exact fun _ _ _ => .inl ⟨q, hr⟩
  · rw [hresponse]
    exact .inr (.inr hrefused)
  · have hmust : ∀ h op, ((routeScript lib svc fromSlice).contract r).must h op :=
      fun _ _ => .inr ⟨c, hadmits⟩
    exact (Meets.trivial hmust).mono fun _ _ _ => .inr (.inl ⟨c, hadmits⟩)

/-- Where a request and its service call stand: the call is one that the principal may make, it has done what
the request has done, and the response is made of its result. -/
structure Passed (cfg : Config (createOauthRoutes lib svc fromSlice)) (cfg₀ : Config (system lib svc))
    (t : Tid) (r : Request) (c : Call) : Prop where
  admitted : Admits fromSlice r c
  called : cfg₀.call? t = some c
  events : cfg₀.events t = cfg.events t
  response : ∃ respond, OauthHandler.serve lib svc fromSlice r = .call c respond ∧
    ∀ response, cfg.threads t = .done r response →
      ∃ result, cfg₀.threads t = .done c result ∧ response = respond result

/-- Where a request stands that is no service call: it is refused before it asks anything, or it is a callback
and has looked at the clock at most. -/
structure Withheld (cfg : Config (createOauthRoutes lib svc fromSlice)) (cfg₀ : Config (system lib svc))
    (t : Tid) (r : Request) : Prop where
  idle : cfg₀.threads t = .idle
  refused : (∀ c, ¬ Admits fromSlice r c)
  events : (∃ q, r = .callback q ∧ ∀ op ans, cfg.Did t op ans → op = .utcNow) ∨
    (cfg.events t = [] ∧ ∀ response, cfg.threads t = .done r response → Refusal response)

theorem not_admits_of_own {r : Request} {p : Prog Sig Response}
    (h : OauthHandler.serve lib svc fromSlice r = .own p) (c : Call) : ¬ Admits fromSlice r c := by
  intro hadmits
  rcases hadmits with hp | ⟨hp, hbody⟩ | hp | _
  · simp [OauthHandler.serve, OauthHandler.requirePrincipal, OauthHandler.authorize, hp] at h
  · simp [OauthHandler.serve, OauthHandler.requirePrincipal, OauthHandler.complete, hp, hbody] at h
  · simp [OauthHandler.serve, OauthHandler.requirePrincipal, OauthHandler.disconnect, hp] at h
  · cases h

variable {A : Hub → (op : Op) → Ans op → Prop} {init : Hub → Prop}
  {cfg : Config (createOauthRoutes lib svc fromSlice)}

/-- Behind every run of the routes there is a run of the service that mirrors it. -/
theorem mirrored (hinit : ∀ w, init w → w.txs = .empty)
    (hr : Reach (createOauthRoutes lib svc fromSlice) init (Allowed A) cfg) :
    ∃ cfg₀ : Config (system lib svc), Reach (system lib svc) init (Allowed A) cfg₀ ∧
      Mirrors Hub.Apart cfg cfg₀ := by
  have hapart : ∀ w, init w → ∀ t, Hub.Apart t w := by
    intro w hw t
    rw [Hub.Apart, hinit w hw]
    simp
  exact Reach.mirrors parting own_quiet hapart hr

theorem passed_or_withheld (hr : Reach (createOauthRoutes lib svc fromSlice) init (Allowed A) cfg)
    {cfg₀ : Config (system lib svc)} (hm : Mirrors Hub.Apart cfg cfg₀) {t : Tid} {r : Request}
    (hc : cfg.call? t = some r) : (∃ c, Passed cfg cfg₀ t r c) ∨ Withheld cfg cfg₀ t r := by
  -- A request that has no call behind it is a callback, or it was refused before it asked anything.
  rcases hm.served hc with ⟨⟨p, hown⟩, hidle⟩ | ⟨c, respond, hcall, hc₀, hev, hdone⟩
  · refine .inr ⟨hidle, not_admits_of_own hown, ?_⟩
    have hno : ¬ ∃ c, Admits fromSlice r c := by
      rintro ⟨c, hadmits⟩
      exact not_admits_of_own hown c hadmits
    have hX := routeScript_holds lib svc fromSlice
    by_cases hq : ∃ q, r = .callback q
    · obtain ⟨q, rfl⟩ := hq
      refine .inl ⟨q, rfl, fun op ans hd => ?_⟩
      obtain ⟨pre, -, hmust⟩ := hX.past hr hc hd
      rcases hmust with ⟨_, -, hop⟩ | hadmits
      · exact hop
      · exact absurd hadmits hno
    · refine .inr ⟨?_, fun response hd => ?_⟩
      · refine List.eq_nil_iff_forall_not_mem.mpr fun ev hev => ?_
        obtain ⟨pre, -, hmust⟩ := hX.past hr hc (mem_events.mp hev)
        rcases hmust with ⟨q, hq', -⟩ | hadmits
        · exact hq ⟨q, hq'⟩
        · exact hno hadmits
      · rcases hX.leave hr hd with hq' | hadmits | hrefused
        · exact absurd hq' hq
        · exact absurd hadmits hno
        · exact hrefused
  · have hadmits : Admits fromSlice r c := by
      rcases serve_cases lib svc fromSlice r with
        ⟨q, -, hq⟩ | ⟨response, -, hresponse, -⟩ | ⟨c', respond', hadmits, hcall'⟩
      · rw [hq] at hcall
        cases hcall
      · rw [hresponse] at hcall
        cases hcall
      · rw [hcall'] at hcall
        cases hcall
        exact hadmits
    exact .inl ⟨c, hadmits, hc₀, hev, respond, hcall, hdone⟩

section Mailbox

/-- A JSON parser that knows the body of the requests below. -/
def mailJson (_ : ByteArray) : Except String CompleteRequest := .ok mailRequest

def mailBody : ByteArray := "{}".toUTF8

def mailWriter : OAuthPrincipal := ⟨9, ["write:integrations"]⟩

def mailDeleter : OAuthPrincipal := ⟨9, ["delete:integrations"]⟩

def mailQuery : CallbackQuery := ⟨"code-1", mailToken, none⟩

abbrev mailRoutes := createOauthRoutes mailCrates mailService mailJson

/-- Statements do not fail, and the store answers as its port documents. -/
def PortAnswers (w : Hub) (op : Op) (ans : Ans op) : Prop := Answered op ans ∧ w.StorePort op ans

def routeRules (cfg : Config mailRoutes) : Label mailRoutes → Bool
  | .op _ op ans => Answered op ans && Hub.StorePort cfg.world op ans
  | _ => true

theorem portAnswers_of_rules {cfg : Config mailRoutes} {l : Label mailRoutes} (h : routeRules cfg l) :
    Allowed PortAnswers cfg l := by
  cases l with
  | op t op ans =>
    show PortAnswers cfg.world op ans
    simpa [routeRules, PortAnswers] using h
  | _ => trivial

/-- The callback on thread 2, the `complete` that it leads to on thread 0 with a disconnect on thread 1 before
its store write, and two requests that are refused. -/
def routesRun : List (Label mailRoutes) :=
  [.start 2 (.callback mailQuery), .op 2 .utcNow (0 : Int), .finish 2,
    .start 0 (.complete (some mailWriter) (some "application/json") mailBody), .op 0 .utcNow (0 : Int),
    .op 0 (.fetchAccount 1) (.ok (some mailRow)),
    .op 0 (.fetchVerifier 1) (.ok (some (some "verifier"))),
    .op 0 (.exchange gmailToken mailForm) (.ok mailResponse), .op 0 .utcNow (0 : Int),
    .op 0 (.fetchIdentity gmailUserinfo "access-1") (.ok (mailIdentity "user@example.com")),
    .start 3 (.disconnect (some mailWriter) 1), .finish 3, .start 4 (.status none 1), .finish 4,
    .start 1 (.disconnect (some mailDeleter) 1), .op 1 (.fetchAccount 1) (.ok (some mailRow)),
    .op 1 (.revoke mailScope) (.error ⟨OAuthCredentialFailure.codeNotFound, ""⟩),
    .op 1 (.update 1 .revoke) (.ok (1 : Nat)), .finish 1,
    .op 0 (.issue mailScope purposeOauthToken mailBundle 3600000000) (.ok (77 : Nat)),
    .op 0 (.update 1 (.activate "" 3600000000 0)) (.ok (0 : Nat)), .finish 0]

/-- The statuses of the five responses. -/
def routesEnd (cfg : Config mailRoutes) : Bool :=
  [(0, 400), (1, 204), (2, 200), (3, 403), (4, 401)].all fun (t, status) =>
    match cfg.threads t with
    | .done _ response => response.status == status
    | _ => false

theorem routesRun_runs :
    (replay (fun cfg l => routeRules cfg l) (.init mailHub) routesRun).any routesEnd = true := by
  decide +kernel

theorem routesRun_reach : ∃ cfg : Config mailRoutes,
    Reach mailRoutes (· = mailHub) (Allowed PortAnswers) cfg ∧ cfg.hist = routesRun.reverse ∧
    ∀ t status, (t, status) ∈ [(0, 400), (1, 204), (2, 200), (3, 403), (4, 401)] →
      ∃ r response, cfg.threads t = .done r response ∧ response.status = status := by
  obtain ⟨cfg, hr, hh, hend⟩ : ∃ cfg : Config mailRoutes, Reach mailRoutes (· = mailHub)
      (fun cfg l => routeRules cfg l) cfg ∧ cfg.hist = routesRun.reverse ∧ routesEnd cfg = true := by
    refine Reach.exists_of_replay ?_ routesRun_runs
    rfl
  refine ⟨cfg, hr.mono fun _ _ => portAnswers_of_rules, hh, fun t status hm => ?_⟩
  unfold routesEnd at hend
  rw [List.all_eq_true] at hend
  have hdone := hend (t, status) hm
  dsimp only at hdone
  split at hdone
  · exact ⟨_, _, ‹_›, by simpa using hdone⟩
  · cases hdone

end Mailbox

/-! ## The company of a request -/

/-- The company that a call hands to the credential store. -/
def Call.company? : Call → Option Uuid
  | .complete companyId _ | .disconnect companyId _ => some companyId
  | _ => none

/-- The operation is not about another company at the store. -/
def ForCompany (companyId : Uuid) (op : Op) : Prop :=
  ∀ scope, scope? op = some scope → scope.companyId = companyId

/-- The operations of `complete` before its store writes. -/
def checkingOp : Op → Prop
  | .utcNow | .panic | .exchange .. | .fetchIdentity .. | .fetchAccount _ | .fetchVerifier _ => True
  | _ => False

theorem forCompany_of_checking {companyId : Uuid} {op : Op} (h : checkingOp op) :
    ForCompany companyId op := by
  intro scope hscope
  cases op <;> first | exact h.elim | cases hscope

theorem identify_checks {req : CompleteRequest} {state : OAuthState} {account : AccountRow}
    {adapter : ProviderAdapter} {endpoints : ValidatedEndpoints} {clientId : String}
    {verifier : Option String} :
    (svc.identify lib req state account adapter endpoints clientId verifier).run.Asks checkingOp := by
  refine asks_run_bind (asks_run_orFail (asks_ask.mpr trivial)) fun response => ?_
  refine asks_run_bind (asks_utcNow trivial) fun now => ?_
  refine asks_run_bind (asks_expiresAt trivial) fun expiresAt => ?_
  cases expiresAt with
  | none => exact True.intro
  | some expiresAt =>
    refine asks_run_bind (asks_run_orFail (asks_ask.mpr trivial)) fun identity => ?_
    refine asks_run_bind asks_run_ofExcept fun _ => ?_
    exact asks_run_bind asks_run_ofExcept fun _ => trivial

theorem gauntlet_checks {req : CompleteRequest} : (svc.gauntlet lib req).run.Asks checkingOp := by
  refine asks_run_bind (verify_asks trivial) fun state => ?_
  refine asks_run_bind (pendingAccount_asks trivial) ?_
  rintro ⟨account, adapter, endpoints, clientId⟩
  dsimp only
  split
  · exact asks_run_bind (asks_run_map (storedVerifier_asks trivial)) fun verifier => identify_checks
  · exact identify_checks

theorem storing_forCompany (companyId : Uuid) (g : Grant) :
    (do
      let refresh ← carriedRefresh companyId g
      storeBundle companyId g refresh
      activate g : Flow OauthError CompleteOutcome).run.Asks (ForCompany companyId) := by
  have hscope : ∀ scope, some (g.scope companyId) = some scope → scope.companyId = companyId := by
    rintro _ ⟨⟩
    rfl
  have hread : (carriedRefresh companyId g).run.Asks (ForCompany companyId) := by
    unfold carriedRefresh
    split
    · trivial
    · refine asks_run_bind (asks_run_answer (asks_ask.mpr hscope)) ?_
      rintro (f | prior) <;> trivial
  have hstore : ∀ refresh, (storeBundle companyId g refresh).run.Asks (ForCompany companyId) := by
    intro refresh
    refine asks_run_bind (asks_run_answer (asks_ask.mpr hscope)) ?_
    rintro (f | id)
    · dsimp only
      split
      · exact asks_run_bind (asks_run_orFail (asks_ask.mpr hscope)) fun _ => trivial
      · trivial
    · trivial
  have hactivate : (activate g).run.Asks (ForCompany companyId) := by
    refine asks_run_bind (asks_sql (asks_ask.mpr fun _ h => by cases h)) fun updated => ?_
    dsimp only
    split
    · exact asks_run_bind asks_run_throw fun _ => trivial
    · trivial
  exact asks_run_bind hread fun refresh => asks_run_bind (hstore refresh) fun _ => hactivate

/-- The script of the companies: a call of a request names no other company than its own. -/
def companyScript (lib : Crates) (svc : IntegrationsOauthService) : Script (system lib svc) where
  must
    | .authorize _, _, op | .status _, _, op => scope? op = none
    | .complete companyId _, _, op | .disconnect companyId _, _, op => ForCompany companyId op
    | _, _, _ => True
  leave _ _ _ := True

theorem companyScript_holds (lib : Crates) (svc : IntegrationsOauthService) :
    (companyScript lib svc).Holds := by
  intro c
  cases c <;> simp only [system, prog]
  case authorize req =>
    refine (((authorize_meets req).and_asks authorize_rows).ofPast fun h op hop => ?_).mono
      fun _ _ _ => trivial
    obtain ⟨hmust, hrow⟩ := hop
    cases op <;> first | exact hmust.elim | exact hrow.elim | rfl
  case complete companyId req =>
    have hasks : (svc.complete lib companyId req).run.Asks (ForCompany companyId) :=
      asks_run_bind (gauntlet_checks.mono fun _ => forCompany_of_checking)
        fun g => storing_forCompany companyId g
    refine (hasks.meets (I := fun _ => True) trivial ?_ fun _ _ _ _ _ _ _ => trivial).mono
      fun _ _ _ => trivial
    exact fun _ _ _ hop => hop
  case disconnect companyId accountId =>
    refine ((disconnect_meets companyId accountId).ofPast fun h op hop => ?_).mono fun _ _ _ => trivial
    intro scope hscope
    cases op <;> first | exact hop.elim | cases hscope
    obtain ⟨account, rfl, -⟩ := hop
    rfl
  case status accountId => exact status_meets accountId fun _ => rfl
  all_goals exact Meets.trivial fun _ _ => trivial

/-- What a request asks of the credential store names the company of its principal. -/
theorem admitted_company {r : Request} {c : Call} (hadmits : Admits fromSlice r c) {h : Past} {op : Op}
    (hmust : (companyScript lib svc).must c h op) {scope : CredentialScope}
    (hscope : scope? op = some scope) :
    c.company? = some scope.companyId := by
  rcases hadmits with _ | _ | _ | _
  · rw [hmust] at hscope
    cases hscope
  · exact congrArg some (hmust scope hscope).symm
  · exact congrArg some (hmust scope hscope).symm
  · rw [hmust] at hscope
    cases hscope

/-! ### What the store holds for a company -/

theorem Hub.Change.credentials_iff {t : Tid} {w w' : Hub} {op : Op} {ans : Ans op}
    (h : Hub.Change t w op ans w') {companyId : Uuid}
    (hop : ∀ scope, scope? op = some scope → scope.companyId ≠ companyId) {c : Credential}
    (hc : c.scope.companyId = companyId) : c ∈ w'.credentials ↔ c ∈ w.credentials := by
  have hstore : ∀ {w : Hub} {scope : CredentialScope} {purpose bundle expiresAt},
      scope.companyId ≠ companyId →
        (c ∈ (w.store scope purpose bundle expiresAt).credentials ↔ c ∈ w.credentials) := by
    intro w scope purpose bundle expiresAt hne
    refine ⟨fun hm => ?_, List.mem_cons_of_mem _⟩
    rcases List.mem_cons.mp hm with rfl | hm
    · exact absurd hc hne
    · exact hm
  have hwithdraw : ∀ {scope : CredentialScope}, scope.companyId ≠ companyId →
      (c ∈ (w.withdraw scope).credentials ↔ c ∈ w.credentials) := by
    intro scope hne
    have hkept : ∀ d : Credential, d.scope.companyId = companyId → ¬ d.IsCurrent scope := by
      intro d hd hcur
      exact hne (hcur.1 ▸ hd)
    simp only [Hub.withdraw, List.mem_map]
    constructor
    · rintro ⟨d, hd, heq⟩
      by_cases hcur : d.IsCurrent scope
      · rw [if_pos hcur] at heq
        subst heq
        exact absurd hcur (hkept d hc)
      · rw [if_neg hcur] at heq
        exact heq ▸ hd
    · exact fun hm => ⟨c, hm, if_neg (hkept c hc)⟩
  rcases h with _ | _ | _ | _ | _ | _ | _ | _ | _ | _ | _ | _ | _ | _ | _
  -- Only the three verbs of the store change a credential, and each one in its own scope.
  case commit => rw [Hub.commit_credentials]
  case issue => exact hstore (hop _ rfl)
  case rotate => exact (hstore (hop _ rfl)).trans (hwithdraw (hop _ rfl))
  case revoke => exact hwithdraw (hop _ rfl)
  all_goals rfl

/-- What the store holds for a company is out of reach of every request that is not made for it: as long as
nobody with that company is admitted to a `complete` or a `disconnect`, its credentials stay as they are and no
store call names the company. -/
theorem store_fenced {w₀ : Hub} (hidle : w₀.txs = .empty)
    (hr : Reach (createOauthRoutes lib svc fromSlice) (· = w₀) (Allowed A) cfg) {companyId : Uuid}
    (hnone : ∀ t r c, cfg.call? t = some r → Admits fromSlice r c → c.company? ≠ some companyId) :
    (∀ t op ans scope, cfg.Did t op ans → scope? op = some scope → scope.companyId ≠ companyId) ∧
      ∀ c : Credential, c.scope.companyId = companyId →
        (c ∈ Hub.credentials cfg.world ↔ c ∈ w₀.credentials) := by
  have hX := companyScript_holds lib svc
  -- A store call is of an admitted request, and it names the company of the principal.
  have hnamed : ∀ {cfg : Config (createOauthRoutes lib svc fromSlice)},
      Reach (createOauthRoutes lib svc fromSlice) (· = w₀) (Allowed A) cfg →
      (∀ t r c, cfg.call? t = some r → Admits fromSlice r c → c.company? ≠ some companyId) →
      ∀ t op ans scope, cfg.Did t op ans → scope? op = some scope → scope.companyId ≠ companyId := by
    intro cfg hr hnone t op ans scope hd hscope
    obtain ⟨r, hc⟩ := (routeScript_holds lib svc fromSlice).call_of_did hr hd
    obtain ⟨cfg₀, hr₀, hm⟩ := mirrored (fun w hw => by rw [hw, hidle]) hr
    rcases passed_or_withheld hr hm hc with ⟨c, hpassed⟩ | hwithheld
    · have hd₀ : cfg₀.Did t op ans := mem_events.mp (hpassed.events ▸ mem_events.mpr hd)
      obtain ⟨pre, -, hmust⟩ := hX.past hr₀ hpassed.called hd₀
      rintro rfl
      exact hnone t r c hc hpassed.admitted (admitted_company hpassed.admitted hmust hscope)
    · rcases hwithheld.events with ⟨q, -, hclock⟩ | ⟨hnothing, -⟩
      · rw [hclock op ans hd] at hscope
        cases hscope
      · have hmem := mem_events.mpr hd
        rw [hnothing] at hmem
        cases hmem
  refine ⟨hnamed hr hnone, ?_⟩
  induction hr with
  | init h =>
    subst h
    exact fun c _ => Iff.rfl
  | @step cfg l cfg' h hok hs ih =>
    have hbefore : ∀ t r c, cfg.call? t = some r → Admits fromSlice r c → c.company? ≠ some companyId :=
      fun t r c hc => hnone t r c (hs.keeps_call hc)
    intro c hc
    refine Iff.trans ?_ (ih hbefore c hc)
    cases hs with
    | start ht | finish ht | crash ht => rfl
    | @op t r op ans k w ht hw =>
      have hd : (cfg.put w t (.running r (k ans)) (.op t op ans)).Did t op ans := List.mem_cons_self
      refine (Hub.next_change hw).credentials_iff (fun scope hscope => ?_) hc
      exact hnamed (.step h hok (.op ht hw)) hnone t op ans scope hd hscope
    | @env e w hw =>
      cases e with
      | tick clock =>
        simp only [createOauthRoutes, front, system, Hub.env, Option.ite_none_right_eq_some,
          Option.some.injEq] at hw
        rw [← hw.2]
      | kill token =>
        cases hw
        rfl

theorem store_fenced_mailbox : ∃ cfg : Config mailRoutes,
    cfg.Did 0 (.issue mailScope purposeOauthToken mailBundle 3600000000) (.ok (77 : Nat)) ∧
      (∀ t op ans scope, cfg.Did t op ans → scope? op = some scope → scope.companyId ≠ 8) ∧
      ∀ c : Credential, c.scope.companyId = 8 →
        (c ∈ Hub.credentials cfg.world ↔ c ∈ mailHub.credentials) := by
  obtain ⟨cfg, hr, hh, -⟩ := routesRun_reach
  refine ⟨cfg, by simp [Config.Did, hh, routesRun], store_fenced rfl hr ?_⟩
  intro t r c hc hadmits
  have hm := hr.start_of_call hc
  rw [hh, List.mem_reverse] at hm
  have hprincipal : ∀ p, (∃ contentType body, r = .complete (some p) contentType body) ∨
      (∃ id, r = .disconnect (some p) id) → p.companyId = 9 := by
    intro p hp
    simp only [routesRun, List.mem_cons, List.not_mem_nil, or_false, reduceCtorEq, Label.start.injEq,
      false_or] at hm
    rcases hm with ⟨-, rfl⟩ | ⟨-, rfl⟩ | ⟨-, rfl⟩ | ⟨-, rfl⟩ | ⟨-, rfl⟩ <;>
      rcases hp with ⟨contentType, body, hp⟩ | ⟨id, hp⟩ <;> cases hp <;> rfl
  rcases hadmits with _ | _ | _ | _
  · simp [Call.company?]
  · simp [Call.company?, hprincipal _ (.inl ⟨_, _, rfl⟩)]
  · simp [Call.company?, hprincipal _ (.inr ⟨_, rfl⟩)]
  · simp [Call.company?]

end BackboneIntegrations.OAuth
