import BackboneIntegrations.OAuth.Build
import BackboneIntegrations.OAuth.Gauntlet
import BackboneIntegrations.OAuth.Resolution
import BackboneIntegrations.Interleave.Solo

/-!
# The reqwest transport

`exchange` and `fetch_identity` over an HTTP client. The guard asks the resolver before the call,
and the client asks it again when it sends.
-/

open Interleave

namespace BackboneIntegrations.OAuth

/-! ## The network -/

inductive Method where
  | get | post
  deriving DecidableEq, Repr

structure HttpRequest where
  method : Method
  url : Url
  form : Option TokenRequestForm := none
  bearer : Option String := none
  deriving DecidableEq

/-- A status, and what reading the body gives. -/
structure HttpResponse where
  status : Nat
  body : Except String Bytes

/-- One answer of the resolver. -/
abbrev Lookup := Except String (List IpAddr)

inductive NetOp where
  /-- `tokio::net::lookup_host`. -/
  | lookupHost (host : String) (port : Nat)
  /-- The lookup that a client does for itself. -/
  | resolve (host : String)
  | connect (ip : IpAddr)
  /-- A request over the connection to `ip`. -/
  | request (ip : IpAddr) (r : HttpRequest)
  deriving DecidableEq

def NetOp.Ans : NetOp → Type
  | .lookupHost .. | .resolve _ => Lookup
  | .connect _ => Except String Unit
  | .request .. => Except String HttpResponse

abbrev Net : Signature := ⟨NetOp, NetOp.Ans⟩

/-- What one call has asked of the network, newest first. -/
abbrev Traffic := List (Event Net)

def lookup? : (op : NetOp) → NetOp.Ans op → Option Lookup
  | .lookupHost .., answer | .resolve _, answer => some answer
  | _, _ => none

def lookups (h : Traffic) : List Lookup := h.filterMap fun ev => lookup? ev.op ev.ans

def opened? : (op : NetOp) → NetOp.Ans op → Option IpAddr
  | .connect ip, .ok _ => some ip
  | _, _ => none

/-- The addresses that took a connection. -/
def opened (h : Traffic) : List IpAddr := h.filterMap fun ev => opened? ev.op ev.ans

def tried? : NetOp → Option IpAddr
  | .connect ip => some ip
  | _ => none

/-- The addresses that a connection was tried to, whether they took it or not. -/
def tried (h : Traffic) : List IpAddr := h.filterMap fun ev => tried? ev.op

def checked? : (op : NetOp) → NetOp.Ans op → List IpAddr
  | .lookupHost host _, answer => (assertPublicResolution host answer).toOption.getD []
  | _, _ => []

/-- The addresses that `assert_public_resolution` returned. -/
def checked (h : Traffic) : List IpAddr := h.flatMap fun ev => checked? ev.op ev.ans

/-- The resolver answers one lookup after the other by `answers`. The rest of the network is free. -/
def Resolves (answers : ℕ → Lookup) (h : Traffic) : (op : NetOp) → NetOp.Ans op → Prop
  | .lookupHost .., answer | .resolve _, answer => answer = answers (lookups h).length
  | _, _ => True

/-! ## The client -/

/-- A `reqwest::Client`: what it does to send one request. -/
structure Client where
  send : HttpRequest → Prog Net (Except String HttpResponse)

/-- What is set on a `reqwest::ClientBuilder`. The durations are in seconds. -/
structure ClientBuilder where
  followRedirects : Bool := true
  connectTimeout : Option Nat := none
  timeout : Option Nat := none
  userAgent : Option String := none
  /-- Addresses for a host, instead of a lookup. -/
  pinned : Option (String → List IpAddr) := none

/-- A client looks up one host and connects to nothing but what that lookup gave. -/
def ownLookup (host : String) : Contract Net (Option Lookup) where
  must s
    | .lookupHost .. => False
    | .resolve h => s = none ∧ h = host
    | .connect ip | .request ip _ => ∃ resolved, s = some (.ok resolved) ∧ ip ∈ resolved
  may s op answer s' := s' = (lookup? op answer).or s

/-- A network on which only `ip` takes a connection. -/
def onlyTakes (answers : ℕ → Lookup) (ip : IpAddr) : (op : NetOp) → Traffic → Option (NetOp.Ans op)
  | .lookupHost .., h | .resolve _, h => some (answers (lookups h).length)
  | .connect a, _ => some (if a = ip then .ok () else .error "connection refused")
  | .request .., _ => none

def recorded (reply : (op : NetOp) → Traffic → Option (NetOp.Ans op)) (op : NetOp) (h : Traffic) :
    Option (NetOp.Ans op × Traffic) :=
  (reply op h).map fun answer => (answer, ⟨op, answer⟩ :: h)

theorem recorded_some {reply : (op : NetOp) → Traffic → Option (NetOp.Ans op)} {op : NetOp} {h : Traffic}
    {answer : NetOp.Ans op} (ha : reply op h = some answer) :
    recorded reply op h = some (answer, ⟨op, answer⟩ :: h) := by
  rw [recorded, ha]
  rfl

/-- What is documented of a client without a pinned resolver: it looks the host up itself, connects to
an address of that answer, and goes through them until one takes the connection. -/
structure Client.Unpinned (c : Client) : Prop where
  own : ∀ r host, r.url.host = some host → Meets (ownLookup host) (c.send r) none fun _ _ => True
  tries : ∀ r host answers resolved ip, r.url.host = some host → answers 0 = .ok resolved →
    ip ∈ resolved → ip ∈ opened ((c.send r).play (recorded (onlyTakes answers ip)) [])

/-! ## The transport -/

/-- What `serde` and `reqwest` make of a response. -/
structure Http where
  tokenFromSlice : Bytes → Except String TokenResponse
  identityFromSlice : Bytes → Except String IdentityClaims
  text : Bytes → String
  /-- A `StatusCode` as text. -/
  statusText : Nat → String

def HttpResponse.isSuccess (r : HttpResponse) : Bool := 200 ≤ r.status && r.status < 300

/-- `response.text().await.unwrap_or_default()`. -/
def HttpResponse.text (http : Http) (r : HttpResponse) : String := (r.body.toOption.map http.text).getD ""

/-- The first 200 characters. -/
def excerpt (body : String) : String := String.ofList (body.toList.take 200)

/-- The field `error` of a JSON body, where it is a text. -/
def errorCode (lib : Crates) (body : String) : Option String := do
  let v ← lib.jsonFromSlice body.toUTF8.data.toList
  (← v.get "error").asStr

/-- What `exchange` makes of a response. -/
def tokenOf (lib : Crates) (http : Http) (r : HttpResponse) : Except TransportFailure TokenResponse :=
  if r.isSuccess then
    match r.body.bind http.tokenFromSlice with
    | .error e => .error ⟨.provider, s!"token response was not valid provider JSON: {e}"⟩
    | .ok token =>
      if Text.isBlank token.accessToken then
        .error ⟨.provider, "token response carries no access_token"⟩
      else .ok token
  else
    let body := r.text http
    let code := errorCode lib body
    -- A dead refresh token. Everything else is a plain provider error.
    if r.status = 400 ∧ code = some "invalid_grant" then
      .error ⟨.invalidGrant, "provider rejected the grant: invalid_grant"⟩
    else .error ⟨.provider, s!"provider answered {http.statusText r.status}: {code.getD (excerpt body)}"⟩

/-- What `fetch_identity` makes of a response. -/
def identityOf (http : Http) (r : HttpResponse) : Except TransportFailure IdentityClaims :=
  if r.isSuccess then
    (r.body.bind http.identityFromSlice).mapError fun e =>
      ⟨.provider, s!"identity response was not valid provider JSON: {e}"⟩
  else .error ⟨.provider, s!"provider answered {http.statusText r.status}: {excerpt (r.text http)}"⟩

theorem tokenOf_kind {lib : Crates} {http : Http} {r : HttpResponse} {f : TransportFailure}
    (h : tokenOf lib http r = .error f) : f.kind ≠ .endpointGuard := by
  unfold tokenOf at h
  split at h
  · split at h
    · cases h
      nofun
    · split at h
      · cases h
        nofun
      · contradiction
  · simp only at h
    split at h
    all_goals
      cases h
      nofun

theorem identityOf_kind {http : Http} {r : HttpResponse} {f : TransportFailure}
    (h : identityOf http r = .error f) : f.kind ≠ .endpointGuard := by
  unfold identityOf at h
  split at h
  · cases hbody : r.body.bind http.identityFromSlice with
    | error e =>
      rw [hbody] at h
      cases h
      nofun
    | ok claims =>
      rw [hbody] at h
      contradiction
  · cases h
    nofun

def ValidatedEndpoint.host (e : ValidatedEndpoint) : String := e.url.host.getD ""

def oauthConnectTimeout := 10
def oauthRequestTimeout := 30

structure ReqwestOAuthTransport where
  client : Client
  registry : ProviderRegistry

namespace ReqwestOAuthTransport

/-- The settings of the production client. Nothing pins the resolver. -/
def builder : ClientBuilder where
  followRedirects := false
  connectTimeout := some oauthConnectTimeout
  timeout := some oauthRequestTimeout
  userAgent := some "backbone-integrations-oauth/1"

def withRegistry (build : ClientBuilder → Except String Client) (registry : ProviderRegistry) :
    Except TransportFailure ReqwestOAuthTransport :=
  match build builder with
  | .error e => .error ⟨.network, e⟩
  | .ok client => .ok ⟨client, registry⟩

def new (build : ClientBuilder → Except String Client) :
    Except TransportFailure ReqwestOAuthTransport := withRegistry build .withBuiltin

theorem withRegistry_unpinned {build : ClientBuilder → Except String Client}
    (hbuild : ∀ b c, b.pinned = none → build b = .ok c → c.Unpinned) {registry : ProviderRegistry}
    {t : ReqwestOAuthTransport} (h : withRegistry build registry = .ok t) : t.client.Unpinned := by
  unfold withRegistry at h
  split at h
  · contradiction
  · rename_i client hclient
    obtain rfl := Except.ok.inj h
    exact hbuild _ _ rfl hclient

/-- The endpoint rules once more, then the resolution. The resolved addresses are dropped. -/
def guard (t : ReqwestOAuthTransport) (lib : Crates) (endpoint : ValidatedEndpoint) :
    ExceptT TransportFailure (Prog Net) Unit := do
  Prog.ofExcept ((endpoint.revalidate lib.toUrlCrate t.registry).mapError fun e =>
    ⟨.endpointGuard, s!"request-time revalidation refused {e.display}"⟩)
  let answer ← (Prog.ask (S := Net) (.lookupHost endpoint.host 443)).answer
  let _ ← Prog.ofExcept (assertPublicResolution endpoint.host answer)

/-- One guarded request, with `read` for its response. -/
def call {α : Type} (t : ReqwestOAuthTransport) (lib : Crates) (endpoint : ValidatedEndpoint)
    (r : HttpRequest) (read : HttpResponse → Except TransportFailure α) :
    ExceptT TransportFailure (Prog Net) α := do
  t.guard lib endpoint
  let response ← (t.client.send r).orFail (⟨.network, ·⟩)
  Prog.ofExcept (read response)

def exchange (t : ReqwestOAuthTransport) (lib : Crates) (http : Http) (endpoint : ValidatedEndpoint)
    (form : TokenRequestForm) : ExceptT TransportFailure (Prog Net) TokenResponse :=
  t.call lib endpoint { method := .post, url := endpoint.url, form } (tokenOf lib http)

def fetchIdentity (t : ReqwestOAuthTransport) (lib : Crates) (http : Http)
    (endpoint : ValidatedEndpoint) (accessToken : String) :
    ExceptT TransportFailure (Prog Net) IdentityClaims :=
  t.call lib endpoint { method := .get, url := endpoint.url, bearer := accessToken } (identityOf http)

end ReqwestOAuthTransport

inductive TransportCall where
  | exchange (endpoint : ValidatedEndpoint) (form : TokenRequestForm)
  | fetchIdentity (endpoint : ValidatedEndpoint) (accessToken : String)

namespace TransportCall

def endpoint : TransportCall → ValidatedEndpoint
  | .exchange endpoint _ | .fetchIdentity endpoint _ => endpoint

def Res : TransportCall → Type
  | .exchange .. => TokenResponse
  | .fetchIdentity .. => IdentityClaims

def prog (t : ReqwestOAuthTransport) (lib : Crates) (http : Http) :
    (c : TransportCall) → Prog Net (Except TransportFailure c.Res)
  | .exchange endpoint form => (t.exchange lib http endpoint form).run
  | .fetchIdentity endpoint accessToken => (t.fetchIdentity lib http endpoint accessToken).run

theorem prog_eq (t : ReqwestOAuthTransport) (lib : Crates) (http : Http) (c : TransportCall) :
    ∃ r read, r.url = c.endpoint.url ∧
      (∀ {response f}, read response = .error f → f.kind ≠ .endpointGuard) ∧
      c.prog t lib http = (t.call lib c.endpoint r read).run := by
  cases c with
  | exchange endpoint form => exact ⟨_, _, rfl, tokenOf_kind, rfl⟩
  | fetchIdentity endpoint accessToken => exact ⟨_, _, rfl, identityOf_kind, rfl⟩

end TransportCall

/-! ## Runs -/

def record (op : NetOp) (answer : NetOp.Ans op) (h : Traffic) : Option Traffic :=
  some (⟨op, answer⟩ :: h)

/-- The program can have got this far, with this traffic. -/
abbrev Proceeds (answers : ℕ → Lookup) {α : Type} (p p' : Prog Net α) (h h' : Traffic) : Prop :=
  Goes record (fun _ _ => False) (Resolves answers) p h p' h'

section

variable {h : Traffic} {ip : IpAddr}

theorem mem_tried_cons {ev : Event Net} :
    ip ∈ tried (ev :: h) ↔ tried? ev.op = some ip ∨ ip ∈ tried h := by
  unfold tried
  cases ho : tried? ev.op with
  | none => simp [ho]
  | some ip' => simp [ho, eq_comm]

theorem tried_of_opened (ho : ip ∈ opened h) : ip ∈ tried h := by
  obtain ⟨⟨op, answer⟩, hev, hip⟩ := List.mem_filterMap.1 ho
  refine List.mem_filterMap.2 ⟨_, hev, ?_⟩
  cases op with
  | connect a =>
    cases answer with
    | error e => cases hip
    | ok u => exact hip
  | lookupHost | resolve | request => cases hip

end

/-! ## What stands behind a connection -/

/-- The endpoint passed its rules, the guard took the first answer, and the connection is to an
address of the second. -/
structure Backed (t : ReqwestOAuthTransport) (lib : Crates) (endpoint : ValidatedEndpoint)
    (answers : ℕ → Lookup) (h : Traffic) (ip : IpAddr) : Prop where
  valid : endpoint.revalidate lib.toUrlCrate t.registry = .ok ()
  first : assertPublicResolution endpoint.host (answers 0) = .ok (checked h)
  second : ∃ resolved, answers 1 = .ok resolved ∧ ip ∈ resolved

theorem Backed.of_checked {t : ReqwestOAuthTransport} {lib : Crates} {endpoint : ValidatedEndpoint}
    {answers : ℕ → Lookup} {h h' : Traffic} {ip : IpAddr} (hb : Backed t lib endpoint answers h ip)
    (hh : checked h' = checked h) : Backed t lib endpoint answers h' ip :=
  ⟨hb.valid, hh ▸ hb.first, hb.second⟩

/-- One call: the guard looks up once and before anything else, and `backed` holds of what the call
connects to. -/
def guarded (answers : ℕ → Lookup) (backed : Traffic → IpAddr → Prop) : Contract Net Traffic where
  must h
    | .lookupHost .. => h = []
    | .connect ip => backed h ip
    | .resolve _ | .request .. => True
  may h op answer h' := Resolves answers h op answer ∧ record op answer h = some h'

section

variable {t : ReqwestOAuthTransport} {lib : Crates} {http : Http} {endpoint : ValidatedEndpoint}
  {answers : ℕ → Lookup}

theorem send_guarded (ht : t.client.Unpinned) {r : HttpRequest} {host : String}
    (hhost : r.url.host = some host) {backed : Traffic → IpAddr → Prop} {h : Traffic}
    (hone : (lookups h).length = 1)
    (hbacked : ∀ h' ip resolved, checked h' = checked h → answers 1 = .ok resolved → ip ∈ resolved →
      backed h' ip) :
    Meets (guarded answers backed) (t.client.send r) h fun _ _ => True := by
  refine (Meets.sim (R := fun s h' => checked h' = checked h ∧
    (s = none → (lookups h').length = 1) ∧ ∀ l, s = some l → l = answers 1) ?_ ?_
    (ht.own r host hhost) ⟨rfl, fun _ => hone, nofun⟩).mono fun _ _ _ => trivial
  · rintro s h' (⟨⟩ | ⟨host'⟩ | ⟨ip⟩ | ⟨⟩) ⟨hchecked, -, hsome⟩ hmust
    · exact hmust.elim
    · trivial
    · obtain ⟨resolved, rfl, hip⟩ := hmust
      exact hbacked h' ip resolved hchecked (hsome _ rfl).symm hip
    · trivial
  · rintro s h' op answer h'' ⟨hchecked, hnone, hsome⟩ hmust ⟨hanswer, hrecord⟩
    cases hrecord
    refine ⟨_, rfl, ?_⟩
    cases op with
    | lookupHost => exact hmust.elim
    | resolve host' =>
      obtain ⟨rfl, -⟩ := hmust
      refine ⟨hchecked, nofun, ?_⟩
      rintro l ⟨⟩
      rw [hanswer, hnone rfl]
    | connect | request => exact ⟨hchecked, hnone, hsome⟩

theorem ValidatedEndpoint.url_host (e : ValidatedEndpoint) : e.url.host = some e.host := by
  obtain ⟨allowlist, hrules⟩ := e.accepted
  obtain ⟨host, hhost, -⟩ := Url.within_of_violation hrules
  rw [ValidatedEndpoint.host, hhost]
  rfl

theorem guard_guarded {backed : Traffic → IpAddr → Prop} :
    Meets (guarded answers backed) (t.guard lib endpoint).run [] fun r h => r = .ok () →
      endpoint.revalidate lib.toUrlCrate t.registry = .ok () ∧ (lookups h).length = 1 ∧
        assertPublicResolution endpoint.host (answers 0) = .ok (checked h) := by
  unfold ReqwestOAuthTransport.guard
  rw [meets_run_bind, meets_run_ofExcept]
  cases hvalid : endpoint.revalidate lib.toUrlCrate t.registry with
  | error e => exact nofun
  | ok u =>
    simp only [Except.mapError]
    rw [meets_run_bind, meets_run_answer, meets_ask]
    refine ⟨rfl, ?_⟩
    rintro answer h ⟨rfl, ⟨⟩⟩
    dsimp only
    rw [meets_run_bind, meets_run_ofExcept]
    cases hfirst : assertPublicResolution endpoint.host (answers (lookups []).length) with
    | error e => exact nofun
    | ok resolved =>
      intro _
      refine ⟨trivial, rfl, hfirst.trans ?_⟩
      simp [checked, checked?, hfirst, Except.toOption]

theorem call_guarded {α : Type} (ht : t.client.Unpinned) {r : HttpRequest}
    (hr : r.url = endpoint.url) {read : HttpResponse → Except TransportFailure α} :
    Meets (guarded answers (Backed t lib endpoint answers)) (t.call lib endpoint r read).run []
      fun _ _ => True := by
  unfold ReqwestOAuthTransport.call
  rw [meets_run_bind]
  refine guard_guarded.mono ?_
  rintro (e | u) h hpassed
  · trivial
  · obtain ⟨hvalid, hone, hfirst⟩ := hpassed rfl
    have hhost : r.url.host = some endpoint.host := by rw [hr, endpoint.url_host]
    dsimp only
    rw [meets_run_bind, meets_run_orFail]
    refine (send_guarded ht hhost hone ?_).mono ?_
    · intro h' ip second hchecked hsecond hip
      exact ⟨hvalid, hchecked ▸ hfirst, second, hsecond, hip⟩
    · rintro (e | response) h' - <;> trivial

/-- In every run of a call, what it connects to is backed. -/
theorem tried_backed (ht : t.client.Unpinned) {c : TransportCall}
    {p : Prog Net (Except TransportFailure c.Res)} {h : Traffic}
    (hruns : Proceeds answers (c.prog t lib http) p [] h) :
    ∀ ip ∈ tried h, Backed t lib c.endpoint answers h ip := by
  obtain ⟨r, read, hr, -, hprog⟩ := c.prog_eq t lib http
  rw [hprog] at hruns
  have hkeeps : ∀ {h op answer h'}, (∀ ip ∈ tried h, Backed t lib c.endpoint answers h ip) →
      (guarded answers (Backed t lib c.endpoint answers)).must h op → Resolves answers h op answer →
      record op answer h = some h' → ∀ ip ∈ tried h', Backed t lib c.endpoint answers h' ip := by
    rintro h op answer h' hbacked hmust - ⟨⟩ ip hip
    rw [mem_tried_cons] at hip
    cases op with
    | lookupHost =>
      obtain rfl : h = [] := hmust
      exact hip.elim nofun nofun
    | resolve | request => exact (hbacked ip (hip.resolve_left nofun)).of_checked rfl
    | connect a =>
      rcases hip with hnow | hip
      · obtain rfl := Option.some.inj hnow
        exact Backed.of_checked hmust rfl
      · exact (hbacked ip hip).of_checked rfl
  have hcall : Meets (guarded answers (Backed t lib c.endpoint answers))
      (t.call lib c.endpoint r read).run [] fun _ _ => True := call_guarded ht hr
  exact (hruns.keeps_must (fun hok hnext => And.intro hok hnext) hkeeps hcall nofun).2

/-- Nothing was asked but lookups of the guard. -/
def Silent (h : Traffic) : Prop := ∀ ev ∈ h, ∃ host port, ev.op = .lookupHost host port

theorem guard_silent :
    Meets (.ofPast fun _ _ => True) (t.guard lib endpoint).run [] fun _ h => Silent h := by
  unfold ReqwestOAuthTransport.guard
  rw [meets_run_bind, meets_run_ofExcept]
  cases endpoint.revalidate lib.toUrlCrate t.registry with
  | error e =>
    intro ev hev
    contradiction
  | ok u =>
    simp only [Except.mapError]
    rw [meets_run_bind, meets_run_answer, meets_ask]
    refine ⟨trivial, ?_⟩
    rintro answer h ⟨⟩
    have hsilent : Silent [⟨.lookupHost endpoint.host 443, answer⟩] := by
      intro ev hev
      rw [List.mem_singleton.1 hev]
      exact ⟨_, _, rfl⟩
    dsimp only
    rw [meets_run_bind, meets_run_ofExcept]
    cases assertPublicResolution endpoint.host answer <;> exact hsilent

theorem endpointGuard_silent {c : TransportCall} {f : TransportFailure} {h : Traffic}
    (hruns : Proceeds answers (c.prog t lib http) (.ret (.error f)) [] h) (hf : f.kind = .endpointGuard) :
    Silent h := by
  obtain ⟨r, read, -, hkind, hprog⟩ := c.prog_eq t lib http
  rw [hprog] at hruns
  have hcall : Meets (.ofPast fun _ _ => True) (t.call lib c.endpoint r read).run []
      fun r h => ∀ f, r = .error f → f.kind = .endpointGuard → Silent h := by
    unfold ReqwestOAuthTransport.call
    rw [meets_run_bind]
    refine guard_silent.mono ?_
    rintro (e | u) h hsilent
    · intro f _ _
      exact hsilent
    · dsimp only
      rw [meets_run_bind, meets_run_orFail]
      refine (Meets.trivial fun _ _ => trivial).mono ?_
      rintro (e | response) h' -
      · rintro f ⟨⟩ ⟨⟩
      · intro f hread hendpoint
        exact absurd hendpoint (hkind hread)
  have hkeeps : ∀ {h : Traffic} {op answer h'}, Resolves answers h op answer →
      record op answer h = some h' → (Contract.ofPast fun _ _ => True).may h op answer h' :=
    fun _ hnext => (Option.some.inj hnext).symm
  have hend := (hruns.keeps_must (P := fun _ => True) hkeeps (fun _ _ _ _ => trivial) hcall trivial).1
  exact hend f rfl hf

theorem guard_of_valid (hvalid : endpoint.revalidate lib.toUrlCrate t.registry = .ok ()) :
    (t.guard lib endpoint).run = .call (.lookupHost endpoint.host 443) fun answer =>
      .ret ((assertPublicResolution endpoint.host answer).map fun _ => ()) := by
  unfold ReqwestOAuthTransport.guard
  rw [hvalid]
  refine congrArg (Prog.call _) (funext fun answer => ?_)
  change (Prog.ofExcept (assertPublicResolution endpoint.host answer) >>= fun _ => pure () :
    ExceptT TransportFailure (Prog Net) Unit).run = _
  cases assertPublicResolution endpoint.host answer <;> rfl

theorem recorded_onlyTakes {ip : IpAddr} {op : NetOp} {h h' : Traffic} {answer : NetOp.Ans op}
    (ho : recorded (onlyTakes answers ip) op h = some (answer, h')) :
    Resolves answers h op answer ∧ record op answer h = some h' := by
  obtain ⟨a, ha, heq⟩ := Option.map_eq_some_iff.1 ho
  cases heq
  refine ⟨?_, rfl⟩
  cases op with
  | lookupHost | resolve => exact (Option.some.inj ha).symm
  | connect | request => trivial

theorem proceeds_behind {α : Type} {p p' : Prog Net α} {h h' : Traffic} (ev : Event Net) {l : Lookup}
    (hl : lookup? ev.op ev.ans = some l) (hruns : Proceeds (fun n => answers (n + 1)) p p' h h') :
    Proceeds answers p p' (h ++ [ev]) (h' ++ [ev]) := by
  refine Goes.map (g := (· ++ [ev])) ?_ ?_ (fun hno => hno.elim) hruns
  · intro h op answer hanswer
    have hlen : (lookups (h ++ [ev])).length = (lookups h).length + 1 := by
      simp [lookups, hl]
    cases op with
    | lookupHost | resolve => exact hanswer.trans (congrArg answers hlen.symm)
    | connect | request => trivial
  · rintro h op answer h' ⟨⟩
    rfl

theorem call_opens {α : Type} (ht : t.client.Unpinned) {r : HttpRequest} (hr : r.url = endpoint.url)
    (read : HttpResponse → Except TransportFailure α)
    (hvalid : endpoint.revalidate lib.toUrlCrate t.registry = .ok ()) {first resolved : List IpAddr}
    (hfirst : assertPublicResolution endpoint.host (answers 0) = .ok first)
    (hsecond : answers 1 = .ok resolved) {ip : IpAddr} (hip : ip ∈ resolved) :
    ∃ p h, Proceeds answers (t.call lib endpoint r read).run p [] h ∧ ip ∈ opened h := by
  have hhost : r.url.host = some endpoint.host := by rw [hr, endpoint.url_host]
  have hguard : Proceeds answers (t.guard lib endpoint).run (.ret (.ok ())) []
      [⟨.lookupHost endpoint.host 443, answers 0⟩] := by
    rw [guard_of_valid hvalid]
    have hlookup : Resolves answers [] (.lookupHost endpoint.host 443) (answers 0) := rfl
    refine .trans (.op .refl hlookup rfl) ?_
    rw [hfirst]
    exact .refl
  have htries := ht.tries r endpoint.host (fun n => answers (n + 1)) resolved ip hhost hsecond hip
  obtain ⟨p, hsend⟩ : ∃ p, Proceeds (fun n => answers (n + 1)) (t.client.send r) p []
      ((t.client.send r).play (recorded (onlyTakes (fun n => answers (n + 1)) ip)) []) :=
    goes_play recorded_onlyTakes _ _
  have hlate := proceeds_behind ⟨.lookupHost endpoint.host 443, answers 0⟩ rfl hsend
  refine ⟨_, _, (hguard.bind _).trans ((hlate.bind _).bind _), ?_⟩
  rw [opened, List.filterMap_append]
  exact List.mem_append_left _ htries

end

/-! ## Confinement -/

/-- In every run of the call, `targets` are addresses that were checked, and no forbidden ones. -/
def Confined (t : ReqwestOAuthTransport) (lib : Crates) (http : Http) (answers : ℕ → Lookup)
    (c : TransportCall) (targets : Traffic → List IpAddr) : Prop :=
  ∀ p h, Proceeds answers (c.prog t lib http) p [] h → ∀ ip ∈ targets h, ip ∈ checked h ∧ ¬ Forbidden ip

/-- The guard lets the call through: the endpoint passes its rules, and the first answer of the
resolver is not empty and has no forbidden address. -/
structure Passes (t : ReqwestOAuthTransport) (lib : Crates) (answers : ℕ → Lookup)
    (endpoint : ValidatedEndpoint) (first : List IpAddr) : Prop where
  valid : endpoint.revalidate lib.toUrlCrate t.registry = .ok ()
  answer : answers 0 = .ok first
  nonempty : first ≠ []
  pub : ∀ ip ∈ first, ¬ Forbidden ip

section

variable {t : ReqwestOAuthTransport} {lib : Crates} {http : Http} {answers : ℕ → Lookup}

theorem passes_iff {endpoint : ValidatedEndpoint} {first : List IpAddr} :
    Passes t lib answers endpoint first ↔ endpoint.revalidate lib.toUrlCrate t.registry = .ok () ∧
      assertPublicResolution endpoint.host (answers 0) = .ok first := by
  rw [assertPublicResolution_ok]
  simp only [ipIsPublic_iff]
  constructor
  · rintro ⟨hvalid, hanswer, hne, hpublic⟩
    exact ⟨hvalid, hanswer, hne, hpublic⟩
  · rintro ⟨hvalid, hanswer, hne, hpublic⟩
    exact ⟨hvalid, hanswer, hne, hpublic⟩

theorem runs_iff (ht : t.client.Unpinned) {c : TransportCall} {P : List IpAddr → IpAddr → Prop}
    {targets : Traffic → List IpAddr} (hopened : ∀ h, opened h ⊆ targets h)
    (htried : ∀ h, targets h ⊆ tried h) :
    (∀ p h, Proceeds answers (c.prog t lib http) p [] h → ∀ ip ∈ targets h, P (checked h) ip) ↔
      ∀ first second, Passes t lib answers c.endpoint first → answers 1 = .ok second →
        ∀ ip ∈ second, P first ip := by
  constructor
  · intro hruns first second hpasses hsecond ip hip
    obtain ⟨hvalid, hfirst⟩ := passes_iff.1 hpasses
    obtain ⟨r, read, hr, -, hprog⟩ := c.prog_eq t lib http
    obtain ⟨p, h, hrun, ho⟩ := call_opens ht hr read hvalid hfirst hsecond hip
    rw [← hprog] at hrun
    have hbacked := tried_backed ht hrun ip (tried_of_opened ho)
    obtain rfl : first = checked h := Except.ok.inj (hfirst.symm.trans hbacked.first)
    exact hruns p h hrun ip (hopened h ho)
  · intro hall p h hrun ip hip
    have hbacked := tried_backed ht hrun ip (htried h hip)
    obtain ⟨second, hsecond, hin⟩ := hbacked.second
    exact hall _ _ (passes_iff.2 ⟨hbacked.valid, hbacked.first⟩) hsecond ip hin

/-- A call stays with the addresses that were checked exactly when the lookup of the client finds no
address that the lookup of the guard did not. It makes no difference whether an address that takes no
connection counts. -/
theorem confined_iff (ht : t.client.Unpinned) (lib : Crates) (http : Http) (answers : ℕ → Lookup)
    (c : TransportCall) :
    (Confined t lib http answers c opened ↔
      ∀ first second, Passes t lib answers c.endpoint first → answers 1 = .ok second → second ⊆ first) ∧
    (Confined t lib http answers c tried ↔
      ∀ first second, Passes t lib answers c.endpoint first → answers 1 = .ok second → second ⊆ first) := by
  have hsecond : (∀ first second, Passes t lib answers c.endpoint first → answers 1 = .ok second →
      ∀ ip ∈ second, ip ∈ first ∧ ¬ Forbidden ip) ↔
      ∀ first second, Passes t lib answers c.endpoint first → answers 1 = .ok second →
        second ⊆ first := by
    constructor
    · intro hall first second hpasses hanswer ip hip
      exact (hall first second hpasses hanswer ip hip).1
    · intro hall first second hpasses hanswer ip hip
      have hin := hall first second hpasses hanswer hip
      exact ⟨hin, hpasses.pub ip hin⟩
  constructor
  · exact (runs_iff (P := fun first ip => ip ∈ first ∧ ¬ Forbidden ip) ht (fun _ => List.Subset.refl _)
      fun _ _ => tried_of_opened).trans hsecond
  · exact (runs_iff (P := fun first ip => ip ∈ first ∧ ¬ Forbidden ip) ht (fun _ _ => tried_of_opened)
      fun _ => List.Subset.refl _).trans hsecond

theorem never_forbidden_iff (ht : t.client.Unpinned) {c : TransportCall} :
    (∀ p h, Proceeds answers (c.prog t lib http) p [] h → ∀ ip ∈ opened h, ¬ Forbidden ip) ↔
      ∀ first second, Passes t lib answers c.endpoint first → answers 1 = .ok second →
        ∀ ip ∈ second, ¬ Forbidden ip :=
  runs_iff (P := fun _ ip => ¬ Forbidden ip) ht (fun _ => List.Subset.refl _) fun _ _ => tried_of_opened

end

/-! ## A client without a pinned resolver -/

/-- Goes through the addresses until one takes the connection. -/
def connectAny (r : HttpRequest) : List IpAddr → Prog Net (Except String HttpResponse)
  | [] => .ret (.error "tcp connect error")
  | ip :: rest => .call (.connect ip) fun
    | .ok _ => .call (.request ip r) .ret
    | .error _ => connectAny r rest

def plainClient : Client where
  send r := .call (.resolve (r.url.host.getD "")) fun
    | .error e => .ret (.error e)
    | .ok resolved => connectAny r resolved

theorem connectAny_own {r : HttpRequest} {host : String} {resolved ips : List IpAddr}
    (hips : ips ⊆ resolved) :
    Meets (ownLookup host) (connectAny r ips) (some (.ok resolved)) fun _ _ => True := by
  induction ips with
  | nil => trivial
  | cons ip rest ih =>
    obtain ⟨hip, hrest⟩ := List.cons_subset.1 hips
    refine ⟨⟨resolved, rfl, hip⟩, ?_⟩
    rintro (e | u) s rfl
    · exact ih hrest
    · exact ⟨⟨resolved, rfl, hip⟩, fun _ _ _ => trivial⟩

theorem connectAny_tries {r : HttpRequest} {answers : ℕ → Lookup} {ip : IpAddr} {ips : List IpAddr}
    (hip : ip ∈ ips) (h : Traffic) :
    ip ∈ opened ((connectAny r ips).play (recorded (onlyTakes answers ip)) h) := by
  induction ips generalizing h with
  | nil => contradiction
  | cons a rest ih =>
    by_cases ha : a = ip
    · have htaken : opened (⟨.connect a, .ok ()⟩ :: h) = ip :: opened h := by
        rw [ha]
        rfl
      rw [connectAny, Prog.play_call (recorded_some (congrArg some (if_pos ha)))]
      change ip ∈ opened (⟨.connect a, .ok ()⟩ :: h)
      rw [htaken]
      exact List.mem_cons_self
    · rw [connectAny, Prog.play_call (recorded_some (congrArg some (if_neg ha)))]
      exact ih ((List.mem_cons.1 hip).resolve_left fun h => ha h.symm) _

theorem plainClient_unpinned : plainClient.Unpinned where
  own r host hhost := by
    refine ⟨⟨rfl, by rw [hhost]; rfl⟩, ?_⟩
    rintro (e | resolved) s rfl
    · trivial
    · exact connectAny_own (List.Subset.refl _)
  tries r host answers resolved ip hhost hanswer hip := by
    rw [plainClient, Prog.play_call (recorded_some (congrArg some hanswer))]
    exact connectAny_tries hip _

/-! ## Rebinding -/

def publicDns : IpAddr := .v4 ⟨8, 8, 8, 8⟩
def loopback : IpAddr := .v4 ⟨127, 0, 0, 1⟩

/-- A public address for the guard, and loopback from then on. -/
def rebound : ℕ → Lookup
  | 0 => .ok [publicDns]
  | _ => .ok [loopback]

def mailTransport : ReqwestOAuthTransport := ⟨plainClient, .withBuiltin⟩

def mailHttp : Http where
  tokenFromSlice _ := .error "expected value at line 1 column 1"
  identityFromSlice _ := .error "expected value at line 1 column 1"
  text _ := ""
  statusText n := toString n

theorem gmailToken_passes (answers : ℕ → Lookup) (hanswer : answers 0 = .ok [publicDns]) :
    Passes mailTransport mailCrates answers gmailToken [publicDns] := by
  refine ⟨by decide +kernel, hanswer, nofun, ?_⟩
  intro ip hip
  rw [← ipIsPublic_iff]
  obtain rfl := List.mem_singleton.1 hip
  decide

theorem confined_iff_same_answer :
    Confined mailTransport mailCrates mailHttp (fun _ => .ok [publicDns])
      (.exchange gmailToken mailForm) opened := by
  refine (confined_iff plainClient_unpinned mailCrates mailHttp (fun _ => .ok [publicDns])
    (.exchange gmailToken mailForm)).1.2 ?_
  intro first second hpasses hsecond
  rw [Except.ok.inj (hsecond.symm.trans hpasses.answer)]
  exact List.Subset.refl _

/-! The guard sees a public address, and the exchange is connected to loopback. -/

theorem rebound_connects_to_loopback :
    ∃ p h, Proceeds rebound
      ((TransportCall.exchange gmailToken mailForm).prog mailTransport mailCrates mailHttp)
        p [] h ∧
      loopback ∈ opened h ∧ loopback ∉ checked h ∧ Forbidden loopback := by
  have hpasses := gmailToken_passes rebound rfl
  obtain ⟨hvalid, hfirst⟩ := passes_iff.1 hpasses
  obtain ⟨p, h, hruns, ho⟩ := call_opens plainClient_unpinned
    (r := { method := .post, url := gmailToken.url, form := mailForm }) rfl (tokenOf mailCrates mailHttp)
    hvalid hfirst rfl (List.mem_singleton_self loopback)
  have hbacked := tried_backed (c := .exchange gmailToken mailForm) plainClient_unpinned hruns loopback
    (tried_of_opened ho)
  have hchecked : checked h = [publicDns] := Except.ok.inj (hbacked.first.symm.trans hfirst)
  refine ⟨p, h, hruns, ho, ?_, ?_⟩
  · rw [hchecked]
    decide
  · rw [← not_not (a := Forbidden loopback), ← ipIsPublic_iff]
    decide

end BackboneIntegrations.OAuth
