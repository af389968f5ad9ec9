import Mathlib.Algebra.Group.Int.Defs
import BackboneIntegrations.OAuth.Binding
import BackboneIntegrations.OAuth.Outbound
import BackboneIntegrations.OAuth.Reconnect
import BackboneIntegrations.OAuth.StateToken

/-!
# Honest providers

What the provider has to answer so that a new authorization goes through. It is the email that counts: an
identity that only names the account by its subject is refused.
-/

open Interleave

namespace BackboneIntegrations.OAuth

open IntegrationsOauthService

variable {lib : Crates} {svc : IntegrationsOauthService} {w₀ : Hub}
  {ok : Config (system lib svc) → Label (system lib svc) → Prop} {cfg : Config (system lib svc)}

/-! ## The audience and the nonce -/

/-- The audience and the nonce of the provider's answers match: each of them is reported, with the client
of this deployment and the nonce of the state, and two reports of one of them agree. -/
structure TokenMatches (lib : Crates) (identity : IdentityClaims) (idToken : Option String)
    (clientId nonce : String) : Prop where
  audience : effective identity.audience ((idToken.bind (decodeIdTokenClaims lib)).bind (·.audience)) =
    some clientId
  nonce : effective identity.nonce ((idToken.bind (decodeIdTokenClaims lib)).bind (·.nonce)) = some nonce
  audiences : ∀ x y, identity.audience = some x →
    (idToken.bind (decodeIdTokenClaims lib)).bind (·.audience) = some y → Text.eqIgnoreAsciiCase x y
  nonces : ∀ x y, identity.nonce = some x →
    (idToken.bind (decodeIdTokenClaims lib)).bind (·.nonce) = some y → Text.eqIgnoreAsciiCase x y

theorem mergeClaim_of_agree {a b : Option String}
    (h : ∀ x y, a = some x → b = some y → Text.eqIgnoreAsciiCase x y) :
    mergeClaim a b = .ok (effective a b) := by
  cases a with
  | none => cases b <;> rfl
  | some x =>
    cases b with
    | none => rfl
    | some y =>
      exact if_pos (h x y rfl rfl)

theorem TokenMatches.verified {identity : IdentityClaims} {idToken : Option String}
    {clientId nonce : String} (h : TokenMatches lib identity idToken clientId nonce) :
    verifyAudienceAndNonce lib identity idToken clientId nonce = .ok () := by
  have haud := mergeClaim_of_agree h.audiences
  have hnonce := mergeClaim_of_agree h.nonces
  rw [h.audience] at haud
  rw [h.nonce] at hnonce
  simp only [verifyAudienceAndNonce, haud, hnonce, bind, Except.bind, ne_eq, not_true_eq_false, if_false]
  rfl

/-! ## The email -/

theorem normalizeAccountRef_some {raw accountRef : String} (h : normalizeAccountRef raw = some accountRef) :
    3 ≤ accountRef.utf8ByteSize ∧ ∀ c ∈ accountRef.toList, Text.isWhitespace c = false := by
  unfold normalizeAccountRef at h
  dsimp only at h
  split at h
  · cases h
  · rename_i hrules
    cases h
    simp only [not_or, not_lt, List.any_eq_true, not_exists, not_and, Bool.not_eq_true] at hrules
    exact ⟨hrules.1, hrules.2.2⟩

theorem emailMatches_of_eq {req : AuthorizeRequest} {a : Admitted} (ha : svc.admitRequest lib req = .ok a)
    {identity : IdentityClaims} {email : String} (hemail : identity.email = some email)
    (heq : Text.eqIgnoreAsciiCase email a.accountRef) (hv : identity.emailVerified ≠ some false)
    (bypass : Bool) : EmailMatches identity a.accountRef bypass := by
  obtain ⟨-, href, -, -⟩ := admitRequest_ok ha
  obtain ⟨hsize, hblank⟩ := normalizeAccountRef_some href
  have htrim := Text.trim_of_eqIgnoreAsciiCase heq hblank
  refine ⟨⟨email, hemail, ?_, .inl (by rw [htrim, heq])⟩, hv⟩
  rw [htrim]
  rintro rfl
  have hempty : a.accountRef.toList = [] := by simpa [Text.eqIgnoreAsciiCase] using heq
  rw [String.toList_eq_nil_iff] at hempty
  rw [hempty] at hsize
  exact absurd hsize (by decide)

/-- The answers of an honest provider to one authorization: a token with a lifetime, an id_token for this
client and with the nonce of the URL, and an identity with the account's email. -/
structure Honest (lib : Crates) (response : TokenResponse) (identity : IdentityClaims) (secs : Int)
    (clientId nonce accountRef : String) : Prop where
  lifetime : response.expiresIn = some secs ∧ 0 < secs
  idToken : response.idToken.bind (decodeIdTokenClaims lib) = some ⟨some clientId, some nonce⟩
  silent : identity.audience = none ∧ identity.nonce = none
  email : ∃ email, identity.email = some email ∧ Text.eqIgnoreAsciiCase email accountRef
  verified : identity.emailVerified ≠ some false

theorem lifetime_of_pos {response : TokenResponse} {secs : Int}
    (h : response.expiresIn = some secs ∧ 0 < secs) : response.lifetime = some secs := by
  rw [TokenResponse.lifetime, h.1]
  simp [Option.filter, h.2]

theorem Honest.matches {response : TokenResponse} {identity : IdentityClaims} {secs : Int}
    {clientId nonce accountRef : String}
    (h : Honest lib response identity secs clientId nonce accountRef) :
    TokenMatches lib identity response.idToken clientId nonce := by
  obtain ⟨haud, hnonce⟩ := h.silent
  constructor
  · rw [haud, h.idToken]
    rfl
  · rw [hnonce, h.idToken]
    rfl
  · rw [haud]
    nofun
  · rw [hnonce]
    nofun

/-! ## The theorems -/

/-- What a completion needs of the authorization before it, when the `authorize` is at rest. -/
structure Ready (lib : Crates) (svc : IntegrationsOauthService) (w₀ : Hub) (a : Admitted) (id : Uuid)
    (state : OAuthState) (token : String) (cfg : Config (system lib svc)) : Prop where
  reach : Reach (system lib svc) (· = w₀) (fun _ _ => True) cfg
  quiet : ∀ u, (cfg.threads u).Quiet
  binding : svc.signer.binding lib token = .ok state
  awaits : Awaits a id (Hub.accounts cfg.world)

theorem authorized {env : String → Option String} {config : IntegrationsOauthConfig}
    (hb : IntegrationsOauthService.build lib env config = .ok svc)
    (hdoc : lib.Documented svc.signer) (h₀ : w₀.Idle) (hr : Reach (system lib svc) (· = w₀) ok cfg)
    (hq : ∀ u, (cfg.threads u).Quiet) {t : Tid} (ht : cfg.threads t = .idle) {req : AuthorizeRequest}
    {a : Admitted} (ha : svc.admitRequest lib req = .ok a) :
    Rests (authorizing lib svc t req) t (.authorize req) cfg fun cfg₁ => ∃ resp state token,
      cfg₁.threads t = .done (.authorize req) (.ok resp) ∧
      Started lib svc a resp state token (cfg₁.events t) ∧
      Ready lib svc w₀ a resp.accountId state token cfg₁ := by
  refine rests_of fun cfg₁ hs hcall hrest => ?_
  obtain ⟨resp, state, token, hd, hstarted, hawaits⟩ :=
    authorize_rests hdoc (builtFrom_of_build hb) h₀ hr hq ht ha hs hcall hrest
  refine ⟨resp, state, token, hd, hstarted, ?_, fun u => ?_, ?_, hawaits⟩
  · exact (hr.mono fun _ _ _ => trivial).steps (hs.mono fun _ _ _ => trivial)
  · by_cases hu : u = t
    · subst hu
      rw [hd]
      trivial
    · rw [hs.others hu]
      exact hq u
  · exact StateSigner.binding_of_mint hdoc.roundTrips hstarted.minted

/-- **A new authorization works from any state.** From every state that calls, crashes and failures can
leave behind, `authorize` returns a URL, and a completion with the state of that URL and an honest
provider connects the account, exactly when `chrono` can hold the expiry. -/
theorem reconnects_iff {env : String → Option String} {config : IntegrationsOauthConfig}
    (hb : IntegrationsOauthService.build lib env config = .ok svc)
    (hdoc : lib.Documented svc.signer) (h₀ : w₀.Idle) (hr : Reach (system lib svc) (· = w₀) ok cfg)
    (hq : ∀ u, (cfg.threads u).Quiet) {t : Tid} (ht : cfg.threads t = .idle) {req : AuthorizeRequest}
    {a : Admitted} (ha : svc.admitRequest lib req = .ok a) :
    Rests (authorizing lib svc t req) t (.authorize req) cfg fun cfg₁ => ∃ resp state token,
      cfg₁.threads t = .done (.authorize req) (.ok resp) ∧
      Started lib svc a resp state token (cfg₁.events t) ∧
      ∀ u co code response identity secs, cfg₁.threads u = .idle →
        timestamp (Hub.clock cfg₁.world) < state.exp →
        Honest lib response identity secs a.clientId state.nonce a.accountRef →
        Rests (completing lib svc u co ⟨code, token⟩ state.exp response identity) u
          (.complete co ⟨code, token⟩) cfg₁ fun cfg₂ =>
            (∃ o, cfg₂.threads u = .done (.complete co ⟨code, token⟩) (.ok o) ∧
              Connected co a resp.accountId cfg₂.world) ↔
            ∀ now, redeemedAt (cfg₂.events u) = some now → (addSeconds now secs).isSome := by
  intro cfg₁ hs hcall
  obtain ⟨hcomes, hauth⟩ := authorized hb hdoc h₀ hr hq ht ha cfg₁ hs hcall
  refine ⟨hcomes, fun hrest => ?_⟩
  obtain ⟨resp, state, token, hd, hstarted, hready⟩ := hauth hrest
  refine ⟨resp, state, token, hd, hstarted, ?_⟩
  intro u co code response identity secs hu hlive hhonest
  refine rests_of fun cfg₂ hs₂ hcall₂ hrest₂ => ?_
  have hawaits := hready.awaits
  rw [← hstarted.account] at hawaits ⊢
  obtain ⟨email, hemail, heq⟩ := hhonest.email
  -- An honest identity has the email of the account, so only the expiry is left to decide.
  have hiff := completion_iff h₀ hready.reach hready.quiet hu ha hready.binding hstarted.provider hawaits
    hlive (lifetime_of_pos hhonest.lifetime) hhonest.matches.verified hs₂ hcall₂ hrest₂
  rw [← hiff]
  exact and_iff_right (emailMatches_of_eq ha hemail heq hhonest.verified _)

/-- An identity as the provider reports it, with the subject that no check looks at. -/
structure IdentityRead extends IdentityClaims where
  sub : Option String

/-- **Only an email completes an authorization.** With the bypass off, an identity whose audience and
nonce match activates the account exactly when its email is the account reference, and `chrono` can hold
the expiry. The subject never counts. -/
theorem verifiable_iff {env : String → Option String} {config : IntegrationsOauthConfig}
    (hb : IntegrationsOauthService.build lib env config = .ok svc)
    (hbypass : svc.sharedMailboxBypass = false)
    (hdoc : lib.Documented svc.signer) (h₀ : w₀.Idle) (hr : Reach (system lib svc) (· = w₀) ok cfg)
    (hq : ∀ u, (cfg.threads u).Quiet) {t : Tid} (ht : cfg.threads t = .idle) {req : AuthorizeRequest}
    {a : Admitted} (ha : svc.admitRequest lib req = .ok a) :
    Rests (authorizing lib svc t req) t (.authorize req) cfg fun cfg₁ => ∃ resp state token,
      cfg₁.threads t = .done (.authorize req) (.ok resp) ∧
      Started lib svc a resp state token (cfg₁.events t) ∧
      ∀ u co code (response : TokenResponse) (identity : IdentityRead) secs, cfg₁.threads u = .idle →
        timestamp (Hub.clock cfg₁.world) < state.exp → response.expiresIn = some secs ∧ 0 < secs →
        TokenMatches lib identity.toIdentityClaims response.idToken a.clientId state.nonce →
        Rests (completing lib svc u co ⟨code, token⟩ state.exp response identity.toIdentityClaims) u
          (.complete co ⟨code, token⟩) cfg₁ fun cfg₂ =>
            (∃ o, cfg₂.threads u = .done (.complete co ⟨code, token⟩) (.ok o) ∧
              Hub.status? cfg₂.world resp.accountId = some .active) ↔
            EmailMatches identity.toIdentityClaims a.accountRef false ∧
              ∀ now, redeemedAt (cfg₂.events u) = some now → (addSeconds now secs).isSome := by
  intro cfg₁ hs hcall
  obtain ⟨hcomes, hauth⟩ := authorized hb hdoc h₀ hr hq ht ha cfg₁ hs hcall
  refine ⟨hcomes, fun hrest => ?_⟩
  obtain ⟨resp, state, token, hd, hstarted, hready⟩ := hauth hrest
  refine ⟨resp, state, token, hd, hstarted, ?_⟩
  intro u co code response identity secs hu hlive hlife hmatches
  refine rests_of fun cfg₂ hs₂ hcall₂ hrest₂ => ?_
  have hawaits := hready.awaits
  rw [← hstarted.account] at hawaits ⊢
  have hends := complete_rests h₀ hready.reach hready.quiet hu ha hready.binding hstarted.provider hawaits
    hlive (lifetime_of_pos hlife) hmatches.verified hs₂ hcall₂ hrest₂
  have hiff := completion_iff h₀ hready.reach hready.quiet hu ha hready.binding hstarted.provider hawaits
    hlive (lifetime_of_pos hlife) hmatches.verified hs₂ hcall₂ hrest₂
  rw [hbypass] at hiff
  rw [hiff]
  constructor
  · rintro ⟨o, hdone, -⟩
    refine ⟨o, hdone, ?_⟩
    -- A completion that returned `Ok` cannot have stopped at its expiry.
    rcases hends with ⟨r, hr', hended⟩ | ⟨⟨p, hrun⟩, -⟩
    · rw [hdone] at hr'
      cases hr'
      refine (hended.accepted ?_).2
      by_contra hno
      obtain ⟨err, herr⟩ := hended.refused hno
      cases herr
    · rw [hdone] at hrun
      cases hrun
  · rintro ⟨o, hdone, hconn⟩
    exact ⟨o, hdone, hconn.active⟩

/-! ## A calendar of the deployment

The crates of `mailCrates`, with the values of one calendar, and with some text and some bytes for all
values that no run below meets.
-/

def calendarState : OAuthState := ⟨1, "google_calendar", zeros16B64, 600⟩

/-- `calendarState` as JSON. -/
def calendarPayload : Bytes :=
  [123, 34, 97, 99, 99, 111, 117, 110, 116, 95, 105, 100, 34, 58, 34, 48, 48, 48, 48, 48, 48,
    48, 48, 45, 48, 48, 48, 48, 45, 48, 48, 48, 48, 45, 48, 48, 48, 48, 45, 48, 48, 48, 48,
    48, 48, 48, 48, 48, 48, 48, 49, 34, 44, 34, 112, 114, 111, 118, 105, 100, 101, 114, 34,
    58, 34, 103, 111, 111, 103, 108, 101, 95, 99, 97, 108, 101, 110, 100, 97, 114, 34, 44, 34,
    110, 111, 110, 99, 101, 34, 58, 34, 65, 65, 65, 65, 65, 65, 65, 65, 65, 65, 65, 65, 65,
    65, 65, 65, 65, 65, 65, 65, 65, 65, 34, 44, 34, 101, 120, 112, 34, 58, 54, 48, 48, 125]

def calendarMac : Bytes :=
  [232, 200, 192, 47, 249, 123, 183, 125, 228, 199, 122, 96, 2, 229, 194, 119, 242, 46, 78,
    239, 124, 96, 57, 197, 18, 204, 70, 83, 221, 190, 198, 190]

def calendarToken : String :=
  "eyJhY2NvdW50X2lkIjoiMDAwMDAwMDAtMDAwMC0wMDAwLTAwMDAtMDAwMDAwMDAwMDAxIiwicHJvdmlk" ++
    "ZXIiOiJnb29nbGVfY2FsZW5kYXIiLCJub25jZSI6IkFBQUFBQUFBQUFBQUFBQUFBQUFBQUEiLCJleHAiOjYwMH0." ++
    "6MjAL_l7t33kx3pgAuXCd_IuTu98YDnFEsxGU92-xr4"

/-- The claims of the id_token: the audience `client-1` and the nonce. -/
def claimsPayload : Bytes :=
  [123, 34, 97, 117, 100, 34, 58, 34, 99, 108, 105, 101, 110, 116, 45, 49, 34, 44, 34, 110,
    111, 110, 99, 101, 34, 58, 34, 65, 65, 65, 65, 65, 65, 65, 65, 65, 65, 65, 65, 65, 65, 65,
    65, 65, 65, 65, 65, 65, 65, 34, 125]

def claimsB64 : String := "eyJhdWQiOiJjbGllbnQtMSIsIm5vbmNlIjoiQUFBQUFBQUFBQUFBQUFBQUFBQUFBQSJ9"

def calendarTable : List (Bytes × String) :=
  mailTable ++ [(calendarPayload,
    "eyJhY2NvdW50X2lkIjoiMDAwMDAwMDAtMDAwMC0wMDAwLTAwMDAtMDAwMDAwMDAwMDAxIiwicHJvdmlk" ++
      "ZXIiOiJnb29nbGVfY2FsZW5kYXIiLCJub25jZSI6IkFBQUFBQUFBQUFBQUFBQUFBQUFBQUEiLCJleHAiOjYwMH0"),
    (calendarMac, "6MjAL_l7t33kx3pgAuXCd_IuTu98YDnFEsxGU92-xr4"), (claimsPayload, claimsB64)]

/-- Some text for each list of bytes, without ASCII characters. -/
def spell (b : Bytes) : String := String.ofList (b.map fun x => Char.ofNat (x.toNat + 256))

def unspell (s : String) : Bytes := s.toList.map fun c => UInt8.ofNat (c.toNat - 256)

def calendarCrates : Crates :=
  { mailCrates with
    encode := fun b => (calendarTable.lookup b).getD (spell b)
    decode := fun s => some (((calendarTable.find? (·.2 = s)).map (·.1)).getD (unspell s))
    hmacSha256 := fun key msg => if key = mailKey ∧ msg = calendarPayload then calendarMac else []
    stateToVec := fun s =>
      .ok (if s = calendarState then calendarPayload else List.replicate (Encodable.encode s) 0)
    stateFromSlice := fun b =>
      if b = calendarPayload then some calendarState else Encodable.decode b.length
    jsonFromSlice := fun b =>
      if b = claimsPayload then some (.object [("aud", .string "client-1"), ("nonce", .string zeros16B64)])
      else none }

theorem spelled_toNat (x : UInt8) : (Char.ofNat (x.toNat + 256)).toNat = x.toNat + 256 := by
  have hvalid : ∀ n < 256, (Char.ofNat (n + 256)).toNat = n + 256 := by decide +kernel
  exact hvalid _ x.toNat_lt

theorem spell_chars {b : Bytes} {c : Char} (h : c ∈ (spell b).toList) : 256 ≤ c.toNat := by
  rw [spell, String.toList_ofList] at h
  obtain ⟨x, -, rfl⟩ := List.mem_map.mp h
  rw [spelled_toNat]
  omega

theorem unspell_spell (b : Bytes) : unspell (spell b) = b := by
  rw [unspell, spell, String.toList_ofList, List.map_map]
  refine (List.map_congr_left fun x _ => ?_).trans (List.map_id b)
  rw [Function.comp_apply, spelled_toNat, Nat.add_sub_cancel, UInt8.ofNat_toNat]
  rfl

/-- ASCII without a dot. -/
def Plain (s : String) : Prop := ∀ c ∈ s.toList, c.toNat < 128 ∧ c ≠ '.'

theorem plain_ofList {cs : List Char} (h : cs.all fun c => c.toNat < 128 && c != '.') :
    Plain (String.ofList cs) := by
  intro c hc
  rw [String.toList_ofList] at hc
  simpa using List.all_eq_true.mp h c hc

theorem Plain.append {s s' : String} (h : Plain s) (h' : Plain s') : Plain (s ++ s') := by
  intro c hc
  rw [String.toList_append, List.mem_append] at hc
  exact hc.elim (h c) (h' c)

theorem calendarTable_plain : ∀ e ∈ calendarTable, Plain e.2 := by
  simp only [calendarTable, mailTable, List.cons_append, List.nil_append, List.forall_mem_cons]
  refine ⟨?_, ?_, ?_, ?_, ?_, ?_, ?_, ?_, List.forall_mem_nil _⟩
  · exact (plain_ofList (by decide)).append (plain_ofList (by decide))
  · exact plain_ofList (by decide)
  · exact plain_ofList (by decide)
  · exact plain_ofList (by decide)
  · exact plain_ofList (by decide)
  · exact (plain_ofList (by decide)).append (plain_ofList (by decide))
  · exact plain_ofList (by decide)
  · exact plain_ofList (by decide)

theorem calendarTable_nonempty : ∀ e ∈ calendarTable, e.2 ≠ "" := by decide +kernel

theorem encode_cases (b : Bytes) : (b, calendarCrates.encode b) ∈ calendarTable ∨
    calendarCrates.encode b = spell b := by
  change (b, (calendarTable.lookup b).getD (spell b)) ∈ calendarTable ∨
    (calendarTable.lookup b).getD (spell b) = spell b
  cases h : calendarTable.lookup b with
  | none => exact .inr rfl
  | some s =>
    obtain ⟨l₁, l₂, heq, -⟩ := List.lookup_eq_some_iff.mp h
    left
    rw [heq]
    simp

theorem decode_encode (b : Bytes) : calendarCrates.decode (calendarCrates.encode b) = some b := by
  rcases encode_cases b with hm | hs
  · have hall : ∀ e ∈ calendarTable, calendarCrates.decode e.2 = some e.1 := by decide +kernel
    exact hall _ hm
  · have hnone : calendarTable.find? (·.2 = spell b) = none := by
      refine List.find?_eq_none.mpr fun e he heq => ?_
      rw [decide_eq_true_eq] at heq
      obtain ⟨c, hc⟩ := List.exists_mem_of_ne_nil _
        (String.toList_eq_nil_iff.not.mpr (calendarTable_nonempty e he))
      have hlow := (calendarTable_plain e he c hc).1
      rw [heq] at hc
      have := spell_chars hc
      omega
    rw [hs]
    change some (((calendarTable.find? (·.2 = spell b)).map (·.1)).getD (unspell (spell b))) = some b
    rw [hnone, Option.map_none, Option.getD_none, unspell_spell]

theorem calendarCrates_documented : calendarCrates.Documented builtService.signer where
  reparses := mailCrates_reparses
  serializes state := ⟨_, rfl⟩
  nonempty b hb := by
    rcases encode_cases b with hm | hs
    · exact calendarTable_nonempty _ hm
    · rw [hs]
      intro h
      have hchars := congrArg String.toList h
      simp only [spell, String.toList_ofList, String.toList_empty, List.map_eq_nil_iff] at hchars
      exact hb hchars
  roundTrips := by
    constructor
    · intro state payload hp
      refine ⟨decode_encode payload, ?_, ?_⟩
      · rcases encode_cases payload with hm | hs
        · exact fun hdot => (calendarTable_plain _ hm _ hdot).2 rfl
        · rw [hs]
          intro hdot
          exact absurd (spell_chars hdot) (by decide)
      · cases hp
        change (if (if state = calendarState then calendarPayload else _) = calendarPayload
          then some calendarState else _) = some state
        -- The table has the one state of the run. Every other state is spelled by its number.
        by_cases hstate : state = calendarState
        · rw [if_pos hstate, if_pos rfl, hstate]
        · rw [if_neg hstate]
          have hne : List.replicate (Encodable.encode state) 0 ≠ calendarPayload := by
            intro heq
            have hm : (123 : UInt8) ∈ calendarPayload := by decide
            rw [← heq] at hm
            exact absurd (List.eq_of_mem_replicate hm) (by decide)
          rw [if_neg hne, List.length_replicate, Encodable.encodek]
    · exact fun _ _ _ => decode_encode _

/-! ### Its runs -/

def calendarRequest (accountRef : String) : AuthorizeRequest := ⟨"google_calendar", accountRef, none⟩

def calendarRow (accountRef : String) : NewAccount :=
  ⟨1, "google_calendar", accountRef, googleCalendarAdapter.defaultScopes, some zeros48B64⟩

def calendarCallback : CompleteRequest := ⟨"code-1", calendarToken⟩

def calendarResponse (secs : Int) : TokenResponse :=
  ⟨"access-1", "refresh-1", some secs, none, some ("e30." ++ claimsB64 ++ ".c2ln")⟩

def calendarIdentity : IdentityClaims := ⟨"user@example.com", true, none, none⟩

def calendarOpening (accountRef : String) : List (Label (system calendarCrates builtService)) :=
  [.start 0 (.authorize (calendarRequest accountRef)),
    .op 0 (.randomBytes 48) (List.replicate 48 (0 : UInt8)), .op 0 .newUuid (1 : Nat),
    .op 0 .begin (.ok ()), .op 0 (.deleteSnapshot "google_calendar" accountRef) (.ok []),
    .op 0 (.insertAccount (calendarRow accountRef)) (.ok ()), .op 0 .commit (.ok ()),
    .op 0 (.randomBytes 16) (List.replicate 16 (0 : UInt8)), .op 0 .utcNow (0 : Int), .finish 0]

/-- A completion, up to the expiry of its token. -/
def calendarExchange (accountRef : String) (secs : Int) : List (Label (system calendarCrates builtService)) :=
  [.start 1 (.complete 9 calendarCallback), .op 1 .utcNow (0 : Int),
    .op 1 (.fetchAccount 1) (.ok (some ((calendarRow accountRef).toAccount.toRow 1))),
    .op 1 (.fetchVerifier 1) (.ok (some (some zeros48B64))),
    .op 1 (.exchange googleCalendarEndpoints.token
      { mailForm with codeVerifier := zeros48B64 }) (.ok (calendarResponse secs)), .op 1 .utcNow (0 : Int)]

def calendarRead : Label (system calendarCrates builtService) :=
  .op 1 (.fetchIdentity googleCalendarEndpoints.userinfo "access-1")
    (.ok calendarIdentity)

def calendarStore : List (Label (system calendarCrates builtService)) :=
  [.op 1 (.issue ⟨9, "google_calendar", "user@example.com"⟩ purposeOauthToken
      ⟨"access-1", "refresh-1", 3600000000, googleCalendarAdapter.defaultScopes⟩ 3600000000) (.ok (77 : Nat)),
    .op 1 (.update 1 (.activate "" 3600000000 0)) (.ok (1 : Nat)), .finish 1]

/-- `authorize` has returned the account 1, and its nonce and the clock are zeros. -/
def calendarOpened (cfg : Config (system calendarCrates builtService)) : Bool :=
  (match cfg.threads 0 with
    | .done (.authorize _) (.ok resp) => resp.accountId == 1
    | _ => false) &&
  ((cfg.events 0).all fun
    | ⟨.randomBytes n, bytes⟩ => n == 48 || bytes == List.replicate 16 (0 : UInt8)
    | ⟨.utcNow, now⟩ => now == (0 : Int)
    | _ => true) &&
  Hub.clock cfg.world == (0 : Int)

/-- The authorization, then the completion `rest`. -/
def calendarRuns (accountRef : String) (secs : Int) (rest : List (Label (system calendarCrates builtService)))
    (ended : Config (system calendarCrates builtService) → Bool) : Bool :=
  (replay (authorizing calendarCrates builtService 0 (calendarRequest accountRef)) (.init newHub)
    (calendarOpening accountRef)).any fun cfg₁ => calendarOpened cfg₁ &&
      (replay (completing calendarCrates builtService 1 9 calendarCallback 600 (calendarResponse secs)
        calendarIdentity) cfg₁ (calendarExchange accountRef secs ++ rest)).any ended

def completed (cfg : Config (system calendarCrates builtService)) : Bool :=
  match cfg.threads 1 with
  | .done (.complete ..) (.ok _) => true
  | _ => false

def overflowed (cfg : Config (system calendarCrates builtService)) : Bool :=
  match cfg.threads 1 with
  | .running (.complete ..) (.call .panic _) => true
  | _ => false

def refused (cfg : Config (system calendarCrates builtService)) : Bool :=
  (match cfg.threads 1 with
    | .done (.complete ..) (.error _) => true
    | _ => false) &&
  Hub.status? cfg.world 1 == some .pending

theorem calendar_runs :
    (calendarRuns "user@example.com" 3600 (calendarRead :: calendarStore) completed &&
      calendarRuns "user@example.com" (10 ^ 16) [] overflowed &&
      calendarRuns "subject-1" 3600 [calendarRead, .finish 1] refused) = true := by
  decide +kernel

theorem calendar_built : IntegrationsOauthService.build calendarCrates mailEnv mailConfig =
    .ok builtService := builtService_built

theorem calendar_new :
    Reach (system calendarCrates builtService) (· = newHub) (fun _ _ => True) (.init newHub) := .init rfl

theorem newHub_quiet (u : Tid) :
    ((.init newHub : Config (system calendarCrates builtService)).threads u).Quiet := trivial

theorem calendar_admitted {accountRef : String}
    (href : accountRef = "user@example.com" ∨ accountRef = "subject-1") :
    ∃ a, builtService.admitRequest calendarCrates (calendarRequest accountRef) = .ok a ∧
      a.provider = "google_calendar" ∧
      a.clientId = "client-1" ∧ a.accountRef = accountRef := by
  have hall : ∀ r ∈ ["user@example.com", "subject-1"],
      (builtService.admitRequest calendarCrates (calendarRequest r)).toOption.any (fun a =>
        a.provider == "google_calendar" && a.clientId == "client-1" && a.accountRef == r) = true := by
    decide +kernel
  have hany := hall accountRef (by simpa using href)
  cases hrequest : builtService.admitRequest calendarCrates (calendarRequest accountRef) with
  | error e =>
    rw [hrequest] at hany
    cases hany
  | ok a =>
    rw [hrequest] at hany
    simp only [Except.toOption, Option.any_some, Bool.and_eq_true, beq_iff_eq] at hany
    exact ⟨a, rfl, hany.1.1, hany.1.2, hany.2⟩

/-- The parts of `calendarRuns`. -/
structure CalendarRun (accountRef : String) (secs : Int)
    (rest : List (Label (system calendarCrates builtService)))
    (ended : Config (system calendarCrates builtService) → Bool)
    (cfg₁ cfg₂ : Config (system calendarCrates builtService)) (resp : AuthorizeResponse) : Prop where
  opening : Steps (system calendarCrates builtService)
    (authorizing calendarCrates builtService 0 (calendarRequest accountRef)) (.init newHub) cfg₁
  returned : cfg₁.threads 0 = .done (.authorize (calendarRequest accountRef)) (.ok resp)
  account : resp.accountId = 1
  drawn : ∀ bytes : Bytes, ⟨.randomBytes 16, bytes⟩ ∈ cfg₁.events 0 → bytes = List.replicate 16 0
  read : ∀ now : Time, ⟨.utcNow, now⟩ ∈ cfg₁.events 0 → now = 0
  idle : cfg₁.threads 1 = .idle
  clock : Hub.clock cfg₁.world = 0
  callback : Steps (system calendarCrates builtService)
    (completing calendarCrates builtService 1 9 calendarCallback 600 (calendarResponse secs)
      calendarIdentity) cfg₁ cfg₂
  hist : cfg₂.hist = (calendarOpening accountRef ++ calendarExchange accountRef secs ++ rest).reverse
  call : cfg₂.call? 1 = some (.complete 9 calendarCallback)
  ended : ended cfg₂ = true

theorem calendar_run {accountRef : String} {secs : Int}
    {rest : List (Label (system calendarCrates builtService))}
    {ended : Config (system calendarCrates builtService) → Bool}
    (h : calendarRuns accountRef secs rest ended = true) :
    ∃ cfg₁ cfg₂ resp, CalendarRun accountRef secs rest ended cfg₁ cfg₂ resp := by
  obtain ⟨cfg₁, hcfg₁, h⟩ := (Option.any_eq_true ..).mp h
  rw [Bool.and_eq_true] at h
  obtain ⟨hopened, h⟩ := h
  obtain ⟨cfg₂, hcfg₂, hended⟩ := (Option.any_eq_true ..).mp h
  simp only [calendarOpened, Bool.and_eq_true, beq_iff_eq] at hopened
  obtain ⟨⟨hreturned, hevents⟩, hclock⟩ := hopened
  have hsteps₁ := Steps.of_replay hcfg₁
  have hsteps₂ := Steps.of_replay hcfg₂
  have hreach₁ : Reach (system calendarCrates builtService) (· = newHub) (fun _ _ => True) cfg₁ :=
    Reach.steps (.init rfl) (hsteps₁.mono fun _ _ _ => trivial)
  have hreach₂ := hreach₁.steps (hsteps₂.mono fun _ _ _ => trivial)
  have hhist₁ : cfg₁.hist = (calendarOpening accountRef).reverse := by
    rw [replay_hist hcfg₁]
    exact List.append_nil _
  have hhist₂ : cfg₂.hist =
      (calendarOpening accountRef ++ calendarExchange accountRef secs ++ rest).reverse := by
    rw [replay_hist hcfg₂, hhist₁, ← List.reverse_append, List.append_assoc]
  have hcall₁ : cfg₁.call? 0 = some (.authorize (calendarRequest accountRef)) :=
    hreach₁.call_of_start (by simp [hhist₁, calendarOpening])
  have hcall₂ : cfg₂.call? 1 = some (.complete 9 calendarCallback) :=
    hreach₂.call_of_start (by simp [hhist₂, calendarExchange])
  split at hreturned
  · rename_i req resp heq
    rw [Config.call?, heq] at hcall₁
    cases hcall₁
    refine ⟨cfg₁, cfg₂, resp, hsteps₁, heq, by simpa using hreturned, ?_, ?_, ?_, hclock, hsteps₂, hhist₂,
      hcall₂, hended⟩
    · intro bytes hm
      have := List.all_eq_true.mp hevents _ hm
      simpa using this
    · intro now hm
      have := List.all_eq_true.mp hevents _ hm
      simpa using this
    · exact hsteps₁.others (by rintro ⟨⟩)
  · cases hreturned

theorem calendarState_minted :
    builtService.signer.mint calendarCrates calendarState = .ok calendarToken := by decide +kernel

section

variable {accountRef : String} {secs : Int} {rest : List (Label (system calendarCrates builtService))}
  {ended : Config (system calendarCrates builtService) → Bool}
  {cfg₁ cfg₂ : Config (system calendarCrates builtService)} {resp : AuthorizeResponse} {a : Admitted}

theorem CalendarRun.state_eq (h : CalendarRun accountRef secs rest ended cfg₁ cfg₂ resp)
    (hp : a.provider = "google_calendar") {state : OAuthState} {token : String}
    (hs : Started calendarCrates builtService a resp state token (cfg₁.events 0)) :
    state = calendarState ∧ token = calendarToken := by
  obtain ⟨bytes, hbytes, hnonce⟩ := hs.nonce
  obtain ⟨now, hnow, hexp⟩ := hs.expiry
  obtain rfl := h.drawn bytes hbytes
  obtain rfl := h.read now hnow
  have hzeros : calendarCrates.encode (List.replicate 16 0) = zeros16B64 := by decide +kernel
  have hstate : state = calendarState := by
    obtain ⟨account, provider, nonce, exp⟩ := state
    have haccount := hs.account.trans h.account
    have hprovider := hs.provider.trans hp
    dsimp only at haccount hprovider hnonce hexp
    rw [haccount, hprovider, hnonce, hzeros, hexp]
    rfl
  subst hstate
  refine ⟨rfl, ?_⟩
  have := calendarState_minted.symm.trans hs.minted
  cases this
  rfl

theorem CalendarRun.call_opening (h : CalendarRun accountRef secs rest ended cfg₁ cfg₂ resp) :
    cfg₁.call? 0 = some (.authorize (calendarRequest accountRef)) := by
  rw [Config.call?, h.returned]
  rfl

theorem CalendarRun.rest_opening (h : CalendarRun accountRef secs rest ended cfg₁ cfg₂ resp) :
    AtRest (authorizing calendarCrates builtService 0 (calendarRequest accountRef)) cfg₁ := by
  refine at_rest_of_over ?_ ?_ <;> rw [h.returned]
  · trivial
  · nofun

theorem CalendarRun.started (h : CalendarRun accountRef secs rest ended cfg₁ cfg₂ resp)
    (ha : builtService.admitRequest calendarCrates (calendarRequest accountRef) = .ok a)
    (hp : a.provider = "google_calendar") :
    Started calendarCrates builtService a resp calendarState calendarToken (cfg₁.events 0) := by
  obtain ⟨resp', state, token, hd, hstarted, -⟩ :=
    (authorized calendar_built calendarCrates_documented newHub_idle calendar_new newHub_quiet rfl ha
      cfg₁ h.opening h.call_opening).2 h.rest_opening
  cases hd.symm.trans h.returned
  obtain ⟨rfl, rfl⟩ := h.state_eq hp hstarted
  exact hstarted

theorem CalendarRun.live (h : CalendarRun accountRef secs rest ended cfg₁ cfg₂ resp) :
    timestamp (Hub.clock cfg₁.world) < calendarState.exp := by
  rw [h.clock]
  decide

theorem CalendarRun.done (h : CalendarRun accountRef secs rest completed cfg₁ cfg₂ resp) :
    ∃ o, cfg₂.threads 1 = .done (.complete 9 calendarCallback) (.ok o) := by
  have hended := h.ended
  have hcall := h.call
  simp only [completed] at hended
  split at hended
  · rename_i heq
    rw [Config.call?, heq] at hcall
    cases hcall
    exact ⟨_, heq⟩
  · cases hended

theorem CalendarRun.stopped (h : CalendarRun accountRef secs rest overflowed cfg₁ cfg₂ resp) :
    AtRest (completing calendarCrates builtService 1 9 calendarCallback 600 (calendarResponse secs)
      calendarIdentity) cfg₂ ∧
    ∀ o, cfg₂.threads 1 ≠ .done (.complete 9 calendarCallback) (.ok o) := by
  have hended := h.ended
  have hcall := h.call
  simp only [overflowed] at hended
  split at hended
  · rename_i heq
    refine ⟨at_rest_of_stuck heq ?_, fun o ho => ?_⟩
    · rintro ⟨ans, -⟩
      exact nomatch (ans : Empty)
    · cases heq.symm.trans ho
  · cases hended

theorem CalendarRun.failed (h : CalendarRun accountRef secs rest refused cfg₁ cfg₂ resp) :
    (∃ err, cfg₂.threads 1 = .done (.complete 9 calendarCallback) (.error err)) ∧
      Hub.status? cfg₂.world 1 = some .pending := by
  have hended := h.ended
  have hcall := h.call
  simp only [refused, Bool.and_eq_true, beq_iff_eq] at hended
  obtain ⟨hended, hstatus⟩ := hended
  split at hended
  · rename_i heq
    rw [Config.call?, heq] at hcall
    cases hcall
    exact ⟨⟨_, heq⟩, hstatus⟩
  · cases hended

theorem calendar_claims : ((calendarResponse secs).idToken.bind (decodeIdTokenClaims calendarCrates)) =
    some ⟨"client-1", zeros16B64⟩ := by
  have hmap : (decodeIdTokenClaims calendarCrates ("e30." ++ claimsB64 ++ ".c2ln")).map
      (fun d => (d.audience, d.nonce)) = some (some "client-1", some zeros16B64) := by decide +kernel
  obtain ⟨⟨audience, nonce⟩, hd, heq⟩ := Option.map_eq_some_iff.mp hmap
  cases heq
  exact hd

theorem calendar_honest (hpos : 0 < secs) : Honest calendarCrates (calendarResponse secs)
    calendarIdentity secs "client-1" zeros16B64 "user@example.com" where
  lifetime := ⟨rfl, hpos⟩
  idToken := calendar_claims
  silent := ⟨rfl, rfl⟩
  email := ⟨"user@example.com", rfl, rfl⟩
  verified := nofun

theorem calendar_matches : TokenMatches calendarCrates calendarIdentity (calendarResponse secs).idToken
    "client-1" zeros16B64 where
  audience := by
    rw [calendar_claims]
    rfl
  nonce := by
    rw [calendar_claims]
    rfl
  audiences := nofun
  nonces := nofun

end

theorem reconnects_iff_calendar : ∃ (a : Admitted) (cfg₁ cfg₂ : Config (system calendarCrates builtService))
    (resp : AuthorizeResponse),
    builtService.admitRequest calendarCrates (calendarRequest "user@example.com") = .ok a ∧
      cfg₁.threads 0 = .done (.authorize (calendarRequest "user@example.com")) (.ok resp) ∧
      (∃ o, cfg₂.threads 1 = .done (.complete 9 calendarCallback) (.ok o)) ∧
      ((∃ o, cfg₂.threads 1 = .done (.complete 9 calendarCallback) (.ok o) ∧
        Connected 9 a resp.accountId cfg₂.world) ↔
        ∀ now, redeemedAt (cfg₂.events 1) = some now → (addSeconds now 3600).isSome) := by
  have hruns := calendar_runs
  simp only [Bool.and_eq_true] at hruns
  obtain ⟨⟨hruns, -⟩, -⟩ := hruns
  obtain ⟨cfg₁, cfg₂, resp, h⟩ := calendar_run hruns
  obtain ⟨a, ha, hp, hclient, href⟩ := calendar_admitted (.inl rfl)
  obtain ⟨resp', state, token, hd, hstarted, hcompletes⟩ :=
    (reconnects_iff calendar_built calendarCrates_documented newHub_idle calendar_new newHub_quiet rfl ha
      cfg₁ h.opening h.call_opening).2 h.rest_opening
  cases hd.symm.trans h.returned
  obtain ⟨rfl, rfl⟩ := h.state_eq hp hstarted
  have hhonest : Honest calendarCrates (calendarResponse 3600) calendarIdentity 3600 a.clientId
      calendarState.nonce a.accountRef := by
    rw [hclient, href]
    exact calendar_honest (by decide)
  obtain ⟨o, hdone⟩ := h.done
  refine ⟨a, cfg₁, cfg₂, resp, ha, h.returned, ⟨o, hdone⟩, ?_⟩
  refine (hcompletes 1 9 "code-1" _ _ _ h.idle h.live hhonest cfg₂ h.callback h.call).2 ?_
  refine at_rest_of_over ?_ ?_ <;> rw [hdone]
  · trivial
  · nofun

/-! A token with an `expires_in` of 10^16 seconds makes the completion panic. -/

theorem endless_token_panics : ∃ (a : Admitted) (cfg₁ cfg₂ : Config (system calendarCrates builtService))
    (resp : AuthorizeResponse),
    builtService.admitRequest calendarCrates (calendarRequest "user@example.com") = .ok a ∧
      Steps (system calendarCrates builtService)
        (authorizing calendarCrates builtService 0 (calendarRequest "user@example.com")) (.init newHub) cfg₁ ∧
      cfg₁.threads 0 = .done (.authorize (calendarRequest "user@example.com")) (.ok resp) ∧
      Started calendarCrates builtService a resp calendarState calendarToken (cfg₁.events 0) ∧
      Honest calendarCrates (calendarResponse (10 ^ 16)) calendarIdentity (10 ^ 16) a.clientId
        calendarState.nonce a.accountRef ∧
      Steps (system calendarCrates builtService)
        (completing calendarCrates builtService 1 9 ⟨"code-1", calendarToken⟩ calendarState.exp
          (calendarResponse (10 ^ 16)) calendarIdentity) cfg₁ cfg₂ ∧
      cfg₂.call? 1 = some (.complete 9 ⟨"code-1", calendarToken⟩) ∧
      AtRest (completing calendarCrates builtService 1 9 ⟨"code-1", calendarToken⟩ calendarState.exp
        (calendarResponse (10 ^ 16)) calendarIdentity) cfg₂ ∧
      ∀ o, cfg₂.threads 1 ≠ .done (.complete 9 ⟨"code-1", calendarToken⟩) (.ok o) := by
  have hruns := calendar_runs
  simp only [Bool.and_eq_true] at hruns
  obtain ⟨⟨-, hruns⟩, -⟩ := hruns
  obtain ⟨cfg₁, cfg₂, resp, h⟩ := calendar_run hruns
  obtain ⟨a, ha, hp, hclient, href⟩ := calendar_admitted (.inl rfl)
  refine ⟨a, cfg₁, cfg₂, resp, ha, h.opening, h.returned, h.started ha hp, ?_, h.callback, h.call,
    h.stopped⟩
  rw [hclient, href]
  exact calendar_honest (by decide)

/-- The identity of the account "subject-1". -/
def subjectRead : IdentityRead := { calendarIdentity with sub := some "subject-1" }

theorem verifiable_iff_calendar : ∃ (cfg₁ cfg₂ : Config (system calendarCrates builtService))
    (resp : AuthorizeResponse),
    cfg₁.threads 0 = .done (.authorize (calendarRequest "user@example.com")) (.ok resp) ∧
      (∃ o, cfg₂.threads 1 = .done (.complete 9 calendarCallback) (.ok o)) ∧
      ((∃ o, cfg₂.threads 1 = .done (.complete 9 calendarCallback) (.ok o) ∧
        Hub.status? cfg₂.world resp.accountId = some .active) ↔
        EmailMatches subjectRead.toIdentityClaims "user@example.com" false ∧
          ∀ now, redeemedAt (cfg₂.events 1) = some now → (addSeconds now 3600).isSome) := by
  have hruns := calendar_runs
  simp only [Bool.and_eq_true] at hruns
  obtain ⟨⟨hruns, -⟩, -⟩ := hruns
  obtain ⟨cfg₁, cfg₂, resp, h⟩ := calendar_run hruns
  obtain ⟨a, ha, hp, hclient, href⟩ := calendar_admitted (.inl rfl)
  obtain ⟨resp', state, token, hd, hstarted, hcompletes⟩ :=
    (verifiable_iff calendar_built rfl calendarCrates_documented newHub_idle calendar_new newHub_quiet rfl ha
      cfg₁ h.opening h.call_opening).2 h.rest_opening
  cases hd.symm.trans h.returned
  obtain ⟨rfl, rfl⟩ := h.state_eq hp hstarted
  have hmatches : TokenMatches calendarCrates subjectRead.toIdentityClaims (calendarResponse 3600).idToken
      a.clientId calendarState.nonce := by
    rw [hclient]
    exact calendar_matches
  obtain ⟨o, hdone⟩ := h.done
  refine ⟨cfg₁, cfg₂, resp, h.returned, ⟨o, hdone⟩, ?_⟩
  rw [← href]
  refine (hcompletes 1 9 "code-1" _ subjectRead 3600 h.idle h.live ⟨rfl, by decide⟩ hmatches cfg₂
    h.callback h.call).2 ?_
  refine at_rest_of_over ?_ ?_ <;> rw [hdone]
  · trivial
  · nofun

/-! The account "subject-1" is never activated: its subject counts for nothing. -/

theorem subject_refused : ∃ (a : Admitted) (cfg₁ cfg₂ : Config (system calendarCrates builtService))
    (resp : AuthorizeResponse) (err : OauthError),
    builtService.sharedMailboxBypass = false ∧
      builtService.admitRequest calendarCrates (calendarRequest "subject-1") = .ok a ∧
      Steps (system calendarCrates builtService)
        (authorizing calendarCrates builtService 0 (calendarRequest "subject-1")) (.init newHub) cfg₁ ∧
      cfg₁.threads 0 = .done (.authorize (calendarRequest "subject-1")) (.ok resp) ∧
      Started calendarCrates builtService a resp calendarState calendarToken (cfg₁.events 0) ∧
      subjectRead.sub = some a.accountRef ∧
      TokenMatches calendarCrates subjectRead.toIdentityClaims (calendarResponse 3600).idToken a.clientId
        calendarState.nonce ∧
      Steps (system calendarCrates builtService)
        (completing calendarCrates builtService 1 9 ⟨"code-1", calendarToken⟩ calendarState.exp
          (calendarResponse 3600) subjectRead.toIdentityClaims) cfg₁ cfg₂ ∧
      cfg₂.threads 1 = .done (.complete 9 ⟨"code-1", calendarToken⟩) (.error err) ∧
      Hub.status? cfg₂.world resp.accountId = some .pending := by
  have hruns := calendar_runs
  simp only [Bool.and_eq_true] at hruns
  obtain ⟨-, hruns⟩ := hruns
  obtain ⟨cfg₁, cfg₂, resp, h⟩ := calendar_run hruns
  obtain ⟨a, ha, hp, hclient, href⟩ := calendar_admitted (.inr rfl)
  obtain ⟨⟨err, hdone⟩, hstatus⟩ := h.failed
  refine ⟨a, cfg₁, cfg₂, resp, err, rfl, ha, h.opening, h.returned, h.started ha hp, ?_, ?_, h.callback,
    hdone, ?_⟩
  · rw [href]
    rfl
  · rw [hclient]
    exact calendar_matches
  · rw [h.account]
    exact hstatus

end BackboneIntegrations.OAuth
