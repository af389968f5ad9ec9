import BackboneIntegrations.OAuth.Gauntlet

/-!
# The claims of a token

What the audience and the nonce of the two sources have to be, and where `verify_audience_and_nonce`
lets something else through.
-/

namespace BackboneIntegrations.OAuth

variable {lib : Crates} {identity : IdentityClaims} {idToken : Option String} {clientId stateNonce : String}

/-! ## The payload of an id_token -/

/-- The payload as JSON, for a token that has one. -/
def idTokenPayload (lib : Crates) (idToken : String) : Option Json := do
  let payloadB64 ← secondSegment idToken
  let payload ← lib.decode (Text.trimEndMatches payloadB64 '=')
  lib.jsonFromSlice payload

/-- The audience of a payload, the first element for an array. -/
def payloadAudience (value : Json) : Option String :=
  match value.get "aud" with
  | some (.string s) => some s
  | some (.array a) => a.head?.bind Json.asStr
  | _ => none

def payloadNonce (value : Json) : Option String := (value.get "nonce").bind Json.asStr

theorem decodeIdTokenClaims_eq (token : String) : decodeIdTokenClaims lib token =
    (idTokenPayload lib token).bind fun value =>
      (value.get "aud").map fun _ => ⟨payloadAudience value, payloadNonce value⟩ := by
  unfold decodeIdTokenClaims idTokenPayload
  simp only [Option.bind_eq_bind, Option.bind_assoc]
  congr 1
  funext payloadB64
  congr 1
  funext payload
  congr 1
  funext value
  unfold payloadAudience
  cases value.get "aud" with
  | none => rfl
  | some aud => cases aud <;> rfl

/-- The payload of the token that came, if one came and it decodes. -/
def payload? (lib : Crates) (idToken : Option String) : Option Json := idToken.bind (idTokenPayload lib)

/-- The audience that the check reads from the id_token. -/
def readAudience (lib : Crates) (idToken : Option String) : Option String :=
  (idToken.bind (decodeIdTokenClaims lib)).bind (·.audience)

/-- The nonce that the check reads from the id_token. -/
def readNonce (lib : Crates) (idToken : Option String) : Option String :=
  (idToken.bind (decodeIdTokenClaims lib)).bind (·.nonce)

theorem readAudience_eq : readAudience lib idToken = (payload? lib idToken).bind payloadAudience := by
  unfold readAudience payload?
  cases idToken with
  | none => rfl
  | some token =>
    simp only [Option.bind_some, decodeIdTokenClaims_eq]
    cases idTokenPayload lib token with
    | none => rfl
    | some value =>
      simp only [Option.bind_some]
      cases h : value.get "aud" with
      | none => simp [payloadAudience, h]
      | some aud => rfl

theorem readNonce_eq : readNonce lib idToken =
    (payload? lib idToken).bind fun value => (value.get "aud").bind fun _ => payloadNonce value := by
  unfold readNonce payload?
  cases idToken with
  | none => rfl
  | some token =>
    simp only [Option.bind_some, decodeIdTokenClaims_eq]
    cases idTokenPayload lib token with
    | none => rfl
    | some value =>
      simp only [Option.bind_some]
      cases value.get "aud" <;> rfl

/-! ## What is enforced -/

/-- The check of one claim: where both sources have it they agree up to ASCII case, and the first source
that has it has exactly the expected one. -/
structure Accepts (fromIdentity fromIdToken : Option String) (expected : String) : Prop where
  first : effective fromIdentity fromIdToken = some expected
  agree : ∀ x y, fromIdentity = some x → fromIdToken = some y → Text.eqIgnoreAsciiCase x y

theorem mergeClaim_ok {a b c : Option String} : mergeClaim a b = .ok c ↔
    c = effective a b ∧ ∀ x y, a = some x → b = some y → Text.eqIgnoreAsciiCase x y := by
  constructor
  · intro h
    refine ⟨mergeClaim_eq h, ?_⟩
    rintro x y rfl rfl
    by_contra hne
    simp [mergeClaim, hne] at h
  · rintro ⟨rfl, hagree⟩
    cases a with
    | none => cases b <;> rfl
    | some x =>
      cases b with
      | none => rfl
      | some y => exact if_pos (hagree x y rfl rfl)

theorem verifyAudienceAndNonce_iff :
    verifyAudienceAndNonce lib identity idToken clientId stateNonce = .ok () ↔
    Accepts identity.audience (readAudience lib idToken) clientId ∧
      Accepts identity.nonce (readNonce lib idToken) stateNonce := by
  constructor
  · intro h
    obtain ⟨haud, hnonce⟩ := verifyAudienceAndNonce_ok h
    simp only [verifyAudienceAndNonce, bind, Except.bind] at h
    split at h
    · cases h
    rename_i hmergeAud
    split at h
    · cases h
    rename_i hmergeNonce
    exact ⟨⟨haud, (mergeClaim_ok.mp hmergeAud).2⟩, ⟨hnonce, (mergeClaim_ok.mp hmergeNonce).2⟩⟩
  · rintro ⟨⟨haud, hagreeAud⟩, ⟨hnonce, hagreeNonce⟩⟩
    have hmergeAud := mergeClaim_ok.mpr ⟨haud.symm, hagreeAud⟩
    have hmergeNonce := mergeClaim_ok.mpr ⟨hnonce.symm, hagreeNonce⟩
    unfold readAudience at hmergeAud
    unfold readNonce at hmergeNonce
    simp only [verifyAudienceAndNonce, hmergeAud, hmergeNonce, bind, Except.bind, ne_eq, not_true_eq_false,
      if_false]
    rfl

/-- Every source is enforced: each audience and each nonce that a source has is the expected one, the
nonce of a payload without `aud` included, and both are there. -/
structure Enforced (lib : Crates) (identity : IdentityClaims) (idToken : Option String)
    (clientId stateNonce : String) : Prop where
  audiences : ∀ aud, identity.audience = some aud ∨ (payload? lib idToken).bind payloadAudience = some aud →
    aud = clientId
  nonces : ∀ nonce, identity.nonce = some nonce ∨ (payload? lib idToken).bind payloadNonce = some nonce →
    nonce = stateNonce
  audience : identity.audience ≠ none ∨ (payload? lib idToken).bind payloadAudience ≠ none
  nonce : identity.nonce ≠ none ∨ (payload? lib idToken).bind payloadNonce ≠ none

/-- The identity has exactly what is expected, and the id_token another spelling of it. -/
structure Respelled (a b : Option String) (expected : String) : Prop where
  identity : a = some expected
  idToken : ∃ y, b = some y ∧ y ≠ expected ∧ Text.eqIgnoreAsciiCase expected y

/-- One claim of the id_token is respelled, and the other claim is accepted. -/
def Recased (lib : Crates) (identity : IdentityClaims) (idToken : Option String)
    (clientId stateNonce : String) : Prop :=
  Respelled identity.audience (readAudience lib idToken) clientId ∧
      Accepts identity.nonce (readNonce lib idToken) stateNonce ∨
    Accepts identity.audience (readAudience lib idToken) clientId ∧
      Respelled identity.nonce (readNonce lib idToken) stateNonce

/-- The identity has what is expected, and the payload has another nonce but no `aud`. -/
structure Hidden (lib : Crates) (identity : IdentityClaims) (idToken : Option String)
    (clientId stateNonce : String) : Prop where
  audience : identity.audience = some clientId
  nonce : identity.nonce = some stateNonce
  masked : ∃ value, payload? lib idToken = some value ∧ value.get "aud" = none ∧
    ∃ nonce, payloadNonce value = some nonce ∧ nonce ≠ stateNonce

theorem Accepts.eq_of_identity {a b : Option String} {expected x : String} (h : Accepts a b expected)
    (ha : a = some x) : x = expected := by
  have hfirst := h.first
  rw [ha] at hfirst
  exact Option.some.inj hfirst

theorem Accepts.supplied {a b : Option String} {expected : String} (h : Accepts a b expected) :
    a ≠ none ∨ b ≠ none := by
  by_contra hno
  simp only [not_or, not_not] at hno
  have hfirst := h.first
  rw [hno.1, hno.2] at hfirst
  cases hfirst

theorem Accepts.of_silent {a : Option String} {expected : String} (h : Accepts a none expected) :
    a = some expected := by
  have hfirst := h.first
  cases a with
  | none => cases hfirst
  | some x => exact hfirst

theorem Accepts.respelled {a b : Option String} {expected y : String} (h : Accepts a b expected)
    (hb : b = some y) (hne : y ≠ expected) : Respelled a b expected := by
  subst hb
  have hfirst := h.first
  cases a with
  | none => exact absurd (Option.some.inj hfirst) hne
  | some x =>
    obtain rfl := h.eq_of_identity rfl
    exact ⟨rfl, y, rfl, hne, h.agree x y rfl rfl⟩

theorem Respelled.accepts {a b : Option String} {expected : String} (h : Respelled a b expected) :
    Accepts a b expected := by
  obtain ⟨rfl, y, rfl, -, hcase⟩ := h
  refine ⟨rfl, ?_⟩
  rintro _ _ ⟨⟩ ⟨⟩
  exact hcase

theorem readNonce_of_aud {value : Json} (hv : payload? lib idToken = some value) {aud : Json}
    (haud : value.get "aud" = some aud) : readNonce lib idToken = payloadNonce value := by
  rw [readNonce_eq, hv, Option.bind_some, haud, Option.bind_some]

theorem read_of_no_aud {value : Json} (hv : payload? lib idToken = some value)
    (haud : value.get "aud" = none) : readAudience lib idToken = none ∧ readNonce lib idToken = none := by
  rw [readAudience_eq, readNonce_eq, hv]
  simp [payloadAudience, haud]

theorem payloadNonce_eq (haud : Accepts identity.audience (readAudience lib idToken) clientId)
    (hnonce : Accepts identity.nonce (readNonce lib idToken) stateNonce)
    (hcase : ¬ Recased lib identity idToken clientId stateNonce)
    (hhidden : ¬ Hidden lib identity idToken clientId stateNonce) {nonce : String}
    (hn : (payload? lib idToken).bind payloadNonce = some nonce) : nonce = stateNonce := by
  obtain ⟨value, hv, hvn⟩ := Option.bind_eq_some_iff.mp hn
  by_contra hne
  cases h : value.get "aud" with
  | some aud =>
    have hread : readNonce lib idToken = some nonce := (readNonce_of_aud hv h).trans hvn
    exact hcase (.inr ⟨haud, hnonce.respelled hread hne⟩)
  | none =>
    obtain ⟨hra, hrn⟩ := read_of_no_aud hv h
    rw [hra] at haud
    rw [hrn] at hnonce
    exact hhidden ⟨haud.of_silent, hnonce.of_silent, value, hv, h, nonce, hvn, hne⟩

/-- **Where the audience and the nonce are enforced.** What passes has the expected audience and nonce in
every source, exactly when no claim of the id_token is spelled in another case and no payload without
`aud` has another nonce. -/
theorem audience_nonce_enforced_iff :
    (verifyAudienceAndNonce lib identity idToken clientId stateNonce = .ok () →
      Enforced lib identity idToken clientId stateNonce) ↔
    ¬ Recased lib identity idToken clientId stateNonce ∧
      ¬ Hidden lib identity idToken clientId stateNonce := by
  rw [verifyAudienceAndNonce_iff]
  constructor
  · intro h
    constructor
    · rintro (⟨haud, hnonce⟩ | ⟨haud, hnonce⟩)
      · obtain ⟨aud, hread, hne, -⟩ := haud.idToken
        rw [readAudience_eq] at hread
        exact hne ((h ⟨haud.accepts, hnonce⟩).audiences aud (.inr hread))
      · obtain ⟨nonce, hread, hne, -⟩ := hnonce.idToken
        rw [readNonce_eq] at hread
        obtain ⟨value, hv, hread⟩ := Option.bind_eq_some_iff.mp hread
        obtain ⟨-, -, hvn⟩ := Option.bind_eq_some_iff.mp hread
        refine hne ((h ⟨haud, hnonce.accepts⟩).nonces nonce (.inr ?_))
        exact Option.bind_eq_some_iff.mpr ⟨value, hv, hvn⟩
    · rintro ⟨haud, hnonce, value, hv, hno, nonce, hvn, hne⟩
      -- Without `aud` the payload decodes to nothing, so neither check sees its nonce.
      obtain ⟨hra, hrn⟩ := read_of_no_aud hv hno
      have haccAud : Accepts identity.audience (readAudience lib idToken) clientId := by
        rw [hra, haud]
        exact ⟨rfl, nofun⟩
      have haccNonce : Accepts identity.nonce (readNonce lib idToken) stateNonce := by
        rw [hrn, hnonce]
        exact ⟨rfl, nofun⟩
      have hall := h ⟨haccAud, haccNonce⟩
      exact hne (hall.nonces nonce (.inr (Option.bind_eq_some_iff.mpr ⟨value, hv, hvn⟩)))
  · rintro ⟨hcase, hhidden⟩ ⟨haud, hnonce⟩
    constructor
    · rintro aud (hid | hpay)
      · exact haud.eq_of_identity hid
      · rw [← readAudience_eq] at hpay
        by_contra hne
        exact hcase (.inl ⟨haud.respelled hpay hne, hnonce⟩)
    · rintro nonce (hid | hpay)
      · exact hnonce.eq_of_identity hid
      · exact payloadNonce_eq haud hnonce hcase hhidden hpay
    · have := haud.supplied
      rwa [readAudience_eq] at this
    · refine hnonce.supplied.imp_right fun hread hno => hread ?_
      rw [readNonce_eq]
      cases hv : payload? lib idToken with
      | none => rfl
      | some value =>
        rw [hv, Option.bind_some] at hno
        rw [Option.bind_some, hno]
        cases value.get "aud" <;> rfl

/-! ## The two gaps -/

/-- `{"nonce":"n-2"}` -/
def noncePayloadBytes : Bytes :=
  [123, 34, 110, 111, 110, 99, 101, 34, 58, 34, 110, 45, 50, 34, 125]

/-- `{"aud":"CLIENT-1","nonce":"n-1"}` -/
def upperPayloadBytes : Bytes :=
  [123, 34, 97, 117, 100, 34, 58, 34, 67, 76, 73, 69, 78, 84, 45, 49, 34, 44, 34, 110, 111, 110, 99, 101,
    34, 58, 34, 110, 45, 49, 34, 125]

def claimsCrates : Crates :=
  { mailCrates with
    decode := fun s =>
      if s = "eyJub25jZSI6Im4tMiJ9" then some noncePayloadBytes
      else if s = "eyJhdWQiOiJDTElFTlQtMSIsIm5vbmNlIjoibi0xIn0" then some upperPayloadBytes
      else none
    jsonFromSlice := fun b =>
      if b = noncePayloadBytes then some (.object [("nonce", .string "n-2")])
      else if b = upperPayloadBytes then
        some (.object [("aud", .string "CLIENT-1"), ("nonce", .string "n-1")])
      else none }

def claimsIdentity : IdentityClaims := ⟨"user@example.com", true, "client-1", "n-1"⟩

/-! A payload without `aud` carries another nonce, and a payload carries another spelling of the audience:
both pass. -/

theorem conflicting_claims_pass :
    (verifyAudienceAndNonce claimsCrates claimsIdentity (some "e30.eyJub25jZSI6Im4tMiJ9.c2ln") "client-1"
        "n-1" = .ok () ∧
      ¬ Enforced claimsCrates claimsIdentity (some "e30.eyJub25jZSI6Im4tMiJ9.c2ln") "client-1" "n-1") ∧
    verifyAudienceAndNonce claimsCrates claimsIdentity
        (some "e30.eyJhdWQiOiJDTElFTlQtMSIsIm5vbmNlIjoibi0xIn0.c2ln") "client-1" "n-1" = .ok () ∧
      ¬ Enforced claimsCrates claimsIdentity
        (some "e30.eyJhdWQiOiJDTElFTlQtMSIsIm5vbmNlIjoibi0xIn0.c2ln") "client-1" "n-1" := by
  refine ⟨⟨by decide +kernel, fun h => ?_⟩, by decide +kernel, fun h => ?_⟩
  · have hn : (payload? claimsCrates (some "e30.eyJub25jZSI6Im4tMiJ9.c2ln")).bind payloadNonce =
        some "n-2" := by decide +kernel
    exact absurd (h.nonces "n-2" (.inr hn)) (by decide)
  · have ha : (payload? claimsCrates (some "e30.eyJhdWQiOiJDTElFTlQtMSIsIm5vbmNlIjoibi0xIn0.c2ln")).bind
        payloadAudience = some "CLIENT-1" := by decide +kernel
    exact absurd (h.audiences "CLIENT-1" (.inr ha)) (by decide)

end BackboneIntegrations.OAuth
