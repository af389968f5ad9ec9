import Mathlib.Logic.Equiv.List
import BackboneIntegrations.Codec.Base64Url
import BackboneIntegrations.OAuth.Gauntlet

/-!
# The format of the state token

A token verifies exactly when it is the payload and its MAC in base64url with a dot between them, and
the state of the payload has not expired.
-/

open Interleave

namespace BackboneIntegrations.OAuth

variable {lib : Crates} {svc : IntegrationsOauthService} {s : StateSigner} {token : String}
  {state : OAuthState} {now : Time}

/-! ## `verify` at a time -/

/-- `StateSigner::verify`, with the clock that it reads as an argument. -/
def StateSigner.verify (lib : Crates) (s : StateSigner) (now : Time) (token : String) :
    Except OauthError OAuthState := do
  let state ← s.binding lib token
  if state.exp ≤ timestamp now then throw (.state "state expired")
  return state

theorem verify_run : (svc.verify lib token).run =
    match svc.signer.binding lib token with
    | .error e => .ret (.error e)
    | .ok _ => .call .utcNow fun now => .ret (svc.signer.verify lib now token) := by
  unfold IntegrationsOauthService.verify StateSigner.verify
  cases svc.signer.binding lib token with
  | error e => rfl
  | ok state =>
    change Prog.call (S := Sig) .utcNow _ = _
    congr 1
    funext now
    change (if state.exp ≤ timestamp now then _ else _ : Flow OauthError OAuthState).run =
      .ret (if state.exp ≤ timestamp now then _ else _)
    split <;> rfl

theorem StateSigner.verify_ok : s.verify lib now token = .ok state ↔
    s.binding lib token = .ok state ∧ timestamp now < state.exp := by
  unfold verify
  cases s.binding lib token with
  | error e =>
    constructor
    · intro h
      cases h
    · rintro ⟨h, -⟩
      cases h
  | ok st =>
    change (if st.exp ≤ timestamp now then _ else _ : Except OauthError OAuthState) = _ ↔ _
    split
    · rename_i hexp
      constructor
      · intro h
        cases h
      · rintro ⟨h, hlive⟩
        cases h
        exact absurd hlive (Int.not_lt.mpr hexp)
    · rename_i hexp
      constructor
      · intro h
        cases h
        exact ⟨rfl, Int.not_le.mp hexp⟩
      · rintro ⟨h, -⟩
        exact h

/-! ## The format -/

/-- The crates as they are documented: base64url is strict, its alphabet has no dot, and a state comes
back from its JSON. -/
structure Crates.Strict (lib : Crates) : Prop where
  strict : ∀ text bytes, lib.decode text = some bytes ↔ text = lib.encode bytes
  alphabet : ∀ bytes, '.' ∉ (lib.encode bytes).toList
  json : ∀ state, ∃ payload, lib.stateToVec state = .ok payload ∧ lib.stateFromSlice payload = some state

/-- The token with this payload. -/
def StateSigner.tokenOf (lib : Crates) (s : StateSigner) (payload : Bytes) : String :=
  lib.encode payload ++ "." ++ lib.encode (lib.hmacSha256 s.key payload)

/-- The payload that a token carries. -/
def Crates.payload? (lib : Crates) (token : String) : Option Bytes :=
  (Text.splitOnce token '.').bind fun (payloadB64, _) => lib.decode payloadB64

theorem tokenOf_eq (payload : Bytes) : s.tokenOf lib payload =
    lib.encode payload ++ String.singleton '.' ++ lib.encode (lib.hmacSha256 s.key payload) := by
  rw [StateSigner.tokenOf, show String.singleton '.' = "." by decide]

theorem splitOnce_tokenOf (h : lib.Strict) (payload : Bytes) :
    Text.splitOnce (s.tokenOf lib payload) '.' =
      some (lib.encode payload, lib.encode (lib.hmacSha256 s.key payload)) := by
  rw [tokenOf_eq]
  exact Text.splitOnce_append (h.alphabet payload)

theorem StateSigner.binding_tokenOf (h : lib.Strict) {payload : Bytes}
    (hjson : lib.stateFromSlice payload = some state) :
    s.binding lib (s.tokenOf lib payload) = .ok state := by
  have hpayload : lib.decode (lib.encode payload) = some payload := (h.strict _ _).mpr rfl
  have hmac : lib.decode (lib.encode (lib.hmacSha256 s.key payload)) = some (lib.hmacSha256 s.key payload) :=
    (h.strict _ _).mpr rfl
  simp only [binding, splitOnce_tokenOf h, hpayload, hmac, hjson]
  rw [if_neg (by simp)]
  rfl

theorem StateSigner.Authentic.eq_tokenOf (h : lib.Strict) (ha : s.Authentic lib token state) :
    ∃ payload, token = s.tokenOf lib payload ∧ lib.stateFromSlice payload = some state := by
  obtain ⟨payloadB64, macB64, payload, hsplit, hpayload, hmac, hjson⟩ := ha.signed
  refine ⟨payload, ?_, hjson⟩
  obtain rfl := (h.strict _ _).mp hpayload
  obtain rfl := (h.strict _ _).mp hmac
  rw [tokenOf_eq]
  exact Text.eq_of_splitOnce hsplit

theorem StateSigner.binding_iff (h : lib.Strict) : s.binding lib token = .ok state ↔
    ∃ payload, token = s.tokenOf lib payload ∧ lib.stateFromSlice payload = some state := by
  constructor
  · exact fun hb => (authentic_of_binding hb).eq_tokenOf h
  · rintro ⟨payload, rfl, hjson⟩
    exact binding_tokenOf h hjson

/-- **The format of the state token is exact**: what verifies, that a minted token does, and that its
payload is all that tells an accepted token from another one. -/
theorem state_token_exact (h : lib.Strict) (s : StateSigner) :
    (∀ token now state, s.verify lib now token = .ok state ↔
      ∃ payload, token = lib.encode payload ++ "." ++ lib.encode (lib.hmacSha256 s.key payload) ∧
        lib.stateFromSlice payload = some state ∧ timestamp now < state.exp) ∧
    (∀ state now, timestamp now < state.exp →
      ∃ token, s.mint lib state = .ok token ∧ s.verify lib now token = .ok state) ∧
    ∀ token token' now now' state state', s.verify lib now token = .ok state →
      s.verify lib now' token' = .ok state' → lib.payload? token = lib.payload? token' →
      token = token' := by
  refine ⟨fun token now state => ?_, fun state now hlive => ?_, ?_⟩
  · rw [StateSigner.verify_ok, StateSigner.binding_iff h]
    constructor
    · rintro ⟨⟨payload, htoken, hjson⟩, hlive⟩
      exact ⟨payload, htoken, hjson, hlive⟩
    · rintro ⟨payload, htoken, hjson, hlive⟩
      exact ⟨⟨payload, htoken, hjson⟩, hlive⟩
  · obtain ⟨payload, hvec, hjson⟩ := h.json state
    refine ⟨s.tokenOf lib payload, ?_, ?_⟩
    · rw [StateSigner.mint, hvec]
      rfl
    · exact StateSigner.verify_ok.mpr ⟨StateSigner.binding_tokenOf h hjson, hlive⟩
  · intro token token' now now' state state' hv hv' heq
    obtain ⟨payload, rfl, -⟩ := (StateSigner.binding_iff h).mp (StateSigner.verify_ok.mp hv).1
    obtain ⟨payload', rfl, -⟩ := (StateSigner.binding_iff h).mp (StateSigner.verify_ok.mp hv').1
    simp only [Crates.payload?, splitOnce_tokenOf h, Option.bind_some, (h.strict _ _).mpr rfl,
      Option.some.injEq] at heq
    rw [heq]

/-! ## The token of the mailbox -/

instance : Encodable OAuthState :=
  .ofLeftInjection (fun s => (s.accountId, s.provider.toList.map Char.toNat, s.nonce.toList.map Char.toNat,
      s.exp))
    (fun (i, p, n, e) => some ⟨i, String.ofList (p.map Char.ofNat), String.ofList (n.map Char.ofNat), e⟩)
    fun s => by simp [Function.comp_def]

/-- base64url in full, and for each state but `mailState` some bytes in place of its JSON. -/
def tokenCrates : Crates :=
  { mailCrates with
    encode := Codec.Base64Url.encode
    decode := Codec.Base64Url.decode
    stateToVec := fun s =>
      .ok (if s = mailState then mailPayload else List.replicate (Encodable.encode s) 0)
    stateFromSlice := fun b => if b = mailPayload then some mailState else Encodable.decode b.length }

theorem tokenCrates_strict : tokenCrates.Strict where
  strict _ _ := Codec.Base64Url.decode_eq_some_iff
  alphabet := Codec.Base64Url.dot_notMem_encode
  json state := by
    refine ⟨_, rfl, ?_⟩
    change (if (if state = mailState then mailPayload else _) = mailPayload
      then some mailState else _) = some state
    by_cases hstate : state = mailState
    · rw [if_pos hstate, if_pos rfl, hstate]
    · rw [if_neg hstate]
      have hne : List.replicate (Encodable.encode state) 0 ≠ mailPayload := by
        intro heq
        have hm : (123 : UInt8) ∈ mailPayload := by decide
        rw [← heq] at hm
        exact absurd (List.eq_of_mem_replicate hm) (by decide)
      rw [if_neg hne, List.length_replicate, Encodable.encodek]

theorem state_token_exact_mailbox :
    mailService.signer.verify tokenCrates 0 mailToken = .ok mailState ∧
      ∃ token, mailService.signer.mint tokenCrates mailState = .ok token ∧
        mailService.signer.verify tokenCrates 0 token = .ok mailState := by
  have hexact := state_token_exact tokenCrates_strict mailService.signer
  refine ⟨(hexact.1 mailToken 0 mailState).mpr ⟨mailPayload, ?_, ?_, by decide⟩,
    hexact.2.1 mailState 0 (by decide)⟩
  · decide +kernel
  · change (if mailPayload = mailPayload then some mailState else
      (Encodable.decode mailPayload.length : Option OAuthState)) = some mailState
    exact if_pos rfl

end BackboneIntegrations.OAuth
