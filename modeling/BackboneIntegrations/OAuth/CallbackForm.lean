import BackboneIntegrations.Codec.Percent
import BackboneIntegrations.OAuth.Service

/-!
# The form that the callback page posts

The hand-written decoder undoes every form serializer.
-/

namespace BackboneIntegrations.OAuth

open Codec.Utf8 Codec.Percent
open IntegrationsOauthService

/-! ## The decoder -/

def toAsciiUppercase (b : UInt8) : UInt8 := if 0x61 ≤ b && b ≤ 0x7A then b - 0x20 else b

/-- The `digit` closure of `decode_hex_pair`. -/
def hexValue (b : UInt8) : Option UInt8 :=
  if 0x30 ≤ b && b ≤ 0x39 then some (b - 0x30)
  else if 0x41 ≤ b && b ≤ 0x46 then some (b - 0x41 + 10)
  else none

def decodeHexPair : List UInt8 → Option UInt8
  | [hi, lo] => do
    let hi ← hexValue (toAsciiUppercase hi)
    let lo ← hexValue (toAsciiUppercase lo)
    return hi * 16 + lo
  | _ => none

/-- What the loop of `percent_decode` pushes after the next `skip` bytes. -/
def percentDecodeFrom : Nat → List UInt8 → List UInt8
  | _, [] => []
  | skip + 1, _ :: rest => percentDecodeFrom skip rest
  | 0, b :: rest =>
    if b = 0x2B then 0x20 :: percentDecodeFrom 0 rest
    else if b = 0x25 then
      match decodeHexPair (rest.take 2) with
      | some byte => byte :: percentDecodeFrom 2 rest
      -- Truncated or non-hex escape: the byte stays as it is.
      | none => 0x25 :: percentDecodeFrom 0 rest
    else b :: percentDecodeFrom 0 rest

def percentDecode (input : String) : String := fromUtf8Lossy (percentDecodeFrom 0 (bytes input))

example : percentDecode "caf%C3%A9+%2z" = "café %2z" := by decide

/-- One step of the loop over the pairs: the last `code` and the last `state` so far. -/
def formFields : List String → Option String × Option String → Option (Option String × Option String)
  | [], found => some found
  | pair :: rest, (code, state) =>
    match Text.splitOnce pair '=' with
    | none => none
    | some (key, value) =>
      let decoded := percentDecode value
      if key = "code" then formFields rest (some decoded, state)
      else if key = "state" then formFields rest (code, some decoded)
      else formFields rest (code, state)

def parseFormComplete (body : ByteArray) : Option CompleteRequest := do
  let text ← String.fromUTF8? body
  let (code, state) ← formFields ((text.toList.splitOn '&').map String.ofList) (none, none)
  let code ← code.filter (· ≠ "")
  let state ← state.filter (· ≠ "")
  return ⟨code, state⟩

/-! ## One text -/

variable {keep : UInt8 → Bool}

theorem hexValue_hexDigit {n : Nat} (h : n < 16) :
    hexValue (toAsciiUppercase (hexDigit n)) = some (UInt8.ofNat n) := by
  have hall : ∀ n < 16, hexValue (toAsciiUppercase (hexDigit n)) = some (UInt8.ofNat n) := by decide
  exact hall n h

theorem decodeHexPair_hexDigit (b : UInt8) :
    decodeHexPair [hexDigit (b.toNat / 16), hexDigit (b.toNat % 16)] = some b := by
  have hb := b.toNat_lt
  simp only [decodeHexPair]
  rw [hexValue_hexDigit (by omega), hexValue_hexDigit (by omega)]
  apply congrArg some
  rw [← UInt8.toNat_inj]
  simp
  omega

theorem percentDecodeFrom_encodeByte (hkeep : Unreserved keep) (b : UInt8) (rest : List UInt8) :
    percentDecodeFrom 0 (encodeByte keep b ++ rest) = b :: percentDecodeFrom 0 rest := by
  unfold encodeByte
  split
  · rename_i hb
    rw [hb]
    rfl
  · split
    · rename_i hb
      have hmark := hkeep.only b hb
      have hplus : b ≠ 0x2B := by
        rintro rfl
        revert hmark
        decide
      have hpercent : b ≠ 0x25 := by
        rintro rfl
        revert hmark
        decide
      rw [List.singleton_append, percentDecodeFrom, if_neg hplus, if_neg hpercent]
    · simp [percentDecodeFrom, decodeHexPair_hexDigit]

theorem percentDecode_encode (hkeep : Unreserved keep) (s : String) :
    percentDecode (encode keep s) = s := by
  have hbytes : ∀ bs : List UInt8, percentDecodeFrom 0 (bs.flatMap (encodeByte keep)) = bs := by
    intro bs
    induction bs with
    | nil => rfl
    | cons b bs ih => rw [List.flatMap_cons, percentDecodeFrom_encodeByte hkeep, ih]
  rw [percentDecode, bytes_encode hkeep, hbytes, fromUtf8Lossy_bytes]

theorem encode_eq_iff (hkeep : Unreserved keep) {name field : String} (hfield : encode keep field = field) :
    encode keep name = field ↔ name = field := by
  constructor
  · intro h
    calc name = percentDecode (encode keep name) := (percentDecode_encode hkeep name).symm
      _ = percentDecode (encode keep field) := by rw [h, hfield]
      _ = field := percentDecode_encode hkeep field
  · rintro rfl
    exact hfield

theorem encode_letters (hkeep : Unreserved keep) {s : String} (hascii : (bytes s).map ascii = s.toList)
    (hletters : ∀ b ∈ bytes s, isAlphanumeric b) : encode keep s = s := by
  have hbyte : ∀ b ∈ bytes s, encodeByte keep b = [b] := by
    intro b hb
    have hspace : b ≠ 0x20 := by
      rintro rfl
      exact absurd (hletters _ hb) (by decide)
    rw [encodeByte, if_neg hspace, if_pos (hkeep.alphanumeric b (hletters b hb))]
  rw [encode, List.flatMap_congr hbyte, List.flatMap_singleton', hascii, String.ofList_toList]

theorem encode_code (hkeep : Unreserved keep) : encode keep "code" = "code" :=
  encode_letters hkeep (by decide +kernel) (by decide +kernel)

theorem encode_state (hkeep : Unreserved keep) : encode keep "state" = "state" :=
  encode_letters hkeep (by decide +kernel) (by decide +kernel)

/-! ## The whole form -/

/-- The value of the last pair of that name. -/
def lastValue (field : String) : List (String × String) → Option String
  | [] => none
  | (name, value) :: pairs => (lastValue field pairs).or (if name = field then some value else none)

theorem formFields_serialized (hkeep : Unreserved keep) (pairs : List (String × String)) :
    ∀ found, formFields (pairs.map fun (name, value) => encode keep name ++ "=" ++ encode keep value) found =
      some ((lastValue "code" pairs).or found.1, (lastValue "state" pairs).or found.2) := by
  induction pairs with
  | nil =>
    rintro ⟨code, state⟩
    rfl
  | cons pair pairs ih =>
    rintro ⟨code, state⟩
    obtain ⟨name, value⟩ := pair
    have hsplit : Text.splitOnce (encode keep name ++ "=" ++ encode keep value) '=' =
        some (encode keep name, encode keep value) := by
      rw [show "=" = String.singleton '=' by decide]
      exact Text.splitOnce_append (eq_notMem_encode hkeep name)
    simp only [List.map_cons, formFields, hsplit, percentDecode_encode hkeep,
      encode_eq_iff hkeep (encode_code hkeep), encode_eq_iff hkeep (encode_state hkeep), ih, lastValue]
    by_cases hcode : name = "code"
    · have hstate : name ≠ "state" := by
        rw [hcode]
        decide
      simp only [if_pos hcode, if_neg hstate, Option.or_assoc, Option.none_or, Option.some_or]
    · by_cases hstate : name = "state"
      · simp only [if_neg hcode, if_pos hstate, Option.or_assoc, Option.none_or, Option.some_or]
      · simp only [if_neg hcode, if_neg hstate, Option.or_assoc, Option.none_or]

theorem fromUTF8_toUTF8 (s : String) : String.fromUTF8? s.toUTF8 = some s := by
  rw [String.fromUTF8?, String.toUTF8_eq_toByteArray, dif_pos s.isValidUTF8]
  rfl

/-- The handler reads the last code and the last state out of a serialized form, and nothing when
one of them is absent or empty. -/
theorem form_round_trip (hkeep : Unreserved keep) (pairs : List (String × String))
    (request : CompleteRequest) :
    parseFormComplete (serialize keep pairs).toUTF8 = some request ↔
      lastValue "code" pairs = some request.code ∧ lastValue "state" pairs = some request.state ∧
        request.code ≠ "" ∧ request.state ≠ "" := by
  have hfields : formFields (((serialize keep pairs).toList.splitOn '&').map String.ofList) (none, none) =
      if pairs = [] then none else some (lastValue "code" pairs, lastValue "state" pairs) := by
    split
    · rename_i hnil
      subst hnil
      rfl
    · rename_i hne
      rw [splitOn_serialize hkeep hne, formFields_serialized hkeep, Option.or_none, Option.or_none]
  unfold parseFormComplete
  rw [fromUTF8_toUTF8]
  simp only [Option.bind_eq_bind, Option.bind_some, hfields]
  split
  · rename_i hnil
    subst hnil
    simp [lastValue]
  · simp only [Option.bind_some, Option.bind_eq_some_iff, Option.filter_eq_some_iff, decide_eq_true_eq,
      Option.pure_def, Option.some.injEq]
    constructor
    · rintro ⟨code, ⟨hcode, hcode'⟩, state, ⟨hstate, hstate'⟩, rfl⟩
      exact ⟨hcode, hstate, hcode', hstate'⟩
    · rintro ⟨hcode, hstate, hcode', hstate'⟩
      exact ⟨request.code, ⟨hcode, hcode'⟩, request.state, ⟨hstate, hstate'⟩, rfl⟩

theorem form_round_trip_repeated :
    Unreserved formSet ∧
      parseFormComplete (serialize formSet
        [("é&=", "+%"), ("code", "x"), ("state", "abc.def"), ("code", "4/0 é")]).toUTF8 =
          some ⟨"4/0 é", "abc.def"⟩ :=
  ⟨formSet_unreserved, (form_round_trip formSet_unreserved _ _).2 (by decide)⟩

end BackboneIntegrations.OAuth
