import BackboneIntegrations.Codec.Utf8

/-!
# Percent-encoded forms

The serializer of `application/x-www-form-urlencoded`, over the set of bytes it leaves alone.
-/

namespace Codec.Percent

open Codec.Utf8

def isAlphanumeric (b : UInt8) : Bool :=
  (0x30 ≤ b && b ≤ 0x39) || (0x41 ≤ b && b ≤ 0x5A) || (0x61 ≤ b && b ≤ 0x7A)

/-- The marks `*-._~`. The form standard leaves out the last one, RFC 3986 the first one. -/
def marks : List UInt8 := [0x2A, 0x2D, 0x2E, 0x5F, 0x7E]

/-- `keep` is a set of unreserved bytes: the letters and digits, and beyond them only marks. -/
structure Unreserved (keep : UInt8 → Bool) : Prop where
  alphanumeric : ∀ b, isAlphanumeric b → keep b
  only : ∀ b, keep b → isAlphanumeric b ∨ b ∈ marks

def hexDigit (n : Nat) : UInt8 := UInt8.ofNat (if n < 10 then 0x30 + n else 0x37 + n)

def encodeByte (keep : UInt8 → Bool) (b : UInt8) : List UInt8 :=
  if b = 0x20 then [0x2B]
  else if keep b then [b]
  else [0x25, hexDigit (b.toNat / 16), hexDigit (b.toNat % 16)]

def encode (keep : UInt8 → Bool) (s : String) : String :=
  String.ofList (((bytes s).flatMap (encodeByte keep)).map ascii)

def serialize (keep : UInt8 → Bool) (pairs : List (String × String)) : String :=
  "&".intercalate (pairs.map fun (name, value) => encode keep name ++ "=" ++ encode keep value)

/-- The form standard's set. -/
def formSet (b : UInt8) : Bool := isAlphanumeric b || b == 0x2A || b == 0x2D || b == 0x2E || b == 0x5F

theorem formSet_unreserved : Unreserved formSet where
  alphanumeric := by
    intro b hb
    simp [formSet, hb]
  only := by
    intro b hb
    simp only [formSet, Bool.or_eq_true, beq_iff_eq] at hb
    simp only [marks, List.mem_cons]
    tauto

example : serialize formSet [("code", "4/0 é"), ("state", "a.b")] = "code=4%2F0+%C3%A9&state=a.b" := by
  decide

/-- A byte of an encoded text: plain, and none of the bytes that structure a form. -/
def Safe (b : UInt8) : Prop := b < 0x80 ∧ b ≠ 0x26 ∧ b ≠ 0x3D

theorem hexDigit_safe {n : Nat} (h : n < 16) : Safe (hexDigit n) := by
  have hall : ∀ n < 16, hexDigit n < 0x80 ∧ hexDigit n ≠ 0x26 ∧ hexDigit n ≠ 0x3D := by decide
  exact hall n h

theorem safe_of_unreserved {b : UInt8} (h : isAlphanumeric b ∨ b ∈ marks) : Safe b := by
  unfold Safe
  simp only [isAlphanumeric, marks, List.mem_cons, List.not_mem_nil, or_false, Bool.or_eq_true,
    Bool.and_eq_true, decide_eq_true_eq, UInt8.le_iff_toNat_le, UInt8.lt_iff_toNat_lt,
    ← UInt8.toNat_inj, ne_eq] at h ⊢
  simp at h ⊢
  omega

variable {keep : UInt8 → Bool}

theorem encodeByte_safe (hkeep : Unreserved keep) (b : UInt8) : ∀ x ∈ encodeByte keep b, Safe x := by
  unfold encodeByte
  have hb := b.toNat_lt
  split
  · simp [Safe]
  · split
    · rename_i hb
      simpa using safe_of_unreserved (hkeep.only b hb)
    · have hhi := hexDigit_safe (n := b.toNat / 16) (by omega)
      have hlo := hexDigit_safe (n := b.toNat % 16) (by omega)
      simp [hhi, hlo]
      simp [Safe]

theorem encoded_safe (hkeep : Unreserved keep) (bs : List UInt8) :
    ∀ x ∈ bs.flatMap (encodeByte keep), Safe x := by
  intro x hx
  obtain ⟨b, -, hb⟩ := List.mem_flatMap.1 hx
  exact encodeByte_safe hkeep b x hb

theorem bytes_encode (hkeep : Unreserved keep) (s : String) :
    bytes (encode keep s) = (bytes s).flatMap (encodeByte keep) :=
  bytes_ascii fun x hx => (encoded_safe hkeep _ x hx).1

theorem notMem_encode (hkeep : Unreserved keep) (s : String) {c : Char} {b : UInt8}
    (hc : String.utf8EncodeChar c = [b]) (hb : ¬ Safe b) : c ∉ (encode keep s).toList := by
  rw [encode, String.toList_ofList]
  intro hmem
  obtain ⟨x, hx, rfl⟩ := List.mem_map.1 hmem
  have hsafe := encoded_safe hkeep _ x hx
  rw [encode_ascii hsafe.1] at hc
  exact hb (List.singleton_inj.1 hc ▸ hsafe)

theorem amp_notMem_encode (hkeep : Unreserved keep) (s : String) : '&' ∉ (encode keep s).toList :=
  notMem_encode hkeep s (b := 0x26) (by decide) (by simp [Safe])

theorem eq_notMem_encode (hkeep : Unreserved keep) (s : String) : '=' ∉ (encode keep s).toList :=
  notMem_encode hkeep s (b := 0x3D) (by decide) (by simp [Safe])

theorem splitOn_serialize (hkeep : Unreserved keep) {pairs : List (String × String)}
    (hne : pairs ≠ []) :
    ((serialize keep pairs).toList.splitOn '&').map String.ofList =
      pairs.map fun (name, value) => encode keep name ++ "=" ++ encode keep value := by
  unfold serialize
  rw [String.toList_intercalate]
  have hamp : "&".toList = ['&'] := rfl
  rw [hamp, List.splitOn_intercalate]
  · simp [String.append_assoc]
  · intro l hl
    simp only [List.mem_map] at hl
    obtain ⟨-, ⟨⟨name, value⟩, -, rfl⟩, rfl⟩ := hl
    simp [String.toList_append, amp_notMem_encode hkeep]
  · simpa using hne

end Codec.Percent
