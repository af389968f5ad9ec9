import Mathlib.Data.List.Basic

/-!
# UTF-8 text and its bytes

The lossy conversion of Rust's `String::from_utf8_lossy`, over the decoder of Lean's own strings.
-/

namespace Codec.Utf8

def bytes (s : String) : List UInt8 := s.toList.flatMap String.utf8EncodeChar

/-- The character that the bytes begin with. -/
def first (bs : List UInt8) : Option Char := bs.toByteArray.utf8DecodeChar? 0

def isContinuation (b : UInt8) : Bool := 0x80 ≤ b && b ≤ 0xBF

/-- The second byte may follow the first one. -/
def follows (b0 b1 : UInt8) : Bool :=
  (0xC2 ≤ b0 && b0 ≤ 0xF4) && isContinuation b1 && (b0 != 0xE0 || 0xA0 ≤ b1)
    && (b0 != 0xED || b1 ≤ 0x9F) && (b0 != 0xF0 || 0x90 ≤ b1) && (b0 != 0xF4 || b1 ≤ 0x8F)

/-- The length of the longest beginning of a character, where none is whole. At least one byte. -/
def brokenLen : List UInt8 → Nat
  | b0 :: b1 :: b2 :: _ =>
    if follows b0 b1 then (if 0xF0 ≤ b0 && isContinuation b2 then 3 else 2) else 1
  | [b0, b1] => if follows b0 b1 then 2 else 1
  | _ => 1

/-- The next character and the bytes it takes. A broken one becomes U+FFFD. -/
def next (bs : List UInt8) : Char × Nat :=
  match first bs with
  | some c => (c, c.utf8Size)
  | none => ('\uFFFD', brokenLen bs)

/-- The characters after the first `skip` bytes. -/
def lossyChars : Nat → List UInt8 → List Char
  | _, [] => []
  | skip + 1, _ :: bs => lossyChars skip bs
  | 0, b :: bs => (next (b :: bs)).1 :: lossyChars ((next (b :: bs)).2 - 1) bs

def fromUtf8Lossy (bs : List UInt8) : String := String.ofList (lossyChars 0 bs)

example : fromUtf8Lossy [0x61, 0xE2, 0x82, 0x41, 0xFF] = "a\uFFFDA\uFFFD" := by decide

theorem first_encode (c : Char) (rest : List UInt8) :
    first (String.utf8EncodeChar c ++ rest) = some c := by
  unfold first
  rw [List.toByteArray_append]
  exact ByteArray.utf8DecodeChar?_utf8EncodeChar_append

theorem lossyChars_skip (pre bs : List UInt8) : lossyChars pre.length (pre ++ bs) = lossyChars 0 bs := by
  induction pre with
  | nil => rfl
  | cons b pre ih => exact ih

theorem lossyChars_encode (c : Char) (rest : List UInt8) :
    lossyChars 0 (String.utf8EncodeChar c ++ rest) = c :: lossyChars 0 rest := by
  have hnext : next (String.utf8EncodeChar c ++ rest) = (c, (String.utf8EncodeChar c).length) := by
    rw [next, first_encode, String.length_utf8EncodeChar]
  cases hc : String.utf8EncodeChar c with
  | nil => exact absurd hc String.utf8EncodeChar_ne_nil
  | cons b pre =>
    rw [hc] at hnext
    rw [List.cons_append, lossyChars, ← List.cons_append, hnext]
    simp only [List.length_cons, Nat.add_sub_cancel, lossyChars_skip]

theorem fromUtf8Lossy_bytes (s : String) : fromUtf8Lossy (bytes s) = s := by
  have hchars : ∀ cs : List Char, lossyChars 0 (cs.flatMap String.utf8EncodeChar) = cs := by
    intro cs
    induction cs with
    | nil => rfl
    | cons c cs ih => rw [List.flatMap_cons, lossyChars_encode, ih]
  rw [fromUtf8Lossy, bytes, hchars, String.ofList_toList]

/-! ## ASCII -/

/-- The character of an ASCII byte. -/
def ascii (b : UInt8) : Char := Char.ofNat b.toNat

theorem encode_ascii {b : UInt8} (h : b < 0x80) : String.utf8EncodeChar (ascii b) = [b] := by
  have hall : ∀ n < 0x80, String.utf8EncodeChar (Char.ofNat n) = [UInt8.ofNat n] := by decide
  rw [ascii, hall _ (UInt8.lt_iff_toNat_lt.1 h), UInt8.ofNat_toNat]

theorem bytes_ascii {bs : List UInt8} (h : ∀ b ∈ bs, b < 0x80) :
    bytes (String.ofList (bs.map ascii)) = bs := by
  unfold bytes
  rw [String.toList_ofList]
  induction bs with
  | nil => rfl
  | cons b bs ih =>
    rw [List.map_cons, List.flatMap_cons, encode_ascii (h b List.mem_cons_self),
      ih fun b' hb' => h b' (List.mem_cons_of_mem b hb')]
    rfl

end Codec.Utf8
