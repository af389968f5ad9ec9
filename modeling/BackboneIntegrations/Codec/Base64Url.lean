import Mathlib.Data.List.Basic

/-!
# Unpadded base64url

The strict codec: a text decodes exactly when it is the encoding of some bytes.
-/

namespace Codec.Base64Url

/-! ## Digits -/

/-- The digit of a number below 64. -/
def digit (n : Nat) : Char :=
  if n < 26 then Char.ofNat (n + 65)
  else if n < 52 then Char.ofNat (n + 71)
  else if n < 62 then Char.ofNat (n - 4)
  else if n = 62 then '-'
  else '_'

def value (c : Char) : Option Nat :=
  if 65 ≤ c.toNat ∧ c.toNat ≤ 90 then some (c.toNat - 65)
  else if 97 ≤ c.toNat ∧ c.toNat ≤ 122 then some (c.toNat - 71)
  else if 48 ≤ c.toNat ∧ c.toNat ≤ 57 then some (c.toNat + 4)
  else if c = '-' then some 62
  else if c = '_' then some 63
  else none

theorem value_digit {n : Nat} (h : n < 64) : value (digit n) = some n := by
  have hall : ∀ n < 64, value (digit n) = some n := by decide
  exact hall n h

theorem digit_ne {n : Nat} (h : n < 64) : digit n ≠ '.' := by
  have hall : ∀ n < 64, digit n ≠ '.' := by decide
  exact hall n h

theorem digit_of_value {c : Char} {n : Nat} (h : value c = some n) : n < 64 ∧ digit n = c := by
  unfold value at h
  split at h
  · simp only [Option.some.injEq] at h
    refine ⟨by omega, ?_⟩
    rw [digit, if_pos (by omega), show n + 65 = c.toNat by omega, Char.ofNat_toNat]
  split at h
  · simp only [Option.some.injEq] at h
    refine ⟨by omega, ?_⟩
    rw [digit, if_neg (by omega), if_pos (by omega), show n + 71 = c.toNat by omega, Char.ofNat_toNat]
  split at h
  · simp only [Option.some.injEq] at h
    refine ⟨by omega, ?_⟩
    rw [digit, if_neg (by omega), if_neg (by omega), if_pos (by omega),
      show n - 4 = c.toNat by omega, Char.ofNat_toNat]
  split at h
  · cases h
    subst_vars
    decide
  split at h
  · cases h
    subst_vars
    decide
  · cases h

/-! ## Groups -/

/-- The sextets of bytes, three bytes to a group. -/
def sextets : List UInt8 → List Nat
  | [] => []
  | [a] => [a.toNat / 4, a.toNat % 4 * 16]
  | [a, b] => [a.toNat / 4, a.toNat % 4 * 16 + b.toNat / 16, b.toNat % 16 * 4]
  | a :: b :: c :: rest =>
    [a.toNat / 4, a.toNat % 4 * 16 + b.toNat / 16, b.toNat % 16 * 4 + c.toNat / 64, c.toNat % 64] ++
      sextets rest

/-- The bytes of sextets. The bits behind the last byte have to be zero. -/
def octets : List Nat → Option (List UInt8)
  | [] => some []
  | [_] => none
  | [x, y] => if y % 16 = 0 then some [UInt8.ofNat (x * 4 + y / 16)] else none
  | [x, y, z] =>
    if z % 4 = 0 then some [UInt8.ofNat (x * 4 + y / 16), UInt8.ofNat (y % 16 * 16 + z / 4)] else none
  | x :: y :: z :: w :: rest =>
    (octets rest).map ([UInt8.ofNat (x * 4 + y / 16), UInt8.ofNat (y % 16 * 16 + z / 4),
      UInt8.ofNat (z % 4 * 64 + w)] ++ ·)

theorem sextets_lt (bs : List UInt8) : ∀ n ∈ sextets bs, n < 64 := by
  fun_induction sextets bs with
  | case1 => simp
  | case2 a =>
    have := a.toNat_lt
    simp
    omega
  | case3 a b =>
    have := a.toNat_lt
    have := b.toNat_lt
    simp
    omega
  | case4 a b c rest ih =>
    have := a.toNat_lt
    have := b.toNat_lt
    have := c.toNat_lt
    simp only [List.cons_append, List.nil_append, List.forall_mem_cons]
    exact ⟨by omega, by omega, by omega, by omega, ih⟩

theorem ofNat_eq {n : Nat} {a : UInt8} (h : n = a.toNat) : UInt8.ofNat n = a := by
  rw [h, UInt8.ofNat_toNat]

theorem octets_sextets (bs : List UInt8) : octets (sextets bs) = some bs := by
  fun_induction sextets bs with
  | case1 => rfl
  | case2 a =>
    have := a.toNat_lt
    rw [octets, if_pos (by omega), ofNat_eq (a := a) (by omega)]
  | case3 a b =>
    have := a.toNat_lt
    have := b.toNat_lt
    rw [octets, if_pos (by omega), ofNat_eq (a := a) (by omega), ofNat_eq (a := b) (by omega)]
  | case4 a b c rest ih =>
    have := a.toNat_lt
    have := b.toNat_lt
    have := c.toNat_lt
    simp only [List.cons_append, List.nil_append, octets, ih, Option.map_some]
    rw [ofNat_eq (a := a) (by omega), ofNat_eq (a := b) (by omega), ofNat_eq (a := c) (by omega)]

theorem toNat_ofNat {n : Nat} (h : n < 256) : (UInt8.ofNat n).toNat = n := by
  rw [UInt8.toNat_ofNat']
  omega

theorem sextets_octets {xs : List Nat} {bs : List UInt8} (hx : ∀ n ∈ xs, n < 64)
    (h : octets xs = some bs) : sextets bs = xs := by
  fun_induction octets xs generalizing bs with
  | case1 =>
    cases h
    rfl
  | case2 => cases h
  | case3 x y hy =>
    cases h
    simp only [List.forall_mem_cons] at hx
    rw [sextets, toNat_ofNat (by omega)]
    congr 2 <;> omega
  | case4 => cases h
  | case5 x y z hz =>
    cases h
    simp only [List.forall_mem_cons] at hx
    rw [sextets, toNat_ofNat (by omega), toNat_ofNat (by omega)]
    congr 3 <;> omega
  | case6 => cases h
  | case7 x y z w rest ih =>
    simp only [List.forall_mem_cons] at hx
    obtain ⟨bs', hbs', rfl⟩ := Option.map_eq_some_iff.mp h
    simp only [List.cons_append, List.nil_append, sextets]
    rw [toNat_ofNat (by omega), toNat_ofNat (by omega), toNat_ofNat (by omega),
      ih hx.2.2.2.2 hbs']
    congr 4 <;> omega

/-! ## Texts -/

def encode (bs : List UInt8) : String := String.ofList ((sextets bs).map digit)

def decode (s : String) : Option (List UInt8) := (s.toList.mapM value).bind octets

theorem mapM_value_eq_some {cs : List Char} {ns : List Nat} :
    cs.mapM value = some ns ↔ cs = ns.map digit ∧ ∀ n ∈ ns, n < 64 := by
  induction cs generalizing ns with
  | nil => cases ns <;> simp
  | cons c cs ih =>
    simp only [List.mapM_cons, Option.bind_eq_bind, Option.pure_def, Option.bind_eq_some_iff]
    constructor
    · rintro ⟨n, hn, ns', hns', hcons⟩
      cases hcons
      obtain ⟨rfl, hlt⟩ := ih.mp hns'
      obtain ⟨hn64, rfl⟩ := digit_of_value hn
      exact ⟨rfl, List.forall_mem_cons.mpr ⟨hn64, hlt⟩⟩
    · rintro ⟨hmap, hlt⟩
      cases ns with
      | nil => cases hmap
      | cons n ns =>
        cases hmap
        obtain ⟨hn64, hlt⟩ := List.forall_mem_cons.mp hlt
        exact ⟨n, value_digit hn64, ns, ih.mpr ⟨rfl, hlt⟩, rfl⟩

/-- The codec is strict: only the encoding of some bytes decodes to them. -/
theorem decode_eq_some_iff {s : String} {bs : List UInt8} : decode s = some bs ↔ s = encode bs := by
  unfold decode encode
  rw [Option.bind_eq_some_iff]
  constructor
  · rintro ⟨ns, hns, hbs⟩
    obtain ⟨hmap, hlt⟩ := mapM_value_eq_some.mp hns
    rw [sextets_octets hlt hbs, ← hmap, String.ofList_toList]
  · rintro rfl
    rw [String.toList_ofList]
    exact ⟨sextets bs, mapM_value_eq_some.mpr ⟨rfl, sextets_lt bs⟩, octets_sextets bs⟩

theorem dot_notMem_encode (bs : List UInt8) : '.' ∉ (encode bs).toList := by
  rw [encode, String.toList_ofList]
  intro h
  obtain ⟨n, hn, heq⟩ := List.mem_map.mp h
  exact digit_ne (sextets_lt bs n hn) heq

example : encode [251, 255, 1] = "-_8B" := by decide
example : decode "-_8" = some [251, 255] ∧ decode "-_9" = none ∧ decode "-_8=" = none := by decide

end Codec.Base64Url
