import Mathlib.Data.List.Basic

/-!
# The string operations of Rust's `str`

Only the ones that the module uses, on the characters of a Lean `String`.
-/

namespace BackboneIntegrations.Text

/-- Unicode `White_Space`, the set of `char::is_whitespace`. -/
def isWhitespace (c : Char) : Bool :=
  let n := c.toNat
  (9 ≤ n && n ≤ 13) || n == 0x20 || n == 0x85 || n == 0xA0 || n == 0x1680 ||
    (0x2000 ≤ n && n ≤ 0x200A) || n == 0x2028 || n == 0x2029 || n == 0x202F || n == 0x205F ||
    n == 0x3000

/-- `str::trim`. -/
def trim (s : String) : String :=
  String.ofList ((s.toList.dropWhile isWhitespace).reverse.dropWhile isWhitespace).reverse

/-- `s.trim().is_empty()`. -/
def isBlank (s : String) : Bool := (trim s).toList.isEmpty

/-- `str::eq_ignore_ascii_case`. -/
def eqIgnoreAsciiCase (a b : String) : Bool :=
  a.toList.map Char.toLower == b.toList.map Char.toLower

/-- `str::to_ascii_lowercase`. -/
def toAsciiLowercase (s : String) : String := String.ofList (s.toList.map Char.toLower)

/-- `str::ends_with`. -/
def endsWith (s suffix : String) : Bool := suffix.toList.isSuffixOf s.toList

/-- `str::strip_prefix`. -/
def stripPrefix (s p : String) : Option String :=
  if p.toList.isPrefixOf s.toList then some (String.ofList (s.toList.drop p.toList.length)) else none

/-- `str::split_once` at a character. -/
def splitOnce (s : String) (sep : Char) : Option (String × String) :=
  match s.toList.dropWhile (· != sep) with
  | [] => none
  | _ :: rest => some (String.ofList (s.toList.takeWhile (· != sep)), String.ofList rest)

theorem splitOnce_append {a b : String} {sep : Char} (h : sep ∉ a.toList) :
    splitOnce (a ++ String.singleton sep ++ b) sep = some (a, b) := by
  have hne : ∀ c ∈ a.toList, (c != sep) = true := by
    intro c hc
    rw [bne_iff_ne]
    rintro rfl
    exact h hc
  have hchars : (a ++ String.singleton sep ++ b).toList = a.toList ++ sep :: b.toList := by
    simp [String.toList_append]
  have hdrop : (a.toList ++ sep :: b.toList).dropWhile (· != sep) = sep :: b.toList := by
    rw [List.dropWhile_append_of_pos hne]
    simp
  have htake : (a.toList ++ sep :: b.toList).takeWhile (· != sep) = a.toList := by
    rw [List.takeWhile_append_of_pos hne]
    simp
  simp only [splitOnce, hchars, hdrop, htake, String.ofList_toList]

theorem eq_of_splitOnce {s a b : String} {sep : Char} (h : splitOnce s sep = some (a, b)) :
    s = a ++ String.singleton sep ++ b := by
  unfold splitOnce at h
  split at h
  · cases h
  · rename_i c rest hdrop
    cases h
    have hc : c = sep := by
      have := List.head_dropWhile_not (· != sep) (l := s.toList) (by simp [hdrop])
      simpa [hdrop] using this
    have hsplit := List.takeWhile_append_dropWhile (p := (· != sep)) (l := s.toList)
    rw [hdrop, hc] at hsplit
    rw [← String.toList_inj]
    simp [String.toList_append, hsplit]

/-- `str::trim_end_matches` of a character. -/
def trimEndMatches (s : String) (c : Char) : String :=
  String.ofList (s.toList.reverse.dropWhile (· == c)).reverse

/-- `char::is_control`, the category Cc. -/
def isControl (c : Char) : Bool := c.toNat < 0x20 || (0x7F ≤ c.toNat && c.toNat < 0xA0)

/-- One character of `{:?}`: Rust's `char::escape_debug_ext`. `unprintable` is the lookup in the Unicode
tables: a character that does not print, or one that extends a grapheme. -/
def escapeDebug (unprintable : Char → Bool) (c : Char) : List Char :=
  if c == '\x00' then ['\\', '0']
  else if c == '\t' then ['\\', 't']
  else if c == '\r' then ['\\', 'r']
  else if c == '\n' then ['\\', 'n']
  else if c == '"' then ['\\', '"']
  else if c == '\\' then ['\\', '\\']
  else if unprintable c then ['\\', 'u', '\x7b'] ++ Nat.toDigits 16 c.toNat ++ ['\x7d']
  else [c]

/-- `format!("{:?}", s)` of a `str`. -/
def debug (unprintable : Char → Bool) (s : String) : String :=
  String.ofList ('"' :: s.toList.flatMap (escapeDebug unprintable) ++ ['"'])

theorem isWhitespace_toLower (c : Char) : isWhitespace c.toLower = isWhitespace c := by
  unfold Char.toLower
  split
  · rename_i h
    have hlow : 65 ≤ c.toNat := h.1
    have hhigh : c.toNat ≤ 90 := h.2
    have hval : (c.val + ('a'.val - 'A'.val)).toNat = c.toNat + 32 := by
      rw [UInt32.toNat_add]
      change (c.toNat + 32) % 2 ^ 32 = c.toNat + 32
      omega
    simp only [isWhitespace, Char.toNat, hval]
    simp only [Char.toNat] at hlow hhigh ⊢
    grind
  · rfl

theorem eqIgnoreAsciiCase_iff {a b : String} :
    eqIgnoreAsciiCase a b ↔ toAsciiLowercase a = toAsciiLowercase b := by
  simp [eqIgnoreAsciiCase, toAsciiLowercase, ← String.toList_inj]

theorem dropWhile_of_forall {p : Char → Bool} {l : List Char} (h : ∀ c ∈ l, p c = false) :
    l.dropWhile p = l := by
  cases l with
  | nil => rfl
  | cons c cs => rw [List.dropWhile_cons_of_neg (by simp [h])]

theorem trim_eq_self {s : String} (h : ∀ c ∈ s.toList, isWhitespace c = false) : trim s = s := by
  rw [trim, dropWhile_of_forall h, dropWhile_of_forall (by simpa using h), List.reverse_reverse,
    String.ofList_toList]

theorem trim_of_eqIgnoreAsciiCase {s t : String} (h : eqIgnoreAsciiCase s t)
    (ht : ∀ c ∈ t.toList, isWhitespace c = false) : trim s = s := by
  refine trim_eq_self fun c hc => ?_
  have hmap : s.toList.map Char.toLower = t.toList.map Char.toLower := by
    simpa [eqIgnoreAsciiCase] using h
  have hm : c.toLower ∈ t.toList.map Char.toLower := hmap ▸ List.mem_map_of_mem hc
  obtain ⟨d, hd, hdc⟩ := List.mem_map.mp hm
  rw [← isWhitespace_toLower, ← hdc, isWhitespace_toLower]
  exact ht d hd

example : trim " a b\t" = "a b" := by decide
example : eqIgnoreAsciiCase "User@Example.com" "user@example.com" = true := by decide
example : splitOnce "a.b.c" '.' = some ("a", "b.c") := by decide

end BackboneIntegrations.Text
