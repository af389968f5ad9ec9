import Mathlib.Data.List.Basic

/-!
# Escaped text in an HTML page

Character references, and a scanner for the start tags of a page.
-/

namespace Codec.Html

/-! ## Character references -/

/-- The references that an escaped text uses, with the character each stands for. -/
def entities : List (List Char × Char) :=
  [(['&', 'a', 'm', 'p', ';'], '&'), (['&', 'l', 't', ';'], '<'), (['&', 'g', 't', ';'], '>'),
    (['&', 'q', 'u', 'o', 't', ';'], '"'), (['&', '#', '3', '9', ';'], '\'')]

/-- The reference that the text begins with. -/
def entityAt (cs : List Char) : Option (List Char × Char) := entities.find? (·.1.isPrefixOf cs)

/-- The text after the first `skip` characters, with the references resolved. -/
def decodeFrom : Nat → List Char → List Char
  | _, [] => []
  | skip + 1, _ :: cs => decodeFrom skip cs
  | 0, c :: cs =>
    match entityAt (c :: cs) with
    | some (name, char) => char :: decodeFrom (name.length - 1) cs
    | none => c :: decodeFrom 0 cs

abbrev decode (cs : List Char) : List Char := decodeFrom 0 cs

/-- A character as it stands in an attribute value or in text. -/
def escapeChar (c : Char) : List Char :=
  match c with
  | '&' => ['&', 'a', 'm', 'p', ';']
  | '<' => ['&', 'l', 't', ';']
  | '>' => ['&', 'g', 't', ';']
  | '"' => ['&', 'q', 'u', 'o', 't', ';']
  | '\'' => ['&', '#', '3', '9', ';']
  | c => [c]

/-- The characters that have no place in an escaped text, the ampersand apart. -/
def Markup (c : Char) : Prop := c = '<' ∨ c = '>' ∨ c = '"' ∨ c = '\''

theorem escapeChar_cases (c : Char) :
    (escapeChar c, c) ∈ entities ∨ (escapeChar c = [c] ∧ c ≠ '&' ∧ ¬ Markup c) := by
  unfold escapeChar
  split
  · left
    decide
  · left
    decide
  · left
    decide
  · left
    decide
  · left
    decide
  · rename_i hamp hlt hgt hquot hapos
    right
    refine ⟨rfl, hamp, ?_⟩
    rintro (h | h | h | h)
    · exact hlt h
    · exact hgt h
    · exact hquot h
    · exact hapos h

theorem entityAt_append {e : List Char × Char} (he : e ∈ entities) (rest : List Char) :
    entityAt (e.1 ++ rest) = some e := by
  simp only [entities, List.mem_cons, List.not_mem_nil, or_false] at he
  rcases he with rfl | rfl | rfl | rfl | rfl <;> rfl

theorem entityAt_of_ne {c : Char} (hc : c ≠ '&') (cs : List Char) : entityAt (c :: cs) = none := by
  simp [entityAt, entities, List.isPrefixOf, hc.symm]

theorem decodeFrom_skip (pre cs : List Char) : decodeFrom pre.length (pre ++ cs) = decode cs := by
  induction pre with
  | nil => rfl
  | cons c pre ih => exact ih

theorem decode_entity {name : List Char} {c : Char} (he : (name, c) ∈ entities) (rest : List Char) :
    decode (name ++ rest) = c :: decode rest := by
  have hat := entityAt_append he rest
  cases name with
  | nil => simp [entities] at he
  | cons x pre =>
    simp only [List.cons_append] at hat ⊢
    rw [decode, decodeFrom, hat]
    simp only [List.length_cons, Nat.add_sub_cancel, decodeFrom_skip]

theorem decode_escapeChar (c : Char) (rest : List Char) :
    decode (escapeChar c ++ rest) = c :: decode rest := by
  rcases escapeChar_cases c with he | ⟨hc, hamp, -⟩
  · exact decode_entity he rest
  · rw [hc, List.singleton_append, decode, decodeFrom, entityAt_of_ne hamp]

/-- Resolving the references undoes the escaping. -/
theorem decode_escape (cs : List Char) : decode (cs.flatMap escapeChar) = cs := by
  induction cs with
  | nil => rfl
  | cons c cs ih => rw [List.flatMap_cons, decode_escapeChar, ih]

theorem entity_plain {e : List Char × Char} (he : e ∈ entities) : ∀ x ∈ e.1, ¬ Markup x := by
  simp only [entities, List.mem_cons, List.not_mem_nil, or_false] at he
  rcases he with rfl | rfl | rfl | rfl | rfl <;> simp [Markup]

theorem escape_plain (cs : List Char) : ∀ x ∈ cs.flatMap escapeChar, ¬ Markup x := by
  intro x hx
  obtain ⟨c, -, hc⟩ := List.mem_flatMap.1 hx
  rcases escapeChar_cases c with he | ⟨heq, -, hplain⟩
  · exact entity_plain he x hc
  · rw [heq, List.mem_singleton] at hc
    exact hc ▸ hplain

theorem entity_amp {e : List Char × Char} (he : e ∈ entities) {pre post : List Char}
    (h : e.1 = pre ++ '&' :: post) : pre = [] := by
  have htail : ∀ e ∈ entities, '&' ∉ e.1.tail := by decide
  cases pre with
  | nil => rfl
  | cons x pre =>
    refine absurd ?_ (htail e he)
    rw [h]
    simp

theorem escape_amp {cs pre post : List Char} (h : cs.flatMap escapeChar = pre ++ '&' :: post) :
    ∃ e ∈ entities, e.1 <+: '&' :: post := by
  induction cs generalizing pre with
  | nil => simp at h
  | cons c cs ih =>
    rw [List.flatMap_cons, List.append_eq_append_iff] at h
    obtain ⟨mid, -, hrest⟩ | ⟨mid, hchar, hpost⟩ := h
    · exact ih hrest
    · cases mid with
      | nil => exact @ih [] hpost.symm
      | cons x mid =>
        obtain ⟨rfl, hpost⟩ := List.cons.inj hpost
        rcases escapeChar_cases c with he | ⟨heq, hamp, -⟩
        · have hpre := entity_amp he hchar
          rw [hpre, List.nil_append] at hchar
          refine ⟨_, he, ?_⟩
          rw [hchar, hpost]
          exact List.prefix_append ('&' :: mid) _
        · have hmem : '&' ∈ escapeChar c := by simp [hchar]
          rw [heq, List.mem_singleton] at hmem
          exact absurd hmem.symm hamp

structure Tag where
  name : String
  attrs : List (String × String)
  deriving DecidableEq, Repr

def Tag.push (t : Tag) (attr value : List Char) : Tag :=
  ⟨t.name, t.attrs ++ [(String.ofList attr, String.ofList (decode value))]⟩

/-- Where the scanner stands. -/
inductive Mode where
  | text
  /-- After `<`. -/
  | opened
  /-- In a declaration or an end tag, up to its `>`. -/
  | skipped
  | name (chars : List Char)
  /-- In a start tag, between two attributes. -/
  | inside (t : Tag)
  | attr (t : Tag) (chars : List Char)
  /-- After the equals sign of an attribute. -/
  | equals (t : Tag) (attr : List Char)
  | quoted (t : Tag) (attr : List Char) (quote : Char) (chars : List Char)
  | unquoted (t : Tag) (attr chars : List Char)
  deriving DecidableEq, Repr

def isSpace (c : Char) : Bool := c == ' ' || c == '\t' || c == '\n' || c == '\r' || c == '\x0C'

/-- One character, with the start tag that it completes. -/
def step : Mode → Char → Mode × Option Tag
  | .text, c => (if c = '<' then .opened else .text, none)
  | .opened, c => (if c = '!' ∨ c = '/' then .skipped else .name [c], none)
  | .skipped, c => (if c = '>' then .text else .skipped, none)
  | .name chars, c =>
    let t : Tag := ⟨String.ofList chars, []⟩
    if c = '>' then (.text, some t)
    else (if isSpace c then .inside t else .name (chars ++ [c]), none)
  | .inside t, c =>
    if c = '>' then (.text, some t)
    else (if isSpace c ∨ c = '/' then .inside t else .attr t [c], none)
  | .attr t chars, c =>
    if c = '>' then (.text, some (t.push chars []))
    else if c = '=' then (.equals t chars, none)
    else (if isSpace c then .inside (t.push chars []) else .attr t (chars ++ [c]), none)
  | .equals t attr, c =>
    if c = '>' then (.text, some (t.push attr []))
    else (if c = '"' ∨ c = '\'' then .quoted t attr c [] else .unquoted t attr [c], none)
  | .quoted t attr quote chars, c =>
    (if c = quote then .inside (t.push attr chars) else .quoted t attr quote (chars ++ [c]), none)
  | .unquoted t attr chars, c =>
    if c = '>' then (.text, some (t.push attr chars))
    else (if isSpace c then .inside (t.push attr chars) else .unquoted t attr (chars ++ [c]), none)

def after (m : Mode) (cs : List Char) : Mode := cs.foldl (fun m c => (step m c).1) m

/-- The start tags that the scanner completes on the text. -/
def startTags : Mode → List Char → List Tag
  | _, [] => []
  | m, c :: cs => (step m c).2.toList ++ startTags (step m c).1 cs

theorem startTags_append (m : Mode) (cs ds : List Char) :
    startTags m (cs ++ ds) = startTags m cs ++ startTags (after m cs) ds := by
  induction cs generalizing m with
  | nil => rfl
  | cons c cs ih =>
    rw [List.cons_append, startTags, startTags, ih, List.append_assoc]
    rfl

theorem after_append (m : Mode) (cs ds : List Char) : after m (cs ++ ds) = after (after m cs) ds :=
  List.foldl_append

variable {t : Tag} {attr chars cs : List Char} {quote : Char}

theorem after_quoted (h : quote ∉ cs) :
    after (.quoted t attr quote chars) cs = .quoted t attr quote (chars ++ cs) := by
  induction cs generalizing chars with
  | nil => simp [after]
  | cons c cs ih =>
    simp only [List.mem_cons, not_or] at h
    show after (step (.quoted t attr quote chars) c).1 cs = _
    rw [step, if_neg (Ne.symm h.1), ih h.2, List.append_assoc, List.singleton_append]

theorem startTags_quoted (h : quote ∉ cs) : startTags (.quoted t attr quote chars) cs = [] := by
  induction cs generalizing chars with
  | nil => rfl
  | cons c cs ih =>
    simp only [List.mem_cons, not_or] at h
    rw [startTags, step, if_neg (Ne.symm h.1), ih h.2]
    rfl

end Codec.Html
