import BackboneIntegrations.Codec.Html
import BackboneIntegrations.OAuth.Service

/-!
# The callback page

An escaped value is a value and nothing else: what the browser submits is what the query held.
-/

open Interleave

namespace BackboneIntegrations.OAuth

open Codec.Html

/-! ## The page -/

/-- `str::replace` of a character. -/
def replace (s : String) (c : Char) (r : String) : String :=
  String.ofList (s.toList.flatMap fun x => if x = c then r.toList else [x])

def htmlEscape (s : String) : String :=
  replace (replace (replace (replace (replace s '&' "&amp;") '<' "&lt;") '>' "&gt;") '"' "&quot;")
    '\'' "&#39;"

def inputStart : String := "    <input type=\"hidden\" name=\""

def inputMiddle : String := "\" value=\""

def inputEnd : String := "\">"

def hiddenInput (field : String × String) : String :=
  inputStart ++ htmlEscape field.1 ++ inputMiddle ++ htmlEscape field.2 ++ inputEnd

def pageHead : String :=
  "<!doctype html>\n<html>\n<head>\n  <meta charset=\"utf-8\">\n  <meta name=\"robots\" content=\"noindex\">\n"
    ++ "  <title>Completing connection…</title>\n</head>\n<body onload=\"document.forms[0].submit()\">\n"
    ++ "  <form method=\"POST\" action=\""

def pageFoot : String :=
  "\n    <noscript><button type=\"submit\">Continue</button></noscript>\n  </form>\n</body>\n</html>\n"

def autoPostPage (action : String) (fields : List (String × String)) : String :=
  pageHead ++ action ++ "\">\n" ++ "\n".intercalate (fields.map hiddenInput) ++ pageFoot

def completeAction := "complete"

namespace IntegrationsOauthService

variable (lib : Crates) (svc : IntegrationsOauthService)

def callbackPage (code state : String) : Flow OauthError String := do
  if Text.isBlank code then
    throw (.invalid "callback is missing the authorization code")
  let _ ← svc.verify lib state
  return autoPostPage completeAction [("code", code), ("state", state)]

end IntegrationsOauthService

/-! ## The escaping -/

theorem toList_replace (s : String) (c : Char) (r : String) :
    (replace s c r).toList = s.toList.flatMap fun x => if x = c then r.toList else [x] :=
  String.toList_ofList

theorem toList_htmlEscape (s : String) : (htmlEscape s).toList = s.toList.flatMap escapeChar := by
  have hamp : "&amp;".toList = ['&', 'a', 'm', 'p', ';'] := rfl
  have hlt : "&lt;".toList = ['&', 'l', 't', ';'] := rfl
  have hgt : "&gt;".toList = ['&', 'g', 't', ';'] := rfl
  have hquot : "&quot;".toList = ['&', 'q', 'u', 'o', 't', ';'] := rfl
  have hapos : "&#39;".toList = ['&', '#', '3', '9', ';'] := rfl
  simp only [htmlEscape, toList_replace, List.flatMap_assoc, hamp, hlt, hgt, hquot, hapos]
  congr 1
  funext c
  by_cases h1 : c = '&'
  · subst h1
    rfl
  by_cases h2 : c = '<'
  · subst h2
    rfl
  by_cases h3 : c = '>'
  · subst h3
    rfl
  by_cases h4 : c = '"'
  · subst h4
    rfl
  by_cases h5 : c = '\''
  · subst h5
    rfl
  · simp [escapeChar, h1, h2, h3, h4, h5]

theorem decode_htmlEscape (s : String) : String.ofList (decode (htmlEscape s).toList) = s := by
  rw [toList_htmlEscape, decode_escape, String.ofList_toList]

theorem quote_notMem_htmlEscape (s : String) : '"' ∉ (htmlEscape s).toList := by
  intro h
  rw [toList_htmlEscape] at h
  exact escape_plain _ _ h (.inr (.inr (.inl rfl)))

/-! ## The tags of the page -/

/-- The start tags of the page up to the action of the form. -/
def headTags : List Tag :=
  [⟨"html", []⟩, ⟨"head", []⟩, ⟨"meta", [("charset", "utf-8")]⟩,
    ⟨"meta", [("name", "robots"), ("content", "noindex")]⟩, ⟨"title", []⟩,
    ⟨"body", [("onload", "document.forms[0].submit()")]⟩]

def footTags : List Tag := [⟨"noscript", []⟩, ⟨"button", [("type", "submit")]⟩]

def inputTag (name value : String) : Tag :=
  ⟨"input", [("type", "hidden"), ("name", name), ("value", value)]⟩

def formTag (action : String) : Tag := ⟨"form", [("method", "POST"), ("action", action)]⟩

/-- The scanner is outside of tags before the text and after it, and meets these start tags. -/
def Scans (s : String) (tags : List Tag) : Prop :=
  startTags .text s.toList = tags ∧ after .text s.toList = .text

theorem Scans.append {s r : String} {tags tags' : List Tag} (hs : Scans s tags) (hr : Scans r tags') :
    Scans (s ++ r) (tags ++ tags') := by
  obtain ⟨hs, hmode⟩ := hs
  obtain ⟨hr, hmode'⟩ := hr
  unfold Scans
  rw [String.toList_append, startTags_append, after_append, hmode]
  exact ⟨by rw [hs, hr], hmode'⟩

theorem scans_head : Scans (pageHead ++ completeAction ++ "\">\n") (headTags ++ [formTag "complete"]) := by
  unfold Scans
  decide +kernel

theorem scans_foot : Scans pageFoot footTags := by
  unfold Scans
  decide +kernel

theorem scans_newline : Scans "\n" [] := by
  unfold Scans
  decide +kernel

theorem quoted_value (t : Tag) (attr : List Char) (value : String) (rest : List Char) :
    startTags (.quoted t attr '"' []) ((htmlEscape value).toList ++ '"' :: rest) =
        startTags (.inside ⟨t.name, t.attrs ++ [(String.ofList attr, value)]⟩) rest ∧
      after (.quoted t attr '"' []) ((htmlEscape value).toList ++ '"' :: rest) =
        after (.inside ⟨t.name, t.attrs ++ [(String.ofList attr, value)]⟩) rest := by
  have hquote := quote_notMem_htmlEscape value
  have hpush : t.push attr (htmlEscape value).toList =
      ⟨t.name, t.attrs ++ [(String.ofList attr, value)]⟩ := by
    rw [Tag.push, decode_htmlEscape]
  have hstep : step (.quoted t attr '"' (htmlEscape value).toList) '"' =
      (.inside ⟨t.name, t.attrs ++ [(String.ofList attr, value)]⟩, none) := by
    rw [step, if_pos rfl, hpush]
  constructor
  · rw [startTags_append, startTags_quoted hquote, after_quoted hquote, List.nil_append, List.nil_append,
      startTags, hstep]
    rfl
  · rw [after_append, after_quoted hquote, List.nil_append]
    show after (step _ '"').1 rest = _
    rw [hstep]

theorem scans_inputStart : startTags .text inputStart.toList = [] ∧
    after .text inputStart.toList =
      .quoted ⟨"input", [("type", "hidden")]⟩ ['n', 'a', 'm', 'e'] '"' [] := by
  decide +kernel

theorem toList_hiddenInput (name value : String) :
    (hiddenInput (name, value)).toList =
      inputStart.toList ++ ((htmlEscape name).toList ++ '"' ::
        ([' ', 'v', 'a', 'l', 'u', 'e', '=', '"'] ++ ((htmlEscape value).toList ++ '"' :: ['>']))) := by
  have hmiddle : inputMiddle.toList = '"' :: [' ', 'v', 'a', 'l', 'u', 'e', '=', '"'] := rfl
  have hend : inputEnd.toList = '"' :: ['>'] := rfl
  simp only [hiddenInput, String.toList_append, hmiddle, hend, List.append_assoc, List.cons_append,
    List.nil_append]

theorem scans_inputMiddle (t : Tag) (rest : List Char) :
    startTags (.inside t) ([' ', 'v', 'a', 'l', 'u', 'e', '=', '"'] ++ rest) =
        startTags (.quoted t ['v', 'a', 'l', 'u', 'e'] '"' []) rest ∧
      after (.inside t) ([' ', 'v', 'a', 'l', 'u', 'e', '=', '"'] ++ rest) =
        after (.quoted t ['v', 'a', 'l', 'u', 'e'] '"' []) rest := ⟨rfl, rfl⟩

theorem scans_hiddenInput (name value : String) :
    Scans (hiddenInput (name, value)) [inputTag name value] := by
  obtain ⟨hstart, hstart'⟩ := scans_inputStart
  unfold Scans
  rw [toList_hiddenInput, startTags_append, after_append, hstart, hstart']
  constructor
  · rw [(quoted_value _ _ _ _).1, (scans_inputMiddle _ _).1, (quoted_value _ _ _ _).1]
    rfl
  · rw [(quoted_value _ _ _ _).2, (scans_inputMiddle _ _).2, (quoted_value _ _ _ _).2]
    rfl

theorem scans_inputs (fields : List (String × String)) :
    Scans ("\n".intercalate (fields.map hiddenInput))
      (fields.map fun (name, value) => inputTag name value) := by
  induction fields with
  | nil => exact ⟨rfl, rfl⟩
  | cons field fields ih =>
    obtain ⟨name, value⟩ := field
    cases fields with
    | nil =>
      rw [List.map_singleton, String.intercalate_singleton]
      exact scans_hiddenInput name value
    | cons next fields =>
      rw [List.map_cons, List.map_cons, String.intercalate_cons_cons]
      exact ((scans_hiddenInput name value).append scans_newline).append ih

theorem scans_page (fields : List (String × String)) :
    Scans (autoPostPage completeAction fields)
      (headTags ++ [formTag "complete"] ++ fields.map (fun (name, value) => inputTag name value) ++ footTags) :=
  (scans_head.append (scans_inputs fields)).append scans_foot

/-- The program looks at the clock and at nothing else. -/
def clockOnly : Contract Sig Unit where
  must _ op := op = .utcNow
  may _ _ _ _ := True

variable {lib : Crates} {svc : IntegrationsOauthService}

theorem callbackPage_meets (code state : String) :
    Meets clockOnly (svc.callbackPage lib code state).run () fun r _ =>
      ∀ page, r = .ok page → page = autoPostPage completeAction [("code", code), ("state", state)] := by
  unfold IntegrationsOauthService.callbackPage
  simp only [meets_run_ite]
  constructor
  · intro _ page h
    contradiction
  · intro _
    rw [meets_run_bind, IntegrationsOauthService.verify, meets_run_bind, meets_run_ofExcept]
    cases svc.signer.binding lib state with
    | error e =>
      intro page h
      contradiction
    | ok bound =>
      simp only [meets_run_bind, utcNow, meets_run_answer]
      refine ⟨rfl, ?_⟩
      intro now _ _
      simp only [meets_run_ite]
      constructor
      · intro _ page h
        contradiction
      · intro _ page h
        exact (Except.ok.inj h).symm

/-- Whatever the query holds: no escaped value can leave its attribute, none is changed on the way,
and the page has the form, the two hidden inputs and no other tag than its own. -/
theorem callback_page_exact (lib : Crates) (svc : IntegrationsOauthService) (code state : String) :
    (∀ value : String,
      (∀ c ∈ (htmlEscape value).toList, c ≠ '<' ∧ c ≠ '>' ∧ c ≠ '"' ∧ c ≠ '\'') ∧
      (∀ pre post, (htmlEscape value).toList = pre ++ '&' :: post → ∃ e ∈ entities, e.1 <+: '&' :: post) ∧
      String.ofList (decode (htmlEscape value).toList) = value) ∧
    startTags .text (autoPostPage completeAction [("code", code), ("state", state)]).toList =
      headTags ++ [formTag "complete", inputTag "code" code, inputTag "state" state] ++ footTags ∧
    Meets clockOnly (svc.callbackPage lib code state).run () fun r _ =>
      ∀ page, r = .ok page → page = autoPostPage completeAction [("code", code), ("state", state)] := by
  refine ⟨?_, ?_, callbackPage_meets code state⟩
  · intro value
    rw [toList_htmlEscape]
    refine ⟨?_, fun pre post h => escape_amp h, ?_⟩
    · intro c hc
      have hplain := escape_plain _ c hc
      simpa only [Markup, not_or] using hplain
    · rw [decode_escape, String.ofList_toList]
  · exact (scans_page [("code", code), ("state", state)]).1

end BackboneIntegrations.OAuth
