import BackboneIntegrations.OAuth.Routes

/-!
# The callback route

A query ends in one of two pages. The one posts the code and the state to `complete`, which reads them as they
came. The other shows what went wrong and has no form.
-/

open Interleave

namespace BackboneIntegrations.OAuth

open Codec.Html Codec.Percent
open IntegrationsOauthService

/-! ## The error page -/

/-- The start tags of the error page. -/
def errorTags : List Tag :=
  [⟨"html", []⟩, ⟨"head", []⟩, ⟨"meta", [("charset", "utf-8")]⟩, ⟨"title", []⟩, ⟨"body", []⟩, ⟨"h1", []⟩,
    ⟨"p", []⟩, ⟨"p", []⟩]

/-- The names and values of the inputs of a page. -/
def submission (page : String) : List (String × String) :=
  (startTags .text page.toList).filterMap fun t =>
    if t.name = "input" then
      match t.attrs.lookup "name", t.attrs.lookup "value" with
      | some name, some value => some (name, value)
      | _, _ => none
    else none

/-- Where the forms of a page go. -/
def formActions (page : String) : List String :=
  (startTags .text page.toList).filterMap fun t =>
    if t.name = "form" then t.attrs.lookup "action" else none

variable {keep : UInt8 → Bool}

variable {lib : Crates} {svc : IntegrationsOauthService}
  {fromSlice : ByteArray → Except String CompleteRequest}

/-- The query goes on: the provider did not refuse, there is a code, and the state is one that this service has
signed and that has not expired. -/
structure Continues (lib : Crates) (svc : IntegrationsOauthService) (q : CallbackQuery) (now : Time)
    (code state : String) : Prop where
  refused : q.error.filter (! Text.isBlank ·) = none
  named : q.code = some code
  carried : q.state = some state
  given : Text.isBlank code = false
  signed : ∃ bound, svc.signer.binding lib state = .ok bound ∧ timestamp now < bound.exp

theorem Continues.nonempty {q : CallbackQuery} {now : Time} {code state : String}
    (h : Continues lib svc q now code state) : code ≠ "" ∧ state ≠ "" := by
  constructor
  · rintro rfl
    exact absurd h.given (by decide)
  · rintro rfl
    obtain ⟨bound, hbound, -⟩ := h.signed
    have hsplit : Text.splitOnce "" '.' = none := by decide
    unfold StateSigner.binding at hbound
    rw [hsplit] at hbound
    cases hbound

/-- The page shows this text and has no form. -/
structure Shows (page detail : String) : Prop where
  tags : startTags .text page.toList = errorTags
  noForm : formActions page = [] ∧ submission page = []
  text : ∃ pre post, page = pre ++ textEscape detail ++ post ∧
    String.ofList (decode (textEscape detail).toList) = detail

end BackboneIntegrations.OAuth
