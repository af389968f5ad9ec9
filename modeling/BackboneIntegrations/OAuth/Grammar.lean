import BackboneIntegrations.Codec.Labels
import BackboneIntegrations.OAuth.Endpoint

/-!
# The grammar of the endpoint guard

Which URLs `validate_endpoint` takes, rule by rule, with the host rule on labels and not on text.
-/

namespace BackboneIntegrations.OAuth

/-! ## Hosts -/

/-- The dot-separated labels of a host, without ASCII case. -/
def labels (host : String) : List (List Char) := (Text.toAsciiLowercase host).toList.splitOn '.'

/-- The host is a literal, in brackets or not. -/
def IsIpLiteral (host : String) : Prop :=
  isIpAddr host ∨ ∃ core, host = "[" ++ core ++ "]" ∧ isIpAddr core

theorem within_iff_labels {host entry : String} : Within host entry ↔ labels entry <:+ labels host := by
  unfold Within labels
  rw [← Codec.suffix_iff_splitOn, ← String.toList_inj, String.toList_append]
  rfl

theorem hostAllowed_iff {allowlist : List String} {host : String} :
    hostAllowed allowlist host ↔ ∃ entry ∈ allowlist, labels entry <:+ labels host := by
  simp only [hostAllowed, List.any_eq_true, Bool.or_eq_true, beq_iff_eq, Text.endsWith,
    List.isSuffixOf_iff_suffix, ← within_iff_labels]
  rfl

theorem isIpAddr_of_bracket {rest : List Char} : isIpAddr (String.ofList ('[' :: rest)) = false := by
  rw [isIpAddr, String.toList_ofList]
  rfl

theorem hostCore_bracketed (core : String) : hostCore ("[" ++ core ++ "]") = core := by
  simp [hostCore, String.toList_append]

theorem isIpAddr_hostCore_iff {host : String} : isIpAddr (hostCore host) ↔ IsIpLiteral host := by
  constructor
  · intro h
    unfold hostCore at h
    split at h
    · rename_i rest hhost
      split at h
      · rename_i core hrest
        right
        refine ⟨_, ?_, h⟩
        have hrev := congrArg List.reverse hrest
        simp only [List.reverse_reverse, List.reverse_cons] at hrev
        rw [← String.toList_inj, hhost, hrev]
        simp [String.toList_append]
      · exact .inl h
    · exact .inl h
  · rintro (h | ⟨core, rfl, h⟩)
    · unfold hostCore
      split
      · rename_i rest hhost
        rw [← String.ofList_toList (s := host), hhost, isIpAddr_of_bracket] at h
        cases h
      · exact h
    · rwa [hostCore_bracketed]

/-! ## The rules -/

structure GuardRule where
  reason : String
  Holds : Url → Prop

/-- The rules of `validate_endpoint`, in its documented order. -/
def guardRules (allowlist : List String) : List GuardRule :=
  [⟨"scheme must be https", fun u => u.scheme = "https"⟩,
    ⟨"URL carries no host", fun u => ∃ host, u.host = some host ∧ host ≠ ""⟩,
    ⟨"userinfo component forbidden", fun u => u.username = "" ∧ u.password = none⟩,
    ⟨"IP-literal host forbidden", fun u => ∀ host, u.host = some host → ¬ IsIpLiteral host⟩,
    ⟨"host is not on the provider allowlist", fun u => ∃ host, u.host = some host ∧
      ∃ entry ∈ allowlist, labels entry <:+ labels host⟩,
    ⟨"only port 443 is permitted", fun u => u.port = none ∨ u.port = some 443⟩,
    ⟨"endpoint must carry a non-root path", fun u => u.path ≠ "" ∧ u.path ≠ "/"⟩,
    ⟨"query string forbidden in a configured endpoint", fun u => u.query = none⟩,
    ⟨"fragment forbidden in a configured endpoint", fun u => u.fragment = none⟩]

/-- The reason of the first rule that a URL breaks. -/
inductive FirstBroken (url : Url) : List GuardRule → String → Prop
  | here {rule rules} (h : ¬ rule.Holds url) : FirstBroken url (rule :: rules) rule.reason
  | later {rule rules reason} (h : rule.Holds url) (hrest : FirstBroken url rules reason) :
    FirstBroken url (rule :: rules) reason

theorem firstBroken_cons {url : Url} {why : String} {Holds : Url → Prop} {rules : List GuardRule}
    {v : Option String} {p : Prop} [Decidable p] (hp : p ↔ ¬ Holds url)
    (hv : ∀ reason, v = some reason ↔ FirstBroken url rules reason) (reason : String) :
    (if p then some why else v) = some reason ↔ FirstBroken url (⟨why, Holds⟩ :: rules) reason := by
  split
  · rename_i h
    have hno := hp.mp h
    constructor
    · rintro ⟨⟩
      exact .here hno
    · intro hf
      cases hf with
      | here _ => rfl
      | later h' _ => exact absurd h' hno
  · rename_i h
    have hyes : Holds url := not_not.mp (hp.not.mp h)
    rw [hv]
    constructor
    · exact .later hyes
    · intro hf
      cases hf with
      | here h' => exact absurd hyes h'
      | later _ hrest => exact hrest

theorem not_firstBroken_nil {url : Url} {reason : String} : ¬ FirstBroken url [] reason := by
  intro h
  cases h

theorem violation_eq_some_iff {allowlist : List String} {url : Url} {reason : String} :
    url.violation allowlist = some reason ↔ FirstBroken url (guardRules allowlist) reason := by
  unfold Url.violation guardRules
  refine firstBroken_cons (by simp) (fun reason => ?_) reason
  cases hhost : url.host with
  | none =>
    have hno : ¬ ∃ host, url.host = some host ∧ host ≠ "" := by simp [hhost]
    constructor
    · intro h
      cases h
      exact .here hno
    · intro hf
      cases hf with
      | here _ => rfl
      | later h _ => exact absurd h hno
  | some host =>
    dsimp only
    refine firstBroken_cons (by simp [hhost]) (fun reason => ?_) reason
    refine firstBroken_cons (by simp [Option.isSome_iff_ne_none, imp_iff_not_or]) (fun reason => ?_) reason
    refine firstBroken_cons (by simp [hhost, isIpAddr_hostCore_iff]) (fun reason => ?_) reason
    refine firstBroken_cons (by simp [hhost, hostAllowed_iff]) (fun reason => ?_) reason
    refine firstBroken_cons (by simp) (fun reason => ?_) reason
    refine firstBroken_cons (by simp [or_iff_not_imp_left]) (fun reason => ?_) reason
    refine firstBroken_cons (by simp [Option.isSome_iff_ne_none]) (fun reason => ?_) reason
    refine firstBroken_cons (by simp [Option.isSome_iff_ne_none]) (fun reason => ?_) reason
    exact ⟨nofun, fun h => absurd h not_firstBroken_nil⟩

theorem forall_holds_of_not_broken {url : Url} {rules : List GuardRule}
    (h : ∀ reason, ¬ FirstBroken url rules reason) : ∀ rule ∈ rules, rule.Holds url := by
  induction rules with
  | nil => exact List.forall_mem_nil _
  | cons rule rules ih =>
    have hrule : rule.Holds url := by
      by_contra hno
      exact h _ (.here hno)
    exact List.forall_mem_cons.mpr ⟨hrule, ih fun reason hf => h reason (.later hrule hf)⟩

theorem FirstBroken.exists_broken {url : Url} {rules : List GuardRule} {reason : String}
    (h : FirstBroken url rules reason) : ∃ rule ∈ rules, ¬ rule.Holds url := by
  induction h with
  | here hno => exact ⟨_, List.mem_cons_self, hno⟩
  | later _ _ ih =>
    obtain ⟨rule, hm, hno⟩ := ih
    exact ⟨rule, List.mem_cons_of_mem _ hm, hno⟩

theorem violation_eq_none_iff {allowlist : List String} {url : Url} :
    url.violation allowlist = none ↔ ∀ rule ∈ guardRules allowlist, rule.Holds url := by
  constructor
  · intro h
    refine forall_holds_of_not_broken fun reason hf => ?_
    rw [violation_eq_some_iff.mpr hf] at h
    cases h
  · intro h
    refine Option.eq_none_iff_forall_ne_some.mpr fun reason hv => ?_
    obtain ⟨rule, hm, hno⟩ := (violation_eq_some_iff.mp hv).exists_broken
    exact hno (h rule hm)

/-! ## The guard -/

/-- The URLs of the grammar. -/
structure InGrammar (allowlist : List String) (url : Url) : Prop where
  scheme : url.scheme = "https"
  host : ∃ host, url.host = some host ∧ host ≠ "" ∧ ¬ IsIpLiteral host ∧
    ∃ entry ∈ allowlist, labels entry <:+ labels host
  userinfo : url.username = "" ∧ url.password = none
  port : url.port = none ∨ url.port = some 443
  path : url.path ≠ "" ∧ url.path ≠ "/"
  query : url.query = none
  fragment : url.fragment = none

theorem inGrammar_iff_rules {allowlist : List String} {url : Url} :
    InGrammar allowlist url ↔ ∀ rule ∈ guardRules allowlist, rule.Holds url := by
  simp only [guardRules, List.forall_mem_cons]
  constructor
  · rintro ⟨hscheme, ⟨host, hhost, hne, hip, hallowed⟩, huser, hport, hpath, hquery, hfragment⟩
    refine ⟨hscheme, ⟨host, hhost, hne⟩, huser, ?_, ⟨host, hhost, hallowed⟩, hport, hpath, hquery,
      hfragment, List.forall_mem_nil _⟩
    intro host' hhost'
    cases hhost.symm.trans hhost'
    exact hip
  · rintro ⟨hscheme, ⟨host, hhost, hne⟩, huser, hip, ⟨host', hhost', hallowed⟩, hport, hpath, hquery,
      hfragment, -⟩
    cases hhost.symm.trans hhost'
    exact ⟨hscheme, ⟨host, hhost, hne, hip host hhost, hallowed⟩, huser, hport, hpath, hquery, hfragment⟩

theorem validateEndpoint_error {crate : UrlCrate} {provider : String} {key : EndpointKey}
    {allowlist : List String} {urlStr : String} {e : InvalidEndpoint} :
    validateEndpoint crate provider key allowlist urlStr = .error e ↔
      ∃ reason, e = ⟨provider, key, urlStr, reason⟩ ∧
        ((∃ why, crate.parse urlStr = .error why) ∧ reason = "not a parseable URL" ∨
          ∃ url, crate.parse urlStr = .ok url ∧ url.violation allowlist = some reason) := by
  unfold validateEndpoint
  cases hparse : crate.parse urlStr with
  | error why =>
    constructor
    · intro h
      cases h
      exact ⟨_, rfl, .inl ⟨⟨why, rfl⟩, rfl⟩⟩
    · rintro ⟨reason, rfl, ⟨-, rfl⟩ | ⟨url, hurl, -⟩⟩
      · rfl
      · cases hurl
  | ok url =>
    dsimp only
    split
    -- The tests of the guard run in order, so the first broken rule is the one that it reports.
    · rename_i reason hv
      constructor
      · intro h
        cases h
        exact ⟨reason, rfl, .inr ⟨url, rfl, hv⟩⟩
      · rintro ⟨reason', rfl, ⟨⟨why, hwhy⟩, -⟩ | ⟨url', hurl, hv'⟩⟩
        · cases hwhy
        · cases hurl
          cases hv.symm.trans hv'
          rfl
    · rename_i hv
      constructor
      · intro h
        cases h
      · rintro ⟨reason', rfl, ⟨⟨why, hwhy⟩, -⟩ | ⟨url', hurl, hv'⟩⟩
        · cases hwhy
        · cases hurl
          cases hv.symm.trans hv'

/-- **The guard takes exactly its documented grammar.** It gives back the URL that it was given, and it
refuses with the first rule that the URL breaks. -/
theorem endpoint_grammar (crate : UrlCrate) (provider : String) (key : EndpointKey)
    (allowlist : List String) (urlStr : String) :
    (∀ url, (∃ e, validateEndpoint crate provider key allowlist urlStr = .ok e ∧ e.providerKey = provider ∧
        e.key = key ∧ e.url = url) ↔
      crate.parse urlStr = .ok url ∧ InGrammar allowlist url) ∧
    ∀ e, validateEndpoint crate provider key allowlist urlStr = .error e ↔
      ∃ reason, e = ⟨provider, key, urlStr, reason⟩ ∧
        ((∃ why, crate.parse urlStr = .error why) ∧ reason = "not a parseable URL" ∨
          ∃ url, crate.parse urlStr = .ok url ∧ FirstBroken url (guardRules allowlist) reason) := by
  constructor
  · intro url
    rw [inGrammar_iff_rules, ← violation_eq_none_iff]
    constructor
    · rintro ⟨e, he, -, -, rfl⟩
      obtain ⟨hparse, hv, -, -⟩ := validateEndpoint_ok he
      exact ⟨hparse, hv⟩
    · rintro ⟨hparse, hv⟩
      cases he : validateEndpoint crate provider key allowlist urlStr with
      | error err =>
        obtain ⟨reason, -, ⟨⟨why, hwhy⟩, -⟩ | ⟨url', hurl, hv'⟩⟩ := validateEndpoint_error.mp he
        · cases hwhy.symm.trans hparse
        · cases hurl.symm.trans hparse
          cases hv.symm.trans hv'
      | ok e =>
        obtain ⟨hparse', -, hprovider, hkey⟩ := validateEndpoint_ok he
        cases hparse'.symm.trans hparse
        exact ⟨e, rfl, hprovider, hkey, rfl⟩
  · intro e
    simp only [← violation_eq_some_iff]
    exact validateEndpoint_error

end BackboneIntegrations.OAuth
