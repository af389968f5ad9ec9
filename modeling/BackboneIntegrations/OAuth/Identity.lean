import BackboneIntegrations.OAuth.Binding
import BackboneIntegrations.OAuth.Disconnect
import BackboneIntegrations.OAuth.Lifetimes
import BackboneIntegrations.OAuth.Turns

/-!
# One connection for an identity

`authorize` replaces the rows of its reference as it is spelled, and the identity check takes every
spelling. Where no reference comes in a second spelling, no identity has two active rows.
-/

open Interleave

namespace BackboneIntegrations.OAuth

open IntegrationsOauthService

variable {lib : Crates} {svc : IntegrationsOauthService}

/-! ## Identities -/

/-- What an account is for, up to ASCII case. -/
def Account.identity (r : Account) : String × String := (r.provider, Text.toAsciiLowercase r.accountRef)

/-- The row is active, or it can still become so. -/
def Account.Open (r : Account) : Prop := r.status = .pending ∨ r.status = .active

/-- No two open rows are for one identity. -/
def OnePerIdentity (T : Accounts) : Prop :=
  ∀ id id' r r', T.lookup id = some r → T.lookup id' = some r' → r.Open → r'.Open →
    r.identity = r'.identity → id = id'

/-- An insertion meets no open row of its identity with another spelling. -/
def OneSpelling (w : Hub) : (op : Sig.Op) → Sig.Ans op → Prop
  | .insertAccount row, _ => ∀ id r, w.accounts.lookup id = some r → r.Open →
      r.identity = row.toAccount.identity → r.accountRef = row.accountRef
  | _, _ => True

theorem Edge.source {a b : IntegrationAccountStatus} (h : Edge a b) : a = .pending ∨ a = .active := by
  cases h with
  | activate | revokePending => exact .inl rfl
  | expire | revokeActive => exact .inr rfl

theorem identity_of_key {r r' : Account} (h : r.key = r'.key) : r.identity = r'.identity := by
  obtain ⟨hp, ha⟩ := Prod.mk.inj h
  rw [Account.identity, Account.identity, hp, ha]

namespace OnePerIdentity

variable {T T' : Accounts}

theorem of_before (h : OnePerIdentity T) (hsub : ∀ id r', T'.lookup id = some r' → r'.Open →
    ∃ r, T.lookup id = some r ∧ r.Open ∧ r.key = r'.key) : OnePerIdentity T' := by
  intro id id' r r' hr hr' ho ho' heq
  obtain ⟨s, hs, hso, hk⟩ := hsub id r hr ho
  obtain ⟨s', hs', hso', hk'⟩ := hsub id' r' hr' ho'
  refine h id id' s s' hs hs' hso hso' ?_
  rw [identity_of_key hk, identity_of_key hk', heq]

theorem replaced (h : OnePerIdentity T) {row : NewAccount} {ids : List Uuid}
    (hspell : ∀ id r, T.lookup id = some r → r.Open → r.identity = row.toAccount.identity →
      r.accountRef = row.accountRef)
    (hids : ∀ id, id ∈ ids ↔ ∃ r, T.lookup id = some r ∧ r.key = (row.provider, row.accountRef))
    (hT : ∀ x, T'.lookup x =
      if x = row.id then some row.toAccount else if x ∈ ids then none else T.lookup x) :
    OnePerIdentity T' := by
  have hold : ∀ x r, x ≠ row.id → T'.lookup x = some r → x ∉ ids ∧ T.lookup x = some r := by
    intro x r hx hr
    rw [hT, if_neg hx] at hr
    split at hr
    · cases hr
    · exact ⟨‹_›, hr⟩
  have hnew : ∀ r, T'.lookup row.id = some r → r = row.toAccount := by
    intro r hr
    rw [hT, if_pos rfl] at hr
    exact (Option.some.inj hr).symm
  -- an old row of the identity has the key of the new one, so it is deleted
  have habsent : ∀ x r, x ≠ row.id → T'.lookup x = some r → r.Open →
      r.identity ≠ row.toAccount.identity := by
    intro x r hx hr ho hi
    obtain ⟨hout, hb⟩ := hold x r hx hr
    refine hout ((hids x).mpr ⟨r, hb, ?_⟩)
    rw [Account.key, hspell x r hb ho hi, (Prod.mk.inj hi).1]
    rfl
  intro x y r r' hr hr' ho ho' hi
  by_cases hx : x = row.id <;> by_cases hy : y = row.id
  · rw [hx, hy]
  · subst hx
    rw [hnew r hr] at hi
    exact absurd hi.symm (habsent y r' hy hr' ho')
  · subst hy
    rw [hnew r' hr'] at hi
    exact absurd hi (habsent x r hx hr ho)
  · exact h x y r r' (hold x r hx hr).2 (hold y r' hy hr').2 ho ho' hi

end OnePerIdentity

/-! ## The contract of a call alone -/

/-- What a call alone can meet. Every statement can fail, and the ports answer as they like. -/
def spelling : Contract Sig View where
  must v _ := OnePerIdentity v.accounts
  may v op ans v' := ∃ t w w', Sees t w v ∧ OneSpelling w op ans ∧ Hub.next t op ans w = some w' ∧
    Sees t w' v'

@[simp] theorem spelling_must {v : View} {op : Op} :
    spelling.must v op ↔ OnePerIdentity v.accounts := Iff.rfl

/-- The operations of `authorize` that leave the table and the writes. -/
def stillOp : Op → Prop
  | .utcNow | .newUuid | .randomBytes _ | .begin | .deleteSnapshot .. => True
  | _ => False

section

variable {v v' : View} {α : Type} {Q : α → View → Prop}

theorem may_still {op : Op} {ans : Ans op} (hop : stillOp op) (hm : spelling.may v op ans v') :
    v' = v := by
  obtain ⟨t, w, w', hs, -, hn, hs'⟩ := hm
  refine Sees.unique (t := t) (w := w') ?_ hs'
  have hc := Hub.next_change hn
  cases hc with
  | quiet | newUuid | begin => exact ⟨hs.accounts, hs.credentials, hs.writes⟩
  | _ => exact hop.elim

theorem meets_still {op : Op} {k : Ans op → Prog Sig α} (hop : stillOp op)
    (h : OnePerIdentity v.accounts) (hk : ∀ ans, Meets spelling (k ans) v Q) :
    Meets spelling (.call (S := Sig) op k) v Q := by
  refine ⟨h, fun ans v' hm => ?_⟩
  obtain rfl := may_still hop hm
  exact hk ans

theorem meets_snapshot {provider accountRef : String} {k : Except DbError (List Uuid) → Prog Sig α}
    (h : OnePerIdentity v.accounts) (herr : ∀ e, Meets spelling (k (.error e)) v Q)
    (hk : ∀ ids, (∀ id, id ∈ ids ↔
      ∃ r, v.accounts.lookup id = some r ∧ r.key = (provider, accountRef)) →
        Meets spelling (k (.ok ids)) v Q) :
    Meets spelling (.call (S := Sig) (.deleteSnapshot provider accountRef) k) v Q := by
  have hstill : stillOp (.deleteSnapshot provider accountRef) := trivial
  refine ⟨h, ?_⟩
  rintro (e | ids) v' hm
  · obtain rfl := may_still hstill hm
    exact herr e
  · obtain rfl := may_still hstill hm
    obtain ⟨t, w, w', hs, -, hn, -⟩ := hm
    simp only [Hub.next, Option.ite_none_right_eq_some] at hn
    refine hk ids fun id => ?_
    rw [hn.1.mem_iff, Hub.mem_matching, hs.accounts]

theorem meets_delete {id : Uuid} {k : Except DbError Nat → Prog Sig α}
    (h : OnePerIdentity v.accounts) (hr : v.accounts.lookup id ≠ none)
    (herr : ∀ e, Meets spelling (k (.error e)) v Q)
    (hk : ∀ n, Meets spelling (k (.ok n)) (v.queue (.delete id)) Q) :
    Meets spelling (.call (S := Sig) (.deleteRow id) k) v Q := by
  refine ⟨h, ?_⟩
  rintro ans v' ⟨t, w, w', hs, -, hn, hs'⟩
  cases Hub.next_change hn with
  | quiet hq =>
    obtain rfl := hs.unique hs'
    rcases ans with e | n
    · exact herr e
    · obtain ⟨r, hr⟩ := Option.ne_none_iff_exists'.mp hr
      have hn0 : n = 0 := hq
      simp [Hub.next, hs.accounts, hr, hn0] at hn
  | deleteRow hrow hfree =>
    obtain rfl := ((hs.lock id).queue _).unique hs'
    exact hk 1

theorem meets_insert {row : NewAccount} {k : Except DbError Unit → Prog Sig α}
    (h : OnePerIdentity v.accounts) (herr : ∀ e, Meets spelling (k (.error e)) v Q)
    (hk : (∀ id r, v.accounts.lookup id = some r → r.Open → r.identity = row.toAccount.identity →
      r.accountRef = row.accountRef) → Meets spelling (k (.ok ())) (v.queue (.insert row)) Q) :
    Meets spelling (.call (S := Sig) (.insertAccount row) k) v Q := by
  refine ⟨h, ?_⟩
  rintro ans v' ⟨t, w, w', hs, hspell, hn, hs'⟩
  cases Hub.next_change hn with
  | quiet hq =>
    obtain rfl := hs.unique hs'
    rcases ans with e | ⟨⟩
    · exact herr e
    · exact hq.elim
  | insertAccount hrow =>
    obtain rfl := (hs.queue _).unique hs'
    exact hk (hs.accounts ▸ hspell)

theorem meets_commit_table {k : Except DbError Unit → Prog Sig α} (h : OnePerIdentity v.accounts)
    (herr : ∀ e, Meets spelling (k (.error e)) v Q) (hk : Meets spelling (k (.ok ())) v.commit Q) :
    Meets spelling (.call (S := Sig) .commit k) v Q := by
  refine ⟨h, ?_⟩
  rintro ans v' ⟨t, w, w', hs, -, hn, hs'⟩
  cases Hub.next_change hn with
  | quiet hq =>
    obtain rfl := hs.unique hs'
    rcases ans with e | ⟨⟩
    · exact herr e
    · exact hq.elim
  | commit =>
    obtain rfl := hs.commit.unique hs'
    exact hk

end

/-! ## `authorize` -/

section

variable {v : View} {T : Accounts} {cs : Credentials}

theorem deleteRows_spelled {ids : List Uuid} (h : OnePerIdentity v.accounts)
    (hids : ∀ id ∈ ids, v.accounts.lookup id ≠ none) {Q : Except OauthError Unit → View → Prop}
    (herr : ∀ e v', v'.accounts = v.accounts → Q (.error e) v')
    (hQ : Q (.ok ()) { v with writes := v.writes ++ ids.map .delete }) :
    Meets spelling (deleteRows ids).run v Q := by
  induction ids generalizing v with
  | nil => simpa [deleteRows] using hQ
  | cons id ids ih =>
    obtain ⟨hid, hrest⟩ := List.forall_mem_cons.mp hids
    simp only [deleteRows, sql, ask, Prog.ask, meets_run_bind, meets_run_orFail]
    refine meets_delete h hid (fun e => herr _ _ rfl) fun n => ?_
    refine ih h hrest herr ?_
    simpa [View.queue] using hQ

theorem replaceRow_spelled (h : OnePerIdentity T) {row : NewAccount}
    {Q : Except OauthError Unit → View → Prop}
    (hQ : ∀ r v', OnePerIdentity v'.accounts → Q r v') :
    Meets spelling (replaceRow row).run ⟨T, cs, []⟩ Q := by
  have herr : ∀ e v', v'.accounts = T → Q (.error e) v' := fun e v' heq => hQ _ _ (heq ▸ h)
  simp only [replaceRow, begin, commit, sql, ask, Prog.ask, meets_run_bind, meets_run_orFail]
  refine meets_still trivial h ?_
  rintro (e | ⟨⟩)
  · exact herr _ _ rfl
  refine meets_snapshot h (fun e => herr _ _ rfl) fun ids hids => ?_
  refine deleteRows_spelled h (fun id hid => ?_) herr ?_
  · obtain ⟨r, hr, -⟩ := (hids id).mp hid
    exact Option.ne_none_iff_exists'.mpr ⟨r, hr⟩
  refine meets_insert h (fun e => herr _ _ rfl) fun hspell => ?_
  refine meets_commit_table h (fun e => herr _ _ rfl) (hQ _ _ (h.replaced hspell hids fun x => ?_))
  simp only [View.queue, View.commit, List.nil_append, List.foldl_append, List.foldl_cons,
    List.foldl_nil, Write.run, Table.lookup_insert_ite, foldl_deletes]

theorem mintText_spelled {n : Nat} (h : OnePerIdentity v.accounts)
    {Q : Except OauthError String → View → Prop} (hQ : ∀ r, Q r v) :
    Meets spelling (mintText lib n).run v Q := by
  simp only [mintText, ask, Prog.ask, meets_run_bind, meets_run_answer]
  exact meets_still trivial h fun bytes => hQ _

theorem authorize_spelled (h : OnePerIdentity T) (req : AuthorizeRequest) :
    Meets spelling (svc.authorize lib req).run ⟨T, cs, []⟩ fun _ v' => OnePerIdentity v'.accounts := by
  rw [authorize, meets_run_bind, meets_run_ofExcept]
  cases svc.admitRequest lib req with
  | error e => exact h
  | ok a =>
    have hadmitted : ∀ verifier, Meets spelling (svc.authorizeAdmitted lib a verifier).run ⟨T, cs, []⟩
        fun _ v' => OnePerIdentity v'.accounts := by
      intro verifier
      simp only [authorizeAdmitted, ask, Prog.ask, meets_run_bind, meets_run_answer]
      refine meets_still trivial h fun id => replaceRow_spelled h ?_
      rintro (e | ⟨⟩) v' h'
      · exact h'
      refine mintText_spelled h' ?_
      rintro (e | nonce)
      · exact h'
      simp only [utcNow, ask, Prog.ask, meets_run_answer, meets_run_ofExcept]
      refine meets_still trivial h' fun now => ?_
      simp only [meets_ret]
      split
      · split <;> exact h'
      · exact h'
    simp only [meets_run_bind, meets_run_ite, meets_run_map]
    refine ⟨fun _ => mintText_spelled h ?_, fun _ => hadmitted none⟩
    rintro (e | text)
    · exact h
    · exact hadmitted _

end

/-! ## The other calls -/

/-- What a call without an insertion keeps. -/
structure Uninserting (v : View) : Prop where
  table : OnePerIdentity v.accounts
  writes : ∀ row, .insert row ∉ v.writes

def noInsert (op : Op) : Prop := ∀ row, op ≠ .insertAccount row

theorem Uninserting.op {v v' : View} {op : Op} {ans : Ans op} (h : Uninserting v) (hop : noInsert op)
    (hm : spelling.may v op ans v') : Uninserting v' := by
  obtain ⟨t, w, w', hs, -, hn, hs'⟩ := hm
  have hc := Hub.next_change hn
  constructor
  · rw [← hs'.accounts]
    have htable := h.table
    rw [← hs.accounts] at htable
    cases hc with
    | commit =>
      refine htable.of_before fun id r' hr' ho => ?_
      have hins : ∀ row, .insert row ∈ w.txs.writes t → row.id ≠ id := by
        intro row hm
        rw [hs.writes_self] at hm
        exact absurd hm (h.writes row)
      cases hr : w.accounts.lookup id with
      | none =>
        rw [Hub.commit_accounts, Hub.foldl_lookup_absent hr hins] at hr'
        cases hr'
      | some r =>
        have hw := Hub.foldl_rewritten hr hins
        rw [← Hub.commit_accounts, hr'] at hw
        -- A commit without insertions leaves the open rows, or ends some of them.
        cases hw with
        | kept hk hst => exact ⟨r, rfl, by rwa [Account.Open, ← hst], hk.symm⟩
        | expired hk hst =>
          rw [Account.Open, hst] at ho
          rcases ho with ho | ho <;> cases ho
    | @update x u r₀ hrow hfree =>
      obtain ⟨hrow, hg⟩ := Hub.statusTarget_eq_some.mp hrow
      refine htable.of_before fun id r' hr' ho => ?_
      simp only [Hub.setStatus, Table.lookup_insert_ite] at hr'
      split at hr'
      · cases hr'
        subst_vars
        refine ⟨r₀, hrow, ?_, (u.set_key r₀).symm⟩
        exact (edge_of_update hg).source
      · exact ⟨r', hr', ho, rfl⟩
    | _ => exact htable
  · intro row hm
    rw [← hs'.writes_self] at hm
    rcases hc.mem_writes hm with ⟨hm, -⟩ | ⟨-, hq⟩
    · rw [hs.writes_self] at hm
      exact h.writes row hm
    · cases hq
      exact hop row rfl

theorem noInsert_of_must {c : Call} (hc : ∀ req, c ≠ .authorize req) {h : Past} {op : Op}
    (hm : (script lib svc).must c h op) : noInsert op := by
  rintro row rfl
  cases c with
  | authorize req => exact hc req rfl
  | _ => exact hm.elim

/-- Every call keeps one open row for each identity. -/
theorem call_spelled {T : Accounts} {cs : Credentials} (h : OnePerIdentity T) (c : Call) :
    Meets spelling (prog lib svc c) ⟨T, cs, []⟩ fun _ v' => OnePerIdentity v'.accounts := by
  by_cases hc : ∃ req, c = .authorize req
  · obtain ⟨req, rfl⟩ := hc
    exact authorize_spelled h req
  · push Not at hc
    have hasks : (prog lib svc c).Asks noInsert :=
      Meets.asks (script_holds lib svc c) fun _ _ hm => noInsert_of_must hc hm
    have hstart : Uninserting ⟨T, cs, []⟩ := ⟨h, fun row => List.not_mem_nil⟩
    refine (hasks.meets hstart (fun _ _ hv _ => hv.table) ?_).mono fun _ _ hv => hv.table
    exact fun _ _ _ _ hv hop hm => hv.op hop hm

theorem spelling_solo : Solo (system lib svc) (fun _ => True) (fun _ => True) OneSpelling spelling Sees
    (Rest fun T _ => OnePerIdentity T) where
  call := by
    intro t c w _ hw
    refine ⟨⟨w.accounts, w.credentials, []⟩, ⟨rfl, rfl, fun u => ?_⟩, ?_⟩
    · rw [hw.writes, ite_self]
    · exact (call_spelled hw.keeps c).mono fun _ v' hv w' hw' => hw'.rest hv
  op h ha hn := by
    obtain ⟨v', hs⟩ := h.next hn
    exact ⟨v', ⟨_, _, _, h, ha, hn, hs⟩, hs⟩
  death _ h hm := h.rest hm
  env hw h := h.env hw
  calm hw h := h.env hw

/-! ## The email of a completion -/

def ReadsIdentity (op : Op) : Prop := ∃ endpoint token, op = .fetchIdentity endpoint token

def namelessOp (op : Op) : Prop := ¬ ReadsIdentity op

/-- The call has not read an identity yet. -/
def Nameless (h : Past) : Prop := ∀ ev ∈ h, namelessOp ev.op

/-- An identity is read once. -/
def identityMust (h : Past) (op : Op) : Prop := ReadsIdentity op → Nameless h

section

variable {α β ε : Type} {h : Past}

theorem nameless_meets {p : Prog Sig α} (hp : p.Asks namelessOp) (hh : Nameless h) :
    Meets (.ofPast identityMust) p h fun _ h' => Nameless h' := by
  refine hp.meets hh (fun h op _ hop hid => absurd hid hop) ?_
  rintro h op ans - hh hop rfl
  exact List.forall_mem_cons.mpr ⟨hop, hh⟩

theorem nameless_last {p : Prog Sig α} (hp : p.Asks namelessOp) :
    Meets (.ofPast identityMust) p h fun _ _ => True :=
  hp.meets (I := fun _ => True) trivial (fun _ _ _ hop hid => absurd hid hop) fun _ _ _ _ _ _ _ => trivial

theorem nameless_bind {p : ExceptT ε (Prog Sig) α} {f : α → ExceptT ε (Prog Sig) β}
    (hp : p.run.Asks namelessOp) (hh : Nameless h)
    (hf : ∀ a h', Nameless h' → Meets (.ofPast identityMust) (f a).run h' fun _ _ => True) :
    Meets (.ofPast identityMust) (p >>= f).run h fun _ _ => True := by
  rw [meets_run_bind]
  refine (nameless_meets hp hh).mono ?_
  rintro (e | a) h' hh'
  · trivial
  · exact hf a h' hh'

end

theorem identify_once {req : CompleteRequest} {state : OAuthState} {account : AccountRow}
    {adapter : ProviderAdapter} {endpoints : ValidatedEndpoints} {clientId : String}
    {verifier : Option String} {h : Past} (hh : Nameless h) :
    Meets (.ofPast identityMust)
      (svc.identify lib req state account adapter endpoints clientId verifier).run h
      fun _ _ => True := by
  unfold identify
  refine nameless_bind (asks_run_orFail (asks_ask.mpr (by rintro ⟨_, _, ⟨⟩⟩))) hh fun response h hh => ?_
  refine nameless_bind (asks_utcNow (by rintro ⟨_, _, ⟨⟩⟩)) hh fun now h hh => ?_
  refine nameless_bind (asks_expiresAt (by rintro ⟨_, _, ⟨⟩⟩)) hh fun expiresAt h hh => ?_
  cases expiresAt with
  | none => trivial
  | some expiresAt =>
    dsimp only
    rw [meets_run_bind, meets_run_orFail, meets_ask]
    refine ⟨fun _ => hh, ?_⟩
    rintro (f | identity) h' -
    · trivial
    · exact nameless_last (asks_run_bind asks_run_ofExcept fun _ =>
        asks_run_bind asks_run_ofExcept fun _ => trivial)

theorem complete_identity_once (companyId : Uuid) (req : CompleteRequest) :
    Meets (.ofPast identityMust) (svc.complete lib companyId req).run [] fun _ _ => True := by
  have hstart : Nameless [] := fun _ h => absurd h List.not_mem_nil
  rw [complete, meets_run_bind]
  have hgauntlet : Meets (.ofPast identityMust) (svc.gauntlet lib req).run [] fun _ _ => True := by
    unfold gauntlet
    refine nameless_bind (verify_asks (by rintro ⟨_, _, ⟨⟩⟩)) hstart fun state h hh => ?_
    refine nameless_bind (pendingAccount_asks (by rintro ⟨_, _, ⟨⟩⟩)) hh fun found h hh => ?_
    obtain ⟨account, adapter, endpoints, clientId⟩ := found
    dsimp only
    rw [meets_run_ite]
    refine ⟨fun _ => ?_, fun _ => identify_once hh⟩
    refine nameless_bind (asks_run_map (storedVerifier_asks (by rintro ⟨_, _, ⟨⟩⟩))) hh ?_
    exact fun verifier h hh => identify_once hh
  refine hgauntlet.mono ?_
  rintro (e | g) h -
  · trivial
  · refine nameless_last (storing_asks ?_ companyId g)
    rintro op hop ⟨_, _, rfl⟩
    exact hop

/-- The script of `complete` about the identity. -/
def identityScript (lib : Crates) (svc : IntegrationsOauthService) : Script (system lib svc) where
  must
    | .complete .. => identityMust
    | _ => fun _ _ => True
  leave _ _ _ := True

theorem identityScript_holds (lib : Crates) (svc : IntegrationsOauthService) :
    (identityScript lib svc).Holds := by
  intro c
  cases c <;> simp only [system, prog]
  case complete companyId req => exact complete_identity_once companyId req
  all_goals exact Meets.trivial fun _ _ => trivial

variable {w₀ : Hub} {ok : Config (system lib svc) → Label (system lib svc) → Prop}
  {cfg : Config (system lib svc)}

/-- A completion has activated the row, and this is the email that the provider has reported to it,
as the identity check takes it. -/
def ActivatedAs (cfg : Config (system lib svc)) (id : Uuid) (email : String) : Prop :=
  ∃ t scopes expiresAt now endpoint token identity raw,
    cfg.Did t (.update id (.activate scopes expiresAt now)) (.ok 1) ∧
    cfg.Did t (.fetchIdentity endpoint token) (.ok identity) ∧ identity.email = some raw ∧
    email = Text.trim raw

theorem ActivatedAs.fits (h₀ : w₀.Idle) (hbypass : svc.sharedMailboxBypass = false)
    (hr : Reach (system lib svc) (· = w₀) ok cfg) {id : Uuid} {email : String}
    (h : ActivatedAs cfg id email) {r : Account} (hrow : cfg.world.accounts.lookup id = some r) :
    Text.toAsciiLowercase email = Text.toAsciiLowercase r.accountRef := by
  obtain ⟨t, scopes, expiresAt, now, endpoint, token, identity, raw, hd, hread, hraw, rfl⟩ := h
  have hX := script_holds lib svc
  obtain ⟨c, hc⟩ := hX.call_of_did hr hd
  obtain ⟨pre, hpre, hm⟩ := hX.past hr hc hd
  cases c with
  | complete companyId req =>
    obtain ⟨g, ev, h', hg, rfl, -⟩ := hm
    have past : ∀ {ev}, ev ∈ pre → ev ∈ cfg.events t := fun hm =>
      hpre.subset (List.mem_cons_of_mem _ hm)
    obtain ⟨endpoints, clientId, identity', -, -, hread', hverified⟩ := hg.verified
    -- the call has read one identity, and that one passed the checks
    have hk := (identityScript_holds lib svc).kept hr t
    rw [hc] at hk
    have honce : ∀ pre op, identityMust pre op → ReadsIdentity op →
        ∀ ev ∈ pre, ¬ ReadsIdentity ev.op := fun pre op hm hop => hm hop
    have heq := hk.once honce (mem_events.mpr hread) (past hread') ⟨_, _, rfl⟩ ⟨_, _, rfl⟩
    cases heq
    obtain ⟨raw', hraw', -, hmatch⟩ := hverified.email.present
    rw [hraw] at hraw'
    cases hraw'
    rw [hbypass] at hmatch
    have hkey := (fetched h₀ hr (mem_events.mp (past hg.read))).2 r hrow
    rw [(Prod.mk.inj hkey).2]
    exact Text.eqIgnoreAsciiCase_iff.mp (by simpa using hmatch)
  | disconnect companyId accountId =>
    obtain ⟨-, hu, -⟩ := hm
    cases hu
  | _ => exact hm.elim

/-- **One connection for an identity.** Calls run one at a time, and they can fail anywhere. Where no
insertion meets an open row of its identity with another spelling, two rows that are both active were
completed for different emails. -/
theorem one_connection_per_identity (h₀ : w₀.Idle) (hw₀ : OnePerIdentity w₀.accounts)
    (hbypass : svc.sharedMailboxBypass = false)
    (hr : Reach (system lib svc) (· = w₀)
      (OneAtATime (fun _ => True) (fun _ => True) OneSpelling) cfg) {id id' : Uuid} {r r' : Account}
    (hrow : cfg.world.accounts.lookup id = some r) (hrow' : cfg.world.accounts.lookup id' = some r')
    (ha : r.status = .active) (ha' : r'.status = .active) (hp : r.provider = r'.provider)
    {email email' : String} (he : ActivatedAs cfg id email) (he' : ActivatedAs cfg id' email')
    (heq : Text.eqIgnoreAsciiCase email email') : id = id' := by
  have hinit : ∀ w, w = w₀ → Rest (fun T _ => OnePerIdentity T) w := by
    rintro w rfl
    exact ⟨hw₀, fun u => by rw [h₀.txs]; rfl⟩
  have hone : OnePerIdentity cfg.world.accounts := by
    refine spelling_solo.solos.always hinit hr (P := fun w => OnePerIdentity w.accounts) ?_ ?_ ?_
    · exact fun hw => hw.keeps
    · exact fun hw => hw.keeps
    · intro t w c v op hs hm
      rw [hs.accounts]
      exact hm
  refine hone id id' r r' hrow hrow' (.inr ha) (.inr ha') ?_
  rw [Account.identity, Account.identity, hp, ← he.fits h₀ hbypass hr hrow,
    ← he'.fits h₀ hbypass hr hrow', Text.eqIgnoreAsciiCase_iff.mp heq]

/-! ## Two authorizations of one mailbox

The crates know the state tokens of the accounts 1 and 2.
-/

theorem oneSpelling_iff {w : Hub} {row : NewAccount} :
    (∀ p ∈ w.accounts.entries, p.2.Open → p.2.identity = row.toAccount.identity →
      p.2.accountRef = row.accountRef) ↔
    ∀ id r, w.accounts.lookup id = some r → r.Open → r.identity = row.toAccount.identity →
      r.accountRef = row.accountRef := by
  constructor
  · exact fun h id r hr => h ⟨id, r⟩ (AList.mem_lookup_iff.mp hr)
  · exact fun h p hp => h p.1 p.2 (AList.mem_lookup_iff.mpr hp)

instance (r : Account) : Decidable r.Open := inferInstanceAs (Decidable (_ ∨ _))

instance (w : Hub) : (op : Sig.Op) → (ans : Sig.Ans op) → Decidable (OneSpelling w op ans)
  | .insertAccount _, _ => decidable_of_iff _ oneSpelling_iff
  | .utcNow, _ | .newUuid, _ | .randomBytes _, _ | .panic, _ | .fetchAccount _, _ | .fetchVerifier _, _
  | .begin, _ | .deleteSnapshot .., _ | .deleteRow _, _ | .claimDue .., _ | .claimById _, _
  | .updateTx .., _ | .commit, _ | .rollback, _ | .drop, _ | .update .., _ | .exchange .., _
  | .fetchIdentity .., _ | .issue .., _ | .readToken _, _ | .rotate .., _ | .revoke _, _ =>
    .isTrue trivial

def ones16B64 : String := "AQEBAQEBAQEBAQEBAQEBAQ"

def ones48B64 : String := "AQEBAQEBAQEBAQEBAQEBAQEBAQEBAQEBAQEBAQEBAQEBAQEBAQEBAQEBAQEBAQEB"

def twinState : OAuthState := ⟨2, "gmail", ones16B64, 600⟩

/-- `twinState` as JSON. -/
def twinPayload : Bytes :=
  [123, 34, 97, 99, 99, 111, 117, 110, 116, 95, 105, 100, 34, 58, 34, 48, 48, 48, 48, 48, 48, 48, 48,
    45, 48, 48, 48, 48, 45, 48, 48, 48, 48, 45, 48, 48, 48, 48, 45, 48, 48, 48, 48, 48, 48, 48, 48, 48,
    48, 48, 50, 34, 44, 34, 112, 114, 111, 118, 105, 100, 101, 114, 34, 58, 34, 103, 109, 97, 105, 108,
    34, 44, 34, 110, 111, 110, 99, 101, 34, 58, 34, 65, 81, 69, 66, 65, 81, 69, 66, 65, 81, 69, 66, 65,
    81, 69, 66, 65, 81, 69, 66, 65, 81, 34, 44, 34, 101, 120, 112, 34, 58, 54, 48, 48, 125]

def twinMac : Bytes :=
  [244, 133, 246, 126, 59, 249, 166, 179, 3, 220, 177, 78, 74, 250, 211, 86, 3, 12, 134, 212, 106, 122,
    121, 58, 91, 215, 90, 128, 179, 142, 32, 48]

def twinPayloadB64 : String :=
  "eyJhY2NvdW50X2lkIjoiMDAwMDAwMDAtMDAwMC0wMDAwLTAwMDAtMDAwMDAwMDAwMDAyIiwicHJvdmlkZXIiOiJnbWFp" ++
    "bCIsIm5vbmNlIjoiQVFFQkFRRUJBUUVCQVFFQkFRRUJBUSIsImV4cCI6NjAwfQ"

def twinMacB64 : String := "9IX2fjv5prMD3LFOSvrTVgMMhtRqenk6W9dagLOOIDA"

/-- The SHA-256 of `ones48B64`. -/
def twinDigest : Bytes :=
  [128, 245, 63, 68, 140, 0, 2, 213, 43, 160, 4, 183, 140, 166, 87, 194, 120, 231, 53, 193, 71, 172,
    169, 183, 86, 104, 87, 206, 143, 57, 157, 17]

def twinTable : List (Bytes × String) :=
  mailTable ++ [(twinPayload, twinPayloadB64), (twinMac, twinMacB64),
    (List.replicate 16 1, ones16B64), (List.replicate 48 1, ones48B64),
    (twinDigest, "gPU_RIwAAtUroAS3jKZXwnjnNcFHrKm3VmhXzo85nRE")]

def twinCrates : Crates where
  toUrlCrate := mailCrates.toUrlCrate
  encode b := (twinTable.lookup b).getD ""
  decode s :=
    if s = twinPayloadB64 then twinPayload else if s = twinMacB64 then twinMac else mailCrates.decode s
  hmacSha256 key msg :=
    if key = mailKey ∧ msg = twinPayload then twinMac else mailCrates.hmacSha256 key msg
  sha256 b := if b = ones48B64.toUTF8.data.toList then twinDigest else mailCrates.sha256 b
  stateToVec s := if s = twinState then .ok twinPayload else mailCrates.stateToVec s
  stateFromSlice b := if b = twinPayload then twinState else mailCrates.stateFromSlice b
  jsonFromSlice := mailCrates.jsonFromSlice
  unprintable := mailCrates.unprintable

/-- The mailbox is authorized and completed as the account 1. -/
def firstConnection : List (Label (system twinCrates mailService)) :=
  [.start 0 (.authorize mailAuthorize), .op 0 (.randomBytes 48) (List.replicate 48 (0 : UInt8)),
    .op 0 .newUuid (1 : Nat), .op 0 .begin (.ok ()),
    .op 0 (.deleteSnapshot "gmail" "user@example.com") (.ok []),
    .op 0 (.insertAccount mailNewRow) (.ok ()), .op 0 .commit (.ok ()),
    .op 0 (.randomBytes 16) (List.replicate 16 (0 : UInt8)), .op 0 .utcNow (0 : Int), .finish 0,
    .start 1 (.complete 9 mailRequest), .op 1 .utcNow (0 : Int),
    .op 1 (.fetchAccount 1) (.ok (some (mailNewRow.toAccount.toRow 1))),
    .op 1 (.fetchVerifier 1) (.ok (some (some zeros48B64))),
    .op 1 (.exchange gmailToken { mailForm with codeVerifier := zeros48B64 }) (.ok mailResponse),
    .op 1 .utcNow (0 : Int),
    .op 1 (.fetchIdentity gmailUserinfo "access-1") (.ok (mailIdentity "user@example.com")),
    .op 1 (.issue mailScope purposeOauthToken mailBundle 3600000000) (.ok (77 : Nat)),
    .op 1 (.update 1 (.activate "" 3600000000 0)) (.ok (1 : Nat)), .finish 1]

def twinRow (accountRef : String) : NewAccount :=
  ⟨2, "gmail", accountRef, gmailAdapter.defaultScopes, some ones48B64⟩

def twinRequest : CompleteRequest := ⟨"code-2", twinPayloadB64 ++ "." ++ twinMacB64⟩

def twinBundle : TokenBundle := { mailBundle with accessToken := "access-2" }

def twinIdentity : IdentityClaims := { mailIdentity "user@example.com" with nonce := ones16B64 }

/-- The mailbox is authorized again, as the account 2 under a reference, and `replacing` deletes the
rows that its statement finds. -/
def secondAuthorize (accountRef : String) (found : List Uuid)
    (replacing : List (Label (system twinCrates mailService))) :
    List (Label (system twinCrates mailService)) :=
  [.start 2 (.authorize ⟨"gmail", accountRef, none⟩),
    .op 2 (.randomBytes 48) (List.replicate 48 (1 : UInt8)), .op 2 .newUuid (2 : Nat),
    .op 2 .begin (.ok ()), .op 2 (.deleteSnapshot "gmail" accountRef) (.ok found)] ++ replacing ++
  [.op 2 (.insertAccount (twinRow accountRef)) (.ok ()), .op 2 .commit (.ok ()),
    .op 2 (.randomBytes 16) (List.replicate 16 (1 : UInt8)), .op 2 .utcNow (0 : Int), .finish 2]

/-- The completion of the account 2. The provider reports the email of the mailbox. -/
def secondComplete (accountRef : String) (storing : List (Label (system twinCrates mailService))) :
    List (Label (system twinCrates mailService)) :=
  [.start 3 (.complete 9 twinRequest), .op 3 .utcNow (0 : Int),
    .op 3 (.fetchAccount 2) (.ok (some ((twinRow accountRef).toAccount.toRow 2))),
    .op 3 (.fetchVerifier 2) (.ok (some (some ones48B64))),
    .op 3 (.exchange gmailToken { mailForm with code := "code-2", codeVerifier := ones48B64 })
      (.ok { mailResponse with accessToken := "access-2" }), .op 3 .utcNow (0 : Int),
    .op 3 (.fetchIdentity gmailUserinfo "access-2")
      (.ok twinIdentity)] ++ storing ++
  [.op 3 (.update 2 (.activate "" 3600000000 0)) (.ok (1 : Nat)), .finish 3]

/-- The mailbox comes again with the spelling that it had. -/
def sameSpelling : List (Label (system twinCrates mailService)) :=
  firstConnection ++
  secondAuthorize "user@example.com" [1] [.op 2 (.deleteRow 1) (.ok (1 : Nat))] ++
  secondComplete "user@example.com"
    [.op 3 (.issue mailScope purposeOauthToken twinBundle 3600000000)
        (.error ⟨OAuthCredentialFailure.codeDuplicateActive, ""⟩),
      .op 3 (.rotate mailScope twinBundle 3600000000) (.ok (78 : Nat))]

/-- The mailbox comes again with another spelling. -/
def otherSpelling : List (Label (system twinCrates mailService)) :=
  firstConnection ++ secondAuthorize "User@Example.com" [] [] ++
  secondComplete "User@Example.com"
    [.op 3 (.issue ⟨9, "gmail", "User@Example.com"⟩ purposeOauthToken twinBundle 3600000000)
      (.ok (78 : Nat))]

def connected (cfg : Config (system twinCrates mailService)) (id : Uuid) (accountRef : String) : Bool :=
  Hub.accounts cfg.world |>.lookup id |>.any fun r =>
    r.provider == "gmail" && r.accountRef == accountRef && r.status == .active

theorem connected_iff {cfg : Config (system twinCrates mailService)} {id : Uuid} {accountRef : String} :
    connected cfg id accountRef ↔ ∃ r, cfg.world.accounts.lookup id = some r ∧ r.provider = "gmail" ∧
      r.accountRef = accountRef ∧ r.status = .active := by
  simp [connected, Option.any_eq_true, and_assoc]

theorem activated_twin {cfg : Config (system twinCrates mailService)} {accountRef : String}
    {storing : List (Label (system twinCrates mailService))}
    (h : ∀ l ∈ secondComplete accountRef storing, l ∈ cfg.hist) :
    ActivatedAs cfg 2 "user@example.com" :=
  ⟨3, "", 3600000000, 0, gmailUserinfo, "access-2", twinIdentity, "user@example.com",
    h _ (by simp [secondComplete]), h _ (by simp [secondComplete]), rfl, by decide⟩

theorem newHub_rows : OnePerIdentity newHub.accounts := by
  intro id id' r r' hr
  cases hr

theorem sameSpelling_runs : (replay (OneOf 4 (fun _ => True) OneSpelling) (.init newHub)
    sameSpelling).any (fun cfg => connected cfg 2 "user@example.com") = true := by
  decide +kernel

theorem one_connection_per_identity_mailbox : ∃ cfg : Config (system twinCrates mailService),
    cfg.hist = sameSpelling.reverse ∧ connected cfg 2 "user@example.com" ∧
      ∀ id r email, cfg.world.accounts.lookup id = some r → r.provider = "gmail" →
        r.status = .active → ActivatedAs cfg id email →
        Text.eqIgnoreAsciiCase email "user@example.com" → id = 2 := by
  obtain ⟨cfg, hr, hh, hend⟩ : ∃ cfg, Reach (system twinCrates mailService) (· = newHub)
      (OneOf 4 (fun _ => True) OneSpelling) cfg ∧ cfg.hist = sameSpelling.reverse ∧
        connected cfg 2 "user@example.com" = true := by
    refine Reach.exists_of_replay ?_ sameSpelling_runs
    rfl
  refine ⟨cfg, hh, hend, fun id r email hrow hp ha he heq => ?_⟩
  obtain ⟨r', hrow', hp', -, ha'⟩ := connected_iff.mp hend
  have htwin : ActivatedAs cfg 2 "user@example.com" :=
    activated_twin fun l hl => by rw [hh, List.mem_reverse]; exact List.mem_append_right _ hl
  exact one_connection_per_identity newHub_idle newHub_rows rfl hr.one_at_a_time.1 hrow hrow' ha ha'
    (hp.trans hp'.symm) he htwin heq

theorem otherSpelling_runs : (replay (OneOf 4 (fun _ => True) storeAnswers) (.init newHub)
    otherSpelling).any (fun cfg => connected cfg 1 "user@example.com" &&
      connected cfg 2 "User@Example.com") = true := by
  decide +kernel

/-! With another spelling, the mailbox has two active rows. No statement and no store verb failed. -/

theorem second_spelling_connects : ∃ (cfg : Config (system twinCrates mailService)) (r r' : Account),
    Reach (system twinCrates mailService) (· = newHub)
      (OneAtATime (fun _ => True) (fun _ => False) storeAnswers) cfg ∧
    mailService.sharedMailboxBypass = false ∧
    cfg.world.accounts.lookup 1 = some r ∧ cfg.world.accounts.lookup 2 = some r' ∧
    r.status = .active ∧ r'.status = .active ∧ r.provider = r'.provider ∧
    ActivatedAs cfg 1 "user@example.com" ∧ ActivatedAs cfg 2 "user@example.com" := by
  obtain ⟨cfg, hr, hh, hend⟩ : ∃ cfg, Reach (system twinCrates mailService) (· = newHub)
      (OneOf 4 (fun _ => True) storeAnswers) cfg ∧ cfg.hist = otherSpelling.reverse ∧
        (connected cfg 1 "user@example.com" && connected cfg 2 "User@Example.com") = true := by
    refine Reach.exists_of_replay ?_ otherSpelling_runs
    rfl
  obtain ⟨h1, h2⟩ := Bool.and_eq_true_iff.mp hend
  obtain ⟨r, hrow, hp, -, ha⟩ := connected_iff.mp h1
  obtain ⟨r', hrow', hp', -, ha'⟩ := connected_iff.mp h2
  have hfirst : ActivatedAs cfg 1 "user@example.com" :=
    ⟨1, "", 3600000000, 0, gmailUserinfo, "access-1", mailIdentity "user@example.com",
      "user@example.com", by simp [Config.Did, hh, otherSpelling, firstConnection],
      by simp [Config.Did, hh, otherSpelling, firstConnection], rfl, by decide⟩
  have htwin : ActivatedAs cfg 2 "user@example.com" :=
    activated_twin fun l hl => by rw [hh, List.mem_reverse]; exact List.mem_append_right _ hl
  exact ⟨cfg, r, r', hr.one_at_a_time.1, rfl, hrow, hrow', ha, ha', hp.trans hp'.symm, hfirst, htwin⟩

end BackboneIntegrations.OAuth
