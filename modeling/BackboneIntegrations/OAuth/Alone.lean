import BackboneIntegrations.Interleave.Solo
import BackboneIntegrations.OAuth.Calls

/-!
# What a call sees alone

The accounts, the store, and the writes of its own transaction. With nothing beside it, a call
reads what it wrote and finds the rows that it read.
-/

open Interleave

namespace BackboneIntegrations.OAuth

/-! ## Tables and stores -/

abbrev Accounts := Table Uuid Account

namespace Write

/-- What a write makes of the table. -/
def run (T : Accounts) : Write → Accounts
  | .delete id => T.erase id
  | .insert row => T.insert row.id row.toAccount
  | .update id u now =>
    match T.lookup id with
    | some r => T.insert id (u.set now r)
    | none => T

end Write

theorem Hub.apply_accounts (w : Hub) (wr : Write) : (w.apply wr).accounts = wr.run w.accounts := by
  cases wr with
  | delete id | insert row => rfl
  | update id u now =>
    simp only [apply, Write.run]
    cases w.accounts.lookup id <;> rfl

theorem Hub.foldl_accounts (ws : List Write) (w : Hub) :
    (ws.foldl apply w).accounts = ws.foldl Write.run w.accounts := by
  induction ws generalizing w with
  | nil => rfl
  | cons wr ws ih => rw [List.foldl_cons, ih, apply_accounts, List.foldl_cons]

theorem Hub.mem_matching {w : Hub} {provider accountRef : String} {id : Uuid} :
    id ∈ w.matching provider accountRef ↔
      ∃ r, w.accounts.lookup id = some r ∧ r.key = (provider, accountRef) := by
  simp only [matching, List.mem_map, List.mem_filter, decide_eq_true_eq]
  constructor
  · rintro ⟨⟨x, r⟩, ⟨he, hp, ha⟩, rfl⟩
    exact ⟨r, AList.mem_lookup_iff.mpr he, by rw [Account.key, hp, ha]⟩
  · rintro ⟨r, hr, hk⟩
    cases hk
    exact ⟨⟨id, r⟩, ⟨AList.mem_lookup_iff.mp hr, rfl, rfl⟩, rfl⟩

theorem scope_eq_iff {co : Uuid} {r r' : Account} : r.scope co = r'.scope co ↔ r.key = r'.key := by
  simp [Account.scope, Account.key]

abbrev Credentials := List Credential

namespace Credentials

def current (cs : Credentials) (scope : CredentialScope) : Option Credential :=
  cs.find? (·.IsCurrent scope)

def withdraw (cs : Credentials) (scope : CredentialScope) : Credentials :=
  cs.map fun c => if c.IsCurrent scope then { c with live := false } else c

variable {cs : Credentials} {scope scope' : CredentialScope}

theorem current_mem {c : Credential} (h : cs.current scope = some c) :
    c ∈ cs ∧ c.scope = scope ∧ c.live := by
  have hp := List.find?_some h
  simp only [decide_eq_true_eq] at hp
  exact ⟨List.mem_of_find?_eq_some h, hp.1, hp.2.2⟩

theorem current_cons (scope : CredentialScope) (b : TokenBundle) (e : Time) (cs : Credentials) :
    current (⟨scope, purposeOauthToken, b, e, true⟩ :: cs) scope =
      some ⟨scope, purposeOauthToken, b, e, true⟩ := by
  simp [current, Credential.IsCurrent]

theorem current_cons_ne {c : Credential} (h : c.scope ≠ scope) :
    current (c :: cs) scope = cs.current scope := by
  simp [current, Credential.IsCurrent, h]

theorem current_withdraw_ne (h : scope' ≠ scope) :
    (cs.withdraw scope).current scope' = cs.current scope' := by
  induction cs with
  | nil => rfl
  | cons c cs ih =>
    rw [withdraw, List.map_cons]
    by_cases hc : c.IsCurrent scope
    · have hne : c.scope ≠ scope' := hc.1 ▸ h.symm
      have hne' : ({ c with live := false } : Credential).scope ≠ scope' := hne
      rw [if_pos hc, current_cons_ne hne, current_cons_ne hne']
      exact ih
    · rw [if_neg hc, current, current, List.find?_cons, List.find?_cons]
      cases decide (c.IsCurrent scope') with
      | true => rfl
      | false => exact ih

theorem filter_withdraw (cs : Credentials) (scope : CredentialScope) :
    (cs.withdraw scope).filter (·.IsCurrent scope) = [] := by
  rw [List.filter_eq_nil_iff]
  intro c hc
  obtain ⟨c', -, rfl⟩ := List.mem_map.mp hc
  split
  · simp [Credential.IsCurrent]
  · simpa using ‹_›

theorem live_of_withdraw {c : Credential} (h : c ∈ cs.withdraw scope) (hl : c.live) : c ∈ cs := by
  obtain ⟨c', hc', rfl⟩ := List.mem_map.mp h
  split at hl
  · cases hl
  · rwa [if_neg ‹_›]

end Credentials

namespace Hub

variable {w : Hub} {scope s : CredentialScope}

theorem current_store (w : Hub) (scope : CredentialScope) (bundle : TokenBundle) (e : Time) :
    (w.store scope purposeOauthToken bundle e).current scope =
      some ⟨scope, purposeOauthToken, bundle, e, true⟩ :=
  Credentials.current_cons ..

theorem current_store_ne (hne : s ≠ scope) (purpose : String) (bundle : TokenBundle) (e : Time) :
    (w.store s purpose bundle e).current scope = w.current scope :=
  Credentials.current_cons_ne hne

theorem current_withdraw_ne (hne : scope ≠ s) : (w.withdraw s).current scope = w.current scope :=
  Credentials.current_withdraw_ne hne

end Hub

/-! ## The view -/

structure View where
  accounts : Accounts
  credentials : Credentials
  writes : List Write

namespace View

variable (v : View)

def queue (wr : Write) : View := { v with writes := v.writes ++ [wr] }
def commit : View := ⟨v.writes.foldl Write.run v.accounts, v.credentials, []⟩
def release : View := { v with writes := [] }
def put (id : Uuid) (r : Account) : View := { v with accounts := v.accounts.insert id r }
def withdraw (scope : CredentialScope) : View :=
  { v with credentials := v.credentials.withdraw scope }
def store (scope : CredentialScope) (purpose : String) (bundle : TokenBundle) (expiresAt : Time) :
    View :=
  { v with credentials := ⟨scope, purpose, bundle, expiresAt, true⟩ :: v.credentials }

/-- What an operation does and answers when no statement fails and the store keeps its port. -/
def next : (op : Op) → Ans op → View → Prop
  | .fetchAccount id, .ok r, v' => r = (v.accounts.lookup id).map (·.toRow id) ∧ v' = v
  | .deleteSnapshot provider accountRef, .ok ids, v' =>
    (∀ id, id ∈ ids ↔ ∃ r, v.accounts.lookup id = some r ∧ r.key = (provider, accountRef)) ∧ v' = v
  | .deleteRow id, .ok _, v' => v.accounts.lookup id ≠ none → v' = v.queue (.delete id)
  | .insertAccount row, .ok (), v' => v.accounts.lookup row.id = none ∧ v' = v.queue (.insert row)
  | .claimDue _ _, .ok (some d), v' =>
    (∃ r, v.accounts.lookup d.id = some r ∧ r.status = .active ∧ d = r.toDue d.id) ∧ v' = v
  | .claimById id, .ok (some d), v' =>
    (∃ r, v.accounts.lookup id = some r ∧ r.status = .active ∧ d = r.toDue id) ∧ v' = v
  | .updateTx id u, .ok n, v' =>
    match (v.accounts.lookup id).filter fun r => u.guard r.status with
    | some _ => n = 1 ∧ ∃ now, v' = v.queue (.update id u now)
    | none => n = 0 ∧ v' = v
  | .commit, .ok (), v' => v' = v.commit
  | .rollback, .ok (), v' | .drop, (), v' => v' = v.release
  | .update id u, .ok n, v' =>
    match (v.accounts.lookup id).filter fun r => u.guard r.status with
    | some r => n = 1 ∧ v' = v.put id (u.set r)
    | none => n = 0 ∧ v' = v
  | .issue scope purpose bundle expiresAt, .ok _, v' =>
    v.credentials.current scope = none ∧ v' = v.store scope purpose bundle expiresAt
  | .readToken scope, .ok b, v' =>
    (∃ c, v.credentials.current scope = some c ∧ c.bundle = b) ∧ v' = v
  | .rotate scope bundle expiresAt, .ok _, v' =>
    (∃ c, v.credentials.current scope = some c) ∧
      v' = (v.withdraw scope).store scope purposeOauthToken bundle expiresAt
  | .revoke scope, .ok (), v' => v' = v.withdraw scope
  | .fetchAccount _, .error _, _ | .fetchVerifier _, .error _, _ | .begin, .error _, _
  | .deleteSnapshot .., .error _, _ | .deleteRow _, .error _, _ | .insertAccount _, .error _, _
  | .claimDue .., .error _, _ | .claimById _, .error _, _ | .updateTx .., .error _, _
  | .commit, .error _, _ | .rollback, .error _, _ | .update .., .error _, _ => False
  | .utcNow, _, v' | .newUuid, _, v' | .randomBytes _, _, v' | .fetchVerifier _, .ok _, v'
  | .begin, .ok (), v' | .claimDue _ _, .ok none, v' | .claimById _, .ok none, v'
  | .exchange .., _, v' | .fetchIdentity .., _, v' | .issue .., .error _, v'
  | .readToken _, .error _, v' | .rotate .., .error _, v' | .revoke _, .error _, v' => v' = v

end View

/-! ## The hub behind the view -/

/-- What a store verb that succeeds has found. -/
def Hub.StoreOk (w : Hub) : (op : Op) → Ans op → Bool
  | .issue scope .., .ok _ => (w.current scope).isNone
  | .readToken scope, .ok b => (w.current scope).any (·.bundle == b)
  | .rotate scope .., .ok _ => (w.current scope).isSome
  | _, _ => true

/-- No statement fails, and a store verb can fail as it likes. -/
def storeAnswers (w : Hub) (op : Sig.Op) (ans : Sig.Ans op) : Prop :=
  Answered op ans ∧ w.StoreOk op ans

instance (w : Hub) (op : Sig.Op) (ans : Sig.Ans op) : Decidable (storeAnswers w op ans) :=
  inferInstanceAs (Decidable (_ ∧ _))

/-- Thread `t` is the only one with writes. -/
structure Sees (t : Tid) (w : Hub) (v : View) : Prop where
  accounts : w.accounts = v.accounts
  credentials : w.credentials = v.credentials
  writes : ∀ u, w.txs.writes u = if u = t then v.writes else []

namespace Sees

variable {t : Tid} {w w' : Hub} {v : View}

theorem writes_self (h : Sees t w v) : w.txs.writes t = v.writes := by rw [h.writes, if_pos rfl]

theorem env {e : Env} (hw : Hub.env e w = some w') (h : Sees t w v) : Sees t w' v := by
  cases e with
  | tick clock =>
    simp only [Hub.env, Option.ite_none_right_eq_some, Option.some.injEq] at hw
    obtain ⟨-, rfl⟩ := hw
    exact ⟨h.accounts, h.credentials, h.writes⟩
  | kill token =>
    cases hw
    exact ⟨h.accounts, h.credentials, h.writes⟩

theorem current (h : Sees t w v) (scope : CredentialScope) :
    w.current scope = v.credentials.current scope := by
  rw [← h.credentials]
  rfl

theorem queue (h : Sees t w v) (wr : Write) : Sees t (w.queue t wr) (v.queue wr) := by
  refine ⟨h.accounts, h.credentials, fun u => ?_⟩
  by_cases hu : u = t
  · subst hu
    simp [View.queue, h.writes_self]
  · simp [Txs.push_writes_ne hu, h.writes, hu]

theorem lock (h : Sees t w v) (id : Uuid) : Sees t (w.lock t id) v :=
  ⟨h.accounts, h.credentials, h.writes⟩

theorem clear_writes (h : Sees t w v) (u : Tid) : (w.txs.clear t).writes u = [] := by
  by_cases hu : u = t
  · subst hu
    exact Txs.clear_writes_self
  · rw [Txs.clear_writes_ne hu, h.writes, if_neg hu]

theorem release (h : Sees t w v) : Sees t (w.release t) v.release :=
  ⟨h.accounts, h.credentials, fun u => by simp [h.clear_writes, View.release]⟩

theorem commit (h : Sees t w v) : Sees t (w.commit t) v.commit := by
  refine ⟨?_, ?_, fun u => ?_⟩
  · rw [Hub.commit_accounts, Hub.foldl_accounts, h.writes_self, h.accounts]
    rfl
  · rw [Hub.commit_credentials, h.credentials]
    rfl
  · simp [h.clear_writes, View.commit]

theorem store (h : Sees t w v) (scope : CredentialScope) (purpose : String) (bundle : TokenBundle)
    (expiresAt : Time) :
    Sees t (w.store scope purpose bundle expiresAt) (v.store scope purpose bundle expiresAt) :=
  ⟨h.accounts, by simp [Hub.store, View.store, h.credentials], h.writes⟩

theorem withdraw (h : Sees t w v) (scope : CredentialScope) :
    Sees t (w.withdraw scope) (v.withdraw scope) :=
  ⟨h.accounts, by simp [Hub.withdraw, View.withdraw, Credentials.withdraw, h.credentials], h.writes⟩

theorem quiet {op : Op} {ans : Ans op} (h : Sees t w v) (ha : Answered op ans)
    (hs : w.StoreOk op ans) (hq : Hub.Quiet op ans) (hn : Hub.next t op ans w = some w) :
    v.next op ans v := by
  cases op with
  | utcNow | randomBytes n | exchange endpoint form | fetchIdentity endpoint token => rfl
  | panic => cases ans
  | newUuid | drop => exact hq.elim
  | begin | insertAccount row | commit | rollback =>
    rcases ans with err | ⟨⟩
    · cases ha
    · exact hq.elim
  | fetchVerifier id =>
    rcases ans with err | x
    · cases ha
    · rfl
  | fetchAccount id =>
    rcases ans with err | r
    · cases ha
    · simp only [Hub.next, Option.ite_none_right_eq_some, h.accounts] at hn
      exact ⟨hn.1, rfl⟩
  | deleteSnapshot provider accountRef =>
    rcases ans with err | ids
    · cases ha
    · simp only [Hub.next, Option.ite_none_right_eq_some] at hn
      refine ⟨fun id => ?_, rfl⟩
      rw [hn.1.mem_iff, Hub.mem_matching, h.accounts]
  | claimDue window attempted | claimById id =>
    rcases ans with err | _ | d
    · cases ha
    · rfl
    · exact hq.elim
  | deleteRow id =>
    rcases ans with err | n
    · cases ha
    · intro hr
      obtain ⟨r, hr⟩ := Option.ne_none_iff_exists'.mp hr
      have hn0 : n = 0 := hq
      simp [Hub.next, h.accounts, hr, hn0] at hn
  | updateTx id u =>
    rcases ans with err | n
    · cases ha
    have hn0 : n = 0 := hq
    simp only [Hub.next, Hub.claimedTarget, h.accounts] at hn
    cases hlook : (v.accounts.lookup id).filter fun r => u.guard r.status with
    | some r => simp [hlook, hn0] at hn
    | none =>
      simp only [View.next, hlook]
      exact ⟨hn0, trivial⟩
  | update id u =>
    rcases ans with err | n
    · cases ha
    have hn0 : n = 0 := hq
    simp only [Hub.next, Hub.statusTarget, h.accounts] at hn
    cases hlook : (v.accounts.lookup id).filter fun r => u.guard r.status with
    | some r => simp [hlook, hn0] at hn
    | none =>
      simp only [View.next, hlook]
      exact ⟨hn0, trivial⟩
  | issue scope purpose bundle expiresAt | rotate scope bundle expiresAt =>
    rcases ans with f | cid
    · rfl
    · exact hq.elim
  | readToken scope =>
    rcases ans with f | b
    · rfl
    · simp only [Hub.StoreOk, h.current, Option.any_eq_true, beq_iff_eq] at hs
      obtain ⟨c, hc, hb⟩ := hs
      exact ⟨⟨c, hc, hb⟩, rfl⟩
  | revoke scope =>
    rcases ans with f | ⟨⟩
    · rfl
    · exact hq.elim

theorem op {op : Op} {ans : Ans op} (h : Sees t w v) (ha : storeAnswers w op ans)
    (hn : Hub.next t op ans w = some w') : ∃ v', v.next op ans v' ∧ Sees t w' v' := by
  obtain ⟨ha, hs⟩ := ha
  cases Hub.next_change hn with
  | newUuid hid => exact ⟨v, rfl, h.accounts, h.credentials, h.writes⟩
  | begin => exact ⟨v, rfl, h.accounts, h.credentials, h.writes⟩
  | @deleteRow id r hr hfree => exact ⟨_, fun _ => rfl, (h.lock id).queue _⟩
  | @insertAccount row hr => exact ⟨_, ⟨h.accounts ▸ hr, rfl⟩, h.queue _⟩
  | @claimDue window attempted d r hr hd hdue hs =>
    exact ⟨v, ⟨⟨r, h.accounts ▸ hr, hdue.1, hd⟩, rfl⟩, h.lock _⟩
  | @claimById id d r hr hd hact hfree =>
    exact ⟨v, ⟨⟨r, h.accounts ▸ hr, hact, hd⟩, rfl⟩, h.lock _⟩
  | @updateTx id u r hr hfree =>
    rw [Hub.claimedTarget, h.accounts] at hr
    refine ⟨v.queue (.update id u (w.began t)), ?_, (h.lock id).queue _⟩
    simp only [View.next, hr]
    exact ⟨trivial, _, rfl⟩
  | commit => exact ⟨_, rfl, h.commit⟩
  | rollback => exact ⟨_, rfl, h.release⟩
  | drop => exact ⟨_, rfl, h.release⟩
  | @update id u r hr hfree =>
    rw [Hub.statusTarget, h.accounts] at hr
    refine ⟨v.put id (u.set r), ?_, ⟨?_, h.credentials, h.writes⟩⟩
    · simp only [View.next, hr]
      exact ⟨trivial, trivial⟩
    · simp [Hub.setStatus, View.put, h.accounts]
  | @issue scope purpose bundle expiresAt cid =>
    -- The store issues where there is no credential, and it rotates where there is one.
    simp only [Hub.StoreOk, Option.isNone_iff_eq_none, h.current] at hs
    exact ⟨_, ⟨hs, rfl⟩, h.store ..⟩
  | @rotate scope bundle expiresAt cid =>
    simp only [Hub.StoreOk, Option.isSome_iff_exists, h.current] at hs
    exact ⟨_, ⟨hs, rfl⟩, (h.withdraw scope).store ..⟩
  | @revoke scope => exact ⟨_, rfl, h.withdraw scope⟩
  | quiet hq =>
    exact ⟨v, h.quiet ha hs hq hn, h⟩

end Sees

/-! ## The contract of a call that runs alone -/

/-- What the provider and the store are known to answer. -/
structure Ports where
  exchange : TokenRequestForm → Except TransportFailure TokenResponse → Prop
  readToken : View → CredentialScope → Except OAuthCredentialFailure TokenBundle → Prop
  rotate : View → CredentialScope → Except OAuthCredentialFailure Uuid → Prop

/-- Nothing beyond what the view says. -/
def Ports.any : Ports := ⟨fun _ _ => True, fun _ _ _ => True, fun _ _ _ => True⟩

def Ports.Allow (P : Ports) (v : View) : (op : Op) → Ans op → Prop
  | .exchange _ form, ans => P.exchange form ans
  | .readToken scope, ans => P.readToken v scope ans
  | .rotate scope .., ans => P.rotate v scope ans
  | _, _ => True

theorem Ports.any_allow (v : View) (op : Op) (ans : Ans op) : Ports.any.Allow v op ans := by
  cases op <;> trivial

def View.contract (P : Ports) (must : View → Op → Prop) : Contract Sig View where
  must := must
  may v op ans v' := P.Allow v op ans ∧ v.next op ans v'

namespace View

variable {P : Ports} {must : View → Op → Prop} {v : View} {α : Type} {Q : α → View → Prop}

@[simp] theorem contract_must : (contract P must).must = must := rfl

theorem meets_utcNow {k : Time → Prog Sig α} :
    Meets (contract P must) (.call (S := Sig) .utcNow k) v Q ↔
      must v .utcNow ∧ ∀ now, Meets (contract P must) (k now) v Q := by
  simp [meets_call, contract, Ports.Allow, next]

theorem meets_newUuid {k : Uuid → Prog Sig α} :
    Meets (contract P must) (.call (S := Sig) .newUuid k) v Q ↔
      must v .newUuid ∧ ∀ id, Meets (contract P must) (k id) v Q := by
  simp [meets_call, contract, Ports.Allow, next]

theorem meets_randomBytes {n : Nat} {k : Bytes → Prog Sig α} :
    Meets (contract P must) (.call (S := Sig) (.randomBytes n) k) v Q ↔
      must v (.randomBytes n) ∧ ∀ bytes, Meets (contract P must) (k bytes) v Q := by
  simp [meets_call, contract, Ports.Allow, next]

theorem meets_one (op : Op) {k : Ans op → Prog Sig α} (ans : Ans op) (v' : View)
    (hp : P.Allow v op ans) (hn : v.next op ans v')
    (hone : ∀ a v₁, v.next op a v₁ → a = ans ∧ v₁ = v') :
    Meets (contract P must) (.call (S := Sig) op k) v Q ↔
      must v op ∧ Meets (contract P must) (k ans) v' Q := by
  rw [meets_call]
  refine and_congr_right' ⟨fun h => h _ _ ⟨hp, hn⟩, ?_⟩
  rintro h a v₁ ⟨-, hn⟩
  obtain ⟨rfl, rfl⟩ := hone a v₁ hn
  exact h

theorem meets_begin {k : Except DbError Unit → Prog Sig α} :
    Meets (contract P must) (.call (S := Sig) .begin k) v Q ↔
      must v .begin ∧ Meets (contract P must) (k (.ok ())) v Q := by
  refine meets_one .begin (.ok ()) v trivial rfl ?_
  rintro (err | ⟨⟩) v' hn
  · exact hn.elim
  · exact ⟨rfl, hn⟩

theorem meets_commit {k : Except DbError Unit → Prog Sig α} :
    Meets (contract P must) (.call (S := Sig) .commit k) v Q ↔
      must v .commit ∧ Meets (contract P must) (k (.ok ())) v.commit Q := by
  refine meets_one .commit (.ok ()) v.commit trivial rfl ?_
  rintro (err | ⟨⟩) v' hn
  · exact hn.elim
  · exact ⟨rfl, hn⟩

theorem meets_rollback {k : Except DbError Unit → Prog Sig α} :
    Meets (contract P must) (.call (S := Sig) .rollback k) v Q ↔
      must v .rollback ∧ Meets (contract P must) (k (.ok ())) v.release Q := by
  refine meets_one .rollback (.ok ()) v.release trivial rfl ?_
  rintro (err | ⟨⟩) v' hn
  · exact hn.elim
  · exact ⟨rfl, hn⟩

theorem meets_drop {k : Unit → Prog Sig α} :
    Meets (contract P must) (.call (S := Sig) .drop k) v Q ↔
      must v .drop ∧ Meets (contract P must) (k ()) v.release Q :=
  meets_one .drop () v.release trivial rfl fun _ _ hn => ⟨rfl, hn⟩

theorem meets_fetchAccount {id : Uuid} {k : Except DbError (Option AccountRow) → Prog Sig α} :
    Meets (contract P must) (.call (S := Sig) (.fetchAccount id) k) v Q ↔
      must v (.fetchAccount id) ∧
        Meets (contract P must) (k (.ok ((v.accounts.lookup id).map (·.toRow id)))) v Q := by
  refine meets_one (.fetchAccount id) (.ok _) v trivial ⟨rfl, rfl⟩ ?_
  rintro (err | r) v' hn
  · exact hn.elim
  · exact ⟨congrArg _ hn.1, hn.2⟩

theorem meets_updateTx {id : Uuid} {u : ClaimedUpdate} {k : Except DbError Nat → Prog Sig α}
    {r : Account} (hr : v.accounts.lookup id = some r) (hg : u.guard r.status)
    (hm : must v (.updateTx id u))
    (hk : ∀ now, Meets (contract P must) (k (.ok 1)) (v.queue (.update id u now)) Q) :
    Meets (contract P must) (.call (S := Sig) (.updateTx id u) k) v Q := by
  refine ⟨hm, ?_⟩
  rintro (err | n) v' ⟨-, hn⟩
  · exact hn.elim
  · simp only [next, hr, Option.filter_some, hg, if_true] at hn
    obtain ⟨rfl, now, rfl⟩ := hn
    exact hk now

theorem meets_update {id : Uuid} {u : StatusUpdate} {k : Except DbError Nat → Prog Sig α}
    {r : Account} (hr : v.accounts.lookup id = some r) (hm : must v (.update id u))
    (hset : u.guard r.status → Meets (contract P must) (k (.ok 1)) (v.put id (u.set r)) Q)
    (hmiss : ¬ u.guard r.status → Meets (contract P must) (k (.ok 0)) v Q) :
    Meets (contract P must) (.call (S := Sig) (.update id u) k) v Q := by
  refine ⟨hm, ?_⟩
  rintro (err | n) v' ⟨-, hn⟩
  · exact hn.elim
  · by_cases hg : u.guard r.status
    · simp only [next, hr, Option.filter_some, hg, if_true] at hn
      obtain ⟨rfl, rfl⟩ := hn
      exact hset hg
    · simp only [next, hr, Option.filter_some, hg] at hn
      obtain ⟨rfl, rfl⟩ := hn
      exact hmiss hg

theorem meets_deleteRow {id : Uuid} {k : Except DbError Nat → Prog Sig α}
    (hr : v.accounts.lookup id ≠ none) (hm : must v (.deleteRow id))
    (hk : ∀ n, Meets (contract P must) (k (.ok n)) (v.queue (.delete id)) Q) :
    Meets (contract P must) (.call (S := Sig) (.deleteRow id) k) v Q := by
  refine ⟨hm, ?_⟩
  rintro (err | n) v' ⟨-, hn⟩
  · exact hn.elim
  · obtain rfl := hn hr
    exact hk n

theorem meets_fetchVerifier {id : Uuid} {k : Except DbError (Option (Option String)) → Prog Sig α} :
    Meets (contract P must) (.call (S := Sig) (.fetchVerifier id) k) v Q ↔
      must v (.fetchVerifier id) ∧ ∀ x, Meets (contract P must) (k (.ok x)) v Q := by
  rw [meets_call]
  refine and_congr_right' ⟨fun h x => h _ _ ⟨trivial, rfl⟩, fun h => ?_⟩
  rintro (err | x) v' ⟨-, hn⟩
  · exact hn.elim
  · exact hn ▸ h x

theorem meets_deleteSnapshot {provider accountRef : String}
    {k : Except DbError (List Uuid) → Prog Sig α} :
    Meets (contract P must) (.call (S := Sig) (.deleteSnapshot provider accountRef) k) v Q ↔
      must v (.deleteSnapshot provider accountRef) ∧ ∀ ids,
        (∀ id, id ∈ ids ↔ ∃ r, v.accounts.lookup id = some r ∧ r.key = (provider, accountRef)) →
          Meets (contract P must) (k (.ok ids)) v Q := by
  rw [meets_call]
  refine and_congr_right' ⟨fun h ids hi => h _ _ ⟨trivial, hi, rfl⟩, fun h => ?_⟩
  rintro (err | ids) v' ⟨-, hn⟩
  · exact hn.elim
  · exact hn.2 ▸ h ids hn.1

theorem meets_insertAccount {row : NewAccount} {k : Except DbError Unit → Prog Sig α} :
    Meets (contract P must) (.call (S := Sig) (.insertAccount row) k) v Q ↔
      must v (.insertAccount row) ∧ (v.accounts.lookup row.id = none →
        Meets (contract P must) (k (.ok ())) (v.queue (.insert row)) Q) := by
  rw [meets_call]
  refine and_congr_right' ⟨fun h hr => h _ _ ⟨trivial, hr, rfl⟩, fun h => ?_⟩
  rintro (err | ⟨⟩) v' ⟨-, hn⟩
  · exact hn.elim
  · exact hn.2 ▸ h hn.1

theorem meets_claimDue {window : Int} {attempted : List Uuid}
    {k : Except DbError (Option DueAccount) → Prog Sig α} :
    Meets (contract P must) (.call (S := Sig) (.claimDue window attempted) k) v Q ↔
      must v (.claimDue window attempted) ∧ Meets (contract P must) (k (.ok none)) v Q ∧
        ∀ d r, v.accounts.lookup d.id = some r → r.status = .active → d = r.toDue d.id →
          Meets (contract P must) (k (.ok (some d))) v Q := by
  rw [meets_call]
  refine and_congr_right' ⟨fun h => ⟨h _ _ ⟨trivial, rfl⟩, fun d r hr ha hd =>
    h _ _ ⟨trivial, ⟨r, hr, ha, hd⟩, rfl⟩⟩, fun h => ?_⟩
  rintro (err | _ | d) v' ⟨-, hn⟩
  · exact hn.elim
  · exact hn ▸ h.1
  · obtain ⟨⟨r, hr, ha, hd⟩, rfl⟩ := hn
    exact h.2 d r hr ha hd

theorem meets_claimById {id : Uuid} {k : Except DbError (Option DueAccount) → Prog Sig α} :
    Meets (contract P must) (.call (S := Sig) (.claimById id) k) v Q ↔
      must v (.claimById id) ∧ Meets (contract P must) (k (.ok none)) v Q ∧
        ∀ r, v.accounts.lookup id = some r → r.status = .active →
          Meets (contract P must) (k (.ok (some (r.toDue id)))) v Q := by
  rw [meets_call]
  refine and_congr_right' ⟨fun h => ⟨h _ _ ⟨trivial, rfl⟩, fun r hr ha =>
    h _ _ ⟨trivial, ⟨r, hr, ha, rfl⟩, rfl⟩⟩, fun h => ?_⟩
  rintro (err | _ | d) v' ⟨-, hn⟩
  · exact hn.elim
  · exact hn ▸ h.1
  · obtain ⟨⟨r, hr, ha, rfl⟩, rfl⟩ := hn
    exact h.2 r hr ha

theorem meets_exchange {endpoint : ValidatedEndpoint} {form : TokenRequestForm}
    {k : Except TransportFailure TokenResponse → Prog Sig α} :
    Meets (contract P must) (.call (S := Sig) (.exchange endpoint form) k) v Q ↔
      must v (.exchange endpoint form) ∧
        ∀ a, P.exchange form a → Meets (contract P must) (k a) v Q := by
  rw [meets_call]
  refine and_congr_right' ⟨fun h a ha => h _ _ ⟨ha, rfl⟩, fun h => ?_⟩
  rintro a v' ⟨ha, hn⟩
  exact hn ▸ h a ha

theorem meets_fetchIdentity {endpoint : ValidatedEndpoint} {token : String}
    {k : Except TransportFailure IdentityClaims → Prog Sig α} :
    Meets (contract P must) (.call (S := Sig) (.fetchIdentity endpoint token) k) v Q ↔
      must v (.fetchIdentity endpoint token) ∧ ∀ a, Meets (contract P must) (k a) v Q := by
  simp [meets_call, contract, Ports.Allow, next]

theorem meets_issue {scope : CredentialScope} {purpose : String} {bundle : TokenBundle}
    {expiresAt : Time} {k : Except OAuthCredentialFailure Uuid → Prog Sig α} :
    Meets (contract P must) (.call (S := Sig) (.issue scope purpose bundle expiresAt) k) v Q ↔
      must v (.issue scope purpose bundle expiresAt) ∧
        (∀ f, Meets (contract P must) (k (.error f)) v Q) ∧
          ∀ cid, v.credentials.current scope = none →
            Meets (contract P must) (k (.ok cid)) (v.store scope purpose bundle expiresAt) Q := by
  rw [meets_call]
  refine and_congr_right' ⟨fun h => ⟨fun f => h _ _ ⟨trivial, rfl⟩, fun cid hc =>
    h _ _ ⟨trivial, hc, rfl⟩⟩, fun h => ?_⟩
  rintro (f | cid) v' ⟨-, hn⟩
  · exact hn ▸ h.1 f
  · exact hn.2 ▸ h.2 cid hn.1

theorem meets_readToken {scope : CredentialScope}
    {k : Except OAuthCredentialFailure TokenBundle → Prog Sig α} :
    Meets (contract P must) (.call (S := Sig) (.readToken scope) k) v Q ↔
      must v (.readToken scope) ∧
        (∀ f, P.readToken v scope (.error f) → Meets (contract P must) (k (.error f)) v Q) ∧
          ∀ c, v.credentials.current scope = some c → P.readToken v scope (.ok c.bundle) →
            Meets (contract P must) (k (.ok c.bundle)) v Q := by
  rw [meets_call]
  refine and_congr_right' ⟨fun h => ⟨fun f hf => h _ _ ⟨hf, rfl⟩, fun c hc hp =>
    h _ _ ⟨hp, ⟨c, hc, rfl⟩, rfl⟩⟩, fun h => ?_⟩
  rintro (f | b) v' ⟨hp, hn⟩
  · exact hn ▸ h.1 f hp
  · obtain ⟨⟨c, hc, rfl⟩, rfl⟩ := hn
    exact h.2 c hc hp

theorem meets_rotate {scope : CredentialScope} {bundle : TokenBundle} {expiresAt : Time}
    {k : Except OAuthCredentialFailure Uuid → Prog Sig α} :
    Meets (contract P must) (.call (S := Sig) (.rotate scope bundle expiresAt) k) v Q ↔
      must v (.rotate scope bundle expiresAt) ∧
        (∀ f, P.rotate v scope (.error f) → Meets (contract P must) (k (.error f)) v Q) ∧
          ∀ cid c, v.credentials.current scope = some c → P.rotate v scope (.ok cid) →
            Meets (contract P must) (k (.ok cid))
              ((v.withdraw scope).store scope purposeOauthToken bundle expiresAt) Q := by
  rw [meets_call]
  refine and_congr_right' ⟨fun h => ⟨fun f hf => h _ _ ⟨hf, rfl⟩, fun cid c hc hp =>
    h _ _ ⟨hp, ⟨c, hc⟩, rfl⟩⟩, fun h => ?_⟩
  rintro (f | cid) v' ⟨hp, hn⟩
  · exact hn ▸ h.1 f hp
  · obtain ⟨⟨c, hc⟩, rfl⟩ := hn
    exact h.2 cid c hc hp

theorem meets_revoke {scope : CredentialScope}
    {k : Except OAuthCredentialFailure Unit → Prog Sig α} :
    Meets (contract P must) (.call (S := Sig) (.revoke scope) k) v Q ↔
      must v (.revoke scope) ∧
        (∀ f, Meets (contract P must) (k (.error f)) v Q) ∧
        Meets (contract P must) (k (.ok ())) (v.withdraw scope) Q := by
  rw [meets_call]
  refine and_congr_right' ⟨fun h => ⟨fun f => h _ _ ⟨trivial, rfl⟩, h _ _ ⟨trivial, rfl⟩⟩,
    fun h => ?_⟩
  rintro (f | ⟨⟩) v' ⟨-, hn⟩
  · exact hn ▸ h.1 f
  · exact hn ▸ h.2

end View

end BackboneIntegrations.OAuth
