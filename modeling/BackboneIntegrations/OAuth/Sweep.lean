import BackboneIntegrations.Interleave.Agenda
import BackboneIntegrations.OAuth.Agree
import BackboneIntegrations.OAuth.Lifetimes

/-!
# The sweeps

`refresh_due` of the service and `refresh_oauth_credentials` of the job, alone on their table, with
answers that depend on the account only. The job remembers which accounts it has attempted; the
service does not.
-/

open Interleave

namespace BackboneIntegrations.OAuth

/-! ## A table that nobody else uses -/

namespace Hub

/-- Nobody holds a row, and thread `t` has written nothing. -/
structure Still (w : Hub) (t : Tid) : Prop where
  free : ∀ id, w.txs.holder id = none
  clean : w.txs.writes t = []

def begun (w : Hub) (t : Tid) : Hub := { w with began := Function.update w.began t w.clock }

/-- The world in which `t` has claimed the account. -/
def claim (w : Hub) (t : Tid) (id : Uuid) : Hub := (w.begun t).lock t id

def rows (w : Hub) : Uuid → Option Account := fun id => w.accounts.lookup id

@[simp] theorem begun_accounts (w : Hub) (t : Tid) : (w.begun t).accounts = w.accounts := rfl
@[simp] theorem begun_txs (w : Hub) (t : Tid) : (w.begun t).txs = w.txs := rfl
@[simp] theorem begun_clock (w : Hub) (t : Tid) : (w.begun t).clock = w.clock := rfl
@[simp] theorem begun_began (w : Hub) (t : Tid) : (w.begun t).began t = w.clock :=
  Function.update_self ..
@[simp] theorem lock_began (w : Hub) (t : Tid) (id : Uuid) : (w.lock t id).began = w.began := rfl
@[simp] theorem lock_clock (w : Hub) (t : Tid) (id : Uuid) : (w.lock t id).clock = w.clock := rfl
@[simp] theorem queue_clock (w : Hub) (t : Tid) (wr : Write) : (w.queue t wr).clock = w.clock := rfl
@[simp] theorem release_clock (w : Hub) (t : Tid) : (w.release t).clock = w.clock := rfl

end Hub

/-- Thread `t` is in the transaction that claimed the account, and has no other lock. -/
structure Handling (w : Hub) (t : Tid) (id : Uuid) (r : Account) : Prop where
  row : w.accounts.lookup id = some r
  active : r.status = .active
  holder : ∀ id', w.txs.holder id' = if id' = id then some t else none
  clean : w.txs.writes t = []
  began : w.began t = w.clock

section

variable {w : Hub} {t : Tid} {id : Uuid} {r : Account}

theorem Handling.claimed (h : Handling w t id r) : Claimed w t (r.toDue id) where
  row := ⟨r, h.row, h.active, rfl⟩
  held := (h.holder id).trans (if_pos rfl)
  clean := h.clean

theorem Hub.Still.claim (h : w.Still t) (hr : w.accounts.lookup id = some r)
    (hactive : r.status = .active) : Handling (w.claim t id) t id r where
  row := hr
  active := hactive
  holder id' := by
    rw [Hub.claim, Hub.lock_txs, Txs.lock_holder, Hub.begun_txs, h.free]
  clean := h.clean
  began := w.begun_began t

theorem Handling.rotated (h : Handling w t id r) (scope : CredentialScope) (purpose : String)
    (b : TokenBundle) (e : Time) : Handling ((w.withdraw scope).store scope purpose b e) t id r :=
  ⟨h.row, h.active, h.holder, h.clean, h.began⟩

theorem Handling.only (h : Handling w t id r) {id' : Uuid} (h' : w.txs.holder id' = some t) : id' = id := by
  by_contra hne
  rw [h.holder, if_neg hne] at h'
  cases h'

end

/-! ### The rules of its statements -/

def Op.Statement : Op → Prop
  | .utcNow | .begin | .commit | .rollback | .drop | .updateTx .. => True
  | _ => False

/-- The statements of the call succeed, and none of them is noted. -/
structure Succeeds {β : Type} (answers : Hub → (op : Op) → Ans op → Prop) (note : Event Sig → Option β) :
    Prop where
  answered : ∀ {w op a}, op.Statement → (answers w op a ↔ Answered op a)
  silent : ∀ {op a}, op.Statement → note ⟨op, a⟩ = none

namespace Succeeds

variable {α β : Type} {answers : Hub → (op : Op) → Ans op → Prop} {note : Event Sig → Option β} {w : Hub}
  {t : Tid} {log : List β} {Q : α → Hub × List β → Prop}

theorem one (hG : Succeeds answers note) (op : Op) {k : Ans op → Prog Sig α} (a : Ans op) (w' : Hub)
    (hop : op.Statement) (hans : Answered op a) (hnext : Hub.next t op a w = some w')
    (hone : ∀ a' w₁, Answered op a' → Hub.next t op a' w = some w₁ → a' = a) :
    Meets (.noting (Hub.next t) answers note) (.call (S := Sig) op k) (w, log) Q ↔
      Meets (.noting (Hub.next t) answers note) (k a) (w', log) Q :=
  meets_noting_silent (S := Sig) op a w' ((hG.answered hop).mpr hans) hnext (hG.silent hop)
    fun a' w₁ ha => hone a' w₁ ((hG.answered hop).mp ha)

theorem begin (hG : Succeeds answers note) {k : Except DbError Unit → Prog Sig α} :
    Meets (.noting (Hub.next t) answers note) (.call (S := Sig) .begin k) (w, log) Q ↔
      Meets (.noting (Hub.next t) answers note) (k (.ok ())) (w.begun t, log) Q := by
  refine hG.one .begin (.ok ()) (w.begun t) trivial rfl rfl ?_
  rintro (e | ⟨⟩) w₁ ha -
  · cases ha
  · rfl

theorem commit (hG : Succeeds answers note) {k : Except DbError Unit → Prog Sig α} :
    Meets (.noting (Hub.next t) answers note) (.call (S := Sig) .commit k) (w, log) Q ↔
      Meets (.noting (Hub.next t) answers note) (k (.ok ())) (w.commit t, log) Q := by
  refine hG.one .commit (.ok ()) (w.commit t) trivial rfl rfl ?_
  rintro (e | ⟨⟩) w₁ ha -
  · cases ha
  · rfl

theorem rollback (hG : Succeeds answers note) {k : Except DbError Unit → Prog Sig α} :
    Meets (.noting (Hub.next t) answers note) (.call (S := Sig) .rollback k) (w, log) Q ↔
      Meets (.noting (Hub.next t) answers note) (k (.ok ())) (w.release t, log) Q := by
  refine hG.one .rollback (.ok ()) (w.release t) trivial rfl rfl ?_
  rintro (e | ⟨⟩) w₁ ha -
  · cases ha
  · rfl

theorem drop (hG : Succeeds answers note) {k : Unit → Prog Sig α} :
    Meets (.noting (Hub.next t) answers note) (.call (S := Sig) .drop k) (w, log) Q ↔
      Meets (.noting (Hub.next t) answers note) (k ()) (w.release t, log) Q :=
  hG.one .drop () (w.release t) trivial rfl rfl fun _ _ _ _ => rfl

theorem utcNow (hG : Succeeds answers note) {k : Time → Prog Sig α} :
    Meets (.noting (Hub.next t) answers note) (.call (S := Sig) .utcNow k) (w, log) Q ↔
      Meets (.noting (Hub.next t) answers note) (k w.clock) (w, log) Q := by
  refine hG.one .utcNow w.clock w trivial rfl (if_pos rfl) ?_
  intro now w₁ _ hnext
  simp only [Hub.next] at hnext
  split at hnext
  · assumption
  · cases hnext

theorem updateTx (hG : Succeeds answers note) {id : Uuid} {r : Account} (h : Handling w t id r)
    {u : ClaimedUpdate} (hu : u.guard .active) {k : Except DbError Nat → Prog Sig α} :
    Meets (.noting (Hub.next t) answers note) (.call (S := Sig) (.updateTx id u) k) (w, log) Q ↔
      Meets (.noting (Hub.next t) answers note) (k (.ok 1))
        ((w.lock t id).queue t (.update id u (w.began t)), log) Q := by
  have htarget : w.claimedTarget id u = some r := by
    rw [Hub.claimedTarget_eq_some, h.active]
    exact ⟨h.row, hu⟩
  refine hG.one (.updateTx id u) (.ok 1) _ trivial rfl ?_ ?_
  · simp [Hub.next, htarget, Txs.FreeFor, h.holder]
  · rintro (e | n) w₁ ha hnext
    · cases ha
    · simp only [Hub.next, htarget] at hnext
      split at hnext
      · rename_i hn
        rw [hn.1]
      · cases hnext

theorem utcNow_bind {ε : Type} (hG : Succeeds answers note) {k : Time → Flow ε α}
    {Q : Except ε α → Hub × List β → Prop} :
    Meets (.noting (Hub.next t) answers note) (OAuth.utcNow >>= k).run (w, log) Q ↔
      Meets (.noting (Hub.next t) answers note) (k w.clock).run (w, log) Q := by
  rw [meets_run_bind, OAuth.utcNow, meets_run_answer, ask, Prog.ask, hG.utcNow]
  rfl

end Succeeds

theorem noting_panic {α β : Type} {answers : Hub → (op : Op) → Ans op → Prop} {note : Event Sig → Option β}
    {t : Tid} {s : Hub × List β} {Q : α → Hub × List β → Prop} {k : Empty → Prog Sig α} :
    ¬ Meets (.noting (Hub.next t) answers note) (.call (S := Sig) .panic k) s Q := by
  rintro ⟨⟨e, -⟩, -⟩
  exact nomatch (e : Empty)

/-! ## Answers that depend on the account -/

/-- The store and the provider answer for the account that is locked. No statement fails. -/
def given (ans : Uuid → Answers) (t : Tid) (w : Hub) : (op : Op) → Ans op → Prop
  | .readToken _, r => ∃ id, w.txs.holder id = some t ∧ r = (ans id).read
  | .exchange .., r => ∃ id, w.txs.holder id = some t ∧ r = (ans id).exchange
  | .rotate .., r => ∃ id, w.txs.holder id = some t ∧ r = (ans id).rotate
  | op, r => Answered op r

/-- The account that a sweep claims. -/
def claimed? : Event Sig → Option Uuid
  | ⟨.claimDue .., .ok (some d)⟩ => some d.id
  | _ => none

/-- A sweep alone, with the accounts that it attempts. -/
abbrev sweeping (ans : Uuid → Answers) (t : Tid) : Contract Sig (Hub × List Uuid) :=
  .noting (Hub.next t) (given ans t) claimed?

theorem given_succeeds {ans : Uuid → Answers} {t : Tid} : Succeeds (given ans t) claimed? where
  answered {w op a} hop := by
    cases op <;> first | exact hop.elim | exact Iff.rfl
  silent {op a} hop := by
    cases op <;> first | exact hop.elim | rfl

section

variable {ans : Uuid → Answers} {w w' : Hub} {t : Tid} {id : Uuid} {r : Account} {log : List Uuid}

/-! ### The rules of the contract -/

section

variable {α : Type} {Q : α → Hub × List Uuid → Prop}

theorem Handling.sweeping_readToken (h : Handling w t id r) {scope : CredentialScope}
    {k : Except OAuthCredentialFailure TokenBundle → Prog Sig α} :
    Meets (sweeping ans t) (.call (S := Sig) (.readToken scope) k) (w, log) Q ↔
      Meets (sweeping ans t) (k (ans id).read) (w, log) Q := by
  refine meets_noting_silent (S := Sig) (.readToken scope) (ans id).read w ⟨id, h.claimed.held, rfl⟩ rfl rfl ?_
  rintro a w₁ ⟨id', hid, rfl⟩ -
  rw [h.only hid]

theorem Handling.sweeping_exchange (h : Handling w t id r) {endpoint : ValidatedEndpoint}
    {form : TokenRequestForm} {k : Except TransportFailure TokenResponse → Prog Sig α} :
    Meets (sweeping ans t) (.call (S := Sig) (.exchange endpoint form) k) (w, log) Q ↔
      Meets (sweeping ans t) (k (ans id).exchange) (w, log) Q := by
  refine meets_noting_silent (S := Sig) (.exchange endpoint form) (ans id).exchange w ⟨id, h.claimed.held, rfl⟩ rfl rfl ?_
  rintro a w₁ ⟨id', hid, rfl⟩ -
  rw [h.only hid]

theorem Handling.sweeping_refused (h : Handling w t id r) {scope : CredentialScope} {b : TokenBundle}
    {e : Time} {k : Except OAuthCredentialFailure Uuid → Prog Sig α} {f : OAuthCredentialFailure}
    (hf : (ans id).rotate = .error f) :
    Meets (sweeping ans t) (.call (S := Sig) (.rotate scope b e) k) (w, log) Q ↔
      Meets (sweeping ans t) (k (.error f)) (w, log) Q := by
  refine meets_noting_silent (S := Sig) (.rotate scope b e) (.error f) w ⟨id, h.claimed.held, hf.symm⟩ rfl rfl ?_
  rintro a w₁ ⟨id', hid, rfl⟩ -
  rw [h.only hid, hf]

theorem Handling.sweeping_rotated (h : Handling w t id r) {scope : CredentialScope} {b : TokenBundle}
    {e : Time} {k : Except OAuthCredentialFailure Uuid → Prog Sig α} {cid : Uuid}
    (hr : (ans id).rotate = .ok cid) :
    Meets (sweeping ans t) (.call (S := Sig) (.rotate scope b e) k) (w, log) Q ↔
      Meets (sweeping ans t) (k (.ok cid))
        ((w.withdraw scope).store scope purposeOauthToken b e, log) Q := by
  refine meets_noting_silent (S := Sig) (.rotate scope b e) (.ok cid) _ ⟨id, h.claimed.held, hr.symm⟩ rfl rfl ?_
  rintro a w₁ ⟨id', hid, rfl⟩ -
  rw [h.only hid, hr]

section

variable {ε β : Type} {Q : Except ε β → Hub × List Uuid → Prop}

theorem Handling.read_bind (h : Handling w t id r) {scope : CredentialScope}
    {k : Except OAuthCredentialFailure TokenBundle → Flow ε β} :
    Meets (sweeping ans t) (Prog.answer (ask (.readToken scope)) >>= k).run (w, log) Q ↔
      Meets (sweeping ans t) (k (ans id).read).run (w, log) Q := by
  rw [meets_run_bind, meets_run_answer, ask, Prog.ask, h.sweeping_readToken]
  rfl

theorem Handling.exchange_bind (h : Handling w t id r) {endpoint : ValidatedEndpoint}
    {form : TokenRequestForm} {k : Except TransportFailure TokenResponse → Flow ε β} :
    Meets (sweeping ans t) (Prog.answer (ask (.exchange endpoint form)) >>= k).run (w, log) Q ↔
      Meets (sweeping ans t) (k (ans id).exchange).run (w, log) Q := by
  rw [meets_run_bind, meets_run_answer, ask, Prog.ask, h.sweeping_exchange]
  rfl

end

end

end

/-! ## The accounts that are due -/

/-- The time under which a sweep finds the account. -/
def Account.dueAt (window : Int) (now : Time) (r : Account) : Option Time :=
  if r.status = .active then r.expiresAt.filter (· < now + window * microsPerSecond) else none

/-- The accounts that are due now. -/
def Hub.dueIds (w : Hub) (window : Int) : List Uuid :=
  (w.accounts.entries.filter fun e => (e.2.dueAt window w.clock).isSome).map (·.1)

section

variable {w : Hub} {t : Tid} {id : Uuid} {r : Account} {window : Int} {now e : Time}
  {attempted past : List Uuid} {A : Agenda Uuid Account Time}

theorem Account.dueAt_eq_some : r.dueAt window now = some e ↔
    r.status = .active ∧ r.expiresAt = some e ∧ e < now + window * microsPerSecond := by
  unfold dueAt
  split
  · rename_i hactive
    simp [hactive, Option.filter_eq_some_iff]
  · rename_i hactive
    simp [hactive]

theorem Hub.mem_dueIds : id ∈ w.dueIds window ↔
    ∃ r e, w.accounts.lookup id = some r ∧ r.dueAt window w.clock = some e := by
  unfold dueIds
  simp only [List.mem_map, List.mem_filter, Option.isSome_iff_exists]
  constructor
  · rintro ⟨⟨id, r⟩, ⟨hmem, e, he⟩, rfl⟩
    exact ⟨r, e, AList.mem_lookup_iff.mpr hmem, he⟩
  · rintro ⟨r, e, hr, he⟩
    exact ⟨⟨id, r⟩, ⟨AList.mem_lookup_iff.mp hr, e, he⟩, rfl⟩

theorem Hub.dueIds_nodup : (w.dueIds window).Nodup := by
  have hsub : (w.dueIds window).Sublist w.accounts.keys := List.filter_sublist.map _
  exact hsub.nodup w.accounts.nodupKeys

theorem Hub.rows_finite : {id | w.rows id ≠ none}.Finite := by
  refine (List.finite_toSet w.accounts.keys).subset fun id hid => ?_
  obtain ⟨r, hr⟩ := Option.ne_none_iff_exists'.mp hid
  exact AList.mem_keys.mpr (AList.lookup_isSome.mp (Option.isSome_iff_exists.mpr ⟨r, hr⟩))

theorem Hub.Still.due_iff (h : w.Still t) (hkey : A.key = Account.dueAt window w.clock)
    (hpast : ∀ x, x ∈ attempted ↔ A.once ∧ x ∈ past) : A.due w.rows past id = some e ↔
      ∃ r, w.accounts.lookup id = some r ∧ (w.begun t).Due t window attempted id r ∧
        r.expiresAt = some e := by
  unfold Agenda.due
  by_cases hid : id ∈ attempted
  · rw [if_pos ((hpast id).mp hid)]
    refine iff_of_false nofun ?_
    rintro ⟨r, -, ⟨-, -, hnot, -⟩, -⟩
    exact hnot hid
  · rw [if_neg (mt (hpast id).mpr hid), Option.bind_eq_some_iff]
    refine exists_congr fun r => and_congr_right fun hr => ?_
    rw [hkey, Account.dueAt_eq_some]
    constructor
    · rintro ⟨hactive, he, hlt⟩
      refine ⟨⟨hactive, ⟨e, he, ?_⟩, hid, .inl (h.free id)⟩, he⟩
      rwa [begun_began]
    · rintro ⟨⟨hactive, ⟨x, hx, hlt⟩, -, -⟩, he⟩
      rw [Option.mem_def, he] at hx
      cases hx
      rw [begun_began] at hlt
      exact ⟨hactive, he, hlt⟩

theorem Hub.Still.soonest_iff (h : w.Still t) (hkey : A.key = Account.dueAt window w.clock)
    (hpast : ∀ x, x ∈ attempted ↔ A.once ∧ x ∈ past) (hr : w.accounts.lookup id = some r) :
    A.Soonest w.rows past id ↔
      (w.begun t).Due t window attempted id r ∧ (w.begun t).Soonest t window attempted r := by
  unfold Agenda.Soonest Hub.Soonest
  constructor
  · rintro ⟨k, hk, hleast⟩
    obtain ⟨r', hr', hdue, hexp⟩ := (h.due_iff hkey hpast).mp hk
    rw [hr] at hr'
    cases hr'
    refine ⟨hdue, ?_⟩
    rintro ⟨id', r'⟩ hmem hdue' x hx y hy
    rw [Option.mem_def, hexp] at hx
    cases hx
    exact hleast id' y ((h.due_iff hkey hpast).mpr ⟨r', AList.mem_lookup_iff.mpr hmem, hdue', hy⟩)
  · rintro ⟨hdue, hleast⟩
    obtain ⟨e, he, -⟩ := hdue.2.1
    refine ⟨e, (h.due_iff hkey hpast).mpr ⟨r, hr, hdue, he⟩, fun id' l hl => ?_⟩
    obtain ⟨r', hr', hdue', hl⟩ := (h.due_iff hkey hpast).mp hl
    exact hleast ⟨id', r'⟩ (AList.mem_lookup_iff.mp hr') hdue' e he l hl

theorem Hub.Still.claimDue {α β : Type} {answers : Hub → (op : Op) → Ans op → Prop}
    {note : Event Sig → Option β} (h : w.Still t) (hkey : A.key = Account.dueAt window w.clock)
    (hpast : ∀ x, x ∈ attempted ↔ A.once ∧ x ∈ past)
    (hans : ∀ a, answers (w.begun t) (.claimDue window attempted) a ↔ Answered (.claimDue window attempted) a)
    {log : List β} {Q : α → Hub × List β → Prop}
    {k : Except DbError (Option DueAccount) → Prog Sig α} :
    Meets (.noting (Hub.next t) answers note) (.call (S := Sig) (.claimDue window attempted) k)
        (w.begun t, log) Q ↔
      ((∀ x, A.due w.rows past x = none) → Meets (.noting (Hub.next t) answers note) (k (.ok none))
        (w.begun t, log ++ (note ⟨.claimDue window attempted, .ok none⟩).toList) Q) ∧
      ∀ x r, w.rows x = some r → A.Soonest w.rows past x →
        Meets (.noting (Hub.next t) answers note) (k (.ok (some (r.toDue x))))
          (w.claim t x, log ++ (note ⟨.claimDue window attempted, .ok (some (r.toDue x))⟩).toList) Q := by
  -- The statement skips what is locked or attempted. Nothing is locked, so what it finds is the
  -- agenda.
  have hempty : (∀ x, A.due w.rows past x = none) ↔
      ∀ e ∈ (w.begun t).accounts.entries, ¬ (w.begun t).Due t window attempted e.1 e.2 := by
    constructor
    · rintro hnone ⟨id, r⟩ hmem hdue
      obtain ⟨e, he, -⟩ := hdue.2.1
      have hsome := (h.due_iff hkey hpast).mpr ⟨r, AList.mem_lookup_iff.mpr hmem, hdue, he⟩
      rw [hnone id] at hsome
      cases hsome
    · intro hno x
      by_contra hx
      obtain ⟨e, he⟩ := Option.ne_none_iff_exists'.mp hx
      obtain ⟨r, hr, hdue, -⟩ := (h.due_iff hkey hpast).mp he
      exact hno ⟨x, r⟩ (AList.mem_lookup_iff.mp hr) hdue
  have hclaim : ∀ {x r}, w.rows x = some r → A.Soonest w.rows past x →
      Hub.next t (.claimDue window attempted) (.ok (some (r.toDue x))) (w.begun t) =
        some (w.claim t x) := by
    intro x r hr hs
    have hr' : w.accounts.lookup x = some r := hr
    simp [Hub.next, Account.toDue, hr', (h.soonest_iff hkey hpast hr).mp hs, Hub.claim]
  rw [meets_call]
  constructor
  · rintro ⟨-, hmay⟩
    constructor
    · intro hnone
      refine hmay (.ok none) (w.begun t, _) ⟨(hans _).mpr rfl, ?_, rfl⟩
      simp only [Hub.next]
      exact if_pos (hempty.mp hnone)
    · intro x r hr hs
      exact hmay (.ok (some (r.toDue x))) (w.claim t x, _) ⟨(hans _).mpr rfl, hclaim hr hs, rfl⟩
  · rintro ⟨hnone, hsome⟩
    constructor
    · by_cases he : ∀ x, A.due w.rows past x = none
      · refine ⟨.ok none, w.begun t, (hans _).mpr rfl, ?_⟩
        simp only [Hub.next]
        exact if_pos (hempty.mp he)
      · obtain ⟨y, hy⟩ := not_forall.mp he
        obtain ⟨l, hl⟩ := Option.ne_none_iff_exists'.mp hy
        obtain ⟨x, k, hk, hleast, -⟩ := Agenda.exists_soonest Hub.rows_finite y hl
        obtain ⟨r, hr⟩ := Option.ne_none_iff_exists'.mp (Agenda.rows_of_due hk)
        exact ⟨.ok (some (r.toDue x)), _, (hans _).mpr rfl, hclaim hr ⟨k, hk, hleast⟩⟩
    · rintro (err | _ | d) ⟨w₁, log'⟩ ⟨ha, hnext, rfl⟩
      · cases (hans _).mp ha
      · simp only [Hub.next] at hnext
        split at hnext
        · rename_i hno
          cases hnext
          exact hnone (hempty.mpr hno)
        · cases hnext
      · simp only [Hub.next] at hnext
        split at hnext
        · rename_i r hr
          split at hnext
          · rename_i hd
            cases hnext
            have hm := hsome d.id r hr ((h.soonest_iff hkey hpast hr).mpr hd.2)
            rw [← hd.1] at hm
            exact hm
          · cases hnext
        · cases hnext

theorem Hub.Still.sweeping_claim {ans : Uuid → Answers} (h : w.Still t)
    (hkey : A.key = Account.dueAt window w.clock) (hpast : ∀ x, x ∈ attempted ↔ A.once ∧ x ∈ past) {α : Type}
    {Q : α → Hub × List Uuid → Prop} {k : Except DbError (Option DueAccount) → Prog Sig α} :
    Meets (sweeping ans t) (.call (S := Sig) (.claimDue window attempted) k) (w.begun t, past) Q ↔
      ((∀ x, A.due w.rows past x = none) → Meets (sweeping ans t) (k (.ok none)) (w.begun t, past) Q) ∧
      ∀ x r, w.rows x = some r → A.Soonest w.rows past x →
        Meets (sweeping ans t) (k (.ok (some (r.toDue x)))) (w.claim t x, past ++ [x]) Q := by
  rw [h.claimDue hkey hpast fun _ => Iff.rfl]
  simp [claimed?, Account.toDue]

end

/-! ## What a refresh makes of its row -/

/-- What a refresh comes to. It `breaks` where it panics or returns an error. -/
inductive Ending where
  | breaks
  | leaves
  | writes (u : ClaimedUpdate)
  deriving DecidableEq, Repr

/-- The row after the refresh. -/
def Ending.row (now : Time) (r : Account) : Ending → Option Account
  | .breaks => none
  | .leaves => some r
  | .writes u => some (u.set now r)

/-- The hub after a refresh that put `r` into the row of its account. -/
structure Settled (w w' : Hub) (t : Tid) (id : Uuid) (r : Account) : Prop where
  still : w'.Still t
  clock : w'.clock = w.clock
  rows : w'.rows = Function.update w.rows id (some r)

/-- The refresh breaks the sweep off, or it puts the row there and counts one account more. -/
def Settles {ε β : Type} (ans : Uuid → Answers) (t : Tid) (p : Flow ε β) (total : β → ℕ) (n : ℕ)
    (id : Uuid) (w : Hub) (log : List Uuid) : Option Account → Prop
  | none => ∀ Q, (∀ e s, ¬ Q (.error e) s) → ¬ Meets (sweeping ans t) p.run (w, log) Q
  | some r => ∃ b w', total b = n + 1 ∧ Settled w w' t id r ∧
      ∀ Q, Meets (sweeping ans t) p.run (w, log) Q ↔ Q (.ok b) (w', log)

section

variable {ans : Uuid → Answers} {w : Hub} {t : Tid} {id : Uuid} {r : Account} {log : List Uuid}

theorem Settles.of_iff {ε β : Type} {p q : Flow ε β} {total : β → ℕ} {n : ℕ} {o : Option Account} (w₁ : Hub)
    (hrows : w₁.rows = w.rows) (hclock : w₁.clock = w.clock)
    (hpq : ∀ Q, Meets (sweeping ans t) p.run (w, log) Q ↔ Meets (sweeping ans t) q.run (w₁, log) Q)
    (h : Settles ans t q total n id w₁ log o) : Settles ans t p total n id w log o := by
  cases o with
  | none => exact fun Q hQ hm => h Q hQ ((hpq Q).mp hm)
  | some r =>
    obtain ⟨b, w', hb, ⟨hstill, hclock', hrows'⟩, hQ⟩ := h
    refine ⟨b, w', hb, ⟨hstill, hclock'.trans hclock, ?_⟩, fun Q => (hpq Q).trans (hQ Q)⟩
    rw [hrows', hrows]

theorem Handling.still_clear (h : Handling w t id r) (id' : Uuid) :
    (w.txs.clear t).holder id' = none := by
  simp only [Txs.clear, h.holder]
  split <;> simp_all

theorem Handling.released (h : Handling w t id r) : Settled w (w.release t) t id r where
  still := ⟨h.still_clear, Txs.clear_writes_self⟩
  clock := rfl
  rows := (Function.update_eq_self_iff.mpr h.row.symm).symm

theorem Handling.committed (h : Handling w t id r) (u : ClaimedUpdate) :
    Settled w (((w.lock t id).queue t (.update id u (w.began t))).commit t) t id (u.set w.clock r) where
  still := by
    refine ⟨fun id' => ?_, Txs.clear_writes_self⟩
    have hlock : (w.txs.lock t id).holder = w.txs.holder := by
      funext x
      rw [Txs.lock_holder, h.holder]
      split <;> rfl
    have hclear := h.still_clear id'
    simpa [Txs.clear, hlock] using hclear
  clock := by simp
  rows := by
    funext id'
    by_cases hid : id' = id
    · subst hid
      rw [Function.update_self, Hub.rows]
      have hlook := h.claimed.commit_lookup u (w.began t)
      rw [h.began, show (r.toDue id').id = id' from rfl, h.row] at hlook
      rw [h.began]
      exact hlook
    · rw [Function.update_of_ne hid]
      refine Hub.foldl_lookup_ne fun wr hwr => ?_
      have hwrites : ((w.lock t id).queue t (.update id u (w.began t))).txs.writes t =
          [.update id u (w.began t)] := by
        simp [h.clean]
      rw [hwrites, List.mem_singleton] at hwr
      rw [hwr]
      exact Ne.symm hid

end

/-! ### `refresh_claimed` -/

namespace IntegrationsOauthService

def RefreshSummary.total (s : RefreshSummary) : ℕ := s.refreshed + s.resynced + s.expired + s.failures

/-- What `refresh_claimed` comes to from the provider's answer on. -/
def rotateEnding (now : Time) (a : Answers) (prior : TokenBundle) (response : TokenResponse) : Ending :=
  match response.lifetime with
  | none => .leaves
  | some secs =>
    match addSeconds now secs with
    | none => .breaks
    | some expiresAt =>
      match a.rotate with
      | .ok _ => .writes (.mirror expiresAt (response.scope.or prior.scope) now)
      | .error _ => .breaks

/-- What it comes to for a bundle inside the window. -/
def priorEnding (lib : Crates) (svc : IntegrationsOauthService) (now : Time) (provider : String) (a : Answers)
    (prior : TokenBundle) : Ending :=
  match prior.refreshToken with
  | none => .writes .expireActive
  | some _ =>
    match svc.endpointsFor lib provider with
    | .error _ => .leaves
    | .ok _ =>
      match a.exchange with
      | .ok response => rotateEnding now a prior response
      | .error f => if f.isInvalidGrant then .writes .expireActive else .leaves

/-- What `refresh_claimed` comes to with these answers. -/
def ending (lib : Crates) (svc : IntegrationsOauthService) (now : Time) (provider : String)
    (a : Answers) : Ending :=
  match a.read with
  | .error f => if isDead f then .writes .expireActive else .leaves
  | .ok prior =>
    match addSeconds prior.expiresAt (-svc.refreshWindow) with
    | none => .breaks
    | some freshUntil =>
      if now ≤ freshUntil then .writes (.resync prior.expiresAt)
      else svc.priorEnding lib now provider a prior

variable {lib : Crates} {svc : IntegrationsOauthService} {companyId : Uuid} {ans : Uuid → Answers}
  {w : Hub} {t : Tid} {id : Uuid} {r : Account} {log : List Uuid} {summary : RefreshSummary}

theorem committed_settles (h : Handling w t id r) {u : ClaimedUpdate} (hu : u.guard .active) {n : ℕ}
    (htotal : summary.total = n + 1) :
    Settles ans t (do let _ ← updateTx id u; commit; return summary) RefreshSummary.total n id w log
      ((Ending.writes u).row w.clock r) := by
  refine ⟨summary, _, htotal, h.committed u, fun Q => ?_⟩
  simp only [updateTx, commit, sql, ask, Prog.ask, meets_run_bind, meets_run_orFail]
  rw [given_succeeds.updateTx h hu]
  simp only [meets_ret, Except.mapError]
  rw [given_succeeds.commit]
  rfl

theorem expireClaimed_settles (h : Handling w t id r) :
    Settles ans t (expireClaimed id summary) RefreshSummary.total summary.total id w log
      ((Ending.writes .expireActive).row w.clock r) := by
  refine committed_settles h rfl ?_
  simp only [RefreshSummary.total]
  omega

theorem leaveDue_settles (h : Handling w t id r) :
    Settles ans t (leaveDue summary) RefreshSummary.total summary.total id w log
      (Ending.leaves.row w.clock r) := by
  refine ⟨{ summary with failures := summary.failures + 1 }, _, ?_, h.released, fun Q => ?_⟩
  · simp only [RefreshSummary.total]
    omega
  · simp only [leaveDue, rollback, sql, ask, Prog.ask, meets_run_bind, meets_run_orFail]
    rw [given_succeeds.rollback]
    rfl

theorem rotateClaimed_settles (h : Handling w t id r) (prior : TokenBundle) (response : TokenResponse) :
    Settles ans t (rotateClaimed companyId (r.toDue id) prior response summary) RefreshSummary.total
      summary.total id w log ((rotateEnding w.clock (ans id) prior response).row w.clock r) := by
  cases hlife : response.lifetime with
  | none =>
    simp only [rotateEnding, hlife]
    refine Settles.of_iff w rfl rfl (fun Q => ?_) (leaveDue_settles h)
    rw [rotateClaimed, given_succeeds.utcNow_bind, meets_run_bind]
    simp only [expiresAt, hlife]
    rfl
  | some secs =>
    cases hadd : addSeconds w.clock secs with
    | none =>
      simp only [rotateEnding, hlife, hadd]
      intro Q hQ hm
      rw [rotateClaimed, given_succeeds.utcNow_bind, meets_run_bind] at hm
      simp only [expiresAt, hlife, hadd, meets_run_map] at hm
      exact noting_panic hm
    | some e =>
      -- The store refuses, and the error leaves the loop. Otherwise the row gets the successor's
      -- expiry.
      cases hrot : (ans id).rotate with
      | error f =>
        simp only [rotateEnding, hlife, hadd, hrot]
        intro Q hQ hm
        rw [rotateClaimed, given_succeeds.utcNow_bind, meets_run_bind] at hm
        simp only [ask, Prog.ask, expiresAt, hlife, hadd, orPanic, meets_run_map, meets_run_pure,
          meets_run_bind, meets_run_orFail, Except.map] at hm
        rw [h.sweeping_refused hrot] at hm
        exact hQ _ _ hm
      | ok cid =>
        simp only [rotateEnding, hlife, hadd, hrot]
        let scope := (r.toDue id).scope companyId
        let b : TokenBundle := ⟨response.accessToken, response.refreshToken.or prior.refreshToken, e,
          response.scope.or prior.scope⟩
        have h' := h.rotated scope purposeOauthToken b e
        refine Settles.of_iff ((w.withdraw scope).store scope purposeOauthToken b e) rfl rfl (fun Q => ?_)
          (committed_settles (u := .mirror e (response.scope.or prior.scope) w.clock) h' rfl (?_ :
            ({ summary with refreshed := summary.refreshed + 1 } : RefreshSummary).total = _))
        · rw [rotateClaimed, given_succeeds.utcNow_bind, meets_run_bind]
          simp only [ask, Prog.ask, expiresAt, hlife, hadd, orPanic, meets_run_map, meets_run_pure,
            meets_run_bind, meets_run_orFail, Except.map]
          rw [h.sweeping_rotated hrot]
          rfl
        · simp only [RefreshSummary.total]
          omega

theorem refreshPrior_settles (h : Handling w t id r) (prior : TokenBundle) :
    Settles ans t (svc.refreshPrior lib companyId (r.toDue id) prior summary) RefreshSummary.total
      summary.total id w log ((svc.priorEnding lib w.clock r.provider (ans id) prior).row w.clock r) := by
  have hprovider : (r.toDue id).provider = r.provider := rfl
  unfold refreshPrior priorEnding
  rw [hprovider]
  cases prior.refreshToken with
  | none => exact expireClaimed_settles h
  | some refreshToken =>
    cases svc.endpointsFor lib r.provider with
    | error e => exact leaveDue_settles h
    | ok found =>
      obtain ⟨endpoints, clientId⟩ := found
      refine Settles.of_iff w rfl rfl (fun Q => h.exchange_bind) ?_
      cases hex : (ans id).exchange with
      | ok response => exact rotateClaimed_settles h prior response
      | error f =>
        dsimp only
        split
        · exact expireClaimed_settles h
        · exact leaveDue_settles h

/-- **`refresh_claimed` on one account**: it does to the row what its answers say. -/
theorem refreshClaimed_settles (h : Handling w t id r) :
    Settles ans t (svc.refreshClaimed lib companyId (r.toDue id) summary) RefreshSummary.total
      summary.total id w log ((svc.ending lib w.clock r.provider (ans id)).row w.clock r) := by
  unfold refreshClaimed ending
  refine Settles.of_iff w rfl rfl (fun Q => h.read_bind) ?_
  cases (ans id).read with
  | error f =>
    dsimp only
    split
    · exact expireClaimed_settles h
    · exact leaveDue_settles h
  | ok prior =>
    dsimp only
    cases hfresh : addSeconds prior.expiresAt (-svc.refreshWindow) with
    | none =>
      intro Q hQ hm
      rw [meets_run_bind] at hm
      exact noting_panic hm
    | some freshUntil =>
      dsimp only
      refine Settles.of_iff w rfl rfl (fun Q => given_succeeds.utcNow_bind) ?_
      split
      · refine committed_settles h rfl ?_
        simp only [RefreshSummary.total]
        omega
      · exact refreshPrior_settles h prior

end IntegrationsOauthService

/-! ### `refresh_one` -/

def RefreshReport.total (report : RefreshReport) : ℕ := report.refreshed + report.expired + report.skipped

namespace RefreshJob

/-- What `refresh_one` comes to from the provider's answer on. -/
def rotateEnding (now : Time) (a : Answers) (response : TokenResponse) : Ending :=
  match response.lifetime with
  | none => .leaves
  | some secs =>
    match addSeconds now secs with
    | none => .breaks
    | some expiresAt =>
      match a.rotate with
      | .ok _ => .writes (.mirrorNow expiresAt)
      | .error f => if f.isTransport then .leaves else .writes .expire

/-- What it comes to from the store's answer on. -/
def bundleEnding (now : Time) (a : Answers) : Ending :=
  match a.read with
  | .error f => if f.isTransport then .leaves else .writes .expire
  | .ok bundle =>
    match bundle.refreshToken with
    | none => .writes .expire
    | some _ =>
      match a.exchange with
      | .ok response => rotateEnding now a response
      | .error f => if f.isInvalidGrant then .writes .expire else .leaves

/-- What `refresh_one` comes to with these answers. -/
def ending (job : RefreshJob) (lib : Crates) (now : Time) (provider : String) (a : Answers) : Ending :=
  match ValidatedEndpoints.resolve lib.toUrlCrate job.registry provider job.overrides with
  | .error _ => .leaves
  | .ok _ =>
    match job.clients.get provider with
    | none => .leaves
    | some _ => bundleEnding now a

variable {lib : Crates} {job : RefreshJob} {companyId : Uuid} {ans : Uuid → Answers} {w : Hub} {t : Tid}
  {id : Uuid} {r : Account} {log : List Uuid} {report : RefreshReport}

section

variable {β : Type} {answers : Hub → (op : Op) → Ans op → Prop} {note : Event Sig → Option β} {log : List β}
  {Q : Except DbError RefreshReport → Hub × List β → Prop}

theorem expire_iff (hG : Succeeds answers note) (h : Handling w t id r) :
    Meets (.noting (Hub.next t) answers note) (expire id report).run (w, log) Q ↔
      Q (.ok { report with expired := report.expired + 1 })
        (((w.lock t id).queue t (.update id .expire (w.began t))).commit t, log) := by
  simp only [expire, expireAccount, sql, ask, Prog.ask, meets_run_bind, meets_run_orFail]
  rw [hG.updateTx h rfl]
  simp only [meets_ret, Except.mapError]
  rw [hG.commit]
  rfl

theorem skip_iff (hG : Succeeds answers note) :
    Meets (.noting (Hub.next t) answers note) (skip report).run (w, log) Q ↔
      Q (.ok { report with skipped := report.skipped + 1 }) (w.release t, log) := by
  simp only [skip, sql, ask, Prog.ask, meets_run_bind, meets_run_orFail]
  rw [hG.rollback]
  rfl

theorem mirror_iff (hG : Succeeds answers note) (h : Handling w t id r) (e : Time) :
    Meets (.noting (Hub.next t) answers note) (mirror id e report).run (w, log) Q ↔
      Q (.ok { report with refreshed := report.refreshed + 1 })
        (((w.lock t id).queue t (.update id (.mirrorNow e) (w.began t))).commit t, log) := by
  simp only [mirror, sql, ask, Prog.ask, meets_run_bind, meets_run_orFail]
  rw [hG.updateTx h rfl]
  simp only [meets_ret, Except.mapError, ne_eq, not_true_eq_false, if_false, meets_run_bind,
    meets_run_orFail]
  rw [hG.commit]
  rfl

end

theorem expire_settles (h : Handling w t id r) :
    Settles ans t (expire id report) RefreshReport.total report.total id w log
      ((Ending.writes .expire).row w.clock r) := by
  refine ⟨{ report with expired := report.expired + 1 }, _, ?_, h.committed .expire,
    fun Q => expire_iff given_succeeds h⟩
  simp only [RefreshReport.total]
  omega

theorem skip_settles (h : Handling w t id r) :
    Settles ans t (skip report) RefreshReport.total report.total id w log (Ending.leaves.row w.clock r) := by
  refine ⟨{ report with skipped := report.skipped + 1 }, _, ?_, h.released, fun Q => skip_iff given_succeeds⟩
  simp only [RefreshReport.total]
  omega

theorem mirror_settles (h : Handling w t id r) (e : Time) :
    Settles ans t (mirror id e report) RefreshReport.total report.total id w log
      ((Ending.writes (.mirrorNow e)).row w.clock r) := by
  refine ⟨{ report with refreshed := report.refreshed + 1 }, _, ?_, h.committed (.mirrorNow e),
    fun Q => mirror_iff given_succeeds h e⟩
  simp only [RefreshReport.total]
  omega

theorem refused_settles (h : Handling w t id r) (f : OAuthCredentialFailure) :
    Settles ans t (if f.isTransport then skip report else expire id report) RefreshReport.total
      report.total id w log
      ((if f.isTransport then Ending.leaves else Ending.writes .expire).row w.clock r) := by
  split
  · exact skip_settles h
  · exact expire_settles h

theorem rotateOne_settles (h : Handling w t id r) (bundle : TokenBundle) (response : TokenResponse) :
    Settles ans t (rotateOne companyId (r.toDue id) bundle w.clock response report) RefreshReport.total
      report.total id w log ((rotateEnding w.clock (ans id) response).row w.clock r) := by
  cases hlife : response.lifetime with
  | none =>
    simp only [rotateEnding, hlife]
    refine Settles.of_iff w rfl rfl (fun Q => ?_) (skip_settles h)
    rw [rotateOne, meets_run_bind]
    simp only [expiresAt, hlife]
    rfl
  | some secs =>
    cases hadd : addSeconds w.clock secs with
    | none =>
      simp only [rotateEnding, hlife, hadd]
      intro Q hQ hm
      rw [rotateOne, meets_run_bind] at hm
      simp only [expiresAt, hlife, hadd, meets_run_map] at hm
      exact noting_panic hm
    | some e =>
      -- Here a refusal is counted and the loop goes on.
      cases hrot : (ans id).rotate with
      | error f =>
        simp only [rotateEnding, hlife, hadd, hrot]
        refine Settles.of_iff w rfl rfl (fun Q => ?_) (refused_settles h f)
        rw [rotateOne, meets_run_bind]
        simp only [ask, Prog.ask, expiresAt, hlife, hadd, orPanic, meets_run_map, meets_run_pure,
          meets_run_bind, meets_run_answer, Except.map]
        rw [h.sweeping_refused hrot]
        rfl
      | ok cid =>
        simp only [rotateEnding, hlife, hadd, hrot]
        let scope := (r.toDue id).scope companyId
        have h' := h.rotated scope purposeOauthToken (successor bundle response e) e
        refine Settles.of_iff
          ((w.withdraw scope).store scope purposeOauthToken (successor bundle response e) e) rfl rfl
          (fun Q => ?_) (mirror_settles h' e)
        rw [rotateOne, meets_run_bind]
        simp only [ask, Prog.ask, expiresAt, hlife, hadd, orPanic, meets_run_map, meets_run_pure,
          meets_run_bind, meets_run_answer, Except.map]
        rw [h.sweeping_rotated hrot]
        rfl

theorem refreshBundle_settles (h : Handling w t id r) (endpoints : ValidatedEndpoints)
    (client : OAuthClientConfig) :
    Settles ans t (refreshBundle companyId endpoints client (r.toDue id) report) RefreshReport.total
      report.total id w log ((bundleEnding w.clock (ans id)).row w.clock r) := by
  unfold refreshBundle bundleEnding
  refine Settles.of_iff w rfl rfl (fun Q => h.read_bind) ?_
  cases (ans id).read with
  | error f => exact refused_settles h f
  | ok bundle =>
    dsimp only
    cases bundle.refreshToken with
    | none => exact expire_settles h
    | some refreshToken =>
      refine Settles.of_iff w rfl rfl (fun Q => given_succeeds.utcNow_bind.trans h.exchange_bind) ?_
      cases (ans id).exchange with
      | ok response => exact rotateOne_settles h bundle response
      | error f =>
        dsimp only
        split
        · exact expire_settles h
        · exact skip_settles h

theorem refreshOne_settles (h : Handling w t id r) :
    Settles ans t (job.refreshOne lib companyId (r.toDue id) report) RefreshReport.total report.total id w log
      ((job.ending lib w.clock r.provider (ans id)).row w.clock r) := by
  have hprovider : (r.toDue id).provider = r.provider := rfl
  unfold refreshOne ending
  rw [hprovider]
  cases ValidatedEndpoints.resolve lib.toUrlCrate job.registry r.provider job.overrides with
  | error e => exact skip_settles h
  | ok endpoints =>
    cases job.clients.get r.provider with
    | none => exact skip_settles h
    | some client => exact refreshBundle_settles h endpoints client

end RefreshJob

end BackboneIntegrations.OAuth
