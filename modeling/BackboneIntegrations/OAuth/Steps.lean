import BackboneIntegrations.OAuth.Hub

/-!
# What one step does to the hub

Every operation with its answer does one of a few things. The scope of a row never changes,
and a row that a transaction has locked changes only when that transaction commits.
-/

open Interleave

namespace BackboneIntegrations.OAuth

/-- The columns that no update changes. -/
def Account.key (r : Account) : String × String := (r.provider, r.accountRef)

@[simp] theorem StatusUpdate.set_key (u : StatusUpdate) (r : Account) : (u.set r).key = r.key := by
  cases u <;> rfl

@[simp] theorem ClaimedUpdate.set_key (u : ClaimedUpdate) (now : Time) (r : Account) :
    (u.set now r).key = r.key := by
  cases u <;> rfl

@[simp] theorem NewAccount.toAccount_status (n : NewAccount) : n.toAccount.status = .pending := rfl

theorem ClaimedUpdate.set_status (u : ClaimedUpdate) (now : Time) (r : Account) :
    (u.set now r).status = if u.Expires then .expired else r.status := by
  cases u <;> rfl

def Write.id : Write → Uuid
  | .delete id => id
  | .insert row => row.id
  | .update id _ _ => id

namespace Hub

def status? (w : Hub) (id : Uuid) : Option IntegrationAccountStatus :=
  (w.accounts.lookup id).map (·.status)

theorem status?_eq_none {w : Hub} {id : Uuid} : w.status? id = none ↔ w.accounts.lookup id = none := by
  simp [status?]

theorem status?_eq_some {w : Hub} {id : Uuid} {s : IntegrationAccountStatus} :
    w.status? id = some s ↔ ∃ r, w.accounts.lookup id = some r ∧ r.status = s := by
  simp [status?]

/-! ## Commits -/

theorem apply_lookup (w : Hub) (wr : Write) (id : Uuid) :
    (w.apply wr).accounts.lookup id =
      if id = wr.id then
        match wr with
        | .delete _ => none
        | .insert row => some row.toAccount
        | .update _ u now => (w.accounts.lookup id).map (u.set now)
      else w.accounts.lookup id := by
  cases wr with
  | delete x => exact Table.lookup_erase_ite ..
  | insert row => exact Table.lookup_insert_ite ..
  | update x u now =>
    cases hr : w.accounts.lookup x with
    | some r =>
      simp only [apply, Write.id, hr, Table.lookup_insert_ite]
      by_cases hid : id = x
      · subst hid
        simp [hr]
      · simp [hid]
    | none =>
      simp only [apply, Write.id, hr]
      by_cases hid : id = x
      · subst hid
        simp [hr]
      · simp [hid]

/-- The parts of the hub that no write of a transaction touches. -/
structure SameBeside (w w' : Hub) : Prop where
  txs : w'.txs = w.txs
  began : w'.began = w.began
  credentials : w'.credentials = w.credentials
  dead : w'.dead = w.dead
  used : w'.used = w.used
  clock : w'.clock = w.clock

theorem apply_beside (w : Hub) (wr : Write) : w.SameBeside (w.apply wr) := by
  cases wr with
  | delete id | insert row => constructor <;> rfl
  | update id u now =>
    simp only [apply]
    split <;> constructor <;> rfl

theorem foldl_beside (ws : List Write) (w : Hub) : w.SameBeside (ws.foldl apply w) := by
  induction ws generalizing w with
  | nil => constructor <;> rfl
  | cons wr ws ih =>
    obtain ⟨h1, h2, h3, h4, h5, h6⟩ := apply_beside w wr
    obtain ⟨g1, g2, g3, g4, g5, g6⟩ := ih (w.apply wr)
    exact ⟨g1.trans h1, g2.trans h2, g3.trans h3, g4.trans h4, g5.trans h5, g6.trans h6⟩

@[simp] theorem commit_txs (w : Hub) (t : Tid) : (w.commit t).txs = w.txs.clear t := rfl
@[simp] theorem commit_accounts (w : Hub) (t : Tid) :
    (w.commit t).accounts = ((w.txs.writes t).foldl apply w).accounts := rfl
@[simp] theorem commit_credentials (w : Hub) (t : Tid) : (w.commit t).credentials = w.credentials :=
  (foldl_beside _ w).credentials
@[simp] theorem commit_used (w : Hub) (t : Tid) : (w.commit t).used = w.used :=
  (foldl_beside _ w).used
@[simp] theorem commit_dead (w : Hub) (t : Tid) : (w.commit t).dead = w.dead :=
  (foldl_beside _ w).dead
@[simp] theorem commit_clock (w : Hub) (t : Tid) : (w.commit t).clock = w.clock :=
  (foldl_beside _ w).clock

theorem forall_insert_cons {wr : Write} {ws : List Write} {p : NewAccount → Prop}
    (h : ∀ row, .insert row ∈ wr :: ws → p row) :
    (∀ row, wr = .insert row → p row) ∧ ∀ row, .insert row ∈ ws → p row :=
  ⟨fun row hw => h row (hw ▸ List.mem_cons_self), fun row hm => h row (List.mem_cons_of_mem _ hm)⟩

theorem foldl_lookup_ne {ws : List Write} {w : Hub} {id : Uuid} (h : ∀ wr ∈ ws, wr.id ≠ id) :
    (ws.foldl apply w).accounts.lookup id = w.accounts.lookup id := by
  induction ws generalizing w with
  | nil => rfl
  | cons wr ws ih =>
    obtain ⟨hwr, hws⟩ := List.forall_mem_cons.mp h
    rw [List.foldl_cons, ih hws, apply_lookup, if_neg hwr.symm]

theorem foldl_lookup_absent {ws : List Write} {w : Hub} {id : Uuid}
    (h : w.accounts.lookup id = none) (hins : ∀ row, .insert row ∈ ws → row.id ≠ id) :
    (ws.foldl apply w).accounts.lookup id = none := by
  induction ws generalizing w with
  | nil => exact h
  | cons wr ws ih =>
    obtain ⟨hwr, hws⟩ := forall_insert_cons hins
    refine ih ?_ hws
    rw [apply_lookup]
    split
    · cases wr with
      | insert row => exact absurd (Eq.symm ‹_›) (hwr row rfl)
      | delete x => rfl
      | update x u now => simp [h]
    · exact h

/-- What holds of a row, of each row that is inserted under its id and after each update of it, holds
after the writes. -/
theorem foldl_rows {P : Account → Prop} {ws : List Write} {w : Hub} {id : Uuid}
    (hw : ∀ r, w.accounts.lookup id = some r → P r)
    (hins : ∀ row, .insert row ∈ ws → row.id = id → P row.toAccount)
    (hset : ∀ u now r, .update id u now ∈ ws → P r → P (u.set now r)) {r : Account}
    (hr : (ws.foldl apply w).accounts.lookup id = some r) : P r := by
  induction ws generalizing w with
  | nil => exact hw r hr
  | cons wr ws ih =>
    refine ih (fun r₁ hr₁ => ?_) (fun row hm => hins row (List.mem_cons_of_mem _ hm))
      (fun u now r hm => hset u now r (List.mem_cons_of_mem _ hm)) hr
    rw [apply_lookup] at hr₁
    split at hr₁
    · rename_i hid
      cases wr with
      | insert row =>
        cases hr₁
        exact hins row List.mem_cons_self hid.symm
      | delete x => cases hr₁
      | update x u now =>
        obtain rfl : id = x := hid
        obtain ⟨r₀, hr₀, rfl⟩ := Option.map_eq_some_iff.mp hr₁
        exact hset u now r₀ List.mem_cons_self (hw r₀ hr₀)
    · exact hw r₁ hr₁

theorem foldl_lookup_new {ws : List Write} {w : Hub} {id : Uuid} {r : Account}
    (h : w.accounts.lookup id = none) (hupd : ∀ u now, .update id u now ∉ ws)
    (hr : (ws.foldl apply w).accounts.lookup id = some r) :
    ∃ row : NewAccount, row.id = id ∧ .insert row ∈ ws ∧ r = row.toAccount := by
  refine foldl_rows (P := fun r => ∃ row : NewAccount, row.id = id ∧ .insert row ∈ ws ∧ r = row.toAccount)
    ?_ (fun row hm hid => ⟨row, hid, hm, rfl⟩) (fun u now _ hm => absurd hm (hupd u now)) hr
  intro r hr
  rw [h] at hr
  cases hr

/-- What the writes make of a row that was there: it is deleted, or it keeps its key and its
status, or it expires. -/
inductive Rewritten (ws : List Write) (id : Uuid) (r : Account) : Option Account → Prop
  | deleted (h : .delete id ∈ ws) : Rewritten ws id r none
  | kept {r'} (hk : r'.key = r.key) (hs : r'.status = r.status) : Rewritten ws id r (some r')
  | expired {r' u now} (hk : r'.key = r.key) (hs : r'.status = .expired) (hu : u.Expires)
    (h : .update id u now ∈ ws) : Rewritten ws id r (some r')

theorem Rewritten.cons {wr : Write} {ws : List Write} {id : Uuid} {r r₁ : Account}
    {o : Option Account} (h : Rewritten ws id r₁ o) (h₁ : Rewritten [wr] id r (some r₁)) :
    Rewritten (wr :: ws) id r o := by
  cases h with
  | deleted h => exact .deleted (List.mem_cons_of_mem _ h)
  | kept hk hs =>
    cases h₁ with
    | kept hk₁ hs₁ => exact .kept (hk.trans hk₁) (hs.trans hs₁)
    | expired hk₁ hs₁ hu h =>
      exact .expired (hk.trans hk₁) (hs.trans hs₁) hu (List.mem_cons.mpr (.inl (by simpa using h)))
  | expired hk hs hu h =>
    refine .expired (hk.trans ?_) hs hu (List.mem_cons_of_mem _ h)
    cases h₁ <;> assumption

theorem foldl_rewritten {ws : List Write} {w : Hub} {id : Uuid} {r : Account}
    (hr : w.accounts.lookup id = some r) (hins : ∀ row, .insert row ∈ ws → row.id ≠ id) :
    Rewritten ws id r ((ws.foldl apply w).accounts.lookup id) := by
  induction ws generalizing w r with
  | nil =>
    rw [List.foldl_nil, hr]
    exact .kept rfl rfl
  | cons wr ws ih =>
    obtain ⟨hwr, hws⟩ := forall_insert_cons hins
    rw [List.foldl_cons]
    have happly := apply_lookup w wr id
    by_cases hid : id = wr.id
    · rw [if_pos hid] at happly
      cases wr with
      | insert row => exact absurd hid.symm (hwr row rfl)
      | delete x =>
        obtain rfl : id = x := hid
        rw [foldl_lookup_absent happly hws]
        exact .deleted List.mem_cons_self
      | update x u now =>
        obtain rfl : id = x := hid
        simp only [hr, Option.map_some] at happly
        refine (ih happly hws).cons ?_
        by_cases hu : u.Expires
        · exact .expired (u.set_key now r) (by rw [u.set_status, if_pos hu]) hu List.mem_cons_self
        · exact .kept (u.set_key now r) (by rw [u.set_status, if_neg hu])
    · rw [if_neg hid, hr] at happly
      exact (ih happly hws).cons (.kept rfl rfl)

/-! ## The cases of a step -/

theorem claimedTarget_eq_some {w : Hub} {id : Uuid} {u : ClaimedUpdate} {r : Account} :
    w.claimedTarget id u = some r ↔ w.accounts.lookup id = some r ∧ u.guard r.status := by
  simp [claimedTarget, Option.filter_eq_some_iff]

theorem statusTarget_eq_some {w : Hub} {id : Uuid} {u : StatusUpdate} {r : Account} :
    w.statusTarget id u = some r ↔ w.accounts.lookup id = some r ∧ u.guard r.status := by
  simp [statusTarget, Option.filter_eq_some_iff]

/-- The answers after which the hub is as before. -/
def Quiet : (op : Op) → Ans op → Prop
  | .newUuid, _ | .begin, .ok () | .insertAccount _, .ok () | .claimDue .., .ok (some _)
  | .claimById _, .ok (some _) | .commit, .ok () | .rollback, .ok () | .drop, ()
  | .issue .., .ok _ | .rotate .., .ok _ | .revoke _, .ok () => False
  | .deleteRow _, .ok n | .updateTx .., .ok n | .update .., .ok n => n = 0
  | _, _ => True

inductive Change (t : Tid) (w : Hub) : (op : Op) → Ans op → Hub → Prop
  | quiet {op ans} (hq : Quiet op ans) : Change t w op ans w
  | newUuid {id} (hid : id ∉ w.used) : Change t w .newUuid id { w with used := id :: w.used }
  | begin : Change t w .begin (.ok ()) { w with began := Function.update w.began t w.clock }
  | deleteRow {id r} (hr : w.accounts.lookup id = some r) (hfree : w.txs.FreeFor t id) :
    Change t w (.deleteRow id) (.ok 1) ((w.lock t id).queue t (.delete id))
  | insertAccount {row} (hr : w.accounts.lookup row.id = none) :
    Change t w (.insertAccount row) (.ok ()) (w.queue t (.insert row))
  | claimDue {window attempted d r} (hr : w.accounts.lookup d.id = some r)
    (hd : d = r.toDue d.id) (hdue : w.Due t window attempted d.id r)
    (hs : w.Soonest t window attempted r) :
    Change t w (.claimDue window attempted) (.ok (some d)) (w.lock t d.id)
  | claimById {id d r} (hr : w.accounts.lookup id = some r) (hd : d = r.toDue id)
    (ha : r.status = .active) (hfree : w.txs.FreeFor t id) :
    Change t w (.claimById id) (.ok (some d)) (w.lock t id)
  | updateTx {id u r} (hr : w.claimedTarget id u = some r) (hfree : w.txs.FreeFor t id) :
    Change t w (.updateTx id u) (.ok 1) ((w.lock t id).queue t (.update id u (w.began t)))
  | commit : Change t w .commit (.ok ()) (w.commit t)
  | rollback : Change t w .rollback (.ok ()) (w.release t)
  | drop : Change t w .drop () (w.release t)
  | update {id u r} (hr : w.statusTarget id u = some r) (hfree : w.txs.holder id = none) :
    Change t w (.update id u) (.ok 1) (w.setStatus id u r)
  | issue {scope purpose bundle expiresAt cid} :
    Change t w (.issue scope purpose bundle expiresAt) (.ok cid)
      (w.store scope purpose bundle expiresAt)
  | rotate {scope bundle expiresAt cid} :
    Change t w (.rotate scope bundle expiresAt) (.ok cid)
      ((w.withdraw scope).store scope purposeOauthToken bundle expiresAt)
  | revoke {scope} : Change t w (.revoke scope) (.ok ()) (w.withdraw scope)

theorem next_change {t : Tid} {op : Op} {ans : Ans op} {w w' : Hub}
    (h : next t op ans w = some w') : Change t w op ans w' := by
  cases op with
  | utcNow | randomBytes n =>
    simp only [next, Option.ite_none_right_eq_some, Option.some.injEq] at h
    obtain ⟨-, rfl⟩ := h
    exact .quiet trivial
  | panic => cases ans
  | newUuid =>
    simp only [next] at h
    split at h <;> cases h
    exact .newUuid ‹_›
  | exchange endpoint form | fetchIdentity endpoint token | readToken scope =>
    cases h
    exact .quiet trivial
  | fetchAccount id | fetchVerifier id | deleteSnapshot provider accountRef =>
    rcases ans with err | a
    · cases h
      exact .quiet trivial
    · simp only [next, Option.ite_none_right_eq_some, Option.some.injEq] at h
      obtain ⟨-, rfl⟩ := h
      exact .quiet trivial
  | begin =>
    rcases ans with err | ⟨⟩ <;> cases h
    · exact .quiet trivial
    · exact .begin
  | commit =>
    rcases ans with err | ⟨⟩ <;> cases h
    · exact .quiet trivial
    · exact .commit
  | rollback =>
    rcases ans with err | ⟨⟩ <;> cases h
    · exact .quiet trivial
    · exact .rollback
  | drop =>
    cases h
    exact .drop
  | deleteRow id =>
    rcases ans with err | n
    · cases h
      exact .quiet trivial
    · simp only [next] at h
      split at h <;> split at h <;> cases h
      · obtain ⟨rfl, hfree⟩ := ‹_ ∧ _›
        exact .deleteRow ‹_› hfree
      · exact .quiet ‹_›
  | insertAccount row =>
    rcases ans with err | ⟨⟩
    · cases h
      exact .quiet trivial
    · simp only [next] at h
      split at h <;> cases h
      exact .insertAccount ‹_›
  | claimDue window attempted =>
    rcases ans with err | _ | d
    · cases h
      exact .quiet trivial
    · simp only [next] at h
      split at h <;> cases h
      exact .quiet trivial
    · simp only [next] at h
      split at h
      · split at h <;> cases h
        obtain ⟨hd, hdue, hs⟩ := ‹_ ∧ _›
        exact .claimDue ‹_› hd hdue hs
      · cases h
  | claimById id =>
    rcases ans with err | _ | d
    · cases h
      exact .quiet trivial
    · simp only [next] at h
      split at h
      · split at h <;> cases h
        exact .quiet trivial
      · cases h
        exact .quiet trivial
    · simp only [next] at h
      split at h
      · split at h <;> cases h
        obtain ⟨hd, ha, hfree⟩ := ‹_ ∧ _›
        exact .claimById ‹_› hd ha hfree
      · cases h
  | updateTx id u =>
    rcases ans with err | n
    · cases h
      exact .quiet trivial
    · simp only [next] at h
      split at h <;> split at h <;> cases h
      · obtain ⟨rfl, hfree⟩ := ‹_ ∧ _›
        exact .updateTx ‹_› hfree
      · exact .quiet ‹_›
  | update id u =>
    rcases ans with err | n
    · cases h
      exact .quiet trivial
    · simp only [next] at h
      split at h <;> split at h <;> cases h
      · obtain ⟨rfl, hfree⟩ := ‹_ ∧ _›
        exact .update ‹_› hfree
      · exact .quiet ‹_›
  | issue scope purpose bundle expiresAt =>
    rcases ans with err | cid <;> cases h
    · exact .quiet trivial
    · exact .issue
  | rotate scope bundle expiresAt =>
    rcases ans with err | cid <;> cases h
    · exact .quiet trivial
    · exact .rotate
  | revoke scope =>
    rcases ans with err | ⟨⟩ <;> cases h
    · exact .quiet trivial
    · exact .revoke

/-! ## Rows -/

@[simp] theorem queue_txs (w : Hub) (t : Tid) (wr : Write) : (w.queue t wr).txs = w.txs.push t wr := rfl
@[simp] theorem lock_txs (w : Hub) (t : Tid) (id : Uuid) : (w.lock t id).txs = w.txs.lock t id := rfl
@[simp] theorem release_txs (w : Hub) (t : Tid) : (w.release t).txs = w.txs.clear t := rfl
@[simp] theorem setStatus_txs (w : Hub) (id u r) : (w.setStatus id u r).txs = w.txs := rfl
@[simp] theorem store_txs (w : Hub) (scope purpose bundle expiresAt) :
    (w.store scope purpose bundle expiresAt).txs = w.txs := rfl
@[simp] theorem withdraw_txs (w : Hub) (scope) : (w.withdraw scope).txs = w.txs := rfl

@[simp] theorem queue_accounts (w : Hub) (t : Tid) (wr : Write) :
    (w.queue t wr).accounts = w.accounts := rfl
@[simp] theorem lock_accounts (w : Hub) (t : Tid) (id : Uuid) : (w.lock t id).accounts = w.accounts :=
  rfl
@[simp] theorem release_accounts (w : Hub) (t : Tid) : (w.release t).accounts = w.accounts := rfl
@[simp] theorem store_accounts (w : Hub) (scope purpose bundle expiresAt) :
    (w.store scope purpose bundle expiresAt).accounts = w.accounts := rfl
@[simp] theorem withdraw_accounts (w : Hub) (scope) : (w.withdraw scope).accounts = w.accounts := rfl

theorem update_one_iff {t : Tid} {w w' : Hub} {id : Uuid} {u : StatusUpdate} {n : Nat}
    (h : next t (.update id u) (.ok n) w = some w') :
    n = 1 ↔ ∃ s, w.status? id = some s ∧ u.guard s := by
  have htarget : (∃ r, w.statusTarget id u = some r) ↔ ∃ s, w.status? id = some s ∧ u.guard s := by
    simp only [statusTarget_eq_some, status?_eq_some]
    constructor
    · rintro ⟨r, hr, hg⟩
      exact ⟨_, ⟨r, hr, rfl⟩, hg⟩
    · rintro ⟨_, ⟨r, hr, rfl⟩, hg⟩
      exact ⟨r, hr, hg⟩
  rw [← htarget]
  simp only [next] at h
  split at h
  · split at h <;> cases h
    exact ⟨fun _ => ⟨_, ‹_›⟩, fun _ => (‹_ ∧ _› : _ ∧ _).1⟩
  · rename_i hnone
    split at h <;> cases h
    subst_vars
    simp [hnone]

theorem Change.holder_of {t u : Tid} {w w' : Hub} {op : Op} {ans : Ans op} (h : Change t w op ans w')
    {id : Uuid} (hu : w'.txs.holder id = some u) : w.txs.holder id = some u ∨ u = t := by
  have lock : ∀ {x}, (w.txs.lock t x).holder id = some u → w.txs.holder id = some u ∨ u = t := by
    intro x hx
    rw [Txs.lock_holder] at hx
    split at hx
    · exact .inr (Option.some.inj hx).symm
    · exact .inl hx
  cases h with
  | deleteRow | updateTx | claimDue | claimById => exact lock hu
  | commit | rollback | drop => exact .inl (Txs.clear_holder_iff.mp hu).1
  | _ => exact .inl hu

end Hub

end BackboneIntegrations.OAuth
