import BackboneIntegrations.OAuth.Calls

/-!
# Fresh ids and row locks

An id is given out once, so only one call can insert a row under it. A row that a
transaction has claimed stays active, and as it is, until that transaction ends.
-/

open Interleave

namespace BackboneIntegrations.OAuth

open IntegrationsOauthService

variable {lib : Crates} {svc : IntegrationsOauthService} {w₀ : Hub}
  {ok : Config (system lib svc) → Label (system lib svc) → Prop} {cfg cfg' : Config (system lib svc)}

/-- A hub between calls: no transaction is open, and the ids of its rows were given out. -/
structure Hub.Idle (w : Hub) : Prop where
  txs : w.txs = .empty
  used : ∀ {id}, w.status? id ≠ none → id ∈ w.used

theorem step_change {t : Tid} {op : Op} {ans : Ans op}
    (hs : Step (system lib svc) cfg (.op t op ans) cfg') : Hub.Change t cfg.world op ans cfg'.world :=
  Hub.next_change hs.next_eq

/-- A step that is no operation: the tables stay, and at most one transaction ends. -/
structure Beside (cfg : Config (system lib svc)) (l : Label (system lib svc))
    (cfg' : Config (system lib svc)) : Prop where
  accounts : Hub.accounts cfg'.world = Hub.accounts cfg.world
  credentials : Hub.credentials cfg'.world = Hub.credentials cfg.world
  used : Hub.used cfg'.world = Hub.used cfg.world
  began : Hub.began cfg'.world = Hub.began cfg.world
  events : ∀ t, cfg'.events t = cfg.events t
  writes : ∀ {t wr}, wr ∈ (Hub.txs cfg'.world).writes t → wr ∈ (Hub.txs cfg.world).writes t ∧
    l ≠ .finish t ∧ l ≠ .crash t
  holder : ∀ {t id}, (Hub.txs cfg.world).holder id = some t → l ≠ .finish t → l ≠ .crash t →
    (Hub.txs cfg'.world).holder id = some t
  running : ∀ {t c p}, cfg'.threads t = .running c p →
    (cfg.threads t = .running c p ∧ l ≠ .finish t ∧ l ≠ .crash t) ∨ l = .start t c

theorem Beside.did {l : Label (system lib svc)} (h : Beside cfg l cfg') {t : Tid} {op : Op}
    {ans : Ans op} : cfg'.Did t op ans ↔ cfg.Did t op ans := by
  rw [← mem_events, ← mem_events, h.events]

theorem Beside.status? {l : Label (system lib svc)} (h : Beside cfg l cfg') (id : Uuid) :
    Hub.status? cfg'.world id = Hub.status? cfg.world id := by
  rw [Hub.status?, Hub.status?, h.accounts]

theorem beside_leave {l : Label (system lib svc)} {t : Tid} {th : Thread (system lib svc)}
    (hl : l = .finish t ∨ l = .crash t) (hth : ∀ c p, th ≠ .running c p) :
    Beside cfg l (cfg.put (Hub.release cfg.world t) t th l) := by
  have hev : ∀ u, l.event? u = none := by
    intro u
    rcases hl with rfl | rfl <;> rfl
  have hne : ∀ u, u ≠ t → l ≠ .finish u ∧ l ≠ .crash u := by
    intro u hu
    rcases hl with rfl | rfl <;> simpa using Ne.symm hu
  constructor
  · rfl
  · rfl
  · rfl
  · rfl
  · exact fun u => Config.events_put_ne (hev u)
  · intro u wr hm
    obtain ⟨hu, hm⟩ := Txs.mem_clear_writes.mp hm
    exact ⟨hm, hne u hu⟩
  · intro u id hu hf hc
    -- The thread that ends takes its own locks with it, and no others.
    refine Txs.clear_holder_iff.mpr ⟨hu, ?_⟩
    rintro rfl
    rcases hl with rfl | rfl
    · exact hf rfl
    · exact hc rfl
  · intro u c p hrun
    by_cases hu : u = t
    · subst hu
      rw [Config.put_threads_self] at hrun
      exact absurd hrun (hth c p)
    · rw [cfg.put_threads_ne _ _ _ hu] at hrun
      exact .inl ⟨hrun, hne u hu⟩

theorem step_beside {l : Label (system lib svc)} (hs : Step (system lib svc) cfg l cfg')
    (hl : ∀ t op ans, l ≠ .op t op ans) : Beside cfg l cfg' := by
  cases hs with
  | @start t c ht =>
    constructor
    · rfl
    · rfl
    · rfl
    · rfl
    · exact fun u => Config.events_put_ne rfl
    · exact fun hm => ⟨hm, by simp, by simp⟩
    · exact fun hu _ _ => hu
    · intro u c' p hrun
      by_cases hu : u = t
      · subst hu
        rw [Config.put_threads_self] at hrun
        cases hrun
        exact .inr rfl
      · rw [cfg.put_threads_ne _ _ _ hu] at hrun
        exact .inl ⟨hrun, by simp, by simp⟩
  | op ht hw => exact absurd rfl (hl _ _ _)
  | @finish t c r ht => exact beside_leave (.inl rfl) (by simp)
  | @crash t c p ht => exact beside_leave (.inr rfl) (by simp)
  | @env e w hw =>
    -- Time and the provider touch neither the tables nor the transactions.
    have same : Hub.accounts w = Hub.accounts cfg.world ∧
        Hub.credentials w = Hub.credentials cfg.world ∧ Hub.used w = Hub.used cfg.world ∧
        Hub.began w = Hub.began cfg.world ∧ Hub.txs w = Hub.txs cfg.world := by
      cases e with
      | tick clock =>
        simp only [system, Hub.env, Option.ite_none_right_eq_some, Option.some.injEq] at hw
        rw [← hw.2]
        exact ⟨rfl, rfl, rfl, rfl, rfl⟩
      | kill token =>
        cases hw
        exact ⟨rfl, rfl, rfl, rfl, rfl⟩
    obtain ⟨ha, hc, hu, hb, hx⟩ := same
    constructor
    · exact ha
    · exact hc
    · exact hu
    · exact hb
    · exact fun _ => rfl
    · intro t wr hm
      rw [hx] at hm
      exact ⟨hm, by simp, by simp⟩
    · intro t id hh _ _
      rw [hx]
      exact hh
    · exact fun hrun => .inl ⟨hrun, by simp, by simp⟩

/-! ## What a step does to the writes that are open -/

namespace Hub

variable {t u : Tid} {w w' : Hub} {op : Op} {ans : Ans op}

/-- The answers that end a transaction. -/
def Ends : (op : Op) → Ans op → Prop
  | .commit, .ok () | .rollback, .ok () | .drop, () => True
  | _, _ => False

/-- The write that an operation queues. -/
inductive Queues (w : Hub) (t : Tid) : (op : Op) → Ans op → Write → Prop
  | delete {id} : Queues w t (.deleteRow id) (.ok 1) (.delete id)
  | insert {row} : Queues w t (.insertAccount row) (.ok ()) (.insert row)
  | update {id u} : Queues w t (.updateTx id u) (.ok 1) (.update id u (w.began t))

/-- The answers that give a call the lock of a due account. -/
def Claims : (op : Op) → Ans op → DueAccount → Prop
  | .claimDue .., .ok (some d), d' | .claimById _, .ok (some d), d' => d = d'
  | _, _, _ => False

theorem Change.mem_writes (h : Change t w op ans w') {wr : Write} (hm : wr ∈ w'.txs.writes u) :
    (wr ∈ w.txs.writes u ∧ (u = t → ¬ Ends op ans)) ∨ u = t ∧ Queues w t op ans wr := by
  cases h with
  -- A failed statement queues nothing, and it ends nothing.
  | @quiet op ans hq =>
    refine .inl ⟨hm, fun _ he => ?_⟩
    cases op <;> first | exact he | (rcases ans with err | ⟨⟩ <;> first | exact he | exact hq)
  | deleteRow hr hfree =>
    rcases Txs.mem_push_writes.mp hm with hm | ⟨rfl, rfl⟩
    · exact .inl ⟨hm, fun _ => id⟩
    · exact .inr ⟨rfl, .delete⟩
  | insertAccount hr =>
    rcases Txs.mem_push_writes.mp hm with hm | ⟨rfl, rfl⟩
    · exact .inl ⟨hm, fun _ => id⟩
    · exact .inr ⟨rfl, .insert⟩
  | updateTx hr hfree =>
    rcases Txs.mem_push_writes.mp hm with hm | ⟨rfl, rfl⟩
    · exact .inl ⟨hm, fun _ => id⟩
    · exact .inr ⟨rfl, .update⟩
  | commit | rollback | drop =>
    obtain ⟨hne, hm⟩ := Txs.mem_clear_writes.mp hm
    exact .inl ⟨hm, fun h => absurd h hne⟩
  | newUuid hid | begin | claimDue hr hd hdue hs | claimById hr hd ha hfree | update hr hfree | issue
  | rotate | revoke => exact .inl ⟨hm, fun _ => id⟩

theorem Change.holder_keeps (h : Change t w op ans w') {id : Uuid} (hu : w.txs.holder id = some u)
    (he : u = t → ¬ Ends op ans) : w'.txs.holder id = some u := by
  -- A statement locks a row only if it is free for the thread, so it takes no lock from `u`.
  have lock : ∀ {x}, w.txs.FreeFor t x → (w.txs.lock t x).holder id = some u := by
    intro x hfree
    rw [Txs.lock_holder]
    split
    · subst_vars
      rcases hfree with hf | hf
      · rw [hf] at hu
        cases hu
      · exact hf.symm.trans hu
    · exact hu
  cases h with
  | deleteRow hr hfree | updateTx hr hfree => exact lock hfree
  | claimById hr hd ha hfree => exact lock hfree
  | claimDue hr hd hdue hs => exact lock hdue.2.2.2
  | commit | rollback | drop => exact Txs.clear_holder_iff.mpr ⟨hu, fun h => he h trivial⟩
  | _ => exact hu

theorem Change.lookup_keeps (h : Change t w op ans w') {id : Uuid} (hu : w.txs.holder id = some u)
    (he : u = t → ¬ Ends op ans) (hw : u ≠ t → ∀ wr ∈ w.txs.writes t, wr.id ≠ id) :
    w'.accounts.lookup id = w.accounts.lookup id := by
  cases h with
  | commit => exact foldl_lookup_ne (hw fun h => he h trivial)
  | @update x v r hr hfree =>
    refine AList.lookup_insert_ne ?_
    rintro rfl
    rw [hfree] at hu
    cases hu
  | _ => rfl

theorem Change.others (h : Change t w op ans w') (hu : u ≠ t) :
    w'.txs.writes u = w.txs.writes u ∧ w'.began u = w.began u := by
  cases h with
  | begin => exact ⟨rfl, Function.update_of_ne hu ..⟩
  | deleteRow | insertAccount | updateTx => exact ⟨Txs.push_writes_ne hu, rfl⟩
  | commit => exact ⟨Txs.clear_writes_ne hu, congrFun (foldl_beside _ w).began u⟩
  | rollback | drop => exact ⟨Txs.clear_writes_ne hu, rfl⟩
  | _ => exact ⟨rfl, rfl⟩

theorem Change.queued (h : Change t w op ans w') {wr : Write} (hq : Queues w t op ans wr)
    (hne : ∀ row, wr ≠ .insert row) : w'.txs.holder wr.id = some t := by
  cases hq with
  | insert => exact absurd rfl (hne _)
  | delete =>
    cases h with
    | deleteRow hr hfree => simp [Txs.lock_holder, Write.id]
    | quiet hq => cases hq
  | update =>
    cases h with
    | updateTx hr hfree => simp [Txs.lock_holder, Write.id]
    | quiet hq => cases hq

theorem Change.claims (h : Change t w op ans w') {d : DueAccount} (hd : Claims op ans d) :
    w'.txs.holder d.id = some t ∧ w'.status? d.id = some .active := by
  cases h with
  | claimDue hr hd' hdue hs =>
    obtain rfl := hd
    refine ⟨by simp [Txs.lock_holder], ?_⟩
    exact status?_eq_some.mpr ⟨_, hr, hdue.1⟩
  | claimById hr hd' ha hfree =>
    obtain rfl := hd
    subst hd'
    refine ⟨by simp [Txs.lock_holder, Account.toDue], ?_⟩
    exact status?_eq_some.mpr ⟨_, hr, ha⟩
  | @quiet op ans hq =>
    cases op <;> first
      | exact hd.elim
      | (rcases ans with err | _ | d' <;> first | exact hd.elim | exact hq.elim)
  | _ => exact hd.elim

theorem Change.used_mono (h : Change t w op ans w') {id : Uuid} (hm : id ∈ w.used) :
    id ∈ w'.used := by
  cases h with
  | newUuid hid => exact List.mem_cons_of_mem _ hm
  | commit => rwa [commit_used]
  | _ => exact hm

theorem next_newUuid {id : Uuid} (h : next t .newUuid id w = some w') :
    id ∉ w.used ∧ w' = { w with used := id :: w.used } := by
  simp only [next] at h
  split at h <;> cases h
  exact ⟨‹_›, rfl⟩

theorem Change.inserted (h : Change t w op ans w') {id : Uuid} (hnone : w.status? id = none)
    (hs : w'.status? id ≠ none) :
    (⟨op, ans⟩ : Event Sig) = ⟨.commit, .ok ()⟩ ∧
      ∃ row : NewAccount, row.id = id ∧ .insert row ∈ w.txs.writes t := by
  rw [status?_eq_none] at hnone
  rw [ne_eq, status?_eq_none] at hs
  cases h with
  | commit =>
    refine ⟨rfl, ?_⟩
    by_contra hno
    refine hs (foldl_lookup_absent hnone fun row hm hid => hno ⟨row, hid, hm⟩)
  | @update x u r hr hfree =>
    -- An update writes a row that was there.
    refine absurd ?_ hs
    obtain ⟨hr, -⟩ := statusTarget_eq_some.mp hr
    simp only [setStatus, Table.lookup_insert_ite]
    split
    · subst_vars
      rw [hnone] at hr
      cases hr
    · exact hnone
  | _ => exact absurd hnone hs

end Hub

/-! ## Ids -/

/-- Where the ids of the rows come from. -/
structure Minted (w₀ : Hub) (cfg : Config (system lib svc)) : Prop where
  used : ∀ {t id}, cfg.Did t .newUuid id → id ∈ Hub.used cfg.world
  old : ∀ {id}, w₀.status? id ≠ none → id ∈ Hub.used cfg.world
  fresh : ∀ {t id}, cfg.Did t .newUuid id → w₀.status? id = none
  unique : ∀ {t u id}, cfg.Did t .newUuid id → cfg.Did u .newUuid id → t = u
  queued : ∀ {t row}, .insert row ∈ (Hub.txs cfg.world).writes t →
    cfg.Did t .newUuid row.id ∧ ¬ cfg.Did t .commit (.ok ())
  owned : ∀ {id}, Hub.status? cfg.world id ≠ none →
    w₀.status? id ≠ none ∨ ∃ t, cfg.Did t .newUuid id ∧ cfg.Did t .commit (.ok ())

theorem Minted.absent (h : Minted w₀ cfg) {t : Tid} {row : NewAccount}
    (hm : .insert row ∈ (Hub.txs cfg.world).writes t) : Hub.status? cfg.world row.id = none := by
  obtain ⟨hid, hc⟩ := h.queued hm
  by_contra hs
  rcases h.owned hs with h₀ | ⟨u, hu, huc⟩
  · exact h₀ (h.fresh hid)
  · rw [h.unique hu hid] at huc
    exact hc huc

theorem Minted.start (h₀ : w₀.Idle) : Minted w₀ (.init w₀ : Config (system lib svc)) := by
  constructor
  · intro t id h
    cases h
  · exact h₀.used
  · intro t id h
    cases h
  · intro t u id h
    cases h
  · intro t row h
    rw [Config.init_world, h₀.txs] at h
    cases h
  · exact fun h => .inl h

theorem Minted.beside {l : Label (system lib svc)} (h : Minted w₀ cfg) (hb : Beside cfg l cfg') :
    Minted w₀ cfg' := by
  constructor
  · intro t id hid
    rw [hb.used]
    exact h.used (hb.did.mp hid)
  · intro id hid
    rw [hb.used]
    exact h.old hid
  · exact fun hid => h.fresh (hb.did.mp hid)
  · exact fun hi hj => h.unique (hb.did.mp hi) (hb.did.mp hj)
  · intro t row hm
    -- The writes that are left belong to transactions that go on.
    obtain ⟨hid, hc⟩ := h.queued (hb.writes hm).1
    exact ⟨hb.did.mpr hid, fun hc' => hc (hb.did.mp hc')⟩
  · intro id hid
    rw [hb.status?] at hid
    obtain h₀ | ⟨t, ht, hc⟩ := h.owned hid
    · exact .inl h₀
    · exact .inr ⟨t, hb.did.mpr ht, hb.did.mpr hc⟩

theorem insert_asked (hr : Reach (system lib svc) (· = w₀) ok cfg) {t : Tid} {row : NewAccount}
    {ans : Ans (.insertAccount row)}
    (hs : Step (system lib svc) cfg (.op t (.insertAccount row) ans) cfg') :
    cfg.Did t .newUuid row.id ∧ ¬ cfg.Did t .commit (.ok ()) := by
  obtain ⟨c, -, hm⟩ := (script_holds lib svc).asked hr hs
  cases c with
  | authorize req =>
    obtain ⟨-, hid, hc⟩ := hm
    exact ⟨mem_events.mp hid, fun h => (hc _ (mem_events.mpr h)).1 rfl⟩
  | _ => exact hm.elim

theorem update_claimed (hr : Reach (system lib svc) (· = w₀) ok cfg) {t : Tid} {id : Uuid}
    {u : ClaimedUpdate} {ans : Ans (.updateTx id u)}
    (hs : Step (system lib svc) cfg (.op t (.updateTx id u) ans) cfg') :
    ∃ d, openClaim (cfg.events t) = some d ∧ d.id = id := by
  obtain ⟨c, -, hm⟩ := (script_holds lib svc).asked hr hs
  cases c with
  | refreshDue | ensureFresh | refreshOauthCredentials | refreshForCompanies => exact hm
  | _ => exact hm.elim

theorem Minted.op {t : Tid} {op : Op} {ans : Ans op} (h : Minted w₀ cfg)
    (hr : Reach (system lib svc) (· = w₀) ok cfg) (hs : Step (system lib svc) cfg (.op t op ans) cfg') :
    Minted w₀ cfg' := by
  have hc := step_change hs
  have keep : ∀ {u o a}, cfg.Did u o a → cfg'.Did u o a := fun hd => hs.did.mpr (.inr hd)
  constructor
  · intro u id hid
    rcases hs.did.mp hid with heq | hid
    · cases heq
      rw [(Hub.next_newUuid (t := t) hs.next_eq).2]
      exact List.mem_cons_self
    · exact hc.used_mono (h.used hid)
  · exact fun hid => hc.used_mono (h.old hid)
  · intro u id hid
    rcases hs.did.mp hid with heq | hid
    · cases heq
      by_contra hne
      exact (Hub.next_newUuid (t := t) hs.next_eq).1 (h.old hne)
    · exact h.fresh hid
  · intro u v id hu hv
    rcases hs.did.mp hu with heq | hu' <;> rcases hs.did.mp hv with heq' | hv'
    · cases heq
      cases heq'
      rfl
    · cases heq
      exact absurd (h.used hv') (Hub.next_newUuid (t := t) hs.next_eq).1
    · cases heq'
      exact absurd (h.used hu') (Hub.next_newUuid (t := t) hs.next_eq).1
    · exact h.unique hu' hv'
  · intro u row hm
    -- The insertion was queued before, or its call asks for it now, under an id of its own.
    rcases hc.mem_writes hm with ⟨hm, hend⟩ | ⟨rfl, hq⟩
    · obtain ⟨hid, hcom⟩ := h.queued hm
      refine ⟨keep hid, fun hcom' => ?_⟩
      rcases hs.did.mp hcom' with heq | hcom'
      · cases heq
        exact hend rfl trivial
      · exact hcom hcom'
    · cases hq
      obtain ⟨hid, hcom⟩ := insert_asked hr hs
      refine ⟨keep hid, fun hcom' => ?_⟩
      rcases hs.did.mp hcom' with heq | hcom'
      · cases heq
      · exact hcom hcom'
  · intro id hid
    -- A row that is new was inserted by the commit of the call that drew its id.
    by_cases hnone : Hub.status? cfg.world id = none
    · obtain ⟨hev, row, rfl, hm⟩ := hc.inserted hnone hid
      cases hev
      exact .inr ⟨t, keep (h.queued hm).1, hs.did.mpr (.inl rfl)⟩
    · rcases h.owned hnone with h₀ | ⟨u, hu, hcom⟩
      · exact .inl h₀
      · exact .inr ⟨u, keep hu, keep hcom⟩

theorem minted_of_reach (h₀ : w₀.Idle) (hr : Reach (system lib svc) (· = w₀) ok cfg) :
    Minted w₀ cfg := by
  induction hr with
  | init h =>
    subst h
    exact .start h₀
  | @step cfg l cfg' h _ hs ih =>
    by_cases hl : ∃ t op ans, l = .op t op ans
    · obtain ⟨t, op, ans, rfl⟩ := hl
      exact ih.op h hs
    · push Not at hl
      exact ih.beside (step_beside hs hl)

/-! ## Locks -/

theorem openClaim_cons {op : Op} {ans : Ans op} {h : Past} {d : DueAccount}
    (hd : openClaim (⟨op, ans⟩ :: h) = some d) :
    Hub.Claims op ans d ∨ openClaim h = some d ∧ ¬ Hub.Ends op ans := by
  cases op with
  | claimDue _ _ | claimById _ =>
    rcases ans with err | o
    · exact .inr ⟨hd, fun h => h⟩
    · obtain rfl : o = some d := hd
      exact .inl rfl
  | begin | commit | rollback =>
    rcases ans with err | ⟨⟩
    · exact .inr ⟨hd, id⟩
    · cases hd
  | drop => cases hd
  | _ => exact .inr ⟨hd, fun h => h⟩

/-- Who holds which row, and why it is still active. -/
structure Locked (cfg : Config (system lib svc)) : Prop where
  held : ∀ {t wr}, wr ∈ (Hub.txs cfg.world).writes t → (∀ row, wr ≠ .insert row) →
    (Hub.txs cfg.world).holder wr.id = some t
  active : ∀ {t id u now}, .update id u now ∈ (Hub.txs cfg.world).writes t →
    Hub.status? cfg.world id = some .active
  claimed : ∀ {t c p d}, cfg.threads t = .running c p → openClaim (cfg.events t) = some d →
    (Hub.txs cfg.world).holder d.id = some t ∧ Hub.status? cfg.world d.id = some .active

theorem Locked.start (h₀ : w₀.Idle) : Locked (.init w₀ : Config (system lib svc)) := by
  constructor
  · intro t wr hm
    rw [Config.init_world, h₀.txs] at hm
    cases hm
  · intro t id u now hm
    rw [Config.init_world, h₀.txs] at hm
    cases hm
  · intro t c p d hrun
    cases hrun

theorem Locked.beside {l : Label (system lib svc)} (h : Locked cfg)
    (hr : Reach (system lib svc) (· = w₀) ok cfg) (hs : Step (system lib svc) cfg l cfg')
    (hb : Beside cfg l cfg') : Locked cfg' := by
  constructor
  · intro t wr hm hne
    obtain ⟨hm, hf, hc⟩ := hb.writes hm
    exact hb.holder (h.held hm hne) hf hc
  · intro t id u now hm
    rw [hb.status?]
    exact h.active (hb.writes hm).1
  · intro t c p d hrun hd
    rw [hb.events] at hd
    rw [hb.status?]
    rcases hb.running hrun with ⟨hrun, hf, hc⟩ | rfl
    · obtain ⟨hh, ha⟩ := h.claimed hrun hd
      exact ⟨hb.holder hh hf hc, ha⟩
    -- A thread that starts has claimed nothing yet.
    · cases hs with
      | start ht =>
        have hev := (script_holds lib svc).tracks hr t
        rw [ht] at hev
        rw [hev] at hd
        cases hd

/-- A locked row with a status keeps its lock and its columns while its transaction is open. -/
theorem Locked.keeps (h : Locked cfg) (hm : Minted w₀ cfg) {t u : Tid} {op : Op} {ans : Ans op}
    (hc : Hub.Change t cfg.world op ans cfg'.world) {id : Uuid}
    (hu : (Hub.txs cfg.world).holder id = some u) (hs : Hub.status? cfg.world id ≠ none)
    (he : u = t → ¬ Hub.Ends op ans) :
    (Hub.txs cfg'.world).holder id = some u ∧
      (Hub.accounts cfg'.world).lookup id = (Hub.accounts cfg.world).lookup id := by
  refine ⟨hc.holder_keeps hu he, hc.lookup_keeps hu he ?_⟩
  rintro hut wr hwr rfl
  -- An open write of another thread would be an insertion of an id with a row, or it would hold the
  -- lock.
  by_cases hins : ∃ row, wr = .insert row
  · obtain ⟨row, rfl⟩ := hins
    exact hs (hm.absent hwr)
  · have hh := h.held hwr fun row hrow => hins ⟨row, hrow⟩
    rw [hu] at hh
    exact hut (Option.some.inj hh)

theorem Locked.op {t : Tid} {op : Op} {ans : Ans op} (h : Locked cfg) (hm : Minted w₀ cfg)
    (hr : Reach (system lib svc) (· = w₀) ok cfg)
    (hs : Step (system lib svc) cfg (.op t op ans) cfg') : Locked cfg' := by
  have hc := step_change hs
  have active_ne : ∀ {id}, Hub.status? cfg.world id = some .active → Hub.status? cfg.world id ≠ none := by
    intro id ha
    simp [ha]
  have keeps : ∀ {u id}, (Hub.txs cfg.world).holder id = some u →
      Hub.status? cfg.world id = some .active → (u = t → ¬ Hub.Ends op ans) →
      (Hub.txs cfg'.world).holder id = some u ∧ Hub.status? cfg'.world id = some .active := by
    intro u id hu ha he
    obtain ⟨hh, hl⟩ := h.keeps hm hc hu (active_ne ha) he
    refine ⟨hh, ?_⟩
    rw [Hub.status?, hl]
    exact ha
  -- the row of an `UPDATE` of the refresh paths is the one that the call has claimed
  have running : ∃ c p, cfg.threads t = .running c p := by
    cases hs with
    | op ht hw => exact ⟨_, _, ht⟩
  constructor
  · intro u wr hwr hne
    rcases hc.mem_writes hwr with ⟨hwr, he⟩ | ⟨rfl, hq⟩
    · exact hc.holder_keeps (h.held hwr hne) he
    · exact hc.queued hq hne
  · intro u id up now hwr
    rcases hc.mem_writes hwr with ⟨hwr, he⟩ | ⟨rfl, hq⟩
    · exact (keeps (h.held hwr (by simp)) (h.active hwr) he).2
    · cases hq
      obtain ⟨c, p, hrun⟩ := running
      obtain ⟨d, hd, rfl⟩ := update_claimed hr hs
      obtain ⟨hh, ha⟩ := h.claimed hrun hd
      exact (keeps hh ha fun _ => id).2
  · intro u c p d hrun hd
    cases hs with
    | @op _ c' _ _ k w ht hw =>
      by_cases hu : u = t
      · subst hu
        rw [Config.events_put_op] at hd
        rcases openClaim_cons hd with hclaim | ⟨hd, he⟩
        · exact hc.claims hclaim
        · obtain ⟨hh, ha⟩ := h.claimed ht hd
          exact keeps hh ha fun _ => he
      · rw [cfg.put_threads_ne _ _ _ hu] at hrun
        rw [Config.events_put_ne (Config.event?_ne hu)] at hd
        obtain ⟨hh, ha⟩ := h.claimed hrun hd
        exact keeps hh ha fun h => absurd h hu

theorem locked_of_reach (h₀ : w₀.Idle) (hr : Reach (system lib svc) (· = w₀) ok cfg) :
    Locked cfg := by
  induction hr with
  | init h =>
    subst h
    exact .start h₀
  | @step cfg l cfg' h _ hs ih =>
    by_cases hl : ∃ t op ans, l = .op t op ans
    · obtain ⟨t, op, ans, rfl⟩ := hl
      exact ih.op (minted_of_reach h₀ h) h hs
    · push Not at hl
      exact ih.beside h hs (step_beside hs hl)

end BackboneIntegrations.OAuth
