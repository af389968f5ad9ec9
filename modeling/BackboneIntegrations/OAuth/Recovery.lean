import BackboneIntegrations.OAuth.Lifetimes

/-!
# The refresh after a crash

What a crash leaves can be refreshed again, by either implementation. The next refresh always comes
to a halt, and it converges as long as no lifetime leads out of the clock.
-/

open Interleave

namespace BackboneIntegrations.OAuth

variable {lib : Crates} {co : Uuid} {issued : String → Prop} {R : Refresher} {d : DueAccount} {t : Tid}
  {w w' : Hub} {c : Credential} {deadline : Time}

/-! ## The next refresh -/

/-- A refresh that has claimed its account, before the stored bundle expires. -/
structure Resumes (lib : Crates) (co : Uuid) (R : Refresher) (d : DueAccount) (t : Tid) (w : Hub)
    (c : Credential) : Prop where
  configured : R.Configured lib d.provider
  begun : Begun w t d
  current : w.current (d.scope co) = some c
  early : w.clock < c.expiresAt

/-- What the store and the provider answer as long as they can be reached. -/
def reached (issued : String → Prop) (s : Hub × Past) (op : Op) (ans : Ans op) : Prop :=
  storeAnswers s.1 op ans ∧ Issues issued op ans ∧ Reachable issued s.1 op ans

instance [DecidablePred issued] (s : Hub × Past) (op : Op) (ans : Ans op) :
    Decidable (reached issued s op ans) :=
  inferInstanceAs (Decidable (_ ∧ _ ∧ _))

/-- What happens beside the refresh before the deadline. -/
def besideUntil (deadline : Time) (s s' : Hub × Past) : Prop :=
  s.1.around s'.1 ∧ s'.1.clock < deadline ∧ s'.2 = s.2

/-- The refresh on its way, with all that it has done. -/
def Undisturbed (issued : String → Prop) (t : Tid) (deadline : Time) :
    Prog Sig Unit → Hub × Past → Prog Sig Unit → Hub × Past → Prop :=
  Goes (recording (Hub.next t)) (besideUntil deadline) (reached issued)

/-- No answer takes the refresh further. -/
def Halted (issued : String → Prop) (t : Tid) : Prog Sig Unit → Hub × Past → Prop :=
  Halts (recording (Hub.next t)) (reached issued)

/-- The points at which a refresher panics: behind a lifetime that no clock can hold, and in the
service behind a stored expiry that lies less than the window after the first instant. -/
def Refresher.Aborts : Refresher → Past → Prop
  | service svc _ => IntegrationsOauthService.ClaimedAbort svc
  | job .. => OverdueJob

/-! ## What a refresher asks -/

theorem claimedOp.mono {token token' : ValidatedEndpoint → Prop} (h : ∀ e, token e → token' e) (op : Op)
    (hop : claimedOp d token op) : claimedOp d token' op := by
  cases op <;> first | exact hop | exact h _ hop

theorem Refresher.asks (R : Refresher) : (R.prog lib co d).Asks (claimedOp d fun _ => True) := by
  cases R with
  | service svc summary =>
    exact (IntegrationsOauthService.refreshClaimed_asks.mono (claimedOp.mono fun _ _ => trivial)).bind
      fun _ => trivial
  | job j report =>
    refine Prog.Asks.bind ?_ fun _ => trivial
    unfold RefreshJob.refreshOne
    split
    · exact (RefreshJob.skip_asks d.id).mono claimedOp_of_exitOp
    split
    · exact (RefreshJob.skip_asks d.id).mono claimedOp_of_exitOp
    · exact RefreshJob.refreshBundle_asks.mono (claimedOp.mono fun _ _ => trivial)

theorem Refresher.aborts (R : Refresher) :
    Meets (aborting R.Aborts) (R.prog lib co d) [] fun _ h => ¬ R.Aborts h := by
  cases R with
  | service svc summary => exact meets_bind.mpr IntegrationsOauthService.refreshClaimed_aborts
  | job j report => exact meets_bind.mpr (RefreshJob.refreshOne_aborts lib j)

theorem Undisturbed.aborts {p : Prog Sig Unit} {s : Hub × Past}
    (h : Undisturbed issued t deadline (R.prog lib co d) (w, []) p s) :
    Meets (.ofPast fun h op => (op = Op.panic ↔ R.Aborts h) ∧ claimedOp d (fun _ => True) op) p s.2
      fun _ h => ¬ R.Aborts h := by
  have hop : ∀ {s : Hub × Past} {op : Op} {ans : Ans op} {s' : Hub × Past} {past : Past}, s.2 = past →
      reached issued s op ans → recording (Hub.next t) op ans s = some s' →
      ∃ past', past' = ⟨op, ans⟩ :: past ∧ s'.2 = past' := by
    rintro s op ans s' past rfl - hn
    obtain ⟨w₁, -, rfl⟩ := Option.map_eq_some_iff.mp hn
    exact ⟨_, rfl, rfl⟩
  obtain ⟨past, rfl, hm⟩ := Goes.meets (R := fun s past => s.2 = past) hop
    (fun ha hs => ha.2.2.trans hs) h rfl (R.aborts.and_asks R.asks)
  exact hm

/-! ## Progress -/

theorem Hub.FreeFor.next {u : Tid} {op : Op} {ans : Ans op} {id : Uuid} (h : w.txs.FreeFor u id)
    (hn : Hub.next u op ans w = some w') : w'.txs.FreeFor u id := by
  cases hx : w'.txs.holder id with
  | none => exact .inl hx
  | some x =>
    refine .inr (hx.trans ?_)
    rcases (Hub.next_change hn).holder_of hx with hold | rfl
    · rcases h with hnone | hself
      · rw [hnone] at hold
        cases hold
      · rw [← hold, hself]
    · rfl

/-- Every operation of a refresh but the panic gets an answer, as long as the row is not another
transaction's. -/
theorem exists_reached {token : ValidatedEndpoint → Prop} {op : Op} {past : Past}
    (hop : claimedOp d token op)
    (hne : op ≠ .panic) (hfree : w.txs.FreeFor t d.id) :
    ∃ ans s, reached issued (w, past) op ans ∧ recording (Hub.next t) op ans (w, past) = some s := by
  cases op with
  | panic => exact absurd rfl hne
  | utcNow => exact ⟨w.clock, _, ⟨⟨rfl, rfl⟩, trivial, trivial⟩, by simp [recording, Hub.next]; rfl⟩
  | commit => exact ⟨.ok (), _, ⟨⟨rfl, rfl⟩, trivial, trivial⟩, rfl⟩
  | rollback => exact ⟨.ok (), _, ⟨⟨rfl, rfl⟩, trivial, trivial⟩, rfl⟩
  | updateTx id u =>
    obtain rfl : id = d.id := hop
    cases htarget : w.claimedTarget d.id u with
    | none =>
      have hn : Hub.next t (.updateTx d.id u) (.ok 0) w = some w := by
        simp [Hub.next, htarget]
      exact ⟨.ok 0, _, ⟨⟨rfl, rfl⟩, trivial, trivial⟩, by rw [recording, hn]; rfl⟩
    | some r =>
      have hn : Hub.next t (.updateTx d.id u) (.ok 1) w =
          some ((w.lock t d.id).queue t (.update d.id u (w.began t))) := by
        simp [Hub.next, htarget, hfree]
      exact ⟨.ok 1, _, ⟨⟨rfl, rfl⟩, trivial, trivial⟩, by rw [recording, hn]; rfl⟩
  | readToken scope =>
    -- The store answers from what it has, and says `not_found` where it has nothing.
    cases hcur : w.current scope with
    | none =>
      refine ⟨.error ⟨OAuthCredentialFailure.codeNotFound, ""⟩, _, ⟨⟨rfl, rfl⟩, trivial, ?_⟩, rfl⟩
      intro c hc
      rw [hcur] at hc
      cases hc
    | some c =>
      exact ⟨.ok c.bundle, _, ⟨⟨rfl, by simp [Hub.StoreOk, hcur]⟩, trivial, trivial⟩, rfl⟩
  | exchange endpoint form =>
    -- The provider takes the tokens that it has issued, and refuses every other one.
    by_cases htoken : ∃ token ∈ form.refreshToken, issued token
    · refine ⟨.ok ⟨"", none, some 1, none, none⟩, _, ⟨⟨rfl, rfl⟩, ?_, fun _ => ⟨1, rfl, by decide⟩⟩, rfl⟩
      rintro token ⟨⟩
    · exact ⟨.error ⟨.invalidGrant, ""⟩, _, ⟨⟨rfl, rfl⟩, trivial, htoken⟩, rfl⟩
  | rotate scope bundle e =>
    cases hcur : w.current scope with
    | none =>
      exact ⟨.error ⟨OAuthCredentialFailure.codeNotFound, ""⟩, _, ⟨⟨rfl, rfl⟩, trivial, hcur⟩, rfl⟩
    | some c =>
      exact ⟨.ok (0 : Nat), _, ⟨⟨rfl, by simp [Hub.StoreOk, hcur]⟩, trivial, trivial⟩, rfl⟩
  | _ => exact hop.elim

theorem around_txs (h : w.around w') : w'.txs = w.txs := by
  obtain ⟨e, he⟩ := h
  cases e with
  | tick clock =>
    simp only [Hub.env, Option.ite_none_right_eq_some, Option.some.injEq] at he
    rw [← he.2]
  | kill token =>
    cases he
    rfl

section

variable {p : Prog Sig Unit} {s : Hub × Past}

theorem Undisturbed.free (h : Undisturbed issued t deadline (R.prog lib co d) (w, []) p s)
    (hfree : w.txs.FreeFor t d.id) : s.1.txs.FreeFor t d.id := by
  refine Goes.keeps (P := fun s => s.1.txs.FreeFor t d.id) ?_ ?_ h hfree
  · intro s op ans s' hs _ hn
    obtain ⟨w₁, hw₁, rfl⟩ := Option.map_eq_some_iff.mp hn
    exact Hub.FreeFor.next hs hw₁
  · intro s s' hb hs
    rw [around_txs hb.1]
    exact hs

theorem Undisturbed.meets (h : Undisturbed issued t c.expiresAt (R.prog lib co d) (w, []) p s)
    (hres : Resumes lib co R d t w c) (hc : Renewable issued (d.scope co) w.credentials c) :
    ∃ v, Sees t s.1 v ∧
      Meets (View.contract (upPorts True issued c.expiresAt) (Survives issued (d.scope co) w.accounts)) p v
        fun _ v' => True → Converged d.id (d.scope co) v'.accounts v'.credentials := by
  have hearly := h.and_keeps (P := fun s => s.1.clock < c.expiresAt) ?_ (fun hb _ => hb.2.1) hres.early
  · have hgoes : Goes (Hub.next t) Hub.around (fun w op ans => storeAnswers w op ans ∧ Issues issued op ans ∧
        Reachable issued w op ans ∧ w.clock < c.expiresAt) (R.prog lib co d) w p s.1 := by
      refine hearly.map (g := Prod.fst) ?_ ?_ fun hb => hb.1
      · rintro s op ans ⟨⟨hstore, hissues, hreach⟩, hclock⟩
        exact ⟨hstore, hissues, hreach, hclock⟩
      · intro s op ans s' hn
        obtain ⟨w₁, hw₁, rfl⟩ := Option.map_eq_some_iff.mp hn
        exact hw₁
    exact hres.begun.meets True c.expiresAt hc (fun _ => Int.le_refl _) (fun _ => hres.configured)
      (fun ha => ⟨ha.1, ha.2.1, fun _ => ⟨ha.2.2.1, ha.2.2.2⟩⟩) hgoes
  · intro s op ans s' hs _ hn
    obtain ⟨w₁, hw₁, rfl⟩ := Option.map_eq_some_iff.mp hn
    rw [← next_clock hw₁] at hs
    exact hs

/-- A refresh that has halted has returned, with the account converged, or it is at a point of abort. -/
theorem Undisturbed.halted (h : Undisturbed issued t c.expiresAt (R.prog lib co d) (w, []) p s)
    (hres : Resumes lib co R d t w c) (hc : Renewable issued (d.scope co) w.credentials c)
    (hhalt : Halted issued t p s) :
    (p = .ret () ∧ Converged d.id (d.scope co) (s.1.release t).accounts (s.1.release t).credentials) ↔
      ¬ R.Aborts s.2 := by
  have hm := h.aborts
  cases p with
  | ret u =>
    obtain ⟨v, hv, hend⟩ := h.meets hres hc
    have hconv : Converged d.id (d.scope co) v.accounts v.credentials := hend trivial
    rw [← hv.accounts, ← hv.credentials] at hconv
    exact iff_of_true ⟨rfl, hconv⟩ hm
  | call op k =>
    obtain ⟨⟨hpanic, hop⟩, -⟩ := hm
    refine iff_of_false (by rintro ⟨⟨⟩, -⟩) (not_not.mpr (hpanic.mp ?_))
    -- any other operation would have an answer
    by_contra hne
    obtain ⟨ans, s', hans, hn⟩ : ∃ ans s', reached issued s op ans ∧
        recording (Hub.next t) op ans s = some s' :=
      exists_reached hop hne (h.free (.inr hres.begun.held))
    rw [hhalt ans hans] at hn
    cases hn

end

/-- **A crashed refresh converges.** At each operation of a refresh the crash leaves the account active
and due, with one current credential. The next refresh, by either implementation, can always be
brought to a halt. There it has returned and left the account active with the expiry of its
credential, exactly if it is not at a point of abort. -/
theorem crash_convergence_iff {window : Int} {op : Op} {k : Ans op → Prog Sig Unit} (h : Begun w t d)
    (hdue : w.DueAt window d.id) (hstore : ∃ c, Renewable issued (d.scope co) w.credentials c)
    (hrun : Underway lib co issued R d t w (.call op k) w') :
    (w'.release t).DueAt window d.id ∧
      (∃ c, (w'.release t).credentials.filter (·.IsCurrent (d.scope co)) = [c]) ∧
      ∀ (R' : Refresher) (u : Tid) (w₁ : Hub) (c : Credential), w₁.accounts = (w'.release t).accounts →
        w₁.credentials = (w'.release t).credentials → Resumes lib co R' d u w₁ c →
        ∀ p s, Undisturbed issued u c.expiresAt (R'.prog lib co d) (w₁, []) p s →
          (∃ q s', Undisturbed issued u c.expiresAt p s q s' ∧ Halted issued u q s') ∧
          (Halted issued u p s →
            ((p = .ret () ∧
              Converged d.id (d.scope co) (s.1.release u).accounts (s.1.release u).credentials) ↔
              ¬ R'.Aborts s.2)) := by
  obtain ⟨c, hc⟩ := hstore
  -- Wherever the first refresh stands, its transaction is open, so the crash takes back what it
  -- wrote.
  obtain ⟨v, hv, hm⟩ := h.meets False 0 hc (by rintro ⟨⟩) (by rintro ⟨⟩)
    (fun ha => ⟨ha.1, ha.2, by rintro ⟨⟩⟩) hrun
  obtain ⟨hT, c', hc'⟩ := hm.1
  rw [← hv.accounts] at hT
  rw [← hv.credentials] at hc'
  refine ⟨?_, ⟨c', hc'.only⟩, ?_⟩
  · obtain ⟨r, e, hr, ha, he, hlt⟩ := hdue
    have hclock : w.clock ≤ w'.clock := hrun.keeps (P := fun x => w.clock ≤ x.clock)
      (fun hle _ hn => (next_clock hn).symm ▸ hle)
      (fun hx hle => Int.le_trans hle (around_clock hx)) (Int.le_refl w.clock)
    refine ⟨r, e, ?_, ha, he, Int.lt_of_lt_of_le hlt (Int.add_le_add_right hclock _)⟩
    exact (congrArg (fun T => T.lookup d.id) hT).trans hr
  · intro R' u w₁ c₁ hT₁ hcs₁ hres p s hgoes
    have hcs : w₁.credentials = w'.credentials := hcs₁
    rw [← hcs] at hc'
    obtain rfl : c' = c₁ := Option.some.inj (hc'.current.symm.trans hres.current)
    exact ⟨Goes.halts p s, hgoes.halted hres hc'⟩

/-! ## A crash after the rotate -/

/-- The service gets to its update of the row. -/
def crashRun : List (Event Sig) :=
  [⟨.readToken mailScope, .ok mailBundle⟩, ⟨.utcNow, (3300000000 : Int)⟩,
    ⟨.exchange gmailToken mailRefreshForm, .ok mailResponse⟩, ⟨.utcNow, (3300000000 : Int)⟩,
    ⟨.rotate mailScope mailRotated 6900000000, .ok (78 : Nat)⟩]

/-- The job renews the account. -/
def nextRun : List (Event Sig) :=
  [⟨.readToken mailScope, .ok mailRotated⟩, ⟨.utcNow, (3300000000 : Int)⟩,
    ⟨.exchange gmailToken mailRefreshForm, .ok mailResponse⟩,
    ⟨.rotate mailScope mailRotated 6900000000, .ok (79 : Nat)⟩,
    ⟨.updateTx 1 (.mirrorNow 6900000000), .ok (1 : Nat)⟩, ⟨.commit, .ok ()⟩]

/-- The provider answers the job with a lifetime of 10^16 seconds. -/
def endlessRun : List (Event Sig) :=
  [⟨.readToken mailScope, .ok mailRotated⟩, ⟨.utcNow, (3300000000 : Int)⟩,
    ⟨.exchange gmailToken mailRefreshForm, .ok endlessResponse⟩]

abbrev mailIssued (token : String) : Prop := token = "refresh-1"

def rotatedCredential : Credential := ⟨mailScope, purposeOauthToken, mailRotated, 6900000000, true⟩

/-- Thread 1 claims the account again, and does what the run says. -/
def followed (run : List (Event Sig)) (w : Hub) : Option (Prog Sig Unit × Hub × Past) :=
  Prog.follow (recording (Hub.next 1)) (reached mailIssued) run
    ((Refresher.job mailJob {}).prog mailCrates 9 dueAccount) (w, [])

def Prog.isRet {α : Type} : Prog Sig α → Bool
  | .ret _ => true
  | .call .. => false

def Prog.isPanic {α : Type} : Prog Sig α → Bool
  | .call .panic _ => true
  | _ => false

/-- The row is as before the crash, and the store is not. -/
def staleEnd (w : Hub) : Bool :=
  decide (w.accounts.lookup 1 = dueHub.accounts.lookup 1) &&
    decide (w.current mailScope = some rotatedCredential) && decide (w.clock < 6900000000)

/-- Where the crash leaves the hub, and where the two runs behind it end. -/
def crashEnd (p : Prog Sig Unit × Hub) : Bool :=
  let w₁ := (p.2.release 0).lock 1 1
  ! Prog.isRet p.1 && staleEnd w₁ && (followed nextRun w₁).any (Prog.isRet ·.1) &&
    (followed endlessRun w₁).any fun q => Prog.isPanic q.1 && staleEnd q.2.1

theorem crash_follows : ((Refresher.service mailService {}).prog mailCrates 9 dueAccount |>.follow
    (Hub.next 0) (fun w op ans => storeAnswers w op ans ∧ Issues mailIssued op ans) crashRun
    dueStored).any crashEnd = true := by
  decide +kernel

theorem dueStored_begun : Begun dueStored 0 dueAccount where
  row := ⟨_, rfl, rfl, rfl⟩
  held := rfl
  clean := rfl
  writes _ := rfl

theorem dueStored_renewable : Renewable mailIssued (dueAccount.scope 9) dueStored.credentials
    ⟨mailScope, purposeOauthToken, mailBundle, 3600000000, true⟩ where
  only := by decide
  token := ⟨"refresh-1", rfl, rfl⟩
  honest := rfl

theorem dueStored_due : dueStored.DueAt 600 1 := ⟨_, 3600000000, rfl, rfl, rfl, by decide⟩

theorem crash_resumes : ∃ (w' : Hub) (op : Op) (k : Ans op → Prog Sig Unit),
    Underway mailCrates 9 mailIssued (.service mailService {}) dueAccount 0 dueStored (.call op k) w' ∧
      Resumes mailCrates 9 (.job mailJob {}) dueAccount 1 ((w'.release 0).lock 1 1) rotatedCredential ∧
      (∃ q ∈ followed nextRun ((w'.release 0).lock 1 1), Prog.isRet q.1) ∧
      ∃ q ∈ followed endlessRun ((w'.release 0).lock 1 1), Prog.isPanic q.1 ∧ staleEnd q.2.1 := by
  obtain ⟨⟨p, w'⟩, hfollow, hend⟩ := (Option.any_eq_true ..).mp crash_follows
  simp only [crashEnd, staleEnd, Bool.and_eq_true, Option.any_eq_true] at hend
  obtain ⟨⟨⟨hcall, ⟨hrow, hcur⟩, hclock⟩, q, hq, hret⟩, q', hq', hpanic, hstale⟩ := hend
  cases p with
  | ret a => cases hcall
  | call op k =>
    have hrun : Underway mailCrates 9 mailIssued (.service mailService {}) dueAccount 0 dueStored
        (.call op k) w' := .of_follow hfollow
    obtain ⟨v, hv, -⟩ := dueStored_begun.meets False 0 dueStored_renewable
      (by rintro ⟨⟩) (by rintro ⟨⟩) (fun ha => ⟨ha.1, ha.2, by rintro ⟨⟩⟩) hrun
    refine ⟨w', op, k, hrun, ?_, ⟨q, hq, hret⟩, q', hq', hpanic, ?_⟩
    · refine ⟨⟨⟨_, gmail_resolved⟩, _, rfl⟩, ⟨⟨⟨_, of_decide_eq_true hrow, rfl, rfl⟩, ?_, ?_⟩, ?_⟩,
        of_decide_eq_true hcur, ?_⟩
      · simp [Txs.lock_holder, dueAccount]
      · simp [hv.clear_writes]
      · exact fun u => by simp [hv.clear_writes]
      · exact of_decide_eq_true hclock
    · simp only [staleEnd, Bool.and_eq_true]
      exact hstale

theorem crash_convergence_mailbox : ∃ (w' : Hub) (op : Op) (k : Ans op → Prog Sig Unit) (s : Hub × Past),
    Underway mailCrates 9 mailIssued (.service mailService {}) dueAccount 0 dueStored (.call op k) w' ∧
      (w'.release 0).DueAt 600 1 ∧
      (∃ c, (w'.release 0).credentials.filter (·.IsCurrent mailScope) = [c]) ∧
      Undisturbed mailIssued 1 6900000000 ((Refresher.job mailJob {}).prog mailCrates 9 dueAccount)
        ((w'.release 0).lock 1 1, []) (.ret ()) s ∧
      Converged 1 mailScope (s.1.release 1).accounts (s.1.release 1).credentials := by
  obtain ⟨w', op, k, hrun, hres, ⟨⟨p, s⟩, hq, hret⟩, -⟩ := crash_resumes
  have hnext : Undisturbed mailIssued 1 6900000000 ((Refresher.job mailJob {}).prog mailCrates 9 dueAccount)
      ((w'.release 0).lock 1 1, []) p s := .of_follow hq
  cases p with
  | call op' k' => cases hret
  | ret u =>
    obtain ⟨hdue', hone, hconv⟩ :=
      crash_convergence_iff dueStored_begun dueStored_due ⟨_, dueStored_renewable⟩ hrun
    obtain ⟨-, hiff⟩ := hconv _ 1 ((w'.release 0).lock 1 1) _ rfl rfl hres _ _ hnext
    exact ⟨w', op, k, s, hrun, hdue', hone, hnext, ((hiff trivial).mpr hnext.aborts).2⟩

/-! The claimed convergence fails behind a lifetime of 10^16 seconds: the job panics in `expires_at`,
and the row keeps the expiry that the crash left. -/

theorem endless_lifetime_stays_stale : ∃ (w' : Hub) (op : Op) (k : Ans op → Prog Sig Unit)
    (p : Prog Sig Unit) (s : Hub × Past),
    Begun dueStored 0 dueAccount ∧ dueStored.DueAt 600 1 ∧
      (∃ c, Renewable mailIssued mailScope dueStored.credentials c) ∧
      Underway mailCrates 9 mailIssued (.service mailService {}) dueAccount 0 dueStored (.call op k) w' ∧
      Resumes mailCrates 9 (.job mailJob {}) dueAccount 1 ((w'.release 0).lock 1 1) rotatedCredential ∧
      Undisturbed mailIssued 1 6900000000 ((Refresher.job mailJob {}).prog mailCrates 9 dueAccount)
        ((w'.release 0).lock 1 1, []) p s ∧
      s.2 = endlessRun.reverse ∧ Halted mailIssued 1 p s ∧ p ≠ .ret () ∧
      ¬ Converged 1 mailScope (s.1.release 1).accounts (s.1.release 1).credentials := by
  obtain ⟨w', op, k, hrun, hres, -, ⟨p, s⟩, hq, hpanic, hstale⟩ := crash_resumes
  have hpast := follow_recording hq
  rw [List.append_nil] at hpast
  simp only [staleEnd, Bool.and_eq_true, decide_eq_true_eq] at hstale
  obtain ⟨⟨hrow, hcur⟩, -⟩ := hstale
  have hstill : ¬ Converged 1 mailScope (s.1.release 1).accounts (s.1.release 1).credentials := by
    rintro ⟨r, c, hr, -, hc, he⟩
    have hr' : dueHub.accounts.lookup 1 = some r := hrow ▸ hr
    have hc' : some rotatedCredential = some c := hcur ▸ hc
    cases hr'
    cases hc'
    revert he
    decide
  cases p with
  | ret u => cases hpanic
  | call op' k' =>
    refine ⟨w', op, k, _, s, dueStored_begun, dueStored_due, ⟨_, dueStored_renewable⟩, hrun, hres,
      .of_follow hq, hpast, ?_, by rintro ⟨⟩, hstill⟩
    cases op' <;> first | exact fun e => e.elim | cases hpanic

end BackboneIntegrations.OAuth
