import BackboneIntegrations.Interleave.Progress
import BackboneIntegrations.Intake.Declared

/-!
# The intake never stands still

A call waits only for the row of another call, and a call that has locked a row does not wait. So
deliveries and retries always come to an end, however many of them run at once.
-/

open Interleave

namespace BackboneIntegrations.Intake

variable {V : Type} {json : JsonCodec V} {init : Hub → Prop}
  {ok : Config (system json) → Label (system json) → Prop} {cfg cfg' : Config (system json)}

/-- The steps of the calls that run. A statement fails only at a declared constraint. -/
def Going (cfg : Config (system json)) : Label (system json) → Prop
  | .op _ op ans => Hub.declaredAnswer cfg.world op ans
  | .finish _ => True
  | .start .. | .crash _ | .env _ => False

theorem Going.own {l : Label (system json)} (h : Going cfg l) : l.Own := by
  cases l with
  | start | crash | env => exact h.elim
  | op | finish => trivial

/-! ## What a call waits for -/

theorem byKey_of_lost (hr : Reach (system json) init ok cfg) {t : Tid} {n : NewEventRow}
    (hd : cfg.Did t (.claimEvent n) (.ok none)) :
    (Hub.byKey cfg.world n.connectorId n.businessKey).isSome := by
  induction hr with
  | init h => cases hd
  | @step cfg l cfg' hreach _ hs ih =>
    have keep : (Hub.byKey cfg.world n.connectorId n.businessKey).isSome →
        (Hub.byKey cfg'.world n.connectorId n.businessKey).isSome := by
      intro hb
      by_contra hnone
      simp only [Option.not_isSome_iff_eq_none, Hub.byKey_eq_none] at hnone
      refine absurd (Hub.byKey_eq_none.mpr fun id m hm => hnone id m (source?_mono hs hm)) ?_
      exact Option.isSome_iff_ne_none.mp hb
    rcases hs.did.mp hd with rfl | hd
    · refine keep ?_
      cases hs with
      | op ht hw =>
        simp only [system, Hub.next, Option.ite_none_right_eq_some] at hw
        exact hw.1
    · exact keep (ih hd)

theorem pending_of_lock {c : Call V} {h : Past V} {op : Op V} (hm : must json c h op) {id : Uuid}
    {u : EventUpdate} (hop : op = .updateTx id u ∨ op = .update id u) : pending h = [] := by
  rcases hop with rfl | rfl
  · cases c with
    | receiveEvent e =>
      obtain ⟨d, -, -, rfl⟩ := hm
      rfl
    | retryFailed companyId connectorId =>
      obtain ⟨a, r, -, -, rfl⟩ := hm
      exact a.closed
  · cases c with
    | receiveEvent e => exact hm.elim
    | retryFailed companyId connectorId =>
      obtain ⟨a, -, ⟨reason, -, rfl⟩ | ⟨rej, -, rfl⟩⟩ := hm
      · exact a.closed
      · exact a.closed

theorem waits_of_stuck (hr : Reach (system json) init ok cfg)
    (hstuck : ∀ l cfg', Going cfg l → ¬ Step (system json) cfg l cfg') {t : Tid} {c : Call V}
    {p : Prog (Sig V) (Res c)} (ht : cfg.threads t = .running c p) :
    pending (cfg.events t) = [] ∧ ∃ id v, (Hub.txs cfg.world).holder id = some v := by
  rcases p with r | ⟨op, k⟩
  · exact absurd (Step.finish ht) (hstuck _ _ trivial)
  have hm := (script_holds json).must hr ht
  by_contra hno
  have free : ∀ {id u}, (op = .updateTx id u ∨ op = .update id u) →
      (Hub.txs cfg.world).holder id = none := by
    intro id u hop
    rw [Option.eq_none_iff_forall_ne_some]
    exact fun v hv => hno ⟨pending_of_lock hm hop, id, v, hv⟩
  have hkey : ∀ c k, op = .fetchByBusinessKey c k → (Hub.byKey cfg.world c k).isSome := by
    rintro connectorId businessKey rfl
    cases c with
    | receiveEvent e =>
      obtain ⟨rfl, rfl, id, h', hpast⟩ := hm
      have hlost : cfg.Did t (.claimEvent (e.newRow id)) (.ok none) :=
        mem_events.mp (by rw [hpast]; exact List.mem_cons_self)
      exact byKey_of_lost hr hlost
    | retryFailed => exact hm.elim
  obtain ⟨ans, w, hans, hw⟩ := exists_answer hkey (fun id u hop => .inl (free (.inl hop)))
    (fun id u hop => free (.inr hop))
  exact hstuck (.op t op ans) _ hans (.op ht hw)

/-- **Every run of the intake comes to an end.** However the calls that have started go on, they all
return: a call that holds a row never waits for another one. -/
theorem intake_ends (hinit : ∀ w, init w → w.Idle) (hr : Reach (system json) init ok cfg) :
    Ends Going cfg := by
  obtain ⟨F, hF⟩ := hr.exists_started
  have hr' : Reach (system json) init (fun _ _ => True) cfg := hr.mono fun _ _ _ => trivial
  refine Ends.of_live (I := fun cfg => Reach (system json) init (fun _ _ => True) cfg) Going.own ?_ ?_ hF hr'
  · exact fun h _ hs => .step h trivial hs
  · rintro cfg h ⟨t, c, p, ht⟩
    by_contra hstuck
    push Not at hstuck
    obtain ⟨-, id, v, hv⟩ := waits_of_stuck h hstuck ht
    -- the holder has an open write, so it does not wait itself
    obtain ⟨upd, hupd⟩ := held_of_reach hinit h id v hv
    rw [writes_eq hinit h] at hupd
    split at hupd
    · obtain ⟨hclosed, -⟩ := waits_of_stuck h hstuck ‹_›
      rw [hclosed] at hupd
      cases hupd
    · cases hupd

/-! Two retries of one event: the second waits for the row that the first one has locked. -/

def waitingRetry : List (Label (system textJson)) :=
  retryIgnored ++
    [.start 3 (.retryFailed 7 1), .op 3 (.fetchForRetry 1) (.ok (some ⟨.paymentGateway⟩)),
      .op 3 (.fetchFailed 1) (.ok [failedPayment]),
      .op 3 (.map (failedPayment.mapRequest textJson 7 .paymentGateway)) (.ok (.mapped ⟨"payment", 77⟩)),
      .op 3 .begin (.ok ()), .op 3 (.updateTx 10 (.retryMarkMapped "payment" 77)) (.ok 1)]

theorem waitingRetry_runs :
    (replay (fun _ _ => True) (Config.init twoConnectors) waitingRetry).isSome := by
  decide

def waiting : Config (system textJson) :=
  (replay (fun _ _ => True) (Config.init twoConnectors) waitingRetry).get waitingRetry_runs

theorem intake_ends_waiting : (Hub.target waiting.world 10 (.retryMarkIgnored "no-op")).isSome ∧
    (Hub.txs waiting.world).holder 10 = some 3 ∧ Ends Going waiting := by
  have hr : Reach (system textJson) (· = twoConnectors) (fun _ _ => True) waiting :=
    .of_replay (by rfl) waitingRetry waitingRetry_runs
  refine ⟨by decide, by decide, intake_ends ?_ hr⟩
  rintro w rfl
  exact Hub.idle_of_fresh twoConnectors_fresh

end BackboneIntegrations.Intake
