import Mathlib.Logic.Function.Basic
import Mathlib.Tactic.SplitIfs
import BackboneIntegrations.Interleave.Prog

/-!
# Calls that run at the same time

A pool runs any number of calls over one world, one operation at a time and in any
order. A call can crash at any point. The history keeps every step, newest first.
-/

namespace Interleave

abbrev Tid := Nat

/-- The calls of a component, the programs they run, and the world below them. -/
structure System (S : Signature) (World Call : Type) (Res : Call → Type) (Env : Type) where
  prog : (c : Call) → Prog S (Res c)
  /-- The world after `op` was answered with `ans`, if that answer is possible now. -/
  next : Tid → (op : S.Op) → S.Ans op → World → Option World
  /-- What the world does when a call ends or dies. -/
  leave : Tid → World → World
  /-- Steps that no call takes. -/
  env : Env → World → Option World

variable {S : Signature} {World Call Env : Type} {Res : Call → Type}

inductive Thread (sys : System S World Call Res Env) where
  | idle
  | running (c : Call) (p : Prog S (Res c))
  | done (c : Call) (r : Res c)
  | crashed (c : Call)

inductive Label (sys : System S World Call Res Env) where
  | start (t : Tid) (c : Call)
  | op (t : Tid) (op : S.Op) (ans : S.Ans op)
  | finish (t : Tid)
  | crash (t : Tid)
  | env (e : Env)

def Thread.call? {sys : System S World Call Res Env} : Thread sys → Option Call
  | .idle => none
  | .running c _ | .done c _ | .crashed c => some c

structure Config (sys : System S World Call Res Env) where
  world : World
  threads : Tid → Thread sys
  hist : List (Label sys)

variable {sys : System S World Call Res Env}

namespace Config

def init (w : World) : Config sys := ⟨w, fun _ => .idle, []⟩

/-- The call that thread `t` runs or ran. -/
def call? (cfg : Config sys) (t : Tid) : Option Call := (cfg.threads t).call?

/-- The configuration after thread `t` took step `l`. -/
def put (cfg : Config sys) (w : World) (t : Tid) (th : Thread sys) (l : Label sys) :
    Config sys :=
  ⟨w, Function.update cfg.threads t th, l :: cfg.hist⟩

@[simp] theorem put_world (cfg : Config sys) (w t th l) : (cfg.put w t th l).world = w := rfl
@[simp] theorem put_hist (cfg : Config sys) (w t th l) :
    (cfg.put w t th l).hist = l :: cfg.hist := rfl
@[simp] theorem put_threads_self (cfg : Config sys) (w t th l) :
    (cfg.put w t th l).threads t = th := Function.update_self ..
theorem put_threads_ne (cfg : Config sys) (w th l) {t u : Tid} (h : u ≠ t) :
    (cfg.put w t th l).threads u = cfg.threads u := Function.update_of_ne h ..
/-- Thread `t` asked `op` at some time and got `ans`. -/
abbrev Did (cfg : Config sys) (t : Tid) (op : S.Op) (ans : S.Ans op) : Prop :=
  Label.op t op ans ∈ cfg.hist

theorem call?_put (cfg : Config sys) (w t th l) (u : Tid) :
    (cfg.put w t th l).call? u = if u = t then th.call? else cfg.call? u := by
  by_cases h : u = t
  · subst h
    simp [call?]
  · simp [call?, cfg.put_threads_ne _ _ _ h, h]

@[simp] theorem init_world (w : World) : (init w : Config sys).world = w := rfl
@[simp] theorem init_hist (w : World) : (init w : Config sys).hist = [] := rfl
@[simp] theorem init_threads (w : World) (t : Tid) : (init w : Config sys).threads t = .idle := rfl

end Config

/-! ## Steps -/

inductive Step (sys : System S World Call Res Env) : Config sys → Label sys → Config sys → Prop
  | start {cfg t c} (ht : cfg.threads t = .idle) :
    Step sys cfg (.start t c) (cfg.put cfg.world t (.running c (sys.prog c)) (.start t c))
  | op {cfg t c op ans k w} (ht : cfg.threads t = .running c (.call op k))
    (hw : sys.next t op ans cfg.world = some w) :
    Step sys cfg (.op t op ans) (cfg.put w t (.running c (k ans)) (.op t op ans))
  | finish {cfg t c r} (ht : cfg.threads t = .running c (.ret r)) :
    Step sys cfg (.finish t) (cfg.put (sys.leave t cfg.world) t (.done c r) (.finish t))
  | crash {cfg t c p} (ht : cfg.threads t = .running c p) :
    Step sys cfg (.crash t) (cfg.put (sys.leave t cfg.world) t (.crashed c) (.crash t))
  | env {cfg e w} (hw : sys.env e cfg.world = some w) :
    Step sys cfg (.env e) { cfg with world := w, hist := .env e :: cfg.hist }

/-- The same step as a function, to run a schedule. -/
def fire [DecidableEq S.Op] (cfg : Config sys) : Label sys → Option (Config sys)
  | .start t c =>
    match cfg.threads t with
    | .idle => some (cfg.put cfg.world t (.running c (sys.prog c)) (.start t c))
    | _ => none
  | .op t op ans =>
    match cfg.threads t with
    | .running c (.call op' k) =>
      if h : op = op' then
        (sys.next t op ans cfg.world).map fun w =>
          cfg.put w t (.running c (k (h ▸ ans))) (.op t op ans)
      else none
    | _ => none
  | .finish t =>
    match cfg.threads t with
    | .running c (.ret r) => some (cfg.put (sys.leave t cfg.world) t (.done c r) (.finish t))
    | _ => none
  | .crash t =>
    match cfg.threads t with
    | .running c _ => some (cfg.put (sys.leave t cfg.world) t (.crashed c) (.crash t))
    | _ => none
  | .env e => (sys.env e cfg.world).map fun w => { cfg with world := w, hist := .env e :: cfg.hist }

theorem step_of_fire [DecidableEq S.Op] {cfg cfg' : Config sys} {l : Label sys}
    (h : fire cfg l = some cfg') : Step sys cfg l cfg' := by
  cases l with
  | start t c =>
    simp only [fire] at h
    split at h <;> cases h
    exact .start ‹_›
  | op t op ans =>
    simp only [fire] at h
    split at h
    · split at h
      · rename_i hop
        subst hop
        obtain ⟨w, hw, rfl⟩ := Option.map_eq_some_iff.mp h
        exact .op ‹_› hw
      · cases h
    · cases h
  | finish t =>
    simp only [fire] at h
    split at h <;> cases h
    exact .finish ‹_›
  | crash t =>
    simp only [fire] at h
    split at h <;> cases h
    exact .crash ‹_›
  | env e =>
    obtain ⟨w, hw, rfl⟩ := Option.map_eq_some_iff.mp h
    exact .env hw

theorem Step.keeps_call {cfg cfg' : Config sys} {l : Label sys} (hs : Step sys cfg l cfg') {t : Tid}
    {c : Call} (h : cfg.call? t = some c) : cfg'.call? t = some c := by
  cases hs with
  | env hw => exact h
  | start ht | op ht hw | finish ht | crash ht =>
    rw [Config.call?_put]
    split
    · subst_vars
      simp_all [Config.call?, Thread.call?]
    · exact h

theorem Step.call_cases {cfg cfg' : Config sys} {l : Label sys} (hs : Step sys cfg l cfg') {t : Tid}
    {c : Call} (h : cfg'.call? t = some c) : cfg.call? t = some c ∨ l = .start t c := by
  cases hs with
  | env hw => exact .inl h
  | start ht =>
    rw [Config.call?_put] at h
    split at h
    · cases h
      subst_vars
      exact .inr rfl
    · exact .inl h
  | op ht hw | finish ht | crash ht =>
    -- These steps leave the call of the thread as it is.
    left
    rw [Config.call?_put] at h
    split at h
    · subst_vars
      rw [Config.call?, ht]
      exact h
    · exact h

theorem Step.hist {cfg cfg' : Config sys} {l : Label sys} (hs : Step sys cfg l cfg') :
    cfg'.hist = l :: cfg.hist := by
  cases hs <;> rfl

theorem Step.next_eq {cfg cfg' : Config sys} {t : Tid} {op : S.Op} {ans : S.Ans op}
    (hs : Step sys cfg (.op t op ans) cfg') : sys.next t op ans cfg.world = some cfg'.world := by
  cases hs with
  | op ht hw => exact hw

theorem Step.idle_of_start {cfg cfg' : Config sys} {t : Tid} {c : Call}
    (hs : Step sys cfg (.start t c) cfg') : cfg.threads t = .idle := by
  cases hs with
  | start ht => exact ht

/-! ## Runs -/

/-- What a run can reach from `init` when every step is allowed by `ok`. -/
inductive Reach (sys : System S World Call Res Env) (init : World → Prop)
    (ok : Config sys → Label sys → Prop) : Config sys → Prop
  | init {w} (h : init w) : Reach sys init ok (.init w)
  | step {cfg l cfg'} (h : Reach sys init ok cfg) (hok : ok cfg l) (hs : Step sys cfg l cfg') :
    Reach sys init ok cfg'

/-- Runs that go on from a configuration. -/
inductive Steps (sys : System S World Call Res Env) (ok : Config sys → Label sys → Prop) (cfg : Config sys) :
    Config sys → Prop
  | refl : Steps sys ok cfg cfg
  | tail {mid l cfg'} (h : Steps sys ok cfg mid) (hok : ok mid l) (hs : Step sys mid l cfg') :
    Steps sys ok cfg cfg'

variable {init : World → Prop} {ok ok' : Config sys → Label sys → Prop}

theorem Reach.mono (hok : ∀ cfg l, ok cfg l → ok' cfg l) {cfg : Config sys}
    (h : Reach sys init ok cfg) : Reach sys init ok' cfg := by
  induction h with
  | init h => exact .init h
  | step _ hl hs ih => exact .step ih (hok _ _ hl) hs

theorem Reach.steps {cfg cfg' : Config sys} (h : Reach sys init ok cfg)
    (hs : Steps sys ok cfg cfg') : Reach sys init ok cfg' := by
  induction hs with
  | refl => exact h
  | tail _ hl hs ih => exact .step ih hl hs

theorem Steps.trans {cfg cfg' cfg'' : Config sys} (h : Steps sys ok cfg cfg')
    (h' : Steps sys ok cfg' cfg'') : Steps sys ok cfg cfg'' := by
  induction h' with
  | refl => exact h
  | tail _ hl hs ih => exact .tail ih hl hs

/-- Runs a schedule, and stops at a step that is not allowed. -/
def replay [DecidableEq S.Op] (ok : Config sys → Label sys → Prop) [∀ cfg l, Decidable (ok cfg l)] :
    Config sys → List (Label sys) → Option (Config sys)
  | cfg, [] => some cfg
  | cfg, l :: ls => if ok cfg l then (fire cfg l).bind (replay ok · ls) else none

theorem Reach.replay [DecidableEq S.Op] [∀ cfg l, Decidable (ok cfg l)] {cfg cfg' : Config sys}
    {ls : List (Label sys)} (h : Reach sys init ok cfg) (hr : replay ok cfg ls = some cfg') :
    Reach sys init ok cfg' := by
  induction ls generalizing cfg with
  | nil =>
    cases hr
    exact h
  | cons l ls ih =>
    simp only [Interleave.replay] at hr
    split at hr
    · obtain ⟨mid, hm, hr⟩ := Option.bind_eq_some_iff.mp hr
      exact ih (.step h ‹_› (step_of_fire hm)) hr
    · cases hr

theorem Step.did {cfg cfg' : Config sys} {l : Label sys} (hs : Step sys cfg l cfg') {t : Tid}
    {op : S.Op} {ans : S.Ans op} : cfg'.Did t op ans ↔ .op t op ans = l ∨ cfg.Did t op ans := by
  rw [Config.Did, hs.hist, List.mem_cons]

theorem Reach.mem_hist {P : Label sys → World → Prop} {cfg : Config sys}
    (h : Reach sys init ok cfg)
    (hnew : ∀ {cfg l cfg'}, Reach sys init ok cfg → ok cfg l → Step sys cfg l cfg' → P l cfg'.world)
    (hkeep : ∀ {cfg l cfg' l'}, Reach sys init ok cfg → ok cfg l → Step sys cfg l cfg' →
      P l' cfg.world → P l' cfg'.world) :
    ∀ l ∈ cfg.hist, P l cfg.world := by
  induction h with
  | init h => simp
  | step h hok hs ih =>
    rw [hs.hist, List.forall_mem_cons]
    exact ⟨hnew h hok hs, fun l hl => hkeep h hok hs (ih l hl)⟩

theorem replay_hist [DecidableEq S.Op] [∀ cfg l, Decidable (ok cfg l)] {cfg cfg' : Config sys}
    {ls : List (Label sys)} (hr : replay ok cfg ls = some cfg') :
    cfg'.hist = ls.reverse ++ cfg.hist := by
  induction ls generalizing cfg with
  | nil =>
    cases hr
    rfl
  | cons l ls ih =>
    simp only [replay] at hr
    split at hr
    -- Each label of the schedule goes in front of the history.
    · obtain ⟨mid, hm, hr⟩ := Option.bind_eq_some_iff.mp hr
      rw [ih hr, (step_of_fire hm).hist, List.reverse_cons, List.append_assoc]
      rfl
    · cases hr

/-- One step of a run, with the configurations before and after. -/
structure Taken (sys : System S World Call Res Env) where
  before : Config sys
  label : Label sys
  after : Config sys

/-- A run with all its steps, newest first. -/
inductive Run (sys : System S World Call Res Env) (init : World → Prop)
    (ok : Config sys → Label sys → Prop) : List (Taken sys) → Config sys → Prop
  | init {w} (h : init w) : Run sys init ok [] (.init w)
  | step {tr cfg l cfg'} (h : Run sys init ok tr cfg) (hok : ok cfg l) (hs : Step sys cfg l cfg') :
    Run sys init ok (⟨cfg, l, cfg'⟩ :: tr) cfg'

theorem Run.reach {tr : List (Taken sys)} {cfg : Config sys} (h : Run sys init ok tr cfg) :
    Reach sys init ok cfg := by
  induction h with
  | init h => exact .init h
  | step _ hok hs ih => exact .step ih hok hs

theorem Run.mono (hok : ∀ cfg l, ok cfg l → ok' cfg l) {tr : List (Taken sys)} {cfg : Config sys}
    (h : Run sys init ok tr cfg) : Run sys init ok' tr cfg := by
  induction h with
  | init h => exact .init h
  | step _ hl hs ih => exact .step ih (hok _ _ hl) hs

theorem Reach.run {cfg : Config sys} (h : Reach sys init ok cfg) : ∃ tr, Run sys init ok tr cfg := by
  induction h with
  | init h => exact ⟨[], .init h⟩
  | step _ hok hs ih => exact ih.imp' (⟨_, _, _⟩ :: ·) fun _ h => .step h hok hs

theorem Run.forall_taken {P : Taken sys → Prop} {tr : List (Taken sys)} {cfg : Config sys}
    (h : Run sys init ok tr cfg)
    (hP : ∀ {cfg l cfg'}, Reach sys init ok cfg → ok cfg l → Step sys cfg l cfg' →
      P ⟨cfg, l, cfg'⟩) : ∀ s ∈ tr, P s := by
  induction h with
  | init h => simp
  | step h hok hs ih => exact List.forall_mem_cons.mpr ⟨hP h.reach hok hs, ih⟩

theorem Run.hist_eq {tr : List (Taken sys)} {cfg : Config sys} (h : Run sys init ok tr cfg) :
    cfg.hist = tr.map (·.label) := by
  induction h with
  | init h => rfl
  | step _ _ hs ih => rw [hs.hist, ih, List.map_cons]

theorem Run.split {newer older : List (Taken sys)} {s : Taken sys} {cfg : Config sys}
    (h : Run sys init ok (newer ++ s :: older) cfg) :
    Run sys init ok older s.before ∧ ok s.before s.label ∧ Step sys s.before s.label s.after := by
  induction newer generalizing cfg with
  | nil =>
    cases h with
    | step h hok hs => exact ⟨h, hok, hs⟩
  | cons s' newer ih =>
    cases h with
    | step h hok hs => exact ih h

/-- What holds after a step, and is kept by every step, holds in the rest of the run. -/
theorem Run.keeps {P : Config sys → Prop} {newer older : List (Taken sys)} {s : Taken sys}
    {cfg : Config sys} (h : Run sys init ok (newer ++ s :: older) cfg) (hs : P s.after)
    (hkeep : ∀ {cfg l cfg'}, Reach sys init ok cfg → ok cfg l → Step sys cfg l cfg' → P cfg → P cfg') :
    P cfg ∧ ∀ s' ∈ newer, P s'.before ∧ P s'.after := by
  induction newer generalizing cfg with
  | nil =>
    cases h with
    | step h hok hst => exact ⟨hs, by simp⟩
  | cons s' newer ih =>
    cases h with
    | step h hok hst =>
      obtain ⟨hp, hall⟩ := ih h
      have hp' := hkeep h.reach hok hst hp
      exact ⟨hp', List.forall_mem_cons.mpr ⟨⟨hp, hp'⟩, hall⟩⟩

theorem Reach.of_replay [DecidableEq S.Op] [∀ cfg l, Decidable (ok cfg l)] {w : World} (h : init w)
    (ls : List (Label sys)) (hr : (Interleave.replay ok (.init w) ls).isSome) :
    Reach sys init ok ((Interleave.replay ok (.init w) ls).get hr) :=
  (Reach.init h).replay (Option.some_get hr).symm

theorem mem_hist_of_replay [DecidableEq S.Op] [∀ cfg l, Decidable (ok cfg l)] {w : World}
    {ls : List (Label sys)} (hr : (Interleave.replay ok (.init w) ls).isSome) {l : Label sys}
    (hl : l ∈ ls) : l ∈ ((Interleave.replay ok (.init w) ls).get hr).hist := by
  rw [replay_hist (Option.some_get hr).symm]
  simp [hl]

theorem Reach.exists_of_replay [DecidableEq S.Op] [∀ cfg l, Decidable (ok cfg l)] {w : World}
    (h : init w) {ls : List (Label sys)} {f : Config sys → Bool}
    (hr : (Interleave.replay ok (.init w) ls).any f = true) :
    ∃ cfg, Reach sys init ok cfg ∧ cfg.hist = ls.reverse ∧ f cfg = true := by
  obtain ⟨cfg, hcfg, hf⟩ := (Option.any_eq_true ..).mp hr
  exact ⟨cfg, (Reach.init h).replay hcfg, by simpa using replay_hist hcfg, hf⟩

theorem Reach.call_of_start {cfg : Config sys} (h : Reach sys init ok cfg) {t : Tid} {c : Call}
    (hl : .start t c ∈ cfg.hist) : cfg.call? t = some c := by
  induction h with
  | init h => cases hl
  | @step cfg l cfg' _ _ hs ih =>
    rw [hs.hist] at hl
    rcases List.mem_cons.mp hl with rfl | hl
    · cases hs with
      | start ht => simp [Config.call?_put, Thread.call?]
    · exact hs.keeps_call (ih hl)

theorem Run.thread_of_op {newer older : List (Taken sys)} {s : Taken sys} {cfg : Config sys}
    (h : Run sys init ok (newer ++ s :: older) cfg) {t : Tid} {op : S.Op} {ans : S.Ans op}
    (hl : s.label = .op t op ans) {c : Call} (hc : cfg.call? t = some c) :
    ∃ k, s.before.threads t = .running c (.call op k) := by
  obtain ⟨-, -, hs⟩ := h.split
  rw [hl] at hs
  generalize hafter : s.after = after at hs
  cases hs with
  | @op _ c' _ _ k w ht hw =>
    -- A thread keeps its call, so the one at the end of the run is the one of the step.
    have hkeep := h.keeps (P := fun cfg => cfg.call? t = some c')
      (by rw [hafter, Config.call?_put, if_pos rfl, Thread.call?])
      fun _ _ hst hcall => hst.keeps_call hcall
    obtain rfl : c' = c := Option.some.inj (hkeep.1.symm.trans hc)
    exact ⟨k, ht⟩

theorem Run.finish_of_done {tr : List (Taken sys)} {cfg : Config sys} (h : Run sys init ok tr cfg)
    {t : Tid} {c : Call} {r : Res c} (hd : cfg.threads t = .done c r) :
    ∃ s ∈ tr, s.label = .finish t := by
  induction h with
  | init h => cases hd
  | @step tr cfg l cfg' hrun hok hs ih =>
    by_cases hl : l = .finish t
    · exact ⟨_, List.mem_cons_self, hl⟩
    suffices hbefore : cfg.threads t = .done c r by
      obtain ⟨s, hm, hl⟩ := ih hbefore
      exact ⟨s, List.mem_cons_of_mem _ hm, hl⟩
    -- No other step makes a thread done.
    have other : ∀ {u w th l}, cfg.put w u th l = cfg' → (u = t → ∀ r, th ≠ .done c r) →
        cfg.threads t = .done c r := by
      rintro u w th l rfl hth
      by_cases hu : t = u
      · subst hu
        rw [Config.put_threads_self] at hd
        exact absurd hd (hth rfl r)
      · rwa [cfg.put_threads_ne _ _ _ hu] at hd
    cases hs with
    | start ht => exact other rfl (by simp)
    | op ht hw => exact other rfl (by simp)
    | finish ht => exact other rfl fun hu => absurd (congrArg Label.finish hu) hl
    | crash ht => exact other rfl (by simp)
    | env hw => exact hd

theorem Run.did_of_before {tr : List (Taken sys)} {cfg : Config sys} (h : Run sys init ok tr cfg)
    {s : Taken sys} (hm : s ∈ tr) {t : Tid} {op : S.Op} {ans : S.Ans op} (hd : s.before.Did t op ans) :
    cfg.Did t op ans := by
  obtain ⟨newer, older, rfl⟩ := List.append_of_mem hm
  obtain ⟨hold, -, -⟩ := h.split
  rw [Config.Did, hold.hist_eq] at hd
  rw [Config.Did, h.hist_eq, List.map_append, List.map_cons]
  exact List.mem_append_right _ (List.mem_cons_of_mem _ hd)

/-! ## What one call has done

The events of a call are its own operations with their answers, newest first. A script
says what a call must have done before each operation, and what it has done when it ends.
-/

structure Event (S : Signature) where
  op : S.Op
  ans : S.Ans op

def Label.event? (t : Tid) : Label sys → Option (Event S)
  | .op u o ans => if u = t then some ⟨o, ans⟩ else none
  | _ => none

def Config.events (cfg : Config sys) (t : Tid) : List (Event S) := cfg.hist.filterMap (·.event? t)

@[simp] theorem event?_start {t u : Tid} {c : Call} :
    (Label.start u c : Label sys).event? t = none := rfl
@[simp] theorem event?_finish {t u : Tid} : (Label.finish u : Label sys).event? t = none := rfl
@[simp] theorem event?_crash {t u : Tid} : (Label.crash u : Label sys).event? t = none := rfl
@[simp] theorem event?_env {t : Tid} {e : Env} : (Label.env e : Label sys).event? t = none := rfl

theorem mem_events {cfg : Config sys} {t : Tid} {op : S.Op} {ans : S.Ans op} :
    ⟨op, ans⟩ ∈ cfg.events t ↔ cfg.Did t op ans := by
  simp only [Config.events, List.mem_filterMap]
  constructor
  · rintro ⟨l, hl, he⟩
    cases l with
    | op u op' ans' =>
      simp only [Label.event?] at he
      split at he
      · cases he
        subst_vars
        exact hl
      · cases he
    | _ => cases he
  · intro h
    exact ⟨_, h, by simp [Label.event?]⟩

namespace Config

@[simp] theorem events_init (w : World) (t : Tid) : (Config.init w : Config sys).events t = [] := rfl

@[simp] theorem events_put_op {cfg : Config sys} {w t th op ans} :
    (cfg.put w t th (.op t op ans)).events t = ⟨op, ans⟩ :: cfg.events t := by
  simp [events, put, Label.event?]

theorem events_put_ne {cfg : Config sys} {w t u th l} (h : l.event? u = none) :
    (cfg.put w t th l).events u = cfg.events u := by
  simp [events, put, h]

theorem event?_ne {t u : Tid} {op : S.Op} {ans : S.Ans op} (h : u ≠ t) :
    (Label.op t op ans : Label sys).event? u = none := by
  simp [Label.event?, Ne.symm h]

end Config

theorem Config.events_step {cfg cfg' : Config sys} {l : Label sys} (hs : Step sys cfg l cfg')
    (t : Tid) : cfg'.events t = (l.event? t).toList ++ cfg.events t := by
  rw [Config.events, hs.hist, List.filterMap_cons]
  split <;> simp_all [Config.events]

/-- A run takes each event of a call at some step, after what the call had done before it. -/
theorem Run.taken_of_event {tr : List (Taken sys)} {cfg : Config sys} (h : Run sys init ok tr cfg)
    {t : Tid} {op : S.Op} {ans : S.Ans op} {pre : List (Event S)}
    (hp : ⟨op, ans⟩ :: pre <:+ cfg.events t) :
    ∃ newer s older, tr = newer ++ s :: older ∧ s.label = .op t op ans ∧ s.before.events t = pre := by
  induction h with
  | init h => simp at hp
  | @step tr cfg l cfg' h hok hs ih =>
    have hkeep : ⟨op, ans⟩ :: pre <:+ cfg.events t → ∃ newer s older,
        ⟨cfg, l, cfg'⟩ :: tr = newer ++ s :: older ∧ s.label = .op t op ans ∧
          s.before.events t = pre := by
      intro hp
      obtain ⟨newer, s, older, rfl, hs⟩ := ih hp
      exact ⟨_ :: newer, s, older, rfl, hs⟩
    rw [Config.events_step hs] at hp
    cases l with
    | op u op' ans' =>
      by_cases hu : u = t
      · subst hu
        rw [show (Label.op u op' ans' : Label sys).event? u = some ⟨op', ans'⟩ by simp [Label.event?]]
          at hp
        -- The event is the newest one, or it was there before this step.
        rcases List.suffix_cons_iff.mp hp with heq | hp
        · obtain ⟨hev, rfl⟩ := List.cons.inj heq
          cases hev
          exact ⟨[], _, tr, rfl, rfl, rfl⟩
        · exact hkeep hp
      · rw [Config.event?_ne (Ne.symm hu)] at hp
        exact hkeep hp
    | _ => exact hkeep hp

theorem Run.taken_of_mem {tr : List (Taken sys)} {cfg : Config sys} (h : Run sys init ok tr cfg)
    {t : Tid} {op : S.Op} {ans : S.Ans op} (hm : cfg.Did t op ans) :
    ∃ s ∈ tr, s.label = .op t op ans ∧ Reach sys init ok s.before ∧ ok s.before s.label ∧
      Step sys s.before (.op t op ans) s.after := by
  obtain ⟨before, after, hsplit⟩ := List.append_of_mem (mem_events.mpr hm)
  obtain ⟨newer, s, older, rfl, hl, -⟩ := h.taken_of_event (hsplit ▸ List.suffix_append ..)
  obtain ⟨hold, hok, hs⟩ := h.split
  exact ⟨s, by simp, hl, hold.reach, hok, hl ▸ hs⟩

/-- The contract that lets a program ask by its own events so far. -/
def Contract.ofPast (must : List (Event S) → S.Op → Prop) : Contract S (List (Event S)) where
  must := must
  may h op ans h' := h' = ⟨op, ans⟩ :: h

@[simp] theorem ofPast_must {must : List (Event S) → S.Op → Prop} :
    (Contract.ofPast must).must = must := rfl
@[simp] theorem ofPast_may {must : List (Event S) → S.Op → Prop} {h h' op ans} :
    (Contract.ofPast must).may h op ans h' ↔ h' = ⟨op, ans⟩ :: h := Iff.rfl

theorem Meets.ofPast {α : Type} {must must' : List (Event S) → S.Op → Prop} {p : Prog S α}
    {h : List (Event S)} {Q : α → List (Event S) → Prop} (hp : Meets (.ofPast must) p h Q)
    (hm : ∀ h op, must h op → must' h op) : Meets (.ofPast must') p h Q := by
  induction p generalizing h with
  | ret a => exact hp
  | call op k ih => exact ⟨hm _ _ hp.1, fun ans h' hans => ih ans (hp.2 ans h' hans)⟩

theorem Meets.asks {α : Type} {must : List (Event S) → S.Op → Prop} {p : Prog S α}
    {h : List (Event S)} {Q : α → List (Event S) → Prop} (hp : Meets (.ofPast must) p h Q)
    {P : S.Op → Prop} (hP : ∀ h op, must h op → P op) : p.Asks P := by
  induction p generalizing h with
  | ret a => trivial
  | call op k ih => exact ⟨hP _ _ hp.1, fun ans => ih ans (hp.2 ans _ rfl)⟩

theorem Meets.and_asks {α : Type} {must : List (Event S) → S.Op → Prop} {p : Prog S α}
    {h : List (Event S)} {Q : α → List (Event S) → Prop} (hp : Meets (.ofPast must) p h Q)
    {P : S.Op → Prop} (ha : p.Asks P) : Meets (.ofPast fun h op => must h op ∧ P op) p h Q := by
  induction p generalizing h with
  | ret a => exact hp
  | call op k ih => exact ⟨⟨hp.1, ha.1⟩, fun ans h' hans => ih ans (hp.2 ans h' hans) (ha.2 ans)⟩

structure Script (sys : System S World Call Res Env) where
  must : (c : Call) → List (Event S) → S.Op → Prop
  leave : (c : Call) → Res c → List (Event S) → Prop

namespace Script

def contract (X : Script sys) (c : Call) : Contract S (List (Event S)) := .ofPast (X.must c)

/-- Every program of the system follows the script. -/
def Holds (X : Script sys) : Prop := ∀ c, Meets (X.contract c) (sys.prog c) [] (X.leave c)

/-- Where each thread of a configuration is in its script. -/
def Tracks (X : Script sys) (cfg : Config sys) : Prop :=
  ∀ t, match cfg.threads t with
    | .idle => cfg.events t = []
    | .running c p => Meets (X.contract c) p (cfg.events t) (X.leave c)
    | .done c r => X.leave c r (cfg.events t)
    | .crashed _ => True

variable {X : Script sys}

theorem Tracks.put {cfg : Config sys} {t : Tid} {w th l} (h : X.Tracks cfg)
    (hl : ∀ u, u ≠ t → l.event? u = none)
    (ht : match th with
      | .idle => (cfg.put w t th l).events t = []
      | .running c p => Meets (X.contract c) p ((cfg.put w t th l).events t) (X.leave c)
      | .done c r => X.leave c r ((cfg.put w t th l).events t)
      | .crashed _ => True) :
    X.Tracks (cfg.put w t th l) := by
  intro u
  by_cases hu : u = t
  · subst hu
    simpa using ht
  · rw [cfg.put_threads_ne _ _ _ hu, Config.events_put_ne (hl u hu)]
    exact h u

theorem Tracks.step {cfg cfg' : Config sys} {l : Label sys} (hX : X.Holds) (h : X.Tracks cfg)
    (hs : Step sys cfg l cfg') : X.Tracks cfg' := by
  cases hs with
  | @start t c hidle =>
    -- The program of the thread meets its contract behind what it has done so far.
    have ht := h t
    rw [hidle] at ht
    refine h.put (fun _ _ => rfl) ?_
    simpa only [Config.events_put_ne event?_start, ht] using hX c
  | @op t c op ans k w hrun hw =>
    have ht := h t
    rw [hrun] at ht
    refine h.put (fun u hu => Config.event?_ne hu) ?_
    simpa using ht.2 ans _ rfl
  | @finish t c r hrun =>
    have ht := h t
    rw [hrun] at ht
    refine h.put (fun _ _ => rfl) ?_
    simpa only [Config.events_put_ne event?_finish, meets_ret] using ht
  | crash hrun => exact h.put (fun _ _ => rfl) trivial
  | env hw => exact h

theorem Holds.tracks (hX : X.Holds) {cfg : Config sys} (h : Reach sys init ok cfg) :
    X.Tracks cfg := by
  induction h with
  | init h => exact fun _ => rfl
  | step _ _ hs ih => exact ih.step hX hs

/-- In every run, a call asks an operation only after what the script says. -/
theorem Holds.must (hX : X.Holds) {cfg : Config sys} (h : Reach sys init ok cfg) {t : Tid}
    {c : Call} {op : S.Op} {k : S.Ans op → Prog S (Res c)}
    (ht : cfg.threads t = .running c (.call op k)) : X.must c (cfg.events t) op := by
  have := hX.tracks h t
  rw [ht] at this
  exact this.1

theorem Holds.leave (hX : X.Holds) {cfg : Config sys} (h : Reach sys init ok cfg) {t : Tid}
    {c : Call} {r : Res c} (ht : cfg.threads t = .done c r) :
    X.leave c r (cfg.events t) := by
  have := hX.tracks h t
  rw [ht] at this
  exact this

theorem Holds.asked (hX : X.Holds) {cfg cfg' : Config sys} (h : Reach sys init ok cfg) {t : Tid}
    {op : S.Op} {ans : S.Ans op} (hs : Step sys cfg (.op t op ans) cfg') :
    ∃ c, cfg.call? t = some c ∧ X.must c (cfg.events t) op := by
  cases hs with
  | op ht hw => exact ⟨_, by rw [Config.call?, ht, Thread.call?], hX.must h ht⟩

theorem Holds.not_did_of_start (hX : X.Holds) {cfg cfg' : Config sys} (h : Reach sys init ok cfg)
    {t : Tid} {c : Call} (hs : Step sys cfg (.start t c) cfg') {op : S.Op} {ans : S.Ans op} :
    ¬ cfg.Did t op ans := by
  intro hd
  have hev := hX.tracks h t
  rw [hs.idle_of_start] at hev
  have hmem := mem_events.mpr hd
  rw [hev] at hmem
  cases hmem

/-! ### What a call has asked so far -/

/-- Every event of the list was asked when the script allowed it. -/
def Kept (X : Script sys) (c : Call) : List (Event S) → Prop
  | [] => True
  | e :: h => X.must c h e.op ∧ X.Kept c h

theorem Kept.of_mem {c : Call} {e : Event S} {h : List (Event S)} (hk : X.Kept c h)
    (he : e ∈ h) : ∃ pre, e :: pre <:+ h ∧ X.must c pre e.op := by
  induction h with
  | nil => cases he
  | cons e' h ih =>
    rcases List.mem_cons.mp he with rfl | he
    · exact ⟨h, List.suffix_rfl, hk.1⟩
    · obtain ⟨pre, hp, hm⟩ := ih hk.2 he
      exact ⟨pre, hp.trans (List.suffix_cons ..), hm⟩

/-- What a call asks only where it has not asked it yet, it asks once. -/
theorem Kept.once {c : Call} {K : S.Op → Prop} {h : List (Event S)} (hk : X.Kept c h)
    (honce : ∀ pre op, X.must c pre op → K op → ∀ e ∈ pre, ¬ K e.op) {e e' : Event S} (he : e ∈ h)
    (he' : e' ∈ h) (hK : K e.op) (hK' : K e'.op) : e = e' := by
  induction h with
  | nil => cases he
  | cons e₀ h ih =>
    rcases List.mem_cons.mp he with rfl | hm <;> rcases List.mem_cons.mp he' with rfl | hm'
    · rfl
    · exact absurd hK' (honce h _ hk.1 hK e' hm')
    · exact absurd hK (honce h _ hk.1 hK' e hm)
    · exact ih hk.2 hm hm'

theorem Holds.kept (hX : X.Holds) {cfg : Config sys} (h : Reach sys init ok cfg) (t : Tid) :
    match cfg.call? t with
    | none => cfg.events t = []
    | some c => X.Kept c (cfg.events t) := by
  induction h with
  | init h => rfl
  | @step cfg l cfg' h hok hs ih =>
    cases hs with
    | @start u c ht =>
      rw [Config.events_put_ne event?_start, Config.call?_put]
      split_ifs with hu
      · subst hu
        simp only [Config.call?, ht, Thread.call?] at ih
        simp [Thread.call?, ih, Kept]
      · exact ih
    | @op u c op ans k w ht hw =>
      rw [Config.call?_put]
      split_ifs with hu
      · subst hu
        have hm := hX.must h ht
        simp only [Config.call?, ht, Thread.call?] at ih
        rw [Config.events_put_op]
        exact ⟨hm, ih⟩
      · rw [Config.events_put_ne (Config.event?_ne hu)]
        exact ih
    | @finish u c r ht =>
      rw [Config.events_put_ne event?_finish, Config.call?_put]
      split_ifs with hu
      · subst hu
        simpa only [Config.call?, ht, Thread.call?] using ih
      · exact ih
    | @crash u c p ht =>
      rw [Config.events_put_ne event?_crash, Config.call?_put]
      split_ifs with hu
      · subst hu
        simpa only [Config.call?, ht, Thread.call?] using ih
      · exact ih
    | env hw => exact ih

theorem Holds.past (hX : X.Holds) {cfg : Config sys} (h : Reach sys init ok cfg) {t : Tid} {c : Call}
    (hc : cfg.call? t = some c) {op : S.Op} {ans : S.Ans op} (hl : cfg.Did t op ans) :
    ∃ pre, ⟨op, ans⟩ :: pre <:+ cfg.events t ∧ X.must c pre op := by
  have hk := hX.kept h t
  rw [hc] at hk
  exact hk.of_mem (mem_events.mpr hl)

theorem Holds.once (hX : X.Holds) {cfg : Config sys} (h : Reach sys init ok cfg) {K : S.Op → Prop}
    (honce : ∀ c pre op, X.must c pre op → K op → ∀ e ∈ pre, ¬ K e.op) {t : Tid} {op op' : S.Op}
    {ans : S.Ans op} {ans' : S.Ans op'} (hd : cfg.Did t op ans) (hd' : cfg.Did t op' ans') (hK : K op)
    (hK' : K op') : (⟨op, ans⟩ : Event S) = ⟨op', ans'⟩ := by
  have hk := hX.kept h t
  have he := mem_events.mpr hd
  cases hc : cfg.call? t with
  | none =>
    rw [hc] at hk
    rw [show cfg.events t = [] from hk] at he
    cases he
  | some c =>
    rw [hc] at hk
    exact hk.once (honce c) he (mem_events.mpr hd') hK hK'

theorem Holds.call_of_did (hX : X.Holds) {cfg : Config sys} (h : Reach sys init ok cfg) {t : Tid}
    {op : S.Op} {ans : S.Ans op} (hl : cfg.Did t op ans) : ∃ c, cfg.call? t = some c := by
  have hk := hX.kept h t
  cases hc : cfg.call? t with
  | none =>
    rw [hc] at hk
    simpa [hk] using mem_events.mpr hl
  | some c => exact ⟨c, rfl⟩

end Script

end Interleave
