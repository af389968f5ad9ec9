import Mathlib.Logic.Relation
import BackboneIntegrations.Interleave.Pool

/-!
# Calls that run alone

With nothing beside it, a call sees what its own operations do to the world, and nothing else.
-/

namespace Interleave

variable {S : Signature} {World α : Type}

/-! ## Fixed answers -/

/-- Runs a program to its end, or up to an operation that gets no answer. -/
def Prog.play (answer : (op : S.Op) → World → Option (S.Ans op × World)) : Prog S α → World → World
  | .ret _, w => w
  | .call op k, w =>
    match answer op w with
    | some (ans, w') => (k ans).play answer w'
    | none => w

theorem Prog.play_call {answer : (op : S.Op) → World → Option (S.Ans op × World)} {op : S.Op}
    {k : S.Ans op → Prog S α} {w w' : World} {ans : S.Ans op} (h : answer op w = some (ans, w')) :
    (Prog.call op k).play answer w = (k ans).play answer w' := by
  simp only [Prog.play, h]

/-- The world answers by `answer`. Where there is no answer, `stuck` has to hold. -/
def Contract.fixed (answer : (op : S.Op) → World → Option (S.Ans op × World))
    (stuck : World → Prop) : Contract S World where
  must w op := answer op w = none → stuck w
  may w op ans w' := answer op w = some (ans, w')

variable {answer : (op : S.Op) → World → Option (S.Ans op × World)} {stuck : World → Prop}

@[simp] theorem fixed_must {w : World} {op : S.Op} :
    (Contract.fixed answer stuck).must w op ↔ (answer op w = none → stuck w) := Iff.rfl
@[simp] theorem fixed_may {w w' : World} {op : S.Op} {ans : S.Ans op} :
    (Contract.fixed answer stuck).may w op ans w' ↔ answer op w = some (ans, w') := Iff.rfl

theorem meets_fixed {op : S.Op} {ans : S.Ans op} {w w' : World} {k : S.Ans op → Prog S α}
    {Q : α → World → Prop} (ha : answer op w = some (ans, w')) :
    Meets (.fixed answer stuck) (.call op k) w Q ↔ Meets (.fixed answer stuck) (k ans) w' Q := by
  simp [meets_call, ha]

theorem Meets.play {p : Prog S α} {w : World} {Q : World → Prop}
    (h : Meets (.fixed answer Q) p w fun _ => Q) : Q (p.play answer w) := by
  induction p generalizing w with
  | ret a => exact h
  | call op k ih =>
    simp only [Prog.play]
    split
    · exact ih _ (h.2 _ _ ‹_›)
    · exact h.1 ‹_›

/-! ## A program on its way -/

section Goes

variable {next : (op : S.Op) → S.Ans op → World → Option World} {around : World → World → Prop}
  {ok : World → (op : S.Op) → S.Ans op → Prop}

/-- A program runs for a while, and `around` happens between its operations. -/
inductive Goes (next : (op : S.Op) → S.Ans op → World → Option World) (around : World → World → Prop)
    (ok : World → (op : S.Op) → S.Ans op → Prop) :
    Prog S α → World → Prog S α → World → Prop
  | refl {p w} : Goes next around ok p w p w
  | op {p w op k w₁ ans w₂} (h : Goes next around ok p w (.call op k) w₁) (hok : ok w₁ op ans)
    (hw : next op ans w₁ = some w₂) : Goes next around ok p w (k ans) w₂
  | around {p w p' w₁ w₂} (h : Goes next around ok p w p' w₁) (hw : around w₁ w₂) :
    Goes next around ok p w p' w₂

theorem Goes.meets {σ : Type} {C : Contract S σ} {R : World → σ → Prop}
    (hop : ∀ {w op ans w' s}, R w s → ok w op ans → next op ans w = some w' →
      ∃ s', C.may s op ans s' ∧ R w' s')
    (haround : ∀ {w w' s}, around w w' → R w s → R w' s) {p p' : Prog S α} {w w' : World}
    (h : Goes next around ok p w p' w') {s : σ} {Q : α → σ → Prop} (hs : R w s)
    (hm : Meets C p s Q) : ∃ s', R w' s' ∧ Meets C p' s' Q := by
  induction h with
  | refl => exact ⟨s, hs, hm⟩
  | op _ hok hw ih =>
    obtain ⟨s₁, hs₁, hm₁⟩ := ih
    obtain ⟨s₂, hmay, hs₂⟩ := hop hs₁ hok hw
    exact ⟨s₂, hs₂, hm₁.2 _ _ hmay⟩
  | around _ hw ih =>
    obtain ⟨s₁, hs₁, hm₁⟩ := ih
    exact ⟨s₁, haround hw hs₁, hm₁⟩

/-- What the operations and the surroundings keep. -/
theorem Goes.keeps {P : World → Prop}
    (hop : ∀ {w op ans w'}, P w → ok w op ans → next op ans w = some w' → P w')
    (haround : ∀ {w w'}, around w w' → P w → P w') {p p' : Prog S α} {w w' : World}
    (h : Goes next around ok p w p' w') (hw : P w) : P w' := by
  induction h with
  | refl => exact hw
  | op _ hok hnext ih => exact hop ih hok hnext
  | around _ ha ih => exact haround ha ih

theorem Goes.and_keeps {P : World → Prop}
    (hop : ∀ {w op ans w'}, P w → ok w op ans → next op ans w = some w' → P w')
    (haround : ∀ {w w'}, around w w' → P w → P w') {p p' : Prog S α} {w w' : World}
    (h : Goes next around ok p w p' w') (hw : P w) :
    Goes next around (fun w op ans => ok w op ans ∧ P w) p w p' w' := by
  induction h with
  | refl => exact .refl
  | op h hok hnext ih => exact .op ih ⟨hok, h.keeps hop haround hw⟩ hnext
  | around _ ha ih => exact .around ih ha

theorem Goes.keeps_must {C : Contract S World} {P : World → Prop}
    (hmay : ∀ {w op ans w'}, ok w op ans → next op ans w = some w' → C.may w op ans w')
    (hop : ∀ {w op ans w'}, P w → C.must w op → ok w op ans → next op ans w = some w' → P w')
    {p p' : Prog S α} {w w' : World} {Q : α → World → Prop}
    (h : Goes next (fun _ _ => False) ok p w p' w') (hm : Meets C p w Q) (hw : P w) :
    Meets C p' w' Q ∧ P w' := by
  induction h with
  | refl => exact ⟨hm, hw⟩
  | op _ hok hnext ih =>
    obtain ⟨⟨hmust, hk⟩, hp⟩ := ih
    exact ⟨hk _ _ (hmay hok hnext), hop hp hmust hok hnext⟩
  | around _ ha => exact ha.elim

/-- Runs a program with given answers. -/
def Prog.follow [DecidableEq S.Op] (next : (op : S.Op) → S.Ans op → World → Option World)
    (ok : World → (op : S.Op) → S.Ans op → Prop) [∀ w op ans, Decidable (ok w op ans)] :
    List (Event S) → Prog S α → World → Option (Prog S α × World)
  | [], p, w => some (p, w)
  | _ :: _, .ret _, _ => none
  | e :: es, .call op k, w =>
    if h : e.op = op then
      if ok w op (h ▸ e.ans) then (next op (h ▸ e.ans) w).bind (Prog.follow next ok es (k (h ▸ e.ans)))
      else none
    else none

theorem Goes.trans {p p' p'' : Prog S α} {w w' w'' : World} (h : Goes next around ok p w p' w')
    (h' : Goes next around ok p' w' p'' w'') : Goes next around ok p w p'' w'' := by
  induction h' with
  | refl => exact h
  | op _ hok hw ih => exact .op ih hok hw
  | around _ hw ih => exact .around ih hw

theorem Goes.of_follow [DecidableEq S.Op] [∀ w op ans, Decidable (ok w op ans)] {es : List (Event S)}
    {p p' : Prog S α} {w w' : World} (h : p.follow next ok es w = some (p', w')) :
    Goes next around ok p w p' w' := by
  induction es generalizing p w with
  | nil =>
    cases h
    exact .refl
  | cons e es ih =>
    cases p with
    | ret a => cases h
    | call op k =>
      obtain ⟨op', ans⟩ := e
      simp only [Prog.follow] at h
      split at h
      · rename_i heq
        cases heq
        split at h
        · obtain ⟨w₁, hw₁, h⟩ := Option.bind_eq_some_iff.mp h
          exact (Goes.op .refl ‹_› hw₁).trans (ih h)
        · cases h
      · cases h

/-- The program has returned, or its operation gets no answer. -/
def Halts (next : (op : S.Op) → S.Ans op → World → Option World)
    (ok : World → (op : S.Op) → S.Ans op → Prop) : Prog S α → World → Prop
  | .ret _, _ => True
  | .call op _, w => ∀ ans, ok w op ans → next op ans w = none

/-- A program that is on its way can always be brought to a halt. -/
theorem Goes.halts (p : Prog S α) (w : World) :
    ∃ p' w', Goes next around ok p w p' w' ∧ Halts next ok p' w' := by
  induction p generalizing w with
  | ret a => exact ⟨_, _, .refl, trivial⟩
  | call op k ih =>
    -- The operation gets one of its answers, or the program halts here.
    by_cases hgo : ∃ ans w', ok w op ans ∧ next op ans w = some w'
    · obtain ⟨ans, w', hok, hnext⟩ := hgo
      obtain ⟨p', w'', hgoes, hhalts⟩ := ih ans w'
      exact ⟨p', w'', (Goes.op .refl hok hnext).trans hgoes, hhalts⟩
    · refine ⟨_, _, .refl, fun ans hok => ?_⟩
      cases hw : next op ans w with
      | none => rfl
      | some w' => exact absurd ⟨ans, w', hok, hw⟩ hgo

/-- Keeps the operations that a program has done beside its world. -/
def recording (next : (op : S.Op) → S.Ans op → World → Option World) (op : S.Op) (ans : S.Ans op)
    (s : World × List (Event S)) : Option (World × List (Event S)) :=
  (next op ans s.1).map (·, ⟨op, ans⟩ :: s.2)

theorem follow_recording [DecidableEq S.Op] {ok : World × List (Event S) → (op : S.Op) → S.Ans op → Prop}
    [∀ s op ans, Decidable (ok s op ans)] {es : List (Event S)} {p p' : Prog S α}
    {s s' : World × List (Event S)} (h : p.follow (recording next) ok es s = some (p', s')) :
    s'.2 = es.reverse ++ s.2 := by
  induction es generalizing p s with
  | nil =>
    cases h
    rfl
  | cons e es ih =>
    cases p with
    | ret a => cases h
    | call op k =>
      obtain ⟨op', ans⟩ := e
      simp only [Prog.follow] at h
      split at h
      · rename_i heq
        cases heq
        split at h
        · obtain ⟨s₁, hs₁, h⟩ := Option.bind_eq_some_iff.mp h
          obtain ⟨w₁, -, rfl⟩ := Option.map_eq_some_iff.mp hs₁
          rw [ih h, List.reverse_cons, List.append_assoc]
          rfl
        · cases h
      · cases h

section

variable {β World' : Type} {next' : (op : S.Op) → S.Ans op → World' → Option World'}
  {around' : World' → World' → Prop} {ok' : World' → (op : S.Op) → S.Ans op → Prop}

theorem Goes.bind {p p' : Prog S α} {w w' : World} (h : Goes next around ok p w p' w')
    (f : α → Prog S β) : Goes next around ok (p >>= f) w (p' >>= f) w' := by
  induction h with
  | refl => exact .refl
  | op _ hok hw ih => exact .op ih hok hw
  | around _ hw ih => exact .around ih hw

theorem Goes.map {g : World → World'} (hok : ∀ {w op ans}, ok w op ans → ok' (g w) op ans)
    (hnext : ∀ {w op ans w'}, next op ans w = some w' → next' op ans (g w) = some (g w'))
    (haround : ∀ {w w'}, around w w' → around' (g w) (g w')) {p p' : Prog S α} {w w' : World}
    (h : Goes next around ok p w p' w') : Goes next' around' ok' p (g w) p' (g w') := by
  induction h with
  | refl => exact .refl
  | op _ ho hw ih => exact .op ih (hok ho) (hnext hw)
  | around _ hw ih => exact .around ih (haround hw)

theorem goes_play {answer : (op : S.Op) → World → Option (S.Ans op × World)}
    (hanswer : ∀ {op w ans w'}, answer op w = some (ans, w') → ok w op ans ∧ next op ans w = some w')
    (p : Prog S α) (w : World) : ∃ p', Goes next around ok p w p' (p.play answer w) := by
  induction p generalizing w with
  | ret a => exact ⟨_, .refl⟩
  | call op k ih =>
    simp only [Prog.play]
    split
    · rename_i ans w' ha
      obtain ⟨hok, hnext⟩ := hanswer ha
      obtain ⟨p', h⟩ := ih ans w'
      exact ⟨p', (Goes.op .refl hok hnext).trans h⟩
    · exact ⟨_, .refl⟩

end

end Goes

/-! ## One call at a time -/

variable {Call Env σ : Type} {Res : Call → Type} {sys : System S World Call Res Env}

def Thread.Quiet : Thread sys → Prop
  | .running .. => False
  | .idle | .done .. | .crashed _ => True

/-- Runs that take one call at a time. A call dies only at the operations of `dies`. -/
def OneAtATime (calls : Call → Prop) (dies : S.Op → Prop)
    (answers : World → (op : S.Op) → S.Ans op → Prop) (cfg : Config sys) : Label sys → Prop
  | .start _ c => calls c ∧ ∀ u, (cfg.threads u).Quiet
  | .op _ op ans => answers cfg.world op ans
  | .crash t => ∃ c op k, cfg.threads t = .running c (.call op k) ∧ dies op
  | .finish _ | .env _ => True

variable {calls : Call → Prop} {dies : S.Op → Prop}
  {answers : World → (op : S.Op) → S.Ans op → Prop}

instance (th : Thread sys) : Decidable th.Quiet := by
  cases th <;> unfold Thread.Quiet <;> infer_instance

/-- The same runs with `n` threads, which can be replayed. -/
def OneOf (n : Nat) (calls : Call → Prop) (answers : World → (op : S.Op) → S.Ans op → Prop)
    (cfg : Config sys) : Label sys → Prop
  | .start t c => t < n ∧ calls c ∧ ∀ u < n, (cfg.threads u).Quiet
  | .op t op ans => t < n ∧ answers cfg.world op ans
  | .finish t => t < n
  | .crash _ => False
  | .env _ => True

instance [DecidablePred calls] [∀ w op ans, Decidable (answers w op ans)] {n : Nat}
    (cfg : Config sys) (l : Label sys) : Decidable (OneOf n calls answers cfg l) := by
  cases l <;> unfold OneOf <;> infer_instance

theorem OneOf.one_at_a_time {n : Nat} {cfg : Config sys} {l : Label sys}
    (hok : OneOf n calls answers cfg l) (hidle : ∀ t, n ≤ t → cfg.threads t = .idle) :
    OneAtATime calls dies answers cfg l := by
  cases l with
  | start t c =>
    refine ⟨hok.2.1, fun u => ?_⟩
    by_cases hu : u < n
    · exact hok.2.2 u hu
    · rw [hidle u (Nat.le_of_not_lt hu)]
      trivial
  | op t op ans => exact hok.2
  | crash t => exact hok.elim
  | finish t | env e => trivial

theorem Reach.one_at_a_time {n : Nat} {init : World → Prop} {cfg : Config sys}
    (h : Reach sys init (OneOf n calls answers) cfg) :
    Reach sys init (OneAtATime calls dies answers) cfg ∧ ∀ t, n ≤ t → cfg.threads t = .idle := by
  induction h with
  | init h => exact ⟨.init h, fun _ _ => rfl⟩
  | @step cfg l cfg' _ hok hs ih =>
    obtain ⟨hr, hidle⟩ := ih
    refine ⟨.step hr (hok.one_at_a_time hidle) hs, fun u hu => ?_⟩
    -- Only the threads below `n` ever move.
    have hput : ∀ {t w th l}, t < n → (cfg.put w t th l).threads u = .idle := by
      intro t w th l ht
      rw [Config.put_threads_ne _ _ _ _ (Nat.ne_of_gt (Nat.lt_of_lt_of_le ht hu))]
      exact hidle u hu
    cases hs with
    | start _ => exact hput hok.1
    | op _ _ => exact hput hok.1
    | finish _ => exact hput hok
    | crash _ => exact hok.elim
    | env _ => exact hidle u hu

theorem Reach.one_at_a_time_and {n : Nat} {init : World → Prop} {also : Config sys → Label sys → Prop}
    {cfg : Config sys}
    (h : Reach sys init (fun cfg l => OneOf n calls answers cfg l ∧ also cfg l) cfg) :
    Reach sys init (fun cfg l => OneAtATime calls dies answers cfg l ∧ also cfg l) cfg := by
  induction h with
  | init h => exact .init h
  | step hr hok hs ih =>
    have hone : Reach sys init (OneAtATime calls dies answers) _ ∧ _ :=
      (hr.mono fun _ _ h => h.1).one_at_a_time
    exact .step ih ⟨hok.1.one_at_a_time hone.2, hok.2⟩ hs

/-- A contract for each call of runs that take one call at a time. `Sees` ties its ghost state to the
world, and `rest` is what holds between two calls. -/
structure Solos (sys : System S World Call Res Env) (ok : Config sys → Label sys → Prop)
    (C : Call → Contract S σ) (Sees : Tid → World → σ → Prop) (rest : World → Prop) : Prop where
  alone : ∀ {cfg : Config sys} {t c}, ok cfg (.start t c) → ∀ u, (cfg.threads u).Quiet
  call : ∀ {cfg : Config sys} {t c}, ok cfg (.start t c) → rest cfg.world → ∃ v, Sees t cfg.world v ∧
    Meets (C c) (sys.prog c) v fun _ v' => ∀ w', Sees t w' v' → rest (sys.leave t w')
  op : ∀ {cfg : Config sys} {t c p op ans w' v}, cfg.threads t = .running c p → ok cfg (.op t op ans) →
    Sees t cfg.world v → sys.next t op ans cfg.world = some w' → ∃ v', (C c).may v op ans v' ∧ Sees t w' v'
  death : ∀ {cfg : Config sys} {t c p v}, cfg.threads t = .running c p → ok cfg (.crash t) →
    Sees t cfg.world v → (∀ op k, p = .call op k → (C c).must v op) → rest (sys.leave t cfg.world)
  env : ∀ {t e w w' v}, sys.env e w = some w' → Sees t w v → Sees t w' v
  calm : ∀ {e w w'}, sys.env e w = some w' → rest w → rest w'

namespace Solos

variable {C : Call → Contract S σ} {Sees : Tid → World → σ → Prop} {rest : World → Prop}
  {ok : Config sys → Label sys → Prop}

/-- Nothing runs and `rest` holds, or one call runs and is on its way to `rest`. -/
def Here (C : Call → Contract S σ) (Sees : Tid → World → σ → Prop) (rest : World → Prop)
    (cfg : Config sys) : Prop :=
  ((∀ u, (cfg.threads u).Quiet) ∧ rest cfg.world) ∨
    ∃ t c p v, cfg.threads t = .running c p ∧ (∀ u, u ≠ t → (cfg.threads u).Quiet) ∧
      Sees t cfg.world v ∧ Meets (C c) p v fun _ v' => ∀ w', Sees t w' v' → rest (sys.leave t w')

theorem Here.running {cfg : Config sys} (h : Here C Sees rest cfg) {t : Tid} {c : Call}
    {p : Prog S (Res c)} (ht : cfg.threads t = .running c p) :
    (∀ u, u ≠ t → (cfg.threads u).Quiet) ∧ ∃ v, Sees t cfg.world v ∧
      Meets (C c) p v fun _ v' => ∀ w', Sees t w' v' → rest (sys.leave t w') := by
  rcases h with ⟨hq, -⟩ | ⟨u, c', p', v, hu, hq, hv, hm⟩
  · have := hq t
    rw [ht] at this
    exact this.elim
  -- All threads but one are quiet, and `t` runs.
  · obtain rfl : t = u := by
      by_contra hne
      have := hq t hne
      rw [ht] at this
      exact this
    rw [ht] at hu
    cases hu
    exact ⟨hq, v, hv, hm⟩

theorem Here.over {cfg : Config sys} {t : Tid} {w : World} {th : Thread sys} {l : Label sys}
    (hq : ∀ u, u ≠ t → (cfg.threads u).Quiet) (hth : th.Quiet) (hw : rest w) :
    Here C Sees rest (cfg.put w t th l) := by
  refine .inl ⟨fun u => ?_, hw⟩
  by_cases hu : u = t
  · subst hu
    rwa [Config.put_threads_self]
  · rw [cfg.put_threads_ne _ _ _ hu]
    exact hq u hu

theorem Here.goes {cfg : Config sys} {t : Tid} {w : World} {c : Call} {p : Prog S (Res c)}
    {l : Label sys} {v : σ} (hq : ∀ u, u ≠ t → (cfg.threads u).Quiet) (hv : Sees t w v)
    (hm : Meets (C c) p v fun _ v' => ∀ w', Sees t w' v' → rest (sys.leave t w')) :
    Here C Sees rest (cfg.put w t (.running c p) l) := by
  refine .inr ⟨t, c, p, v, Config.put_threads_self .., fun u hu => ?_, hv, hm⟩
  rw [cfg.put_threads_ne _ _ _ hu]
  exact hq u hu

theorem here_step (X : Solos sys ok C Sees rest) {cfg cfg' : Config sys} {l : Label sys}
    (hok : ok cfg l) (hs : Step sys cfg l cfg') (h : Here C Sees rest cfg) :
    Here C Sees rest cfg' := by
  cases hs with
  | @start t c ht =>
    have hq := X.alone hok
    -- Nothing else runs, so the pool is at rest.
    have hrest : rest cfg.world := by
      rcases h with ⟨-, hrest⟩ | ⟨u, c', p, v, hu, -⟩
      · exact hrest
      · have := hq u
        rw [hu] at this
        exact this.elim
    obtain ⟨v, hv, hm⟩ := X.call hok hrest
    exact .goes (fun u _ => hq u) hv hm
  | op ht hw =>
    obtain ⟨hq, v, hv, hm⟩ := h.running ht
    obtain ⟨v', hmay, hv'⟩ := X.op ht hok hv hw
    exact .goes hq hv' (hm.2 _ _ hmay)
  | finish ht =>
    obtain ⟨hq, v, hv, hm⟩ := h.running ht
    exact .over hq trivial (hm _ hv)
  | @crash t c p ht =>
    obtain ⟨hq, v, hv, hm⟩ := h.running ht
    refine .over hq trivial (X.death ht hok hv ?_)
    rintro op k rfl
    exact hm.1
  | env hw =>
    rcases h with ⟨hq, hrest⟩ | ⟨t, c, p, v, ht, hq, hv, hm⟩
    · exact .inl ⟨hq, X.calm hw hrest⟩
    · exact .inr ⟨t, c, p, v, ht, hq, X.env hw hv, hm⟩

theorem here_of_reach (X : Solos sys ok C Sees rest) {init : World → Prop}
    (hinit : ∀ w, init w → rest w) {cfg : Config sys} (h : Reach sys init ok cfg) :
    Here C Sees rest cfg := by
  induction h with
  | init h => exact .inl ⟨fun _ => trivial, hinit _ h⟩
  | step _ hok hs ih => exact X.here_step hok hs ih

theorem rest_of_quiet (X : Solos sys ok C Sees rest) {init : World → Prop}
    (hinit : ∀ w, init w → rest w) {cfg : Config sys} (h : Reach sys init ok cfg)
    (hq : ∀ t, (cfg.threads t).Quiet) : rest cfg.world := by
  rcases X.here_of_reach hinit h with ⟨-, hrest⟩ | ⟨t, c, p, v, ht, -⟩
  · exact hrest
  · have := hq t
    rw [ht] at this
    exact this.elim

/-- What `rest` and the contract say holds at every moment. -/
theorem always (X : Solos sys ok C Sees rest) {init : World → Prop}
    (hinit : ∀ w, init w → rest w) {cfg : Config sys} (h : Reach sys init ok cfg) {P : World → Prop}
    (hrest : ∀ {w}, rest w → P w) (hleave : ∀ {t w}, rest (sys.leave t w) → P w)
    (hmust : ∀ {t w c v op}, Sees t w v → (C c).must v op → P w) : P cfg.world := by
  rcases X.here_of_reach hinit h with ⟨-, hr⟩ | ⟨t, c, p, v, -, -, hv, hm⟩
  · exact hrest hr
  · cases p with
    | ret r => exact hleave (hm _ hv)
    | call op k => exact hmust hv hm.1

end Solos

/-- The same with one contract for every call. -/
structure Solo (sys : System S World Call Res Env) (calls : Call → Prop) (dies : S.Op → Prop)
    (answers : World → (op : S.Op) → S.Ans op → Prop) (C : Contract S σ)
    (Sees : Tid → World → σ → Prop) (rest : World → Prop) : Prop where
  call : ∀ {t c w}, calls c → rest w → ∃ v, Sees t w v ∧
    Meets C (sys.prog c) v fun _ v' => ∀ w', Sees t w' v' → rest (sys.leave t w')
  op : ∀ {t op ans w w' v}, Sees t w v → answers w op ans → sys.next t op ans w = some w' →
    ∃ v', C.may v op ans v' ∧ Sees t w' v'
  death : ∀ {t op w v}, dies op → Sees t w v → C.must v op → rest (sys.leave t w)
  env : ∀ {t e w w' v}, sys.env e w = some w' → Sees t w v → Sees t w' v
  calm : ∀ {e w w'}, sys.env e w = some w' → rest w → rest w'

namespace Solo

variable {C : Contract S σ} {Sees : Tid → World → σ → Prop} {rest : World → Prop}

theorem solos (X : Solo sys calls dies answers C Sees rest) :
    Solos sys (OneAtATime calls dies answers) (fun _ => C) Sees rest where
  alone hok := hok.2
  call hok hrest := X.call hok.1 hrest
  op _ hok hv hw := X.op hv hok hw
  death := by
    intro cfg t c p v ht hok hv hm
    obtain ⟨c', op, k, ht', hdies⟩ := hok
    rw [ht] at ht'
    cases ht'
    exact X.death hdies hv (hm op k rfl)
  env := X.env
  calm := X.calm

end Solo

/-! ## One call with nothing beside it -/

/-- The runs of thread `t` alone, with the answers of `answers`. -/
def Only (t : Tid) (answers : World → (op : S.Op) → S.Ans op → Prop) (cfg : Config sys) :
    Label sys → Prop
  | .start u _ | .finish u => u = t
  | .op u op ans => u = t ∧ answers cfg.world op ans
  | .crash _ | .env _ => False

/-- A call alone sees the world itself. It is never stuck. -/
def Contract.alone (next : (op : S.Op) → S.Ans op → World → Option World)
    (answers : World → (op : S.Op) → S.Ans op → Prop) : Contract S (World × List (Event S)) where
  must s op := ∃ ans w, answers s.1 op ans ∧ next op ans s.1 = some w
  may s op ans s' := answers s.1 op ans ∧ next op ans s.1 = some s'.1 ∧ s'.2 = ⟨op, ans⟩ :: s.2

theorem meets_alone {next : (op : S.Op) → S.Ans op → World → Option World}
    {s : World × List (Event S)} {op : S.Op} {k : S.Ans op → Prog S α}
    {Q : α → World × List (Event S) → Prop} (ans : S.Ans op) (w' : World)
    (hans : answers s.1 op ans) (hnext : next op ans s.1 = some w')
    (hone : ∀ a w, answers s.1 op a → next op a s.1 = some w → a = ans) :
    Meets (.alone next answers) (.call op k) s Q ↔
      Meets (.alone next answers) (k ans) (w', ⟨op, ans⟩ :: s.2) Q := by
  constructor
  · exact fun h => h.2 ans (w', ⟨op, ans⟩ :: s.2) ⟨hans, hnext, rfl⟩
  · refine fun h => ⟨⟨ans, w', hans, hnext⟩, ?_⟩
    rintro a ⟨w, h'⟩ ⟨ha, hw, rfl⟩
    obtain rfl := hone a w ha hw
    rw [hnext] at hw
    cases hw
    exact h

section Alone

variable {t : Tid} {Q : (c : Call) → Res c → World × List (Event S) → Prop} {w : World}

/-- Where a call alone is: at its start, on its way, or at its end. -/
def Whereabouts (t : Tid) (answers : World → (op : S.Op) → S.Ans op → Prop)
    (Q : (c : Call) → Res c → World × List (Event S) → Prop) (w : World) (cfg : Config sys) : Prop :=
  match cfg.threads t with
  | .idle => cfg.world = w ∧ cfg.events t = []
  | .running c p => Meets (.alone (sys.next t) answers) p (cfg.world, cfg.events t) (Q c)
  | .done c r => ∃ w', cfg.world = sys.leave t w' ∧ Q c r (w', cfg.events t)
  | .crashed _ => False

theorem Reach.whereabouts
    (hcalls : ∀ c, calls c → Meets (.alone (sys.next t) answers) (sys.prog c) (w, []) (Q c))
    {ok : Config sys → Label sys → Prop} (hok : ∀ cfg l, ok cfg l → Only t answers cfg l)
    (hstart : ∀ cfg u c, ok cfg (.start u c) → calls c) {cfg : Config sys}
    (h : Reach sys (· = w) ok cfg) : Whereabouts t answers Q w cfg := by
  induction h with
  | init h => exact ⟨h, rfl⟩
  | @step cfg l cfg' h hl hs ih =>
    have honly := hok _ _ hl
    unfold Whereabouts at ih ⊢
    cases hs with
    | @start u c ht =>
      obtain rfl : u = t := honly
      simp only [ht] at ih
      simpa [Config.events_put_ne event?_start, ih.1, ih.2] using hcalls c (hstart _ _ _ hl)
    | @op u c op ans k w' ht hw =>
      obtain ⟨rfl, hans⟩ := honly
      simp only [ht] at ih
      simpa using ih.2 ans (w', ⟨op, ans⟩ :: cfg.events u) ⟨hans, hw, rfl⟩
    | @finish u c r ht =>
      obtain rfl : u = t := honly
      simp only [ht] at ih
      simp only [Config.put_threads_self, Config.put_world,
        Config.events_put_ne event?_finish]
      exact ⟨cfg.world, rfl, ih⟩
    | crash ht => exact honly.elim
    | env hw => exact honly.elim

theorem Meets.completes {c : Call} {p : Prog S (Res c)} {cfg : Config sys}
    {Q : Res c → World × List (Event S) → Prop}
    (h : Meets (.alone (sys.next t) answers) p (cfg.world, cfg.events t) Q)
    (ht : cfg.threads t = .running c p) :
    ∃ cfg' r, Steps sys (Only t answers) cfg cfg' ∧ cfg'.threads t = .done c r := by
  induction p generalizing cfg with
  | ret r =>
    have hs : Step sys cfg (.finish t) _ := .finish ht
    exact ⟨_, r, .tail (l := .finish t) .refl rfl hs, Config.put_threads_self ..⟩
  | call op k ih =>
    -- The operation has an answer, and the rest completes by induction.
    obtain ⟨⟨ans, w, hans, hw⟩, hk⟩ := h
    have hs : Step sys cfg (.op t op ans) _ := .op ht hw
    have hm := hk ans (w, ⟨op, ans⟩ :: cfg.events t) ⟨hans, hw, rfl⟩
    have hevents := Config.events_step hs t
    simp only [Label.event?, if_true, Option.toList_some, List.singleton_append] at hevents
    rw [← hevents] at hm
    obtain ⟨cfg', r, hsteps, hr⟩ := ih ans hm (Config.put_threads_self ..)
    exact ⟨cfg', r, (Steps.tail (l := .op t op ans) .refl ⟨rfl, hans⟩ hs).trans hsteps, hr⟩

end Alone

/-- A call alone sees the world, and what `note` keeps of its operations. -/
def Contract.noting {ι : Type} (next : (op : S.Op) → S.Ans op → World → Option World)
    (answers : World → (op : S.Op) → S.Ans op → Prop) (note : Event S → Option ι) :
    Contract S (World × List ι) where
  must s op := ∃ ans w, answers s.1 op ans ∧ next op ans s.1 = some w
  may s op ans s' := answers s.1 op ans ∧ next op ans s.1 = some s'.1 ∧
    s'.2 = s.2 ++ (note ⟨op, ans⟩).toList

theorem meets_noting {ι : Type} {next : (op : S.Op) → S.Ans op → World → Option World}
    {note : Event S → Option ι} {w : World}
    {notes : List ι} {op : S.Op} {k : S.Ans op → Prog S α} {Q : α → World × List ι → Prop}
    (ans : S.Ans op) (w' : World) (hans : answers w op ans) (hnext : next op ans w = some w')
    (hone : ∀ a w₁, answers w op a → next op a w = some w₁ → a = ans) :
    Meets (.noting next answers note) (.call op k) (w, notes) Q ↔
      Meets (.noting next answers note) (k ans) (w', notes ++ (note ⟨op, ans⟩).toList) Q := by
  constructor
  · exact fun h => h.2 ans (w', _) ⟨hans, hnext, rfl⟩
  · refine fun h => ⟨⟨ans, w', hans, hnext⟩, ?_⟩
    rintro a ⟨w₁, notes'⟩ ⟨ha, hw, rfl⟩
    obtain rfl := hone a w₁ ha hw
    rw [hnext] at hw
    cases hw
    exact h

theorem meets_noting_silent {ι : Type} {next : (op : S.Op) → S.Ans op → World → Option World}
    {note : Event S → Option ι} {w : World} {notes : List ι} (op : S.Op) {k : S.Ans op → Prog S α}
    {Q : α → World × List ι → Prop} (ans : S.Ans op) (w' : World) (hans : answers w op ans)
    (hnext : next op ans w = some w') (hnote : note ⟨op, ans⟩ = none)
    (hone : ∀ a w₁, answers w op a → next op a w = some w₁ → a = ans) :
    Meets (.noting next answers note) (.call op k) (w, notes) Q ↔
      Meets (.noting next answers note) (k ans) (w', notes) Q := by
  rw [meets_noting ans w' hans hnext hone, hnote, Option.toList_none, List.append_nil]

/-- The steps of thread `t`, and the steps of the environment that `envs` allows. -/
def Lone (t : Tid) (calls : Call → Prop) (envs : Env → Prop)
    (answers : World → (op : S.Op) → S.Ans op → Prop) (cfg : Config sys) : Label sys → Prop
  | .start u c => u = t ∧ calls c
  | .op u op ans => u = t ∧ answers cfg.world op ans
  | .finish u => u = t
  | .env e => envs e
  | .crash _ => False

theorem Steps.mono {ok ok' : Config sys → Label sys → Prop} (hok : ∀ cfg l, ok cfg l → ok' cfg l)
    {cfg cfg' : Config sys} (h : Steps sys ok cfg cfg') : Steps sys ok' cfg cfg' := by
  induction h with
  | refl => exact .refl
  | tail _ hl hs ih => exact .tail ih (hok _ _ hl) hs

theorem Steps.of_replay [DecidableEq S.Op] {ok : Config sys → Label sys → Prop}
    [∀ cfg l, Decidable (ok cfg l)] {cfg cfg' : Config sys} {ls : List (Label sys)}
    (h : replay ok cfg ls = some cfg') : Steps sys ok cfg cfg' := by
  induction ls generalizing cfg with
  | nil =>
    cases h
    exact .refl
  | cons l ls ih =>
    simp only [replay] at h
    split at h
    · obtain ⟨mid, hm, h⟩ := Option.bind_eq_some_iff.mp h
      exact (Steps.tail .refl ‹_› (step_of_fire hm)).trans (ih h)
    · cases h

instance [DecidablePred calls] {envs : Env → Prop} [DecidablePred envs]
    [∀ w op ans, Decidable (answers w op ans)] {t : Tid} (cfg : Config sys) (l : Label sys) :
    Decidable (Lone t calls envs answers cfg l) := by
  cases l <;> unfold Lone <;> infer_instance

/-- What the environment can make of a world. -/
def Around (sys : System S World Call Res Env) (envs : Env → Prop) : World → World → Prop :=
  Relation.ReflTransGen fun w w' => ∃ e, envs e ∧ sys.env e w = some w'

/-- No step of the thread is possible. -/
def AtRest (ok : Config sys → Label sys → Prop) (cfg : Config sys) : Prop :=
  ∀ l cfg', Step sys cfg l cfg' → ok cfg l → ∃ e, l = .env e

/-- A call with its surroundings sees the world and what it has done. It gets an answer wherever the
environment goes, unless it is `stuck`. -/
def Contract.lone (next : (op : S.Op) → S.Ans op → World → Option World)
    (around : World → World → Prop) (answers : World → (op : S.Op) → S.Ans op → Prop)
    (stuck : List (Event S) → S.Op → Prop) : Contract S (World × List (Event S)) where
  must s op := stuck s.2 op ∨
    ∀ w, around s.1 w → ∃ ans w', answers w op ans ∧ next op ans w = some w'
  may s op ans s' := ∃ w, around s.1 w ∧ answers w op ans ∧ next op ans w = some s'.1 ∧
    s'.2 = ⟨op, ans⟩ :: s.2

section Lone

variable {t : Tid} {envs : Env → Prop} {stuck : List (Event S) → S.Op → Prop}
  {Q : (c : Call) → Res c → World × List (Event S) → Prop} {w : World}

theorem meets_lone {next : (op : S.Op) → S.Ans op → World → Option World}
    {around : World → World → Prop} {I : World → Prop} (hI : ∀ {w w'}, around w w' → I w → I w')
    {op : S.Op} {k : S.Ans op → Prog S α} {past : List (Event S)}
    {Q : α → World × List (Event S) → Prop} (hw : I w)
    (hmust : ∀ w, I w → ∃ ans w', answers w op ans ∧ next op ans w = some w')
    (hmay : ∀ w ans w', I w → answers w op ans → next op ans w = some w' →
      Meets (.lone next around answers stuck) (k ans) (w', ⟨op, ans⟩ :: past) Q) :
    Meets (.lone next around answers stuck) (.call op k) (w, past) Q := by
  refine ⟨.inr fun w₁ h₁ => hmust w₁ (hI h₁ hw), ?_⟩
  rintro ans ⟨w₂, past'⟩ ⟨w₁, h₁, hans, hnext, rfl⟩
  exact hmay w₁ ans w₂ (hI h₁ hw) hans hnext

/-- Where a call with its surroundings is. -/
def Position (t : Tid) (envs : Env → Prop) (answers : World → (op : S.Op) → S.Ans op → Prop)
    (stuck : List (Event S) → S.Op → Prop) (Q : (c : Call) → Res c → World × List (Event S) → Prop)
    (w : World) (cfg : Config sys) : Prop :=
  match cfg.threads t with
  | .idle => Around sys envs w cfg.world ∧ cfg.events t = []
  | .running c p => ∃ w', Around sys envs w' cfg.world ∧
      Meets (.lone (sys.next t) (Around sys envs) answers stuck) p (w', cfg.events t) (Q c)
  | .done c r => ∃ w' w'', Around sys envs w' w'' ∧ Around sys envs (sys.leave t w'') cfg.world ∧
      Q c r (w', cfg.events t)
  | .crashed _ => False

theorem Steps.position
    (hcalls : ∀ c w', calls c → Around sys envs w w' →
      Meets (.lone (sys.next t) (Around sys envs) answers stuck) (sys.prog c) (w', []) (Q c))
    {cfg cfg' : Config sys} (h : Steps sys (Lone t calls envs answers) cfg cfg')
    (h₀ : Position t envs answers stuck Q w cfg) : Position t envs answers stuck Q w cfg' := by
  induction h with
  | refl => exact h₀
  | @tail mid l cfg' _ hok hs ih =>
    unfold Position at ih ⊢
    cases hs with
    | @start u c ht =>
      obtain ⟨rfl, hc⟩ := hok
      simp only [ht] at ih
      simp only [Config.put_threads_self, Config.put_world, Config.events_put_ne event?_start, ih.2]
      exact ⟨_, .refl, hcalls c _ hc ih.1⟩
    | @op u c op ans k w₂ ht hw =>
      obtain ⟨rfl, hans⟩ := hok
      simp only [ht] at ih
      obtain ⟨w₁, haround, -, hmay⟩ := ih
      simp only [Config.put_threads_self, Config.put_world, Config.events_put_op]
      exact ⟨_, .refl, hmay ans (w₂, _) ⟨_, haround, hans, hw, rfl⟩⟩
    | @finish u c r ht =>
      obtain rfl : u = t := hok
      simp only [ht] at ih
      obtain ⟨w₁, haround, hQ⟩ := ih
      simp only [Config.put_threads_self, Config.put_world, Config.events_put_ne event?_finish]
      exact ⟨w₁, _, haround, .refl, hQ⟩
    | crash ht => exact hok.elim
    | @env e w₂ hw =>
      -- The surroundings move, and the call stays where it is.
      have hmove : ∀ {w₁}, Around sys envs w₁ mid.world → Around sys envs w₁ w₂ :=
        fun haround => haround.tail ⟨e, hok, hw⟩
      split
      · rename_i ht
        rw [ht] at ih
        exact ⟨hmove ih.1, ih.2⟩
      · rename_i ht
        rw [ht] at ih
        obtain ⟨w₁, haround, hm⟩ := ih
        exact ⟨w₁, hmove haround, hm⟩
      · rename_i ht
        rw [ht] at ih
        obtain ⟨w₁, w₁', haround, hleft, hQ⟩ := ih
        exact ⟨w₁, w₁', haround, hmove hleft, hQ⟩
      · rename_i ht
        rw [ht] at ih
        exact ih

theorem Position.at_rest {cfg : Config sys} {c : Call}
    (h : Position t envs answers stuck Q w cfg)
    (hrest : AtRest (Lone t calls envs answers) cfg) (hcall : cfg.call? t = some c) :
    (∃ r w' w'', cfg.threads t = .done c r ∧ Around sys envs w' w'' ∧
      Around sys envs (sys.leave t w'') cfg.world ∧ Q c r (w', cfg.events t)) ∨
    ∃ op k, cfg.threads t = .running c (.call op k) ∧ stuck (cfg.events t) op := by
  unfold Position at h
  rw [Config.call?] at hcall
  cases ht : cfg.threads t with
  | idle =>
    rw [ht] at hcall
    cases hcall
  | running c' p =>
    rw [ht] at h hcall
    cases hcall
    obtain ⟨w', haround, hm⟩ := h
    right
    cases p with
    | ret r =>
      obtain ⟨e, he⟩ := hrest (.finish t) _ (.finish ht) rfl
      cases he
    | call op k =>
      refine ⟨op, k, rfl, ?_⟩
      -- An operation that is not stuck has an answer, and then the call is not at rest.
      rcases hm.1 with hstuck | hgo
      · exact hstuck
      · obtain ⟨ans, w₂, hans, hw⟩ := hgo _ haround
        obtain ⟨e, he⟩ := hrest (.op t op ans) _ (.op ht hw) ⟨rfl, hans⟩
        cases he
  | done c' r =>
    rw [ht] at h hcall
    cases hcall
    obtain ⟨w', w'', haround, hleft, hQ⟩ := h
    exact .inl ⟨r, w', w'', rfl, haround, hleft, hQ⟩
  | crashed c' =>
    rw [ht] at h
    exact h.elim

theorem at_rest_of_stuck {cfg : Config sys} {c : Call} {op : S.Op} {k : S.Ans op → Prog S (Res c)}
    (ht : cfg.threads t = .running c (.call op k))
    (hno : ¬ ∃ ans w, answers cfg.world op ans ∧ sys.next t op ans cfg.world = some w) :
    AtRest (Lone t calls envs answers) cfg := by
  intro l cfg' hs hok
  cases hs with
  | start hidle =>
    obtain ⟨rfl, -⟩ := hok
    rw [ht] at hidle
    cases hidle
  | op hrun hw =>
    obtain ⟨rfl, hans⟩ := hok
    rw [ht] at hrun
    cases hrun
    exact absurd ⟨_, _, hans, hw⟩ hno
  | finish hrun =>
    obtain rfl := hok
    rw [ht] at hrun
    cases hrun
  | crash => exact hok.elim
  | env => exact ⟨_, rfl⟩

theorem at_rest_of_over {cfg : Config sys} (ht : (cfg.threads t).Quiet) (hne : cfg.threads t ≠ .idle) :
    AtRest (Lone t calls envs answers) cfg := by
  intro l cfg' hs hok
  cases hs with
  | start hidle =>
    obtain ⟨rfl, -⟩ := hok
    exact absurd hidle hne
  | op hrun =>
    obtain ⟨rfl, -⟩ := hok
    rw [hrun] at ht
    exact ht.elim
  | finish hrun =>
    obtain rfl := hok
    rw [hrun] at ht
    exact ht.elim
  | crash => exact hok.elim
  | env => exact ⟨_, rfl⟩

/-- A call that runs comes to rest. -/
theorem comes_to_rest {cfg : Config sys} {c : Call} {p : Prog S (Res c)}
    (ht : cfg.threads t = .running c p) :
    ∃ cfg', Steps sys (Lone t calls envs answers) cfg cfg' ∧ AtRest (Lone t calls envs answers) cfg' := by
  induction p generalizing cfg with
  | ret r =>
    have hs : Step sys cfg (.finish t) _ := .finish ht
    refine ⟨_, .tail (l := .finish t) .refl rfl hs, at_rest_of_over ?_ ?_⟩
    · rw [Config.put_threads_self]
      trivial
    · rw [Config.put_threads_self]
      nofun
  | call op k ih =>
    by_cases hgo : ∃ ans w, answers cfg.world op ans ∧ sys.next t op ans cfg.world = some w
    · obtain ⟨ans, w, hans, hw⟩ := hgo
      have hs : Step sys cfg (.op t op ans) _ := .op ht hw
      have hrun : (cfg.put w t (.running c (k ans)) (.op t op ans)).threads t = .running c (k ans) :=
        Config.put_threads_self ..
      obtain ⟨cfg', hsteps, hrest⟩ := ih ans hrun
      exact ⟨cfg', (Steps.tail (l := .op t op ans) .refl ⟨rfl, hans⟩ hs).trans hsteps, hrest⟩
    · exact ⟨cfg, .refl, at_rest_of_stuck ht hgo⟩

/-- From `cfg` on, the call of thread `t` always comes to rest, and there `P` holds. -/
def Rests (ok : Config sys → Label sys → Prop) (t : Tid) (c : Call) (cfg : Config sys)
    (P : Config sys → Prop) : Prop :=
  ∀ cfg', Steps sys ok cfg cfg' → cfg'.call? t = some c →
    (∃ cfg'', Steps sys ok cfg' cfg'' ∧ AtRest ok cfg'') ∧ (AtRest ok cfg' → P cfg')

theorem rests_of {cfg : Config sys} {c : Call} {P : Config sys → Prop}
    (h : ∀ cfg', Steps sys (Lone t calls envs answers) cfg cfg' → cfg'.call? t = some c →
      AtRest (Lone t calls envs answers) cfg' → P cfg') :
    Rests (Lone t calls envs answers) t c cfg P := by
  refine fun cfg' hsteps hcall => ⟨?_, h cfg' hsteps hcall⟩
  cases ht : cfg'.threads t with
  | running c' p => exact comes_to_rest ht
  | idle =>
    rw [Config.call?, ht] at hcall
    cases hcall
  | done c' r | crashed c' =>
    refine ⟨cfg', .refl, at_rest_of_over ?_ ?_⟩
    · rw [ht]
      trivial
    · rw [ht]
      rintro ⟨⟩

theorem Steps.others {cfg cfg' : Config sys} (h : Steps sys (Lone t calls envs answers) cfg cfg') {u : Tid}
    (hu : u ≠ t) : cfg'.threads u = cfg.threads u := by
  induction h with
  | refl => rfl
  | tail _ hok hs ih =>
    rw [← ih]
    cases hs with
    | start | op =>
      obtain ⟨rfl, -⟩ := hok
      exact Config.put_threads_ne _ _ _ _ hu
    | finish =>
      obtain rfl := hok
      exact Config.put_threads_ne _ _ _ _ hu
    | crash => exact hok.elim
    | env => rfl

end Lone

end Interleave
