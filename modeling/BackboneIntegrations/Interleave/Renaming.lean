import BackboneIntegrations.Interleave.Pool

/-!
# Runs under a renaming

A renaming maps operations and their answers. Two programs that ask renamed operations, whatever the
answers are, have the same runs up to the renaming.
-/

namespace Interleave

structure Renaming (S S' : Signature) where
  onOp : S.Op → S'.Op
  onAns : (op : S.Op) → S.Ans op → S'.Ans (onOp op)

variable {S S' : Signature} {α β γ δ ε : Type}

/-! ## Twins -/

/-- The second program asks what the first one asks, renamed. The results are related by `R`. -/
inductive Twin (ρ : Renaming S S') (R : α → β → Prop) : Prog S α → Prog S' β → Prop
  | ret {a b} (h : R a b) : Twin ρ R (.ret a) (.ret b)
  | call {op k k'} (h : ∀ ans, Twin ρ R (k ans) (k' (ρ.onAns op ans))) :
    Twin ρ R (.call op k) (.call (ρ.onOp op) k')

variable {ρ : Renaming S S'} {R : α → β → Prop} {Q : γ → δ → Prop}

theorem Twin.mono {R' : α → β → Prop} (hR : ∀ a b, R a b → R' a b) {p : Prog S α} {p' : Prog S' β}
    (h : Twin ρ R p p') : Twin ρ R' p p' := by
  induction h with
  | ret h => exact .ret (hR _ _ h)
  | call _ ih => exact .call ih

theorem Twin.bind {p : Prog S α} {p' : Prog S' β} {f : α → Prog S γ} {f' : β → Prog S' δ}
    (h : Twin ρ R p p') (hf : ∀ a b, R a b → Twin ρ Q (f a) (f' b)) :
    Twin ρ Q (p >>= f) (p' >>= f') := by
  induction h with
  | ret h => exact hf _ _ h
  | call _ ih => exact .call ih

theorem Twin.of_call {op : S.Op} {k : S.Ans op → Prog S α} {p' : Prog S' β}
    (h : Twin ρ R (.call op k) p') :
    ∃ k', p' = .call (ρ.onOp op) k' ∧ ∀ ans, Twin ρ R (k ans) (k' (ρ.onAns op ans)) := by
  rcases h with _ | h
  exact ⟨_, rfl, h⟩

theorem Twin.of_ret {a : α} {p' : Prog S' β} (h : Twin ρ R (.ret a) p') : ∃ b, p' = .ret b ∧ R a b := by
  cases h with
  | ret h => exact ⟨_, rfl, h⟩

/-! ## Programs with early return -/

/-- The same error, or related values. -/
inductive Alike (R : α → β → Prop) : Except ε α → Except ε β → Prop
  | error (e) : Alike R (.error e) (.error e)
  | ok {a b} (h : R a b) : Alike R (.ok a) (.ok b)

theorem Alike.of_map {f : α → β} {a : Except ε α} {b : Except ε β} (h : b = a.map f) :
    Alike (fun x y => y = f x) a b := by
  subst h
  rcases a with e | a
  · exact .error e
  · exact .ok rfl

theorem Alike.eq {a b : Except ε α} (h : Alike Eq a b) : a = b := by
  rcases h with e | rfl <;> rfl

theorem twin_run_bind {p : ExceptT ε (Prog S) α} {p' : ExceptT ε (Prog S') β}
    {f : α → ExceptT ε (Prog S) γ} {f' : β → ExceptT ε (Prog S') δ} (h : Twin ρ (Alike R) p.run p'.run)
    (hf : ∀ a b, R a b → Twin ρ (Alike Q) (f a).run (f' b).run) :
    Twin ρ (Alike Q) (p >>= f).run (p' >>= f').run := by
  change Twin ρ (Alike Q) (p.run >>= ExceptT.bindCont f) (p'.run >>= ExceptT.bindCont f')
  refine h.bind ?_
  rintro _ _ (e | hab)
  · exact .ret (.error e)
  · exact hf _ _ hab

theorem twin_run_pure {a : α} {b : β} (h : R a b) :
    Twin ρ (Alike R) (pure a : ExceptT ε (Prog S) α).run (pure b : ExceptT ε (Prog S') β).run :=
  .ret (.ok h)

theorem twin_run_throw (e : ε) :
    Twin ρ (Alike R) (throw e : ExceptT ε (Prog S) α).run (throw e : ExceptT ε (Prog S') β).run :=
  .ret (.error e)

theorem twin_ask (ρ : Renaming S S') (op : S.Op) :
    Twin ρ (fun a b => b = ρ.onAns op a) (.ask op) (.ask (ρ.onOp op)) := .call fun _ => .ret rfl

theorem twin_run_answer {p : Prog S α} {p' : Prog S' β} (h : Twin ρ R p p') :
    Twin ρ (Alike R) (p.answer : ExceptT ε (Prog S) α).run (p'.answer : ExceptT ε (Prog S') β).run :=
  h.bind fun _ _ hab => .ret (.ok hab)

theorem twin_run_orFail {f : γ → ε} {p : Prog S (Except γ α)} {p' : Prog S' (Except γ β)}
    (h : Twin ρ (Alike R) p p') : Twin ρ (Alike R) (p.orFail f).run (p'.orFail f).run := by
  have hresult : ∀ a b, Alike R a b →
      Twin ρ (Alike R) (.ret (a.mapError f) : Prog S (Except ε α)) (.ret (b.mapError f) : Prog S' _) := by
    rintro _ _ (e | hab)
    · exact .ret (.error _)
    · exact .ret (.ok hab)
  exact h.bind hresult

/-! ## What the renaming leaves as it is -/

def Renaming.Fixes (ρ : Renaming S S) (op : S.Op) : Prop :=
  ∃ h : ρ.onOp op = op, ∀ ans, h ▸ ρ.onAns op ans = ans

theorem Prog.Asks.twin {ρ : Renaming S S} {p : Prog S α} (h : p.Asks ρ.Fixes) : Twin ρ Eq p p := by
  induction p with
  | ret a => exact .ret rfl
  | call op k ih =>
    obtain ⟨⟨hop, hans⟩, hk⟩ := h
    have hcall : ∀ {op'} (h : ρ.onOp op = op') (k' : S.Ans op' → Prog S α),
        (∀ ans, k' (h ▸ ρ.onAns op ans) = k ans) → Twin ρ Eq (.call op k) (.call op' k') := by
      rintro _ rfl k' hk'
      refine .call fun ans => ?_
      rw [hk' ans]
      exact ih ans (hk ans)
    exact hcall hop k fun ans => by rw [hans]

theorem Prog.Asks.twin_run {ρ : Renaming S S} {p : ExceptT ε (Prog S) α} (h : p.run.Asks ρ.Fixes) :
    Twin ρ (Alike Eq) p.run p.run := by
  refine (Prog.Asks.twin h).mono ?_
  rintro (e | a) _ rfl
  · exact .error e
  · exact .ok rfl

/-! ## Runs -/

variable {World World' Call Env Env' : Type} {Res Res' : Call → Type}

/-- Two systems over renamed operations. `onWorld` and `onEnv` rename the worlds and the steps that no call
takes, and `results` relates what a call returns. -/
structure Renamed (ρ : Renaming S S') (sys : System S World Call Res Env)
    (sys' : System S' World' Call Res' Env') where
  onWorld : World → World'
  onEnv : Env → Env'
  results : (c : Call) → Res c → Res' c → Prop
  prog : ∀ c, Twin ρ (results c) (sys.prog c) (sys'.prog c)
  next : ∀ {t op ans w w'}, sys.next t op ans w = some w' →
    sys'.next t (ρ.onOp op) (ρ.onAns op ans) (onWorld w) = some (onWorld w')
  leave : ∀ t w, sys'.leave t (onWorld w) = onWorld (sys.leave t w)
  env : ∀ {e w w'}, sys.env e w = some w' → sys'.env (onEnv e) (onWorld w) = some (onWorld w')

namespace Renamed

variable {sys : System S World Call Res Env} {sys' : System S' World' Call Res' Env'}
  (X : Renamed ρ sys sys')

def onLabel : Label sys → Label sys'
  | .start t c => .start t c
  | .op t op ans => .op t (ρ.onOp op) (ρ.onAns op ans)
  | .finish t => .finish t
  | .crash t => .crash t
  | .env e => .env (X.onEnv e)

inductive Threads : Thread sys → Thread sys' → Prop
  | idle : Threads .idle .idle
  | running {c p p'} (h : Twin ρ (X.results c) p p') : Threads (.running c p) (.running c p')
  | done {c r r'} (h : X.results c r r') : Threads (.done c r) (.done c r')
  | crashed {c} : Threads (.crashed c) (.crashed c)

/-- The second configuration is the renamed first one. -/
structure Configs (cfg : Config sys) (cfg' : Config sys') : Prop where
  world : cfg'.world = X.onWorld cfg.world
  threads : ∀ t, X.Threads (cfg.threads t) (cfg'.threads t)
  hist : cfg'.hist = cfg.hist.map X.onLabel

variable {X} {cfg mid : Config sys} {cfg' : Config sys'}

theorem Configs.put (h : X.Configs cfg cfg') {w : World} {t : Tid} {th : Thread sys} {th' : Thread sys'}
    (hth : X.Threads th th') (l : Label sys) :
    X.Configs (cfg.put w t th l) (cfg'.put (X.onWorld w) t th' (X.onLabel l)) := by
  refine ⟨rfl, fun u => ?_, by simp [h.hist]⟩
  by_cases hu : u = t
  · subst hu
    simpa using hth
  · rw [Config.put_threads_ne _ _ _ _ hu, Config.put_threads_ne _ _ _ _ hu]
    exact h.threads u

theorem Configs.step (h : X.Configs cfg cfg') {l : Label sys} (hs : Step sys cfg l mid) :
    ∃ mid', Step sys' cfg' (X.onLabel l) mid' ∧ X.Configs mid mid' := by
  rcases hs with ht | ⟨ht, hw⟩ | ht | ht | hw
  · rename_i t c
    have hth := h.threads t
    rw [ht] at hth
    generalize ht' : cfg'.threads t = th' at hth
    rcases hth
    have hput := h.put (w := cfg.world) (t := t) (.running (X.prog c)) (.start t c)
    rw [← h.world] at hput
    exact ⟨_, .start ht', hput⟩
  · rename_i t c op ans k w
    have hth := h.threads t
    rw [ht] at hth
    generalize ht' : cfg'.threads t = th' at hth
    rcases hth with _ | hp | _ | _
    obtain ⟨k', rfl, hk⟩ := hp.of_call
    refine ⟨_, .op ht' ?_, h.put (.running (hk ans)) (.op t op ans)⟩
    rw [h.world]
    exact X.next hw
  · rename_i t c r
    have hth := h.threads t
    rw [ht] at hth
    generalize ht' : cfg'.threads t = th' at hth
    rcases hth with _ | hp | _ | _
    obtain ⟨r', rfl, hr⟩ := hp.of_ret
    have hput := h.put (w := sys.leave t cfg.world) (t := t) (.done hr) (.finish t)
    rw [← X.leave, ← h.world] at hput
    exact ⟨_, .finish ht', hput⟩
  · rename_i t c p
    have hth := h.threads t
    rw [ht] at hth
    generalize ht' : cfg'.threads t = th' at hth
    rcases hth with _ | hp | _ | _
    have hput := h.put (w := sys.leave t cfg.world) (t := t) (.crashed (c := c)) (.crash t)
    rw [← X.leave, ← h.world] at hput
    exact ⟨_, .crash ht', hput⟩
  · rename_i e w
    refine ⟨_, .env (w := X.onWorld w) ?_, rfl, h.threads, by simp [h.hist, onLabel]⟩
    rw [h.world]
    exact X.env hw

/-- A run has its renamed run. -/
theorem reach {init : World → Prop} {init' : World' → Prop} {ok : Config sys → Label sys → Prop}
    {ok' : Config sys' → Label sys' → Prop} (hinit : ∀ w, init w → init' (X.onWorld w))
    (hok : ∀ {cfg cfg' l}, X.Configs cfg cfg' → ok cfg l → ok' cfg' (X.onLabel l))
    (h : Reach sys init ok cfg) :
    ∃ cfg', Reach sys' init' ok' cfg' ∧ X.Configs cfg cfg' := by
  induction h with
  | init h => exact ⟨_, .init (hinit _ h), rfl, fun _ => .idle, rfl⟩
  | step _ hl hs ih =>
    obtain ⟨cfg', hr, hc⟩ := ih
    obtain ⟨mid', hs', hc'⟩ := hc.step hs
    exact ⟨mid', .step hr (hok hc hl) hs', hc'⟩

end Renamed

end Interleave
