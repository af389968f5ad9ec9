import BackboneIntegrations.Interleave.Pool

/-!
# Calls with ghost states

One contract for every call, and a ghost state for every thread. An invariant ties the ghost states
of all threads to the world and to the history.
-/

namespace Interleave

variable {S : Signature} {World Call Env σ : Type} {Res : Call → Type}

/-- What the steps of `ok` have to keep. -/
structure Ghosts (sys : System S World Call Res Env) (ok : Config sys → Label sys → Prop)
    (C : Contract S σ) (idle : σ) (ends : σ → Prop)
    (Inv : World → List (Label sys) → (Tid → σ) → Prop) : Prop where
  start : ∀ {cfg : Config sys} {t c g}, ok cfg (.start t c) → g t = idle → Inv cfg.world cfg.hist g →
    Meets C (sys.prog c) idle (fun _ => ends) ∧ Inv cfg.world (.start t c :: cfg.hist) g
  op : ∀ {cfg : Config sys} {t op ans w' g}, ok cfg (.op t op ans) → sys.next t op ans cfg.world = some w' →
    C.must (g t) op → Inv cfg.world cfg.hist g →
      ∃ s, C.may (g t) op ans s ∧ Inv w' (.op t op ans :: cfg.hist) (Function.update g t s)
  finish : ∀ {cfg : Config sys} {t g}, ends (g t) → Inv cfg.world cfg.hist g →
    Inv (sys.leave t cfg.world) (.finish t :: cfg.hist) (Function.update g t idle)
  env : ∀ {cfg : Config sys} {e w' g}, ok cfg (.env e) → sys.env e cfg.world = some w' →
    Inv cfg.world cfg.hist g → Inv w' (.env e :: cfg.hist) g
  crash : ∀ {cfg : Config sys} {t}, ¬ ok cfg (.crash t)

namespace Ghosts

variable {sys : System S World Call Res Env} {ok : Config sys → Label sys → Prop} {C : Contract S σ}
  {idle : σ} {ends : σ → Prop} {Inv : World → List (Label sys) → (Tid → σ) → Prop}

/-- Every running call meets the contract from its ghost state. -/
structure At (C : Contract S σ) (idle : σ) (ends : σ → Prop) (cfg : Config sys) (g : Tid → σ) :
    Prop where
  running : ∀ {t c p}, cfg.threads t = .running c p → Meets C p (g t) fun _ => ends
  idle : ∀ {t}, cfg.threads t = .idle → g t = idle

theorem At.put {cfg : Config sys} {g : Tid → σ} (h : At C idle ends cfg g) {t : Tid} {w : World}
    {th : Thread sys} {l : Label sys} {s : σ}
    (hr : ∀ {c p}, th = .running c p → Meets C p s fun _ => ends) (hi : th ≠ .idle) :
    At C idle ends (cfg.put w t th l) (Function.update g t s) := by
  constructor
  · intro u c p hu
    by_cases hut : u = t
    · subst hut
      rw [Config.put_threads_self] at hu
      rw [Function.update_self]
      exact hr hu
    · rw [cfg.put_threads_ne _ _ _ hut] at hu
      rw [Function.update_of_ne hut]
      exact h.running hu
  · intro u hu
    by_cases hut : u = t
    · subst hut
      rw [Config.put_threads_self] at hu
      exact absurd hu hi
    · rw [cfg.put_threads_ne _ _ _ hut] at hu
      rw [Function.update_of_ne hut]
      exact h.idle hu

theorem step (X : Ghosts sys ok C idle ends Inv) {cfg cfg' : Config sys} {l : Label sys}
    (hok : ok cfg l) (hs : Step sys cfg l cfg') {g : Tid → σ} (h : At C idle ends cfg g)
    (hinv : Inv cfg.world cfg.hist g) :
    ∃ g', At C idle ends cfg' g' ∧ Inv cfg'.world cfg'.hist g' := by
  cases hs with
  | @start t c ht =>
    have hg := h.idle ht
    obtain ⟨hm, hinv'⟩ := X.start hok hg hinv
    refine ⟨Function.update g t idle, h.put (fun hth => ?_) nofun, ?_⟩
    · cases hth
      exact hm
    · rwa [← hg, Function.update_eq_self]
  | @op t c op ans k w ht hw =>
    have hm := h.running ht
    obtain ⟨s, hmay, hinv'⟩ := X.op hok hw hm.1 hinv
    refine ⟨_, h.put (fun hth => ?_) nofun, hinv'⟩
    cases hth
    exact hm.2 _ _ hmay
  | @finish t c r ht => exact ⟨_, h.put nofun nofun, X.finish (h.running ht) hinv⟩
  | crash ht => exact absurd hok X.crash
  | env hw => exact ⟨g, ⟨h.running, h.idle⟩, X.env hok hw hinv⟩

/-- Every configuration that is reached has its ghost states. -/
theorem reach (X : Ghosts sys ok C idle ends Inv) {init : World → Prop}
    (hinit : ∀ w, init w → Inv w [] fun _ => idle) {cfg : Config sys} (h : Reach sys init ok cfg) :
    ∃ g, At C idle ends cfg g ∧ Inv cfg.world cfg.hist g := by
  induction h with
  | init h => exact ⟨fun _ => idle, ⟨nofun, fun _ => rfl⟩, hinit _ h⟩
  | step _ hok hs ih =>
    obtain ⟨g, hat, hinv⟩ := ih
    exact X.step hok hs hat hinv

end Ghosts

end Interleave
