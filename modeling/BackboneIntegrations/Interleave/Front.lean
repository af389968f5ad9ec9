import BackboneIntegrations.Interleave.Pool

/-!
# A front of a system

A front takes requests. It passes a request on as one call of the system behind it, or it answers the
request by itself. What it answers by itself leaves no trace behind.
-/

namespace Interleave

variable {S : Signature} {World Call Env Req Resp : Type} {Res : Call → Type}

/-- What a front does with a request. -/
inductive Serve (back : System S World Call Res Env) (Resp : Type) where
  | call (c : Call) (respond : Res c → Resp)
  | own (p : Prog S Resp)

variable {back : System S World Call Res Env}

def Serve.prog : Serve back Resp → Prog S Resp
  | .call c respond => (back.prog c).bind fun r => .ret (respond r)
  | .own p => p

def front (back : System S World Call Res Env) (serve : Req → Serve back Resp) :
    System S World Req (fun _ => Resp) Env where
  prog r := (serve r).prog
  next := back.next
  leave := back.leave
  env := back.env

/-- The operations that leave the world as it is. -/
def Quiet (back : System S World Call Res Env) (op : S.Op) : Prop :=
  ∀ t ans w w', back.next t op ans w = some w' → w' = w

/-- A thread that is apart from the world can leave it unnoticed, and no other thread changes that. -/
structure Parting (back : System S World Call Res Env) (Apart : Tid → World → Prop) : Prop where
  leave : ∀ {t w}, Apart t w → back.leave t w = w
  next : ∀ {t u op ans w w'}, Apart t w → t ≠ u → back.next u op ans w = some w' → Apart t w'
  other : ∀ {t u w}, Apart t w → t ≠ u → Apart t (back.leave u w)
  env : ∀ {t e w w'}, Apart t w → back.env e w = some w' → Apart t w'

/-- Steps that are allowed by the world and the answer alone. -/
def Allowed {sys : System S World Call Res Env} (A : World → (op : S.Op) → S.Ans op → Prop)
    (cfg : Config sys) : Label sys → Prop
  | .op _ op ans => A cfg.world op ans
  | _ => True

variable {serve : Req → Serve back Resp} {Apart : Tid → World → Prop}

/-! ## The threads behind the threads of the front -/

inductive Stands (serve : Req → Serve back Resp) (apart : Prop) :
    Thread (front back serve) → Thread back → Prop
  | idle (h : apart) : Stands serve apart .idle .idle
  | own {r p} (hs : ∃ p₀, serve r = .own p₀) (hp : p.Asks (Quiet back)) (h : apart) :
    Stands serve apart (.running r p) .idle
  | answered {r a} (hs : ∃ p₀, serve r = .own p₀) : Stands serve apart (.done r a) .idle
  | dropped {r} (hs : ∃ p₀, serve r = .own p₀) : Stands serve apart (.crashed r) .idle
  | running {r c respond p} (hs : serve r = .call c respond) :
    Stands serve apart (.running r (p.bind fun a => .ret (respond a))) (.running c p)
  | done {r c respond a} (hs : serve r = .call c respond) :
    Stands serve apart (.done r (respond a)) (.done c a)
  | crashed {r c respond} (hs : serve r = .call c respond) :
    Stands serve apart (.crashed r) (.crashed c)

theorem Stands.mono {a a' : Prop} {th : Thread (front back serve)} {th₀ : Thread back}
    (h : Stands serve a th th₀) (ha : a → a') : Stands serve a' th th₀ := by
  rcases h with h | ⟨hs, hp, h⟩ | hs | hs | hs | hs | hs
  · exact .idle (ha h)
  · exact .own hs hp (ha h)
  · exact .answered hs
  · exact .dropped hs
  · exact .running hs
  · exact .done hs
  · exact .crashed hs

theorem Stands.of_idle {a : Prop} {th₀ : Thread back} (h : Stands serve a .idle th₀) : a ∧ th₀ = .idle := by
  generalize hth : (Thread.idle : Thread (front back serve)) = th at h
  rcases h with ha | _ | _ | _ | _ | _ | _ <;> cases hth
  exact ⟨ha, rfl⟩

theorem Stands.of_running {a : Prop} {r : Req} {q : Prog S Resp} {th₀ : Thread back}
    (h : Stands serve a (.running r q) th₀) :
    ((∃ p₀, serve r = .own p₀) ∧ q.Asks (Quiet back) ∧ a ∧ th₀ = .idle) ∨
      ∃ c respond p, serve r = .call c respond ∧ q = p.bind (fun x => .ret (respond x)) ∧
        th₀ = .running c p := by
  generalize hth : (Thread.running r q : Thread (front back serve)) = th at h
  rcases h with _ | ⟨hs, hp, ha⟩ | _ | _ | hs | _ | _ <;> cases hth
  · exact .inl ⟨hs, hp, ha, rfl⟩
  · exact .inr ⟨_, _, _, hs, rfl, rfl⟩

/-- The same world, and behind each thread of the front what stands for it. -/
structure Mirrors (Apart : Tid → World → Prop) (cfg : Config (front back serve)) (cfg₀ : Config back) :
    Prop where
  world : cfg₀.world = cfg.world
  threads : ∀ t, Stands serve (Apart t cfg.world) (cfg.threads t) (cfg₀.threads t)
  events : ∀ t, cfg₀.threads t ≠ .idle → cfg₀.events t = cfg.events t

theorem Mirrors.init {w : World} (h : ∀ t, Apart t w) :
    Mirrors Apart (.init w : Config (front back serve)) (.init w) where
  world := rfl
  threads t := .idle (h t)
  events _ _ := rfl

variable {cfg cfg' : Config (front back serve)} {cfg₀ : Config back}

theorem Mirrors.put {t : Tid} {w : World} {th : Thread (front back serve)} {th₀ : Thread back}
    {l : Label (front back serve)} {l₀ : Label back} (h : Mirrors Apart cfg cfg₀)
    (hapart : ∀ u, u ≠ t → Apart u cfg.world → Apart u w) (hth : Stands serve (Apart t w) th th₀)
    (hl : ∀ u, u ≠ t → l.event? u = none ∧ l₀.event? u = none)
    (hev : (cfg₀.put w t th₀ l₀).events t = (cfg.put w t th l).events t) :
    Mirrors Apart (cfg.put w t th l) (cfg₀.put w t th₀ l₀) where
  world := rfl
  threads u := by
    by_cases hu : u = t
    · subst hu
      simpa using hth
    · rw [cfg.put_threads_ne _ _ _ hu, cfg₀.put_threads_ne _ _ _ hu]
      exact (h.threads u).mono (hapart u hu)
  events u := by
    by_cases hu : u = t
    · subst hu
      exact fun _ => hev
    · rw [cfg₀.put_threads_ne _ _ _ hu, Config.events_put_ne (hl u hu).1, Config.events_put_ne (hl u hu).2]
      exact h.events u

theorem Mirrors.stay {t : Tid} {th : Thread (front back serve)} {l : Label (front back serve)}
    (h : Mirrors Apart cfg cfg₀) (hidle : cfg₀.threads t = .idle)
    (hth : Stands serve (Apart t cfg.world) th .idle) (hl : ∀ u, u ≠ t → l.event? u = none) :
    Mirrors Apart (cfg.put cfg.world t th l) cfg₀ where
  world := h.world
  threads u := by
    by_cases hu : u = t
    · subst hu
      rw [hidle]
      simpa using hth
    · rw [cfg.put_threads_ne _ _ _ hu]
      exact h.threads u
  events u := by
    by_cases hu : u = t
    · subst hu
      exact fun hne => absurd hidle hne
    · rw [Config.events_put_ne (hl u hu)]
      exact h.events u

/-! ## Runs of the front -/

theorem Reach.events_of_idle {sys : System S World Call Res Env} {init : World → Prop}
    {ok : Config sys → Label sys → Prop} {cfg : Config sys} (h : Reach sys init ok cfg) {t : Tid}
    (ht : cfg.threads t = .idle) : cfg.events t = [] := by
  let X : Script sys := ⟨fun _ _ _ => True, fun _ _ _ => True⟩
  have hX : X.Holds := fun c => Meets.trivial fun _ _ => True.intro
  have htracks := hX.tracks h t
  rw [ht] at htracks
  exact htracks

theorem Reach.start_of_call {sys : System S World Call Res Env} {init : World → Prop}
    {ok : Config sys → Label sys → Prop} {cfg : Config sys} (h : Reach sys init ok cfg) {t : Tid} {c : Call}
    (hc : cfg.call? t = some c) : .start t c ∈ cfg.hist := by
  induction h with
  | init h => cases hc
  | step h hok hs ih =>
    rw [hs.hist]
    rcases hs.call_cases hc with hbefore | rfl
    · exact List.mem_cons_of_mem _ (ih hbefore)
    · exact List.mem_cons_self

variable {A : World → (op : S.Op) → S.Ans op → Prop}

theorem Mirrors.step (hpart : Parting back Apart) (hown : ∀ r p, serve r = .own p → p.Asks (Quiet back))
    {l : Label (front back serve)} (h : Mirrors Apart cfg cfg₀)
    (hfresh : ∀ t, cfg.threads t = .idle → cfg.events t = [])
    (hfresh₀ : ∀ t, cfg₀.threads t = .idle → cfg₀.events t = []) (hok : Allowed A cfg l)
    (hs : Step (front back serve) cfg l cfg') :
    Mirrors Apart cfg' cfg₀ ∨
      ∃ l₀ cfg₀', Allowed A cfg₀ l₀ ∧ Step back cfg₀ l₀ cfg₀' ∧ Mirrors Apart cfg' cfg₀' := by
  cases hs with
  | @start t r ht =>
    have hth := h.threads t
    rw [ht] at hth
    obtain ⟨hapart, hidle⟩ := hth.of_idle
    cases hr : serve r with
    | own p =>
      have hprog : (front back serve).prog r = p := by
        show (serve r).prog = p
        rw [hr]
        rfl
      rw [hprog]
      exact .inl (h.stay hidle (.own ⟨p, hr⟩ (hown r p hr) hapart) fun u _ => rfl)
    | call c respond =>
      have hprog : (front back serve).prog r = (back.prog c).bind fun a => .ret (respond a) := by
        show (serve r).prog = _
        rw [hr]
        rfl
      rw [hprog]
      refine .inr ⟨.start t c, _, trivial, .start hidle, ?_⟩
      rw [h.world]
      refine h.put (fun u _ => id) (.running hr) (fun u _ => ⟨rfl, rfl⟩) ?_
      rw [Config.events_put_ne event?_start, Config.events_put_ne event?_start, hfresh t ht, hfresh₀ t hidle]
  | @op t r op ans k w ht hw =>
    have hth := h.threads t
    rw [ht] at hth
    -- A thread of its own asks what changes nothing, and any other thread is a call behind it.
    rcases hth.of_running with ⟨hs, hp, hapart, hidle⟩ | ⟨c, respond, p, hs, hq, hrun⟩
    · obtain rfl : w = cfg.world := hp.1 t ans cfg.world w hw
      exact .inl (h.stay hidle (.own hs (hp.2 ans) hapart) fun u hu => Config.event?_ne hu)
    · cases p with
      | ret a => cases hq
      | call op' k₀ =>
        cases hq
        have hw₀ : back.next t op ans cfg₀.world = some w := by
          rw [h.world]
          exact hw
        refine .inr ⟨.op t op ans, _, ?_, .op hrun hw₀, ?_⟩
        · show A cfg₀.world op ans
          rw [h.world]
          exact hok
        · refine h.put (fun u hu ha => hpart.next ha hu hw) (.running hs) ?_ ?_
          · exact fun u hu => ⟨Config.event?_ne hu, Config.event?_ne hu⟩
          · rw [Config.events_put_op, Config.events_put_op, h.events t (by simp [hrun])]
  | @finish t r a ht =>
    have hth := h.threads t
    rw [ht] at hth
    rcases hth.of_running with ⟨hs, hp, hapart, hidle⟩ | ⟨c, respond, p, hs, hq, hrun⟩
    · show Mirrors Apart (cfg.put (back.leave t cfg.world) t (.done r a) (.finish t)) cfg₀ ∨ _
      rw [hpart.leave hapart]
      exact .inl (h.stay hidle (.answered hs) fun u _ => rfl)
    · cases p with
      | call op' k₀ => cases hq
      | ret a₀ =>
        cases hq
        refine .inr ⟨.finish t, _, trivial, .finish hrun, ?_⟩
        rw [h.world]
        refine h.put (fun u hu ha => hpart.other ha hu) (.done hs) (fun u _ => ⟨rfl, rfl⟩) ?_
        rw [Config.events_put_ne event?_finish, Config.events_put_ne event?_finish,
          h.events t (by simp [hrun])]
  | @crash t r q ht =>
    have hth := h.threads t
    rw [ht] at hth
    rcases hth.of_running with ⟨hs, hp, hapart, hidle⟩ | ⟨c, respond, p, hs, hq, hrun⟩
    · show Mirrors Apart (cfg.put (back.leave t cfg.world) t (.crashed r) (.crash t)) cfg₀ ∨ _
      rw [hpart.leave hapart]
      exact .inl (h.stay hidle (.dropped hs) fun u _ => rfl)
    · refine .inr ⟨.crash t, _, trivial, .crash hrun, ?_⟩
      rw [h.world]
      refine h.put (fun u hu ha => hpart.other ha hu) (.crashed hs) (fun u _ => ⟨rfl, rfl⟩) ?_
      rw [Config.events_put_ne event?_crash, Config.events_put_ne event?_crash, h.events t (by simp [hrun])]
  | @env e w hw =>
    have hw₀ : back.env e cfg₀.world = some w := by
      rw [h.world]
      exact hw
    refine .inr ⟨.env e, _, trivial, .env hw₀, ?_⟩
    exact ⟨rfl, fun t => (h.threads t).mono fun ha => hpart.env ha hw, h.events⟩

theorem Mirrors.served {t : Tid} {r : Req} (h : Mirrors Apart cfg cfg₀) (hc : cfg.call? t = some r) :
    ((∃ p, serve r = .own p) ∧ cfg₀.threads t = .idle) ∨
      ∃ c respond, serve r = .call c respond ∧ cfg₀.call? t = some c ∧ cfg₀.events t = cfg.events t ∧
        ∀ a, cfg.threads t = .done r a → ∃ a₀, cfg₀.threads t = .done c a₀ ∧ a = respond a₀ := by
  have hth := h.threads t
  have hev := h.events t
  unfold Config.call? at hc ⊢
  generalize cfg.threads t = th at hth hc
  generalize cfg₀.threads t = th₀ at hth hev
  rcases hth with _ | ⟨hs, -, -⟩ | hs | hs | hs | hs | hs <;> cases hc
  · exact .inl ⟨hs, rfl⟩
  · exact .inl ⟨hs, rfl⟩
  · exact .inl ⟨hs, rfl⟩
  · exact .inr ⟨_, _, hs, rfl, hev (by simp), fun a h => by cases h⟩
  · refine .inr ⟨_, _, hs, rfl, hev (by simp), ?_⟩
    intro a h
    cases h
    exact ⟨_, rfl, rfl⟩
  · exact .inr ⟨_, _, hs, rfl, hev (by simp), fun a h => by cases h⟩

/-- Every run of the front is a run of the system behind it. -/
theorem Reach.mirrors {init : World → Prop} (hpart : Parting back Apart)
    (hown : ∀ r p, serve r = .own p → p.Asks (Quiet back)) (hinit : ∀ w, init w → ∀ t, Apart t w)
    (hr : Reach (front back serve) init (Allowed A) cfg) :
    ∃ cfg₀ : Config back, Reach back init (Allowed A) cfg₀ ∧ Mirrors Apart cfg cfg₀ := by
  induction hr with
  | @init w hw => exact ⟨.init w, .init hw, .init (hinit w hw)⟩
  | step h hok hs ih =>
    obtain ⟨cfg₀, hr₀, hm⟩ := ih
    have hstep := hm.step hpart hown (fun t => h.events_of_idle) (fun t => hr₀.events_of_idle) hok hs
    rcases hstep with hstay | ⟨l₀, cfg₀', hok₀, hs₀, hm'⟩
    · exact ⟨cfg₀, hr₀, hstay⟩
    · exact ⟨cfg₀', .step hr₀ hok₀ hs₀, hm'⟩

end Interleave
