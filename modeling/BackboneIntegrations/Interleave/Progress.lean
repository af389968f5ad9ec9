import Mathlib.Data.DFinsupp.WellFounded
import BackboneIntegrations.Interleave.Pool

/-!
# Runs that come to an end

Each program is a finite tree, so the calls that run now take finitely many steps. A pool
ends if they never all wait.
-/

namespace Interleave

variable {S : Signature} {World Call Env : Type} {Res : Call → Type}
  {sys : System S World Call Res Env} {init : World → Prop}
  {ok good : Config sys → Label sys → Prop} {cfg cfg' : Config sys}

/-- Some call is running. -/
def Config.Busy (cfg : Config sys) : Prop := ∃ t c p, cfg.threads t = .running c p

/-- However it goes on with the steps that `good` allows, it ends, and then no call is running. -/
inductive Ends (good : Config sys → Label sys → Prop) : Config sys → Prop
  | intro {cfg : Config sys} (live : cfg.Busy → ∃ l cfg', good cfg l ∧ Step sys cfg l cfg')
      (next : ∀ {l cfg'}, good cfg l → Step sys cfg l cfg' → Ends good cfg') : Ends good cfg

/-- The steps of the calls that run already. -/
def Label.Own : Label sys → Prop
  | .op .. | .finish _ | .crash _ => True
  | .start .. | .env _ => False

/-! ## Each step makes its thread smaller -/

/-- What a step can make of a thread that runs. -/
inductive Thread.Below : Thread sys → Thread sys → Prop
  | op {c op k ans} : Below (.running c (k ans)) (.running c (.call op k))
  | done {c p r} : Below (.done c r) (.running c p)
  | crashed {c p} : Below (.crashed c) (.running c p)

theorem Thread.below_wf : WellFounded (Thread.Below : Thread sys → Thread sys → Prop) := by
  have quiet : ∀ th : Thread sys, (∀ c p, th ≠ .running c p) → Acc Thread.Below th := by
    intro th hth
    refine ⟨_, fun th' h => ?_⟩
    cases h <;> exact absurd rfl (hth _ _)
  -- By induction on the program: each answer leads to a smaller one.
  have running : ∀ c p, Acc Thread.Below (.running c p : Thread sys) := by
    intro c p
    induction p with
    | ret r =>
      refine ⟨_, fun th h => ?_⟩
      cases h <;> exact quiet _ (by simp)
    | call op k ih =>
      refine ⟨_, fun th h => ?_⟩
      cases h with
      | op => exact ih _
      | done | crashed => exact quiet _ (by simp)
  refine ⟨fun th => ?_⟩
  cases th with
  | running c p => exact running c p
  | _ => exact quiet _ (by simp)

theorem Step.below {l : Label sys} (hs : Step sys cfg l cfg') (hl : l.Own) :
    ∃ t, (cfg'.threads t).Below (cfg.threads t) ∧ ∀ u ≠ t, cfg'.threads u = cfg.threads u := by
  cases hs with
  | start ht => exact hl.elim
  | env hw => exact hl.elim
  | @op t c op ans k w ht hw =>
    refine ⟨t, ?_, fun u hu => cfg.put_threads_ne _ _ _ hu⟩
    rw [Config.put_threads_self, ht]
    exact .op
  | @finish t c r ht =>
    refine ⟨t, ?_, fun u hu => cfg.put_threads_ne _ _ _ hu⟩
    rw [Config.put_threads_self, ht]
    exact .done
  | @crash t c p ht =>
    refine ⟨t, ?_, fun u hu => cfg.put_threads_ne _ _ _ hu⟩
    rw [Config.put_threads_self, ht]
    exact .crashed

theorem Step.running_before {l : Label sys} (hs : Step sys cfg l cfg') (hl : l.Own) {t : Tid} {c : Call}
    {p : Prog S (Res c)} (ht : cfg'.threads t = .running c p) : ∃ p', cfg.threads t = .running c p' := by
  obtain ⟨u, hbelow, hother⟩ := hs.below hl
  by_cases htu : t = u
  · subst htu
    rw [ht] at hbelow
    generalize cfg.threads t = th at hbelow
    cases hbelow
    exact ⟨_, rfl⟩
  · exact ⟨p, by rw [← hother t htu, ht]⟩

theorem Reach.exists_started (h : Reach sys init ok cfg) :
    ∃ F : Finset Tid, ∀ t ∉ F, cfg.threads t = .idle := by
  induction h with
  | init h => exact ⟨∅, fun _ _ => rfl⟩
  | @step cfg l cfg' h hok hs ih =>
    obtain ⟨F, hF⟩ := ih
    -- A step moves one thread.
    have put : ∀ {w t th l}, ∃ F : Finset Tid, ∀ u ∉ F, (cfg.put w t th l).threads u = .idle := by
      intro w t th l
      refine ⟨insert t F, fun u hu => ?_⟩
      rw [Finset.mem_insert, not_or] at hu
      rw [cfg.put_threads_ne _ _ _ hu.1, hF u hu.2]
    cases hs with
    | env hw => exact ⟨F, hF⟩
    | start | op | finish | crash => exact put

/-! ## The rule -/

/-- If the calls that run never all wait, then every run of them ends. -/
theorem Ends.of_live {I : Config sys → Prop} (hown : ∀ {cfg l}, good cfg l → l.Own)
    (hstep : ∀ {cfg l cfg'}, I cfg → good cfg l → Step sys cfg l cfg' → I cfg')
    (hlive : ∀ {cfg}, I cfg → cfg.Busy → ∃ l cfg', good cfg l ∧ Step sys cfg l cfg')
    {F : Finset Tid} (hF : ∀ t ∉ F, cfg.threads t = .idle) (h : I cfg) : Ends good cfg := by
  -- a step makes the programs of the started threads smaller, in their lexicographic order
  have below (_ : F) : WellFounded (Thread.Below : Thread sys → Thread sys → Prop) := Thread.below_wf
  have wf := Pi.Lex.wellFounded (· < ·) below
  generalize hx : (fun t : F => cfg.threads t) = x
  induction x using wf.induction generalizing cfg with
  | _ x ih =>
    subst hx
    refine ⟨hlive h, fun {l cfg'} hg hs => ?_⟩
    obtain ⟨t, hbelow, hother⟩ := hs.below (hown hg)
    have ht : t ∈ F := by
      by_contra ht
      generalize cfg'.threads t = th at hbelow
      rw [hF t ht] at hbelow
      cases hbelow
    refine ih _ ⟨⟨t, ht⟩, fun j hj => hother j ?_, hbelow⟩ (fun u hu => ?_) (hstep h hg hs) rfl
    · rintro rfl
      exact lt_irrefl _ hj
    · rw [hother u (by rintro rfl; exact hu ht), hF u hu]

end Interleave
