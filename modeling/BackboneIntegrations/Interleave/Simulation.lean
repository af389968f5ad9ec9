import Mathlib.Logic.Relation
import BackboneIntegrations.Interleave.Pool

/-!
# Simulations

A pool of calls seen as some other transition system: each step of the pool is one step there, or none.
-/

namespace Interleave

open Relation

variable {S : Signature} {World Call Env : Type} {Res : Call → Type} {A : Type}

/-- The steps of the pool, as `R` relates its states to others, are steps there or nothing. -/
structure Simulation (sys : System S World Call Res Env) (init : World → Prop)
    (ok : Config sys → Label sys → Prop) (start : A → Prop) (step : A → A → Prop)
    (R : Config sys → A → Prop) : Prop where
  start : ∀ {w}, init w → ∃ a, start a ∧ R (.init w) a
  step : ∀ {cfg l cfg' a}, Reach sys init ok cfg → ok cfg l → Step sys cfg l cfg' → R cfg a →
    R cfg' a ∨ ∃ a', step a a' ∧ R cfg' a'

namespace Simulation

variable {sys : System S World Call Res Env} {init : World → Prop}
  {ok : Config sys → Label sys → Prop} {start : A → Prop} {step : A → A → Prop}
  {R : Config sys → A → Prop} {cfg : Config sys}

theorem reach (h : Simulation sys init ok start step R) (hr : Reach sys init ok cfg) :
    ∃ a₀ a, start a₀ ∧ ReflTransGen step a₀ a ∧ R cfg a := by
  induction hr with
  | init hw =>
    obtain ⟨a, ha, hR⟩ := h.start hw
    exact ⟨a, a, ha, .refl, hR⟩
  | step hr hok hs ih =>
    obtain ⟨a₀, a, ha₀, hsteps, hR⟩ := ih
    rcases h.step hr hok hs hR with hR | ⟨a', ha', hR⟩
    · exact ⟨a₀, a, ha₀, hsteps, hR⟩
    · exact ⟨a₀, a', ha₀, hsteps.tail ha', hR⟩

end Simulation

end Interleave
