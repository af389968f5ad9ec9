import Mathlib.Logic.Basic

/-!
# Programs that talk to a shared world

A program is a tree: it asks the world an operation and goes on with the answer.
The same tree runs alone, or one operation at a time between other programs.
-/

namespace Interleave

/-- The operations of a world, with the type of each answer. -/
structure Signature where
  Op : Type
  Ans : Op → Type

inductive Prog (S : Signature) (α : Type) where
  | ret (a : α)
  | call (op : S.Op) (k : S.Ans op → Prog S α)

variable {S : Signature} {σ τ α β ε δ : Type}

namespace Prog

def bind : Prog S α → (α → Prog S β) → Prog S β
  | .ret a, f => f a
  | .call op k, f => .call op fun ans => (k ans).bind f

instance : Monad (Prog S) where
  pure := .ret
  bind := Prog.bind

def ask (op : S.Op) : Prog S (S.Ans op) := .call op .ret

/-- One operation that can fail, with the failure as an error of the caller. -/
def orFail (f : δ → ε) (p : Prog S (Except δ α)) : ExceptT ε (Prog S) α :=
  ExceptT.adapt f (ExceptT.mk p)

/-- One operation whose answer the caller looks at itself. -/
def answer (p : Prog S α) : ExceptT ε (Prog S) α := ExceptT.lift p

/-- A result that is there already. -/
def ofExcept (r : Except ε α) : ExceptT ε (Prog S) α := ExceptT.mk (.ret r)

end Prog

/-! ## Contracts

A contract follows one program with a ghost state. `must` is what the program has to
ensure before it asks, `may` is what the world can answer, with the next ghost state.
-/

structure Contract (S : Signature) (σ : Type) where
  must : σ → S.Op → Prop
  may : σ → (op : S.Op) → S.Ans op → σ → Prop

/-- From ghost state `s` the program keeps the contract, and it returns only with `Q`. -/
def Meets (C : Contract S σ) : Prog S α → σ → (α → σ → Prop) → Prop
  | .ret a, s, Q => Q a s
  | .call op k, s, Q => C.must s op ∧ ∀ ans s', C.may s op ans s' → Meets C (k ans) s' Q

variable {C : Contract S σ} {s : σ}

@[simp] theorem meets_ret {a : α} {Q : α → σ → Prop} : Meets C (.ret a) s Q ↔ Q a s := Iff.rfl

theorem meets_call {op : S.Op} {k : S.Ans op → Prog S α} {Q : α → σ → Prop} :
    Meets C (.call op k) s Q ↔
      C.must s op ∧ ∀ ans s', C.may s op ans s' → Meets C (k ans) s' Q := Iff.rfl

@[simp] theorem meets_pure {a : α} {Q : α → σ → Prop} : Meets C (pure a) s Q ↔ Q a s := Iff.rfl

@[simp] theorem meets_ask {op : S.Op} {Q : S.Ans op → σ → Prop} :
    Meets C (.ask op) s Q ↔ C.must s op ∧ ∀ ans s', C.may s op ans s' → Q ans s' := Iff.rfl

theorem Meets.mono {p : Prog S α} {Q Q' : α → σ → Prop} (hQ : ∀ a s, Q a s → Q' a s)
    (h : Meets C p s Q) : Meets C p s Q' := by
  induction p generalizing s with
  | ret a => exact hQ a s h
  | call op k ih => exact ⟨h.1, fun ans s' hm => ih ans (h.2 ans s' hm)⟩

theorem Meets.of_stable {P : σ → Prop} (hmust : ∀ s op, P s → C.must s op)
    (hmay : ∀ s op ans s', P s → C.may s op ans s' → P s') {p : Prog S α} (h : P s) :
    Meets C p s fun _ s' => P s' := by
  induction p generalizing s with
  | ret a => exact h
  | call op k ih => exact ⟨hmust s op h, fun ans s' hm => ih ans (hmay s op ans s' h hm)⟩

theorem Meets.trivial (hmust : ∀ s op, C.must s op) {p : Prog S α} :
    Meets C p s fun _ _ => True :=
  of_stable (P := fun _ => True) (fun s op _ => hmust s op) (fun _ _ _ _ _ _ => True.intro) True.intro

theorem meets_bind {p : Prog S α} {f : α → Prog S β} {Q : β → σ → Prop} :
    Meets C (p >>= f) s Q ↔ Meets C p s fun a s' => Meets C (f a) s' Q := by
  induction p generalizing s with
  | ret a => rfl
  | call op k ih =>
    exact and_congr_right' (forall_congr' fun ans => forall_congr' fun s' =>
      forall_congr' fun _ => ih ans)

/-- A contract that is kept is kept in any terms: `R` relates the two ghost states. -/
theorem Meets.sim {C : Contract S σ} {C' : Contract S τ} {R : σ → τ → Prop}
    (hmust : ∀ {s t op}, R s t → C.must s op → C'.must t op)
    (hmay : ∀ {s t op ans t'}, R s t → C.must s op → C'.may t op ans t' →
      ∃ s', C.may s op ans s' ∧ R s' t')
    {p : Prog S α} {s : σ} {t : τ} {Q : α → σ → Prop} (h : Meets C p s Q) (hs : R s t) :
    Meets C' p t fun a t' => ∃ s', R s' t' ∧ Q a s' := by
  induction p generalizing s t with
  | ret a => exact ⟨s, hs, h⟩
  | call op k ih =>
    refine ⟨hmust hs h.1, ?_⟩
    intro ans t' ht
    -- What the second contract answers, the first one can answer too.
    obtain ⟨s', hmay', hs'⟩ := hmay hs h.1 ht
    exact ih ans (h.2 ans s' hmay') hs'

/-! ## Programs with early return

The rules below are for `ExceptT ε (Prog S)`: an error skips the rest of the program.
-/

@[simp] theorem meets_run_pure {a : α} {Q : Except ε α → σ → Prop} :
    Meets C (pure a : ExceptT ε (Prog S) α).run s Q ↔ Q (.ok a) s := Iff.rfl

@[simp] theorem meets_run_throw {e : ε} {Q : Except ε α → σ → Prop} :
    Meets C (throw e : ExceptT ε (Prog S) α).run s Q ↔ Q (.error e) s := Iff.rfl

theorem meets_run_bind {p : ExceptT ε (Prog S) α} {f : α → ExceptT ε (Prog S) β}
    {Q : Except ε β → σ → Prop} :
    Meets C (p >>= f).run s Q ↔ Meets C p.run s fun r s' =>
      match r with
      | .ok a => Meets C (f a).run s' Q
      | .error e => Q (.error e) s' := by
  change Meets C (p.run >>= ExceptT.bindCont f) s Q ↔ _
  rw [meets_bind]
  constructor
  all_goals
    apply Meets.mono
    rintro (e | a) s' h <;> exact h

theorem meets_run_ite {c : Prop} [Decidable c] {p q : ExceptT ε (Prog S) α}
    {Q : Except ε α → σ → Prop} :
    Meets C (if c then p else q).run s Q ↔
      (c → Meets C p.run s Q) ∧ (¬ c → Meets C q.run s Q) := by
  split <;> simp [*]

@[simp] theorem meets_run_ofExcept {r : Except ε α} {Q : Except ε α → σ → Prop} :
    Meets C (Prog.ofExcept r : ExceptT ε (Prog S) α).run s Q ↔ Q r s := Iff.rfl

theorem meets_run_answer {p : Prog S α} {Q : Except ε α → σ → Prop} :
    Meets C (p.answer : ExceptT ε (Prog S) α).run s Q ↔ Meets C p s fun a s' => Q (.ok a) s' := by
  change Meets C (p >>= fun a => pure (.ok a)) s Q ↔ _
  rw [meets_bind]
  rfl

theorem meets_run_map {p : ExceptT ε (Prog S) α} {f : α → β} {Q : Except ε β → σ → Prop} :
    Meets C (f <$> p).run s Q ↔ Meets C p.run s fun r s' => Q (r.map f) s' := by
  change Meets C (p.run >>= fun r => _) s Q ↔ _
  rw [meets_bind]
  constructor
  all_goals
    apply Meets.mono
    rintro (e | a) s' h <;> exact h

theorem meets_run_orFail {p : Prog S (Except δ α)} {f : δ → ε} {Q : Except ε α → σ → Prop} :
    Meets C (p.orFail f).run s Q ↔ Meets C p s fun r s' => Q (r.mapError f) s' := by
  change Meets C (p >>= fun r => pure (r.mapError f)) s Q ↔ _
  rw [meets_bind]
  rfl

/-! ## What a program can ask at all

Whatever the answers are, every operation of the program is one of a kind.
-/

def Prog.Asks (P : S.Op → Prop) : Prog S α → Prop
  | .ret _ => True
  | .call op k => P op ∧ ∀ ans, (k ans).Asks P

section

variable {P Q : S.Op → Prop}

@[simp] theorem asks_ret {a : α} : (.ret a : Prog S α).Asks P := True.intro

@[simp] theorem asks_pure {a : α} : (pure a : Prog S α).Asks P := True.intro

@[simp] theorem asks_ask {op : S.Op} : (Prog.ask op : Prog S _).Asks P ↔ P op :=
  ⟨And.left, fun h => ⟨h, fun _ => True.intro⟩⟩

theorem Prog.Asks.mono {p : Prog S α} (h : p.Asks P) (hPQ : ∀ op, P op → Q op) : p.Asks Q := by
  induction p with
  | ret a => exact True.intro
  | call op k ih => exact ⟨hPQ op h.1, fun ans => ih ans (h.2 ans)⟩

theorem Prog.Asks.bind {p : Prog S α} {f : α → Prog S β} (hp : p.Asks P) (hf : ∀ a, (f a).Asks P) :
    (p >>= f).Asks P := by
  induction p with
  | ret a => exact hf a
  | call op k ih => exact ⟨hp.1, fun ans => ih ans (hp.2 ans)⟩

/-- A program that asks only what the contract allows keeps it, as long as a property `I` of the ghost
state is kept by what it asks. -/
theorem Prog.Asks.meets {I : σ → Prop} {p : Prog S α} (h : p.Asks P) (hs : I s)
    (hmust : ∀ s op, I s → P op → C.must s op)
    (hmay : ∀ s op ans s', I s → P op → C.may s op ans s' → I s') :
    Meets C p s fun _ s' => I s' := by
  induction p generalizing s with
  | ret a => exact hs
  | call op k ih =>
    exact ⟨hmust s op hs h.1, fun ans s' hm => ih ans (h.2 ans) (hmay s op ans s' hs h.1 hm)⟩

@[simp] theorem asks_run_pure {a : α} : (pure a : ExceptT ε (Prog S) α).run.Asks P := True.intro

@[simp] theorem asks_run_throw {e : ε} : (throw e : ExceptT ε (Prog S) α).run.Asks P := True.intro

@[simp] theorem asks_run_ofExcept {r : Except ε α} :
    (Prog.ofExcept r : ExceptT ε (Prog S) α).run.Asks P := True.intro

theorem asks_run_bind {p : ExceptT ε (Prog S) α} {f : α → ExceptT ε (Prog S) β} (hp : p.run.Asks P)
    (hf : ∀ a, (f a).run.Asks P) : (p >>= f).run.Asks P := by
  refine Prog.Asks.bind (p := p.run) hp ?_
  rintro (e | a)
  · exact True.intro
  · exact hf a

theorem asks_run_answer {p : Prog S α} (h : p.Asks P) :
    (p.answer : ExceptT ε (Prog S) α).run.Asks P := h.bind fun _ => True.intro

theorem asks_run_orFail {p : Prog S (Except δ α)} {f : δ → ε} (h : p.Asks P) :
    (p.orFail f).run.Asks P := h.bind fun _ => True.intro

theorem asks_run_map {p : ExceptT ε (Prog S) α} {f : α → β} (h : p.run.Asks P) :
    (f <$> p).run.Asks P := by
  refine Prog.Asks.bind (p := p.run) h ?_
  rintro (e | a) <;> exact True.intro

end

end Interleave
