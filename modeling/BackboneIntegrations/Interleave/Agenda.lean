import Mathlib.Data.List.Perm.Subperm
import Mathlib.Data.Set.Finite.Lemmas
import Mathlib.Tactic.Order

/-!
# Loops that take the soonest row

Rows wait under a key. Each round takes a row with the least key and handles it, which can leave
it waiting, give it another key or take it out. Where keys are equal, any of the rows can be next.
-/

namespace Interleave

variable {ι ρ κ : Type}

structure Agenda (ι ρ κ : Type) where
  /-- The key of a row that waits. -/
  key : ρ → Option κ
  /-- The row after it was handled, or nothing where that breaks the loop off. -/
  step : ι → ρ → Option ρ
  /-- The loop passes over what it has handled. -/
  once : Bool

namespace Agenda

variable (A : Agenda ι ρ κ)

section

variable [DecidableEq ι]

def due (rows : ι → Option ρ) (past : List ι) (x : ι) : Option κ :=
  if A.once ∧ x ∈ past then none else (rows x).bind A.key

def handle (rows : ι → Option ρ) (x : ι) : Option ρ := (rows x).bind (A.step x)

/-- No row waits under a lesser key. -/
def Soonest [LE κ] (rows : ι → Option ρ) (past : List ι) (x : ι) : Prop :=
  ∃ k, A.due rows past x = some k ∧ ∀ y l, A.due rows past y = some l → k ≤ l

/-- Whatever it takes next, the loop ends within the rounds that are left, and it ends in `Q`. -/
def Every [LE κ] (Q : (ι → Option ρ) → List ι → Prop) : ℕ → (ι → Option ρ) → List ι → Prop
  | 0, rows, past => Q rows past
  | left + 1, rows, past =>
    ((∀ x, A.due rows past x = none) → Q rows past) ∧
      ∀ x, A.Soonest rows past x →
        ∃ r, A.handle rows x = some r ∧ Every Q left (Function.update rows x (some r)) (past ++ [x])

end

variable {A} {rows rows' start : ι → Option ρ} {past D : List ι} {x y : ι} {left n : ℕ}
  {Q : (ι → Option ρ) → List ι → Prop}

/-! ## What to take next -/

section

variable [DecidableEq ι]

theorem rows_of_due {k : κ} (h : A.due rows past x = some k) : rows x ≠ none := by
  intro hnone
  unfold due at h
  split at h
  · cases h
  · rw [hnone] at h
    cases h

theorem key_of_due {k : κ} {r : ρ} (h : A.due rows past x = some k) (hr : rows x = some r) :
    A.key r = some k := by
  unfold due at h
  split at h
  · cases h
  · rwa [hr, Option.bind_some] at h

theorem due_of_once (honce : A.once) {k : κ} (h : A.due rows past x = some k) :
    x ∉ past ∧ (rows x).bind A.key = some k := by
  unfold due at h
  split at h
  · cases h
  · rename_i hx
    exact ⟨fun hp => hx ⟨honce, hp⟩, h⟩

/-- The row is as at the start, or as it is after it was handled. -/
def Between (A : Agenda ι ρ κ) (start rows : ι → Option ρ) (x : ι) : Prop :=
  rows x = start x ∨ rows x = A.handle start x

theorem Between.next (hidem : ∀ x r r', A.step x r = some r' → A.step x r' = some r')
    (h : A.Between start rows x) {z : ι} {r : ρ} (hr : A.handle rows z = some r) :
    A.Between start (Function.update rows z (some r)) x := by
  by_cases hx : x = z
  · subst hx
    right
    rw [Function.update_self, ← hr]
    rcases h with h | h
    · rw [handle, handle, h]
    · rw [handle, h]
      -- The row was handled once, and a second time changes nothing.
      cases hs : A.handle start x with
      | none => rfl
      | some r₁ =>
        obtain ⟨r₀, -, h₁⟩ := Option.bind_eq_some_iff.mp hs
        exact hidem x r₀ r₁ h₁
  · rwa [Between, Function.update_of_ne hx]

variable [LinearOrder κ]

theorem exists_soonest (hfin : {x | rows x ≠ none}.Finite) (p : ι) {y : ι} {l : κ}
    (hy : A.due rows past y = some l) :
    ∃ x k, A.due rows past x = some k ∧ (∀ y l, A.due rows past y = some l → k ≤ l) ∧
      ∀ l, A.due rows past p = some l → x = p ∨ k < l := by
  have hwait : {x | A.due rows past x ≠ none}.Finite := by
    refine hfin.subset fun x hx => ?_
    obtain ⟨k, hk⟩ := Option.ne_none_iff_exists'.mp hx
    exact rows_of_due hk
  have hne : {x | A.due rows past x ≠ none}.Nonempty := ⟨y, by simp [hy]⟩
  obtain ⟨x, hx, hmin⟩ := Set.exists_min_image _ (fun x => (A.due rows past x).getD l) hwait hne
  obtain ⟨k, hk⟩ := Option.ne_none_iff_exists'.mp hx
  have hleast : ∀ y l, A.due rows past y = some l → k ≤ l := by
    intro y' l' hy'
    simpa [hk, hy'] using hmin y' (by simp [hy'])
  -- Among the soonest rows `p` has the choice.
  by_cases hp : A.due rows past p = some k
  · refine ⟨p, k, hp, hleast, fun _ _ => .inl rfl⟩
  · refine ⟨x, k, hk, hleast, fun l' hl' => .inr (lt_of_le_of_ne (hleast p l' hl') ?_)⟩
    rintro rfl
    exact hp hl'

theorem forall_soonest {P : ι → ρ → Prop} {R : ι → Prop}
    (hPR : ∀ x r, rows x = some r → A.Soonest rows past x → (P x r ↔ R x)) :
    (∀ x r, rows x = some r → A.Soonest rows past x → P x r) ↔ ∀ x, A.Soonest rows past x → R x := by
  constructor
  · rintro h x hs
    obtain ⟨k, hk, -⟩ := id hs
    obtain ⟨r, hr⟩ := Option.ne_none_iff_exists'.mp (rows_of_due hk)
    exact (hPR x r hr hs).mp (h x r hr hs)
  · exact fun h x r hr hs => (hPR x r hr hs).mpr (h x hs)

theorem finite_update (hfin : {x | rows x ≠ none}.Finite) (r : ρ) :
    {y | Function.update rows x (some r) y ≠ none}.Finite := by
  refine (hfin.insert x).subset fun y hy => ?_
  by_cases hyx : y = x
  · exact .inl hyx
  · right
    simpa [hyx] using hy

/-! ## Rules -/

/-- The rule for all orders. -/
theorem Every.of_inv {I : ℕ → (ι → Option ρ) → List ι → Prop}
    (hlast : ∀ rows past, I 0 rows past → Q rows past)
    (hnone : ∀ left rows past, I (left + 1) rows past → (∀ x, A.due rows past x = none) → Q rows past)
    (hstep : ∀ left rows past x k, I (left + 1) rows past → A.due rows past x = some k →
      (∀ y l, A.due rows past y = some l → k ≤ l) →
      ∃ r, A.handle rows x = some r ∧ I left (Function.update rows x (some r)) (past ++ [x]))
    (h : I left rows past) : A.Every Q left rows past := by
  induction left generalizing rows past with
  | zero => exact hlast _ _ h
  | succ left ih =>
    refine ⟨hnone _ _ _ h, ?_⟩
    rintro x ⟨k, hk, hleast⟩
    obtain ⟨r, hr, hI⟩ := hstep _ _ _ x k h hk hleast
    exact ⟨r, hr, ih hI⟩

/-- The rule for the order that takes `p` whenever it can. -/
theorem Every.follow (p : ι) {I : ℕ → (ι → Option ρ) → List ι → Prop}
    (h : A.Every Q left rows past) (hfin : {x | rows x ≠ none}.Finite) (hI : I left rows past)
    (hstep : ∀ left rows past x k r, I (left + 1) rows past → A.due rows past x = some k →
      (∀ l, A.due rows past p = some l → x = p ∨ k < l) → A.handle rows x = some r →
      I left (Function.update rows x (some r)) (past ++ [x])) :
    ∃ left' rows' past', I left' rows' past' ∧ Q rows' past' ∧
      (left' = 0 ∨ ∀ x, A.due rows' past' x = none) := by
  induction left generalizing rows past with
  | zero => exact ⟨0, rows, past, hI, h, .inl rfl⟩
  | succ left ih =>
    by_cases hnone : ∀ x, A.due rows past x = none
    · exact ⟨left + 1, rows, past, hI, h.1 hnone, .inr hnone⟩
    · obtain ⟨y, hy⟩ := not_forall.mp hnone
      obtain ⟨l, hl⟩ := Option.ne_none_iff_exists'.mp hy
      obtain ⟨x, k, hk, hleast, hp⟩ := exists_soonest hfin p hl
      obtain ⟨r, hr, hnext⟩ := h.2 x ⟨k, hk, hleast⟩
      exact ih hnext (finite_update hfin r) (hstep _ _ _ x k r hI hk hp hr)

/-! ## Each row once -/

/-- The loop has handled `past`, each row once and none before a sooner one. -/
structure Handled (A : Agenda ι ρ κ) (start : ι → Option ρ) (D : List ι) (left n : ℕ)
    (rows : ι → Option ρ) (past : List ι) : Prop where
  nodup : past.Nodup
  subset : past ⊆ D
  count : past.length + left = n
  ends : ∀ x ∈ past, A.handle start x ≠ none
  rows : ∀ x, rows x = if x ∈ past then A.handle start x else start x
  early : ∀ x ∈ past, ∀ y ∈ D, y ∉ past → ∀ k l, A.due start [] x = some k →
    A.due start [] y = some l → k ≤ l

theorem Handled.init : A.Handled start D n n start [] where
  nodup := List.nodup_nil
  subset := List.nil_subset _
  count := Nat.zero_add _
  ends _ hx := nomatch hx
  rows _ := by simp
  early _ hx := nomatch hx

theorem Handled.due_eq (h : A.Handled start D left n rows past) (hx : x ∉ past) :
    A.due rows past x = A.due start [] x := by
  simp [due, h.rows, hx]

theorem Handled.next (h : A.Handled start D (left + 1) n rows past) {k : κ} {r : ρ} (hx : x ∈ D)
    (hnew : x ∉ past) (hk : A.due rows past x = some k)
    (hleast : ∀ y l, A.due rows past y = some l → k ≤ l) (hr : A.handle start x = some r) :
    A.Handled start D left n (Function.update rows x (some r)) (past ++ [x]) where
  nodup := List.nodup_append.mpr ⟨h.nodup, List.nodup_singleton x, by
    rintro a ha b hb rfl
    exact hnew (List.mem_singleton.mp hb ▸ ha)⟩
  subset := List.append_subset.mpr ⟨h.subset, by simpa using hx⟩
  count := by
    have hcount := h.count
    simp only [List.length_append, List.length_singleton]
    omega
  ends := by
    intro a ha
    rw [List.mem_append, List.mem_singleton] at ha
    rcases ha with ha | rfl
    · exact h.ends a ha
    · rw [hr]
      exact Option.some_ne_none r
  rows y := by
    by_cases hy : y = x
    · subst hy
      simp [hr]
    · simp [hy, h.rows y]
  early := by
    -- What is due now was due at the start, and none of it comes before `x`.
    intro a ha y hy hyp k' l hk' hl
    rw [List.mem_append, List.mem_singleton, not_or] at hyp
    rw [List.mem_append, List.mem_singleton] at ha
    rcases ha with ha | rfl
    · exact h.early a ha y hy hyp.1 k' l hk' hl
    · rw [h.due_eq hnew, hk'] at hk
      cases hk
      exact hleast y l ((h.due_eq hyp.1).trans hl)

theorem Handled.length_le (h : A.Handled start D left n rows past) : past.length ≤ D.length :=
  (h.nodup.subperm h.subset).length_le

theorem Handled.perm (h : A.Handled start D left n rows past) (hle : D.length ≤ past.length) :
    past.Perm D :=
  (h.nodup.subperm h.subset).perm_of_length_le hle

/-! ## Loops that come back to a row

Such a loop gets to every row, and to none twice, only if no row that waits again does so before
another one's turn.
-/

/-- What the rows are after each was handled once. -/
def Swept (A : Agenda ι ρ κ) (start : ι → Option ρ) (D : List ι) (rows : ι → Option ρ)
    (past : List ι) : Prop :=
  past.Perm D ∧ ∀ x, rows x = if x ∈ D then A.handle start x else start x

/-- No row breaks the loop off. A row that waits again does so in the last round only, and behind the
keys of all rows that wait with it. -/
def Fair (A : Agenda ι ρ κ) (start : ι → Option ρ) (D : List ι) (n : ℕ) : Prop :=
  (∀ x ∈ D, A.handle start x ≠ none) ∧
    ∀ x k k' r, A.due start [] x = some k → A.handle start x = some r → A.key r = some k' →
      n = D.length ∧ ∀ y l, y ≠ x → A.due start [] y = some l → k ≤ l → l < k'

theorem exists_not_mem (hnodup : D.Nodup) (hlt : past.length < D.length) : ∃ y ∈ D, y ∉ past := by
  by_contra hno
  push Not at hno
  have hle := (hnodup.subperm hno).length_le
  omega

theorem Fair.fresh (hfair : A.Fair start D n) (hagain : A.once = false)
    (hD : ∀ x, x ∈ D ↔ A.due start [] x ≠ none) (hnodup : D.Nodup)
    (h : A.Handled start D (left + 1) n rows past) {k : κ} (hk : A.due rows past x = some k)
    (hleast : ∀ y l, A.due rows past y = some l → k ≤ l) : x ∉ past := by
  intro hx
  obtain ⟨kx, hkx⟩ := Option.ne_none_iff_exists'.mp ((hD x).mp (h.subset hx))
  have hagain' : (A.handle start x).bind A.key = some k := by
    simpa [due, hagain, h.rows, hx] using hk
  obtain ⟨r, hr, hkr⟩ := Option.bind_eq_some_iff.mp hagain'
  obtain ⟨hlen, hbehind⟩ := hfair.2 x kx k r hkx hr hkr
  -- A row that waits since the start is behind `x`, and now `x` is not behind it.
  have hcount := h.count
  obtain ⟨y, hy, hyp⟩ : ∃ y ∈ D, y ∉ past := exists_not_mem hnodup (by omega)
  obtain ⟨l, hl⟩ := Option.ne_none_iff_exists'.mp ((hD y).mp hy)
  have hlt := hbehind y l (fun he => hyp (he ▸ hx)) hl (h.early x hx y hy hyp kx l hkx hl)
  exact absurd hlt (not_lt.mpr (hleast y l ((h.due_eq hyp).trans hl)))

theorem every_of_fair (hagain : A.once = false) (hD : ∀ x, x ∈ D ↔ A.due start [] x ≠ none)
    (hnodup : D.Nodup) (hn : D.length ≤ n) (hfair : A.Fair start D n) :
    A.Every (A.Swept start D) n start [] := by
  have hend : ∀ {left rows past}, A.Handled start D left n rows past → D.length ≤ past.length →
      A.Swept start D rows past := by
    intro left rows past h hle
    refine ⟨h.perm hle, fun x => ?_⟩
    rw [h.rows x]
    simp only [(h.perm hle).mem_iff]
  refine Every.of_inv (I := fun left rows past => A.Handled start D left n rows past) ?_ ?_ ?_
    Handled.init
  · intro rows past h
    refine hend h ?_
    -- All rounds are used up, so as many rows are handled.
    have hcount := h.count
    omega
  · intro left rows past h hnone
    refine hend h (hnodup.subperm fun x hx => ?_).length_le
    by_contra hxp
    rw [hD, ← h.due_eq hxp] at hx
    exact hx (hnone x)
  · intro left rows past x k h hk hleast
    have hnew := hfair.fresh hagain hD hnodup h hk hleast
    have hx : x ∈ D := by
      rw [hD, ← h.due_eq hnew, hk]
      exact Option.some_ne_none k
    obtain ⟨r, hr⟩ := Option.ne_none_iff_exists'.mp (hfair.1 x hx)
    refine ⟨r, ?_, h.next hx hnew hk hleast hr⟩
    rw [← hr, handle, handle, h.rows, if_neg hnew]

theorem Every.handles (h : A.Every Q n start []) (hfin : {x | start x ≠ none}.Finite)
    (hQ : ∀ rows past, Q rows past → x ∈ past) : A.handle start x ≠ none := by
  intro hbreak
  -- The loop takes `x` as soon as it can. If that breaks it off, no end has handled `x`.
  have hfollow := h.follow x (I := fun _ rows past => x ∉ past ∧ rows x = start x) hfin
    ⟨List.not_mem_nil, rfl⟩ ?_
  · obtain ⟨-, rows, past, ⟨hx, -⟩, hq, -⟩ := hfollow
    exact hx (hQ _ _ hq)
  · rintro left rows past z k r ⟨hx, hrows⟩ - - hr
    have hzx : x ≠ z := by
      rintro rfl
      rw [handle, hrows] at hr
      rw [handle, hr] at hbreak
      cases hbreak
    refine ⟨?_, ?_⟩
    · simp [hx, hzx]
    · simp [hzx, hrows]

theorem fair_of_every (hagain : A.once = false) (hfin : {x | start x ≠ none}.Finite)
    (hD : ∀ x, x ∈ D ↔ A.due start [] x ≠ none)
    (hidem : ∀ x r r', A.step x r = some r' → A.step x r' = some r')
    (h : A.Every (fun _ past => past.Perm D) n start []) : A.Fair start D n := by
  refine ⟨fun x hx => h.handles hfin fun _ _ hp => hp.mem_iff.mpr hx, ?_⟩
  intro x k k' r hk hr hk'
  have hdue : ∀ {rows} past, A.Between start rows x →
      A.due rows past x = some k ∨ A.due rows past x = some k' := by
    rintro rows past (hx | hx)
    · left
      simpa [due, hagain, hx] using hk
    · right
      simp [due, hagain, hx, hr, hk']
  constructor
  · -- `x` waits all the time, so the loop uses all its rounds.
    have hfollow := h.follow x
      (I := fun left rows past => A.Between start rows x ∧ past.length + left = n) hfin
      ⟨.inl rfl, Nat.zero_add n⟩ ?_
    · obtain ⟨left, rows, past, ⟨hbetween, hcount⟩, hperm, hend⟩ := hfollow
      rcases hend with rfl | hnone
      · rw [← hcount, hperm.length_eq, Nat.add_zero]
      · rcases hdue past hbetween with hd | hd
        all_goals
          rw [hnone x] at hd
          cases hd
    · rintro left rows past z k₁ r₁ ⟨hbetween, hcount⟩ - - hr₁
      refine ⟨hbetween.next hidem hr₁, ?_⟩
      simp only [List.length_append, List.length_singleton]
      omega
  · -- Wherever `x` can be next instead of `y`, take it.
    intro y l hyx hl hkl
    by_contra hle
    rw [not_lt] at hle
    have hfollow := h.follow x
      (I := fun _ rows past => A.Between start rows x ∧ y ∉ past ∧ rows y = start y) hfin
      ⟨.inl rfl, List.not_mem_nil, rfl⟩ ?_
    · obtain ⟨left, rows, past, ⟨-, hy, -⟩, hperm, -⟩ := hfollow
      refine hy (hperm.mem_iff.mpr ((hD y).mpr ?_))
      rw [hl]
      exact Option.some_ne_none l
    · rintro left rows past z k₁ r₁ ⟨hbetween, hy, hrows⟩ hz hpick hr₁
      have hzy : y ≠ z := by
        rintro rfl
        have hk₁ : k₁ = l := by
          simp only [due, hagain, hrows] at hz hl
          simpa using hz.symm.trans hl
        rcases hdue past hbetween with hd | hd
        all_goals
          rcases hpick _ hd with he | hlt
          · exact hyx he
          · order
      refine ⟨hbetween.next hidem hr₁, ?_, ?_⟩
      · simp [hy, hzy]
      · simp [hzy, hrows]

/-! ## Loops that pass over what they have handled -/

/-- Both rows wait, and `y` waits under the lesser key. -/
def Ahead (A : Agenda ι ρ κ) (start : ι → Option ρ) (y x : ι) : Prop :=
  ∃ k ∈ A.due start [] y, ∃ l ∈ A.due start [] x, k < l

instance (A : Agenda ι ρ κ) (start : ι → Option ρ) (y x : ι) : Decidable (A.Ahead start y x) := by
  unfold Ahead
  infer_instance

/-- The loop has handled as many rows as it could, soonest first. -/
def Picked (A : Agenda ι ρ κ) (start : ι → Option ρ) (D : List ι) (n : ℕ) (rows : ι → Option ρ)
    (past : List ι) : Prop :=
  past.length = min n D.length ∧ ∃ left, A.Handled start D left n rows past

/-- The rows that break the loop off have so many others ahead that the rounds do not get to them. -/
def OutOfReach (A : Agenda ι ρ κ) (start : ι → Option ρ) (D : List ι) (n : ℕ) : Prop :=
  ∀ x ∈ D, A.handle start x = none → n ≤ (D.filter (A.Ahead start · x)).length

theorem every_of_outOfReach (honce : A.once) (hD : ∀ x, x ∈ D ↔ A.due start [] x ≠ none)
    (hnodup : D.Nodup) (hreach : A.OutOfReach start D n) : A.Every (A.Picked start D n) n start [] := by
  refine Every.of_inv (I := fun left rows past => A.Handled start D left n rows past) ?_ ?_ ?_
    Handled.init
  · intro rows past h
    have hcount := h.count
    have hle := h.length_le
    exact ⟨by omega, 0, h⟩
  · intro left rows past h hnone
    have hall : D ⊆ past := by
      intro x hx
      by_contra hxp
      rw [hD, ← h.due_eq hxp] at hx
      exact hx (hnone x)
    have hcount := h.count
    have hle := h.length_le
    have hge := (hnodup.subperm hall).length_le
    exact ⟨by omega, left + 1, h⟩
  · intro left rows past x k h hk hleast
    obtain ⟨hnew, -⟩ := due_of_once honce hk
    have hk₀ := hk
    rw [h.due_eq hnew] at hk₀
    have hx : x ∈ D := by
      rw [hD, hk₀]
      exact Option.some_ne_none k
    cases hr : A.handle start x with
    | none =>
      -- What is ahead of `x` was all handled before, and that is too much.
      have hahead : D.filter (A.Ahead start · x) ⊆ past := by
        intro y hy
        obtain ⟨-, hlt⟩ := List.mem_filter.mp hy
        obtain ⟨l, hl, k', hk', hlt⟩ := of_decide_eq_true hlt
        rw [Option.mem_def, hk₀] at hk'
        cases hk'
        by_contra hyp
        exact absurd hlt (not_lt.mpr (hleast y l ((h.due_eq hyp).trans hl)))
      have hle := ((hnodup.filter _).subperm hahead).length_le
      have hge := hreach x hx hr
      have hcount := h.count
      omega
    | some r =>
      refine ⟨r, ?_, h.next hx hnew hk hleast hr⟩
      rw [← hr, handle, handle, h.rows, if_neg hnew]

theorem outOfReach_of_every (honce : A.once) (hfin : {x | start x ≠ none}.Finite)
    (hD : ∀ x, x ∈ D ↔ A.due start [] x ≠ none)
    (h : A.Every (fun _ past => past.Nodup ∧ past.length = min n D.length) n start []) :
    A.OutOfReach start D n := by
  intro x hx hbreak
  by_contra hlt
  rw [not_le] at hlt
  obtain ⟨kx, hkx⟩ := Option.ne_none_iff_exists'.mp ((hD x).mp hx)
  -- In the order that takes `x` as soon as it can, all that is handled is ahead of `x`: `x` itself
  -- would break the loop off.
  have hfollow := h.follow x
    (I := fun _ rows past => x ∉ past ∧ (∀ z, z ∉ past → rows z = start z) ∧
      past ⊆ D.filter (A.Ahead start · x)) hfin
    ⟨List.not_mem_nil, fun _ _ => rfl, List.nil_subset _⟩ ?_
  · obtain ⟨left, rows, past, ⟨-, -, hahead⟩, ⟨hpast, hlen⟩, -⟩ := hfollow
    have hle := (hpast.subperm hahead).length_le
    have hless : (D.filter (A.Ahead start · x)).length < D.length := by
      refine List.length_filter_lt_length_iff_exists.mpr ⟨x, hx, ?_⟩
      rw [decide_eq_true_eq]
      rintro ⟨k, hk, l, hl, hkl⟩
      rw [Option.mem_def, hkx] at hk hl
      cases hk
      cases hl
      exact lt_irrefl _ hkl
    omega
  · rintro left rows past z k r ⟨hxp, hrows, hahead⟩ hz hpick hr
    have hstart : ∀ {y}, y ∉ past → A.due rows past y = A.due start [] y := by
      intro y hy
      simp [due, hrows y hy, hy]
    obtain ⟨hzp, -⟩ := due_of_once honce hz
    rw [hstart hzp] at hz
    have hzx : z ≠ x := by
      rintro rfl
      rw [handle, hrows z hzp] at hr
      rw [handle, hr] at hbreak
      cases hbreak
    have hkz : k < kx := (hpick kx ((hstart hxp).trans hkx)).resolve_left hzx
    refine ⟨?_, ?_, ?_⟩
    · simp [hxp, hzx.symm]
    · intro y hy
      rw [List.mem_append, List.mem_singleton, not_or] at hy
      rw [Function.update_of_ne hy.2, hrows y hy.1]
    · refine List.append_subset.mpr ⟨hahead, ?_⟩
      refine List.cons_subset.mpr ⟨?_, List.nil_subset _⟩
      rw [List.mem_filter, decide_eq_true_eq, hD, hz]
      exact ⟨Option.some_ne_none k, k, hz, kx, hkx, hkz⟩

end

end Agenda

end Interleave
