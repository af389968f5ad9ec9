import Mathlib.Data.List.AList
import BackboneIntegrations.Interleave.Pool

/-!
# Tables, row locks and open transactions

A table has at most one row for each key. A transaction keeps its writes to itself until
it commits, and it holds the lock of every row that it wrote or claimed.
-/

namespace Interleave

variable {κ ρ ω : Type}

abbrev Table (κ ρ : Type) := AList fun _ : κ => ρ

namespace Table

variable [DecidableEq κ]

/-- The rows of a table, in no special order. -/
def rows (T : Table κ ρ) : List ρ := T.entries.map Sigma.snd

theorem lookup_insert_ite (T : Table κ ρ) (k k' : κ) (r : ρ) :
    (T.insert k r).lookup k' = if k' = k then some r else T.lookup k' := by
  split
  · subst_vars
    exact AList.lookup_insert T
  · exact AList.lookup_insert_ne ‹_›

theorem lookup_erase_ite (T : Table κ ρ) (k k' : κ) :
    (T.erase k).lookup k' = if k' = k then none else T.lookup k' := by
  split
  · subst_vars
    exact AList.lookup_erase _ T
  · exact AList.lookup_erase_ne ‹_›

theorem mem_rows (T : Table κ ρ) (r : ρ) : r ∈ rows T ↔ ∃ k, T.lookup k = some r := by
  simp only [rows, List.mem_map, Sigma.exists]
  constructor
  · rintro ⟨k, r', h, rfl⟩
    exact ⟨k, AList.mem_lookup_iff.mpr h⟩
  · rintro ⟨k, h⟩
    exact ⟨k, r, AList.mem_lookup_iff.mp h, rfl⟩

end Table

structure Txs (κ ω : Type) where
  holder : κ → Option Tid
  writes : Tid → List ω

namespace Txs

def empty : Txs κ ω := ⟨fun _ => none, fun _ => []⟩

/-- No other transaction holds the row. -/
def FreeFor (T : Txs κ ω) (t : Tid) (k : κ) : Prop := T.holder k = none ∨ T.holder k = some t

instance (T : Txs κ ω) (t : Tid) (k : κ) : Decidable (T.FreeFor t k) :=
  inferInstanceAs (Decidable (_ ∨ _))

def lock [DecidableEq κ] (T : Txs κ ω) (t : Tid) (k : κ) : Txs κ ω :=
  { T with holder := Function.update T.holder k (some t) }

def push (T : Txs κ ω) (t : Tid) (w : ω) : Txs κ ω :=
  { T with writes := Function.update T.writes t (T.writes t ++ [w]) }

/-- The transaction of `t` is over: its locks and its writes are gone. -/
def clear (T : Txs κ ω) (t : Tid) : Txs κ ω where
  holder k := if T.holder k = some t then none else T.holder k
  writes := Function.update T.writes t []

variable {T : Txs κ ω} {t u : Tid} {k k' : κ} {w : ω}

@[simp] theorem empty_holder : (empty : Txs κ ω).holder k = none := rfl
@[simp] theorem empty_writes : (empty : Txs κ ω).writes t = [] := rfl
@[simp] theorem lock_writes [DecidableEq κ] : (T.lock t k).writes = T.writes := rfl
@[simp] theorem push_holder : (T.push t w).holder = T.holder := rfl
@[simp] theorem clear_writes_self : (T.clear t).writes t = [] := Function.update_self ..
@[simp] theorem push_writes_self : (T.push t w).writes t = T.writes t ++ [w] :=
  Function.update_self ..

theorem clear_writes_ne (h : u ≠ t) : (T.clear t).writes u = T.writes u :=
  Function.update_of_ne h ..

theorem push_writes_ne (h : u ≠ t) : (T.push t w).writes u = T.writes u :=
  Function.update_of_ne h ..

theorem mem_clear_writes : w ∈ (T.clear t).writes u ↔ u ≠ t ∧ w ∈ T.writes u := by
  by_cases h : u = t
  · subst h
    simp
  · simp [clear_writes_ne h, h]

theorem mem_push_writes {w' : ω} :
    w' ∈ (T.push t w).writes u ↔ w' ∈ T.writes u ∨ u = t ∧ w' = w := by
  by_cases h : u = t
  · subst h
    simp
  · simp [push_writes_ne h, h]

theorem lock_holder [DecidableEq κ] :
    (T.lock t k).holder k' = if k' = k then some t else T.holder k' := by
  simp only [lock, Function.update_apply]

theorem clear_holder_iff : (T.clear t).holder k = some u ↔ T.holder k = some u ∧ u ≠ t := by
  simp only [clear]
  split
  · rename_i h
    simp only [h, reduceCtorEq, Option.some.injEq, ne_eq, false_iff, not_and, not_not]
    exact Eq.symm
  · rename_i h
    refine ⟨fun hu => ⟨hu, ?_⟩, And.left⟩
    rintro rfl
    exact h hu

end Txs

end Interleave
