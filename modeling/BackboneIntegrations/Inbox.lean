import Mathlib.Data.List.Basic
import Mathlib.Logic.Function.Basic

/-!
# An inbox that settles each message once

Messages come under keys. The first one under a key is booked, and then it is settled: done with a
result, dropped, or failed. A failed message can be done later, or be dropped. Each settlement sends a
notice, but the late drop of a failed message does not.
-/

/-- What became of a message. -/
inductive Inbox.Verdict (R : Type) where
  | done (r : R)
  | dropped
  | failed

inductive Inbox.Phase (R : Type) where
  | booked
  | settled (v : Inbox.Verdict R)

/-- The entries under their keys, and the notices that were sent. -/
structure Inbox (K D R : Type) where
  entry : K → Option (D × Inbox.Phase R)
  notices : List (K × Inbox.Verdict R)

namespace Inbox

variable {K D R : Type}

def empty : Inbox K D R := ⟨fun _ => none, []⟩

def phase (s : Inbox K D R) (k : K) : Option (Phase R) := (s.entry k).map (·.2)

def tell (s : Inbox K D R) (k : K) (v : Verdict R) : Inbox K D R :=
  { s with notices := s.notices ++ [(k, v)] }

variable [DecidableEq K]

def put (s : Inbox K D R) (k : K) (d : D) (p : Phase R) : Inbox K D R :=
  { s with entry := Function.update s.entry k (some (d, p)) }

inductive Step : Inbox K D R → Inbox K D R → Prop
  | book {s k d} (h : s.entry k = none) : Step s (s.put k d .booked)
  | settle {s k d v} (h : s.entry k = some (d, .booked)) :
    Step s ((s.put k d (.settled v)).tell k v)
  | redo {s k d r} (h : s.entry k = some (d, .settled .failed)) :
    Step s ((s.put k d (.settled (.done r))).tell k (.done r))
  | drop {s k d} (h : s.entry k = some (d, .settled .failed)) :
    Step s (s.put k d (.settled .dropped))

/-! ## What was said of a message -/

/-- The notices of one key, oldest first. -/
def told (s : Inbox K D R) (k : K) : List (Verdict R) :=
  (s.notices.filter fun n => n.1 = k).map (·.2)

section

variable {s s' : Inbox K D R} {k k' : K} {d : D} {p : Phase R} {v : Verdict R}

theorem entry_put : (s.put k d p).entry k' = if k' = k then some (d, p) else s.entry k' := by
  unfold put
  exact Function.update_apply ..

theorem put_of_entry (h : s.entry k = some (d, p)) : s.put k d p = s := by
  unfold put
  rw [← h, Function.update_eq_self]

end

end Inbox
