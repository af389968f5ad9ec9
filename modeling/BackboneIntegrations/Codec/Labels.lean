import Mathlib.Data.List.Basic

/-!
# Names and their labels

A name is a list of labels with separators between them. A name ends in a separator and another name
exactly when its labels end in the labels of the other one.
-/

namespace Codec

variable {α : Type} {sep : α} {s t : List α}

theorem intercalate_append {ls ms : List (List α)} (hl : ls ≠ []) (hm : ms ≠ []) :
    [sep].intercalate (ls ++ ms) = [sep].intercalate ls ++ sep :: [sep].intercalate ms := by
  induction ls with
  | nil => exact absurd rfl hl
  | cons l ls ih =>
    cases ls with
    | nil =>
      cases ms with
      | nil => exact absurd rfl hm
      | cons m ms => simp [List.intercalate]
    | cons l' ls =>
      have htail := ih (List.cons_ne_nil _ _)
      simp only [List.intercalate, List.cons_append, List.intersperse_cons_cons,
        List.flatten_cons] at htail ⊢
      rw [htail]
      simp

variable [BEq α] [LawfulBEq α]

theorem splitOn_injective (h : s.splitOn sep = t.splitOn sep) : s = t := by
  have hs : [sep].intercalate (s.splitOn sep) = s := List.intercalate_splitOn sep
  rw [← hs, h, List.intercalate_splitOn]

/-- A list ends in `sep` and `t`, or it is `t`, exactly when its parts end in the parts of `t`. -/
theorem suffix_iff_splitOn : (s = t ∨ (sep :: t) <:+ s) ↔ t.splitOn sep <:+ s.splitOn sep := by
  constructor
  · rintro (rfl | ⟨u, rfl⟩)
    · exact List.suffix_refl _
    · exact ⟨u.splitOn sep, (List.splitOn_append_cons_self u t).symm⟩
  · rintro ⟨ls, hls⟩
    cases hl : ls with
    | nil =>
      rw [hl, List.nil_append] at hls
      exact .inl (splitOn_injective hls).symm
    | cons l ls' =>
      right
      have hne : ls ≠ [] := by simp [hl]
      have hs : [sep].intercalate (s.splitOn sep) = s := List.intercalate_splitOn sep
      rw [← hls, intercalate_append hne (List.splitOn_ne_nil sep t), List.intercalate_splitOn] at hs
      exact ⟨_, hs⟩

end Codec
