import Mathlib.Data.List.TakeWhile

/-!
# Cutting a list at a separator

`cut` finds the first separator. It undoes joining with the separator exactly when the first
part is free of it (`cut_eq_some`).
-/

namespace Lib

variable {α : Type*} [DecidableEq α] {sep : α} {text left rest : List α}

/-- What stands before the first separator, and what stands behind it. -/
def cut (sep : α) (text : List α) : Option (List α × List α) :=
  match text.dropWhile (· != sep) with
  | [] => none
  | _ :: rest => some (text.takeWhile (· != sep), rest)

theorem cut_append (h : sep ∉ left) (rest : List α) :
    cut sep (left ++ sep :: rest) = some (left, rest) := by
  have hleft : ∀ a ∈ left, (a != sep) = true := fun a ha => by
    rw [bne_iff_ne]
    rintro rfl
    exact h ha
  rw [cut, List.takeWhile_append_of_pos hleft, List.dropWhile_append_of_pos hleft]
  simp

theorem cut_eq_some :
    cut sep text = some (left, rest) ↔ sep ∉ left ∧ text = left ++ sep :: rest := by
  constructor
  · intro h
    unfold cut at h
    have hwhole := List.takeWhile_append_dropWhile (p := (· != sep)) (l := text)
    cases hdrop : text.dropWhile (· != sep) with
    | nil => simp [hdrop] at h
    | cons a tail =>
      simp only [hdrop, Option.some.injEq, Prod.mk.injEq] at h
      obtain ⟨rfl, rfl⟩ := h
      have hsep : a = sep := by
        have hhead := List.head_dropWhile_not (· != sep) (l := text) (by simp [hdrop])
        simpa [hdrop] using hhead
      refine ⟨fun hmem => ?_, ?_⟩
      · simpa using List.mem_takeWhile_imp hmem
      · rw [hdrop, hsep] at hwhole
        exact hwhole.symm
  · rintro ⟨hleft, rfl⟩
    exact cut_append hleft rest

end Lib
