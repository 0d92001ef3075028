import Mathlib.Init

/-!
# Bounded loops that can fail

A round of a loop fails, goes on from a new state or leaves with a value. The number of
rounds is bounded; `loop_measure` says when the bound is never felt.

* `loop_next`, `loop_leave` — one round at a time;
* `loop_invariant` — what every round keeps holds when the loop leaves.
-/

namespace Lib

universe u v w

variable {S : Type u} {A : Type v} {E : Type w}

/-- At most `rounds` rounds from `s`; `spent` when they did not suffice. -/
def loop (round : S → Except E (S ⊕ A)) (spent : E) : (rounds : Nat) → S → Except E A
  | 0, _ => .error spent
  | rounds + 1, s =>
    match round s with
    | .error err => .error err
    | .ok (.inl s') => loop round spent rounds s'
    | .ok (.inr a) => .ok a

variable {round : S → Except E (S ⊕ A)} {spent : E} {rounds : Nat} {s s' : S} {a : A}

theorem loop_next (h : round s = .ok (.inl s')) :
    loop round spent (rounds + 1) s = loop round spent rounds s' := by
  rw [loop, h]

theorem loop_leave (h : round s = .ok (.inr a)) : loop round spent (rounds + 1) s = .ok a := by
  rw [loop, h]

theorem loop_congr (h : round s = round s') :
    loop round spent rounds s = loop round spent rounds s' := by
  cases rounds with
  | zero => rfl
  | succ rounds => rw [loop, loop, h]

/-- The round a loop leaves in starts from a state that has what every round keeps. -/
theorem loop_invariant {P : S → Prop} (hkeep : ∀ s s', P s → round s = .ok (.inl s') → P s')
    (hs : P s) (h : loop round spent rounds s = .ok a) : ∃ s', P s' ∧ round s' = .ok (.inr a) := by
  induction rounds generalizing s with
  | zero => cases h
  | succ rounds ih =>
    rw [loop] at h
    rcases hround : round s with err | s' | b
    · rw [hround] at h
      cases h
    · rw [hround] at h
      exact ih (hkeep s s' hs hround) h
    · rw [hround] at h
      cases h
      exact ⟨s, hs, hround⟩

/-- With a measure that every round lowers, any two bounds above it give the same. -/
theorem loop_measure {μ : S → Nat} (hlower : ∀ s s', round s = .ok (.inl s') → μ s' < μ s)
    {rounds' : Nat} (h : μ s < rounds) (h' : μ s < rounds') :
    loop round spent rounds s = loop round spent rounds' s := by
  induction rounds generalizing s rounds' with
  | zero => omega
  | succ rounds ih =>
    obtain ⟨rounds', rfl⟩ : ∃ k, rounds' = k + 1 := ⟨rounds' - 1, by omega⟩
    rw [loop, loop]
    rcases hround : round s with err | s' | b
    · rfl
    · have hlt := hlower s s' hround
      exact ih (by omega) (by omega)
    · rfl

end Lib
