import DrainFabric.Lib.Run
import Mathlib.Data.List.TakeWhile

/-!
# Traces with a hidden state

Every step of a machine may pass through several states of interest; the trace of a run
lists those of its steps one after the other. An observer who does not see one of the
states, and does not notice when a state repeats, sees the path that `erase` computes.

* `trace_invariant` — what every step keeps of the trace so far;
* `erase_concat`, `getLast?_visit` — how the path grows;
* `Returns`, `returns_concat` — whoever was hidden comes back where it was.
-/

namespace Lib

section Trace

variable {S E A : Type*} {fire : S → E → S} {out : S → E → List A}

/-- What the steps of a run pass through, in their order. -/
def trace (fire : S → E → S) (out : S → E → List A) : S → List E → List A
  | _, [] => []
  | s, ev :: rest => out s ev ++ trace fire out (fire s ev) rest

theorem trace_append (s : S) (a b : List E) :
    trace fire out s (a ++ b) = trace fire out s a ++ trace fire out (run fire s a) b := by
  induction a generalizing s with
  | nil => rfl
  | cons ev rest ih => rw [List.cons_append, trace, ih, trace, List.append_assoc, run_cons]

/-- The invariant rule for a state and the trace that led to it. -/
theorem trace_invariant {C : S → E → Prop} {P : List A → S → Prop}
    (hstep : ∀ l s ev, P l s → C s ev → P (l ++ out s ev) (fire s ev)) {l : List A} {s : S}
    {events : List E} (hs : P l s) (h : Always fire C s events) :
    P (l ++ trace fire out s events) (run fire s events) := by
  induction events generalizing l s with
  | nil =>
    rw [trace, List.append_nil]
    exact hs
  | cons ev rest ih =>
    rw [trace, ← List.append_assoc]
    exact ih (hstep l s ev hs h.1) h.2

end Trace

section Erase

variable {A : Type*} {hidden : A}

/-- Whoever leaves the hidden state for one that counts is back where it was before. -/
def Returns (hidden : A) (counts : A → Prop) (states : List A) : Prop :=
  ∀ pre s k s' post, states = pre ++ s :: (List.replicate (k + 1) hidden ++ s' :: post) →
    s ≠ hidden → s' ≠ hidden → counts s' → s' = s

theorem returns_nil (counts : A → Prop) : Returns hidden counts [] := by
  intro pre s k s' post h
  cases pre <;> cases h

variable [DecidableEq A]

/-- The path after another state: it is not seen if it is hidden or still the same. -/
def visit (hidden : A) (path : List A) (s : A) : List A :=
  if s = hidden ∨ path.getLast? = some s then path else path ++ [s]

/-- The path that is seen of a list of states. -/
def erase (hidden : A) (states : List A) : List A := states.foldl (visit hidden) []

theorem erase_concat (states : List A) (s : A) :
    erase hidden (states ++ [s]) = visit hidden (erase hidden states) s := by
  rw [erase, List.foldl_append]
  rfl

theorem getLast?_visit {s : A} (hs : s ≠ hidden) (path : List A) :
    (visit hidden path s).getLast? = some s := by
  unfold visit
  split_ifs with hsame
  · exact hsame.resolve_left hs
  · rw [List.getLast?_concat]

theorem length_visit_le (path : List A) (s : A) :
    (visit hidden path s).length ≤ path.length + 1 := by
  unfold visit
  split_ifs
  · exact Nat.le_succ _
  · rw [List.length_append]
    rfl

/-- Hidden states do not change the path. -/
theorem erase_replicate (states : List A) (k : ℕ) :
    erase hidden (states ++ List.replicate k hidden) = erase hidden states := by
  induction k with
  | zero => rw [List.replicate_zero, List.append_nil]
  | succ k ih =>
    rw [List.replicate_succ', ← List.append_assoc, erase_concat, ih]
    exact if_pos (Or.inl rfl)

theorem returns_concat {counts : A → Prop} {states : List A} {next : A}
    (h : Returns hidden counts states)
    (hnext : states.getLast? = some hidden → next ≠ hidden → counts next →
      (erase hidden states).getLast? = some next) :
    Returns hidden counts (states ++ [next]) := by
  intro pre s k s' post heq hs hs' hcounts
  rcases List.eq_nil_or_concat post with rfl | ⟨post, last, rfl⟩
  · -- The state left last is the one before the hidden ones.
    have hsplit : states ++ [next] = (pre ++ s :: List.replicate (k + 1) hidden) ++ [s'] := by
      rw [heq]
      simp
    obtain ⟨rfl, hlast⟩ := List.append_inj' hsplit rfl
    obtain rfl : next = s' := by simpa using hlast
    have hhidden : (pre ++ s :: List.replicate (k + 1) hidden).getLast? = some hidden := by
      rw [List.replicate_succ', List.cons_append.symm, ← List.append_assoc, List.getLast?_concat]
    have hpath : (erase hidden (pre ++ s :: List.replicate (k + 1) hidden)).getLast? = some s := by
      have hsame : pre ++ s :: List.replicate (k + 1) hidden =
          (pre ++ [s]) ++ List.replicate (k + 1) hidden := by simp
      rw [hsame, erase_replicate, erase_concat]
      exact getLast?_visit hs _
    have hback := hnext hhidden hs' hcounts
    rw [hpath] at hback
    exact (Option.some.inj hback).symm
  · have hsplit : states ++ [next] =
        (pre ++ s :: (List.replicate (k + 1) hidden ++ s' :: post)) ++ [last] := by
      rw [heq]
      simp
    obtain ⟨hstates, -⟩ := List.append_inj' hsplit rfl
    exact h pre s k s' post hstates hs hs' hcounts

end Erase

end Lib
