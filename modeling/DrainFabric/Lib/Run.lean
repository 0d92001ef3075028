import Mathlib.Data.List.Induction
import Mathlib.Order.Defs.PartialOrder

/-!
# Runs of a deterministic machine

A machine is given by `fire : S → E → S`, the state it moves to on an event. A run
is a list of events taken from a start state. Conditions on a run are conditions
on each of its steps: `Always fire C s events` says that every event meets `C` in
the state it is taken in.

* `run_invariant` — what every allowed step preserves holds at the end of the run;
* `run_ordered` — the same along a clock that never goes back;
* `exists_last_rise` — if something became true along a run, there is a last event
  that made it true, and it has been true ever since;
* `pairwise_outputs` — how two reports of one run are related, from what a report says
  about the states behind it.
-/

namespace Lib

variable {S E : Type*}

/-- The state after a list of events. -/
def run (fire : S → E → S) (s : S) (events : List E) : S := events.foldl fire s

/-- Every event of the list meets `C` in the state it is taken in. -/
def Always (fire : S → E → S) (C : S → E → Prop) : S → List E → Prop
  | _, [] => True
  | s, ev :: rest => C s ev ∧ Always fire C (fire s ev) rest

instance Always.decidable {fire : S → E → S} {C : S → E → Prop}
    [∀ s ev, Decidable (C s ev)] : ∀ s events, Decidable (Always fire C s events)
  | _, [] => .isTrue trivial
  | s, ev :: rest =>
    have : Decidable (Always fire C (fire s ev) rest) := Always.decidable (fire s ev) rest
    inferInstanceAs (Decidable (C s ev ∧ Always fire C (fire s ev) rest))

variable {fire : S → E → S} {C : S → E → Prop}

@[simp] theorem run_nil (s : S) : run fire s [] = s := rfl

@[simp] theorem run_cons (s : S) (ev : E) (rest : List E) :
    run fire s (ev :: rest) = run fire (fire s ev) rest := rfl

theorem run_append (s : S) (a b : List E) : run fire s (a ++ b) = run fire (run fire s a) b :=
  List.foldl_append

theorem run_concat (s : S) (a : List E) (ev : E) :
    run fire s (a ++ [ev]) = fire (run fire s a) ev := by
  rw [run_append, run_cons, run_nil]

theorem always_append {s : S} {a b : List E} :
    Always fire C s (a ++ b) ↔ Always fire C s a ∧ Always fire C (run fire s a) b := by
  induction a generalizing s with
  | nil => simp [Always]
  | cons ev rest ih => simp only [List.cons_append, Always, ih, run_cons, and_assoc]

/-- The condition of a step in the middle of a run. -/
theorem Always.at_split {s : S} {pre post : List E} {ev : E}
    (h : Always fire C s (pre ++ ev :: post)) : C (run fire s pre) ev :=
  (always_append.mp h).2.1

theorem always_of_forall {events : List E} (h : ∀ ev ∈ events, ∀ s, C s ev) (s : S) :
    Always fire C s events := by
  induction events generalizing s with
  | nil => trivial
  | cons ev rest ih =>
    exact ⟨h ev List.mem_cons_self s, ih (fun ev' hev' => h ev' (List.mem_cons_of_mem _ hev')) _⟩

theorem Always.and {D : S → E → Prop} {s : S} {events : List E} (h : Always fire C s events)
    (h' : Always fire D s events) : Always fire (fun s ev => C s ev ∧ D s ev) s events := by
  induction events generalizing s with
  | nil => trivial
  | cons ev rest ih => exact ⟨⟨h.1, h'.1⟩, ih h.2 h'.2⟩

/-- The invariant rule. -/
theorem run_invariant {P : S → Prop} (hstep : ∀ s ev, P s → C s ev → P (fire s ev)) {s : S}
    {events : List E} (hs : P s) (h : Always fire C s events) : P (run fire s events) := by
  induction events generalizing s with
  | nil => exact hs
  | cons ev rest ih => exact ih (hstep s ev hs h.1) h.2

/-- The invariant rule where every step is allowed. -/
theorem run_preserves {P : S → Prop} (hstep : ∀ s ev, P s → P (fire s ev)) {s : S} (hs : P s)
    (events : List E) : P (run fire s events) :=
  run_invariant (C := fun _ _ => True) (fun s ev h _ => hstep s ev h) hs
    (always_of_forall (fun _ _ _ => trivial) s)

/-- The invariant rule for events at ordered times: `P` is about a clock as well, which
every event sets to its own time. -/
theorem run_ordered {T : Type*} [Preorder T] {time : E → T} {P : T → S → Prop}
    (hlater : ∀ clock later s, clock ≤ later → P clock s → P later s)
    (hstep : ∀ clock s ev, P clock s → C s ev → clock ≤ time ev → P (time ev) (fire s ev))
    {clock bound : T} {s : S} {events : List E} (hs : P clock s) (h : Always fire C s events)
    (hordered : events.Pairwise (fun a b => time a ≤ time b))
    (htimes : ∀ ev ∈ events, clock ≤ time ev ∧ time ev ≤ bound) (hbound : clock ≤ bound) :
    P bound (run fire s events) := by
  induction events generalizing s clock with
  | nil => exact hlater clock bound s hbound hs
  | cons ev rest ih =>
    obtain ⟨hclock, hlast⟩ := htimes ev List.mem_cons_self
    rw [List.pairwise_cons] at hordered
    exact ih (hstep clock s ev hs h.1 hclock) h.2 hordered.2
      (fun ev' hev' => ⟨hordered.1 ev' hev', (htimes ev' (List.mem_cons_of_mem _ hev')).2⟩) hlast

/-- The last event that made `Q` true. -/
theorem exists_last_rise {Q : S → Prop} {s : S} {events : List E} (hs : ¬ Q s)
    (h : Q (run fire s events)) :
    ∃ pre ev post, events = pre ++ ev :: post ∧ ¬ Q (run fire s pre) ∧
      ∀ since, since <+: post → Q (run fire s (pre ++ ev :: since)) := by
  induction events using List.reverseRecOn with
  | nil => exact absurd h hs
  | append_singleton front last ih =>
    by_cases hfront : Q (run fire s front)
    · obtain ⟨pre, ev, post, rfl, hpre, hsince⟩ := ih hfront
      refine ⟨pre, ev, post ++ [last], by simp, hpre, fun since hprefix => ?_⟩
      rcases List.prefix_concat_iff.mp hprefix with rfl | hprefix
      · simpa using h
      · exact hsince since hprefix
    · refine ⟨front, last, [], rfl, hfront, fun since hprefix => ?_⟩
      rw [List.prefix_nil.mp hprefix]
      exact h

/-! ### What the steps of a run report -/

section Outputs

variable {A : Type*} {out : S → E → Option A}

/-- The reports of the steps, in their order. -/
def outputs (fire : S → E → S) (out : S → E → Option A) : S → List E → List A
  | _, [] => []
  | s, ev :: rest => (out s ev).toList ++ outputs fire out (fire s ev) rest

theorem outputs_concat (s : S) (events : List E) (ev : E) :
    outputs fire out s (events ++ [ev]) =
      outputs fire out s events ++ (out (run fire s events) ev).toList := by
  induction events generalizing s with
  | nil => simp [outputs]
  | cons first rest ih => rw [List.cons_append, outputs, ih, outputs, List.append_assoc, run_cons]

theorem mem_outputs {s : S} {events : List E} {a : A} (h : a ∈ outputs fire out s events) :
    ∃ pre ev post, events = pre ++ ev :: post ∧ out (run fire s pre) ev = some a := by
  induction events generalizing s with
  | nil => cases h
  | cons ev rest ih =>
    rcases List.mem_append.mp h with hhere | hlater
    · exact ⟨[], ev, rest, rfl, Option.mem_toList.mp hhere⟩
    · obtain ⟨pre, ev', post, rfl, hout⟩ := ih hlater
      exact ⟨ev :: pre, ev', post, rfl, hout⟩

/-- `Q a s` is what a report `a` leaves true, in every state behind it. -/
theorem pairwise_outputs {R : A → A → Prop} {P : S → Prop} {Q : A → S → Prop}
    (hstep : ∀ s ev, P s → C s ev → P (fire s ev))
    (hnew : ∀ s ev a, P s → C s ev → out s ev = some a → Q a (fire s ev))
    (hkeep : ∀ s ev a, C s ev → Q a s → Q a (fire s ev))
    (hrel : ∀ s ev a b, C s ev → Q a s → out s ev = some b → R a b) {s : S} {events : List E}
    (hs : P s) (h : Always fire C s events) : (outputs fire out s events).Pairwise R := by
  have hlater : ∀ a s events, Q a s → Always fire C s events →
      ∀ b ∈ outputs fire out s events, R a b := by
    intro a s events hq hall b hb
    obtain ⟨pre, ev, post, rfl, hout⟩ := mem_outputs hb
    have hpre := run_invariant (fun s ev hs hc => hkeep s ev a hc hs) hq
      (always_append.mp hall).1
    exact hrel _ ev a b hall.at_split hpre hout
  induction events generalizing s with
  | nil => exact List.Pairwise.nil
  | cons ev rest ih =>
    have hrest := ih (hstep s ev hs h.1) h.2
    rw [outputs]
    cases hout : out s ev with
    | none => exact hrest
    | some a =>
      exact List.Pairwise.cons (hlater a _ rest (hnew s ev a hs h.1 hout) h.2) hrest

end Outputs

end Lib
