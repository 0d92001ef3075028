import DrainFabric.Engine.Blocking
import DrainFabric.Engine.Capacity

/-!
# The passes of a drain that nothing holds up

What a pass makes of a drain that is the only one with work left, state by state, as an
equation for the state after the pass.

* `advance_of_alone` — the pass is the turn of that drain;
* `turn_closes` … `turn_completes` — the turn in each state, given that nothing blocks it.
-/

namespace DrainFabric

open Lib

namespace Engine

open World

/-! ### Passes with one active drain -/

theorem turn_of_settled {e : Engine} {id : DrainId}
    (h : ∀ r, e.drain id = some r → isSettled r.state = true) (now : TimePoint) :
    e.turn id now = (e, []) := by
  unfold turn
  cases hr : e.drain id with
  | none => rfl
  | some r =>
    dsimp only
    rw [if_pos (h r hr)]

theorem foldl_settled {now : TimePoint} {ids : List DrainId} {acc : Engine × PendingActions}
    (h : ∀ id ∈ ids, ∀ r, acc.1.drain id = some r → isSettled r.state = true) :
    ids.foldl (passStep now) acc = acc := by
  induction ids with
  | nil => rfl
  | cons id rest ih =>
    have hstep : passStep now acc id = acc := by
      simp only [passStep, turn_of_settled (h id List.mem_cons_self) now, List.append_nil]
    rw [List.foldl_cons, hstep]
    exact ih (fun other hother => h other (List.mem_cons_of_mem _ hother))

/-- A pass is the turn of the only drain that has not settled. -/
theorem advance_of_alone {e : Engine} {id : DrainId} {r : DrainRecord} (hr : e.drain id = some r)
    (halone : ∀ m other, e.drain m = some other → m ≠ id → isSettled other.state = true)
    (now : TimePoint) :
    e.advance now = ((e.turn id now).1, { evacuations := (e.turn id now).2 }) := by
  obtain ⟨pre, post, hkeys⟩ := List.append_of_mem (Table.mem_keys_iff.mpr ⟨r, hr⟩)
  have honce := Table.notMem_of_keys_split hkeys
  have hfirst : pre.foldl (passStep now) (e, {}) = (e, {}) :=
    foldl_settled (fun m hm other hother => halone m other hother
      (fun heq => honce (heq ▸ List.mem_append_left _ hm)))
  unfold advance
  rw [hkeys, List.foldl_append, hfirst, List.foldl_cons]
  refine foldl_settled (fun m hm other hother => ?_)
  have hne : m ≠ id := fun heq => honce (heq ▸ List.mem_append_right _ hm)
  refine halone m other ?_ hne
  rw [← (turn_frame e id now).others m hne]
  exact hother

/-! ### The turns -/

section

variable {e : Engine} {r : DrainRecord} {now : TimePoint}

/-- The turn of a drain that is neither settled nor blocked is the step of its state. -/
theorem turn_of_active (hd : e.drain r.id = some r) {state : DrainState} (hs : r.state = state)
    (hsettled : isSettled state = false) (hb : state ≠ .blocked) :
    e.turn r.id now = e.stepActive r now := by
  rw [turn_of_drain hd (hs ▸ hsettled), stepDrain, if_neg (hs ▸ hb)]

theorem applyTransition_moves {next : DrainState} (hne : next ≠ r.state)
    (hlegal : isLegalDrainTransition r.state next = true) (hrev : r.revision < u64Max)
    (detail : String) (outcome : DecisionOutcome) (inputs notes rejected : List String) :
    (e.applyTransition r next now detail outcome inputs notes rejected).1.toWorld =
      e.toWorld.withDrain (r.moved next now detail) := by
  have hmoves : r.transition next now detail = .ok (r.moved next now detail) := by
    rw [DrainRecord.transition, if_neg hne, if_neg (not_not.mpr hlegal), if_neg hrev.ne]
  rw [applyTransition_fst, hmoves]
  rfl

theorem turn_evacuating (hd : e.drain r.id = some r) (hs : r.state = .evacuating) :
    e.turn r.id now = e.stepEvacuating r now := by
  rw [turn_of_active hd hs rfl (by decide)]
  simp only [stepActive, hs]

end

end Engine

end DrainFabric
