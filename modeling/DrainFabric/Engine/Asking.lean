import DrainFabric.Engine.Blocking

/-!
# The turn that asks for evacuations

Requests are issued in one branch of one step: the drain is `Evacuating`, possibly since
earlier in the same turn, something still has to be moved, nothing blocks it, and this is
its first attempt or the retry is due.

* `Asking` — all of that, about the engine the step is taken in;
* `stepActive_of_asking` — the step then issues `requestsFor` and dates the attempt;
* `turn_asking` — a turn that issues requests takes such a step.
-/

namespace DrainFabric

open Lib

variable {q : EvacuationRequest}

namespace World

/-- The requests of an attempt: one for each obligation that still has to be moved. -/
def requestsFor (w : World) (r : DrainRecord) (now : TimePoint) : List EvacuationRequest :=
  ((w.outstandingFor r.target).filter isMoving).map
    (Engine.evacuationRequest w r ((r.evacuationRequests + 1) % 2 ^ 32) now)

theorem nodup_outstandingFor (w : World) (target : DrainTarget) :
    ((w.outstandingFor target).map Obligation.id).Nodup :=
  w.obligations.obligations.nodup_keys_filter _

/-- No two requests of an attempt are for the same obligation. -/
theorem nodup_requestsFor (w : World) (r : DrainRecord) (now : TimePoint) :
    ((w.requestsFor r now).map EvacuationRequest.obligation).Nodup := by
  rw [requestsFor, List.map_map]
  exact (List.filter_sublist.map _).nodup (w.nodup_outstandingFor r.target)

/-- The evacuating drain makes an attempt. -/
structure Asking (w : World) (r : DrainRecord) (now : TimePoint) : Prop where
  state : r.state = .evacuating
  moving : (w.outstandingFor r.target).any isMoving = true
  clear : w.evaluateEvacuation r now = []
  due : r.evacuationRequests = 0 ∨
    saturatingAdd r.lastEvacuationAt w.policy.evacuationRetryInterval ≤ now

end World

namespace Engine

open World

section

variable {e : Engine} {r : DrainRecord} {now : TimePoint}

theorem stepActive_of_asking (h : e.Asking r now) :
    (e.stepActive r now).1.toWorld = e.toWorld.withDrain (r.noteEvacuationAttempt now) ∧
      (e.stepActive r now).2 = e.requestsFor r now := by
  have hdue : ¬ (r.evacuationRequests ≠ 0 ∧
      ¬ now ≥ saturatingAdd r.lastEvacuationAt e.policy.evacuationRetryInterval) := by
    rintro ⟨hcounted, hearly⟩
    exact h.due.elim hcounted hearly
  simp only [stepActive, h.state, stepEvacuating, h.moving, h.clear, not_true_eq_false, if_false,
    List.isEmpty_nil, if_neg hdue]
  exact ⟨rfl, rfl⟩

theorem asking_of_stepEvacuating (hs : r.state = .evacuating)
    (hq : q ∈ (e.stepEvacuating r now).2) : e.Asking r now := by
  simp only [stepEvacuating] at hq
  split_ifs at hq with hmoving hblocked hwait
  · cases hq
  · refine ⟨hs, hmoving, List.isEmpty_iff.mp hblocked, ?_⟩
    rw [not_and_or, not_not, not_not] at hwait
    exact hwait
  · cases hq
  · cases hq

/-- A step issues requests in `Evacuating` only. -/
theorem asking_of_stepActive (hq : q ∈ (e.stepActive r now).2) : e.Asking r now := by
  unfold stepActive at hq
  cases hs : r.state <;> rw [hs] at hq
  case evacuating => exact asking_of_stepEvacuating hs hq
  all_goals cases hq

/-- A turn that issues requests makes an attempt with the drain as it stands, or as it
was resumed. -/
theorem turn_asking {id : DrainId} (hq : q ∈ (e.turn id now).2) :
    ∃ r r₁, e.drain id = some r ∧
      (r₁ = r ∨ r₁ = r.moved r.phase now "blockers cleared") ∧ r.phase = .evacuating ∧
      (e.toWorld.withDrain r₁).Asking r₁ now ∧
      (e.turn id now).1.toWorld = e.toWorld.withDrain (r₁.noteEvacuationAttempt now) ∧
      (e.turn id now).2 = (e.toWorld.withDrain r₁).requestsFor r₁ now := by
  cases hr : e.drain id with
  | none =>
    simp only [turn, hr] at hq
    cases hq
  | some r =>
    obtain rfl := id_of_drain hr
    refine ⟨r, ?_⟩
    by_cases hset : isSettled r.state = true
    · simp only [turn, hr, if_pos hset] at hq
      cases hq
    rw [Bool.not_eq_true] at hset
    by_cases hb : r.state = .blocked
    · rcases hres : e.resumeBlocked r now with ⟨e₁, _ | r₁⟩
      · rw [turn_of_drain hr hset] at hq
        simp only [stepDrain, if_pos hb, hres] at hq
        cases hq
      · rw [turn_of_resumed hr hb hres] at hq ⊢
        have hask := asking_of_stepActive hq
        obtain ⟨-, -, -, hr₁, hworld⟩ := resumeBlocked_some hr hb hres (by rw [hask.state]; decide)
        have hphase : r.phase = .evacuating := by
          rw [← hask.state, hr₁]
          rfl
        rw [revalidationLedger_of_ne (by rw [hphase]; decide)] at hworld
        have hworld : e₁.toWorld = e.toWorld.withDrain r₁ := hworld
        obtain ⟨hafter, hlist⟩ := stepActive_of_asking hask
        rw [hworld] at hask hafter hlist
        refine ⟨r₁, rfl, Or.inr hr₁, hphase, hask, ?_, hlist⟩
        rw [hafter]
        exact withDrain_withDrain rfl
    · rw [turn_of_drain hr hset, stepDrain, if_neg hb] at hq ⊢
      have hask := asking_of_stepActive hq
      obtain ⟨hafter, hlist⟩ := stepActive_of_asking hask
      refine ⟨r, rfl, Or.inl rfl, DrainRecord.phase_of_state hask.state (by decide), ?_, hafter, ?_⟩
      · rwa [withDrain_self hr]
      · rwa [withDrain_self hr]

end

end Engine

end DrainFabric
