import DrainFabric.Engine.Blocking
import DrainFabric.Engine.Frame

/-!
# A resumed drain is not blocked again in the same pass

A turn of a blocked drain revalidates it and, if nothing blocks it any more, takes the
step of the state it was resumed to. The step evaluates the drain once more, after the
record has changed; it comes to the same result, because an evaluation does not look
at the state of the drain's own record. What is left are the two operations that can
fail on their own: closing the fence and recording the removal observation.

The observation is also refused when it is beyond the tolerated clock skew, and with a
negative skew it always is. `DrainPolicy::validate` rejects such a policy, but the
constructor of the engine does not validate (`resumed_reblocked`).
-/

namespace DrainFabric

open Lib Engine World

/-- If a blocked drain leaves `Blocked` in a pass, it is not in `Blocked` after its turn
nor after the pass, unless closing its fence or recording its removal fails at a bound. -/
theorem resumed_not_reblocked {C : Engine → Event → Prop} {e : Engine} (he : Reachable C e)
    {now : TimePoint} (hnow : now ≤ i64Max) (hskew : 0 ≤ e.policy.evidenceClockSkew)
    {id : DrainId} {r r₁ : DrainRecord} (hr : e.drain id = some r) (hb : r.state = .blocked)
    {pre post : List Event} (hpass : e.passTurns now = pre ++ .turn id now :: post)
    (hresumed : ((run fire e pre).resumeBlocked r now).2 = some r₁) (hleft : r₁.state ≠ .blocked)
    (hclose : r.phase = .validating → ∀ err,
      ((run fire e pre).fence.close r.target r.id now r.reason).2 = .error err →
        err.code ≠ .boundsExceeded)
    (hobserve : r.phase = .quiescing → ∀ err,
      ((run fire e pre).recordRemovalEvidence r now).2 = .error err →
        err.code ≠ .boundsExceeded) :
    ((run fire e pre).turn id now).1.Unblocked id ∧ (e.advance now).1.Unblocked id := by
  have hothers := passTurns_split hpass
  -- The turns before the drain's leave it and the policy in place.
  obtain ⟨hdrain, hpolicy, -⟩ :=
    run_others (fun ev hev => hothers ev (List.mem_append_left _ hev)) e
  obtain rfl := id_of_drain hr
  have hturn : ((run fire e pre).turn r.id now).1.Unblocked r.id := by
    rcases hres : (run fire e pre).resumeBlocked r now with ⟨e₁, resumed⟩
    rw [hres] at hresumed
    obtain rfl : resumed = some r₁ := hresumed
    refine unblocked_of_resumed (hdrain.trans hr) hb hres hleft (fun hval => ?_)
      (fun hquiesc _ => ?_)
    · have hid : r.id ≠ 0 := Nat.pos_iff_ne_zero.mp (he.filed.number r.id r hr).1
      cases hc : ((run fire e pre).fence.close r.target r.id now r.reason).2 with
      | ok generation => exact ⟨generation, rfl⟩
      | error err =>
        exact absurd (AdmissionFence.code_of_close_error hid hc) (hclose hval err hc)
    · refine recordRemovalEvidence_ok (he.coherent_run pre) ?_ (hobserve hquiesc)
      exact le_saturatingAdd hnow (hpolicy ▸ hskew)
  exact ⟨hturn, (unblocked_advance_iff hpass).mpr hturn⟩

namespace OnePort

/-- The port fails before admission is closed, and comes back once the drain is blocked. -/
def flapping : Engine :=
  run perform (Engine.init {})
    ((setup 1 ++ [Call.reportResourceStatus "p1" .failed 1]).map .call ++
      [.advance 1, .advance 1, .call (.reportResourceStatus "p1" .inService 1)])

/-- A drain of an engine whose policy tolerates a negative skew, in front of its
observation. -/
def behindTheClock (passes : Nat) : Engine :=
  run perform (Engine.init { evidenceClockSkew := -1 })
    ((setup 1).map .call ++ List.replicate passes (.advance 1))

end OnePort

open OnePort

/-- The blocked drain closes admission in the next pass. -/
theorem resumed_not_reblocked_flapping : (flapping.advance 1).1.Unblocked 1 := by
  have hreach : Reachable (fun _ _ => True) flapping :=
    reachable_run (.init {}) (by decide +kernel)
  have hkeys : flapping.drains.keys = [1] := by decide +kernel
  have hpass : flapping.passTurns 1 = [] ++ Event.turn 1 1 :: [] := by rw [passTurns, hkeys]; rfl
  have hr : flapping.drain 1 = some ((flapping.drain 1).getD {}) := by decide +kernel
  have hphase : ((flapping.drain 1).getD {}).phase = .validating := by decide +kernel
  have hresumed : ((run fire flapping []).resumeBlocked ((flapping.drain 1).getD {}) 1).2 =
      some ((flapping.resumeBlocked ((flapping.drain 1).getD {}) 1).2.getD {}) := by
    decide +kernel
  have hopen : ((run fire flapping []).fence.close ((flapping.drain 1).getD {}).target
      ((flapping.drain 1).getD {}).id 1 ((flapping.drain 1).getD {}).reason).2.toOption =
        some 1 := by decide +kernel
  refine (resumed_not_reblocked hreach (by decide) (by decide +kernel) hr (by decide +kernel) hpass
    hresumed (by decide +kernel) ?_ ?_).2
  · intro _ err herr
    rw [herr] at hopen
    cases hopen
  · intro hquiesc
    rw [hphase] at hquiesc
    cases hquiesc

/-- The drain is blocked because its observation is refused as too early. In every later
pass it leaves `Blocked`, and the same refusal puts it back; no bound is reached. -/
theorem resumed_reblocked :
    Reachable (fun _ _ => True) (behindTheClock 4) ∧
      ∃ r r₁, (behindTheClock 4).drain 1 = some r ∧ r.state = .blocked ∧ r.phase = .quiescing ∧
        ((behindTheClock 4).resumeBlocked r 1).2 = some r₁ ∧ r₁.state ≠ .blocked ∧
        (∀ err, ((behindTheClock 4).recordRemovalEvidence r 1).2 = .error err →
          err.code ≠ .boundsExceeded) ∧
        ¬ ((behindTheClock 4).advance 1).1.Unblocked 1 := by
  have hblocked : (((behindTheClock 4).advance 1).1.drain 1).map DrainRecord.state =
      some .blocked := by decide +kernel
  have hcode : ((behindTheClock 4).recordRemovalEvidence
      (((behindTheClock 4).drain 1).getD {}) 1).2.mapError Error.code = .error .invalidArgument := by
    decide +kernel
  refine ⟨reachable_run (.init _) (by decide +kernel), ((behindTheClock 4).drain 1).getD {},
    ((behindTheClock 4).resumeBlocked (((behindTheClock 4).drain 1).getD {}) 1).2.getD {},
    by decide +kernel, by decide +kernel, by decide +kernel, by decide +kernel, by decide +kernel,
    ?_, ?_⟩
  · intro err herr
    rw [herr] at hcode
    rw [Except.error.inj hcode]
    decide
  · intro hun
    obtain ⟨r, hr, hs⟩ := Option.map_eq_some_iff.mp hblocked
    exact hun r hr hs

end DrainFabric
