import DrainFabric.Engine.WellFormed

/-!
# The history of one record

`Reachable.records` is the invariant rule for what a single record says. A claim about a
whole history compares a record with what it was before, so this module states the rule
for two of them: a relation that every write to the record and its recovery keep relates
the record before an event to the record after it.

* `Write.drain_after` — a drain outlives every write, as it was or edited;
* `fire_record`, `run_record` — the rule for one event and for a run.
-/

namespace DrainFabric

open Lib

namespace World

theorem Write.drain_after {w w' : World} {ev : Event} (h : Write w ev w') {id : DrainId}
    {r : DrainRecord} (hr : w.drain id = some r) :
    w'.drain id = some r ∨ ∃ r', w'.drain id = some r' ∧ Edit w ev.time r r' := by
  cases h with
  | @record _ q q' hq hedit =>
    by_cases hid : q.id = id
    · rw [← hid, hq] at hr
      obtain rfl := Option.some.inj hr
      refine Or.inr ⟨q', ?_, hedit⟩
      rw [drain_withDrain, if_pos (hedit.identity.1.trans hid)]
    · refine Or.inl ?_
      rw [drain_withDrain, if_neg (fun heq => hid (hedit.identity.1.symm.trans heq)), hr]
  | founded => exact Or.inl (drain_withDrains_old _ _ _ hr)
  | abandoned => exact Or.inl (drain_withDrains_old _ _ _ hr)
  | _ => exact Or.inl hr

end World

namespace Engine

open World

theorem Writes.record {R : DrainRecord → DrainRecord → Prop} {ev : Event} {w w' : World}
    (hrefl : ∀ r, R r r) (hedit : ∀ w r₀ r r', Edit w ev.time r r' → R r₀ r → R r₀ r')
    (h : Writes ev w w') {id : DrainId} {r : DrainRecord} (hr : w.drain id = some r) :
    ∃ r', w'.drain id = some r' ∧ R r r' := by
  refine h.invariant (P := fun w => ∃ r', w.drain id = some r' ∧ R r r') ?_ ⟨r, hr, hrefl r⟩
  rintro w w' hwrite ⟨q, hq, hR⟩
  rcases hwrite.drain_after hq with hold | ⟨q', hq', hed⟩
  · exact ⟨q, hold, hR⟩
  · exact ⟨q', hq', hedit w r q q' hed hR⟩

/-- What one event makes of a record. -/
theorem fire_record {R : DrainRecord → DrainRecord → Prop} {e : Engine} {ev : Event}
    (hrefl : ∀ r, R r r) (hedit : ∀ w r₀ r r', Edit w ev.time r r' → R r₀ r → R r₀ r')
    {id : DrainId} {r : DrainRecord}
    (hrecover : ∀ prev now, ev = .restart prev now → R r (recoveredRecord now r.reloaded))
    (hr : e.drain id = some r) : ∃ r', (e.fire ev).drain id = some r' ∧ R r r' := by
  cases ev with
  | call c => exact Writes.record hrefl hedit (apply_writes e c) hr
  | turn id now => exact Writes.record hrefl hedit (turn_writes e id now) hr
  | restart prev now =>
    refine restart_rule (P := fun w => ∃ r', w.drain id = some r' ∧ R r r') ⟨r, hr, hrefl r⟩
      (fun recovered hdecode => ⟨_, ?_, hrecover prev now rfl⟩)
    rw [(decodeSnapshot_eq_ok.mp hdecode).drain, hr, Option.map_some]

/-- What a run makes of a record. -/
theorem run_record {R : DrainRecord → DrainRecord → Prop} {C : Engine → Event → Prop}
    (hrefl : ∀ r, R r r) (htrans : ∀ r₀ r r', R r₀ r → R r r' → R r₀ r')
    (hfire : ∀ e ev id r, C e ev → e.drain id = some r →
      ∃ r', (e.fire ev).drain id = some r' ∧ R r r')
    {e : Engine} {events : List Event} (h : Always fire C e events) {id : DrainId}
    {r : DrainRecord} (hr : e.drain id = some r) :
    ∃ r', (run fire e events).drain id = some r' ∧ R r r' := by
  refine run_invariant (C := C) (P := fun e : Engine => ∃ r', e.drain id = some r' ∧ R r r') ?_
    ⟨r, hr, hrefl r⟩ h
  rintro e ev ⟨q, hq, hR⟩ hC
  obtain ⟨q', hq', hR'⟩ := hfire e ev id q hC hq
  exact ⟨q', hq', htrans r q q' hR hR'⟩

end Engine

end DrainFabric
