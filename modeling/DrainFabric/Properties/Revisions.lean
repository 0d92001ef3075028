import DrainFabric.Engine.History

/-!
# The revisions of a drain

Every transition takes the next revision, and no other write touches it. A snapshot
writes the revision of a record too, but `from_json` does not read it: whatever a record
went through, a restart recovers it at revision one, or two if it had to be blocked.

* `Later` — of two records of a drain, the second can be the younger one;
* `later_edit`, `later_recovered` — the step lemmas.
-/

namespace DrainFabric

open Lib

variable {r : DrainRecord}

namespace DrainRecord

/-- The revision did not fall, and rose if the state is another one. -/
def Later (r r' : DrainRecord) : Prop :=
  r.revision ≤ r'.revision ∧ (r'.state ≠ r.state → r.revision < r'.revision)

theorem Later.refl (r : DrainRecord) : Later r r :=
  ⟨le_rfl, fun h => absurd rfl h⟩

theorem Later.trans {r₀ r' : DrainRecord} (h : Later r₀ r) (h' : Later r r') : Later r₀ r' := by
  refine ⟨h.1.trans h'.1, fun hne => ?_⟩
  by_cases hstate : r'.state = r.state
  · exact (h.2 (fun heq => hne (hstate.trans heq))).trans_le h'.1
  · exact h.1.trans_lt (h'.2 hstate)

end DrainRecord

namespace Engine

open World DrainRecord

theorem later_edit {w : World} {now : TimePoint} {r' : DrainRecord} (h : Edit w now r r') :
    Later r r' := by
  cases h with
  | moves => exact ⟨Nat.le_succ _, fun _ => Nat.lt_succ_self _⟩
  | _ => exact ⟨le_rfl, fun h => absurd rfl h⟩

/-- A record that was never revised is recovered at the revision it had. -/
theorem later_recovered (h : r.revision = 1) (now : TimePoint) :
    Later r (recoveredRecord now r.reloaded) := by
  have hloaded : r.reloaded.revision = 1 := rfl
  unfold recoveredRecord
  split_ifs
  · have hmoved : r.revision < r.reloaded.revision + 1 := by
      rw [h, hloaded]
      exact Nat.lt_succ_self 1
    exact ⟨hmoved.le, fun _ => hmoved⟩
  · exact ⟨(h.trans hloaded.symm).le, fun hne => absurd rfl hne⟩

/-- A restart finds every drain at the revision `from_json` gives it. -/
def RestartsUnrevised (e : Engine) : Event → Prop
  | .restart _ _ => ∀ r ∈ e.drains.toList, r.revision = 1
  | _ => True

instance (e : Engine) : ∀ ev, Decidable (RestartsUnrevised e ev)
  | .restart _ _ => inferInstanceAs (Decidable (∀ r ∈ e.drains.toList, r.revision = 1))
  | .call _ => .isTrue trivial
  | .turn _ _ => .isTrue trivial

theorem later_fire {e : Engine} {ev : Event} (hev : RestartsUnrevised e ev) {id : DrainId}
    (hr : e.drain id = some r) : ∃ r', (e.fire ev).drain id = some r' ∧ Later r r' := by
  refine fire_record Later.refl (fun w r₀ r r' hedit h => h.trans (later_edit hedit)) ?_ hr
  rintro prev now rfl
  exact later_recovered (hev r (Table.mem_of_find? hr)) now

end Engine

open Engine DrainRecord

/-- From any point of a run to any later one the revision of a drain does not fall, and
it rises if the drain is in another state, when no restart finds a revised drain. -/
theorem revisions_never_rewind {policy : DrainPolicy} {pre post : List Event}
    (h : Always fire RestartsUnrevised (Engine.init policy) (pre ++ post)) {id : DrainId}
    {r : DrainRecord} (hr : (run fire (Engine.init policy) pre).drain id = some r) :
    ∃ r', (run fire (Engine.init policy) (pre ++ post)).drain id = some r' ∧
      r.revision ≤ r'.revision ∧ (r'.state ≠ r.state → r.revision < r'.revision) := by
  rw [run_append]
  exact run_record Later.refl (fun _ _ _ => Later.trans)
    (fun e ev id r hev hr => later_fire hev hr) (always_append.mp h).2 hr

namespace OnePort

/-- The drain of the port was just requested. -/
def requested : List Event := (setup 1).map .call

/-- The drain of the port has closed admission. -/
def closing : List Event := requested ++ [.turn 1 1, .turn 1 1]

end OnePort

/-- A drain is requested, and validated after a restart. -/
theorem revisions_never_rewind_validated :
    ∃ r, (run fire (Engine.init {}) OnePort.requested).drain 1 = some r ∧
      ∃ r', (run fire (Engine.init {})
          (OnePort.requested ++ [.restart 0 2, .turn 1 3])).drain 1 = some r' ∧
        r.revision ≤ r'.revision ∧ (r'.state ≠ r.state → r.revision < r'.revision) := by
  obtain ⟨r, hr⟩ : ∃ r, (run fire (Engine.init {}) OnePort.requested).drain 1 = some r :=
    Option.isSome_iff_exists.mp (by decide +kernel)
  have hrestart : Always fire RestartsUnrevised (Engine.init {})
      (OnePort.requested ++ [.restart 0 2, .turn 1 3]) := by
    decide +kernel
  exact ⟨r, hr, revisions_never_rewind hrestart hr⟩

/-- The drain closes admission at its third revision; the restart that blocks it leaves
it at the second, which was that of its validation. -/
theorem revision_rewound_by_restart :
    ((run fire (Engine.init {}) (OnePort.requested ++ [.turn 1 1])).drain 1).map
        (fun r => (r.state, r.revision)) = some (.validating, 2) ∧
      ((run fire (Engine.init {}) OnePort.closing).drain 1).map
        (fun r => (r.state, r.revision)) = some (.admissionClosed, 3) ∧
      ((run fire (Engine.init {}) (OnePort.closing ++ [.restart 0 2])).drain 1).map
        (fun r => (r.state, r.revision)) = some (.blocked, 2) := by
  decide +kernel

end DrainFabric
