import DrainFabric.Engine.WellFormed

/-!
# Caller order

A request names its targets in any order and as often as it likes. The engine brings them
into canonical order and drops repetitions before it looks at them, so the order they were
named in reaches nothing: neither the answer, nor the state, nor the audit trail. The drains
of the set are then numbered along the canonical order.

* `requestDrainSet_perm` — a request with its targets reordered;
* `World.Aligned` — the drains of a set along its targets, in every reachable state;
* `caller_order_irrelevant` — both.
-/

namespace DrainFabric

open Lib

variable {targets : List DrainTarget} {w : World}

/-! ### Reordering -/

theorem normalizeTargets_perm {targets' : List DrainTarget} (h : targets'.Perm targets)
    (maxTargets : Nat) :
    normalizeTargets targets' maxTargets = normalizeTargets targets maxTargets := by
  have hnil : targets' = [] ↔ targets = [] := by
    constructor
    · rintro rfl
      exact h.nil_eq.symm
    · rintro rfl
      exact h.eq_nil
  have hany : targets'.any (fun target => target.id.isEmpty) =
      targets.any (fun target => target.id.isEmpty) := by
    rw [Bool.eq_iff_iff, List.any_eq_true, List.any_eq_true]
    simp only [h.mem_iff]
  have hsorted : sortUnique targetOrderLess targets' = sortUnique targetOrderLess targets :=
    sortUnique_congr (fun _ => h.mem_iff)
  simp only [normalizeTargets, hnil, h.length_eq, hany, hsorted]

namespace Engine

/-- The drains of a set are created from the normalised targets alone. -/
theorem createDrains_targets (request : DrainRequest) (named : List DrainTarget)
    (setId : DrainSetId) (reason : String) (now : TimePoint) (e : Engine) (members : List DrainId)
    (targets : List DrainTarget) :
    createDrains { request with targets := named } setId reason now e members targets =
      createDrains request setId reason now e members targets := by
  induction targets generalizing e members with
  | nil => rfl
  | cons target rest ih =>
    simp only [createDrains]
    have hone : createDrain { request with targets := named } setId reason now e members target =
        createDrain request setId reason now e members target := rfl
    rw [hone]
    rcases createDrain request setId reason now e members target with ⟨e₁, _ | members₁⟩
    · rfl
    · exact ih e₁ members₁

/-- Reordering the targets of a request changes nothing. -/
theorem requestDrainSet_perm (e : Engine) (request : DrainRequest)
    (h : targets.Perm request.targets) (now : TimePoint) :
    e.requestDrainSet { request with targets } now = e.requestDrainSet request now := by
  simp only [requestDrainSet, normalizeTargets_perm h, createDrainSet, createDrains_targets]

end Engine

/-! ### The drains of a set -/

namespace World

/-- The drains of a set along its targets, which are in canonical order. -/
structure Aligned (w : World) (set : DrainSet) : Prop where
  canonical : set.targets.Pairwise (Less targetOrderLess)
  consecutive : ∃ first, set.members = List.range' first set.targets.length
  drains : List.Forall₂ (fun target id => ∃ r, w.drain id = some r ∧ r.target = target)
    set.targets set.members

theorem Aligned.extends {w' : World} {set : DrainSet} (h : w.Aligned set) (hext : Extends w w') :
    w'.Aligned set := by
  refine ⟨h.canonical, h.consecutive, h.drains.imp ?_⟩
  intro target id hdrain
  obtain ⟨r, hr, htarget⟩ := hdrain
  obtain ⟨r', hr', -, htarget'⟩ := hext.drain id r hr
  exact ⟨r', hr', htarget'.trans htarget⟩

theorem forall₂_newDrains (request : DrainRequest) (setId : DrainSetId) (now : TimePoint)
    (highWater : DrainId) (targets : List DrainTarget) :
    List.Forall₂ (fun target r => r.target = target) targets
      (newDrains request setId now highWater targets) := by
  induction targets generalizing highWater with
  | nil => exact .nil
  | cons target rest ih => exact .cons rfl (ih (highWater + 1))

/-- A set that is founded is aligned. -/
theorem Filed.aligned_nextSet (h : Filed w) {request : DrainRequest} {now : TimePoint}
    (hadm : w.Admissible request targets now) :
    ((w.withDrains request targets now).withSet (w.nextSet request targets now)).Aligned
      (w.nextSet request targets now) := by
  refine ⟨?_, ⟨w.drainHighWater + 1, newDrains_ids _ _ _ _ _⟩, ?_⟩
  · have hnormal := hadm.normalized
    simp only [normalizeTargets, bind_eq_ok, pure_eq_ok] at hnormal
    obtain ⟨_, -, _, -, _, -, rfl⟩ := hnormal
    exact sortUnique_sorted _
  · refine List.forall₂_map_right_iff.mpr ?_
    have hfound : ∀ r ∈ newDrains request (w.setHighWater + 1) now w.drainHighWater targets,
        (w.withDrains request targets now).drain r.id = some r := by
      intro r hr
      refine drain_withDrains_new hr ?_
      cases hold : w.drain r.id with
      | none => rfl
      | some old =>
        exact absurd (mem_newDrains hr).1 (Nat.not_lt.mpr (h.number r.id old hold).2)
    have hboth := (List.forall₂_and_left _ _).mpr
      ⟨hfound, (forall₂_newDrains request (w.setHighWater + 1) now w.drainHighWater targets).flip⟩
    exact hboth.flip.imp (fun target r hr => ⟨r, hr.1, hr.2⟩)

/-- Every set is aligned. -/
structure Laid (w : World) : Prop extends Filed w where
  aligned : ∀ id set, w.sets.find? id = some set → w.Aligned set

theorem Laid.write {w' : World} {ev : Event} (hwrite : Write w ev w') (h : Laid w) : Laid w' := by
  refine ⟨h.toFiled.write hwrite, fun id set hset => ?_⟩
  have hext := Extends.of_write hwrite
  cases hwrite with
  | founded hc hadm hnumerable =>
    rcases sets_founded_cases hset with hold | ⟨-, rfl⟩
    · exact (h.aligned id set hold).extends hext
    · exact h.toFiled.aligned_nextSet hadm
  | _ => exact (h.aligned id set hset).extends hext

end World

namespace Engine

open World

theorem Recovery.laid {e recovered : Engine} {prev : IncarnationId} {now : TimePoint}
    (h : Recovery e prev now recovered) (hw : Laid e.toWorld) : Laid recovered.toWorld := by
  refine ⟨h.filed hw.toFiled, fun id set hset => ?_⟩
  rw [h.sets_eq.2, Table.find?_mapVals] at hset
  obtain ⟨old, hold, rfl⟩ := Option.map_eq_some_iff.mp hset
  have haligned := (hw.aligned id old hold).extends h.extends
  exact ⟨haligned.canonical, haligned.consecutive, haligned.drains⟩

theorem laid_fire (e : Engine) (ev : Event) (h : Laid e.toWorld) : Laid (e.fire ev).toWorld :=
  fire_wellFormed (fun _ _ _ hwrite h => h.write hwrite) (fun _ _ _ _ h hw => h.laid hw) e ev h

/-- In every reachable state the drains of a set are numbered along its targets. -/
theorem Reachable.laid {C : Engine → Event → Prop} {e : Engine} (he : Reachable C e) :
    Laid e.toWorld :=
  he.invariant (fun policy => ⟨filed_init policy, fun _ _ h => (by cases h)⟩)
    (fun e ev h _ => laid_fire e ev h)

end Engine

open World Engine

/-- The order in which a request names its targets is irrelevant to what it returns and leaves
behind. The set of an accepted request has one drain for each target that was named, numbered
consecutively along the canonical order. -/
theorem caller_order_irrelevant :
    (∀ (e : Engine) (request : DrainRequest) (targets : List DrainTarget) (now : TimePoint),
      targets.Perm request.targets →
      e.requestDrainSet { request with targets } now = e.requestDrainSet request now) ∧
    ∀ (C : Engine → Event → Prop) (e : Engine) (request : DrainRequest) (now : TimePoint)
      (setId : DrainSetId), Reachable C e → (e.requestDrainSet request now).2 = .ok setId →
      ∃ set, (e.requestDrainSet request now).1.sets.find? setId = some set ∧
        (∀ target, target ∈ set.targets ↔ target ∈ request.targets) ∧
        (e.requestDrainSet request now).1.Aligned set := by
  refine ⟨fun e request targets now h => requestDrainSet_perm e request h now, ?_⟩
  intro C e request now setId he haccepted
  have hlaid := laid_fire e (.call (.requestDrainSet request now)) he.laid
  suffices ∃ set, (e.requestDrainSet request now).1.sets.find? setId = some set ∧
      ∃ maxTargets, normalizeTargets request.targets maxTargets = .ok set.targets by
    obtain ⟨set, hset, maxTargets, hnormal⟩ := this
    exact ⟨set, hset, (normalizeTargets_ok hnormal).2, hlaid.aligned setId set hset⟩
  rcases requestDrainSet_cases e request now with ⟨hsame, hreplays, -⟩ | ⟨targets, hadm⟩
  · obtain ⟨set, hset, hnormal, -⟩ := (hreplays setId haccepted).same
    refine ⟨set, ?_, _, hnormal⟩
    rw [hsame]
    exact hset
  · rw [requestDrainSet_of_admissible hadm] at haccepted ⊢
    rcases createDrainSet_cases hadm with ⟨-, -, err, herr⟩ | ⟨-, -, -, err, herr⟩ |
      ⟨-, -, hworld, hok⟩
    · cases herr.symm.trans haccepted
    · cases herr.symm.trans haccepted
    · obtain rfl := Except.ok.inj (hok.symm.trans haccepted)
      refine ⟨e.nextSet request targets now, ?_, _, hadm.normalized⟩
      rw [hworld]
      show ((e.sets.emplace (e.nextSet request targets now)).getD e.sets).find? _ = _
      rw [Table.find?_emplace, he.filed.nextSet_free, Option.none_or]
      exact if_pos rfl

namespace OnePort

/-- The port is known and nothing is asked of it yet. -/
def unasked : Engine := run perform (Engine.init {}) (((setup 1).take 3).map .call)

/-- Two ports, one of them named twice. -/
def askedTwice : DrainRequest :=
  { targets := [remote, port, remote], reason := "both", authority := 1 }

end OnePort

open OnePort in
theorem caller_order_irrelevant_twoPorts :
    unasked.requestDrainSet { askedTwice with targets := [port, remote, remote] } 1 =
        unasked.requestDrainSet askedTwice 1 ∧
      ∃ set, (unasked.requestDrainSet askedTwice 1).1.sets.find? 1 = some set ∧
        (∀ target, target ∈ set.targets ↔ target ∈ askedTwice.targets) ∧
        (unasked.requestDrainSet askedTwice 1).1.Aligned set := by
  have hreach : Reachable (fun _ _ => True) unasked := reachable_run (.init {}) (by decide +kernel)
  exact ⟨caller_order_irrelevant.1 unasked askedTwice [port, remote, remote] 1 (by decide),
    caller_order_irrelevant.2 _ unasked askedTwice 1 1 hreach (by decide +kernel)⟩

end DrainFabric
