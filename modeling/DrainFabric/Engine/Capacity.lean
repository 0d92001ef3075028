import Mathlib.Data.List.Perm.Subperm
import DrainFabric.Engine.WellFormed

/-!
# How full the tables get

The table of drains is bounded when drains are requested, and a target has an entry in
the admission fence only if it was the target of some drain. So there is always room in
the fence for the target of a drain.

* `World.Housed` — the bound on the drains and where the entries of the fence come from;
* `World.Housed.close_ok` — a drain can close admission while its generation lasts.
-/

namespace DrainFabric

open Lib

variable {w : World}

namespace World

/-- The drains are within their bound, and only targets of drains are fenced. -/
structure Housed (w : World) : Prop where
  drains : w.drains.size ≤ maxDrains
  fenced : ∀ target entry, w.fence.entry target = some entry →
    ∃ id r, w.drain id = some r ∧ r.target = target

theorem housed_init (policy : DrainPolicy) : Housed (Engine.init policy).toWorld :=
  ⟨Nat.zero_le _, fun _ _ h => (by cases h)⟩

/-- Drains keep their targets, so targets stay fenced. -/
theorem Housed.fenced_of_extends {w' : World} (h : Housed w) (hext : Extends w w')
    {target : DrainTarget} {entry : FenceEntry} (hentry : w.fence.entry target = some entry) :
    ∃ id r, w'.drain id = some r ∧ r.target = target := by
  obtain ⟨id, r, hr, rfl⟩ := h.fenced target entry hentry
  obtain ⟨r', hr', -, htarget⟩ := hext.drain id r hr
  exact ⟨id, r', hr', htarget⟩

theorem size_withDrains_le (w : World) (request : DrainRequest) (targets : List DrainTarget)
    (now : TimePoint) :
    (w.withDrains request targets now).drains.size ≤ w.drains.size + targets.length := by
  have hlength : (newDrains request (w.setHighWater + 1) now w.drainHighWater targets).length =
      targets.length := by
    have hids := congrArg List.length
      (newDrains_ids request (w.setHighWater + 1) now w.drainHighWater targets)
    rwa [List.length_map, List.length_range'] at hids
  rw [← hlength]
  exact Table.size_foldl_emplace_le _ _

theorem Housed.write {w' : World} {ev : Event} (hwrite : Write w ev w') (h : Housed w) :
    Housed w' := by
  have hext := Extends.of_write hwrite
  cases hwrite with
  | @record _ r r' hr hedit =>
    refine ⟨?_, fun target entry hentry => h.fenced_of_extends hext hentry⟩
    have hsome : (w.drains.find? r'.id).isSome = true := by
      rw [hedit.identity.1]
      exact Option.isSome_iff_exists.mpr ⟨r, hr⟩
    exact (Table.size_put_of_mem hsome).le.trans h.drains
  | @founded c request targets now hc hadm hroom =>
    exact ⟨(size_withDrains_le w request targets now).trans hadm.room.2,
      fun target entry hentry => h.fenced_of_extends hext hentry⟩
  | @abandoned c request made rest now hc hadm hroom =>
    refine ⟨(size_withDrains_le w request made now).trans ?_,
      fun target entry hentry => h.fenced_of_extends hext hentry⟩
    have hbound := hadm.room.2
    rw [List.length_append] at hbound
    omega
  | @closure _ r reason hr =>
    refine ⟨h.drains, fun target entry hentry => ?_⟩
    by_cases htarget : target = r.target
    · exact ⟨r.id, r, hr, htarget.symm⟩
    · refine h.fenced target entry ?_
      rcases hclose : w.fence.close r.target r.id ev.time reason with ⟨fence, err | generation⟩
      · have hentry' : fence.entry target = some entry := by
          simpa only [withFence, hclose] using hentry
        rcases AdmissionFence.close_error hclose with rfl | ⟨-, hothers⟩
        · exact hentry'
        · rwa [← hothers target htarget]
      · have hentry' : fence.entry target = some entry := by
          simpa only [withFence, hclose] using hentry
        rwa [← (AdmissionFence.close_ok hclose).2.2.2 target htarget]
  | @reopening _ r reason fence generation hr hreopen =>
    refine ⟨h.drains, fun target entry hentry => ?_⟩
    by_cases htarget : target = r.target
    · exact ⟨r.id, r, hr, htarget.symm⟩
    · refine h.fenced target entry ?_
      obtain ⟨_, _, _, _, _, _, _, _, _, hothers⟩ := AdmissionFence.reopen_ok hreopen
      rwa [← hothers target htarget]
  | _ => exact ⟨h.drains, h.fenced⟩

/-- The entries of the fence, with one for the target of a drain, are at most as many as
the drains. -/
theorem Housed.size_fence (h : Housed w) {id : DrainId} {r : DrainRecord}
    (hr : w.drain id = some r) (entry : FenceEntry) :
    (OrdMap.set w.fence.entries r.target entry).size ≤ maxFencedTargets := by
  have hnodup := Table.nodup_keys (OrdMap.set w.fence.entries r.target entry)
  have hsub : Table.keys (OrdMap.set w.fence.entries r.target entry) ⊆
      w.drains.toList.map DrainRecord.target := by
    intro target hmem
    obtain ⟨pair, hpair⟩ := Table.mem_keys_iff.mp hmem
    by_cases htarget : r.target = target
    · exact List.mem_map.mpr ⟨r, Table.mem_of_find? hr, htarget⟩
    · have hold : w.fence.entry target = some pair.2 := by
        rw [AdmissionFence.entry, ← OrdMap.get?_set_of_ne htarget, OrdMap.get?, hpair]
        rfl
      obtain ⟨other, q, hq, rfl⟩ := h.fenced target pair.2 hold
      exact List.mem_map.mpr ⟨q, Table.mem_of_find? hq, rfl⟩
  have hlength := (hnodup.subperm hsub).length_le
  rw [Table.keys, List.length_map, List.length_map] at hlength
  exact hlength.trans h.drains

/-- A drain can close admission while its generation lasts. -/
theorem Housed.close_ok (h : Housed w) {id : DrainId} {r : DrainRecord} (hr : w.drain id = some r)
    (hid : id ≠ 0) (hroom : w.fence.generation r.target < u64Max) (now : TimePoint)
    (reason : String) :
    ∃ fence, w.fence.close r.target id now reason =
      (fence, .ok (w.fence.generation r.target + 1)) := by
  have hnext : incrementChecked ((w.fence.entry r.target).getD {}).generation =
      some (w.fence.generation r.target + 1) := by
    rw [AdmissionFence.generation_getD, incrementChecked_eq, if_pos hroom]
  have hsize := h.size_fence hr ((w.fence.entry r.target).getD {})
  simp only [AdmissionFence.close, if_neg hid, hnext, if_neg (not_lt.mpr hsize)]
  exact ⟨_, rfl⟩

end World

namespace Engine

open World

theorem Recovery.housed {e recovered : Engine} {prev : IncarnationId} {now : TimePoint}
    (h : Recovery e prev now recovered) (hw : Housed e.toWorld) : Housed recovered.toWorld := by
  constructor
  · obtain ⟨hbound, loaded, hload, hrecover, -⟩ := h.drains
    obtain ⟨-, heq⟩ := recoverDrains_eq_ok.mp ⟨loaded, hload, hrecover⟩
    rw [heq, Table.size_mapVals, Table.size_mapVals]
    exact hbound
  · intro target entry hentry
    rw [AdmissionFence.entry_of_loaded (AdmissionFence.loadFromJson_eq_ok.mp h.fence).2] at hentry
    obtain ⟨old, hold, -⟩ := Option.map_eq_some_iff.mp hentry
    exact hw.fenced_of_extends h.extends hold

theorem Reachable.housed {C : Engine → Event → Prop} {e : Engine} (he : Reachable C e) :
    Housed e.toWorld :=
  he.wellFormed housed_init (fun _ _ _ hwrite h => h.write hwrite) (fun _ _ _ _ h hw => h.housed hw)

end Engine

end DrainFabric
