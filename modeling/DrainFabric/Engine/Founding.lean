import DrainFabric.Codec.Values
import DrainFabric.Engine.TurnEffect

/-!
# Founding a set of drains

What a request comes to: it is refused or replayed, or it passes every check and then
creates its drains and their set, as far as the ids go.

* `newDrains`, `withDrains`, `withSet` — what is created;
* `createDrainSet_cases`, `requestDrainSet_cases` — how a request ends.
-/

namespace DrainFabric

open Lib

variable {w : World} {request : DrainRequest} {now : TimePoint} {targets : List DrainTarget}
  {r : DrainRecord} {id : DrainId}

namespace World

/-- A request for the (normalised) targets passes every check of `request_drain_set`
and is not a replay. -/
structure Admissible (w : World) (request : DrainRequest) (targets : List DrainTarget)
    (now : TimePoint) : Prop where
  normalized : normalizeTargets request.targets w.policy.maxTargetsPerRequest = .ok targets
  authorized : w.requireAuthority request.authority now = .ok ()
  members : targets.length ≤ w.policy.maxDrainsInSet
  room : w.sets.size < maxDrainSets ∧ w.drains.size + targets.length ≤ maxDrains
  unused : (if request.nonce = 0 then none else OrdMap.get? w.nonceSets request.nonce) = none
  free : Engine.ownedTarget w targets = none
  removable : (Engine.correlatedViolation w targets).ok = true
  spread : Engine.overloadedDomain w targets = none

/-- The nonce of the request was used before, for the set `setId` of the same targets. -/
structure Replays (w : World) (request : DrainRequest) (setId : DrainSetId) : Prop where
  used : request.nonce ≠ 0
  filed : OrdMap.get? w.nonceSets request.nonce = some setId
  same : ∃ set, w.sets.find? setId = some set ∧
    normalizeTargets request.targets w.policy.maxTargetsPerRequest = .ok set.targets ∧
    set.targets.length ≤ w.policy.maxDrainsInSet

/-- The drains of a new set, numbered on from `highWater`. -/
def newDrains (request : DrainRequest) (setId : DrainSetId) (now : TimePoint) :
    DrainId → List DrainTarget → List DrainRecord
  | _, [] => []
  | highWater, target :: rest =>
    Engine.newDrain request setId (truncate request.reason) now (highWater + 1) target ::
      newDrains request setId now (highWater + 1) rest

/-- The counters have room for a set of these drains. -/
def Numerable (w : World) (targets : List DrainTarget) : Prop :=
  w.setHighWater < u64Max ∧
    (w.drainHighWater ≤ u64Max → w.drainHighWater + targets.length ≤ u64Max)

/-- Drains were created for the targets, under the next set id. -/
def withDrains (w : World) (request : DrainRequest) (targets : List DrainTarget)
    (now : TimePoint) : World :=
  { w with
    setHighWater := w.setHighWater + 1
    drainHighWater := w.drainHighWater + targets.length
    drains := (newDrains request (w.setHighWater + 1) now w.drainHighWater targets).foldl
      (fun drains r => (drains.emplace r).getD drains) w.drains }

/-- The set of the drains a request creates. -/
def nextSet (w : World) (request : DrainRequest) (targets : List DrainTarget) (now : TimePoint) :
    DrainSet :=
  { id := w.setHighWater + 1, reason := truncate request.reason, requestedAt := now,
    authority := request.authority, nonce := request.nonce, targets,
    members := (newDrains request (w.setHighWater + 1) now w.drainHighWater targets).map
      DrainRecord.id }

/-- The set is filed, and the nonce it was requested under. -/
def withSet (w : World) (set : DrainSet) : World :=
  { w with
    sets := (w.sets.emplace set).getD w.sets
    nonceSets := if set.nonce ≠ 0 ∧ (OrdMap.get? w.nonceSets set.nonce).isNone
      then OrdMap.set w.nonceSets set.nonce set.id else w.nonceSets }

/-! ### The drains a request creates -/

theorem newDrains_ids (request : DrainRequest) (setId : DrainSetId) (now : TimePoint)
    (highWater : DrainId) (targets : List DrainTarget) :
    (newDrains request setId now highWater targets).map DrainRecord.id =
      List.range' (highWater + 1) targets.length := by
  induction targets generalizing highWater with
  | nil => rfl
  | cons target rest ih =>
    rw [newDrains, List.map_cons, ih, List.length_cons, List.range'_succ]
    rfl

theorem newDrains_targets (request : DrainRequest) (setId : DrainSetId) (now : TimePoint)
    (highWater : DrainId) (targets : List DrainTarget) :
    (newDrains request setId now highWater targets).map DrainRecord.target = targets := by
  induction targets generalizing highWater with
  | nil => rfl
  | cons target rest ih =>
    rw [newDrains, List.map_cons, ih]
    rfl

theorem mem_newDrains {setId : DrainSetId} {highWater : DrainId}
    (h : r ∈ newDrains request setId now highWater targets) :
    highWater < r.id ∧ r.id ≤ highWater + targets.length ∧ r.target ∈ targets ∧
      r = Engine.newDrain request setId (truncate request.reason) now r.id r.target := by
  induction targets generalizing highWater with
  | nil => cases h
  | cons target rest ih =>
    rw [newDrains] at h
    rcases List.mem_cons.mp h with rfl | hrest
    · exact ⟨Nat.lt_succ_self _, by simp [Engine.newDrain, DrainRecord.make],
        List.mem_cons_self, rfl⟩
    · obtain ⟨hlow, hhigh, hmem, heq⟩ := ih hrest
      rw [List.length_cons]
      refine ⟨Nat.lt_of_succ_lt hlow, ?_, List.mem_cons_of_mem _ hmem, heq⟩
      rw [Nat.add_comm rest.length, ← Nat.add_assoc]
      exact hhigh

/-- A drain after a request was there before or is one of the new ones. -/
theorem drain_withDrains (w : World) (request : DrainRequest) (targets : List DrainTarget)
    (now : TimePoint) (id : DrainId) :
    (w.withDrains request targets now).drain id = (w.drain id).or
      ((newDrains request (w.setHighWater + 1) now w.drainHighWater targets).find?
        (fun r => decide (r.id = id))) :=
  Table.find?_foldl_emplace _ _ _

theorem drain_withDrains_cases (h : (w.withDrains request targets now).drain id = some r) :
    w.drain id = some r ∨
      r ∈ newDrains request (w.setHighWater + 1) now w.drainHighWater targets ∧ r.id = id := by
  rw [drain_withDrains] at h
  cases hold : w.drain id with
  | some old =>
    rw [hold, Option.some_or] at h
    exact Or.inl h
  | none =>
    rw [hold, Option.none_or] at h
    exact Or.inr ⟨List.mem_of_find?_eq_some h, by simpa using List.find?_some h⟩

theorem exists_mem_newDrains (request : DrainRequest) (setId : DrainSetId) (now : TimePoint)
    (highWater : DrainId) {target : DrainTarget} (h : target ∈ targets) :
    ∃ r ∈ newDrains request setId now highWater targets, r.target = target :=
  List.mem_map.mp ((newDrains_targets request setId now highWater targets).symm ▸ h)

theorem drain_withDrains_old (request : DrainRequest) (targets : List DrainTarget) (now : TimePoint)
    (hr : w.drain id = some r) : (w.withDrains request targets now).drain id = some r := by
  rw [drain_withDrains, hr, Option.some_or]

theorem find?_newDrains {setId : DrainSetId} {highWater : DrainId}
    (hr : r ∈ newDrains request setId now highWater targets) :
    (newDrains request setId now highWater targets).find? (fun q => decide (q.id = r.id)) =
      some r := by
  obtain ⟨q, hq⟩ := Option.isSome_iff_exists.mp
    (List.find?_isSome (p := fun q : DrainRecord => decide (q.id = r.id)).mpr ⟨r, hr, by simp⟩)
  have hids : ((newDrains request setId now highWater targets).map DrainRecord.id).Nodup := by
    rw [newDrains_ids]
    exact List.nodup_range'
  rw [hq, List.inj_on_of_nodup_map hids (List.mem_of_find?_eq_some hq) hr
    (by simpa using List.find?_some hq)]

/-- A new drain is found under its number, unless the number was taken. -/
theorem drain_withDrains_new
    (hr : r ∈ newDrains request (w.setHighWater + 1) now w.drainHighWater targets)
    (hfree : w.drain r.id = none) : (w.withDrains request targets now).drain r.id = some r := by
  rw [drain_withDrains, hfree, Option.none_or, find?_newDrains hr]

/-- The set found under an id is the one that was there, if there was one. -/
theorem find?_withSet (w : World) (set : DrainSet) (id : DrainSetId) :
    (w.withSet set).sets.find? id =
      (w.sets.find? id).or (if set.id = id then some set else none) :=
  Table.find?_emplace _ _ _

end World

namespace Engine

open World

variable {e : Engine}

/-- The check of a decision whose texts are written out. -/
def brief (d : Decision) : Bool :=
  d.action != "" && Nat.ble (d.inputs.length + d.evidence.length + d.rejected.length +
    d.blockers.length) 4096

/-- The engine has come to the state `w`, perhaps with a decision about it. -/
inductive Noted (e : Engine) (w : World) : Engine → Prop
  | silent : Noted e w { e with toWorld := w }
  | decided {d : Decision} : brief d = true → Noted e w (recordDecision { e with toWorld := w } d)

theorem Noted.toWorld {e' : Engine} (h : Noted e w e') : e'.toWorld = w := by
  cases h <;> rfl

/-- Decisions about the members do not touch the world. -/
theorem foldl_recordDecision_toWorld (members : List DrainId)
    (decision : Engine → DrainId → Decision) (e : Engine) :
    (members.foldl (fun e member => e.recordDecision (decision e member)) e).toWorld = e.toWorld := by
  induction members generalizing e with
  | nil => rfl
  | cons member rest ih => exact ih _

/-- The drains a request creates: one per target, in order, until the ids run out. -/
theorem createDrains_eq (request : DrainRequest) (setId : DrainSetId) (now : TimePoint)
    (e : Engine) (members : List DrainId) (targets : List DrainTarget) :
    ∃ made rest, targets = made ++ rest ∧
      (made ≠ [] → e.drainHighWater + made.length ≤ u64Max) ∧
      (createDrains request setId (truncate request.reason) now e members targets).1 =
        { e with
          drainHighWater := e.drainHighWater + made.length
          drains := (newDrains request setId now e.drainHighWater made).foldl
            (fun drains r => (drains.emplace r).getD drains) e.drains } ∧
      ((createDrains request setId (truncate request.reason) now e members targets).2 = none ∧
          rest ≠ [] ∧ u64Max < e.drainHighWater + targets.length ∨
        rest = [] ∧
        (createDrains request setId (truncate request.reason) now e members targets).2 =
          some (members ++ (newDrains request setId now e.drainHighWater made).map
            DrainRecord.id)) := by
  induction targets generalizing e members with
  | nil =>
    exact ⟨[], [], rfl, fun h => absurd rfl h, rfl,
      Or.inr ⟨rfl, by simp [createDrains, newDrains]⟩⟩
  | cons target others ih =>
    simp only [createDrains, createDrain, incrementChecked_eq]
    by_cases hroom : e.drainHighWater < u64Max
    · rw [if_pos hroom]
      obtain ⟨made, rest, rfl, hlast, heq, hmembers⟩ := ih
        { e with
          drainHighWater := e.drainHighWater + 1
          drains := (e.drains.emplace (newDrain request setId (truncate request.reason) now
            (e.drainHighWater + 1) target)).getD e.drains }
        (members ++ [e.drainHighWater + 1])
      dsimp only at hlast heq hmembers ⊢
      refine ⟨target :: made, rest, rfl, fun _ => ?_, ?_, ?_⟩
      · rw [List.length_cons, Nat.add_comm made.length, ← Nat.add_assoc]
        rcases eq_or_ne made [] with rfl | hmade
        · exact hroom
        · exact hlast hmade
      · rw [heq, List.length_cons, Nat.add_right_comm, Nat.add_assoc]
        rfl
      · rcases hmembers with ⟨hnone, hrest, hfull⟩ | ⟨rfl, hsome⟩
        · refine Or.inl ⟨hnone, hrest, ?_⟩
          rw [List.length_cons]
          omega
        · refine Or.inr ⟨rfl, hsome.trans ?_⟩
          rw [List.append_assoc]
          rfl
    · rw [if_neg hroom]
      refine ⟨[], target :: others, rfl, fun h => absurd rfl h, rfl,
        Or.inl ⟨rfl, by simp, ?_⟩⟩
      exact Nat.lt_of_le_of_lt (Nat.not_lt.mp hroom) (by simp)

/-- How the creation of an admissible set ends: without an id for the set, with the
drains of its first targets only, or with all of its drains, the set and the decisions about
them. The decision about the set names every target. -/
theorem createDrainSet_eq {request : DrainRequest} {now : TimePoint}
    (h : e.Admissible request targets now) :
    (u64Max ≤ e.setHighWater ∧ (e.createDrainSet request targets now).1 = e ∧
        ∃ err, (e.createDrainSet request targets now).2 = .error err) ∨
      (e.setHighWater < u64Max ∧ u64Max < e.drainHighWater + targets.length ∧
        (∃ made rest, targets = made ++ rest ∧ e.Numerable made ∧
          (e.createDrainSet request targets now).1 =
            { e with toWorld := e.withDrains request made now }) ∧
        ∃ err, (e.createDrainSet request targets now).2 = .error err) ∨
      (e.setHighWater < u64Max ∧ e.drainHighWater + targets.length ≤ u64Max ∧
        (∃ (d : Decision) (decision : Engine → DrainId → Decision) (members : List DrainId),
          (targets.length ≤ hardMaxDrainsInSet → d.Readable) ∧
          (∀ e member, brief (decision e member) = true) ∧
          (e.createDrainSet request targets now).1 =
            members.foldl (fun e member => e.recordDecision (decision e member))
              (recordDecision { e with toWorld :=
                (e.withDrains request targets now).withSet (e.nextSet request targets now) } d)) ∧
        (e.createDrainSet request targets now).2 = .ok (e.setHighWater + 1)) := by
  simp only [createDrainSet, incrementChecked_eq]
  by_cases hid : e.setHighWater < u64Max
  swap
  · rw [if_neg hid]
    exact Or.inl ⟨Nat.not_lt.mp hid, rfl, _, rfl⟩
  rw [if_pos hid]
  obtain ⟨made, rest, rfl, hlast, heq, hmembers⟩ := createDrains_eq request (e.setHighWater + 1)
    now { e with setHighWater := e.setHighWater + 1 } [] targets
  dsimp only at hlast heq hmembers ⊢
  have hnumerable : e.Numerable made := by
    refine ⟨hid, fun hle => ?_⟩
    rcases eq_or_ne made [] with rfl | hmade
    · exact hle
    · exact hlast hmade
  rcases hmk : createDrains request (e.setHighWater + 1) (truncate request.reason) now
    { e with setHighWater := e.setHighWater + 1 } [] (made ++ rest) with ⟨e₁, _ | members⟩
  · rw [hmk] at heq hmembers
    rcases hmembers with ⟨-, -, hfull⟩ | ⟨-, hsome⟩
    · exact Or.inr (Or.inl ⟨hid, hfull, ⟨made, rest, rfl, hnumerable, heq⟩, _, rfl⟩)
    · cases hsome
  · rw [hmk] at heq hmembers
    rcases hmembers with ⟨hnone, -⟩ | ⟨rfl, hsome⟩
    · cases hnone
    obtain rfl := Option.some.inj hsome
    rw [List.append_nil] at h ⊢
    dsimp only at heq
    rw [heq]
    refine Or.inr (Or.inr ⟨hid, hlast (normalizeTargets_ne_nil h.normalized), ⟨_, _, _,
      fun htargets => ⟨by simp [makeDecision], ?_, Nat.zero_le _, by simp, Nat.zero_le _⟩,
      fun e member => ?_, rfl⟩, rfl⟩)
    · unfold hardMaxDrainsInSet at htargets
      simp only [List.length_append, List.length_cons, List.length_nil, List.length_map] at *
      omega
    · cases e.drain member <;> rfl

/-- The same without the decisions. -/
theorem createDrainSet_cases {request : DrainRequest} {now : TimePoint}
    (h : e.Admissible request targets now) :
    (u64Max ≤ e.setHighWater ∧ (e.createDrainSet request targets now).1 = e ∧
        ∃ err, (e.createDrainSet request targets now).2 = .error err) ∨
      (e.setHighWater < u64Max ∧ u64Max < e.drainHighWater + targets.length ∧
        (∃ made rest, targets = made ++ rest ∧ e.Numerable made ∧
          (e.createDrainSet request targets now).1.toWorld = e.withDrains request made now) ∧
        ∃ err, (e.createDrainSet request targets now).2 = .error err) ∨
      (e.setHighWater < u64Max ∧ e.drainHighWater + targets.length ≤ u64Max ∧
        (e.createDrainSet request targets now).1.toWorld =
          (e.toWorld.withDrains request targets now).withSet (e.nextSet request targets now) ∧
        (e.createDrainSet request targets now).2 = .ok (e.setHighWater + 1)) := by
  rcases createDrainSet_eq h with hfull | ⟨hset, hdrains, ⟨made, rest, hmade, hroom, heq⟩, herr⟩ |
    ⟨hset, hroom, ⟨d, decision, members, -, -, heq⟩, hok⟩
  · exact Or.inl hfull
  · exact Or.inr (Or.inl ⟨hset, hdrains, ⟨made, rest, hmade, hroom, by rw [heq]⟩, herr⟩)
  · refine Or.inr (Or.inr ⟨hset, hroom, ?_, hok⟩)
    rw [heq, foldl_recordDecision_toWorld, recordDecision_toWorld]

theorem requestDrainSet_of_admissible {e : Engine} {request : DrainRequest}
    {targets : List DrainTarget} {now : TimePoint} (h : e.Admissible request targets now) :
    e.requestDrainSet request now = e.createDrainSet request targets now := by
  have hroom : ¬ (e.sets.size ≥ maxDrainSets ∨ e.drains.size + targets.length > maxDrains) := by
    have := h.room
    omega
  simp only [requestDrainSet, h.normalized, h.authorized, if_neg (Nat.not_lt.mpr h.members),
    if_neg hroom, h.unused, h.free, h.removable, h.spread, not_true_eq_false, if_false]

/-- A request is refused or replayed, or it creates its set. -/
theorem requestDrainSet_cases (e : Engine) (request : DrainRequest) (now : TimePoint) :
    ((e.requestDrainSet request now).1.toWorld = e.toWorld ∧
        (∀ setId, (e.requestDrainSet request now).2 = .ok setId → e.Replays request setId) ∧
        Noted e e.toWorld (e.requestDrainSet request now).1) ∨
      ∃ targets, e.Admissible request targets now := by
  simp only [requestDrainSet]
  cases hnorm : normalizeTargets request.targets e.policy.maxTargetsPerRequest with
  | error err => exact Or.inl ⟨rfl, by simp, .silent⟩
  | ok targets =>
    dsimp only
    cases hauth : e.requireAuthority request.authority now with
    | error err => exact Or.inl ⟨rfl, by simp, .decided rfl⟩
    | ok u =>
      dsimp only
      by_cases hsize : targets.length > e.policy.maxDrainsInSet
      · rw [if_pos hsize]
        exact Or.inl ⟨rfl, by simp [fail], .silent⟩
      rw [if_neg hsize]
      by_cases hroom : e.sets.size ≥ maxDrainSets ∨ e.drains.size + targets.length > maxDrains
      · rw [if_pos hroom]
        exact Or.inl ⟨rfl, by simp [fail], .silent⟩
      rw [if_neg hroom]
      cases hreplayed : (if request.nonce = 0 then none
          else OrdMap.get? e.nonceSets request.nonce) with
      | some setId =>
        dsimp only
        split_ifs with hsame
        · refine Or.inl ⟨rfl, fun setId' h => ?_, .silent⟩
          obtain rfl := Except.ok.inj h
          obtain ⟨set, hset, htargets⟩ := (Option.any_eq_true _ _).mp hsame
          obtain rfl : set.targets = targets := by simpa using htargets
          split_ifs at hreplayed with hnonce
          exact ⟨hnonce, hreplayed, set, hset, hnorm, Nat.not_lt.mp hsize⟩
        · exact Or.inl ⟨rfl, by simp [fail], .silent⟩
      | none =>
        cases hfree : ownedTarget e.toWorld targets with
        | some owned => exact Or.inl ⟨rfl, by simp [fail], .silent⟩
        | none =>
          dsimp only
          by_cases hviolation : (correlatedViolation e.toWorld targets).ok = true
          · cases hspread : overloadedDomain e.toWorld targets with
            | some overload =>
              rw [if_neg (not_not.mpr hviolation)]
              exact Or.inl ⟨rfl, by simp [fail], .decided rfl⟩
            | none =>
              refine Or.inr ⟨targets, hnorm, hauth, by omega, by omega, hreplayed, hfree,
                hviolation, hspread⟩
          · rw [if_pos hviolation]
            exact Or.inl ⟨rfl, by simp [fail], .decided rfl⟩

/-- An accepted request is a replay, or its drains and its set were created. -/
theorem requestDrainSet_ok {setId : DrainSetId}
    (h : (e.requestDrainSet request now).2 = .ok setId) :
    ((e.requestDrainSet request now).1.toWorld = e.toWorld ∧ e.Replays request setId) ∨
      ∃ targets, e.Admissible request targets now ∧ e.setHighWater < u64Max ∧
        e.drainHighWater + targets.length ≤ u64Max ∧ setId = e.setHighWater + 1 ∧
        (e.requestDrainSet request now).1.toWorld =
          (e.withDrains request targets now).withSet (e.nextSet request targets now) := by
  rcases requestDrainSet_cases e request now with ⟨hsame, hreplays, -⟩ | ⟨targets, hadm⟩
  · exact Or.inl ⟨hsame, hreplays setId h⟩
  · rw [requestDrainSet_of_admissible hadm] at h ⊢
    rcases createDrainSet_cases hadm with ⟨-, -, err, herr⟩ | ⟨-, -, -, err, herr⟩ |
      ⟨hset, hroom, hworld, hok⟩
    · cases herr.symm.trans h
    · cases herr.symm.trans h
    · exact Or.inr ⟨targets, hadm, hset, hroom, Except.ok.inj (h.symm.trans hok), hworld⟩

/-- A request for one drain is a request for a set. -/
theorem requestDrain_fst (e : Engine) (request : DrainRequest) (now : TimePoint) :
    (e.requestDrain request now).1 = (e.requestDrainSet request now).1 ∧
      ((e.requestDrain request now).2.isOk = true →
        ∃ setId, (e.requestDrainSet request now).2 = .ok setId) := by
  simp only [requestDrain]
  rcases e.requestDrainSet request now with ⟨e', err | setId⟩
  · exact ⟨rfl, fun h => by cases h⟩
  · dsimp only
    split <;> exact ⟨rfl, fun _ => ⟨setId, rfl⟩⟩

end Engine

end DrainFabric
