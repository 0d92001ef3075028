import DrainFabric.Properties.Atomicity

/-!
# Idempotent requests

A request carries a nonce so that it can be repeated: a repetition is to return the set
the request created. What the engine keeps for that is never lost: the nonce stays filed
under its set, and the set keeps its targets, through every operation and every restart
(`remembers_fire`). The targets of a repetition may come in another order, since they
are compared in their canonical form (`normalizeTargets_congr`).

The tables are checked for room before the nonce is looked up, so a repetition, which
needs none, is turned away when they are full.

* `replay_returns_iff` — a repetition returns the set of the request exactly when there
  would be room for another such set;
* `replay_refused_at_capacity` — a run that fills the table of sets.
-/

namespace DrainFabric

open Lib World Engine

variable {e : Engine} {request : DrainRequest} {now : TimePoint}

/-- The nonce is filed under the set, and the set is one of these targets. -/
structure World.Remembers (w : World) (nonce : RequestNonce) (setId : DrainSetId)
    (targets : List DrainTarget) : Prop where
  filed : OrdMap.get? w.nonceSets nonce = some setId
  set : ∃ set, w.sets.find? setId = some set ∧ set.targets = targets

/-- There is room for another set of so many drains. -/
def World.HasRoom (w : World) (count : Nat) : Prop :=
  w.sets.size < maxDrainSets ∧ w.drains.size + count ≤ maxDrains

instance (w : World) (count : Nat) : Decidable (w.HasRoom count) :=
  inferInstanceAs (Decidable (_ ∧ _))

/-! ### What is remembered -/

section

variable {nonce : RequestNonce} {setId : DrainSetId} {targets : List DrainTarget}

theorem World.Remembers.write {w w' : World} {ev : Event} (hwrite : Write w ev w')
    (h : w.Remembers nonce setId targets) : w'.Remembers nonce setId targets := by
  cases hwrite with
  | @founded c request made now _ _ _ =>
    obtain ⟨set, hset, htargets⟩ := h.set
    constructor
    · -- A nonce that is filed is not filed again.
      show OrdMap.get? (if _ then OrdMap.set w.nonceSets _ _ else w.nonceSets) nonce = _
      split_ifs with hnew
      · refine (OrdMap.get?_set_of_ne ?_).trans h.filed
        rintro rfl
        have hfree := hnew.2
        simp only [withDrains] at hfree
        rw [h.filed] at hfree
        cases hfree
      · exact h.filed
    · refine ⟨set, ?_, htargets⟩
      have hset : (w.withDrains request made now).sets.find? setId = some set := hset
      rw [find?_withSet, hset, Option.some_or]
  | _ => exact ⟨h.filed, h.set⟩

theorem remembers_fire (e : Engine) (ev : Event)
    (h : (∀ p ∈ e.nonceSets.toList, p.1 ≠ 0) ∧ e.Remembers nonce setId targets) :
    (∀ p ∈ (e.fire ev).nonceSets.toList, p.1 ≠ 0) ∧ (e.fire ev).Remembers nonce setId targets := by
  refine ⟨nonces_fire e ev h.1, fire_rule (P := fun w => w.Remembers nonce setId targets) e ev
    (fun _ _ hwrite hw => hw.write hwrite) (fun prev now recovered _ hrec => ?_) h.2⟩
  obtain ⟨set, hset, htargets⟩ := h.2.set
  refine ⟨?_, set.persisted, ?_, htargets⟩
  · rw [hrec.nonces_eq h.1]
    exact h.2.filed
  · rw [hrec.sets_eq.2, Table.find?_mapVals, hset]
    rfl

/-- An accepted request is remembered. -/
theorem remembers_of_accepted (hfiled : Filed e.toWorld) (hnonce : request.nonce ≠ 0)
    (haccepted : (e.requestDrainSet request now).2 = .ok setId) :
    ∃ targets, normalizeTargets request.targets e.policy.maxTargetsPerRequest = .ok targets ∧
      targets.length ≤ e.policy.maxDrainsInSet ∧
      (e.requestDrainSet request now).1.Remembers request.nonce setId targets := by
  rcases requestDrainSet_ok haccepted with ⟨hsame, hreplay⟩ | ⟨targets, hadm, -, -, rfl, hworld⟩
  · obtain ⟨-, hget, set, hset, hnorm, hmembers⟩ := hreplay
    refine ⟨set.targets, hnorm, hmembers, ?_⟩
    rw [hsame]
    exact ⟨hget, set, hset, rfl⟩
  · refine ⟨targets, hadm.normalized, hadm.members, ?_⟩
    have hunused := hadm.unused
    rw [if_neg hnonce] at hunused
    rw [hworld]
    constructor
    · show OrdMap.get? (if request.nonce ≠ 0 ∧ (OrdMap.get? e.nonceSets request.nonce).isNone
        then OrdMap.set e.nonceSets request.nonce (e.setHighWater + 1) else e.nonceSets)
        request.nonce = _
      rw [if_pos ⟨hnonce, by rw [hunused]; rfl⟩]
      exact OrdMap.get?_set_self _ _ _
    · refine ⟨e.nextSet request targets now, ?_, rfl⟩
      rw [find_nextSet, hfiled.nextSet_free]
      rfl

/-- A request with a remembered nonce and the same targets. -/
theorem requestDrainSet_of_remembers (h : e.Remembers request.nonce setId targets)
    (hnonce : request.nonce ≠ 0)
    (hnorm : normalizeTargets request.targets e.policy.maxTargetsPerRequest = .ok targets)
    (hauth : e.requireAuthority request.authority now = .ok ())
    (hmembers : targets.length ≤ e.policy.maxDrainsInSet) :
    e.requestDrainSet request now =
      if e.HasRoom targets.length then (e, .ok setId)
      else (e, fail .boundsExceeded "drain table is at capacity") := by
  obtain ⟨set, hset, rfl⟩ := h.set
  have hfull : (e.sets.size ≥ maxDrainSets ∨ e.drains.size + set.targets.length > maxDrains) ↔
      ¬ e.HasRoom set.targets.length := by
    rw [HasRoom, not_and_or, Nat.not_lt, Nat.not_le]
  simp only [requestDrainSet, hnorm, hauth, if_neg (Nat.not_lt.mpr hmembers), hfull, ite_not,
    if_neg hnonce, h.filed, hset, Option.any_some, decide_true, if_true]

end

/-- A repetition of an accepted request, at any later time. -/
theorem requestDrainSet_replay {C : Engine → Event → Prop} (he : Reachable C e)
    {setId : DrainSetId} (hnonce : request.nonce ≠ 0)
    (haccepted : (e.requestDrainSet request now).2 = .ok setId) {events : List Event}
    {e' : Engine} (hrun : e' = run fire (e.requestDrainSet request now).1 events)
    (hpolicy : e'.policy = e.policy) {replay : DrainRequest} {later : TimePoint}
    (hreplay : replay.nonce = request.nonce)
    (hsame : ∀ target, target ∈ replay.targets ↔ target ∈ request.targets)
    (hlimit : replay.targets.length ≤ e'.policy.maxTargetsPerRequest)
    (hauth : e'.requireAuthority replay.authority later = .ok ()) :
    e'.requestDrainSet replay later =
      if e'.HasRoom replay.targets.dedup.length then (e', .ok setId)
      else (e', fail .boundsExceeded "drain table is at capacity") := by
  obtain ⟨targets, hnorm, hmembers, hremembers⟩ := remembers_of_accepted he.filed hnonce haccepted
  have hkept : e'.Remembers request.nonce setId targets := by
    have hnonces := nonces_fire e (.call (.requestDrainSet request now)) he.nonces
    rw [hrun]
    exact (run_invariant (C := fun _ _ => True) (P := fun e : Engine =>
      (∀ p ∈ e.nonceSets.toList, p.1 ≠ 0) ∧ e.Remembers request.nonce setId targets)
      (fun e ev h _ => remembers_fire e ev h) ⟨hnonces, hremembers⟩
      (always_of_forall (fun _ _ _ => trivial) _)).2
  rw [hpolicy] at hlimit
  have hnorm' := normalizeTargets_congr hnorm hsame hlimit
  rw [← hpolicy] at hnorm' hmembers
  rw [← hreplay] at hnonce hkept
  rw [← length_normalizeTargets hnorm']
  exact requestDrainSet_of_remembers hkept hnonce hnorm' hauth hmembers

/-- In every run, for every request with a nonce that was accepted with the set `setId`,
at any later time under the same policy: repeated with the nonce, the same targets in any
order and with any repetitions within the limit, and an authority that is valid then, it
returns `setId` and leaves the drains and sets alone exactly when the tables have room
for another set of as many drains. -/
theorem replay_returns_iff {C : Engine → Event → Prop} {e : Engine} (he : Reachable C e)
    {request : DrainRequest} {now : TimePoint} {setId : DrainSetId} (hnonce : request.nonce ≠ 0)
    (haccepted : (e.requestDrainSet request now).2 = .ok setId) {events : List Event} {e' : Engine}
    (hrun : e' = run fire (e.requestDrainSet request now).1 events) (hpolicy : e'.policy = e.policy)
    {replay : DrainRequest} {later : TimePoint} (hreplay : replay.nonce = request.nonce)
    (hsame : ∀ target, target ∈ replay.targets ↔ target ∈ request.targets)
    (hlimit : replay.targets.length ≤ e'.policy.maxTargetsPerRequest)
    (hauth : e'.requireAuthority replay.authority later = .ok ()) :
    ((e'.requestDrainSet replay later).2 = .ok setId ∧
        (e'.requestDrainSet replay later).1.drains = e'.drains ∧
        (e'.requestDrainSet replay later).1.sets = e'.sets) ↔
      e'.HasRoom replay.targets.dedup.length := by
  rw [requestDrainSet_replay he hnonce haccepted hrun hpolicy hreplay hsame hlimit hauth]
  split_ifs with hroom
  · exact iff_of_true ⟨rfl, rfl, rfl⟩ hroom
  · exact iff_of_false (fun h => fail_ne_ok h.1) hroom

/-! ### Filling the table of sets -/

namespace OnePort

/-- A target for every number, none of them in the topology. -/
def numbered (k : Nat) : DrainTarget :=
  { kind := .port, id := String.ofList (List.replicate (k + 1) 'p') }

theorem numbered_injective : Function.Injective numbered := by
  intro a b h
  have hids := congrArg (fun target : DrainTarget => target.id.toList.length) h
  simpa [numbered] using hids

/-- A request for one of them. -/
def drainNumbered (k : Nat) (nonce : RequestNonce) : DrainRequest :=
  { targets := [numbered k], authority := 1, nonce }

/-- Requests for the next targets, without a nonce. -/
def filling (count : Nat) : List Event :=
  (List.range count).map (fun k => .call (.requestDrainSet (drainNumbered (k + 1) 0) 1))

/-- Sets were requested for the first `n` targets. -/
structure Filled (n : Nat) (w : World) : Prop where
  policy : w.policy = authorized.policy
  authority : w.authority = authorized.authority
  topology : w.topology = authorized.topology
  sets : w.sets.size = n
  setMark : w.setHighWater = n
  drains : w.drains.size ≤ n
  drainMark : w.drainHighWater = n
  targets : ∀ id r, w.drain id = some r → ∃ j < n, r.target = numbered j
  filed : Filed w

theorem normalize_numbered (n : Nat) :
    normalizeTargets [numbered n] authorized.policy.maxTargetsPerRequest = .ok [numbered n] := by
  have hlimit : ¬ authorized.policy.maxTargetsPerRequest < 1 := by decide +kernel
  have hnamed : (numbered n).id.isEmpty = false := by
    simp [numbered, List.replicate_succ]
  simp only [normalizeTargets, bind_eq_ok, rejectIf_eq_ok, pure_eq_ok]
  refine ⟨(), List.cons_ne_nil _ _, (), hlimit, (), ?_, rfl⟩
  rw [List.any_cons, hnamed]
  exact Bool.false_ne_true

theorem Filled.admissible {n : Nat} {w : World} (h : Filled n w) (hn : n < maxDrainSets)
    {nonce : RequestNonce}
    (hunused : (if nonce = 0 then none else OrdMap.get? w.nonceSets nonce) = none) :
    w.Admissible (drainNumbered n nonce) [numbered n] 1 where
  normalized := by
    rw [h.policy]
    exact normalize_numbered n
  authorized := by
    have hauth : authorized.requireAuthority 1 1 = .ok () := by decide +kernel
    rw [requireAuthority, h.authority]
    exact hauth
  members := by
    have hlimit : 1 ≤ authorized.policy.maxDrainsInSet := by decide +kernel
    rw [h.policy]
    exact hlimit
  room := by
    rw [h.sets]
    have hdrains := h.drains
    unfold maxDrainSets at hn
    unfold maxDrainSets maxDrains
    simp only [List.length_singleton]
    omega
  unused := hunused
  free := by
    have hnone : w.drains.toList.find? (fun existing => existing.target = numbered n ∧
        ¬ (existing.state = .cancelled ∧ existing.restoredAt ≠ 0)) = none := by
      refine List.find?_eq_none.mpr (fun r hr => ?_)
      obtain ⟨j, hj, htarget⟩ := h.targets r.id r (Table.find?_of_mem hr)
      have hne : numbered j ≠ numbered n := fun heq => hj.ne (numbered_injective heq)
      simp [htarget, hne]
    simp only [ownedTarget, hnone]
  removable := by
    have habsent : (authorized.topology.resource (numbered n).id).isSome = false := rfl
    rw [correlatedViolation, List.all_cons, h.topology, habsent]
    rfl
  spread := by
    have hlimit : ¬ 1 > authorized.policy.maxConcurrentDrainsPerDomain := by decide +kernel
    rw [overloadedDomain, h.policy]
    simp [sortUnique, hlimit]

theorem Filled.next {n : Nat} (h : Filled n e.toWorld) (hn : n < maxDrainSets)
    {nonce : RequestNonce}
    (hunused : (if nonce = 0 then none else OrdMap.get? e.nonceSets nonce) = none) :
    Filled (n + 1) (e.requestDrainSet (drainNumbered n nonce) 1).1.toWorld ∧
      (e.requestDrainSet (drainNumbered n nonce) 1).2 = .ok (n + 1) := by
  have hadm := h.admissible hn hunused
  have hfiled := filed_fire e (.call (.requestDrainSet (drainNumbered n nonce) 1)) h.filed
  simp only [fire, apply] at hfiled
  rw [requestDrainSet_of_admissible hadm] at hfiled ⊢
  have hmark := h.setMark
  have hdrainMark := h.drainMark
  rcases createDrainSet_cases hadm with ⟨hfull, -⟩ | ⟨-, hfull, -⟩ | ⟨-, -, hworld, hok⟩
  · rw [hmark] at hfull
    unfold maxDrainSets at hn
    unfold u64Max at hfull
    omega
  · rw [hdrainMark, List.length_singleton] at hfull
    unfold maxDrainSets at hn
    unfold u64Max at hfull
    omega
  · rw [hworld] at hfiled ⊢
    rw [hok, hmark]
    have hnew : e.sets.find? (e.nextSet (drainNumbered n nonce) [numbered n] 1).id = none := by
      refine Option.eq_none_iff_forall_ne_some.mpr (fun set hset => ?_)
      exact Nat.not_succ_le_self _ (h.filed.set _ set hset).2
    refine ⟨⟨h.policy, h.authority, h.topology, ?_, ?_, ?_, ?_, ?_, hfiled⟩, rfl⟩
    · exact (Table.size_emplace_of_new hnew).trans (congrArg (· + 1) h.sets)
    · exact congrArg (· + 1) hmark
    · exact (size_withDrains_le e.toWorld (drainNumbered n nonce) [numbered n] 1).trans
        (Nat.succ_le_succ h.drains)
    · exact congrArg (· + 1) hdrainMark
    · intro id r hr
      rcases drain_withDrains_cases hr with hold | ⟨hmade, -⟩
      · obtain ⟨j, hj, htarget⟩ := h.targets id r hold
        exact ⟨j, Nat.lt_succ_of_lt hj, htarget⟩
      · exact ⟨n, Nat.lt_succ_self n, List.mem_singleton.mp (mem_newDrains hmade).2.2.1⟩

theorem reachable_authorized : Reachable (fun _ _ => True) authorized :=
  reachable_run (.init { maxConcurrentDrainsPerDomain := 2 }) (by decide +kernel)

theorem filled_init : Filled 0 authorized.toWorld where
  policy := rfl
  authority := rfl
  topology := rfl
  sets := rfl
  setMark := rfl
  drains := le_rfl
  drainMark := rfl
  targets := fun _ _ h => by cases h
  filed := reachable_authorized.filed

/-- The first request with its target named twice. -/
def repeated : DrainRequest :=
  { targets := [numbered 0, numbered 0], authority := 1, nonce := 7 }

/-- The first request, with a nonce, and then as many others. -/
def full (count : Nat) : Engine :=
  run fire (authorized.requestDrainSet (drainNumbered 0 7) 1).1 (filling count)

theorem filled_full {count : Nat} (h : count < maxDrainSets) :
    Filled (count + 1) (full count).toWorld := by
  induction count with
  | zero => exact (filled_init.next h rfl).1
  | succ k ih =>
    have hnext := ((ih (Nat.lt_of_succ_lt h)).next h (if_pos rfl)).1
    rw [full, filling, List.range_succ, List.map_append, List.map_singleton, run_concat]
    exact hnext

end OnePort

/-- The first request is repeated after another one, with its target named twice. -/
theorem replay_returns_iff_onePort :
    ((OnePort.full 1).requestDrainSet OnePort.repeated 1).2 = .ok 1 := by
  have hnonce : (OnePort.drainNumbered 0 7).nonce ≠ 0 := by decide
  have haccepted : (OnePort.authorized.requestDrainSet (OnePort.drainNumbered 0 7) 1).2 = .ok 1 := by
    decide +kernel
  have hpolicy : (OnePort.full 1).policy = OnePort.authorized.policy := by decide +kernel
  have hlimit : OnePort.repeated.targets.length ≤
      (OnePort.full 1).policy.maxTargetsPerRequest := by
    decide +kernel
  have hauth : (OnePort.full 1).requireAuthority OnePort.repeated.authority 1 = .ok () := by
    decide +kernel
  have hroom : (OnePort.full 1).HasRoom OnePort.repeated.targets.dedup.length := by
    decide +kernel
  have hreplay : OnePort.repeated.nonce = (OnePort.drainNumbered 0 7).nonce := rfl
  have hsame : ∀ target, target ∈ OnePort.repeated.targets ↔
      target ∈ (OnePort.drainNumbered 0 7).targets := by
    intro target
    simp [OnePort.repeated, OnePort.drainNumbered]
  exact ((replay_returns_iff OnePort.reachable_authorized hnonce haccepted
    (show OnePort.full 1 = run fire _ (OnePort.filling 1) from rfl) hpolicy hreplay hsame hlimit
    hauth).mpr hroom).1

/-- With the table of sets full the first request is refused when it is repeated. -/
theorem replay_refused_at_capacity :
    (OnePort.authorized.requestDrainSet (OnePort.drainNumbered 0 7) 1).2 = .ok 1 ∧
      (OnePort.full 16383).policy = OnePort.authorized.policy ∧
      (OnePort.full 16383).requireAuthority 1 1 = .ok () ∧
      ((OnePort.full 16383).requestDrainSet (OnePort.drainNumbered 0 7) 1).2 =
        fail .boundsExceeded "drain table is at capacity" := by
  have hnonce : (OnePort.drainNumbered 0 7).nonce ≠ 0 := by decide
  have haccepted : (OnePort.authorized.requestDrainSet (OnePort.drainNumbered 0 7) 1).2 = .ok 1 :=
    (OnePort.filled_init.next (by decide) rfl).2
  have hfilled : OnePort.Filled 16384 (OnePort.full 16383).toWorld :=
    OnePort.filled_full (by decide)
  have hauth : (OnePort.full 16383).requireAuthority 1 1 = .ok () := by
    have hfirst : OnePort.authorized.requireAuthority 1 1 = .ok () := by decide +kernel
    rw [requireAuthority, hfilled.authority]
    exact hfirst
  refine ⟨haccepted, hfilled.policy, hauth, ?_⟩
  have hlimit : (OnePort.drainNumbered 0 7).targets.length ≤
      (OnePort.full 16383).policy.maxTargetsPerRequest := by
    rw [hfilled.policy]
    decide +kernel
  have hfull : ¬ (OnePort.full 16383).HasRoom (OnePort.drainNumbered 0 7).targets.dedup.length := by
    intro hroom
    exact absurd hroom.1 (by rw [hfilled.sets]; decide)
  rw [requestDrainSet_replay OnePort.reachable_authorized hnonce haccepted
    (show OnePort.full 16383 = run fire _ (OnePort.filling 16383) from rfl) hfilled.policy rfl
    (fun _ => Iff.rfl) hlimit hauth, if_neg hfull]

end DrainFabric
