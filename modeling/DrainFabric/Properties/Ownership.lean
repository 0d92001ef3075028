import DrainFabric.Engine.Frame

/-!
# Fence ownership

A target has one owner at a time, and whoever has closed its admission keeps it
closed until the restoration. The first rests on `restored_at`: a zero there means that the
drain was never restored, and a snapshot reads every time it cannot represent back as
zero. So the operations have to happen at positive times.

* `fence_ownership` — one drain per target that is not restored, and everything from
  `AdmissionClosed` to `Drained` holds its fence;
* `fence_ownership_fails` — negative times, and two owners after a restart;
* `cancelled_holds_fence` — a cancelled drain holds its fence until it is restored,
  unless it is cancelled while it is being restored;
* `cancelled_holds_fence_fails` — what happens then.
-/

namespace DrainFabric

open Lib World Engine AdmissionFence

variable {e : Engine} {ev : Event} {id : DrainId} {r : DrainRecord}

/-- The drain is cancelled and was restored: its target may be requested again. -/
def DrainRecord.Restored (r : DrainRecord) : Prop := r.state = .cancelled ∧ r.restoredAt ≠ 0

/-- The event happens at a positive time. -/
def AtPositiveTime (_ : Engine) (ev : Event) : Prop := 0 < ev.time ∧ ev.time ≤ i64Max

/-- The event exhausts no revision. -/
def RevisionsLeft (e : Engine) (ev : Event) : Prop :=
  ∀ r ∈ (e.fire ev).drains.toList, r.revision ≠ u64Max

instance (e : Engine) (ev : Event) : Decidable (RevisionsLeft e ev) :=
  inferInstanceAs (Decidable (∀ r ∈ (e.fire ev).drains.toList, r.revision ≠ u64Max))

/-- The event happens at a positive time and exhausts no revision. -/
def Orderly (e : Engine) (ev : Event) : Prop :=
  0 < ev.time ∧ ev.time ≤ i64Max ∧ ∀ r ∈ (e.fire ev).drains.toList, r.revision ≠ u64Max

instance (e : Engine) (ev : Event) : Decidable (Orderly e ev) :=
  inferInstanceAs (Decidable (0 < ev.time ∧ ev.time ≤ i64Max ∧
    ∀ r ∈ (e.fire ev).drains.toList, r.revision ≠ u64Max))

theorem Orderly.revision (h : Orderly e ev) (hr : (e.fire ev).drain id = some r) :
    r.revision ≠ u64Max :=
  h.2.2 r (Table.mem_of_find? hr)

/-- Restoration times are ones a snapshot can represent. -/
def World.Stamped (w : World) : Prop :=
  ∀ id r, w.drain id = some r → 0 ≤ r.restoredAt ∧ r.restoredAt ≤ i64Max

/-- No two drains of one target are unrestored. -/
def World.SoleOwner (w : World) : Prop :=
  ∀ id r id' r', w.drain id = some r → w.drain id' = some r' → r.target = r'.target →
    ¬ r.Restored → ¬ r'.Restored → id = id'

/-- A drained target is still fenced by its drain. -/
def World.DrainedHeld (w : World) : Prop :=
  ∀ id r, w.drain id = some r → r.state = .drained → w.fence.HeldBy r.target id r.generation

/-! ### Restoration times -/

theorem stamped_fire (inv : Stamped e.toWorld) (htime : 0 < ev.time ∧ ev.time ≤ i64Max) :
    Stamped (e.fire ev).toWorld := by
  intro id r' hr'
  cases (fire_drainStep e ev).fate hr' with
  | born _ _ _ _ _ hrestored =>
    rw [hrestored]
    decide
  | keeps hr kept =>
    rw [kept.restoredAt_eq (inv id _ hr)]
    exact inv id _ hr
  | moves hr _ _ _ _ hrestored => exact hrestored ▸ inv id _ hr
  | closes hr _ _ _ hrestored => exact hrestored ▸ inv id _ hr
  | retries hr hold => exact hold.restoredAt ▸ inv id _ hr
  | settles _ _ _ _ _ hrestored => exact hrestored ▸ ⟨htime.1.le, htime.2⟩
  | cancels hr _ _ _ _ _ hrestored => exact hrestored ▸ inv id _ hr
  | reopens hr _ _ _ _ _ hrestored => exact hrestored ▸ inv id _ hr
  | refused hr => exact inv id _ hr

/-! ### One owner -/

/-- Once restored, a drain stays restored. -/
theorem restored_fire {r' : DrainRecord} (inv : Stamped e.toWorld) (hr : e.drain id = some r)
    (hdone : r.Restored) (hr' : (e.fire ev).drain id = some r') : r'.Restored := by
  have hphase : r.phase = .cancelled :=
    (phase_of_settled (by simp [hdone.1, isSettled])).trans hdone.1
  -- The acting cases start from a phase or a state that is not `Cancelled`.
  have hsame : ∀ {q : DrainRecord}, e.drain id = some q → q = r := fun hq =>
    Option.some.inj (hq.symm.trans hr)
  cases (fire_drainStep e ev).fate hr' with
  | born hnone => cases hnone.symm.trans hr
  | keeps hq kept =>
    obtain rfl := hsame hq
    refine ⟨(kept.settled (by simp [hdone.1, isSettled])).trans hdone.1, ?_⟩
    rw [kept.restoredAt_eq (inv id _ hr)]
    exact hdone.2
  | moves hq _ hpath =>
    obtain rfl := hsame hq
    rw [hphase] at hpath
    cases hpath with
    | forward hf => cases hf
  | closes hq _ hvalidating =>
    obtain rfl := hsame hq
    cases hphase.symm.trans hvalidating
  | retries hq _ hvalidating =>
    obtain rfl := hsame hq
    cases hphase.symm.trans hvalidating
  | settles hq _ hrestoring =>
    obtain rfl := hsame hq
    cases hphase.symm.trans hrestoring
  | cancels hq _ _ hcancelled =>
    obtain rfl := hsame hq
    exact absurd hdone.1 hcancelled
  | reopens hq _ _ hnot =>
    obtain rfl := hsame hq
    exact absurd hdone hnot
  | refused hq _ hnot =>
    obtain rfl := hsame hq
    exact absurd hdone hnot

theorem soleOwner_fire (hstamped : Stamped e.toWorld) (inv : SoleOwner e.toWorld) :
    SoleOwner (e.fire ev).toWorld := by
  intro id r id' r' hr hr' htarget hopen hopen'
  by_contra hne
  refine ((fire_drainStep e ev).apart (P := DrainRecord.Restored) (fun _ h => h)
    (fun hq hq' h => restored_fire hstamped hq h hq') ?_ id r id' r' hr hr' htarget hne).elim
    hopen hopen'
  intro id q id' q' hq hq' htarget hne
  by_contra hnone
  rw [not_or] at hnone
  exact hne (inv id q id' q' hq hq' htarget hnone.1 hnone.2)

/-! ### Drained targets -/

theorem drainedHeld_fire (hfenced : Fenced e.toWorld) (inv : DrainedHeld e.toWorld)
    (hrevision : ∀ id authority reason now r, ev = .call (.restoreDrain id authority reason now) →
      e.drain id = some r → (e.fire ev).drain id = some r → r.revision ≠ u64Max) :
    DrainedHeld (e.fire ev).toWorld := by
  intro id r' hr' hs
  cases (fire_drainStep e ev).fate hr' with
  | born _ _ _ hs' => cases hs'.symm.trans hs
  | keeps hr kept same =>
    rw [kept.target, kept.generation]
    exact same.held _ (inv id _ hr (kept.drained hs))
  | @moves _ r hr htarget hpath hphase hgen _ hfence =>
    rw [htarget, hgen, hfence]
    rw [← hphase, hs] at hpath
    refine hfenced.held id r hr ?_
    generalize r.phase = source at hpath
    cases hpath with
    | forward hf => cases hf
    | complete => rfl
  | closes _ htarget _ hheld => exact htarget ▸ hheld
  | retries hr hold hphase =>
    have hs' := hold.drained hs
    rw [phase_of_settled (by simp [hs', isSettled]), hs'] at hphase
    cases hphase
  | settles _ _ _ hs' => cases hs'.symm.trans hs
  | cancels _ _ _ _ hs' => cases hs'.symm.trans hs
  | reopens _ _ _ _ hs' => cases hs'.symm.trans hs
  | refused hr _ _ hkept =>
    -- A restoration can be refused after it reopened the fence, when no revision is left.
    rcases hkept with hkept | hrev
    · exact hkept _ (inv id r' hr hs)
    · exact absurd hrev (hrevision id _ _ _ r' rfl hr hr')

/-! ### The ownership invariant -/

/-- In every state reachable at positive times, a target has at most one drain that is not
restored. In every state reachable without exhausting a revision, at any times, a drain
that is between `AdmissionClosed` and `Verifying`, or blocked from there, or drained, has
the fence of its target closed in its own name and under its own generation. -/
theorem fence_ownership (e : Engine) :
    (Reachable AtPositiveTime e → ∀ id r id' r', e.drain id = some r → e.drain id' = some r' →
      r.target = r'.target → ¬ r.Restored → ¬ r'.Restored → id = id') ∧
    (Reachable RevisionsLeft e →
      ∀ id r, e.drain id = some r → holdsFence r = true ∨ r.state = .drained →
        ∃ entry, e.fence.entry r.target = some entry ∧ entry.closed = true ∧ entry.drain = id ∧
          entry.generation = r.generation) := by
  constructor
  · intro he
    have hall := he.invariant (P := fun e : Engine => Stamped e.toWorld ∧ SoleOwner e.toWorld)
      (fun policy => ⟨fun _ _ h => by simp at h, fun _ _ _ _ h => by simp at h⟩)
      (fun e ev ⟨hstamped, howner⟩ hev =>
        ⟨stamped_fire hstamped hev, soleOwner_fire hstamped howner⟩)
    exact hall.2
  · intro he id r hr hcase
    have hall := he.invariant (P := fun e : Engine => Fenced e.toWorld ∧ DrainedHeld e.toWorld)
      (fun policy => ⟨fenced_init policy, fun _ _ h => by simp at h⟩)
      (fun e ev ⟨hfenced, hdrained⟩ hev => ⟨fenced_fire e ev hfenced,
        drainedHeld_fire hfenced hdrained
          (fun _ _ _ _ r _ _ hr => hev r (Table.mem_of_find? hr))⟩)
    rcases hcase with hholds | hs
    · rw [holdsFence_eq] at hholds
      exact hall.1.held id r hr hholds
    · exact hall.2 id r hr hs

theorem fence_ownership_onePort :
    ∃ r entry, (OnePort.afterPasses 5).drain 1 = some r ∧ r.state = .drained ∧
      (OnePort.afterPasses 5).fence.entry r.target = some entry ∧ entry.closed = true ∧
      entry.drain = 1 ∧ entry.generation = r.generation := by
  have hreach : Reachable RevisionsLeft (OnePort.afterPasses 5) :=
    reachable_run (.init {}) (by decide +kernel)
  have hdrained : ((OnePort.afterPasses 5).drain 1).any (fun r => r.state = .drained) = true := by
    decide +kernel
  obtain ⟨r, hr, hs⟩ := Option.any_eq_true _ _ |>.mp hdrained
  rw [decide_eq_true_iff] at hs
  obtain ⟨entry, hentry⟩ := (fence_ownership _).2 hreach 1 r hr (Or.inr hs)
  exact ⟨r, entry, hr, hs, hentry⟩

/-- The drain of the port is cancelled, restored and requested again, all at one time;
then the engine is restarted. -/
def OnePort.requestedAgain (now : TimePoint) : List Operation :=
  (OnePort.setup now).map .call ++
    [.call (.cancelDrain 1 1 "abort" now), .call (.restoreDrain 1 1 "back" now), .advance now,
      .call (.requestDrain { targets := [OnePort.port], reason := "again", authority := 1 } now),
      .restart 1 now]

/-- At a negative time the restart forgets that the first drain was restored, and the
target has two owners. -/
theorem fence_ownership_fails :
    Reachable (fun e ev => ev.time ≠ 0 ∧ ∀ r ∈ (e.fire ev).drains.toList, r.revision ≠ u64Max)
        (run perform (Engine.init {}) (OnePort.requestedAgain (-5))) ∧
      (run perform (Engine.init {}) (OnePort.requestedAgain (-5))).drains.toList.map
          (fun r => (r.id, r.target, r.state, r.restoredAt)) =
        [(1, OnePort.port, .cancelled, 0), (2, OnePort.port, .requested, 0)] :=
  ⟨reachable_run (.init {}) (by decide +kernel), by decide +kernel⟩

/-! ### Cancelled drains -/

/-- The drain an event cancels. -/
def Event.cancels : Event → Option DrainId
  | .call (.cancelDrain id _ _ _) => some id
  | _ => none

/-- The event is orderly and cancels no drain that is being restored. -/
def CancelsNoRestoration (e : Engine) (ev : Event) : Prop :=
  Orderly e ev ∧ ∀ id ∈ ev.cancels, ∀ r ∈ e.drain id, r.phase ≠ .restoring

instance (e : Engine) (ev : Event) : Decidable (CancelsNoRestoration e ev) :=
  inferInstanceAs (Decidable (Orderly e ev ∧
    ∀ id ∈ ev.cancels, ∀ r ∈ e.drain id, r.phase ≠ .restoring))

/-- A drain that has not closed admission yet has no generation. -/
def World.Ungenerated (w : World) : Prop :=
  ∀ id r, w.drain id = some r → r.phase = .requested ∨ r.phase = .validating → r.generation = 0

/-- A cancelled drain that closed admission and was not restored holds its fence. -/
def World.CancelledHeld (w : World) : Prop :=
  ∀ id r, w.drain id = some r → r.state = .cancelled → r.generation ≠ 0 → r.restoredAt = 0 →
    w.fence.HeldBy r.target id r.generation

theorem ungenerated_fire (inv : Ungenerated e.toWorld)
    (hrevision : ∀ id r, (e.fire ev).drain id = some r → r.revision ≠ u64Max) :
    Ungenerated (e.fire ev).toWorld := by
  intro id r' hr' hp
  cases (fire_drainStep e ev).fate hr' with
  | born _ _ _ _ hgen => exact hgen
  | keeps hr kept => exact kept.generation ▸ inv id _ hr (kept.phase ▸ hp)
  | @moves _ r hr _ hpath _ hgen =>
    rw [hgen]
    exact inv id r hr (Or.inl (hpath.start hp))
  | closes _ _ _ _ _ _ hcase =>
    rcases hcase with hs | ⟨-, hrev⟩
    · simp [DrainRecord.phase_of_state hs] at hp
    · exact absurd hrev (hrevision id r' hr')
  | retries hr hold => exact hold.generation ▸ inv id _ hr (hold.phase ▸ hp)
  | settles _ _ _ hs | cancels _ _ _ _ hs | reopens _ _ _ _ hs =>
    simp [DrainRecord.phase_of_state hs] at hp
  | refused hr => exact inv id r' hr hp

/-- A drain that can be cancelled and has closed admission holds its fence, unless it
is being restored. -/
theorem held_of_cancellable {w : World} (hfenced : Fenced w) (hungenerated : Ungenerated w)
    (hr : w.drain id = some r) (hdrained : r.state ≠ .drained) (hcancelled : r.state ≠ .cancelled)
    (hrestoring : r.phase ≠ .restoring) (hgen : r.generation ≠ 0) :
    w.fence.HeldBy r.target id r.generation := by
  obtain ⟨hfailed, hblocked, hsettled⟩ := hfenced.shape id r hr
  refine hfenced.held id r hr ?_
  cases hphase : r.phase with
  | requested => exact absurd (hungenerated id r hr (Or.inl hphase)) hgen
  | validating => exact absurd (hungenerated id r hr (Or.inr hphase)) hgen
  | admissionClosed => rfl
  | evacuating => rfl
  | quiescing => rfl
  | verifying => rfl
  | drained => exact absurd ((hsettled (by simp [hphase, isSettled])).trans hphase) hdrained
  | blocked => exact absurd hphase hblocked
  | restoring => exact absurd hphase hrestoring
  | cancelled => exact absurd ((hsettled (by simp [hphase, isSettled])).trans hphase) hcancelled
  | failed => exact absurd hphase hfailed

theorem cancelledHeld_fire (hfenced : Fenced e.toWorld) (hstamped : Stamped e.toWorld)
    (hungenerated : Ungenerated e.toWorld) (inv : CancelledHeld e.toWorld)
    (hev : CancelsNoRestoration e ev) : CancelledHeld (e.fire ev).toWorld := by
  intro id r' hr' hs hgen hrestored
  have hphase : r'.phase = .cancelled := (phase_of_settled (by simp [hs, isSettled])).trans hs
  cases (fire_drainStep e ev).fate hr' with
  | born _ _ _ hs' => cases hs'.symm.trans hs
  | @keeps _ r hr kept same =>
    have hcancelled : r.state = .cancelled := by
      have hp : r.phase = .cancelled := kept.phase ▸ hphase
      rw [(hfenced.shape id r hr).2.2 (by simp [hp, isSettled]), hp]
    rw [kept.target, kept.generation]
    rw [kept.generation] at hgen
    rw [kept.restoredAt_eq (hstamped id r hr)] at hrestored
    exact same.held _ (inv id r hr hcancelled hgen hrestored)
  | moves _ _ hpath => exact absurd hphase hpath.facts.2.2.2.1
  | closes _ _ _ _ _ _ hcase =>
    rcases hcase with hs' | ⟨hp, -⟩
    · cases hs'.symm.trans hs
    · cases hp.symm.trans hphase
  | retries _ hold hp => cases (hold.phase.trans hp).symm.trans hphase
  | settles _ _ _ _ _ hat => exact absurd (hat.symm.trans hrestored) hev.1.1.ne'
  | cancels hr htarget hdrained hcancelled _ hgen' _ hfence =>
    rw [htarget, hgen', hfence]
    rw [hgen'] at hgen
    exact held_of_cancellable hfenced hungenerated hr hdrained hcancelled (hev.2 id rfl _ hr) hgen
  | reopens _ _ _ _ hs' => cases hs'.symm.trans hs
  | refused hr _ _ hkept =>
    rcases hkept with hkept | hrev
    · exact hkept _ (inv id r' hr hs hgen hrestored)
    · exact absurd hrev (hev.1.revision hr')

/-- In every state reachable at positive times, without exhausting a revision and
without cancelling a drain that is being restored: a cancelled drain that closed
admission and was not restored still has the fence of its target closed in its own
name and under its own generation. -/
theorem cancelled_holds_fence {e : Engine} (he : Reachable CancelsNoRestoration e) {id : DrainId}
    {r : DrainRecord} (hr : e.drain id = some r) (hs : r.state = .cancelled)
    (hgen : r.generation ≠ 0) (hrestored : r.restoredAt = 0) :
    ∃ entry, e.fence.entry r.target = some entry ∧ entry.closed = true ∧ entry.drain = id ∧
      entry.generation = r.generation := by
  have hall := he.invariant (P := fun e : Engine => Fenced e.toWorld ∧ Stamped e.toWorld ∧
      Ungenerated e.toWorld ∧ CancelledHeld e.toWorld)
    (fun policy => ⟨fenced_init policy, fun _ _ h => by simp at h,
      fun _ _ h => by simp at h, fun _ _ h => by simp at h⟩)
    (fun e ev ⟨hfenced, hstamped, hungenerated, hcancelled⟩ hev =>
      ⟨fenced_fire e ev hfenced, stamped_fire hstamped ⟨hev.1.1, hev.1.2.1⟩,
        ungenerated_fire hungenerated (fun _ _ => hev.1.revision),
        cancelledHeld_fire hfenced hstamped hungenerated hcancelled hev⟩)
  exact hall.2.2.2 id r hr hs hgen hrestored

/-- The drain of the port is cancelled once admission is closed, and then goes through
the given calls. -/
def OnePort.cancelled (calls : List Call) : Engine :=
  run perform (Engine.init {}) ((OnePort.setup 1).map .call ++ [.advance 1, .advance 1] ++
    (.cancelDrain 1 1 "abort" 1 :: calls).map .call)

theorem cancelled_holds_fence_onePort :
    ∃ r entry, (OnePort.cancelled []).drain 1 = some r ∧ r.generation = 1 ∧
      (OnePort.cancelled []).fence.entry r.target = some entry ∧ entry.closed = true ∧
      entry.drain = 1 ∧ entry.generation = r.generation := by
  have hreach : Reachable CancelsNoRestoration (OnePort.cancelled []) :=
    reachable_run (.init {}) (by decide +kernel)
  have hcancelled : ((OnePort.cancelled []).drain 1).any
      (fun r => r.state = .cancelled ∧ r.generation = 1 ∧ r.restoredAt = 0) = true := by
    decide +kernel
  obtain ⟨r, hr, h⟩ := Option.any_eq_true _ _ |>.mp hcancelled
  rw [decide_eq_true_iff] at h
  obtain ⟨hs, hgen, hrestored⟩ := h
  obtain ⟨entry, hentry⟩ := cancelled_holds_fence hreach hr hs (by simp [hgen]) hrestored
  exact ⟨r, entry, hr, hgen, hentry⟩

/-- A drain that is cancelled while it is being restored leaves the fence open. -/
theorem cancelled_holds_fence_fails :
    Reachable Orderly
        (OnePort.cancelled [.restoreDrain 1 1 "back" 1, .cancelDrain 1 1 "abort" 1]) ∧
      ((OnePort.cancelled [.restoreDrain 1 1 "back" 1, .cancelDrain 1 1 "abort" 1]).drain 1).map
        (fun r => (r.target, r.state, r.generation, r.restoredAt)) =
        some (OnePort.port, .cancelled, 1, 0) ∧
      ((OnePort.cancelled [.restoreDrain 1 1 "back" 1, .cancelDrain 1 1 "abort" 1]).fence.entry
        OnePort.port).map FenceEntry.closed = some false :=
  ⟨reachable_run (.init {}) (by decide +kernel), by decide +kernel⟩

end DrainFabric
