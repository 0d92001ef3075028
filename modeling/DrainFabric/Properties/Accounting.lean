import DrainFabric.Engine.Audit
import DrainFabric.Properties.Generations
import DrainFabric.Properties.Ownership
import DrainFabric.Properties.Recovery

/-!
# What the audit can report

The audit checks the state for what the operations are meant to rule out. In most of its
checks they do: the fences and the drains account for one another in every reachable
state, as long as no revision and no generation runs out and no drain is cancelled while
it is being restored. What remains are three things the engine has no say in.

* `DrainStep.heldBy` — a closure is an old one, or the drain has just made it;
* `Accounted` — every closure has its drain, and what is restored was passed by its fence;
* `fence_exact`, `fences_counted` — the closed fences are those of the drains that have
  closed admission and were not restored;
* `audit_exact`, `audit_restart` — the lines the report can have, before and after a restart.
-/

namespace DrainFabric

open Lib World Engine AdmissionFence

variable {w w' : World} {ev : Event} {e : Engine} {id : DrainId} {r r' : DrainRecord}
  {f f' : AdmissionFence} {target : DrainTarget} {generation : Generation}

/-- While generations last, a forced reopening that fails leaves the fence alone: what it
has just closed it can also reopen. -/
theorem reopenFence_error {reason : String} {now : TimePoint} {err : Error} (hbound : f.Bounded)
    (hgen : f.generation r.target < u64Max) (hgen' : f'.generation r.target < u64Max)
    (h : reopenFence f r reason now = (f', .error err)) : f' = f := by
  rcases reopenFence_cases h with ⟨rfl, -⟩ | ⟨_, hok, -⟩ | ⟨hopen, mid, closed, hclose, hend⟩
  · rfl
  · cases hok
  rcases hend with ⟨rfl, -⟩ | ⟨_, _, -, hok, -⟩
  · cases closed with
    | error _ => exact close_refused hbound hgen hclose
    | ok next =>
      obtain ⟨-, -, ⟨entry, hentry, hclosed, -⟩, -⟩ := close_ok hclose
      have hid : r.id ≠ 0 := by
        intro hzero
        obtain ⟨_, hrefused⟩ := close_zero f r.target now "restoration generation advance"
        rw [hzero, hrefused] at hclose
        cases (Prod.mk.inj hclose).2
      rw [generation_of_entry hentry] at hgen'
      obtain ⟨_, hreopen⟩ := (reopen_of_closed hentry hclosed hid now (truncate reason)).1 hgen'
      rw [reopenFence, hopen, if_neg Bool.false_ne_true] at h
      simp only [hclose, hreopen] at h
      split_ifs at h <;> cases (Prod.mk.inj h).2
  · cases hok

/-- A closure was there before the event, or its drain has just made it. -/
theorem World.DrainStep.heldBy (h : DrainStep w ev w') (hbound : w.fence.Bounded)
    (hgen : ∀ target, w.fence.generation target < u64Max)
    (hgen' : ∀ target, w'.fence.generation target < u64Max)
    (hrevision : ∀ id r, w'.drain id = some r → r.revision ≠ u64Max)
    (hheld : w'.fence.HeldBy target id generation) :
    w.fence.HeldBy target id generation ∨ generation ≠ 0 ∧
      ∃ r, w'.drain id = some r ∧ r.target = target ∧ r.generation = generation := by
  cases h with
  | stays _ _ hfence => exact Or.inl (hfence ▸ hheld)
  | moves _ _ _ _ _ hfence => exact Or.inl (hfence ▸ hheld)
  | @closes now r q _ _ hrw _ hown _ hclose =>
    obtain ⟨-, hnext, ⟨entry, hentry, -, -, hnew⟩, hothers⟩ := close_ok hclose
    by_cases hid : id = r.id
    · by_cases htarget : target = r.target
      · subst hid htarget
        obtain ⟨entry', hentry', -, -, rfl⟩ := hheld
        obtain rfl := Option.some.inj (hentry.symm.trans hentry')
        exact Or.inr ⟨by rw [hnew, hnext]; exact Nat.succ_ne_zero _, q,
          by rw [hrw.after, if_pos rfl], hrw.target, hnew.symm⟩
      · exact Or.inl ((Same.of_entry (hothers target htarget) id).heldBy hheld)
    · exact Or.inl ((close_keeps hclose hown hid).heldBy hheld)
  | closeFails _ _ _ _ hclose => exact Or.inl (close_refused hbound (hgen _) hclose ▸ hheld)
  | settles _ _ _ _ _ hfence => exact Or.inl (hfence ▸ hheld)
  | cancels _ _ _ _ _ _ hfence => exact Or.inl (hfence ▸ hheld)
  | @reopens _ _ _ r _ _ _ _ _ hreopen =>
    refine Or.inl ?_
    by_cases hid : id = r.id
    · by_cases htarget : r.target = target
      · obtain ⟨entry, hentry, hclosed, -⟩ := htarget.symm ▸ hheld
        have hopen := reopenFence_open hreopen
        rw [isClosed_iff.mpr ⟨entry, hentry, hclosed⟩] at hopen
        cases hopen
      · exact (Same.of_entry (entry_reopenFence hreopen htarget) id).heldBy hheld
    · exact (reopenFence_keeps hreopen hid).heldBy hheld
  | @reopenFails _ _ _ r _ _ hr _ _ hreopen hfail hdrains =>
    rcases hfail with ⟨err, rfl⟩ | hrev
    · exact Or.inl (reopenFence_error hbound (hgen _) (hgen' _) hreopen ▸ hheld)
    · exact absurd hrev (hrevision r.id r (by rw [drain, hdrains]; exact hr))
  | spawns _ hspawn => exact Or.inl (hspawn.fence ▸ hheld)
  | recovers hrec => exact Or.inl ((hrec.same target id).heldBy hheld)

/-- The fence has passed a drain that is being restored or was, and the drain is not in
use again. -/
def World.Passed (w : World) : Prop :=
  ∀ id r, w.drain id = some r → r.phase = .restoring ∨ r.restoredAt ≠ 0 →
    isGone r.phase = true ∧ r.generation < w.fence.generation r.target

/-- A call that moves a drain to `Restoring` leaves the fence past its generation. -/
theorem World.DrainStep.passes {authority : AuthorityId} {reason : String} {now : TimePoint}
    (h : DrainStep w (.call (.restoreDrain id authority reason now)) w') (hnumbered : Numbered w)
    (hr : w.drain id = some r) (hsettled : isSettled r.state = true)
    (hr' : w'.drain id = some r') (hs : r'.state = .restoring) :
    r'.generation < w'.fence.generation r'.target := by
  have hmoved : r'.state ≠ r.state := by
    intro heq
    rw [← heq, hs] at hsettled
    cases hsettled
  cases h with
  | stays _ hkept _ =>
    obtain ⟨q, hold, hq⟩ := hkept id r hr
    obtain rfl := Option.some.inj (hr'.symm.trans hq)
    exact absurd (hold.settled hsettled) hmoved
  | reopens hrw _ _ hreopen _ hgen =>
    rcases hrw.cases hr' with ⟨-, rfl⟩ | ⟨hne, -⟩
    · obtain ⟨hnext, hlater⟩ := reopenFence_generation hreopen
      rw [hrw.target, hgen, hnext]
      rcases hlater with hlt | ⟨hopen, hnewer⟩
      · exact (hnumbered.drains _ _ hrw.before).trans_lt hlt
      · rw [reopenFence_of_open hopen hnewer] at hreopen
        exact Except.ok.inj (Prod.mk.inj hreopen).2 ▸ hnewer
    · exact absurd rfl hne
  | reopenFails _ _ _ _ _ hdrains =>
    rw [drain, hdrains] at hr'
    exact absurd (congrArg DrainRecord.state (Option.some.inj (hr'.symm.trans hr))) hmoved
  | spawns _ hspawn =>
    rw [hspawn.kept id r hr] at hr'
    exact absurd (congrArg DrainRecord.state (Option.some.inj hr')).symm hmoved

theorem World.DrainStep.passed (h : DrainStep w ev w') (hadvances : Advances w.fence w'.fence)
    (hnumbered : Numbered w) (hstamped : Stamped w) (inv : Passed w) : Passed w' := by
  intro id r' hr' hcase
  have hfate := h.fate hr'
  have hkept : ∀ {r : DrainRecord}, w.drain id = some r → r'.target = r.target →
      r'.generation = r.generation → r.phase = .restoring ∨ r.restoredAt ≠ 0 →
      isGone r'.phase = true ∧ r'.generation < w'.fence.generation r'.target := by
    intro r hr htarget hgen hcase
    obtain ⟨hgone, hlt⟩ := inv id r hr hcase
    rw [htarget, hgen]
    exact ⟨hfate.gone hr hgone, hlt.trans_le (hadvances.generation_le r.target)⟩
  cases hfate with
  | born _ _ _ hs _ hat => simp [DrainRecord.phase_of_state hs, hat] at hcase
  | keeps hr kept =>
    rw [kept.phase, kept.restoredAt_eq (hstamped id _ hr)] at hcase
    exact hkept hr kept.target kept.generation hcase
  | moves hr htarget hpath _ hgen hat =>
    exact hkept hr htarget hgen (Or.inr (hat ▸ hcase.resolve_left hpath.facts.2.2.1))
  | closes hr _ hphase _ hat _ hs =>
    -- A drain that closes admission was not restored before.
    have hnot : r'.phase ≠ .restoring := by
      rcases hs with hs | ⟨hs, -⟩
      · simp [DrainRecord.phase_of_state hs]
      · simp [hs]
    have hgone := (inv id _ hr (Or.inr (hat ▸ hcase.resolve_left hnot))).1
    rw [hphase] at hgone
    cases hgone
  | retries hr hold =>
    rw [hold.phase, hold.restoredAt] at hcase
    exact hkept hr hold.target hold.generation hcase
  | settles hr htarget hrestoring _ hgen => exact hkept hr htarget hgen (Or.inl hrestoring)
  | cancels hr htarget _ _ hs hgen hat =>
    have hnot : r'.phase ≠ .restoring := by simp [DrainRecord.phase_of_state hs]
    exact hkept hr htarget hgen (Or.inr (hat ▸ hcase.resolve_left hnot))
  | reopens hr _ hsettled _ hs =>
    exact ⟨by rw [DrainRecord.phase_of_state hs (by decide)]; rfl,
      h.passes hnumbered hr hsettled hr' hs⟩
  | refused hr => exact hkept hr rfl rfl hcase

/-! ### The invariant -/

/-- The event is orderly, cancels no drain that is being restored and leaves generations. -/
def Steady (e : Engine) (ev : Event) : Prop :=
  CancelsNoRestoration e ev ∧ GenerationsLeft (e.fire ev) ev

instance (e : Engine) (ev : Event) : Decidable (Steady e ev) :=
  inferInstanceAs (Decidable (CancelsNoRestoration e ev ∧ GenerationsLeft (e.fire ev) ev))

/-- The fences and the drains account for one another. -/
structure Accounted (e : Engine) : Prop where
  left : ∀ ev, GenerationsLeft e ev
  fenced : Fenced e.toWorld
  stamped : Stamped e.toWorld
  owner : SoleOwner e.toWorld
  drained : DrainedHeld e.toWorld
  ungenerated : Ungenerated e.toWorld
  cancelled : CancelledHeld e.toWorld
  bound : Bound e.toWorld
  numbered : Numbered e.toWorld
  /-- A closure is that of a drain of the target, under its generation. -/
  closures : ∀ target id generation, e.fence.HeldBy target id generation → generation ≠ 0 ∧
    ∃ r, e.drain id = some r ∧ r.target = target ∧ r.generation = generation
  passed : Passed e.toWorld

theorem accounted_init (policy : DrainPolicy) : Accounted (Engine.init policy) where
  left := fun _ _ h => by cases h
  fenced := fenced_init policy
  stamped := fun _ _ h => by simp at h
  owner := fun _ _ _ _ h => by simp at h
  drained := fun _ _ h => by simp at h
  ungenerated := fun _ _ h => by simp at h
  cancelled := fun _ _ h => by simp at h
  bound := bound_init policy
  numbered := numbered_init policy
  closures := by
    rintro target id generation ⟨entry, hentry, -⟩
    cases hentry
  passed := fun _ _ h => by simp at h

/-- A closure keeps its drain: the drain is not validating. -/
theorem closures_fire (inv : Accounted e) (hev : Steady e ev) :
    ∀ target id generation, (e.fire ev).fence.HeldBy target id generation → generation ≠ 0 ∧
      ∃ r, (e.fire ev).drain id = some r ∧ r.target = target ∧ r.generation = generation := by
  intro target id generation hheld
  have hstep := fire_drainStep e ev
  rcases hstep.heldBy inv.bound.fence (inv.left ev).generation_lt hev.2.generation_lt
    (fun _ _ => hev.1.1.revision) hheld with hold | hnew
  · obtain ⟨hpos, r, hr, htarget, hgen⟩ := inv.closures target id generation hold
    obtain ⟨r', hr'⟩ := hstep.persists hr
    have hfate := hstep.fate hr'
    have hvalidating : r.phase ≠ .validating := fun h =>
      hpos (hgen.symm.trans (inv.ungenerated id r hr (Or.inr h)))
    exact ⟨hpos, r', hr', (hfate.target hr).trans htarget,
      (hfate.generation hr hvalidating).trans hgen⟩
  · exact hnew

theorem accounted_fire (inv : Accounted e) (hev : Steady e ev) : Accounted (e.fire ev) where
  left := fun _ => hev.2
  fenced := fenced_fire e ev inv.fenced
  stamped := stamped_fire inv.stamped ⟨hev.1.1.1, hev.1.1.2.1⟩
  owner := soleOwner_fire inv.stamped inv.owner
  drained := drainedHeld_fire inv.fenced inv.drained (fun _ _ _ _ _ _ _ => hev.1.1.revision)
  ungenerated := ungenerated_fire inv.ungenerated (fun _ _ => hev.1.1.revision)
  cancelled := cancelledHeld_fire inv.fenced inv.stamped inv.ungenerated inv.cancelled hev.1
  bound := bound_fire e ev inv.bound (inv.left ev)
  numbered := numbered_fire e ev inv.numbered (inv.left ev)
  closures := closures_fire inv hev
  passed := (fire_drainStep e ev).passed
    (advances_step (fire_drainStep e ev) inv.bound.fence (inv.left ev).generation_lt).1
    inv.numbered inv.stamped inv.passed

/-! ### The fences -/

theorem reachable_accounted (he : Reachable Steady e) : Accounted e :=
  he.invariant (P := Accounted) accounted_init (fun _ _ => accounted_fire)

/-- A closure in the name of a drain is under its generation, and the drain was not
restored. -/
theorem Accounted.owner_of_held (inv : Accounted e) {target : DrainTarget} {entry : FenceEntry}
    (hentry : e.fence.entry target = some entry) (hclosed : entry.closed = true) :
    ∃ r, e.drain entry.drain = some r ∧ r.target = target ∧ r.generation = entry.generation ∧
      r.generation ≠ 0 ∧ r.restoredAt = 0 := by
  obtain ⟨hpos, r, hr, rfl, hgen⟩ :=
    inv.closures target _ _ ⟨entry, hentry, hclosed, rfl, rfl⟩
  refine ⟨r, hr, rfl, hgen, hgen ▸ hpos, ?_⟩
  by_contra hat
  have hlt := (inv.passed _ r hr (Or.inr hat)).2
  rw [hgen, generation_of_entry hentry] at hlt
  exact Nat.lt_irrefl _ hlt

/-- The drain has closed admission and was not restored. -/
def DrainRecord.Fences (r : DrainRecord) : Prop :=
  holdsFence r = true ∨ r.state = .drained ∨
    r.state = .cancelled ∧ r.generation ≠ 0 ∧ r.restoredAt = 0

instance (r : DrainRecord) : Decidable r.Fences := inferInstanceAs (Decidable (_ ∨ _))

theorem Accounted.heldBy_iff (inv : Accounted e) : e.fence.HeldBy target id generation ↔
    ∃ r, e.drain id = some r ∧ r.target = target ∧ r.generation = generation ∧ r.Fences := by
  constructor
  · intro hheld
    have hclosedBy := hheld.closedBy
    obtain ⟨entry, hentry, hclosed, rfl, rfl⟩ := hheld
    obtain ⟨r, hr, rfl, hgen, hpos, hat⟩ := inv.owner_of_held hentry hclosed
    refine ⟨r, hr, rfl, hgen, ?_⟩
    obtain ⟨hfailed, hblocked, hsettled⟩ := inv.fenced.shape _ r hr
    rw [DrainRecord.Fences, holdsFence_eq]
    cases hphase : r.phase with
    | requested => exact absurd (inv.ungenerated _ r hr (Or.inl hphase)) hpos
    | validating => exact absurd (inv.ungenerated _ r hr (Or.inr hphase)) hpos
    | restoring => exact absurd hclosedBy (inv.fenced.restoring _ r hr hphase)
    | failed => exact absurd hphase hfailed
    | blocked => exact absurd hphase hblocked
    | drained => exact Or.inr (Or.inl ((hsettled (by rw [hphase]; rfl)).trans hphase))
    | cancelled =>
      exact Or.inr (Or.inr ⟨(hsettled (by rw [hphase]; rfl)).trans hphase, hpos, hat⟩)
    | _ => exact Or.inl rfl
  · rintro ⟨r, hr, rfl, rfl, hholds | hs | ⟨hs, hpos, hat⟩⟩
    · exact inv.fenced.held id r hr (holdsFence_eq r ▸ hholds)
    · exact inv.drained id r hr hs
    · exact inv.cancelled id r hr hs hpos hat

/-- The fence of a target is closed in the name of a drain, under a generation, exactly if
it is the target and the generation of that drain, and the drain has closed admission and
was not restored. -/
theorem fence_exact {e : Engine} (he : Reachable Steady e) (target : DrainTarget) (id : DrainId)
    (generation : Generation) : e.fence.HeldBy target id generation ↔
      ∃ r, e.drain id = some r ∧ r.target = target ∧ r.generation = generation ∧ r.Fences :=
  (reachable_accounted he).heldBy_iff

/-- The port is reported in service after its drain has removed it. -/
def OnePort.putBack : Engine :=
  run perform (OnePort.afterPasses 5) [.call (.reportResourceStatus "p1" .inService 1)]

theorem OnePort.putBack_reachable : Reachable Steady OnePort.putBack :=
  reachable_run (reachable_run (.init {}) (by decide +kernel)) (by decide +kernel)

theorem fence_exact_onePort :
    ∃ r, OnePort.putBack.drain 1 = some r ∧ r.Fences ∧
      OnePort.putBack.fence.HeldBy r.target 1 r.generation := by
  have hany : (OnePort.putBack.drain 1).any (fun r => r.Fences) = true := by decide +kernel
  obtain ⟨r, hr, hcase⟩ := (Option.any_eq_true _ _).mp hany
  have hfences := of_decide_eq_true hcase
  exact ⟨r, hr, hfences,
    (fence_exact OnePort.putBack_reachable _ _ _).mpr ⟨r, hr, rfl, rfl, hfences⟩⟩

/-! ### The report -/

/-- The audit counts as many closed fences as drains that have closed one. -/
theorem fences_counted {e : Engine} (he : Reachable Steady e) (now : TimePoint) :
    (e.audit now).fencesClosed = e.drains.toList.countP (fun r => r.Fences) := by
  have inv := reachable_accounted he
  have hdrain : ∀ r ∈ e.drains.toList, e.drain r.id = some r := fun _ => Table.find?_of_mem
  have howned : ∀ r ∈ e.drains.toList.filter (fun r => r.Fences), e.fence.ClosedBy r.target r.id := by
    intro r hr
    obtain ⟨hmem, hfences⟩ := List.mem_filter.mp hr
    exact (inv.heldBy_iff.mpr ⟨r, hdrain r hmem, rfl, rfl, of_decide_eq_true hfences⟩).closedBy
  -- The targets of the closed fences are those of the drains that have closed one.
  have hperm : ((e.fence.entries.toList.filter (fun p => p.2.closed)).map Prod.fst).Perm
      ((e.drains.toList.filter (fun r => r.Fences)).map DrainRecord.target) := by
    refine (List.perm_ext_iff_of_nodup ?_ (List.Nodup.map_on ?_ ?_)).mpr (fun target => ?_)
    · exact e.fence.entries.nodup_keys_filter _
    · intro r hr q hq htarget
      obtain ⟨entry, hentry, -, hid⟩ := howned r hr
      obtain ⟨entry', hentry', -, hid'⟩ := howned q hq
      rw [htarget] at hentry
      obtain rfl := Option.some.inj (hentry.symm.trans hentry')
      have hr := hdrain r (List.mem_of_mem_filter hr)
      rw [← hid, hid'] at hr
      exact Option.some.inj (hr.symm.trans (hdrain q (List.mem_of_mem_filter hq)))
    · exact (List.Nodup.of_map DrainRecord.id e.drains.nodup_keys).filter _
    · rw [Table.mem_keys_filter, Option.any_eq_true, List.mem_map]
      constructor
      · rintro ⟨p, hp, hclosed⟩
        obtain ⟨r, hr, htarget, -, hfences⟩ := inv.heldBy_iff.mp
          ⟨p.2, congrArg (Option.map Prod.snd) hp, hclosed, rfl, rfl⟩
        exact ⟨r, List.mem_filter.mpr ⟨Table.mem_of_find? hr, decide_eq_true hfences⟩, htarget⟩
      · rintro ⟨r, hr, rfl⟩
        obtain ⟨entry, hentry, hclosed, -⟩ := howned r hr
        obtain ⟨p, hp, rfl⟩ := Option.map_eq_some_iff.mp hentry
        exact ⟨p, hp, hclosed⟩
  show e.fence.entries.toList.countP _ = _
  rw [List.countP_eq_length_filter, List.countP_eq_length_filter]
  simpa only [List.length_map] using hperm.length_eq

theorem fences_counted_onePort : (OnePort.putBack.audit 1).fencesClosed = 1 :=
  (fences_counted OnePort.putBack_reachable 1).trans (by decide +kernel)

theorem Accounted.not_owned (inv : Accounted e) (hr : e.drain r.id = some r)
    (hcase : r.restoredAt ≠ 0 ∨ r.generation = 0) :
    (e.fence.entry r.target).any (fun entry => entry.closed && entry.drain == r.id) = false := by
  rw [Bool.eq_false_iff]
  intro hany
  obtain ⟨entry, hentry, hown⟩ := (Option.any_eq_true _ _).mp hany
  rw [Bool.and_eq_true, beq_iff_eq] at hown
  obtain ⟨q, hq, -, -, hpos, hat⟩ := inv.owner_of_held hentry hown.1
  rw [hown.2, hr] at hq
  obtain rfl := Option.some.inj hq
  exact hcase.elim (fun h => h hat) hpos

theorem Accounted.cancelledLines (inv : Accounted e) (hr : e.drain r.id = some r)
    (hs : r.state = .cancelled) : e.cancelledLines r = [] := by
  by_cases hat : r.restoredAt = 0
  · by_cases hgen : r.generation = 0
    · simp [World.cancelledLines, flag, hat, hgen, inv.not_owned hr (Or.inr hgen)]
    · obtain ⟨entry, hentry, hclosed, -, hheld⟩ := inv.cancelled r.id r hr hs hgen hat
      simp [World.cancelledLines, flag, hat, hgen, hentry, hclosed, hheld]
  · have hpassed := (inv.passed r.id r hr (Or.inr hat)).2
    have hnot := inv.not_owned hr (Or.inl hat)
    cases hentry : e.fence.entry r.target with
    | none => simp [AdmissionFence.generation, hentry] at hpassed
    | some entry =>
      rw [generation_of_entry hentry] at hpassed
      rw [hentry] at hnot
      simp [World.cancelledLines, flag, hat, hentry, Nat.not_le.mpr hpassed, hnot]

theorem Accounted.unsettledLines (inv : Accounted e) (hr : e.drain r.id = some r) :
    e.unsettledLines r = [] := by
  rw [List.eq_nil_iff_forall_not_mem]
  intro line hline
  rw [World.unsettledLines, List.mem_append, mem_flag, mem_flag] at hline
  rcases hline with ⟨⟨-, -, hholds, hopen⟩, -⟩ | ⟨⟨hs, hclosed⟩, -⟩
  · have hphase : isFenceHoldingState r.phase = true := by
      rw [← holdsFence_eq]
      exact (Bool.or_eq_true _ _ ▸ hholds).elim id (fun h => by simp [holdsFence, h])
    obtain ⟨entry, hentry, hclosed, -⟩ := inv.fenced.held r.id r hr hphase
    rw [isClosed_iff.mpr ⟨entry, hentry, hclosed⟩] at hopen
    cases hopen
  · -- Whoever has closed the fence is another unrestored drain of the target.
    obtain ⟨entry, hentry, hclosed⟩ := isClosed_iff.mp hclosed
    obtain ⟨q, hq, htarget, -, -, hat⟩ := inv.owner_of_held hentry hclosed
    have hid := inv.owner r.id r _ q hr hq htarget.symm (fun h => by cases hs.symm.trans h.1)
      (fun h => h.2 hat)
    exact inv.fenced.restoring r.id r hr (DrainRecord.phase_of_state hs (by decide))
      ⟨entry, hentry, hclosed, hid.symm⟩

theorem Accounted.obligationLines (inv : Accounted e) {o : Obligation}
    (ho : o ∈ e.obligations.all) : e.obligationLines o = [] := by
  rw [World.obligationLines, List.flatMap_eq_nil_iff]
  intro dependency hdep
  cases hentry : e.fence.entry dependency with
  | none => rfl
  | some entry =>
    have hbound := inv.bound.obligations o.id o (ObligationTable.mem_all_iff.mp ho) dependency hdep
    rw [AdmissionFence.Issued, generation_of_entry hentry, isClosed_iff] at hbound
    exact if_neg (fun h => Nat.not_le.mpr (hbound.2 ⟨entry, hentry, h.1⟩) h.2)

theorem Accounted.fenceLines (inv : Accounted e) {entry : FenceEntry}
    (hentry : e.fence.entry target = some entry) : e.fenceLines target entry = [] := by
  unfold World.fenceLines
  split_ifs with hopen
  · rfl
  · rw [Bool.not_eq_false] at hopen
    obtain ⟨r, hr, -, -, -, hat⟩ := inv.owner_of_held hentry hopen
    simp [hr, flag, hat]

/-- Only a check of a drained drain can fail. -/
theorem Accounted.mem_violations (inv : Accounted e) {now : TimePoint} {line : String} :
    line ∈ (e.audit now).violations ↔
      ∃ r ∈ e.drains.toList, r.state = .drained ∧ line ∈ e.drainedLines r := by
  have hdrainLines : ∀ r ∈ e.drains.toList,
      (line ∈ e.drainLines r ↔ r.state = .drained ∧ line ∈ e.drainedLines r) := by
    intro r hmem
    have hr : e.drain r.id = some r := Table.find?_of_mem hmem
    have hcancelled : line ∉ if r.state = .cancelled then e.cancelledLines r else [] := by
      split_ifs with hs
      · simp [inv.cancelledLines hr hs]
      · simp
    rw [drainLines, inv.unsettledLines hr, List.append_nil, List.mem_append,
      or_iff_left hcancelled]
    split_ifs with hs <;> simp [hs]
  rw [mem_audit]
  constructor
  · rintro (⟨r, hr, hline⟩ | ⟨o, ho, hline⟩ | ⟨target, entry, hentry, hline⟩)
    · exact ⟨r, hr, (hdrainLines r hr).mp hline⟩
    · rw [inv.obligationLines ho] at hline
      cases hline
    · rw [inv.fenceLines (OrdMap.get?_eq_some_iff.mpr hentry)] at hline
      cases hline
  · rintro ⟨r, hr, hcase⟩
    exact Or.inl ⟨r, hr, (hdrainLines r hr).mpr hcase⟩

/-- In every state reachable at positive times, without exhausting a revision or a
generation and without cancelling a drain that is being restored, the report has exactly
these lines: for a drained drain, that protected dependencies of its target are
outstanding, that its completion digest is zero, and that its resource is in service. -/
theorem audit_exact {e : Engine} (he : Reachable Steady e) (now : TimePoint) (line : String) :
    line ∈ (e.audit now).violations ↔
      ∃ r ∈ e.drains.toList, r.state = .drained ∧
        (e.outstandingFor r.target ≠ [] ∧ line = e.outstandingLine r ∨
          r.completionDigest = 0 ∧ line = digestLine r ∨
          e.targetInService r = true ∧ line = inServiceLine r) := by
  have inv := reachable_accounted he
  rw [inv.mem_violations]
  refine exists_congr (fun r => and_congr_right (fun hmem => and_congr_right (fun hs => ?_)))
  have hr : e.drain r.id = some r := Table.find?_of_mem hmem
  obtain ⟨entry, hentry, hclosed, -⟩ := inv.drained r.id r hr hs
  have hclosed := isClosed_iff.mpr ⟨entry, hentry, hclosed⟩
  simp [drainedLines, (he.plain _ r hr).remaining, hclosed]

theorem audit_exact_onePort :
    ∃ r, OnePort.putBack.drain 1 = some r ∧ r.state = .drained ∧
      inServiceLine r ∈ (OnePort.putBack.audit 1).violations := by
  have hback : (OnePort.putBack.drain 1).any (fun r =>
      r.state = .drained ∧ OnePort.putBack.targetInService r = true) = true := by
    decide +kernel
  obtain ⟨r, hr, hcase⟩ := (Option.any_eq_true _ _).mp hback
  obtain ⟨hs, hservice⟩ := of_decide_eq_true hcase
  exact ⟨r, hr, hs, (audit_exact OnePort.putBack_reachable 1 _).mpr
    ⟨r, Table.mem_of_find? hr, hs, Or.inr (Or.inr ⟨hservice, rfl⟩)⟩⟩

/-- A restart leaves the checks of a drained drain as they were. -/
theorem Engine.Recovery.drainedLines {recovered : Engine} {prev : IncarnationId} {now : TimePoint}
    (h : Recovery e prev now recovered) (hplain : r.Plain) :
    recovered.drainedLines r.reloaded = e.drainedLines r := by
  have hobligations := ObligationTable.loadFromJson_toJson h.obligations
  have houtstanding : recovered.outstandingFor r.target =
      (e.outstandingFor r.target).map Obligation.persisted := by
    rw [outstandingFor, ObligationTable.outstandingProtectedDependentsOf, ObligationTable.all,
      hobligations]
    exact List.filter_map
  have hclosed : recovered.fence.isClosed r.target = e.fence.isClosed r.target := by
    rw [isClosed, isClosed, entry_of_loaded (loadFromJson_eq_ok.mp h.fence).2, Option.any_map]
    rfl
  have hservice : recovered.targetInService r.reloaded = e.targetInService r := by
    rw [targetInService, targetInService, Topology.resource,
      Topology.loadFromJson_toJson h.topology]
    rfl
  have hremaining : r.reloaded.remainingProtectedAtCompletion = 0 := by
    show r.remainingProtectedAtCompletion % 2 ^ 32 = 0
    rw [hplain.remaining, Nat.zero_mod]
  have htarget : r.reloaded.target = r.target := rfl
  rw [World.drainedLines, World.drainedLines, outstandingLine, outstandingLine, htarget,
    houtstanding, hclosed, hservice, hremaining, hplain.remaining, List.isEmpty_map,
    List.length_map]
  rfl

/-- A restart has the audit report what it reported before. -/
theorem audit_restart {e : Engine} (he : Reachable Steady e) {prev : IncarnationId}
    {now : TimePoint} (hev : Steady e (.restart prev now)) (asked : TimePoint) :
    ((e.fire (.restart prev now)).audit asked).violations = (e.audit asked).violations := by
  have inv := reachable_accounted he
  have inv' := accounted_fire inv hev
  simp only [fire, restore] at inv' ⊢
  cases hdecode : decodeSnapshot e.policy e.snapshot prev now with
  | error err => rfl
  | ok recovered =>
    have hrec := decodeSnapshot_eq_ok.mp hdecode
    rw [hdecode] at inv'
    have hsteady : ∀ r : DrainRecord, r.state = .drained →
        recoveredRecord now r.reloaded = r.reloaded := by
      intro r hs
      refine if_neg ?_
      rw [show r.reloaded.state = r.state from rfl, hs]
      decide
    have hsame : ∀ line, line ∈ (recovered.audit asked).violations ↔
        line ∈ (e.audit asked).violations := by
      intro line
      rw [inv.mem_violations]
      refine inv'.mem_violations.trans ⟨?_, ?_⟩
      · rintro ⟨r', hmem, hs, hline⟩
        obtain ⟨r, hr, -, rfl⟩ := hrec.of_drain (Table.find?_of_mem hmem)
        have hstate := (restarted_recoveredRecord now r).state.symm.trans hs
        split_ifs at hstate
        rw [hsteady r hstate] at hline
        exact ⟨r, Table.mem_of_find? hr, hstate, hrec.drainedLines (he.plain _ r hr) ▸ hline⟩
      · rintro ⟨r, hmem, hs, hline⟩
        have hr : e.drain r.id = some r := Table.find?_of_mem hmem
        have hr' : recovered.drain r.id = some r.reloaded := by
          rw [hrec.drain, hr, Option.map_some, hsteady r hs]
        exact ⟨r.reloaded, Table.mem_of_find? hr', hs,
          (hrec.drainedLines (he.plain _ r hr)).symm ▸ hline⟩
    exact sortUnique_congr (fun line =>
      mem_sortUnique.symm.trans ((hsame line).trans mem_sortUnique))

theorem audit_restart_onePort :
    ((OnePort.putBack.fire (.restart 0 2)).audit 2).violations =
      (OnePort.putBack.audit 2).violations :=
  audit_restart OnePort.putBack_reachable (by decide +kernel) 2

end DrainFabric
