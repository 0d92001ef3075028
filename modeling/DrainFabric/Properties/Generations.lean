import DrainFabric.Properties.Atomicity
import DrainFabric.Properties.Binding

/-!
# Generations of the fence

A generation names one stretch of admission for a target: whoever presents an earlier
one is refused. That is worth something only if generations never come back, so the
fence is looked at here as a machine of its own, under every sequence of closures,
reopenings and reloads, and then under the restorations of the engine.

A closure looks its entry up before it knows whether it can succeed, and clears up by
erasing it. For a target in its last generation that erases the generation as well,
where the reopening of the same target leaves it alone.

* `generations_never_rewind` — away from the last generation, generations only grow, a
  failed call changes nothing and a superseded generation stays superseded;
* `generation_rewinds_when_exhausted` — the closure that starts a target over at zero;
* `restoration_generation` — the generation a restoration hands out.
-/

namespace DrainFabric

open Lib World Engine

variable {f f' : AdmissionFence}

namespace AdmissionFence

/-- The calls that write a fence. Reloading reads back what the fence itself wrote. -/
inductive FenceCall
  | close (target : DrainTarget) (drain : DrainId) (at_ : TimePoint) (reason : String)
  | reopen (target : DrainTarget) (drain : DrainId) (at_ : TimePoint) (reason : String)
  | reload

/-- The fence after a call, and how the call ended. -/
def answer (f : AdmissionFence) : FenceCall → AdmissionFence × Status
  | .close target drain at_ reason =>
    let (f', result) := f.close target drain at_ reason
    (f', result.map (fun _ => ()))
  | .reopen target drain at_ reason =>
    match f.reopen target drain at_ reason with
    | .ok (f', _) => (f', .ok ())
    | .error err => (f, .error err)
  | .reload =>
    match loadFromJson f.toJson with
    | .ok f' => (f', .ok ())
    | .error err => (f, .error err)

/-- The fence after a call. -/
def after (f : AdmissionFence) (c : FenceCall) : AdmissionFence := (f.answer c).1

/-- The target a call closes or reopens. -/
def FenceCall.target? : FenceCall → Option DrainTarget
  | .close target .. => some target
  | .reopen target .. => some target
  | .reload => none

/-- A closure in the name of a drain finds its target below the last generation. -/
def HasRoom (f : AdmissionFence) : FenceCall → Prop
  | .close target drain .. => drain ≠ 0 → f.generation target < u64Max
  | _ => True

instance (f : AdmissionFence) (c : FenceCall) : Decidable (f.HasRoom c) :=
  match c with
  | .close target drain .. => inferInstanceAs (Decidable (drain ≠ 0 → f.generation target < u64Max))
  | .reopen .. => .isTrue trivial
  | .reload => .isTrue trivial

/-- What a call does to the generations. -/
structure Forward (f : AdmissionFence) (c : FenceCall) : Prop where
  grows : ∀ target, f.generation target ≤ (f.after c).generation target
  rises : ∀ target, c.target? = some target → (f.answer c).2 = .ok () →
    f.generation target < (f.after c).generation target
  refused : ∀ err, (f.answer c).2 = .error err → f.after c = f

theorem Advances.generation_le (h : Advances f f') (target : DrainTarget) :
    f.generation target ≤ f'.generation target := by
  rcases h target with hlt | ⟨heq, -⟩
  · exact hlt.le
  · exact heq.ge

theorem advances_of_loaded (hbound : f.Bounded) (h : loadFromJson f.toJson = .ok f') :
    Advances f f' ∧ f'.Bounded := by
  have hentries := (loadFromJson_eq_ok.mp h).2
  constructor
  · intro target
    rw [generation, generation, isClosed, isClosed, entry_of_loaded hentries target]
    cases f.entry target <;> exact Or.inr ⟨rfl, rfl⟩
  · rw [Bounded, hentries, Table.size_mapVals]
    exact hbound

/-- A closure in nobody's name is refused at once. -/
theorem close_zero (f : AdmissionFence) (target : DrainTarget) (at_ : TimePoint) (reason : String) :
    ∃ err, f.close target 0 at_ reason = (f, .error err) := ⟨_, rfl⟩

/-- One call, on a fence within its bound. -/
theorem forward_after (hbound : f.Bounded) {c : FenceCall} (hroom : f.HasRoom c) :
    f.Forward c ∧ (f.after c).Bounded := by
  have hrefused : ∀ err, f.answer c = (f, .error err) → f.Forward c ∧ (f.after c).Bounded := by
    intro err heq
    rw [after, heq]
    refine ⟨⟨?_, ?_, ?_⟩, hbound⟩ <;> rw [after, heq]
    · exact fun _ => le_rfl
    · exact fun _ _ hok => by cases hok
    · exact fun _ _ => rfl
  have haccepted : ∀ f', f.answer c = (f', .ok ()) → Advances f f' ∧ f'.Bounded →
      (∀ target, c.target? = some target → f'.generation target = f.generation target + 1) →
      f.Forward c ∧ (f.after c).Bounded := by
    rintro f' heq ⟨hadvances, hbound'⟩ hnext
    rw [after, heq]
    refine ⟨⟨?_, ?_, ?_⟩, hbound'⟩ <;> rw [after, heq]
    · exact hadvances.generation_le
    · intro target htarget _
      rw [hnext target htarget]
      exact Nat.lt_succ_self _
    · exact fun _ herr => by cases herr
  cases c with
  | close target drain at_ reason =>
    by_cases hdrain : drain = 0
    · obtain ⟨err, hclose⟩ := close_zero f target at_ reason
      exact hrefused err (by rw [hdrain, answer, hclose]; rfl)
    · rcases hclose : f.close target drain at_ reason with ⟨f', err | next⟩
      · obtain rfl := close_refused hbound (hroom hdrain) hclose
        exact hrefused err (by rw [answer, hclose]; rfl)
      · refine haccepted f' (by rw [answer, hclose]; rfl)
          (close_advances hbound (hroom hdrain) hclose) (fun t ht => ?_)
        obtain rfl := Option.some.inj ht
        exact generation_of_close hclose
  | reopen target drain at_ reason =>
    rcases hreopen : f.reopen target drain at_ reason with err | ⟨f', next⟩
    · exact hrefused err (by rw [answer, hreopen])
    · refine haccepted f' (by rw [answer, hreopen]) (reopen_advances hbound hreopen)
        (fun t ht => ?_)
      obtain rfl := Option.some.inj ht
      exact generation_of_reopen hreopen
  | reload =>
    rcases hload : loadFromJson f.toJson with err | f'
    · exact hrefused err (by rw [answer, hload])
    · exact haccepted f' (by rw [answer, hload]) (advances_of_loaded hbound hload)
        (fun _ ht => by cases ht)

theorem bounded_run {calls : List FenceCall} (h : Always after HasRoom {} calls) :
    (run after {} calls).Bounded :=
  run_invariant (P := Bounded) (fun _ _ hbound hroom => (forward_after hbound hroom).2)
    (Nat.zero_le _) h

theorem generation_le_run (hbound : f.Bounded) {calls : List FenceCall}
    (h : Always after HasRoom f calls) (target : DrainTarget) :
    f.generation target ≤ (run after f calls).generation target := by
  refine (run_invariant
    (P := fun g : AdmissionFence => g.Bounded ∧ f.generation target ≤ g.generation target)
    (fun g c inv hroom => ?_) ⟨hbound, le_rfl⟩ h).2
  obtain ⟨hforward, hbound'⟩ := forward_after inv.1 hroom
  exact ⟨hbound', inv.2.trans (hforward.grows target)⟩

/-- A target the fence knows can be closed again while its generations last. -/
theorem close_of_known (hbound : f.Bounded) {target : DrainTarget}
    (hknown : (f.entry target).isSome) (hroom : f.generation target < u64Max) {drain : DrainId}
    (hdrain : drain ≠ 0) (at_ : TimePoint) (reason : String) :
    ∃ f', f.close target drain at_ reason = (f', .ok (f.generation target + 1)) := by
  obtain ⟨e, he⟩ := Option.isSome_iff_exists.mp hknown
  obtain ⟨p, hp, -⟩ := Option.map_eq_some_iff.mp he
  have hsize : (OrdMap.set f.entries target e).size ≤ maxFencedTargets :=
    (Table.size_put_of_mem (by rw [hp]; rfl)).trans_le hbound
  rw [generation_of_entry he] at hroom ⊢
  simp only [close, if_neg hdrain, he, Option.getD_some, incrementChecked_eq, if_pos hroom,
    if_neg (not_lt.mpr hsize)]
  exact ⟨_, rfl⟩

end AdmissionFence

namespace OnePort

/-- The fence of a port that is closed over and over. -/
def closedTimes (count : Nat) : AdmissionFence :=
  run AdmissionFence.after {} (List.replicate count (.close port 1 0 ""))

theorem closedTimes_succ (count : Nat) :
    closedTimes (count + 1) = (closedTimes count).after (.close port 1 0 "") := by
  rw [closedTimes, List.replicate_succ', run_concat, closedTimes]

theorem generation_closedTimes (count : Nat) (hpos : 0 < count) (hcount : count ≤ u64Max) :
    (closedTimes count).Bounded ∧ ((closedTimes count).entry port).isSome ∧
      (closedTimes count).generation port = count := by
  induction count, hpos using Nat.le_induction with
  | base =>
    refine ⟨?_, by decide +kernel, by decide +kernel⟩
    rw [AdmissionFence.Bounded]
    decide +kernel
  | succ count hpos ih =>
    obtain ⟨hbound, hknown, hgen⟩ := ih (Nat.le_of_succ_le hcount)
    have hdrain : (1 : DrainId) ≠ 0 := by decide
    obtain ⟨f', hclose⟩ := AdmissionFence.close_of_known hbound hknown
      (by rw [hgen]; exact hcount) hdrain 0 ""
    obtain ⟨-, -, ⟨e, he, -⟩, -⟩ := AdmissionFence.close_ok hclose
    have hnext : closedTimes (count + 1) = f' := by
      rw [closedTimes_succ, AdmissionFence.after, AdmissionFence.answer, hclose]
    rw [hnext]
    refine ⟨AdmissionFence.close_bounded hclose, by rw [he]; rfl, ?_⟩
    rw [AdmissionFence.generation_of_close hclose, hgen]

end OnePort

open AdmissionFence

/-- In every sequence of closures, reopenings and reloads of a fence whose closures all
find their target below the last generation: no call takes a generation back, every
successful closure and reopening raises the generation of its target, a failed call
leaves the table as it is; and a generation that was superseded at some point is not
accepted at any later one. -/
theorem generations_never_rewind {calls : List FenceCall}
    (h : Always after HasRoom {} calls) :
    (∀ pre c post, calls = pre ++ c :: post → (run after {} pre).Forward c) ∧
      ∀ pre post target presented, calls = pre ++ post →
        presented < (run after {} pre).generation target →
        (run after {} calls).checkAdmission target presented ≠ .ok () := by
  constructor
  · intro pre c post heq
    rw [heq] at h
    exact (forward_after (bounded_run (always_append.mp h).1) h.at_split).1
  · intro pre post target presented heq hold hok
    rw [heq] at h hok
    obtain ⟨hpre, hpost⟩ := always_append.mp h
    have hlater := generation_le_run (bounded_run hpre) hpost target
    rw [run_append] at hok
    obtain ⟨hcurrent, -⟩ := checkAdmission_ok hok
    exact absurd (hold.trans_le hlater) (Nat.not_lt.mpr hcurrent.ge)

/-- A port is closed, reopened and read back. -/
theorem generations_never_rewind_onePort :
    (run after {} [.close OnePort.port 1 1 "", .reopen OnePort.port 1 1 "",
      .reload]).checkAdmission OnePort.port 1 ≠ .ok () :=
  (@generations_never_rewind [.close OnePort.port 1 1 "", .reopen OnePort.port 1 1 "", .reload]
    (by decide +kernel)).2 [.close OnePort.port 1 1 "", .reopen OnePort.port 1 1 ""] [.reload]
    OnePort.port 1 rfl (by decide +kernel)

/-- A port in its last generation is closed once more: the call fails, and the fence
takes the port for one that was never fenced, at a generation it had refused. -/
theorem generation_rewinds_when_exhausted :
    (OnePort.closedTimes u64Max).generation OnePort.port = u64Max ∧
      (OnePort.closedTimes u64Max).checkAdmission OnePort.port 0 ≠ .ok () ∧
      (∃ err, ((OnePort.closedTimes u64Max).answer (.close OnePort.port 1 0 "")).2 = .error err) ∧
      ((OnePort.closedTimes u64Max).after (.close OnePort.port 1 0 "")).generation
        OnePort.port = 0 ∧
      ((OnePort.closedTimes u64Max).after (.close OnePort.port 1 0 "")).checkAdmission
        OnePort.port 0 = .ok () := by
  have hgen : (OnePort.closedTimes u64Max).generation OnePort.port = u64Max :=
    (OnePort.generation_closedTimes u64Max (by decide) le_rfl).2.2
  generalize OnePort.closedTimes u64Max = f at hgen ⊢
  have hdrain : (1 : DrainId) ≠ 0 := by decide
  obtain ⟨f', err, hclose, hzero⟩ := close_of_exhausted hdrain hgen.ge 0 ""
  have hnone : f'.entry OnePort.port = none := by
    rcases close_error hclose with hsame | ⟨hnone, -⟩
    · rw [hsame, hgen] at hzero
      exact absurd hzero (by decide)
    · exact hnone
  have hanswer : f.answer (.close OnePort.port 1 0 "") = (f', .error err) := by
    rw [answer, hclose]
    rfl
  rw [after, hanswer]
  refine ⟨hgen, fun hok => ?_, ⟨err, rfl⟩, hzero, ?_⟩
  · obtain ⟨hpresented, -⟩ := checkAdmission_ok hok
    rw [hgen] at hpresented
    exact absurd hpresented (by decide)
  · rw [checkAdmission, hnone]
    rfl

/-! ### The generation of a restoration -/

/-- The bound on the fence, and every drain against the fence of its target. -/
structure World.Numbered (w : World) : Prop where
  fence : w.fence.Bounded
  drains : ∀ id r, w.drain id = some r → r.generation ≤ w.fence.generation r.target

theorem numbered_init (policy : DrainPolicy) : Numbered (Engine.init policy).toWorld :=
  ⟨Nat.zero_le _, fun _ _ h => by simp at h⟩

/-- A drain takes its generation from the fence it closes, and the fence only moves on. -/
theorem numbered_fire (e : Engine) (ev : Event) (inv : Numbered e.toWorld)
    (hev : GenerationsLeft e ev) : Numbered (e.fire ev).toWorld := by
  have hstep := fire_drainStep e ev
  obtain ⟨hadvances, hbound⟩ := advances_step hstep inv.fence hev.generation_lt
  refine ⟨hbound, fun id r' hr' => ?_⟩
  have hkept : ∀ {r : DrainRecord}, e.drain id = some r → r'.target = r.target →
      r'.generation = r.generation → r'.generation ≤ (e.fire ev).fence.generation r'.target := by
    intro r hr htarget hgen
    rw [htarget, hgen]
    exact (inv.drains id r hr).trans (hadvances.generation_le r.target)
  cases hstep.fate hr' with
  | born _ _ _ _ hgen =>
    rw [hgen]
    exact Nat.zero_le _
  | keeps hr kept => exact hkept hr kept.target kept.generation
  | moves hr htarget _ _ hgen => exact hkept hr htarget hgen
  | closes _ htarget _ hheld =>
    obtain ⟨entry, hentry, -, -, hgen⟩ := hheld
    rw [htarget, generation_of_entry hentry, hgen]
  | retries hr hold => exact hkept hr hold.target hold.generation
  | settles hr htarget _ _ hgen => exact hkept hr htarget hgen
  | cancels hr htarget _ _ _ hgen => exact hkept hr htarget hgen
  | reopens hr htarget _ _ _ hgen => exact hkept hr htarget hgen
  | refused hr => exact hkept hr rfl rfl

theorem reopenFence_of_open {r : DrainRecord} (hopen : f.isClosed r.target = false)
    (hnewer : r.generation < f.generation r.target) (reason : String) (now : TimePoint) :
    reopenFence f r reason now = (f, .ok (f.generation r.target)) := by
  rw [reopenFence, hopen, if_neg Bool.false_ne_true, if_neg (Nat.not_le.mpr hnewer)]

/-- What a restoration hands out is the generation the fence is left at. -/
theorem reopenFence_generation {r : DrainRecord} {reason : String} {now : TimePoint}
    {next : Generation} (h : reopenFence f r reason now = (f', .ok next)) :
    f'.generation r.target = next ∧
      (f.generation r.target < next ∨
        f.isClosed r.target = false ∧ r.generation < f.generation r.target) := by
  rcases reopenFence_cases h with ⟨rfl, hcase⟩ | ⟨n, hn, hreopen, -⟩ |
    ⟨-, mid, closed, hclose, hrest⟩
  · rcases hcase with ⟨err, herr⟩ | ⟨hopen, hnewer, hok⟩
    · cases herr
    · exact ⟨(Except.ok.inj hok).symm, Or.inr ⟨hopen, hnewer⟩⟩
  · obtain rfl := Except.ok.inj hn
    refine ⟨issued_of_reopen hreopen, Or.inl ?_⟩
    rw [← issued_of_reopen hreopen, generation_of_reopen hreopen]
    exact Nat.lt_succ_self _
  · rcases hrest with ⟨-, err, herr⟩ | ⟨between, n, rfl, hn, hreopen⟩
    · cases herr
    · obtain rfl := Except.ok.inj hn
      refine ⟨issued_of_reopen hreopen, Or.inl ?_⟩
      rw [← issued_of_reopen hreopen, generation_of_reopen hreopen, generation_of_close hclose]
      exact Nat.lt_add_of_pos_right Nat.two_pos

/-- In every state, a call that moves a drain to `Restoring` leaves the fence of its target
open at the generation it hands out. That is later than the one the fence was at, unless
admission was already open under a later generation than the drain's own; then the fence
is left alone. In a state reached without exhausting a generation it is also later than
the one the drain closed admission under. -/
theorem restoration_generation {e e' : Engine} {id : DrainId}
    {authority : AuthorityId} {reason : String} {now : TimePoint}
    (hcall : (e.restoreDrain id authority reason now).1 = e') {r r' : DrainRecord}
    (hr : e.drain id = some r) (hbefore : r.state ≠ .restoring) (hr' : e'.drain id = some r')
    (hafter : r'.state = .restoring) :
    e'.fence.isClosed r.target = false ∧ r'.restoreGeneration = e'.fence.generation r.target ∧
      (Reachable GenerationsLeft e → r.generation < e'.fence.generation r.target) ∧
      (e.fence.isClosed r.target = false ∧ r.generation < e.fence.generation r.target →
        e'.fence = e.fence) ∧
      (¬ (e.fence.isClosed r.target = false ∧ r.generation < e.fence.generation r.target) →
        e.fence.generation r.target < e'.fence.generation r.target) := by
  have hunchanged : e'.drain id ≠ some r := by
    intro hsame
    obtain rfl := Option.some.inj (hsame.symm.trans hr')
    exact hbefore hafter
  by_cases hres : ∃ q, e.toWorld.Restorable id authority now q
  · obtain ⟨q, hq⟩ := hres
    obtain rfl := Option.some.inj (hr.symm.trans hq.found)
    rcases hreopen : reopenFence e.fence r reason now with ⟨fence, err | next⟩
    · have hrefused := restoreDrain_of_restorable hq hreopen
      refine absurd ?_ hunchanged
      rw [← hcall, hrefused]
      exact hr
    · rcases restoreDrain_of_restorable hq hreopen with ⟨-, hstays, -⟩ | ⟨-, hmoves, -⟩
      · refine absurd ?_ hunchanged
        rw [← hcall]
        exact (congrArg (fun w => World.drain w id) hstays).trans hr
      rw [hcall] at hmoves
      have hfence : e'.fence = fence := congrArg World.fence hmoves
      have hrecord : r' = { r.moved .restoring now (truncate reason) with
          restoreGeneration := next } := by
        rw [hmoves, drain_withDrain] at hr'
        exact (Option.some.inj ((if_pos (id_of_drain hr)).symm.trans hr')).symm
      obtain ⟨hgen, hlater⟩ := reopenFence_generation hreopen
      rw [hfence, hgen, hrecord]
      refine ⟨reopenFence_open hreopen, rfl, fun he => ?_, fun hopen => ?_, fun hnot => ?_⟩
      · have hnumbered := (he.invariant (P := fun e : Engine => Numbered e.toWorld) numbered_init
          numbered_fire).drains id r hr
        rcases hlater with hlt | ⟨hopen, hnewer⟩
        · exact hnumbered.trans_lt hlt
        · have heq := hreopen
          rw [reopenFence_of_open hopen hnewer] at heq
          exact (Except.ok.inj (Prod.mk.inj heq).2) ▸ hnewer
      · rw [reopenFence_of_open hopen.1 hopen.2] at hreopen
        exact (Prod.mk.inj hreopen).1.symm
      · exact hlater.resolve_right hnot
  · obtain ⟨hsame, -⟩ := restoreDrain_of_not_restorable reason hres
    exact absurd (by rw [← hcall, hsame]; exact hr) hunchanged

/-- The port is drained, cancelled and restored, and then a second drain of it is
cancelled before it closed admission. -/
def OnePort.cancelledTwice : Engine :=
  run perform (Engine.init {}) ((OnePort.setup 1).map .call ++
    [.advance 1, .advance 1, .call (.cancelDrain 1 1 "" 1), .call (.restoreDrain 1 1 "" 1),
      .advance 1,
      .call (.requestDrain { targets := [OnePort.port], reason := "again", authority := 1 } 1),
      .call (.cancelDrain 2 1 "" 1)])

theorem restoration_generation_onePort :
    ∃ r r', OnePort.cancelledTwice.drain 2 = some r ∧
      (OnePort.cancelledTwice.restoreDrain 2 1 "" 1).1.drain 2 = some r' ∧
      r'.restoreGeneration =
        (OnePort.cancelledTwice.restoreDrain 2 1 "" 1).1.fence.generation r.target ∧
      r.generation < (OnePort.cancelledTwice.restoreDrain 2 1 "" 1).1.fence.generation r.target := by
  have hreach : Reachable GenerationsLeft OnePort.cancelledTwice :=
    reachable_run (.init {}) (by decide +kernel)
  have hbefore : (OnePort.cancelledTwice.drain 2).any (fun r => r.state ≠ .restoring) = true := by
    decide +kernel
  have hafter : ((OnePort.cancelledTwice.restoreDrain 2 1 "" 1).1.drain 2).any
      (fun r => r.state = .restoring) = true := by
    decide +kernel
  obtain ⟨r, hr, hstate⟩ := Option.any_eq_true _ _ |>.mp hbefore
  obtain ⟨r', hr', hstate'⟩ := Option.any_eq_true _ _ |>.mp hafter
  rw [decide_eq_true_iff] at hstate hstate'
  obtain ⟨-, hgeneration, hlater, -⟩ := restoration_generation rfl hr hstate hr' hstate'
  exact ⟨r, r', hr, hr', hgeneration, hlater hreach⟩

/-- The restoration of the second drain leaves the port at the generation it was at. -/
theorem restoration_keeps_generation :
    Reachable GenerationsLeft OnePort.cancelledTwice ∧
      (OnePort.cancelledTwice.drain 2).map DrainRecord.state = some .cancelled ∧
      OnePort.cancelledTwice.fence.generation OnePort.port = 2 ∧
      ((OnePort.cancelledTwice.restoreDrain 2 1 "" 1).1.drain 2).map DrainRecord.state =
        some .restoring ∧
      (OnePort.cancelledTwice.restoreDrain 2 1 "" 1).1.fence.generation OnePort.port = 2 :=
  ⟨reachable_run (.init {}) (by decide +kernel), by decide +kernel⟩

end DrainFabric
