import DrainFabric.Engine.Capacity
import DrainFabric.Engine.Dispatch

/-!
# Rejected requests

A rejected mutation is not meant to be applied in part. The requests for drains come
close: each check is made before anything is written. But the drains of a set are
numbered one by one, and the loop gives up where the ids run out; and the request for
a single drain looks at what it got only after the set has been created.

* `rejected_request_unchanged_iff` — exactly when a rejected request leaves the tables
  and the counters alone;
* `rejected_request_creates_drains` — a rejected request that leaves two drains behind;
* `failed_restoration_unchanged_iff`, `failed_restoration_reopens` — the same for
  restorations, which move the fence, then the record, and ask the sink last.
-/

namespace DrainFabric

open Lib World Engine

variable {w : World} {request : DrainRequest} {now : TimePoint} {e : Engine} {id : DrainId}
  {authority : AuthorityId} {r : DrainRecord}

namespace World

/-- The tables and the counters that requests for drains write are as they were. -/
structure Unrequested (w w' : World) : Prop where
  drains : w'.drains = w.drains
  sets : w'.sets = w.sets
  nonces : w'.nonceSets = w.nonceSets
  drainMark : w'.drainHighWater = w.drainHighWater
  setMark : w'.setHighWater = w.setHighWater

theorem Unrequested.refl (w : World) : Unrequested w w := ⟨rfl, rfl, rfl, rfl, rfl⟩

/-- The request passes every check, and there is an id left for its set but not for
each of its drains. -/
def RunsOut (w : World) (request : DrainRequest) (now : TimePoint) : Prop :=
  ∃ targets, w.Admissible request targets now ∧ w.setHighWater < u64Max ∧
    u64Max < w.drainHighWater + targets.length

/-- The request passes every check, there are ids for its set and for its drains, and
what is filed under the id of the set does not have exactly one drain: the set itself,
unless the id is taken. -/
def NotSingle (w : World) (request : DrainRequest) (now : TimePoint) : Prop :=
  ∃ targets, w.Admissible request targets now ∧ w.setHighWater < u64Max ∧
    w.drainHighWater + targets.length ≤ u64Max ∧
    ((w.sets.find? (w.setHighWater + 1)).elim targets.length
      (fun set => set.members.length)) ≠ 1

/-- The targets of an admissible request are determined. -/
theorem Admissible.targets_eq {a b : List DrainTarget} (ha : w.Admissible request a now)
    (hb : w.Admissible request b now) : a = b :=
  Except.ok.inj (ha.normalized.symm.trans hb.normalized)

/-- What is found under the id of a set that has just been created. -/
theorem find_nextSet (w : World) (request : DrainRequest) (targets : List DrainTarget)
    (now : TimePoint) :
    ((w.withDrains request targets now).withSet (w.nextSet request targets now)).sets.find?
        (w.setHighWater + 1) =
      some ((w.sets.find? (w.setHighWater + 1)).getD (w.nextSet request targets now)) := by
  rw [find?_withSet]
  show (w.sets.find? (w.setHighWater + 1)).or
    (if w.setHighWater + 1 = w.setHighWater + 1 then _ else none) = _
  rw [if_pos rfl]
  cases w.sets.find? (w.setHighWater + 1) <;> rfl

theorem length_nextSet (w : World) (request : DrainRequest) (targets : List DrainTarget)
    (now : TimePoint) : (w.nextSet request targets now).members.length = targets.length := by
  have hids := congrArg List.length
    (newDrains_ids request (w.setHighWater + 1) now w.drainHighWater targets)
  rwa [List.length_range'] at hids

end World

namespace Engine

/-! ### How a set is created -/

/-- An admissible request takes the next id for its set. -/
theorem setHighWater_requestDrainSet {targets : List DrainTarget}
    (h : e.Admissible request targets now) (hid : e.setHighWater < u64Max) :
    (e.requestDrainSet request now).1.setHighWater = e.setHighWater + 1 := by
  rw [requestDrainSet_of_admissible h]
  rcases createDrainSet_cases h with
    ⟨hfull, -⟩ | ⟨-, -, ⟨_, _, -, -, hworld⟩, -⟩ | ⟨-, -, hworld, -⟩
  · exact absurd hid (Nat.not_lt.mpr hfull)
  · rw [hworld]
    rfl
  · rw [hworld]
    rfl

/-- A rejected request for a set changes nothing unless the ids run out. -/
theorem requestDrainSet_unchanged_iff (e : Engine) (request : DrainRequest) (now : TimePoint) :
    ((∃ err, (e.requestDrainSet request now).2 = .error err) →
        Unrequested e.toWorld (e.requestDrainSet request now).1.toWorld) ↔
      ¬ e.RunsOut request now := by
  constructor
  · rintro hsame ⟨targets, hadm, hset, hdrains⟩
    have hmark := setHighWater_requestDrainSet hadm hset
    have herr : ∃ err, (e.requestDrainSet request now).2 = .error err := by
      rw [requestDrainSet_of_admissible hadm]
      rcases createDrainSet_cases hadm with ⟨-, -, herr⟩ | ⟨-, -, -, herr⟩ | ⟨-, hroom, -⟩
      · exact herr
      · exact herr
      · exact absurd hdrains (Nat.not_lt.mpr hroom)
    rw [(hsame herr).setMark] at hmark
    exact Nat.succ_ne_self _ hmark.symm
  · intro hids herr
    rcases requestDrainSet_cases e request now with ⟨hsame, -⟩ | ⟨targets, hadm⟩
    · rw [hsame]
      exact .refl _
    · rw [requestDrainSet_of_admissible hadm] at herr ⊢
      rcases createDrainSet_cases hadm with ⟨-, hsame, -⟩ | ⟨hset, hdrains, -⟩ | ⟨-, -, -, hok⟩
      · rw [hsame]
        exact .refl _
      · exact absurd ⟨targets, hadm, hset, hdrains⟩ hids
      · obtain ⟨err, herr⟩ := herr
        cases herr.symm.trans hok

/-- The request for a single drain fails after its set is there unless one drain is found
in it. -/
theorem requestDrain_of_ok {e' : Engine} {setId : DrainSetId} {set : DrainSet}
    (h : e.requestDrainSet request now = (e', .ok setId)) (hset : e'.sets.find? setId = some set) :
    (e.requestDrain request now).1 = e' ∧
      ((∃ err, (e.requestDrain request now).2 = .error err) ↔ set.members.length ≠ 1) := by
  simp only [requestDrain, h, hset]
  split
  · rename_i hsome
    obtain rfl := Option.some.inj hsome
    simp
  · rename_i hother
    refine ⟨rfl, fun _ hone => ?_, fun _ => ⟨_, rfl⟩⟩
    obtain ⟨member, hmember⟩ := List.length_eq_one_iff.mp hone
    obtain ⟨id, reason, requestedAt, revision, authority, nonce, targets, members⟩ := set
    obtain rfl : members = [member] := hmember
    exact hother _ _ _ _ _ _ _ _ rfl

/-- A rejected request for a single drain changes nothing unless the ids run out or its
set has several drains. -/
theorem requestDrain_unchanged_iff (e : Engine) (request : DrainRequest) (now : TimePoint) :
    ((∃ err, (e.requestDrain request now).2 = .error err) →
        Unrequested e.toWorld (e.requestDrain request now).1.toWorld) ↔
      ¬ (e.RunsOut request now ∨ e.NotSingle request now) := by
  have hset := requestDrainSet_unchanged_iff e request now
  rcases hreq : e.requestDrainSet request now with ⟨e', err | setId⟩
  · -- The request for the set is rejected, and so is the request for the drain.
    have hsame : e.requestDrain request now = (e', .error err) := by
      simp only [requestDrain, hreq]
    have hnot : ¬ e.NotSingle request now := by
      rintro ⟨targets, hadm, hid, hroom, -⟩
      rw [requestDrainSet_of_admissible hadm] at hreq
      rcases createDrainSet_cases hadm with ⟨hfull, -⟩ | ⟨-, hdrains, -⟩ | ⟨-, -, -, hok⟩
      · exact absurd hid (Nat.not_lt.mpr hfull)
      · exact absurd hdrains (Nat.not_lt.mpr hroom)
      · rw [hreq] at hok
        cases hok
    rw [hreq] at hset
    rw [hsame, or_iff_left hnot]
    exact hset
  · rcases requestDrainSet_ok (by rw [hreq]) with
      ⟨hsame, hfiled⟩ | ⟨targets, hadm, hid, hroom, rfl, hworld⟩
    · -- A replay: the set is found, and nothing is written.
      obtain ⟨set, hset', -⟩ := hfiled.same
      rw [hreq] at hsame
      have hkept : e'.sets.find? setId = some set := by rw [hsame, hset']
      rw [(requestDrain_of_ok hreq hkept).1, hsame]
      refine iff_of_true (fun _ => .refl _) ?_
      have hmark : ∀ targets, e.Admissible request targets now → ¬ e.setHighWater < u64Max := by
        intro targets hadm hid
        have hnext := setHighWater_requestDrainSet hadm hid
        rw [hreq, hsame] at hnext
        exact Nat.succ_ne_self _ hnext.symm
      rintro (⟨targets, hadm, hid, -⟩ | ⟨targets, hadm, hid, -⟩)
      · exact hmark targets hadm hid
      · exact hmark targets hadm hid
    · -- The set was created: the request fails if it does not find one drain.
      rw [hreq] at hworld
      have hfound : e'.sets.find? (e.setHighWater + 1) =
          some ((e.sets.find? (e.setHighWater + 1)).getD (e.nextSet request targets now)) := by
        rw [hworld]
        exact find_nextSet e.toWorld request targets now
      obtain ⟨hfst, herr⟩ := requestDrain_of_ok hreq hfound
      have hcount : ((e.sets.find? (e.setHighWater + 1)).getD
            (e.nextSet request targets now)).members.length =
          (e.sets.find? (e.setHighWater + 1)).elim targets.length
            (fun set => set.members.length) := by
        cases e.sets.find? (e.setHighWater + 1) with
        | none => exact length_nextSet e.toWorld request targets now
        | some set => rfl
      rw [hcount] at herr
      rw [herr, hfst]
      constructor
      · rintro hsame (⟨targets', hadm', -, hdrains⟩ | ⟨targets', hadm', -, -, hmany⟩)
        · obtain rfl := hadm.targets_eq hadm'
          exact absurd hdrains (Nat.not_lt.mpr hroom)
        · obtain rfl := hadm.targets_eq hadm'
          have hmark := (hsame hmany).setMark
          rw [hworld] at hmark
          exact Nat.succ_ne_self _ hmark
      · intro hnot hmany
        exact absurd (Or.inr ⟨targets, hadm, hid, hroom, hmany⟩) hnot

end Engine

/-- A rejected request leaves the drains, the sets, the nonces and both counters as they
were, unless there is an id left for its set but not for each of its drains; for the
request of a single drain, unless also it passes every check with other than one target. -/
theorem rejected_request_unchanged_iff (e : Engine) (request : DrainRequest) (now : TimePoint) :
    (((∃ err, (e.requestDrainSet request now).2 = .error err) →
        Unrequested e.toWorld (e.requestDrainSet request now).1.toWorld) ↔
      ¬ e.RunsOut request now) ∧
    (((∃ err, (e.requestDrain request now).2 = .error err) →
        Unrequested e.toWorld (e.requestDrain request now).1.toWorld) ↔
      ¬ (e.RunsOut request now ∨ e.NotSingle request now)) :=
  ⟨requestDrainSet_unchanged_iff e request now, requestDrain_unchanged_iff e request now⟩

namespace OnePort

/-- An engine with a live line and one token; two drains of a failure domain may hold
their fences at a time. -/
def authorized : Engine :=
  run Engine.perform (Engine.init { maxConcurrentDrainsPerDomain := 2 })
    [.call (.installIncarnation 1 1), .call (.issueAuthority "" 0 1)]

/-- The port and a second one of its domain. -/
def bothPorts : DrainRequest :=
  { targets := [port, { port with id := "p2" }], authority := 1 }

end OnePort

/-- One drain is asked for and two ports are named: the request is rejected, and both
ports have a drain. -/
theorem rejected_request_creates_drains :
    (OnePort.authorized.requestDrain OnePort.bothPorts 1).2 = fail .internal
        "single-target drain request did not produce exactly one drain" ∧
      OnePort.authorized.drains.keys = [] ∧ OnePort.authorized.sets.keys = [] ∧
      OnePort.authorized.setHighWater = 0 ∧
      (OnePort.authorized.requestDrain OnePort.bothPorts 1).1.drains.keys = [1, 2] ∧
      (OnePort.authorized.requestDrain OnePort.bothPorts 1).1.sets.keys = [1] ∧
      (OnePort.authorized.requestDrain OnePort.bothPorts 1).1.setHighWater = 1 := by
  decide +kernel

/-! ### Restorations -/

namespace World

/-- The sink refuses one of the requests of a restoration under `generation`. -/
def Refused (w : World) (sink : Option EvacuationSink) (r : DrainRecord) (generation : Generation)
    (reason : String) (now : TimePoint) : Prop :=
  ∃ answers, sink = some answers ∧
    ((∃ obligation ∈ w.outstandingFor r.target, answers.onRestorationRequest
        { drain := r.id, target := r.target, obligation := obligation.id,
          generation := r.generation, restoreGeneration := generation, at_ := now,
          reason := truncate reason } ≠ .ok ()) ∨
      answers.onAdmissionReopen
        { target := r.target, generation, at_ := now, reason := truncate reason } ≠ .ok ())

/-- A restoration that fails half way. -/
inductive FailsHalfway (w : World) (sink : Option EvacuationSink) (id : DrainId)
    (authority : AuthorityId) (reason : String) (now : TimePoint) : Prop
  /-- The fence is reopened, and then the record cannot follow or the sink refuses. -/
  | reopened {r : DrainRecord} : w.Restorable id authority now r → w.fence.ClosedBy r.target r.id →
      w.fence.generation r.target < u64Max →
      (r.revision = u64Max ∨
        w.Refused sink r (w.fence.generation r.target + 1) reason now) →
      FailsHalfway w sink id authority reason now
  /-- The fence is closed to be reopened, and then there is no generation left for one of
  the two, the record cannot follow or the sink refuses. -/
  | forced {r : DrainRecord} : w.Restorable id authority now r →
      w.fence.isClosed r.target = false → w.fence.generation r.target ≤ r.generation →
      (u64Max ≤ w.fence.generation r.target + 1 ∨ r.revision = u64Max ∨
        w.Refused sink r (w.fence.generation r.target + 2) reason now) →
      FailsHalfway w sink id authority reason now
  /-- The fence is left alone, the record moves, and then the sink refuses. -/
  | moved {r : DrainRecord} : w.Restorable id authority now r →
      w.fence.isClosed r.target = false → r.generation < w.fence.generation r.target →
      r.revision ≠ u64Max → w.Refused sink r (w.fence.generation r.target) reason now →
      FailsHalfway w sink id authority reason now

end World

namespace Engine

theorem dispatch_restorationActions {w : World} {sink : Option EvacuationSink} {r : DrainRecord}
    {generation : Generation} {reason : String} {now : TimePoint} :
    dispatch sink (restorationActions w r generation reason now) = .ok () ↔
      ¬ w.Refused sink r generation reason now := by
  cases sink with
  | none => simp [dispatch, Refused]
  | some answers =>
    simp only [dispatch, restorationActions, EvacuationSink.deliver_eq_ok_iff, List.forall_mem_map,
      List.forall_mem_singleton, List.not_mem_nil, false_imp_iff, implies_true, true_and]
    constructor
    · rintro ⟨hrestored, hreopened⟩ ⟨_, hsome, hrefused⟩
      obtain rfl := Option.some.inj hsome
      rcases hrefused with ⟨obligation, hmem, hrefused⟩ | hrefused
      · exact hrefused (hrestored obligation hmem)
      · exact hrefused hreopened
    · intro hnot
      constructor
      · intro obligation hmem
        exact by_contra (fun hrefused => hnot ⟨answers, rfl, Or.inl ⟨obligation, hmem, hrefused⟩⟩)
      · exact by_contra (fun hrefused => hnot ⟨answers, rfl, Or.inr hrefused⟩)

/-- How the fence takes the restoration of a drain. -/
inductive Reopening (w : World) (r : DrainRecord) :
    AdmissionFence → Option Generation → Prop
  | foreign : w.fence.isClosed r.target = true → ¬ w.fence.ClosedBy r.target r.id →
      Reopening w r w.fence none
  | exhausted : w.fence.ClosedBy r.target r.id → u64Max ≤ w.fence.generation r.target →
      Reopening w r w.fence none
  | reopened {fence : AdmissionFence} : w.fence.ClosedBy r.target r.id →
      w.fence.generation r.target < u64Max → fence ≠ w.fence →
      Reopening w r fence (some (w.fence.generation r.target + 1))
  | stuck {fence : AdmissionFence} : w.fence.isClosed r.target = false →
      w.fence.generation r.target ≤ r.generation → u64Max ≤ w.fence.generation r.target + 1 →
      fence ≠ w.fence → Reopening w r fence none
  | forced {fence : AdmissionFence} : w.fence.isClosed r.target = false →
      w.fence.generation r.target ≤ r.generation → w.fence.generation r.target + 1 < u64Max →
      fence ≠ w.fence → Reopening w r fence (some (w.fence.generation r.target + 2))
  | open : w.fence.isClosed r.target = false → r.generation < w.fence.generation r.target →
      Reopening w r w.fence (some (w.fence.generation r.target))

theorem reopening_reopenFence (hw : Housed w) (hr : w.drain r.id = some r) (hid : r.id ≠ 0)
    (reason : String) (now : TimePoint) :
    ∃ fence result, reopenFence w.fence r reason now = (fence, result) ∧
      Reopening w r fence result.toOption := by
  unfold reopenFence
  cases hclosed : w.fence.isClosed r.target with
  | true =>
    obtain ⟨entry, hentry, hshut⟩ := AdmissionFence.isClosed_iff.mp hclosed
    have hgeneration := AdmissionFence.generation_of_entry hentry
    by_cases hown : entry.drain = r.id
    · have hheld : w.fence.ClosedBy r.target r.id := ⟨entry, hentry, hshut, hown⟩
      have hreopen := AdmissionFence.reopen_of_closed hentry hshut hid now (truncate reason)
      rw [← hgeneration] at hreopen
      simp only [if_true, hentry, Option.filter, hown, bne_self_eq_false, Bool.false_eq_true,
        if_false]
      rcases Nat.lt_or_ge (w.fence.generation r.target) u64Max with hroom | hfull
      · obtain ⟨fence, heq⟩ := hreopen.1 hroom
        rw [heq]
        refine ⟨fence, _, rfl, .reopened hheld hroom ?_⟩
        intro hsame
        have hnext := AdmissionFence.generation_of_reopen heq
        rw [hsame] at hnext
        exact Nat.succ_ne_self _ hnext.symm
      · obtain ⟨err, heq⟩ := hreopen.2 hfull
        rw [heq]
        exact ⟨_, _, rfl, .exhausted hheld hfull⟩
    · have hforeign : ¬ w.fence.ClosedBy r.target r.id := by
        rintro ⟨entry', hentry', -, hown'⟩
        obtain rfl := Option.some.inj (hentry.symm.trans hentry')
        exact hown hown'
      have hother : (entry.drain != r.id) = true := bne_iff_ne.mpr hown
      simp only [if_true, hentry, Option.filter, hother]
      exact ⟨_, _, rfl, .foreign hclosed hforeign⟩
  | false =>
    simp only [Bool.false_eq_true, if_false]
    by_cases hstale : w.fence.generation r.target ≤ r.generation
    · rw [if_pos hstale]
      rcases Nat.lt_or_ge (w.fence.generation r.target) u64Max with hroom | hfull
      · obtain ⟨fence, hclose⟩ := hw.close_ok hr hid hroom now "restoration generation advance"
        obtain ⟨-, -, ⟨entry, hentry, hshut, -, hgeneration⟩, -⟩ := AdmissionFence.close_ok hclose
        have hreopen := AdmissionFence.reopen_of_closed hentry hshut hid now (truncate reason)
        have hadvanced := AdmissionFence.generation_of_close hclose
        rw [hgeneration] at hreopen
        simp only [hclose]
        rcases Nat.lt_or_ge (w.fence.generation r.target + 1) u64Max with hnext | hlast
        · obtain ⟨fence', heq⟩ := hreopen.1 hnext
          simp only [heq]
          refine ⟨fence', _, rfl, .forced hclosed hstale hnext ?_⟩
          intro hsame
          have htwice := AdmissionFence.generation_of_reopen heq
          rw [hsame, hadvanced] at htwice
          exact absurd htwice (Nat.ne_of_lt (by omega))
        · obtain ⟨err, heq⟩ := hreopen.2 hlast
          simp only [heq]
          refine ⟨fence, _, rfl, .stuck hclosed hstale hlast ?_⟩
          intro hsame
          rw [hsame] at hadvanced
          exact Nat.succ_ne_self _ hadvanced.symm
      · obtain ⟨fence, err, hclose, hzero⟩ := AdmissionFence.close_of_exhausted hid hfull now
          "restoration generation advance"
        simp only [hclose]
        refine ⟨fence, _, rfl, .stuck hclosed hstale (hfull.trans (Nat.le_succ _)) ?_⟩
        intro hsame
        rw [← hsame, hzero] at hfull
        exact absurd hfull (by decide)
    · rw [if_neg hstale]
      exact ⟨_, _, rfl, .open hclosed (Nat.not_le.mp hstale)⟩

/-- A half-way failure is told from the one way the fence takes the restoration. -/
theorem failsHalfway_iff {sink : Option EvacuationSink} {reason : String}
    (h : w.Restorable id authority now r) {fence : AdmissionFence} {reopened : Option Generation}
    (hcase : Reopening w r fence reopened) :
    w.FailsHalfway sink id authority reason now ↔
      match reopened with
      | none => fence ≠ w.fence
      | some generation => (fence ≠ w.fence ∧ r.revision = u64Max) ∨
          (r.revision ≠ u64Max ∧ w.Refused sink r generation reason now) := by
  have hunique : ∀ r', w.Restorable id authority now r' → r' = r := fun r' h' =>
    Option.some.inj (h'.found.symm.trans h.found)
  have hshut : w.fence.ClosedBy r.target r.id → w.fence.isClosed r.target = true :=
    fun ⟨entry, hentry, hclosed, _⟩ => AdmissionFence.isClosed_iff.mpr ⟨entry, hentry, hclosed⟩
  constructor
  · intro hfails
    cases hfails with
    | @reopened r' h' hheld hroom hlate =>
      obtain rfl := hunique r' h'
      cases hcase with
      | foreign _ hforeign => exact absurd hheld hforeign
      | exhausted _ hfull => exact absurd hroom (Nat.not_lt.mpr hfull)
      | reopened _ _ hne =>
        rcases hlate with hlast | hrefused
        · exact Or.inl ⟨hne, hlast⟩
        · by_cases hlast : r'.revision = u64Max
          · exact Or.inl ⟨hne, hlast⟩
          · exact Or.inr ⟨hlast, hrefused⟩
      | stuck hopen | forced hopen | «open» hopen =>
        cases (hshut hheld).symm.trans hopen
    | @forced r' h' hopen hstale hlate =>
      obtain rfl := hunique r' h'
      cases hcase with
      | foreign hclosed => cases hclosed.symm.trans hopen
      | exhausted hheld | reopened hheld => cases (hshut hheld).symm.trans hopen
      | stuck _ _ _ hne => exact hne
      | forced _ _ hroom hne =>
        by_cases hlast : r'.revision = u64Max
        · exact Or.inl ⟨hne, hlast⟩
        · rcases hlate with hfull | hlast' | hrefused
          · exact absurd hroom (Nat.not_lt.mpr hfull)
          · exact absurd hlast' hlast
          · exact Or.inr ⟨hlast, hrefused⟩
      | «open» _ hpassed => exact absurd hstale (Nat.not_le.mpr hpassed)
    | @moved r' h' hopen hpassed hroom hrefused =>
      obtain rfl := hunique r' h'
      cases hcase with
      | foreign hclosed => cases hclosed.symm.trans hopen
      | exhausted hheld | reopened hheld => cases (hshut hheld).symm.trans hopen
      | stuck _ hstale | forced _ hstale => exact absurd hstale (Nat.not_le.mpr hpassed)
      | «open» => exact Or.inr ⟨hroom, hrefused⟩
  · intro hlate
    cases hcase with
    | foreign | exhausted => exact absurd rfl hlate
    | reopened hheld hroom hne =>
      refine .reopened h hheld hroom ?_
      rcases hlate with ⟨-, hlast⟩ | ⟨-, hrefused⟩
      · exact Or.inl hlast
      · exact Or.inr hrefused
    | stuck hopen hstale hfull => exact .forced h hopen hstale (Or.inl hfull)
    | forced hopen hstale hroom hne =>
      refine .forced h hopen hstale (Or.inr ?_)
      rcases hlate with ⟨-, hlast⟩ | ⟨-, hrefused⟩
      · exact Or.inl hlast
      · exact Or.inr hrefused
    | «open» hopen hpassed =>
      rcases hlate with ⟨hne, -⟩ | ⟨hroom, hrefused⟩
      · exact absurd rfl hne
      · exact .moved h hopen hpassed hroom hrefused

/-- A record in another state makes another table. -/
theorem withDrain_drains_ne {r' : DrainRecord} (hr : w.drain r.id = some r) (hid : r'.id = r.id)
    (hne : r'.state ≠ r.state) : (w.withDrain r').drains ≠ w.drains := by
  intro hsame
  have hfound : (w.withDrain r').drain r.id = some r' := by
    rw [drain_withDrain, if_pos hid]
  rw [World.drain, hsame, ← World.drain, hr] at hfound
  exact hne (congrArg DrainRecord.state (Option.some.inj hfound)).symm

end Engine

/-- A failed restoration, refusals of the sink included, leaves the fence and the drains as
they were, unless it fails half way: after the fence was reopened or closed to be reopened
while a generation or the revision of the record runs out, or after all its writes because
the sink refuses a request. -/
theorem failed_restoration_unchanged_iff {C : Engine → Event → Prop} {e : Engine}
    (he : Reachable C e) (sink : Option EvacuationSink) (id : DrainId) (authority : AuthorityId)
    (reason : String) (now : TimePoint) :
    ((∃ err, (e.restoreDrainDispatched sink id authority reason now).2 = .error err) →
        (e.restoreDrainDispatched sink id authority reason now).1.fence = e.fence ∧
        (e.restoreDrainDispatched sink id authority reason now).1.drains = e.drains) ↔
      ¬ e.FailsHalfway sink id authority reason now := by
  by_cases hres : ∃ r, e.Restorable id authority now r
  · obtain ⟨r, h⟩ := hres
    have hid := id_of_drain h.found
    have hfound : e.drain r.id = some r := hid ▸ h.found
    obtain ⟨fence, result, hreopen, hcase⟩ := reopening_reopenFence he.housed hfound
      (he.filed.number r.id r hfound).1.ne' reason now
    have hcall := restoreDrain_of_restorable h hreopen
    rw [failsHalfway_iff h hcase]
    cases result with
    | error err =>
      have hsame : e.restoreDrainDispatched sink id authority reason now =
          ({ e with fence }, .error err) := by
        simp only [restoreDrainDispatched, hcall]
      rw [hsame]
      simp [Except.toOption]
    | ok generation =>
      show _ ↔ ¬ ((fence ≠ e.fence ∧ r.revision = u64Max) ∨
        (r.revision ≠ u64Max ∧ e.Refused sink r generation reason now))
      rcases hcall with ⟨hlast, hworld, err, herr⟩ | ⟨hroom, hworld, hok⟩
      · have hdone : e.restoreDrainDispatched sink id authority reason now =
            ((e.restoreDrain id authority reason now).1, .error err) := by
          simp only [restoreDrainDispatched]
          rw [← Prod.eta (e.restoreDrain id authority reason now), herr]
        rw [hdone, hworld]
        simp [hlast, withFence]
      · have hdone : e.restoreDrainDispatched sink id authority reason now =
            ((e.restoreDrain id authority reason now).1,
              dispatch sink (restorationActions e.toWorld r generation reason now)) := by
          simp only [restoreDrainDispatched]
          rw [← Prod.eta (e.restoreDrain id authority reason now), hok]
        have hdrains : (e.restoreDrain id authority reason now).1.drains ≠ e.drains := by
          rw [hworld]
          refine withDrain_drains_ne (w := e.toWorld.withFence fence) hfound rfl ?_
          exact (not_restoring_of_settled h.settled).symm
        have hsent := @dispatch_restorationActions e.toWorld sink r generation reason now
        rw [hdone]
        constructor
        · rintro hsame (⟨-, hlast⟩ | ⟨-, hrefused⟩)
          · exact hroom hlast
          · cases hstatus : dispatch sink (restorationActions e.toWorld r generation reason now) with
            | ok u => exact hsent.mp hstatus hrefused
            | error err => exact hdrains (hsame ⟨err, hstatus⟩).2
        · rintro hnot ⟨err, herr⟩
          have hrefused : ¬ e.Refused sink r generation reason now :=
            fun hrefused => hnot (Or.inr ⟨hroom, hrefused⟩)
          cases herr.symm.trans (hsent.mpr hrefused)
  · obtain ⟨hsame, -⟩ := restoreDrain_of_not_restorable reason hres
    have hnot : ¬ e.FailsHalfway sink id authority reason now := by
      rintro (⟨h, -⟩ | ⟨h, -⟩ | ⟨h, -⟩) <;> exact hres ⟨_, h⟩
    have hkept : (e.restoreDrainDispatched sink id authority reason now).1 = e := by
      rcases hcall : e.restoreDrain id authority reason now with ⟨e', err | actions⟩ <;>
      · rw [hcall] at hsame
        simp only [restoreDrainDispatched, hcall]
        exact hsame
    rw [hkept]
    exact iff_of_true (fun _ => ⟨rfl, rfl⟩) hnot

namespace OnePort

/-- The controller without an agent session: nobody takes the request to reopen admission. -/
def noAgents : EvacuationSink where
  onEvacuationRequest _ := fail .transportError "no agent session is available to receive the request"
  onRestorationRequest _ := .ok ()
  onAdmissionReopen _ := fail .transportError "no agent session is available to receive the request"

end OnePort

/-- The restoration of the drained port is not cut short without a sink. -/
theorem failed_restoration_unchanged_iff_onePort :
    ((∃ err, ((OnePort.afterPasses 5).restoreDrainDispatched none 1 1 "back" 1).2 = .error err) →
        ((OnePort.afterPasses 5).restoreDrainDispatched none 1 1 "back" 1).1.fence =
          (OnePort.afterPasses 5).fence ∧
        ((OnePort.afterPasses 5).restoreDrainDispatched none 1 1 "back" 1).1.drains =
          (OnePort.afterPasses 5).drains) ↔
      ¬ (OnePort.afterPasses 5).FailsHalfway none 1 1 "back" 1 :=
  failed_restoration_unchanged_iff (C := fun _ _ => True)
    (reachable_run (.init {}) (by decide +kernel)) none 1 1 "back" 1

/-- The drained port is to be restored and no agent is connected: the call fails, and
admission is open and the drain is being restored. -/
theorem failed_restoration_reopens :
    ((OnePort.afterPasses 5).restoreDrainDispatched (some OnePort.noAgents) 1 1 "back" 1).2 =
        fail .transportError "no agent session is available to receive the request" ∧
      (OnePort.afterPasses 5).fence.isClosed OnePort.port = true ∧
      ((OnePort.afterPasses 5).drain 1).map DrainRecord.state = some .drained ∧
      ((OnePort.afterPasses 5).restoreDrainDispatched (some OnePort.noAgents) 1 1 "back"
        1).1.fence.isClosed OnePort.port = false ∧
      (((OnePort.afterPasses 5).restoreDrainDispatched (some OnePort.noAgents) 1 1 "back"
        1).1.drain 1).map DrainRecord.state = some .restoring := by
  decide +kernel

end DrainFabric
