import Mathlib.Logic.Relation
import DrainFabric.Codec.Values
import DrainFabric.Engine.CallEffect
import DrainFabric.Policy

/-!
# What an event writes

`CallEffect` and `Act` say what an event means for drains, fence, obligations and
resources. What the tables are well formed by rests on something finer: the single
writes an event is made of, each with the guard it is made under. Every operation
and every turn is a chain of writes (`apply_writes`, `turn_writes`), so what every
write keeps, every operation and every turn keeps.

* `Edit` — the writes to one drain record;
* `Write` — the writes to the state;
* `createDrains_eq` — the drains a request creates, and their numbers.
-/

namespace DrainFabric

open Lib

variable {w w' : World} {next : DrainState} {detail : String} {outcome : DecisionOutcome}
  {inputs notes rejected : List String} {targets : List DrainTarget}

/-- The request an operation makes. -/
def Call.request : Call → Option DrainRequest
  | requestDrainSet request _ | requestDrain request _ => some request
  | _ => none

namespace World

def withAuthority (w : World) (authority : AuthorityRegistry) : World := { w with authority }

/-- The policy in force, with the bounds the tables take from it. -/
def withPolicy (w : World) (policy : DrainPolicy) : World :=
  { w with
    policy
    obligations := { w.obligations with maxObligations := policy.maxObligations }
    evidence := { w.evidence with maxRecords := policy.maxEvidenceRecords } }

/-- The removal observation a drain takes. -/
def removalDraft (w : World) (r : DrainRecord) (now : TimePoint) (seq : EvidenceSeq) : Evidence :=
  { seq, key := removalKey r, generation := r.generation, epoch := w.authority.epoch,
    producer := w.authority.incarnation, authority := r.authority, observedAt := now,
    expiresAt := saturatingAdd now w.policy.evidenceFreshness, healthy := true,
    detail := "removal observation taken by drain " ++ toString r.id }

/-- One write to the record `r`. -/
inductive Edit (w : World) (now : TimePoint) (r : DrainRecord) : DrainRecord → Prop
  /-- A blocked drain goes back to where it was blocked, or settles. -/
  | moves {next : DrainState} (detail : String) :
      next ≠ r.state → isLegalDrainTransition r.state next = true → r.revision ≠ u64Max →
      (r.state = .blocked → next = r.phase ∨ isSettled next = true) →
      Edit w now r (r.moved next now detail)
  | blocks (blockers : List Blocker) : Edit w now r (r.setBlockers blockers)
  | fences (generation : Generation) :
      r.state = .validating → Edit w now r { r with generation }
  | requests : r.state = .evacuating →
      r.evacuationRequests < w.policy.maxEvacuationAttempts →
      Edit w now r (r.noteEvacuationAttempt now)
  | completes (proof : EvidenceSeq) :
      r.state = .verifying → Edit w now r (w.completionRecord r proof now)
  | restores : r.state = .cancelled → Edit w now r (r.markRestored now r.restoreGeneration)
  | reopens (generation : Generation) :
      r.state = .restoring → Edit w now r { r with restoreGeneration := generation }
  | excuses : isSettled r.state = false → Edit w now r r.resetEvacuationAttempts

/-- One write to the state. -/
inductive Write (w : World) : Event → World → Prop
  | policy {policy : DrainPolicy} {now : TimePoint} :
      policy.validate = .ok () → Write w (.call (.setPolicy policy now)) (w.withPolicy policy)
  | incarnation {incarnation : IncarnationId} {now : TimePoint} {authority : AuthorityRegistry} :
      w.authority.installIncarnation incarnation = .ok authority →
      Write w (.call (.installIncarnation incarnation now)) (w.withAuthority authority)
  | line {c : Call} {incarnation : IncarnationId} {epoch : Epoch} {now : TimePoint}
      {reason : String} {authority : AuthorityRegistry} :
      w.authority.installLine incarnation epoch now reason = .ok authority →
      Write w (.call c) ((w.withAuthority authority).withEvidence w.evidence.quarantineAll)
  | token {scope : DomainId} {validity : Duration} {now : TimePoint}
      {authority : AuthorityRegistry} {token : AuthorityToken} :
      w.authority.issue scope now validity = .ok (authority, token) →
      Write w (.call (.issueAuthority scope validity now)) (w.withAuthority authority)
  | revocation {id : AuthorityId} {reason : String} {now : TimePoint}
      {authority : AuthorityRegistry} :
      w.authority.revoke id now reason = .ok authority →
      Write w (.call (.revokeAuthority id reason now)) (w.withAuthority authority)
  | resource {node : ResourceNode} {now : TimePoint} {topology : Topology} :
      w.topology.addResource node = .ok topology →
      Write w (.call (.addResource node now)) (w.withTopology topology)
  | edge {a b : ResourceId} {now : TimePoint} {topology : Topology} :
      w.topology.addEdge a b = .ok topology →
      Write w (.call (.addEdge a b now)) (w.withTopology topology)
  | path {path : FabricPath} {now : TimePoint} {topology : Topology} :
      w.topology.addPath path = .ok topology →
      Write w (.call (.addPath path now)) (w.withTopology topology)
  | group {group : DiversityGroup} {now : TimePoint} {topology : Topology} :
      w.topology.addDiversityGroup group = .ok topology →
      Write w (.call (.addDiversityGroup group now)) (w.withTopology topology)
  | pool {pool : CapacityPool} {now : TimePoint} {topology : Topology} :
      w.topology.addCapacityPool pool = .ok topology →
      Write w (.call (.addCapacityPool pool now)) (w.withTopology topology)
  | route {route : ProtectedRoute} {now : TimePoint} {topology : Topology} :
      w.topology.addProtectedRoute route = .ok topology →
      Write w (.call (.addProtectedRoute route now)) (w.withTopology topology)
  | status {ev : Event} {id : ResourceId} {status : ResourceStatus} {topology : Topology} :
      w.topology.setStatus id status = .ok topology → Write w ev (w.withTopology topology)
  | admission {draft : Obligation} {presented : Generation} {authority : AuthorityId}
      {now : TimePoint} :
      draft.dependencies.val ≠ [] →
      draft.dependencies.val.length ≤ maxDependenciesPerObligation →
      Write w (.call (.admitObligation draft presented authority now))
        (w.withObligations (w.obligations.insert
          { draft with admittedAt := now, admissionGeneration := presented }).1)
  | report {report : ObligationReport} {now : TimePoint} {o applied : Obligation} :
      w.obligations.find report.obligation = some o → Engine.reportFence w report = .ok () →
      o.applyState report.expectedRevision report.next report.evidence now = .ok applied →
      Write w (.call (.reportObligation report now))
        (w.withObligations (w.obligations.store { applied with
          attempt := if report.attempt ≠ 0 then report.attempt else applied.attempt
          note := if report.note.isEmpty then applied.note else truncate report.note }))
  | evidence {draft : Evidence} {now : TimePoint} :
      Write w (.call (.recordEvidence draft now))
        (w.withEvidence (w.evidence.record draft (w.evidenceFence now)
          w.policy.evidenceRequiresLiveIncarnation).1)
  | attestation {key : EvidenceKey} {seq : EvidenceSeq} {now : TimePoint}
      {evidence : EvidenceLedger} :
      w.evidence.attest key seq (w.evidenceFence now) = .ok evidence →
      Write w (.call (.attestEvidence key seq now)) (w.withEvidence evidence)
  /-- The drains of a request and their set. -/
  | founded {c : Call} {request : DrainRequest} {targets : List DrainTarget} {now : TimePoint} :
      c.request = some request → w.Admissible request targets now → w.Numerable targets →
      Write w (.call c) ((w.withDrains request targets now).withSet
        (w.nextSet request targets now))
  /-- The drains for the first targets of a request, before the ids ran out. -/
  | abandoned {c : Call} {request : DrainRequest} {made rest : List DrainTarget}
      {now : TimePoint} :
      c.request = some request → w.Admissible request (made ++ rest) now → w.Numerable made →
      Write w (.call c) (w.withDrains request made now)
  | record {ev : Event} {r r' : DrainRecord} :
      w.drain r.id = some r → Edit w ev.time r r' → Write w ev (w.withDrain r')
  | closure {ev : Event} {r : DrainRecord} (reason : String) :
      w.drain r.id = some r →
      Write w ev (w.withFence (w.fence.close r.target r.id ev.time reason).1)
  | reopening {ev : Event} {r : DrainRecord} {reason : String} {fence : AdmissionFence}
      {generation : Generation} :
      w.drain r.id = some r →
      w.fence.reopen r.target r.id ev.time reason = .ok (fence, generation) →
      Write w ev (w.withFence fence)
  /-- Looking the grants of a drain up. -/
  | budget {c : Call} {r : DrainRecord} :
      w.drain r.id = some r →
      Write w (.call c) (w.withExceptions
        (OrdMap.set w.exceptions r.id ((OrdMap.get? w.exceptions r.id).getD [])))
  | grant {obligation : ObligationId} {extension : Duration} {authority : AuthorityId}
      {now : TimePoint} {r : DrainRecord} {sequence : Nat} :
      w.drain r.id = some r → 0 < extension →
      ((OrdMap.get? w.exceptions r.id).getD []).length < w.policy.maxExceptionExtensions →
      incrementChecked32 w.exceptionHighWater = some sequence →
      Write w (.call (.grantException r.id obligation extension authority now))
        (w.withGrant
          { drain := r.id, obligation, extension, authority, grantedAt := now, sequence })
  | observation {id : DrainId} {now : TimePoint} {r : DrainRecord} {seq : EvidenceSeq} :
      w.drain r.id = some r →
      incrementChecked (w.evidence.highWater (removalKey r)) = some seq →
      Write w (.turn id now) (w.withEvidence (w.evidence.record (w.removalDraft r now seq)
        (w.evidenceFence now) w.policy.evidenceRequiresLiveIncarnation).1)
  | retirement {id : DrainId} {now : TimePoint} {r : DrainRecord} :
      w.drain r.id = some r →
      Write w (.turn id now) (w.withObligations
        ((w.retirable r now).foldl (Engine.retireOne now) (w.obligations, 0)).1)

/-- A chain of writes of one event. -/
abbrev Writes (ev : Event) : World → World → Prop :=
  Relation.ReflTransGen (fun w w' => Write w ev w')

theorem Writes.of_write {ev : Event} (h : Write w ev w') : Writes ev w w' :=
  Relation.ReflTransGen.single h

/-- What every write of an event keeps, a chain of them keeps. -/
theorem Writes.invariant {ev : Event} {P : World → Prop}
    (hwrite : ∀ w w', Write w ev w' → P w → P w') (h : Writes ev w w') (hw : P w) : P w' := by
  induction h with
  | refl => exact hw
  | tail _ hlast ih => exact hwrite _ _ hlast ih

end World

theorem Blocker.length_normalize_le (blockers : List Blocker) :
    (normalize blockers).length ≤ blockers.length := by
  refine (List.destutter_sublist _ _).length_le.trans ?_
  rw [List.length_insertionSort]

/-- The drain an operation names. -/
def Call.drain : Call → Option DrainId
  | cancelDrain id _ _ _ | restoreDrain id _ _ _ | resumeDrain id _ _
  | grantException id _ _ _ _ => some id
  | _ => none

/-- The drain an event names. -/
def Event.drain : Event → Option DrainId
  | call c => c.drain
  | turn id _ => some id
  | restart _ _ => none

namespace World

/-- What an event leaves of the drains: those it does not name stay as they are, and so do
the evacuation attempts of all of them, unless the event counts them. -/
structure Confined (counts : Prop) (ev : Event) (w w' : World) : Prop where
  others : ∀ id r, w.drain id = some r → ev.drain ≠ some id → w'.drain id = some r
  attempts : ¬ counts → ∀ id r, w.drain id = some r →
    ∃ r', w'.drain id = some r' ∧ r'.evacuationRequests = r.evacuationRequests

theorem Confined.of_kept {counts : Prop} {ev : Event}
    (h : ∀ id r, w.drain id = some r → w'.drain id = some r) : Confined counts ev w w' :=
  ⟨fun id r hr _ => h id r hr, fun _ id r hr => ⟨r, h id r hr, rfl⟩⟩

theorem Confined.trans {counts : Prop} {ev : Event} {w₁ w₂ : World} (h : Confined counts ev w w₁)
    (h' : Confined counts ev w₁ w₂) : Confined counts ev w w₂ := by
  refine ⟨fun id r hr hev => h'.others id r (h.others id r hr hev) hev, fun hc id r hr => ?_⟩
  obtain ⟨r₁, hr₁, hsame⟩ := h.attempts hc id r hr
  obtain ⟨r₂, hr₂, hsame'⟩ := h'.attempts hc id r₁ hr₁
  exact ⟨r₂, hr₂, hsame'.trans hsame⟩

end World

namespace Engine

open World

/-! ### Strokes -/

/-- One stroke of an event: a write to the state or a decision for the trail. If `few` is
the case, the decision can be read back. -/
inductive Stroke (few counts : Prop) (ev : Event) (e : Engine) : Engine → Prop
  | write {w : World} : Write e.toWorld ev w → Confined counts ev e.toWorld w →
      Stroke few counts ev e { e with toWorld := w }
  | note {d : Decision} : (few → e.policy.Valid → d.Readable) →
      Stroke few counts ev e (e.recordDecision d)

/-- What an event does, stroke by stroke. -/
abbrev Strokes (few counts : Prop) (ev : Event) : Engine → Engine → Prop :=
  Relation.ReflTransGen (Stroke few counts ev)

theorem readable_of_brief {d : Decision} (h : brief d = true) : d.Readable := by
  rw [brief, Bool.and_eq_true, bne_iff_ne, Nat.ble_eq] at h
  obtain ⟨haction, hlength⟩ := h
  exact ⟨haction, by omega, by omega, by omega, by omega⟩

section

variable {few counts : Prop} {ev : Event} {e e' : Engine} {r r' : DrainRecord} {now : TimePoint}

theorem Strokes.of_write (h : Write e.toWorld ev w) (hdrains : w.drains = e.drains) :
    Strokes few counts ev e { e with toWorld := w } :=
  .single (.write h (.of_kept (fun id r hr => by rw [drain, hdrains]; exact hr)))

theorem Strokes.noted (h : Strokes few counts ev e e') {d : Decision} (hd : brief d = true) :
    Strokes few counts ev e (e'.recordDecision d) :=
  h.tail (.note (fun _ _ => readable_of_brief hd))

theorem Strokes.writes (h : Strokes few counts ev e e') : Writes ev e.toWorld e'.toWorld := by
  induction h with
  | refl => exact .refl
  | tail _ hlast ih =>
    cases hlast with
    | write hwrite => exact ih.tail hwrite
    | note => exact ih

theorem Strokes.confined (h : Strokes few counts ev e e') :
    Confined counts ev e.toWorld e'.toWorld := by
  induction h with
  | refl => exact .of_kept (fun _ _ hr => hr)
  | tail _ hlast ih =>
    cases hlast with
    | write _ hconfined => exact ih.trans hconfined
    | note => exact ih

/-! ### Writing a record -/

theorem drain_withDrain_ne {r : DrainRecord} {id : DrainId} (h : r.id ≠ id) :
    (w.withDrain r).drain id = w.drain id := by
  rw [drain_withDrain, if_neg h]

/-- An event rewrites the record of the drain it names. -/
theorem strokes_record (hr : e.drain r.id = some r) (hev : ev.drain = some r.id)
    (hedit : Edit e.toWorld ev.time r r') (hid : r'.id = r.id)
    (hcounts : ¬ counts → r'.evacuationRequests = r.evacuationRequests) :
    Strokes few counts ev e (e.storeDrain r') := by
  show Strokes few counts ev e { e with toWorld := e.toWorld.withDrain r' }
  refine .single (.write (.record hr hedit) ⟨fun id q hq hne => ?_, fun hc id q hq => ?_⟩)
  · refine (drain_withDrain_ne (fun heq => hne ?_)).trans hq
    rw [hev, ← hid, heq]
  · by_cases heq : r.id = id
    · subst heq
      obtain rfl := Option.some.inj (hr.symm.trans hq)
      exact ⟨r', by rw [drain_withDrain, if_pos hid], hcounts hc⟩
    · exact ⟨q, (drain_withDrain_ne (hid ▸ heq)).trans hq, rfl⟩

/-- A record that was moved, if it could be, is the one in the table. Its blockers are
recorded when it is blocked, and then they have to be few. -/
theorem strokes_applyTransition (ev : Event) {moved : Option DrainRecord}
    (h : e.applyTransition r next now detail outcome inputs notes rejected = (e', moved))
    (hr : e.drain r.id = some r) (hev : ev.drain = some r.id ∧ ev.time = now)
    (hresume : r.state = .blocked → next = r.phase ∨ isSettled next = true)
    (hblockers : few → e.policy.Valid → next = .blocked → r.blockers.length ≤ 4096)
    (hbrief : Nat.ble (inputs.length + notes.length + rejected.length) 4000 = true) :
    Strokes few counts ev e e' ∧
      (∀ q, moved = some q → q.id = r.id ∧ q.state = next ∧ e'.drain r.id = some q) ∧
      (moved = none → e'.drain r.id = some r) := by
  obtain ⟨hdrain, rfl⟩ := hev
  rw [Nat.ble_eq] at hbrief
  unfold applyTransition at h
  cases hmove : r.transition next ev.time detail with
  | error err =>
    rw [hmove] at h
    obtain ⟨rfl, rfl⟩ := Prod.mk.inj h
    exact ⟨Strokes.noted .refl rfl, (fun _ h => by cases h), fun _ => hr⟩
  | ok after =>
    rw [hmove] at h
    obtain ⟨rfl, rfl⟩ := Prod.mk.inj h
    -- The record is written, and carries the blockers it had.
    obtain ⟨hstored, hid, hstate, hkept⟩ : Strokes few counts ev e (e.storeDrain after) ∧
        after.id = r.id ∧ after.state = next ∧
        (next = .blocked → after.blockers = r.blockers) := by
      rcases DrainRecord.transition_ok hmove with ⟨hsame, rfl⟩ | ⟨hne, hlegal, hrev, rfl⟩
      · have hself : e.storeDrain after = e := congrArg (fun w => { e with toWorld := w })
          (withDrain_self hr)
        exact ⟨by rw [hself], rfl, hsame.symm, fun _ => rfl⟩
      · exact ⟨strokes_record hr hdrain (.moves detail hne hlegal hrev hresume) rfl (fun _ => rfl),
          rfl, rfl, fun hnext => by subst hnext; rfl⟩
    refine ⟨hstored.tail (.note (fun hfew hvalid => ⟨?_, ?_, ?_, ?_, ?_⟩)), fun q hq => ?_,
      fun h => by cases h⟩
    · show "enter-" ++ next.toString ≠ ""
      cases next <;> decide
    · simp only [List.length_append, List.length_cons, List.length_nil]
      omega
    · show notes.length ≤ 4096
      omega
    · show rejected.length ≤ 4096
      omega
    · dsimp only
      split_ifs with hnext
      · rw [hkept hnext]
        exact hblockers hfew hvalid hnext
      · exact Nat.zero_le _
    · obtain rfl := Option.some.inj hq
      exact ⟨hid, hstate, hid ▸ drain_storeDrain e after⟩

theorem strokes_move (hr : e.drain r.id = some r) (hev : ev.drain = some r.id ∧ ev.time = now)
    (hresume : r.state = .blocked → next = r.phase ∨ isSettled next = true)
    (hblockers : few → e.policy.Valid → next = .blocked → r.blockers.length ≤ 4096)
    (hbrief : Nat.ble (inputs.length + notes.length + rejected.length) 4000 = true) :
    Strokes few counts ev e
      (e.applyTransition r next now detail outcome inputs notes rejected).1 :=
  (strokes_applyTransition ev rfl hr hev hresume hblockers hbrief).1

/-- A drain that is not blocked moves on to a state that is not. -/
theorem strokes_forward {state : DrainState} (hr : e.drain r.id = some r) (hs : r.state = state)
    (hstate : state ≠ .blocked) (hnext : next ≠ .blocked)
    (hbrief : Nat.ble (inputs.length + notes.length + rejected.length) 4000 = true) :
    Strokes few counts (.turn r.id now) e
      (e.applyTransition r next now detail outcome inputs notes rejected).1 :=
  strokes_move hr ⟨rfl, rfl⟩ (fun hb => absurd (hs.symm.trans hb) hstate)
    (fun _ _ h => absurd h hnext) hbrief

theorem strokes_enterBlocked {blockers : List Blocker} {action : String}
    (hr : e.drain r.id = some r) (hev : ev.drain = some r.id ∧ ev.time = now)
    (haction : action ≠ "") : Strokes few counts ev e (e.enterBlocked r blockers now action) := by
  simp only [enterBlocked]
  have hfew : e.policy.Valid → (r.setBlockers ((Blocker.normalize blockers).take
      e.policy.maxBlockersPerDrain)).blockers.length ≤ 4096 := by
    intro hvalid
    refine (Blocker.length_normalize_le _).trans ((List.length_take_le _ _).trans ?_)
    exact hvalid.maxBlockersPerDrain.2.trans (by decide)
  have hstored : Strokes few counts ev e (e.storeDrain (r.setBlockers
      ((Blocker.normalize blockers).take e.policy.maxBlockersPerDrain))) :=
    strokes_record hr hev.1 (.blocks _) rfl (fun _ => rfl)
  split_ifs with hb
  · exact hstored.tail (.note (fun _ hvalid =>
      ⟨haction, Nat.zero_le _, Nat.zero_le _, Nat.zero_le _, hfew hvalid⟩))
  · exact hstored.trans (strokes_move (drain_storeDrain _ _) hev (fun h => absurd h hb)
      (fun _ hvalid _ => hfew hvalid) rfl)

end

/-! ### Turns -/

section

variable {few counts : Prop} {e e' : Engine} {r : DrainRecord} {now : TimePoint}

theorem strokes_recordRemovalEvidence {result : Status}
    (h : e.recordRemovalEvidence r now = (e', result)) (hr : e.drain r.id = some r) :
    Strokes few counts (.turn r.id now) e e' ∧ e'.drain r.id = some r := by
  simp only [recordRemovalEvidence] at h
  cases hseq : incrementChecked (e.evidence.highWater (removalKey r)) with
  | none =>
    rw [hseq] at h
    obtain ⟨rfl, -⟩ := Prod.mk.inj h
    exact ⟨.refl, hr⟩
  | some seq =>
    rw [hseq] at h
    obtain ⟨rfl, -⟩ := Prod.mk.inj h
    exact ⟨.of_write (.observation hr hseq) rfl, hr⟩

theorem strokes_stepValidating (hr : e.drain r.id = some r) (hs : r.state = .validating) :
    Strokes few counts (.turn r.id now) e (e.stepValidating r now) := by
  simp only [stepValidating]
  split_ifs with hblocked
  · have hclosure : Strokes few counts (.turn r.id now) e
        { e with fence := (e.fence.close r.target r.id now r.reason).1 } :=
      .of_write (.closure r.reason hr) rfl
    rcases hclose : e.fence.close r.target r.id now r.reason with ⟨fence, err | generation⟩
    · rw [hclose] at hclosure
      exact hclosure.trans (strokes_enterBlocked hr ⟨rfl, rfl⟩ (by decide))
    · rw [hclose] at hclosure
      have hfenced : Strokes few counts (.turn r.id now) { e with fence }
          (storeDrain { e with fence } { r with generation }) :=
        strokes_record hr rfl (.fences generation hs) rfl (fun _ => rfl)
      exact (hclosure.trans hfenced).trans
        (strokes_forward (drain_storeDrain _ { r with generation }) hs (by decide) (by decide) rfl)
  · exact strokes_enterBlocked hr ⟨rfl, rfl⟩ (by decide)

theorem strokes_stepAdmissionClosed (hr : e.drain r.id = some r) (hs : r.state = .admissionClosed) :
    Strokes few counts (.turn r.id now) e (e.stepAdmissionClosed r now) := by
  simp only [stepAdmissionClosed]
  split_ifs
  · exact Strokes.noted .refl rfl
  · exact strokes_forward hr hs (by decide) (by decide) rfl
  · exact strokes_forward hr hs (by decide) (by decide) rfl

theorem attempts_of_evacuation (hmoving : (w.outstandingFor r.target).any isMoving)
    (h : w.evaluateEvacuation r now = []) :
    r.evacuationRequests < w.policy.maxEvacuationAttempts := by
  by_contra hmax
  rw [Nat.not_lt] at hmax
  simp [evaluateEvacuation, hmoving, hmax] at h

/-- Requests are issued exactly when the attempt is counted. -/
theorem strokes_stepEvacuating (hr : e.drain r.id = some r) (hs : r.state = .evacuating) :
    Strokes few ((e.stepEvacuating r now).2 ≠ []) (.turn r.id now) e
        (e.stepEvacuating r now).1 ∧
      ((e.stepEvacuating r now).2 ≠ [] → ∃ q, (e.stepEvacuating r now).1.drain r.id = some q ∧
        q.evacuationRequests = (r.evacuationRequests + 1) % 2 ^ 32) := by
  simp only [stepEvacuating]
  split_ifs with hmoving hblocked hwait
  · exact ⟨Strokes.noted .refl rfl, fun h => absurd rfl h⟩
  · have hissued : ((e.outstandingFor r.target).filter isMoving).map
        (evacuationRequest e.toWorld r ((r.evacuationRequests + 1) % 2 ^ 32) now) ≠ [] := by
      obtain ⟨o, ho, hmove⟩ := List.any_eq_true.mp hmoving
      rw [Ne, List.map_eq_nil_iff]
      exact List.ne_nil_of_mem (List.mem_filter.mpr ⟨ho, hmove⟩)
    have hcounted : Strokes few _ (.turn r.id now) e (e.storeDrain (r.noteEvacuationAttempt now)) :=
      strokes_record hr rfl (.requests hs
        (attempts_of_evacuation hmoving (List.isEmpty_iff.mp hblocked))) rfl
        (fun h => absurd hissued h)
    exact ⟨hcounted.noted rfl, fun _ => ⟨_, drain_storeDrain e _, rfl⟩⟩
  · exact ⟨strokes_enterBlocked hr ⟨rfl, rfl⟩ (by decide), fun h => absurd rfl h⟩
  · exact ⟨strokes_forward hr hs (by decide) (by decide) rfl, fun h => absurd rfl h⟩

theorem strokes_observeRemoval (hr : e.drain r.id = some r) (hs : r.state = .quiescing) :
    Strokes few counts (.turn r.id now) e (e.observeRemoval r now) := by
  simp only [observeRemoval]
  rcases hrec : e.recordRemovalEvidence r now with ⟨e', err | u⟩
  · obtain ⟨hobserved, hr'⟩ := strokes_recordRemovalEvidence hrec hr
    exact hobserved.trans (strokes_enterBlocked hr' ⟨rfl, rfl⟩ (by decide))
  · obtain ⟨hobserved, hr'⟩ := strokes_recordRemovalEvidence hrec hr
    exact hobserved.trans (strokes_forward hr' hs (by decide) (by decide) rfl)

theorem strokes_removalStep (hr : e.drain r.id = some r) (hs : r.state = .quiescing) :
    Strokes few counts (.turn r.id now) e (e.removalStep r now) := by
  simp only [removalStep]
  cases hnode : e.topology.resource r.target.id with
  | none => exact strokes_enterBlocked hr ⟨rfl, rfl⟩ (by decide)
  | some node =>
    dsimp only
    split_ifs
    · exact strokes_enterBlocked hr ⟨rfl, rfl⟩ (by decide)
    · obtain ⟨topology, hset, hwith⟩ := withStatus_toWorld hnode .unavailable
      have hremoved : Strokes few counts (.turn r.id now) e { e with topology } :=
        .of_write (.status hset) rfl
      rw [hwith]
      exact hremoved.trans (strokes_observeRemoval hr hs)
    · exact strokes_enterBlocked hr ⟨rfl, rfl⟩ (by decide)
    · exact strokes_observeRemoval hr hs

/-- One text is recorded for each obligation that was ready to be retired. -/
theorem strokes_stepQuiescing (hr : e.drain r.id = some r) (hs : r.state = .quiescing)
    (hfew : few → (e.retirable r now).length ≤ 4096) :
    Strokes few counts (.turn r.id now) e (e.stepQuiescing r now) := by
  simp only [stepQuiescing]
  split_ifs
  · exact strokes_forward hr hs (by decide) (by decide) rfl
  · exact strokes_removalStep hr hs
  · refine (Strokes.of_write (.retirement hr) rfl).tail (.note (fun h _ => ?_))
    exact ⟨by simp [drainDecision, makeDecision], by simp,
      (List.length_filterMap_le _ _).trans (hfew h), Nat.zero_le _, Nat.zero_le _⟩
  · exact strokes_enterBlocked hr ⟨rfl, rfl⟩ (by decide)

theorem strokes_completeDrain (hr : e.drain r.id = some r) (hs : r.state = .verifying)
    (proof : EvidenceSeq) :
    Strokes few counts (.turn r.id now) e (e.completeDrain r proof now) := by
  simp only [completeDrain, DrainRecord.recordCompletion]
  split_ifs with hremaining
  · exact strokes_enterBlocked hr ⟨rfl, rfl⟩ (by decide)
  · have hcompletes : Strokes few counts (.turn r.id now) e
        (e.storeDrain (e.completionRecord r proof now)) :=
      strokes_record hr rfl (.completes proof hs) rfl (fun _ => rfl)
    rw [not_not.mp hremaining]
    exact hcompletes.trans (strokes_forward (drain_storeDrain _ (e.completionRecord r proof now)) hs
      (by decide) (by decide) rfl)

theorem strokes_stepVerifying (hr : e.drain r.id = some r) (hs : r.state = .verifying) :
    Strokes few counts (.turn r.id now) e (e.stepVerifying r now) := by
  have hend : ∀ (e' : Engine) (blockers : List Blocker) (proof : EvidenceSeq),
      Strokes few counts (.turn r.id now) e e' ∧ e'.drain r.id = some r →
      Strokes few counts (.turn r.id now) e
        (if ¬ blockers.isEmpty then e'.enterBlocked r blockers now "verification-blocked"
          else e'.completeDrain r proof now) := by
    rintro e' blockers proof ⟨hready, hr'⟩
    split_ifs
    · exact hready.trans (strokes_completeDrain hr' hs proof)
    · exact hready.trans (strokes_enterBlocked hr' ⟨rfl, rfl⟩ (by decide))
  simp only [stepVerifying]
  refine hend _ _ _ ?_
  split_ifs
  · rcases hrec : e.recordRemovalEvidence r now with ⟨e', err | u⟩ <;>
      exact strokes_recordRemovalEvidence hrec hr
  · exact ⟨.refl, hr⟩

theorem strokes_stepRestoring (hr : e.drain r.id = some r) :
    Strokes few counts (.turn r.id now) e (e.stepRestoring r now) := by
  simp only [stepRestoring]
  obtain ⟨topology, htop, heq⟩ := restoring_topology e r
  have hreset : Strokes few counts (.turn r.id now) e { e with topology } := by
    rcases htop with rfl | ⟨-, hset⟩
    · exact .refl
    · exact .of_write (.status hset) rfl
  rw [heq]
  split_ifs
  · exact Strokes.noted .refl rfl
  · split
    · rename_i e₁ hmove
      obtain ⟨hmoved, -, hr₁⟩ := strokes_applyTransition (.turn r.id now) hmove hr ⟨rfl, rfl⟩
        (fun _ => Or.inr rfl) (fun _ _ h => by cases h) rfl
      exact (hreset.trans hmoved).trans (strokes_enterBlocked (hr₁ rfl) ⟨rfl, rfl⟩ (by decide))
    · rename_i e₁ r' hmove
      obtain ⟨hmoved, hstored, -⟩ := strokes_applyTransition (.turn r.id now) hmove hr ⟨rfl, rfl⟩
        (fun _ => Or.inr rfl) (fun _ _ h => by cases h) rfl
      obtain ⟨hid, hcancelled, hr'⟩ := hstored r' rfl
      have hrestored : Strokes few counts (.turn r.id now) e₁ _ :=
        strokes_record (hid ▸ hr') (congrArg some hid.symm) (.restores hcancelled) rfl (fun _ => rfl)
      exact (hreset.trans hmoved).trans hrestored

theorem strokes_stepActive (hr : e.drain r.id = some r)
    (hfew : few → r.state = .quiescing → (e.retirable r now).length ≤ 4096) :
    Strokes few ((e.stepActive r now).2 ≠ []) (.turn r.id now) e (e.stepActive r now).1 ∧
      ((e.stepActive r now).2 ≠ [] → ∃ q, (e.stepActive r now).1.drain r.id = some q ∧
        q.evacuationRequests = (r.evacuationRequests + 1) % 2 ^ 32) := by
  unfold stepActive
  cases hs : r.state with
  | requested => exact ⟨strokes_forward hr hs (by decide) (by decide) rfl, fun h => absurd rfl h⟩
  | validating => exact ⟨strokes_stepValidating hr hs, fun h => absurd rfl h⟩
  | admissionClosed => exact ⟨strokes_stepAdmissionClosed hr hs, fun h => absurd rfl h⟩
  | evacuating => exact strokes_stepEvacuating hr hs
  | quiescing =>
    exact ⟨strokes_stepQuiescing hr hs (fun h => hfew h hs), fun h => absurd rfl h⟩
  | verifying => exact ⟨strokes_stepVerifying hr hs, fun h => absurd rfl h⟩
  | restoring => exact ⟨strokes_stepRestoring hr, fun h => absurd rfl h⟩
  | _ => exact ⟨.refl, fun h => absurd rfl h⟩

/-- Revalidating a blocked drain. -/
theorem strokes_resumeBlocked {resumed : Option DrainRecord}
    (h : e.resumeBlocked r now = (e', resumed)) (hr : e.drain r.id = some r)
    (hparked : few → r.blockedFrom.getD .validating ≠ .blocked) :
    Strokes few counts (.turn r.id now) e e' ∧
      ∀ q, resumed = some q → q.id = r.id ∧ e'.drain r.id = some q := by
  simp only [resumeBlocked] at h
  obtain ⟨e₁, hready, hr₁, heq⟩ : ∃ e₁ : Engine, Strokes few counts (.turn r.id now) e e₁ ∧
      e₁.drain r.id = some r ∧
      (if r.blockedFrom.getD .validating = .verifying ∧ e.policy.reobserveRemovalEvidence ∧
        e.removalIsReobservable r then (e.recordRemovalEvidence r now).1 else e) = e₁ := by
    split_ifs
    · obtain ⟨hobserved, hr'⟩ := strokes_recordRemovalEvidence rfl hr
      exact ⟨_, hobserved, hr', rfl⟩
    · exact ⟨e, .refl, hr, rfl⟩
  rw [heq] at h
  split_ifs at h
  · obtain ⟨hmoved, hstored, -⟩ := strokes_applyTransition (.turn r.id now) h hr₁ ⟨rfl, rfl⟩
      (fun hb => Or.inl (if_pos hb).symm) (fun hfew _ hb => absurd hb (hparked hfew)) rfl
    exact ⟨hready.trans hmoved, fun q hq => ⟨(hstored q hq).1, (hstored q hq).2.2⟩⟩
  · obtain ⟨rfl, rfl⟩ := Prod.mk.inj h
    exact ⟨hready.trans (strokes_enterBlocked hr₁ ⟨rfl, rfl⟩ (by decide)), fun _ h => by cases h⟩

end

/-- What a turn does, stroke by stroke. It counts the requests it issues as one attempt. -/
theorem turn_strokes {few : Prop} (e : Engine) (id : DrainId) (now : TimePoint)
    (hfew : few → ∀ r, e.drain id = some r →
      (r.state = .blocked → r.blockedFrom.getD .validating ≠ .blocked) ∧
      (e.retirable r now).length ≤ 4096) :
    Strokes few ((e.turn id now).2 ≠ []) (.turn id now) e (e.turn id now).1 ∧
      ((e.turn id now).2 ≠ [] → ∀ r, e.drain id = some r →
        ∃ q, (e.turn id now).1.drain id = some q ∧
          q.evacuationRequests = (r.evacuationRequests + 1) % 2 ^ 32) := by
  simp only [turn]
  cases hr : e.drain id with
  | none => exact ⟨.refl, fun h => absurd rfl h⟩
  | some r =>
    obtain rfl := id_of_drain hr
    simp only [Option.some.injEq, forall_eq']
    split_ifs
    · exact ⟨.refl, fun h => absurd rfl h⟩
    simp only [stepDrain]
    split_ifs with hb
    · have hready : ∀ {e₁ resumed} (counts : Prop), e.resumeBlocked r now = (e₁, resumed) → _ :=
        fun counts hres => @strokes_resumeBlocked few counts e _ r now _ hres hr
          (fun h => (hfew h r hr).1 hb)
      obtain ⟨r₁, evidence, held, hworld, hsame⟩ := resumeBlocked_held e now hr hb
      rcases hres : e.resumeBlocked r now with ⟨e₁, _ | resumed⟩
      · exact ⟨(hready _ hres).1, fun h => absurd rfl h⟩
      rw [hres] at hworld hsame
      obtain rfl := hsame resumed rfl
      obtain ⟨hid, hr₁⟩ := (hready False hres).2 resumed rfl
      -- Resuming keeps the attempts, and what a resumed drain can retire.
      obtain ⟨q, hq, hevac⟩ := (hready False hres).1.confined.attempts not_false r.id r hr
      obtain rfl := Option.some.inj (hr₁.symm.trans hq)
      have hretirable : few → resumed.state = .quiescing →
          (e₁.retirable resumed now).length ≤ 4096 := by
        intro h hs
        have hphase := phase_of_hold held.hold hs (by decide)
        rw [hworld, held.unobserved (by simp [hphase])]
        exact (congrArg List.length (retirable_of_hold held.hold hphase now)).trans_le
          (hfew h r hr).2
      rw [← hid] at hr₁
      obtain ⟨hacts, hcounted⟩ := strokes_stepActive hr₁ hretirable
      rw [hid] at hacts hcounted
      exact ⟨(hready _ hres).1.trans hacts, hevac ▸ hcounted⟩
    · exact strokes_stepActive hr (fun h _ => (hfew h r hr).2)

/-- A turn is a chain of writes. -/
theorem turn_writes (e : Engine) (id : DrainId) (now : TimePoint) :
    Writes (.turn id now) e.toWorld (e.turn id now).1.toWorld :=
  (@turn_strokes False e id now (fun h => h.elim)).1.writes

/-! ### Operations -/

section

variable {few counts : Prop} {c : Call} {e : Engine}

theorem strokes_extendTopology {added : Result Topology} {action : String} {now : TimePoint}
    (h : ∀ topology, added = .ok topology →
      Write e.toWorld (.call c) (e.toWorld.withTopology topology))
    (haction : action ≠ "") :
    Strokes few counts (.call c) e (e.extendTopology added action now).1 := by
  cases added with
  | error err => exact .refl
  | ok topology =>
    refine (Strokes.of_write (h topology rfl) rfl).tail (.note (fun _ _ => ?_))
    exact ⟨haction, Nat.zero_le _, Nat.zero_le _, Nat.zero_le _, Nat.zero_le _⟩

theorem strokes_installAuthorityLine (incarnation : IncarnationId) (epoch : Epoch)
    (now : TimePoint) (reason : String) :
    Strokes few counts (.call c) e (e.installAuthorityLine incarnation epoch now reason).1 := by
  simp only [installAuthorityLine]
  cases hline : e.authority.installLine incarnation epoch now reason with
  | error err => exact .refl
  | ok authority => exact (Strokes.of_write (.line hline) rfl).noted rfl

theorem Strokes.of_noted {ev : Event} {e' : Engine}
    (h : Strokes few counts ev e { e with toWorld := w }) (hn : Noted e w e') :
    Strokes few counts ev e e' := by
  cases hn with
  | silent => exact h
  | decided hd => exact h.noted hd

theorem strokes_admitObligation (draft : Obligation) (presented : Generation)
    (authority : AuthorityId) (now : TimePoint) :
    Strokes few counts (.call (.admitObligation draft presented authority now)) e
      (e.admitObligation draft presented authority now).1 := by
  rcases admitObligation_cases e draft presented authority now with
    ⟨hnoted, -⟩ | ⟨hnamed, hfew, -, hnoted, -⟩
  · exact .of_noted .refl hnoted
  · exact .of_noted (.of_write (.admission hnamed hfew) rfl) hnoted

theorem strokes_reportObligation (report : ObligationReport) (now : TimePoint) :
    Strokes few counts (.call (.reportObligation report now)) e
      (e.reportObligation report now).1 := by
  simp only [reportObligation]
  cases hfind : e.obligations.find report.obligation with
  | none => exact .refl
  | some o =>
    cases hfence : reportFence e.toWorld report with
    | error err => exact .refl
    | ok u =>
      dsimp only
      cases happly : o.applyState report.expectedRevision report.next report.evidence now with
      | error err => exact .refl
      | ok applied =>
        exact (Strokes.of_write (.report hfind hfence happly) rfl).noted rfl

/-- A decision about each of the members. -/
theorem strokes_foldl {ev : Event} {decision : Engine → DrainId → Decision}
    (hdecision : ∀ e member, brief (decision e member) = true) (members : List DrainId)
    (e : Engine) : Strokes few counts ev e
      (members.foldl (fun e member => e.recordDecision (decision e member)) e) := by
  induction members generalizing e with
  | nil => exact .refl
  | cons member rest ih => exact (Strokes.noted .refl (hdecision e member)).trans (ih _)

theorem strokes_createDrainSet {request : DrainRequest} {now : TimePoint}
    (hc : c.request = some request) (h : e.Admissible request targets now) :
    Strokes few counts (.call c) e (e.createDrainSet request targets now).1 := by
  have hkept : ∀ made, Confined counts (.call c) e.toWorld (e.withDrains request made now) :=
    fun _ => .of_kept (fun _ _ hr => drain_withDrains_old _ _ _ hr)
  rcases createDrainSet_eq h with ⟨-, hsame, -⟩ | ⟨-, -, ⟨made, rest, rfl, hroom, heq⟩, -⟩ |
    ⟨hset, hroom, ⟨d, decision, members, hd, hdecision, heq⟩, -⟩
  · rw [hsame]
  · rw [heq]
    exact .single (.write (.abandoned hc h hroom) (hkept made))
  · rw [heq]
    have hfounded : Stroke few counts (.call c) e _ :=
      .write (.founded hc h ⟨hset, fun _ => hroom⟩) ⟨(hkept targets).1, (hkept targets).2⟩
    refine Relation.ReflTransGen.trans (.tail (.single hfounded) (.note (fun _ hvalid => hd ?_)))
      (strokes_foldl hdecision members _)
    exact h.members.trans hvalid.maxDrainsInSet.2

theorem strokes_requestDrainSet {request : DrainRequest} (hc : c.request = some request)
    (now : TimePoint) : Strokes few counts (.call c) e (e.requestDrainSet request now).1 := by
  rcases requestDrainSet_cases e request now with ⟨-, -, hnoted⟩ | ⟨targets, h⟩
  · exact .of_noted .refl hnoted
  · rw [requestDrainSet_of_admissible h]
    exact strokes_createDrainSet hc h

theorem strokes_cancelDrain (id : DrainId) (authority : AuthorityId) (reason : String)
    (now : TimePoint) :
    Strokes few counts (.call (.cancelDrain id authority reason now)) e
      (e.cancelDrain id authority reason now).1 := by
  simp only [cancelDrain]
  cases e.requireAuthority authority now with
  | error err => exact .refl
  | ok u =>
    cases hr : e.drain id with
    | none => exact .refl
    | some r =>
      obtain rfl := id_of_drain hr
      dsimp only
      split_ifs
      · exact .refl
      · exact .refl
      · split <;> rename_i hmove <;>
          exact (strokes_applyTransition _ hmove hr ⟨rfl, rfl⟩ (fun _ => Or.inr rfl)
            (fun _ _ h => by cases h) rfl).1

theorem strokes_reopenFence {ev : Event} {r : DrainRecord} (hr : e.drain r.id = some r)
    (reason : String) :
    Strokes few counts ev e { e with fence := (reopenFence e.fence r reason ev.time).1 } := by
  unfold reopenFence
  split_ifs
  · split
    · exact .refl
    · cases hfence : e.fence.reopen r.target r.id ev.time (truncate reason) with
      | error err => exact .refl
      | ok reopened => exact .of_write (.reopening hr hfence) rfl
  · have hclosed : Strokes few counts ev e { e with
        fence := (e.fence.close r.target r.id ev.time "restoration generation advance").1 } :=
      .of_write (.closure _ hr) rfl
    rcases hclose : e.fence.close r.target r.id ev.time "restoration generation advance" with
      ⟨fence, err | generation⟩
    · rwa [hclose] at hclosed
    · rw [hclose] at hclosed
      dsimp only
      cases hfence : fence.reopen r.target r.id ev.time (truncate reason) with
      | error err => exact hclosed
      | ok reopened =>
        exact hclosed.trans (Strokes.of_write (.reopening (w := { e.toWorld with fence }) hr hfence) rfl)
  · exact .refl

theorem strokes_restoreDrain (id : DrainId) (authority : AuthorityId) (reason : String)
    (now : TimePoint) :
    Strokes few counts (.call (.restoreDrain id authority reason now)) e
      (e.restoreDrain id authority reason now).1 := by
  simp only [restoreDrain]
  cases e.requireAuthority authority now with
  | error err => exact .refl
  | ok u =>
    cases hr : e.drain id with
    | none => exact .refl
    | some r =>
      obtain rfl := id_of_drain hr
      dsimp only
      split_ifs with hrestoring hsettled
      · exact .refl
      · exact .refl
      · have hfence : Strokes few counts (.call (.restoreDrain r.id authority reason now)) e
            { e with fence := (reopenFence e.fence r reason now).1 } :=
          strokes_reopenFence hr reason
        rcases hreopen : reopenFence e.fence r reason now with ⟨fence, err | reopened⟩
        · rwa [hreopen] at hfence
        rw [hreopen] at hfence
        have hresume : r.state = .blocked →
            DrainState.restoring = r.phase ∨ isSettled .restoring = true := by
          intro hb
          rw [hb] at hsettled
          cases hsettled
        dsimp only
        split
        · rename_i hmove
          exact hfence.trans (strokes_applyTransition _ hmove hr ⟨rfl, rfl⟩ hresume
            (fun _ _ h => by cases h) rfl).1
        · rename_i e₁ r' hmove
          obtain ⟨hmoved, hstored, -⟩ := strokes_applyTransition
            (.call (.restoreDrain r.id authority reason now)) hmove hr ⟨rfl, rfl⟩ hresume
            (fun _ _ h => by cases h) rfl
          obtain ⟨hid, hs, hr'⟩ := hstored r' rfl
          exact (hfence.trans hmoved).trans (strokes_record (hid ▸ hr') (congrArg some hid.symm)
            (.reopens reopened hs) rfl (fun _ => rfl))
      · exact .refl

theorem strokes_resumeDrain (id : DrainId) (authority : AuthorityId) (now : TimePoint)
    (hparked : few → ∀ r, e.drain id = some r → r.state = .blocked →
      r.blockedFrom.getD .validating ≠ .blocked) :
    Strokes few counts (.call (.resumeDrain id authority now)) e
      (e.resumeDrain id authority now).1 := by
  simp only [resumeDrain]
  cases e.requireAuthority authority now with
  | error err => exact .refl
  | ok u =>
    cases hr : e.drain id with
    | none => exact .refl
    | some r =>
      obtain rfl := id_of_drain hr
      dsimp only
      split_ifs with hb
      · exact .refl
      · split
        · exact strokes_enterBlocked hr ⟨rfl, rfl⟩ (by decide)
        · split <;> rename_i hmove <;>
            exact (strokes_applyTransition _ hmove hr ⟨rfl, rfl⟩ (fun hb => Or.inl (if_pos hb).symm)
              (fun h _ hnext => absurd hnext (hparked h r hr (not_not.mp hb))) rfl).1

theorem strokes_grantException (hcounts : counts) (id : DrainId) (obligation : ObligationId)
    (extension : Duration) (authority : AuthorityId) (now : TimePoint) :
    Strokes few counts (.call (.grantException id obligation extension authority now)) e
      (e.grantException id obligation extension authority now).1 := by
  rcases grantException_cases e id obligation extension authority now with
    ⟨hnoted, -⟩ | ⟨r, hr, hsettled, ⟨hnoted, -⟩ | ⟨sequence, hextension, hroom, hseq, hnoted⟩⟩
  · exact .of_noted .refl hnoted
  · obtain rfl := id_of_drain hr
    exact .of_noted (.of_write (.budget hr) rfl) hnoted
  · obtain rfl := id_of_drain hr
    have hgranted : Strokes few counts (.call (.grantException r.id obligation extension
        authority now)) e _ := .of_write (.grant hr hextension hroom hseq) rfl
    exact .of_noted (hgranted.trans (strokes_record hr rfl (.excuses hsettled) rfl
      (fun h => absurd hcounts h))) hnoted

end

/-- What an operation does, stroke by stroke. Only an exception touches attempts. -/
theorem apply_strokes {few : Prop} (e : Engine) (c : Call)
    (hparked : few → ∀ id r, e.drain id = some r → r.state = .blocked →
      r.blockedFrom.getD .validating ≠ .blocked) :
    Strokes few (∃ id obligation extension authority now,
      c = .grantException id obligation extension authority now) (.call c) e (e.apply c) := by
  cases c with
  | setPolicy policy now =>
    simp only [apply, setPolicy]
    cases hvalid : policy.validate with
    | error err => exact .refl
    | ok u => exact (Strokes.of_write (.policy hvalid) rfl).noted rfl
  | installIncarnation incarnation now =>
    simp only [apply, installIncarnation]
    cases hinstall : e.authority.installIncarnation incarnation with
    | error err => exact .refl
    | ok authority => exact (Strokes.of_write (.incarnation hinstall) rfl).noted rfl
  | installAuthorityLine incarnation epoch now reason =>
    exact strokes_installAuthorityLine incarnation epoch now reason
  | beginNewEpoch incarnation now reason =>
    simp only [apply, beginNewEpoch]
    cases incrementChecked e.authority.epoch with
    | none => exact .refl
    | some epoch => exact strokes_installAuthorityLine incarnation epoch now reason
  | issueAuthority scope validity now =>
    simp only [apply, issueAuthority]
    rcases hissue : e.authority.issue scope now validity with err | ⟨authority, token⟩
    · exact .refl
    · exact (Strokes.of_write (.token hissue) rfl).noted rfl
  | revokeAuthority id reason now =>
    simp only [apply, revokeAuthority]
    cases hrevoke : e.authority.revoke id now reason with
    | error err => exact .refl
    | ok authority => exact (Strokes.of_write (.revocation hrevoke) rfl).noted rfl
  | addResource node now => exact strokes_extendTopology (fun _ => .resource) (by decide)
  | addEdge a b now => exact strokes_extendTopology (fun _ => .edge) (by decide)
  | addPath path now => exact strokes_extendTopology (fun _ => .path) (by decide)
  | addDiversityGroup group now => exact strokes_extendTopology (fun _ => .group) (by decide)
  | addCapacityPool pool now => exact strokes_extendTopology (fun _ => .pool) (by decide)
  | addProtectedRoute route now => exact strokes_extendTopology (fun _ => .route) (by decide)
  | reportResourceStatus id status now =>
    simp only [apply, reportResourceStatus]
    cases hset : e.topology.setStatus id status with
    | error err => exact .refl
    | ok topology => exact (Strokes.of_write (.status hset) rfl).noted rfl
  | admitObligation draft presented authority now =>
    exact strokes_admitObligation draft presented authority now
  | reportObligation report now => exact strokes_reportObligation report now
  | recordEvidence draft now =>
    simp only [apply, recordEvidence]
    split <;> exact (Strokes.of_write .evidence rfl).noted rfl
  | attestEvidence key seq now =>
    simp only [apply, attestEvidence]
    cases hattest : e.evidence.attest key seq (e.evidenceFence now) with
    | error err => exact .refl
    | ok evidence => exact (Strokes.of_write (.attestation hattest) rfl).noted rfl
  | requestDrainSet request now => exact strokes_requestDrainSet rfl now
  | requestDrain request now =>
    rw [apply, (requestDrain_fst e request now).1]
    exact strokes_requestDrainSet rfl now
  | cancelDrain id authority reason now => exact strokes_cancelDrain id authority reason now
  | restoreDrain id authority reason now => exact strokes_restoreDrain id authority reason now
  | resumeDrain id authority now =>
    exact strokes_resumeDrain id authority now (fun h => hparked h id)
  | grantException id obligation extension authority now =>
    exact strokes_grantException ⟨id, obligation, extension, authority, now, rfl⟩ id obligation
      extension authority now

/-- An operation is a chain of writes. -/
theorem apply_writes (e : Engine) (c : Call) : Writes (.call c) e.toWorld (e.apply c).toWorld :=
  (@apply_strokes False e c (fun h => h.elim)).writes

end Engine

end DrainFabric
