import DrainFabric.Engine.WellFormed
import DrainFabric.Properties.Release

/-!
# Proofs of the live incarnation

A policy can ask that evidence comes from the live incarnation. The producer of a
record is compared when the record is accepted and when it is attested again, but not
when a pass looks for a proof: there attestation, epoch and age decide. So the proofs
a pass takes are of the live incarnation as long as every attested record of the epoch
in force is, and that is what every operation keeps, apart from one.
`install_authority_line` and a restore take the attestation of every record away;
`install_incarnation` moves the incarnation within the epoch and leaves the ledger as
it is.

* `proofs_of_live_incarnation` — what a pass retires and completes rests on proofs of
  the incarnation then installed, where `install_incarnation` finds no attested record
  of the epoch in force;
* `proof_of_previous_incarnation` — a run in which it finds one.
-/

namespace DrainFabric

open Lib World Engine

variable {w : World}

/-- The record is an attested one of the live epoch and incarnation. -/
def World.LiveProof (w : World) (key : EvidenceKey) (seq : EvidenceSeq) : Prop :=
  ∃ ev, w.evidence.find key seq = some ev ∧ ev.attested = true ∧
    ev.epoch = w.authority.epoch ∧ ev.producer = w.authority.incarnation

/-- Every attested record of the epoch in force comes from the live incarnation. -/
def World.Live (w : World) : Prop :=
  ∀ key seq ev, w.evidence.find key seq = some ev → ev.attested = true →
    ev.epoch = w.authority.epoch → ev.producer = w.authority.incarnation

/-- The policy asks for the live incarnation, and `install_incarnation` does not move it
over an attested record of the epoch in force. -/
def KeepsLive (e : Engine) (ev : Event) : Prop :=
  e.policy.evidenceRequiresLiveIncarnation = true ∧
    match ev with
    | .call (.installIncarnation incarnation _) =>
      e.authority.incarnation < incarnation → ∀ record ∈ e.evidence.records.toList,
        record.attested = true → record.epoch ≠ e.authority.epoch
    | _ => True

instance (e : Engine) : ∀ ev, Decidable (KeepsLive e ev)
  | .call (.installIncarnation incarnation _) =>
    inferInstanceAs (Decidable (e.policy.evidenceRequiresLiveIncarnation = true ∧
      (e.authority.incarnation < incarnation → ∀ record ∈ e.evidence.records.toList,
        record.attested = true → record.epoch ≠ e.authority.epoch)))
  | .turn _ _ | .restart _ _ =>
    inferInstanceAs (Decidable (e.policy.evidenceRequiresLiveIncarnation = true ∧ True))
  | .call c => by
    cases c <;> (unfold KeepsLive; infer_instance)

/-! ### The ledger -/

theorem World.Live.proof (h : w.Live) {key : EvidenceKey} {seq : EvidenceSeq} {ev : Evidence}
    (hfind : w.evidence.find key seq = some ev) (hattested : ev.attested = true)
    (hepoch : ev.epoch = w.authority.epoch) : w.LiveProof key seq :=
  ⟨ev, hfind, hattested, hepoch, h key seq ev hfind hattested hepoch⟩

/-- Nothing in a ledger without attestations is a proof. -/
theorem live_of_quarantined {ledger : EvidenceLedger} (h : w.evidence = ledger.quarantineAll) :
    w.Live := by
  intro key seq ev hfind hattested
  rw [h, EvidenceLedger.find_quarantineAll, Option.map_eq_some_iff] at hfind
  obtain ⟨old, -, rfl⟩ := hfind
  cases hattested

/-- What is written to the ledger under the policy is of the live incarnation. -/
theorem World.Live.record {w : World} (h : w.Live)
    (hflag : w.policy.evidenceRequiresLiveIncarnation = true) (draft : Evidence)
    (now : TimePoint) :
    (w.withEvidence (w.evidence.record draft (w.evidenceFence now)
      w.policy.evidenceRequiresLiveIncarnation).1).Live := by
  intro key seq ev hfind hattested hepoch
  rcases EvidenceLedger.find_record hfind with hold | ⟨rfl, -, hproducer⟩
  · exact h key seq ev hold hattested hepoch
  · exact hproducer hflag

theorem World.Live.write {w' : World} {ev : Event} (hwrite : Write w ev w')
    (hincarnation : ∀ incarnation now, ev ≠ .call (.installIncarnation incarnation now))
    (hflag : w.policy.evidenceRequiresLiveIncarnation = true ∨
      ∃ policy now, ev = .call (.setPolicy policy now)) (h : w.Live) :
    w'.Live ∧ (w'.policy.evidenceRequiresLiveIncarnation = true ∨
      ∃ policy now, ev = .call (.setPolicy policy now)) := by
  cases hwrite with
  | policy => exact ⟨h, Or.inr ⟨_, _, rfl⟩⟩
  | incarnation => exact absurd rfl (hincarnation _ _)
  | line => exact ⟨live_of_quarantined rfl, hflag⟩
  | token hissue =>
    obtain ⟨-, rfl⟩ := AuthorityRegistry.issue_eq_ok hissue
    exact ⟨h, hflag⟩
  | revocation hrevoke =>
    obtain ⟨token, -, rfl⟩ := AuthorityRegistry.revoke_eq_ok.mp hrevoke
    exact ⟨h, hflag⟩
  | evidence =>
    obtain hflag | ⟨_, _, hev⟩ := hflag
    · exact ⟨h.record hflag _ _, Or.inl hflag⟩
    · cases hev
  | observation =>
    obtain hflag | ⟨_, _, hev⟩ := hflag
    · exact ⟨h.record hflag _ _, Or.inl hflag⟩
    · cases hev
  | attestation hattest =>
    refine ⟨fun key seq ev hfind hattested hepoch => ?_, hflag⟩
    rcases EvidenceLedger.find_attest hattest hfind with hold | ⟨old, -, rfl, -, hproducer⟩
    · exact h key seq ev hold hattested hepoch
    · exact hproducer
  | _ => exact ⟨h, hflag⟩

theorem live_init (policy : DrainPolicy) : (Engine.init policy).toWorld.Live := by
  intro key seq ev hfind
  cases hfind

theorem live_fire (e : Engine) (ev : Event) (h : e.toWorld.Live) (hev : KeepsLive e ev) :
    (e.fire ev).toWorld.Live := by
  have hchain : ∀ {w : World}, Writes ev e.toWorld w →
      (∀ incarnation now, ev ≠ .call (.installIncarnation incarnation now)) → w.Live := by
    intro w hw hincarnation
    exact (hw.invariant (P := fun w => w.Live ∧ (w.policy.evidenceRequiresLiveIncarnation = true ∨
      ∃ policy now, ev = .call (.setPolicy policy now)))
      (fun w w' hwrite ⟨hlive, hflag⟩ => hlive.write hwrite hincarnation hflag)
      ⟨h, Or.inl hev.1⟩).1
  cases ev with
  | turn id now => exact hchain (turn_writes e id now) (fun _ _ heq => by cases heq)
  | restart prev now =>
    refine restart_rule (P := World.Live) h (fun recovered hdecode => ?_)
    obtain ⟨loaded, -, hquarantined⟩ := (decodeSnapshot_eq_ok.mp hdecode).evidence
    exact live_of_quarantined hquarantined
  | call c =>
    by_cases hc : ∃ incarnation now, c = .installIncarnation incarnation now
    · obtain ⟨incarnation, now, rfl⟩ := hc
      simp only [fire, apply, installIncarnation]
      cases hinstall : e.authority.installIncarnation incarnation with
      | error err => exact h
      | ok authority =>
        obtain ⟨hlt, rfl⟩ := AuthorityRegistry.installIncarnation_eq_ok.mp hinstall
        -- The epoch stays, and the ledger holds no attested record of it.
        intro key seq ev hfind hattested hepoch
        exact absurd hepoch (hev.2 hlt ev (Table.mem_of_find? hfind) hattested)
    · exact hchain (apply_writes e c) (fun incarnation now heq =>
        hc ⟨incarnation, now, Event.call.inj heq⟩)

/-! ### The pass -/

/-- A pass keeps the policy, so all of its turns happen under it. -/
theorem keepsLive_turns {e : Engine} (hflag : e.policy.evidenceRequiresLiveIncarnation = true)
    (now : TimePoint) (ids : List DrainId) :
    Always fire KeepsLive e (ids.map (fun id => .turn id now)) := by
  induction ids generalizing e with
  | nil => trivial
  | cons id rest ih =>
    refine ⟨⟨hflag, trivial⟩, ih ?_⟩
    rw [fire, (turn_frame e id now).policy]
    exact hflag

/-- In every run under a policy that asks for the live incarnation, in which
`install_incarnation` finds no attested record of the epoch in force: an obligation that
a turn of a pass retires has a release record, and a drain that it completes a removal
record, whose producer is the incarnation installed in that turn. -/
theorem proofs_of_live_incarnation {e : Engine} (he : Reachable KeepsLive e)
    (hflag : e.policy.evidenceRequiresLiveIncarnation = true) {now : TimePoint}
    {earlier later : List Event} {id : DrainId}
    (hpass : e.passTurns now = earlier ++ .turn id now :: later) :
    (∀ obligation o o', (run fire e earlier).obligations.find obligation = some o →
      o.state ≠ .retired →
      (run fire e (earlier ++ [.turn id now])).obligations.find obligation = some o' →
      o'.state = .retired →
      (run fire e earlier).LiveProof { kind := .obligationReleased, drain := id, obligation }
        o.releaseEvidence) ∧
    (∀ drain r, (∀ q, (run fire e earlier).drain drain = some q → q.state ≠ .drained) →
      (run fire e (earlier ++ [.turn id now])).drain drain = some r → r.state = .drained →
      (run fire e (earlier ++ [.turn id now])).policy.requireQuiescenceEvidence = true →
      (run fire e (earlier ++ [.turn id now])).LiveProof
        { kind := .resourceRemoved, drain, resource := r.target.id } r.completionEvidence) := by
  have hturns := keepsLive_turns hflag now e.drains.keys
  rw [← passTurns, hpass] at hturns
  have hlive : (run fire e earlier).toWorld.Live :=
    run_invariant (P := fun s : Engine => s.toWorld.Live) live_fire (he.invariant live_init live_fire)
      (always_append.mp hturns).1
  rw [run_concat]
  constructor
  · intro obligation o o' ho hactive ho' hretired
    obtain ⟨drain, now', hev, r, ev, -, -, hfind, hattested, hepoch, -⟩ :=
      retires_on_release (fun report hreport => by cases hreport) ho hactive ho' hretired
    obtain ⟨rfl, rfl⟩ := Event.turn.inj hev
    rw [ObligationTable.id_of_find ho] at hfind
    exact hlive.proof hfind hattested hepoch
  · intro drain r hbefore hr hdrained hreq
    have hnext := live_fire _ _ hlive hturns.at_split
    obtain ⟨now', -, hsealed⟩ := sealed_of_fire (fenced_run he.fenced earlier) hbefore hr hdrained
    obtain ⟨ev, hfind, hattested, hepoch, -⟩ := hsealed.certified.evidence hreq
    exact hnext.proof hfind hattested hepoch

namespace OnePort

/-- The port with a flow, closed for admission; the flow is reported as released, with a
record of the release. -/
def provedFlow : List Operation :=
  (setup 1).map .call ++ [.call (admitFlow 1)] ++ List.replicate 3 (.advance 1) ++
    [.call (.recordEvidence
      { seq := 1, key := { kind := .obligationReleased, drain := 1, obligation := 1 }
        generation := 1, epoch := 1, producer := 1, observedAt := 1 } 1),
    .call (.reportObligation
      { obligation := 1, expectedRevision := 1, next := .released
        evidence := 1, drain := 1, generation := 1 } 1)]

/-- The engine after the release, and some passes later. -/
def proved (passes : Nat) : Engine :=
  run perform (Engine.init {}) (provedFlow ++ List.replicate passes (.advance 1))

/-- The same with a new incarnation installed after the release. -/
def overtaken (passes : Nat) : Engine :=
  run perform (Engine.init {}) (provedFlow ++ [.call (.installIncarnation 2 1)] ++
    List.replicate passes (.advance 1))

end OnePort

/-- The second pass after the release retires the flow, the fourth completes the drain. -/
theorem proofs_of_live_incarnation_onePort :
    (OnePort.proved 1).LiveProof { kind := .obligationReleased, drain := 1, obligation := 1 } 1 ∧
      (run fire (OnePort.proved 3) [.turn 1 1]).LiveProof
        { kind := .resourceRemoved, drain := 1, resource := "p1" } 1 := by
  have hreach : ∀ {passes : Nat}, Always perform (Permits KeepsLive) (Engine.init {})
      (OnePort.provedFlow ++ List.replicate passes (.advance 1)) →
      Reachable KeepsLive (OnePort.proved passes) := fun h => reachable_run (.init {}) h
  constructor
  · have hflow : ((OnePort.proved 1).obligations.find 1).any
        (fun o => o.state ≠ .retired ∧ o.releaseEvidence = 1) = true := by
      decide +kernel
    have hretired : ((run fire (OnePort.proved 1) [.turn 1 1]).obligations.find 1).any
        (fun o => o.state = .retired) = true := by
      decide +kernel
    obtain ⟨o, ho, hterms⟩ := Option.any_eq_true _ _ |>.mp hflow
    obtain ⟨o', ho', hstate⟩ := Option.any_eq_true _ _ |>.mp hretired
    rw [decide_eq_true_iff] at hterms hstate
    have hproofs := proofs_of_live_incarnation (hreach (by decide +kernel)) (by decide +kernel)
      (show (OnePort.proved 1).passTurns 1 = [] ++ .turn 1 1 :: [] by rfl)
    rw [List.nil_append, run_nil] at hproofs
    have hproof := hproofs.1 1 o o' ho hterms.1 ho' hstate
    rwa [hterms.2] at hproof
  · have hbefore : ((OnePort.proved 3).drain 1).all (fun q => q.state ≠ .drained) = true := by
      decide +kernel
    have hafter : ((run fire (OnePort.proved 3) [.turn 1 1]).drain 1).any (fun r =>
        r.state = .drained ∧ r.target.id = "p1" ∧ r.completionEvidence = 1) = true := by
      decide +kernel
    obtain ⟨r, hr, hs⟩ := Option.any_eq_true _ _ |>.mp hafter
    rw [decide_eq_true_iff] at hs
    have hproofs := proofs_of_live_incarnation (hreach (by decide +kernel)) (by decide +kernel)
      (show (OnePort.proved 3).passTurns 1 = [] ++ .turn 1 1 :: [] by rfl)
    rw [List.nil_append, run_nil] at hproofs
    have hproof := hproofs.2 1 r (fun q hq => by simpa [hq] using hbefore) hr hs.1
      (by decide +kernel)
    rwa [hs.2.1, hs.2.2] at hproof

/-- Under a policy that asks for the live incarnation a pass retires the flow on a record
of incarnation 1 while incarnation 2 is installed. -/
theorem proof_of_previous_incarnation :
    (OnePort.overtaken 1).policy.evidenceRequiresLiveIncarnation = true ∧
      (OnePort.overtaken 1).authority.incarnation = 2 ∧
      ((OnePort.overtaken 1).obligations.find 1).map
        (fun o => (o.state, o.releaseEvidence)) = some (.released, 1) ∧
      ((OnePort.overtaken 1).evidence.find
        { kind := .obligationReleased, drain := 1, obligation := 1 } 1).map Evidence.producer =
          some 1 ∧
      (((OnePort.overtaken 1).advance 1).1.obligations.find 1).map Obligation.state =
        some .retired := by
  decide +kernel

end DrainFabric
