import DrainFabric.Properties.Completion

/-!
# Release

Before a drain may complete, the protected obligations on its target have to be
retired. There are two writers of that state: the pass, which retires an obligation
on a release record it has checked, and the reports of adjacent runtimes, which may
name `Retired` as the next state and are not checked against the ledger.

* `retired_on_release` — where no report names `Retired`, every retirement behind a
  completion stands on a release record;
* `retired_on_release_fails` — a run in which a report names it.
-/

namespace DrainFabric

open Lib World Engine

variable {o : Obligation} {id : ObligationId}

/-- At `now` the release of the obligation is proved under the drain `id`: the record
its release report refers to is stored in the stream of this obligation under this
drain, and is attested, of the live epoch, fresh, of the drain's generation and not
older than the drain's closure. -/
def World.ReleaseProved (w : World) (now : TimePoint) (id : DrainId) (o : Obligation) : Prop :=
  ∃ r ev, w.drain id = some r ∧ r.target ∈ o.dependencies ∧
    w.evidence.find { kind := .obligationReleased, drain := id, obligation := o.id }
      o.releaseEvidence = some ev ∧
    ev.attested = true ∧ ev.epoch = w.authority.epoch ∧
    EvidenceLedger.isFresh ev (w.evidenceFence now) w.policy.evidenceFreshness = true ∧
    ev.generation = r.generation ∧ r.admissionClosedAt ≤ ev.observedAt

/-- The obligation report an event makes. -/
def Event.report : Event → Option ObligationReport
  | .call (.reportObligation report _) => some report
  | _ => none

/-- No report names `Retired` as the next state. -/
def ReportsNoRetirement (_ : Engine) (ev : Event) : Prop :=
  ∀ report ∈ ev.report, report.next ≠ .retired

instance (e : Engine) (ev : Event) : Decidable (ReportsNoRetirement e ev) :=
  inferInstanceAs (Decidable (∀ report ∈ ev.report, report.next ≠ .retired))

/-! ### What the pass retires -/

theorem releaseBlocker_none {w : World} {r : DrainRecord} {now : TimePoint}
    (h : w.releaseBlocker r now o = none) :
    ∃ ev, w.evidence.find (releaseKey r o.id) o.releaseEvidence = some ev ∧
      EvidenceLedger.isFresh ev (w.evidenceFence now) w.policy.evidenceFreshness = true ∧
      ev.generation = r.generation ∧ r.admissionClosedAt ≤ ev.observedAt := by
  unfold releaseBlocker at h
  split_ifs at h with hzero
  cases hfind : w.evidence.find (releaseKey r o.id) o.releaseEvidence with
  | none => simp [hfind] at h
  | some ev =>
    simp only [hfind] at h
    split_ifs at h with hfresh hgeneration hobserved
    rw [ne_eq, not_not] at hgeneration
    exact ⟨ev, rfl, by simpa using hfresh, hgeneration, not_lt.mp hobserved⟩

/-- What the pass is about to retire is proved to be released. -/
theorem releaseProved_of_mem_retirable {w : World} {r : DrainRecord} {now : TimePoint}
    (hr : w.drain r.id = some r) (hfind : w.obligations.find id = some o)
    (h : id ∈ w.retirable r now) : w.ReleaseProved now r.id o := by
  obtain ⟨o', ho', hid⟩ := List.mem_map.mp h
  obtain ⟨hout, hready⟩ := List.mem_filter.mp ho'
  obtain ⟨hall, hblocks⟩ := List.mem_filter.mp hout
  rw [ObligationTable.mem_all_iff, hid, hfind] at hall
  obtain rfl := Option.some.inj hall
  simp only [Bool.and_eq_true, Obligation.dependsOn_iff, Option.isNone_iff_eq_none] at hblocks hready
  obtain ⟨ev, hev, hfresh, hgeneration, hobserved⟩ := releaseBlocker_none hready.2
  obtain ⟨hattested, hepoch, -⟩ := EvidenceLedger.isFresh_iff.mp hfresh
  exact ⟨r, ev, hr, hblocks.2, hev, hattested, hepoch, hfresh, hgeneration, hobserved⟩

/-- An obligation stays in the table, on the same terms. -/
theorem obligation_run {e : Engine} (ho : e.obligations.find id = some o) (events : List Event) :
    ∃ o', (run fire e events).obligations.find id = some o' ∧ SameTerms o o' := by
  refine run_invariant (C := fun _ _ => True)
    (P := fun e : Engine => ∃ o', e.obligations.find id = some o' ∧ SameTerms o o')
    (fun e ev ⟨o₁, ho₁, hterms⟩ _ => ?_) ⟨o, ho, .refl o⟩
    (always_of_forall (fun _ _ _ => trivial) e)
  obtain ⟨o₂, ho₂, -⟩ := (fire_obligationStep e ev).rewritten ho₁
  refine ⟨o₂, ho₂, ?_⟩
  have hsame : ∀ {q}, e.obligations.find id = some q → SameTerms q o₂ → SameTerms o o₂ := by
    intro q hq hterms'
    obtain rfl := Option.some.inj (ho₁.symm.trans hq)
    exact hterms.trans hterms'
  cases (fire_obligationStep e ev).fate ho₂ with
  | keeps hfind h => exact hsame hfind h
  | admitted hnone =>
    rw [ho₁] at hnone
    cases hnone
  | reported hfind h => exact hsame hfind h
  | retired _ _ _ hfind h => exact hsame hfind h

/-- Where no report names `Retired`, an obligation that becomes retired does so in a
turn of a drain under which its release is proved. -/
theorem retires_on_release {e : Engine} {ev : Event} {o' : Obligation}
    (hev : ReportsNoRetirement e ev) (ho : e.obligations.find id = some o)
    (hbefore : o.state ≠ .retired) (ho' : (e.fire ev).obligations.find id = some o')
    (hafter : o'.state = .retired) :
    ∃ drain now, ev = .turn drain now ∧ e.ReleaseProved now drain o := by
  cases (fire_obligationStep e ev).fate ho' with
  | keeps hfind _ hstate =>
    obtain rfl := Option.some.inj (ho.symm.trans hfind)
    exact absurd (hstate.symm.trans hafter) hbefore
  | admitted hnone =>
    rw [ho] at hnone
    cases hnone
  | reported _ _ hstate => exact absurd (hstate.symm.trans hafter) (hev _ rfl)
  | @retired now r _ hr _ hmem hfind =>
    obtain rfl := Option.some.inj (ho.symm.trans hfind)
    exact ⟨r.id, now, rfl, releaseProved_of_mem_retirable hr ho hmem⟩

/-! ### Completion behind it -/

/-- In a run in which no report names `Retired`: if a drain becomes drained, every
protected obligation on its target that was not retired at an earlier point of the
run, such as the closure of admission, was retired in between in a turn of a drain
under which its release was proved, and has been retired ever since. -/
theorem retired_on_release {policy : DrainPolicy} {before events : List Event} {last : Event}
    (hrun : Always fire ReportsNoRetirement (Engine.init policy) (before ++ (events ++ [last])))
    {id : DrainId} {r : DrainRecord}
    (hnot : ∀ q, (run fire (Engine.init policy) (before ++ events)).drain id = some q →
      q.state ≠ .drained)
    (hdrained : (run fire (Engine.init policy) (before ++ (events ++ [last]))).drain id = some r)
    (hstate : r.state = .drained) {obligation : ObligationId} {o : Obligation}
    (ho : (run fire (Engine.init policy) before).obligations.find obligation = some o)
    (hprotected : o.protection = .protectedClass) (hdep : r.target ∈ o.dependencies)
    (hactive : o.state ≠ .retired) :
    ∃ pre drain now post o₁,
      events ++ [last] = pre ++ .turn drain now :: post ∧
      (run fire (Engine.init policy) (before ++ pre)).obligations.find obligation = some o₁ ∧
      o₁.state ≠ .retired ∧
      (run fire (Engine.init policy) (before ++ pre)).ReleaseProved now drain o₁ ∧
      ∀ since, since <+: post → ∃ o₂,
        (run fire (Engine.init policy) (before ++ (pre ++ .turn drain now :: since))).obligations.find
          obligation = some o₂ ∧ o₂.state = .retired := by
  generalize hstart : run fire (Engine.init policy) before = e at ho
  have hrest : Always fire ReportsNoRetirement e (events ++ [last]) :=
    hstart ▸ (always_append.mp hrun).2
  simp only [run_append (a := before), hstart] at hnot hdrained ⊢
  -- When the drain became drained, the obligation was retired.
  have hretired : ∃ o', (run fire e (events ++ [last])).obligations.find obligation = some o' ∧
      o'.state = .retired := by
    obtain ⟨o', ho', hterms⟩ := obligation_run ho (events ++ [last])
    refine ⟨o', ho', ?_⟩
    rw [run_concat] at hdrained ho'
    have inv : Fenced (run fire e events).toWorld := by
      rw [← hstart]
      exact fenced_run (fenced_run (fenced_init policy) before) events
    obtain ⟨now, -, hsealed⟩ := sealed_of_fire inv hnot hdrained hstate
    refine hsealed.certified.obligations o' ?_ (hterms.protection ▸ hprotected)
      (hterms.dependencies ▸ hdep)
    rwa [ObligationTable.mem_all_iff, ObligationTable.id_of_find ho']
  obtain ⟨pre, ev, post, hsplit, hpre, hsince⟩ := exists_last_rise
    (Q := fun e : Engine => ∃ o', e.obligations.find obligation = some o' ∧ o'.state = .retired)
    (fun ⟨o', ho', hs⟩ => hactive (by rwa [Option.some.inj (ho.symm.trans ho')])) hretired
  obtain ⟨o₁, ho₁, -⟩ := obligation_run ho pre
  have hactive₁ : o₁.state ≠ .retired := fun hs => hpre ⟨o₁, ho₁, hs⟩
  obtain ⟨o₂, ho₂, hretired₂⟩ := hsince [] List.nil_prefix
  rw [run_concat] at ho₂
  obtain ⟨drain, now, rfl, hproved⟩ := retires_on_release ((hsplit ▸ hrest).at_split) ho₁ hactive₁
    ho₂ hretired₂
  exact ⟨pre, drain, now, post, o₁, hsplit, ho₁, hactive₁, hproved, hsince⟩

/-- The port with a protected flow, up to the closure of admission. -/
def OnePort.closedFlow : List Event :=
  (OnePort.setup 1).map .call ++ [.call (OnePort.admitFlow 1)] ++ OnePort.turns 2 1

/-- The flow is reported as released, with a record of the release. -/
def OnePort.releasedFlow : List Event :=
  [.turn 1 1,
    .call (.recordEvidence
      { seq := 1, key := { kind := .obligationReleased, drain := 1, obligation := 1 }
        generation := 1, epoch := 1, producer := 1, observedAt := 1 } 1),
    .call (.reportObligation
      { obligation := 1, expectedRevision := 1, next := .released
        evidence := 1, drain := 1, generation := 1 } 1)] ++ OnePort.turns 3 1

theorem retired_on_release_onePort :
    ∃ pre drain now post o₁,
      OnePort.releasedFlow ++ [.turn 1 1] = pre ++ .turn drain now :: post ∧
      (run fire (Engine.init {}) (OnePort.closedFlow ++ pre)).obligations.find 1 = some o₁ ∧
      o₁.state ≠ .retired ∧
      (run fire (Engine.init {}) (OnePort.closedFlow ++ pre)).ReleaseProved now drain o₁ ∧
      ∀ since, since <+: post → ∃ o₂,
        (run fire (Engine.init {})
          (OnePort.closedFlow ++ (pre ++ .turn drain now :: since))).obligations.find 1 = some o₂ ∧
        o₂.state = .retired := by
  have hrun : Always fire ReportsNoRetirement (Engine.init {})
      (OnePort.closedFlow ++ (OnePort.releasedFlow ++ [.turn 1 1])) := by
    decide +kernel
  have hbefore : ((run fire (Engine.init {}) (OnePort.closedFlow ++ OnePort.releasedFlow)).drain
      1).all (fun q => q.state ≠ .drained) = true := by
    decide +kernel
  have hafter : ((run fire (Engine.init {})
      (OnePort.closedFlow ++ (OnePort.releasedFlow ++ [.turn 1 1]))).drain 1).any
      (fun r => r.state = .drained ∧ r.target = OnePort.port) = true := by
    decide +kernel
  have hflow : ((run fire (Engine.init {}) OnePort.closedFlow).obligations.find 1).any
      (fun o => o.protection = .protectedClass ∧ OnePort.port ∈ o.dependencies ∧
        o.state ≠ .retired) = true := by
    decide +kernel
  obtain ⟨r, hr, hs⟩ := Option.any_eq_true _ _ |>.mp hafter
  obtain ⟨o, ho, hterms⟩ := Option.any_eq_true _ _ |>.mp hflow
  rw [decide_eq_true_iff] at hs hterms
  exact retired_on_release hrun (fun q hq => by simpa [hq] using hbefore) hr hs.1 ho hterms.1
    (hs.2 ▸ hterms.2.1) hterms.2.2

/-- A flow that was active at the closure is retired by a report and the port becomes
drained, although the ledger never held a release record. -/
theorem retired_on_release_fails :
    OnePort.closedFlow <+: OnePort.reportedFlow ∧
      ((run fire (Engine.init {}) OnePort.closedFlow).drain 1).map DrainRecord.state =
        some .admissionClosed ∧
      ((run fire (Engine.init {}) OnePort.closedFlow).obligations.find 1).map
        (fun o => (o.protection, o.dependencies.val, o.state)) =
        some (.protectedClass, [OnePort.port], .admitted) ∧
      ((run fire (Engine.init {}) OnePort.reportedFlow).drain 1).map DrainRecord.state =
        some .verifying ∧
      ((run fire (Engine.init {}) (OnePort.reportedFlow ++ [.turn 1 1])).drain 1).map
        (fun r => (r.state, r.target)) = some (.drained, OnePort.port) ∧
      ∀ pre ∈ (OnePort.reportedFlow ++ [Event.turn 1 1]).inits,
        ∀ ev ∈ (run fire (Engine.init {}) pre).evidence.records.toList,
          ev.key.kind ≠ .obligationReleased := by
  refine ⟨⟨_, rfl⟩, ?_⟩
  decide +kernel

end DrainFabric
