import DrainFabric.Engine.Cooperation
import DrainFabric.Properties.Release

/-!
# Passes and obligations

A pass is a run of turns, one for each drain. A turn writes obligations in one place: a
drain that is quiescing retires what it finds released, and it decides what that is
before it writes. Several drains of one pass may find the same obligation, but a retired
obligation is no longer outstanding for any of them.

* `turn_obligation` — what one turn makes of an obligation;
* `turns_obligation` — what a run of turns makes of one obligation;
* `pass_retires_only` — the whole pass.
-/

namespace DrainFabric

open Lib World Engine

variable {now : TimePoint} {o : Obligation} {id : ObligationId} {e : Engine}

/-- The obligation as a pass leaves it behind when it is retired. -/
def Obligation.retiredAt (o : Obligation) (now : TimePoint) : Obligation :=
  { o with state := .retired, revision := o.revision + 1, clearedAt := now }

/-- At `now` the drain has a stored, attested and fresh record that the protected
obligation was released after the drain closed admission. Times are added as the clock
adds them. -/
structure World.ProvesRelease (w : World) (now : TimePoint) (drain : DrainId) (r : DrainRecord)
    (o : Obligation) (record : Evidence) : Prop where
  found : w.drain drain = some r
  depends : r.target ∈ o.dependencies
  isProtected : o.protection = .protectedClass
  released : o.state = .quiescing ∨ o.state = .released
  stored : w.evidence.find { kind := .obligationReleased, drain, obligation := o.id }
    o.releaseEvidence = some record
  attested : record.attested = true
  epoch : record.epoch = w.authority.epoch
  generation : record.generation = r.generation
  afterClosure : r.admissionClosedAt ≤ record.observedAt
  notAhead : record.observedAt ≤ saturatingAdd now w.policy.evidenceClockSkew
  fresh : now ≤ saturatingAdd record.observedAt w.policy.evidenceFreshness

/-- The obligations a drain finds ready. -/
theorem provesRelease_of_mem_retirable {w : World} {r : DrainRecord} (hr : w.drain r.id = some r)
    (ho : w.obligations.find o.id = some o) (h : o.id ∈ w.retirable r now) :
    ∃ record, w.ProvesRelease now r.id r o record := by
  obtain ⟨o', ho', hid⟩ := List.mem_map.mp h
  obtain ⟨hout, hready⟩ := List.mem_filter.mp ho'
  obtain ⟨hfind, hblocks, hdepends⟩ := mem_outstandingFor.mp hout
  rw [hid, ho] at hfind
  obtain rfl := Option.some.inj hfind
  obtain ⟨hreleased, hnone⟩ := Bool.and_eq_true_iff.mp hready
  obtain ⟨record, hrecord, hfresh, hgeneration, hobserved⟩ :=
    releaseBlocker_none (Option.isNone_iff_eq_none.mp hnone)
  obtain ⟨hattested, hepoch, hahead, -, hlate⟩ := EvidenceLedger.isFresh_iff.mp hfresh
  refine ⟨record, hr, Obligation.dependsOn_iff.mp hdepends,
    (Obligation.blocksCompletion_iff.mp hblocks).1, ?_, hrecord, hattested, hepoch, hgeneration,
    hobserved, hahead, hlate⟩
  revert hreleased
  cases hstate : o.state <;> simp [isReleased, hstate]

/-- What such an obligation is rewritten to. -/
theorem applyState_retired {o' : Obligation}
    (hreleased : o.state = .quiescing ∨ o.state = .released)
    (h : o.applyState o.revision .retired o.releaseEvidence now = .ok o') :
    o' = o.retiredAt now := by
  have hne : ObligationState.retired ≠ o.state := by
    intro heq
    rcases hreleased with hs | hs <;> rw [hs] at heq <;> cases heq
  rw [Obligation.applyState, if_neg (not_not.mpr rfl), if_neg hne] at h
  split_ifs at h with hlegal hmax
  · exact absurd h fail_ne_ok
  · exact (Except.ok.inj h).symm
  · exact absurd h fail_ne_ok

/-- One turn: an obligation stays as it is, or is retired on a record of the drain. -/
theorem turn_obligation (e : Engine) (drain : DrainId) (now : TimePoint)
    (ho : e.obligations.find id = some o) :
    (e.fire (.turn drain now)).obligations.find id = some o ∨
      (e.fire (.turn drain now)).obligations.find id = some (o.retiredAt now) ∧
        ∃ r record, e.ProvesRelease now drain r o record := by
  obtain ⟨o', ho', hrewritten⟩ := (fire_obligationStep e (.turn drain now)).rewritten ho
  cases hrewritten with
  | kept heq => exact Or.inl (heq ▸ ho')
  | retired hr _ hmem happly =>
    have hid := ObligationTable.id_of_find ho
    obtain ⟨record, hproves⟩ := provesRelease_of_mem_retirable hr (hid.symm ▸ ho) hmem
    rw [applyState_retired hproves.released happly] at ho'
    exact Or.inr ⟨ho', _, record, hproves⟩

/-- A retired obligation is left alone by every further turn. -/
theorem turns_retired (ho : e.obligations.find id = some o) (hretired : o.state = .retired)
    (drains : List DrainId) :
    (run fire e (drains.map (fun drain => .turn drain now))).obligations.find id = some o := by
  induction drains generalizing e with
  | nil => exact ho
  | cons drain rest ih =>
    refine ih ?_
    rcases turn_obligation e drain now ho with hkept | ⟨-, r, record, hproves⟩
    · exact hkept
    · rcases hproves.released with hs | hs <;> rw [hs] at hretired <;> cases hretired

/-- A run of turns: an obligation stays as it is, or one of the drains retires it. -/
theorem turns_obligation (now : TimePoint) (ho : e.obligations.find id = some o)
    (drains : List DrainId) :
    (run fire e (drains.map (fun drain => .turn drain now))).obligations.find id = some o ∨
      (run fire e (drains.map (fun drain => .turn drain now))).obligations.find id =
          some (o.retiredAt now) ∧
        ∃ pre drain post, drains = pre ++ drain :: post ∧
          (run fire e (pre.map (fun drain => .turn drain now))).obligations.find id = some o ∧
          (run fire e ((pre ++ [drain]).map (fun drain => .turn drain now))).obligations.find id =
            some (o.retiredAt now) ∧
          ∃ r record, (run fire e (pre.map (fun drain => .turn drain now))).ProvesRelease now drain r o
            record := by
  induction drains generalizing e with
  | nil => exact Or.inl ho
  | cons drain rest ih =>
    rcases turn_obligation e drain now ho with hkept | ⟨hretired, r, record, hproves⟩
    · rcases ih hkept with hsame | ⟨hafter, pre, drain', post, rfl, hbefore, hretires, hproves⟩
      · exact Or.inl hsame
      · exact Or.inr ⟨hafter, drain :: pre, drain', post, rfl, hbefore, hretires, hproves⟩
    · exact Or.inr ⟨turns_retired hretired rfl rest, [], drain, rest, rfl, ho, hretired, r, record,
        hproves⟩

/-- No turn adds an obligation. -/
theorem turns_none (hnone : e.obligations.find id = none) (drains : List DrainId) :
    (run fire e (drains.map (fun drain => .turn drain now))).obligations.find id = none := by
  induction drains generalizing e with
  | nil => exact hnone
  | cons drain rest ih =>
    refine ih ?_
    cases hafter : (e.fire (.turn drain now)).obligations.find id with
    | none => rfl
    | some o' =>
      cases (fire_obligationStep e (.turn drain now)).fate hafter with
      | keeps hfind => cases hnone.symm.trans hfind
      | retired _ _ _ hfind => cases hnone.symm.trans hfind

/-- Turns add nothing to what is outstanding. -/
theorem outstandingFor_of_turns {target : DrainTarget} (drains : List DrainId)
    (ho : o ∈ (run fire e (drains.map (fun drain => .turn drain now))).outstandingFor target) :
    o ∈ e.outstandingFor target := by
  obtain ⟨hfind, hblocks, hdepends⟩ := mem_outstandingFor.mp ho
  cases hbefore : e.obligations.find o.id with
  | none => cases (turns_none hbefore drains).symm.trans hfind
  | some o₀ =>
    rcases turns_obligation now hbefore drains with hsame | ⟨hretired, -⟩
    · obtain rfl := Option.some.inj (hsame.symm.trans hfind)
      exact mem_outstandingFor.mpr ⟨hbefore, hblocks, hdepends⟩
    · obtain rfl := Option.some.inj (hretired.symm.trans hfind)
      exact absurd rfl (Obligation.blocksCompletion_iff.mp hblocks).2

/-- And they retire nothing that still has to be moved. -/
theorem outstandingFor_turns_of_moving (now : TimePoint) {target : DrainTarget}
    (drains : List DrainId) (ho : o ∈ e.outstandingFor target) (hmoving : isMoving o = true) :
    o ∈ (run fire e (drains.map (fun drain => .turn drain now))).outstandingFor target := by
  obtain ⟨hfind, hblocks, hdepends⟩ := mem_outstandingFor.mp ho
  rcases turns_obligation now hfind drains with
    hsame | ⟨-, pre, drain, post, -, -, -, r, record, hproves⟩
  · exact mem_outstandingFor.mpr ⟨hsame, hblocks, hdepends⟩
  · exfalso
    revert hmoving
    rcases hproves.released with hs | hs <;> simp [isMoving, hs]

/-- A pass at `now`, from any state. It adds no obligation and removes none; each is left
as it was, or was `Quiescing` or `Released` and protected and is retired, one revision
later, in the turn of a drain whose target it depends on; and when that drain had its
turn, the record that the obligation names was stored in the stream of its release under
that drain, attested, of the live epoch and the drain's generation, not older than the
drain's closure of admission, not ahead of the clock and still fresh. -/
theorem pass_retires_only (e : Engine) (now : TimePoint) (id : ObligationId) :
    match e.obligations.find id with
    | none => (e.advance now).1.obligations.find id = none
    | some o =>
      (e.advance now).1.obligations.find id = some o ∨
        (e.advance now).1.obligations.find id = some (o.retiredAt now) ∧
          ∃ pre drain post, e.passTurns now = pre ++ .turn drain now :: post ∧
            (run fire e pre).obligations.find id = some o ∧
            (run fire e (pre ++ [.turn drain now])).obligations.find id =
              some (o.retiredAt now) ∧
            ∃ r record, (run fire e pre).ProvesRelease now drain r o record := by
  rw [advance_eq_run, passTurns]
  cases ho : e.obligations.find id with
  | none => exact turns_none ho e.drains.keys
  | some o =>
    rcases turns_obligation now ho e.drains.keys with
      hsame | ⟨hafter, pre, drain, post, hkeys, hbefore, hretires, hproves⟩
    · exact Or.inl hsame
    · rw [List.map_append] at hretires
      refine Or.inr ⟨hafter, pre.map (fun drain => .turn drain now), drain,
        post.map (fun drain => .turn drain now), ?_, hbefore, hretires, hproves⟩
      rw [hkeys, List.map_append, List.map_cons]

end DrainFabric
