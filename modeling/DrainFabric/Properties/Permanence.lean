import DrainFabric.Engine.Sound
import DrainFabric.Properties.CallerOrder
import DrainFabric.Properties.Scope

/-!
# What no later event takes back

An authority that has ended stays ended, an obligation keeps the terms it was admitted
under, and a set keeps its drains: through every call, every turn and every restart. Each
rests on what a single write can do and on what a recovery hands out.

* `Ended`, `ended_authority_refused` — an authority ends with its revocation, a new line
  or a restart, and no operation that presents it is carried out afterwards;
* `obligation_permanent` — no obligation is lost or bound to anything else;
* `set_permanent` — a set lists exactly the drains that carry its number, one for each
  of its targets.
-/

namespace DrainFabric

open Lib World Engine

variable {w w' : World} {ev : Event} {e recovered : Engine} {prev : IncarnationId}
  {now : TimePoint}

/-! ### Authorities -/

section

variable {id : AuthorityId}

/-- A revocation leaves the token revoked, and every other token as it was. -/
theorem AuthorityRegistry.find_of_revoke {registry registry' : AuthorityRegistry} {at_ : TimePoint}
    {reason : String} {other : AuthorityId} {known : AuthorityToken}
    (h : registry.revoke id at_ reason = .ok registry') (hknown : registry'.find other = some known) :
    known.revoked = true ∨ other ≠ id ∧ registry.find other = some known := by
  obtain ⟨token, hfind, rfl⟩ := revoke_eq_ok.mp h
  have hkey : token.id = id := Table.key_of_find? hfind
  rw [find, Table.find?_put, AuthorityToken.revoke, hkey] at hknown
  split_ifs at hknown with hid
  · obtain rfl := Option.some.inj hknown
    exact Or.inl rfl
  · exact Or.inr ⟨Ne.symm hid, hknown⟩

/-- The authority has been issued, and its token is not in force. -/
structure World.Ended (w : World) (id : AuthorityId) : Prop where
  issued : id ≤ w.authority.highWater
  revoked : ∀ token, w.authority.find id = some token → token.revoked = true

theorem World.Ended.write (hwrite : Write w ev w') (h : w.Ended id) : w'.Ended id := by
  cases hwrite with
  | incarnation hinstall =>
    obtain ⟨-, rfl⟩ := AuthorityRegistry.installIncarnation_eq_ok.mp hinstall
    exact ⟨h.issued, h.revoked⟩
  | line hinstall =>
    obtain ⟨-, -, -, -, rfl⟩ := AuthorityRegistry.installLine_eq_ok.mp hinstall
    exact ⟨h.issued, fun _ => AuthorityRegistry.revoked_of_revokeAll⟩
  | @token _ _ _ _ token hissue =>
    obtain ⟨htoken, rfl⟩ := AuthorityRegistry.issue_eq_ok hissue
    refine ⟨h.issued.trans (Nat.le_succ _), fun known hknown => h.revoked known ?_⟩
    -- A new token has a new number.
    have hne : token.id ≠ id := by
      rw [htoken]
      exact (Nat.lt_succ_of_le h.issued).ne'
    simpa [withAuthority, AuthorityRegistry.find, Table.find?_emplace, hne] using hknown
  | revocation hrevoke =>
    refine ⟨?_, fun known hknown => (AuthorityRegistry.find_of_revoke hrevoke hknown).elim
      (fun hrevoked => hrevoked) (fun hold => h.revoked known hold.2)⟩
    obtain ⟨token, -, rfl⟩ := AuthorityRegistry.revoke_eq_ok.mp hrevoke
    exact h.issued
  | _ => exact ⟨h.issued, h.revoked⟩

/-- A recovery hands out no token that is in force. -/
theorem Engine.Recovery.ended (h : Recovery e prev now recovered) (hw : Sound e.toWorld)
    (hissued : id ≤ e.authority.highWater) : recovered.Ended id := by
  obtain ⟨registry, hload, hauthority⟩ := h.authority
  obtain ⟨-, rfl⟩ := (AuthorityRegistry.loadFromJson_eq_ok hw.tokens).mp hload
  constructor
  · rw [hauthority]
    exact hissued
  · intro token hfind
    rw [hauthority] at hfind
    exact AuthorityRegistry.revoked_of_revokeAll hfind

theorem ended_fire (e : Engine) (ev : Event) (h : Sound e.toWorld ∧ e.Ended id) :
    Sound (e.fire ev).toWorld ∧ (e.fire ev).Ended id :=
  ⟨sound_fire e ev h.1, fire_rule (P := fun w => w.Ended id) e ev
    (fun _ _ hwrite hw => hw.write hwrite)
    (fun _ _ _ _ hrec => hrec.ended h.1 h.2.issued) h.2⟩

/-- The event ends the authority: it is revoked, a new line is installed, or the engine is
restarted. -/
def Engine.Ends (e : Engine) (id : AuthorityId) : Event → Prop
  | .call (.revokeAuthority revoked reason now) =>
    revoked = id ∧ (e.revokeAuthority revoked reason now).2.isOk = true
  | .call (.installAuthorityLine incarnation epoch now reason) =>
    (e.installAuthorityLine incarnation epoch now reason).2.isOk = true
  | .call (.beginNewEpoch incarnation now reason) =>
    (e.beginNewEpoch incarnation now reason).2.isOk = true
  | .restart prev now => (e.restore e.snapshot prev now).2.isOk = true
  | _ => False

theorem ended_installAuthorityLine {incarnation : IncarnationId} {epoch : Epoch} {reason : String}
    (hissued : id ≤ e.authority.highWater)
    (hok : (e.installAuthorityLine incarnation epoch now reason).2.isOk = true) :
    (e.installAuthorityLine incarnation epoch now reason).1.Ended id := by
  unfold installAuthorityLine at hok ⊢
  cases hline : e.authority.installLine incarnation epoch now reason with
  | error err =>
    rw [hline] at hok
    cases hok
  | ok authority =>
    obtain ⟨-, -, -, -, rfl⟩ := AuthorityRegistry.installLine_eq_ok.mp hline
    exact ⟨hissued, fun _ => AuthorityRegistry.revoked_of_revokeAll⟩

theorem Engine.Ends.ended (h : e.Ends id ev) (hw : Sound e.toWorld)
    (hissued : id ≤ e.authority.highWater) : (e.fire ev).Ended id := by
  cases ev with
  | call c =>
    cases c with
    | revokeAuthority revoked reason now =>
      obtain ⟨rfl, hok⟩ := h
      simp only [fire, apply, revokeAuthority] at hok ⊢
      cases hrevoke : e.authority.revoke revoked now reason with
      | error err =>
        rw [hrevoke] at hok
        cases hok
      | ok authority =>
        refine ⟨?_, fun known hknown =>
          (AuthorityRegistry.find_of_revoke hrevoke hknown).resolve_right (fun h => h.1 rfl)⟩
        obtain ⟨token, -, rfl⟩ := AuthorityRegistry.revoke_eq_ok.mp hrevoke
        exact hissued
    | installAuthorityLine => exact ended_installAuthorityLine hissued h
    | beginNewEpoch incarnation now reason =>
      simp only [Ends, fire, apply, beginNewEpoch] at h ⊢
      cases hepoch : incrementChecked e.authority.epoch with
      | none =>
        rw [hepoch] at h
        cases h
      | some epoch =>
        simp only [hepoch] at h
        exact ended_installAuthorityLine hissued h
    | _ => cases h
  | turn => cases h
  | restart prev now =>
    simp only [Ends, fire, restore] at h ⊢
    cases hdecode : decodeSnapshot e.policy e.snapshot prev now with
    | error err =>
      rw [hdecode] at h
      cases h
    | ok recovered =>
      have hended := (decodeSnapshot_eq_ok.mp hdecode).ended hw hissued
      exact hended

theorem World.Ended.refused (h : w.Ended id) (now : TimePoint) :
    ∃ err, w.requireAuthority id now = .error err := by
  cases hreq : w.requireAuthority id now with
  | error err => exact ⟨err, rfl⟩
  | ok u =>
    simp only [requireAuthority, bind_eq_ok, orFail_eq_ok] at hreq
    obtain ⟨_, -, token, hfind, hvalid⟩ := hreq
    obtain ⟨known, hknown, hlive, -⟩ := AuthorityRegistry.validate_eq_ok.mp hvalid
    rw [show token.id = id from Table.key_of_find? hfind] at hknown
    rw [h.revoked known hknown] at hlive
    cases hlive

theorem requestDrainSet_unauthorised {request : DrainRequest} {err : Error}
    (herr : e.requireAuthority request.authority now = .error err) :
    (e.requestDrainSet request now).2.isOk = false ∧
      (e.requestDrainSet request now).1.toWorld = e.toWorld := by
  unfold requestDrainSet
  cases normalizeTargets request.targets e.policy.maxTargetsPerRequest with
  | error err' => exact ⟨rfl, rfl⟩
  | ok targets =>
    simp only [herr]
    exact ⟨rfl, rfl⟩

/-- An operation that is not authorised is refused and changes nothing. -/
theorem refused_of_unauthorised {c : Call} {err : Error} (hc : c.presents = some id)
    (herr : e.requireAuthority id c.time = .error err) :
    e.accepts c = false ∧ (e.apply c).toWorld = e.toWorld := by
  cases c with
  | requestDrainSet request now =>
    obtain rfl := Option.some.inj hc
    exact requestDrainSet_unauthorised herr
  | requestDrain request now =>
    obtain rfl := Option.some.inj hc
    have herr : e.requireAuthority request.authority now = .error err := herr
    obtain ⟨hrefused, hworld⟩ := requestDrainSet_unauthorised herr
    rcases hrun : e.requestDrainSet request now with ⟨e', err' | set⟩
    · simp only [accepts, apply, requestDrain, hrun] at hworld ⊢
      exact ⟨rfl, hworld⟩
    · rw [hrun] at hrefused
      cases hrefused
  | admitObligation | cancelDrain | restoreDrain | resumeDrain | grantException =>
    obtain rfl := Option.some.inj hc
    simp only [Call.time] at herr
    simp only [accepts, apply, admitObligation, cancelDrain, restoreDrain, resumeDrain,
      grantException, herr]
    exact ⟨rfl, trivial⟩
  | _ => cases hc

end

/-- Once an authority has ended, no operation that presents it is accepted or changes
anything, whatever happens in between: it is not revived, and its number is not issued
again. -/
theorem ended_authority_refused {C : Engine → Event → Prop} {e : Engine} (he : Reachable C e)
    {id : AuthorityId} (hissued : id ≤ e.authority.highWater) {ev : Event} (hends : e.Ends id ev)
    (later : List Event) {c : Call} (hc : c.presents = some id) :
    (run fire (e.fire ev) later).accepts c = false ∧
      ((run fire (e.fire ev) later).apply c).toWorld = (run fire (e.fire ev) later).toWorld := by
  have hended := run_preserves (P := fun e : Engine => Sound e.toWorld ∧ e.Ended id) ended_fire
    ⟨sound_fire e ev he.sound, hends.ended he.sound hissued⟩ later
  obtain ⟨err, herr⟩ := hended.2.refused c.time
  exact refused_of_unauthorised hc herr

theorem OnePort.tokenFor_reachable : Reachable (fun _ _ => True) (OnePort.tokenFor "d1") :=
  reachable_run (.init {}) (by decide +kernel)

/-- The token that would drain the port does not survive a restart. -/
theorem ended_authority_refused_onePort :
    (OnePort.tokenFor "d1").accepts OnePort.drainPort = true ∧
      ((OnePort.tokenFor "d1").fire (.restart 0 2)).accepts OnePort.drainPort = false := by
  have hends : (OnePort.tokenFor "d1").Ends 1 (.restart 0 2) := by
    show Except.isOk _ = true
    decide +kernel
  exact ⟨by decide +kernel,
    (ended_authority_refused OnePort.tokenFor_reachable (by decide +kernel) hends [] rfl).1⟩

/-! ### Obligations -/

/-- What an obligation is admitted with. -/
def Obligation.terms (o : Obligation) :=
  (o.id, o.kind, o.protection, o.holder, o.service, o.group, o.mode, o.dependencies, o.capacity,
    o.admissionGeneration)

theorem terms_applyState {o o' : Obligation} {expected : Revision} {next : ObligationState}
    {evidence : EvidenceSeq} {at_ : TimePoint}
    (h : o.applyState expected next evidence at_ = .ok o') : o'.terms = o.terms := by
  obtain ⟨-, -, hframe⟩ := Obligation.applyState_ok h
  rw [hframe]
  rfl

theorem World.Rewritten.terms {o o' : Obligation} (h : Rewritten w o o' ev) :
    o'.terms = o.terms := by
  cases h with
  | kept heq => rw [heq]
  | reported _ _ happly heq =>
    have hterms := terms_applyState happly
    rw [heq]
    exact hterms
  | retired _ _ _ happly => exact terms_applyState happly
  | recovered heq =>
    rw [heq]
    rfl

/-- No run loses an obligation or changes what it was admitted with. -/
theorem obligation_permanent {e : Engine} {id : ObligationId} {o : Obligation}
    (ho : e.obligations.find id = some o) (events : List Event) :
    ∃ o', (run fire e events).obligations.find id = some o' ∧ o'.terms = o.terms := by
  refine run_preserves
    (P := fun e : Engine => ∃ o', e.obligations.find id = some o' ∧ o'.terms = o.terms)
    (fun e ev h => ?_) ⟨o, ho, rfl⟩ events
  obtain ⟨o₁, ho₁, hterms₁⟩ := h
  obtain ⟨o₂, ho₂, hrewritten⟩ := (fire_obligationStep e ev).rewritten ho₁
  exact ⟨o₂, ho₂, hrewritten.terms.trans hterms₁⟩

theorem obligation_permanent_onePort :
    ∃ o o', ((OnePort.tokenFor "d1").apply (OnePort.admitFlow 1)).obligations.find 1 = some o ∧
      (((OnePort.tokenFor "d1").apply (OnePort.admitFlow 1)).fire (.restart 0 2)).obligations.find
        1 = some o' ∧ o'.terms = o.terms := by
  have hsome : (((OnePort.tokenFor "d1").apply (OnePort.admitFlow 1)).obligations.find 1).isSome =
    true := by decide +kernel
  obtain ⟨o, ho⟩ := Option.isSome_iff_exists.mp hsome
  obtain ⟨o', ho', hterms⟩ := obligation_permanent ho [.restart 0 2]
  exact ⟨o, o', ho, ho', hterms⟩

/-! ### Sets -/

/-- The set is filed with these targets and members. -/
def World.Lists (w : World) (id : DrainSetId) (targets : List DrainTarget)
    (members : List DrainId) : Prop :=
  ∃ s, w.sets.find? id = some s ∧ s.targets = targets ∧ s.members = members

theorem lists_fire {id : DrainSetId} {targets : List DrainTarget} {members : List DrainId}
    (e : Engine) (ev : Event) (h : e.Lists id targets members) :
    (e.fire ev).Lists id targets members := by
  refine fire_rule (P := fun w => w.Lists id targets members) e ev (fun w w' hwrite hw => ?_)
    (fun _ _ _ _ hrec => ?_) h
  · obtain ⟨s, hs, hkept⟩ := hw
    cases hwrite with
    | founded =>
      refine ⟨s, ?_, hkept⟩
      rw [find?_withSet, show (w.withDrains _ _ _).sets.find? id = some s from hs, Option.some_or]
    | _ => exact ⟨s, hs, hkept⟩
  · obtain ⟨s, hs, hkept⟩ := h
    refine ⟨s.persisted, ?_, hkept⟩
    rw [hrec.sets_eq.2, Table.find?_mapVals, hs]
    rfl

/-- No run loses a set or changes its targets and members, and at all times it lists
exactly the drains that carry its number, consecutively numbered along its targets. -/
theorem set_permanent {C : Engine → Event → Prop} {e : Engine} (he : Reachable C e)
    {id : DrainSetId} {s : DrainSet} (hs : e.sets.find? id = some s) (events : List Event) :
    ∃ s', (run fire e events).sets.find? id = some s' ∧ s'.targets = s.targets ∧
      s'.members = s.members ∧ (run fire e events).Aligned s' ∧
      ∀ m, m ∈ s'.members ↔ ∃ r, (run fire e events).drain m = some r ∧ r.set = id := by
  obtain ⟨hlaid, s', hs', htargets, hmembers⟩ := run_preserves
    (P := fun e : Engine => Laid e.toWorld ∧ e.Lists id s.targets s.members)
    (fun e ev h => ⟨laid_fire e ev h.1, lists_fire e ev h.2⟩) ⟨he.laid, s, hs, rfl, rfl⟩ events
  exact ⟨s', hs', htargets, hmembers, hlaid.aligned id s' hs', hlaid.members id s' hs'⟩

theorem set_permanent_onePort :
    ∃ s s', ((OnePort.tokenFor "d1").apply OnePort.drainPort).sets.find? 1 = some s ∧
      (((OnePort.tokenFor "d1").apply OnePort.drainPort).fire (.restart 0 2)).sets.find? 1 =
        some s' ∧ s'.members = s.members := by
  have hsome : (((OnePort.tokenFor "d1").apply OnePort.drainPort).sets.find? 1).isSome = true := by
    decide +kernel
  obtain ⟨s, hs⟩ := Option.isSome_iff_exists.mp hsome
  obtain ⟨s', hs', -, hmembers, -⟩ :=
    set_permanent (OnePort.tokenFor_reachable.call OnePort.drainPort trivial) hs [.restart 0 2]
  exact ⟨s, s', hs, hs', hmembers⟩

end DrainFabric
